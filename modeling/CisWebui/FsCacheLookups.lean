import CisWebui.FileSystem

/-!
# Lookups in the file cache

What a lookup does to the nodes it passes, in front of a file system: which of
them it reloads, and which children it finds there.
-/

namespace CisWebui

open Cpp FilesystemPath Foundation

namespace FsNode

/-!
## Children in order
-/

/-- The children of a node, in the order of their names and no name twice. -/
def Sorted (children : List (EntryName × FsNode)) : Prop :=
  children.Pairwise fun a b => a.1.text < b.1.text

instance (children : List (EntryName × FsNode)) : Decidable (Sorted children) :=
  inferInstanceAs (Decidable (children.Pairwise _))

/-- The first child of that name. -/
def lookup (children : List (EntryName × FsNode)) (name : Str) :
    Option (EntryName × FsNode) :=
  children.find? fun entry => entry.1.text == name

theorem child_eq_lookup (node : FsNode) (name : Str) :
    node.child name = lookup node.children name := rfl

theorem mem_of_child {node : FsNode} {name : Str} {entry : EntryName × FsNode}
    (h : node.child name = some entry) : entry ∈ node.children :=
  List.mem_of_find?_eq_some h

theorem lookup_cons (entry : EntryName × FsNode)
    (children : List (EntryName × FsNode)) (name : Str) :
    lookup (entry :: children) name =
      if entry.1.text = name then some entry else lookup children name := by
  unfold lookup
  rw [List.find?_cons]
  split
  · rename_i h
    rw [if_pos (by simpa using h)]
  · rename_i h
    rw [if_neg (by simpa using h)]

theorem lookup_eq_none {children : List (EntryName × FsNode)} {name : Str}
    (h : forall entry, entry ∈ children -> entry.1.text ≠ name) :
    lookup children name = none := by
  apply List.find?_eq_none.mpr
  intro entry hentry
  simpa using h entry hentry

theorem lookup_eq_some_iff {children : List (EntryName × FsNode)}
    (hsorted : Sorted children) {name : Str} {entry : EntryName × FsNode} :
    lookup children name = some entry <->
      entry ∈ children ∧ entry.1.text = name := by
  induction children with
  | nil => simp [lookup]
  | cons first rest ih =>
      have hrest := List.pairwise_cons.mp hsorted
      rw [lookup_cons]
      split
      · rename_i hname
        constructor
        · intro h
          cases h
          exact ⟨List.mem_cons_self, hname⟩
        · rintro ⟨hmem, htext⟩
          rcases List.mem_cons.mp hmem with rfl | hmem
          · rfl
          · have hlt := hrest.left entry hmem
            rw [hname, htext] at hlt
            exact absurd hlt (lt_irrefl _)
      · rename_i hname
        rw [ih hrest.right]
        constructor
        · rintro ⟨hmem, htext⟩
          exact ⟨List.mem_cons_of_mem _ hmem, htext⟩
        · rintro ⟨hmem, htext⟩
          rcases List.mem_cons.mp hmem with rfl | hmem
          · exact absurd htext hname
          · exact ⟨hmem, htext⟩

theorem mem_insertEqual {entry other : EntryName × FsNode}
    {children : List (EntryName × FsNode)} :
    other ∈ insertEqual entry children <-> other = entry ∨ other ∈ children := by
  induction children with
  | nil => simp [insertEqual]
  | cons first rest ih =>
      rw [insertEqual]
      split
      · simp
      · rw [List.mem_cons, ih, List.mem_cons]
        tauto

theorem sorted_insertEqual {entry : EntryName × FsNode}
    {children : List (EntryName × FsNode)} (hsorted : Sorted children)
    (hnew : forall other, other ∈ children -> other.1.text ≠ entry.1.text) :
    Sorted (insertEqual entry children) := by
  induction children with
  | nil => exact List.pairwise_singleton _ _
  | cons first rest ih =>
      have hrest := List.pairwise_cons.mp hsorted
      rw [insertEqual]
      split
      · rename_i hlt
        apply List.pairwise_cons.mpr
        constructor
        · intro other hother
          rcases List.mem_cons.mp hother with rfl | hother
          · exact hlt
          · exact hlt.trans (hrest.left other hother)
        · exact hsorted
      · rename_i hle
        have hne := hnew first List.mem_cons_self
        have hfirst : first.1.text < entry.1.text :=
          lt_of_le_of_ne (not_lt.mp hle) hne
        apply List.pairwise_cons.mpr
        constructor
        · intro other hother
          rcases mem_insertEqual.mp hother with rfl | hother
          · exact hfirst
          · exact hrest.left other hother
        · exact ih hrest.right fun other hother =>
            hnew other (List.mem_cons_of_mem _ hother)

/-- The new children of a directory. -/
def newChildren (names : List EntryName) (child : FsNode) :
    List (EntryName × FsNode) :=
  names.foldl (fun children name => insertEqual (name, child) children) []

theorem newChildren_spec {names : List EntryName} (hnodup : names.Nodup)
    (child : FsNode) :
    Sorted (newChildren names child) ∧
      forall entry, entry ∈ newChildren names child <->
        entry.1 ∈ names ∧ entry.2 = child := by
  suffices h : forall (names : List EntryName) (children : List (EntryName × FsNode)),
      names.Nodup -> Sorted children ->
      (forall name, name ∈ names -> forall other, other ∈ children ->
        other.1 ≠ name) ->
      let result := names.foldl
        (fun children name => insertEqual (name, child) children) children
      Sorted result ∧ forall entry, entry ∈ result <->
        (entry.1 ∈ names ∧ entry.2 = child) ∨ entry ∈ children by
    have hspec := h names [] hnodup List.Pairwise.nil (by simp)
    constructor
    · exact hspec.left
    · intro entry
      have hentry := hspec.right entry
      rw [List.mem_nil_iff, or_false] at hentry
      exact hentry
  intro names
  induction names with
  | nil =>
      intro children _ hsorted _
      exact ⟨hsorted, fun entry => by simp⟩
  | cons name rest ih =>
      intro children hnodup hsorted hnew
      rcases List.nodup_cons.mp hnodup with ⟨hname, hrest⟩
      have htext : forall other, other ∈ children -> other.1.text ≠ name.text := by
        intro other hother heq
        exact hnew name List.mem_cons_self other hother (EntryName.eq_of_text heq)
      have hspec := ih (insertEqual (name, child) children) hrest
        (sorted_insertEqual hsorted htext)
        (by
          intro other hother entry hentry heq
          rcases mem_insertEqual.mp hentry with rfl | hentry
          · rw [← heq] at hother
            exact hname hother
          · exact hnew other (List.mem_cons_of_mem _ hother) entry hentry heq)
      constructor
      · exact hspec.left
      · intro entry
        rw [List.foldl_cons, hspec.right, mem_insertEqual, List.mem_cons]
        constructor
        · rintro (⟨hmem, hchild⟩ | rfl | hmem)
          · exact Or.inl ⟨Or.inr hmem, hchild⟩
          · exact Or.inl ⟨Or.inl rfl, rfl⟩
          · exact Or.inr hmem
        · rintro (⟨rfl | hmem, hchild⟩ | hmem)
          · exact Or.inr (Or.inl (Prod.ext rfl hchild))
          · exact Or.inl ⟨hmem, hchild⟩
          · exact Or.inr (Or.inr hmem)

/-- The walk through old and new children: the new ones are left, and each takes
over what the old one of its name knows. -/
theorem lookup_merge {olds news : List (EntryName × FsNode)} (holds : Sorted olds)
    (hnews : Sorted news) (name : Str) :
    lookup (merge olds news) name =
      (lookup news name).map fun new =>
        (new.1,
          match lookup olds name with
          | none => new.2
          | some old => takeOver old.2 new.2) := by
  induction olds, news using merge.induct with
  | case1 news =>
      rw [merge]
      simp [lookup]
  | case2 olds hne =>
      rw [merge]
      · rfl
      · exact hne
  | case3 old olds new news hlt ih =>
      have hold := List.pairwise_cons.mp holds
      rw [merge, if_pos hlt, ih hold.right hnews, lookup_cons old]
      rcases eq_or_ne old.1.text name with hname | hname
      · -- every new name is behind the old one
        have hnone : lookup (new :: news) name = none := by
          apply lookup_eq_none
          intro entry hentry heq
          rw [← hname] at heq
          rcases List.mem_cons.mp hentry with rfl | hentry
          · exact absurd heq (ne_of_gt hlt)
          · have hafter := (List.pairwise_cons.mp hnews).left entry hentry
            exact absurd heq (ne_of_gt (hlt.trans hafter))
        rw [hnone]
        rfl
      · rw [if_neg hname]
  | case4 old olds new news hlt heq ih =>
      have hold := List.pairwise_cons.mp holds
      have hnew := List.pairwise_cons.mp hnews
      rw [merge, if_neg hlt, if_pos heq, lookup_cons, lookup_cons, lookup_cons,
        ih hold.right hnew.right]
      split
      · rename_i hname
        rw [if_pos (heq.trans hname)]
        rfl
      · rename_i hname
        rw [if_neg fun h => hname (heq.symm.trans h)]
  | case5 old olds new news hlt hne ih =>
      have hnew := List.pairwise_cons.mp hnews
      have hgt : new.1.text < old.1.text := lt_of_le_of_ne (not_lt.mp hlt) (Ne.symm hne)
      rw [merge, if_neg hlt, if_neg hne, lookup_cons, lookup_cons new news,
        ih holds hnew.right]
      rcases eq_or_ne new.1.text name with hname | hname
      · have hnone : lookup (old :: olds) name = none := by
          apply lookup_eq_none
          intro entry hentry heq
          rw [← hname] at heq
          rcases List.mem_cons.mp hentry with rfl | hentry
          · exact absurd heq (ne_of_gt hgt)
          · have hafter := (List.pairwise_cons.mp holds).left entry hentry
            exact absurd heq (ne_of_gt (hgt.trans hafter))
        rw [if_pos hname, if_pos hname, hnone]
        rfl
      · rw [if_neg hname, if_neg hname]

theorem map_fst_merge (olds news : List (EntryName × FsNode)) :
    (merge olds news).map Prod.fst = news.map Prod.fst := by
  induction olds, news using merge.induct with
  | case1 news => rw [merge]
  | case2 olds hne =>
      rw [merge]
      exact hne
  | case3 old olds new news hlt ih => rw [merge, if_pos hlt, ih]
  | case4 old olds new news hlt heq ih =>
      rw [merge, if_neg hlt, if_pos heq, List.map_cons, List.map_cons, ih]
  | case5 old olds new news hlt hne ih =>
      rw [merge, if_neg hlt, if_neg hne, List.map_cons, List.map_cons, ih]

theorem sorted_iff_map {children : List (EntryName × FsNode)} :
    Sorted children <->
      (children.map Prod.fst).Pairwise fun a b => a.text < b.text := by
  rw [List.pairwise_map]
  rfl

theorem sorted_merge {olds news : List (EntryName × FsNode)} (hnews : Sorted news) :
    Sorted (merge olds news) := by
  rw [sorted_iff_map, map_fst_merge, ← sorted_iff_map]
  exact hnews

/-- A child behind the merge is a new one that has met the old one of its
name. -/
theorem eq_of_mem_merge {olds : List (EntryName × FsNode)}
    {names : List EntryName} {new : FsNode} (holds : Sorted olds)
    (hnodup : names.Nodup) {name : EntryName} {child : FsNode}
    (h : (name, child) ∈ merge olds (newChildren names new)) :
    child = match lookup olds name.text with
      | none => new
      | some old => takeOver old.2 new := by
  have hspec := newChildren_spec hnodup new
  have hfound := (lookup_eq_some_iff (sorted_merge hspec.left)).mpr ⟨h, rfl⟩
  rw [lookup_merge holds hspec.left] at hfound
  rcases Option.map_eq_some_iff.mp hfound with ⟨entry, hentry, heq⟩
  have hmem := ((lookup_eq_some_iff hspec.left).mp hentry).left
  have hnew := ((hspec.right entry).mp hmem).right
  rw [hnew] at heq
  exact (congrArg Prod.snd heq).symm

/-!
## Trees in order
-/

/-- The children are in order all the way down, and every node knows how many
levels are cached below it. -/
inductive Tidy : Nat -> FsNode -> Prop where
  | mk {level : Nat} {node : FsNode} (hlevel : node.cachingLevel = level)
      (hsorted : Sorted node.children)
      (hchildren : forall entry, entry ∈ node.children ->
        Tidy (level - 1) entry.2) :
      Tidy level node

theorem Tidy.cachingLevel {level : Nat} {node : FsNode} (h : Tidy level node) :
    node.cachingLevel = level := by
  cases h with
  | mk hlevel _ _ => exact hlevel

theorem Tidy.sorted {level : Nat} {node : FsNode} (h : Tidy level node) :
    Sorted node.children := by
  cases h with
  | mk _ hsorted _ => exact hsorted

theorem Tidy.children {level : Nat} {node : FsNode} (h : Tidy level node)
    {entry : EntryName × FsNode} (hentry : entry ∈ node.children) :
    Tidy (level - 1) entry.2 := by
  cases h with
  | mk _ _ hchildren => exact hchildren entry hentry

theorem Tidy.child {level : Nat} {node : FsNode} (h : Tidy level node)
    {name : Str} {entry : EntryName × FsNode} (hentry : node.child name = some entry) :
    Tidy (level - 1) entry.2 :=
  h.children ((lookup_eq_some_iff h.sorted).mp hentry).left

theorem tidy_fresh (now : Int) (level : Nat) : Tidy level (fresh now level) := by
  apply Tidy.mk
  · rfl
  · exact List.Pairwise.nil
  · intro entry hentry
    cases hentry

/-- A node whose children are those of a tidy one is tidy. -/
theorem tidy_of_children {level : Nat} {node node' : FsNode} (h : Tidy level node)
    (hlevel : node'.cachingLevel = node.cachingLevel)
    (hchildren : node'.children = node.children) : Tidy level node' := by
  apply Tidy.mk
  · rw [hlevel, h.cachingLevel]
  · rw [hchildren]
    exact h.sorted
  · intro entry hentry
    rw [hchildren] at hentry
    exact h.children hentry

/-- A child behind a reload, with what the node had under its name. -/
def renewed (now : Int) (level : Nat) : Option (EntryName × FsNode) -> FsNode
  | none => fresh now level
  | some old => takeOver old.2 (fresh now level)

/-- A synchronised child stays as it was. -/
theorem renewed_sync {now : Int} {level : Nat} {old : EntryName × FsNode}
    (hold : Tidy level old.2) (hsync : old.2.state = NodeState.sync) :
    renewed now level (some old) = old.2 := by
  have hlevel := hold.cachingLevel
  rw [renewed, takeOver, if_pos hsync]
  cases hnode : old.2 with
  | mk state lastUpdated cachingLevel children =>
      rw [hnode] at hlevel
      cases hlevel
      rfl

/-- A child behind a reload is the synchronised one it was, or a new one. -/
theorem renewed_cases {now : Int} {level : Nat} {old : Option (EntryName × FsNode)}
    (hold : forall entry, old = some entry -> Tidy level entry.2) :
    (exists entry, old = some entry ∧ entry.2.state = NodeState.sync ∧
      renewed now level old = entry.2) ∨ renewed now level old = fresh now level := by
  cases old with
  | none => exact Or.inr rfl
  | some entry =>
      rcases eq_or_ne entry.2.state NodeState.sync with hsync | hsync
      · exact Or.inl ⟨entry, rfl, hsync, renewed_sync (hold entry rfl) hsync⟩
      · apply Or.inr
        rw [renewed, takeOver, if_neg hsync]

theorem tidy_renewed {now : Int} {level : Nat} {old : Option (EntryName × FsNode)}
    (hold : forall entry, old = some entry -> Tidy level entry.2) :
    Tidy level (renewed now level old) := by
  rcases renewed_cases hold with ⟨entry, hentry, _, heq⟩ | heq
  · rw [heq]
    exact hold entry hentry
  · rw [heq]
    exact tidy_fresh now level

/-!
## Reloads
-/

/-- `load` goes through the directory: the path is one, and its level is not
the last that is cached. -/
def Scans (disk : Disk) (path : Str) (node : FsNode) : Prop :=
  disk.status (cStr path) = some FileType.directory ∧ node.cachingLevel ≠ 1

/-- A node has been made for every entry of the directory. -/
def Answered (disk : Disk) (path : Str) (names : List EntryName) : Prop :=
  forall name, name ∈ names ->
    (disk.status (cStr (append path name.text))).isSome = true

theorem load_of_not_scans {disk : Disk} {path : Str} {node : FsNode}
    (h : ¬ Scans disk path node) (now : Int) :
    node.load disk now path = (Except.ok (), node) := by
  have hskip : disk.status (cStr path) ≠ some FileType.directory ∨
      node.cachingLevel = 1 := by
    by_cases hlevel : node.cachingLevel = 1
    · exact Or.inr hlevel
    · exact Or.inl fun hstatus => h ⟨hstatus, hlevel⟩
  rw [load, if_pos hskip]

theorem load_of_not_answered {disk : Disk} {path : Str} {node : FsNode}
    (hscans : Scans disk path node)
    (h : ¬ Answered disk path (listedNames disk path)) (now : Int) :
    node.load disk now path = (Except.error {}, node) := by
  have hgo : ¬ (disk.status (cStr path) ≠ some FileType.directory ∨
      node.cachingLevel = 1) := by
    rw [not_or]
    exact ⟨fun hne => hne hscans.left, hscans.right⟩
  have hany : ((listedNames disk path).any fun name =>
      (disk.status (cStr (append path name.text))).isNone) = true := by
    unfold Answered at h
    push Not at h
    rcases h with ⟨name, hname, hnone⟩
    apply List.any_eq_true.mpr
    refine ⟨name, hname, ?_⟩
    simpa using hnone
  rw [load, if_neg hgo]
  dsimp only
  rw [if_pos hany]

/-- What a scan leaves behind when a node could be made for each entry that it
got to see. -/
theorem load_of_answered {disk : Disk} {path : Str} {node : FsNode}
    (hscans : Scans disk path node)
    (h : Answered disk path (listedNames disk path)) (now : Int) :
    node.load disk now path =
      (Except.ok (), { node with
        children := merge node.children
          (newChildren (listedNames disk path)
            (fresh now (node.cachingLevel - 1)))
        state := NodeState.sync }) := by
  have hgo : ¬ (disk.status (cStr path) ≠ some FileType.directory ∨
      node.cachingLevel = 1) := by
    rw [not_or]
    exact ⟨fun hne => hne hscans.left, hscans.right⟩
  have hall : ¬ ((listedNames disk path).any fun name =>
      (disk.status (cStr (append path name.text))).isNone) = true := by
    intro hany
    rcases List.any_eq_true.mp hany with ⟨name, hname, hnone⟩
    have hsome := h name hname
    rw [Option.isNone_iff_eq_none.mp hnone] at hsome
    cases hsome
  rw [load, if_neg hgo]
  dsimp only
  rw [if_neg hall]
  rfl

/-- The node has been reloaded from the directory at the place. -/
structure Reloaded (fs : FileSystem) (now : Int) (level : Nat) (place : List Str)
    (node node' : FsNode) : Prop where
  directory : fs.tree.IsDirectory place
  state : node'.state = NodeState.sync
  lastUpdated : node'.lastUpdated = now
  tidy : Tidy level node'
  present : forall name : EntryName, fs.tree.Exists (place ++ [name.text]) ->
    node'.child name.text =
      some (name, renewed now (level - 1) (node.child name.text))
  exact : forall name entry, node'.child name = some entry ->
    entry.1.text = name ∧ fs.tree.Exists (place ++ [name])

theorem Reloaded.child_eq {fs : FileSystem} {now : Int} {level : Nat}
    {place : List Str} {node node' : FsNode}
    (h : Reloaded fs now level place node node') {name : Str}
    {entry : EntryName × FsNode} (hentry : node'.child name = some entry) :
    entry.2 = renewed now (level - 1) (node.child name) := by
  rcases h.exact name entry hentry with ⟨rfl, hexists⟩
  rw [h.present entry.1 hexists] at hentry
  rw [← Option.some.inj hentry]

theorem reloaded_load {fs : FileSystem} {now : Int} {level : Nat} {path : Str}
    {node : FsNode} (hnode : Tidy level node) (hlevel : level ≠ 1)
    (hnow : node.lastUpdated = now) (hdir : fs.tree.IsDirectory (fs.locate path)) :
    (node.load fs.disk now path).1 = Except.ok () ∧
      Reloaded fs now level (fs.locate path) node (node.load fs.disk now path).2 := by
  let news := newChildren (listedNames fs.disk path) (fresh now (level - 1))
  have hnames := fs.nodup_listedNames path
  have hspec := newChildren_spec hnames (fresh now (level - 1))
  have hscans : Scans fs.disk path node := by
    constructor
    · rw [fs.status_disk, hdir]
      rfl
    · rw [hnode.cachingLevel]
      exact hlevel
  have hanswered : Answered fs.disk path (listedNames fs.disk path) := by
    intro name _
    rw [fs.status_disk]
    rfl
  have hload := load_of_answered hscans hanswered now
  rw [hnode.cachingLevel] at hload
  have hlookup := lookup_merge hnode.sorted hspec.left
  rw [hload]
  constructor
  · rfl
  constructor
  · exact hdir
  · rfl
  · exact hnow
  · apply Tidy.mk
    · rfl
    · exact sorted_merge hspec.left
    · intro entry hentry
      rw [eq_of_mem_merge hnode.sorted hnames hentry]
      apply tidy_renewed
      intro old hold
      exact hnode.children ((lookup_eq_some_iff hnode.sorted).mp hold).left
  · intro name hexists
    have hnew : lookup news name.text = some (name, fresh now (level - 1)) := by
      apply (lookup_eq_some_iff hspec.left).mpr
      constructor
      · apply (hspec.right _).mpr
        exact ⟨(FileSystem.mem_listedNames hdir name).mpr hexists, rfl⟩
      · rfl
    show lookup (merge node.children news) name.text = _
    rw [hlookup, hnew, child_eq_lookup]
    cases lookup node.children name.text <;> rfl
  · intro name entry hentry
    have hfound : lookup (merge node.children news) name = some entry := hentry
    rw [hlookup] at hfound
    rcases Option.map_eq_some_iff.mp hfound with ⟨new, hnew, heq⟩
    rcases (lookup_eq_some_iff hspec.left).mp hnew with ⟨hmem, htext⟩
    have hlisted := ((hspec.right new).mp hmem).left
    rw [FileSystem.mem_listedNames hdir, htext] at hlisted
    constructor
    · rw [← heq]
      exact htext
    · exact hlisted

/-- A node that an update leaves alone. -/
def Settled (now invalidationTime : Int) (node : FsNode) : Prop :=
  node.state = NodeState.sync ∧ now - node.lastUpdated < invalidationTime

instance (now invalidationTime : Int) (node : FsNode) :
    Decidable (node.Settled now invalidationTime) :=
  inferInstanceAs (Decidable (_ ∧ _))

theorem update_eq (disk : Disk) (now invalidationTime : Int) (path : Str)
    (node : FsNode) :
    node.update disk now invalidationTime path =
      if node.Settled now invalidationTime then
        (Except.ok (), node)
      else
        match disk.status (cStr path) with
        | none => (Except.error {}, node)
        | some FileType.notFound =>
            (Except.ok (),
              { node with lastUpdated := now, state := NodeState.deleted })
        | some _ => load disk now path { node with lastUpdated := now } := rfl

theorem update_settled {now invalidationTime : Int} {node : FsNode}
    (h : node.Settled now invalidationTime) (disk : Disk) (path : Str) :
    node.update disk now invalidationTime path = (Except.ok (), node) := by
  rw [update_eq, if_pos h]

/-- Any other node is reloaded, if it is a directory. -/
theorem reloaded_update {fs : FileSystem} {now invalidationTime : Int}
    {level : Nat} {path : Str} {node : FsNode}
    (h : ¬ node.Settled now invalidationTime) (hnode : Tidy level node)
    (hlevel : level ≠ 1) (hdir : fs.tree.IsDirectory (fs.locate path)) :
    exists node', node.update fs.disk now invalidationTime path =
        (Except.ok (), node') ∧
      Reloaded fs now level (fs.locate path) node node' := by
  let touched : FsNode := { node with lastUpdated := now }
  have htouched : Tidy level touched := tidy_of_children hnode rfl rfl
  have hload : (touched.load fs.disk now path).1 = Except.ok () ∧
      Reloaded fs now level (fs.locate path) touched
        (touched.load fs.disk now path).2 :=
    reloaded_load htouched hlevel rfl hdir
  have hreloaded : Reloaded fs now level (fs.locate path) node
      (touched.load fs.disk now path).2 := by
    rcases hload.right with ⟨hdir, hstate, hupdated, htidy, hpresent, hexact⟩
    exact ⟨hdir, hstate, hupdated, htidy, hpresent, hexact⟩
  have hupdate : node.update fs.disk now invalidationTime path =
      touched.load fs.disk now path := by
    rw [update_eq, if_neg h, fs.status_disk, hdir]
    rfl
  refine ⟨_, ?_, hreloaded⟩
  rw [hupdate, ← hload.left]

/-- What is no directory keeps the children it had. -/
theorem update_of_not_directory {fs : FileSystem} {now invalidationTime : Int}
    {path : Str} {node : FsNode} (h : ¬ node.Settled now invalidationTime)
    (hdir : ¬ fs.tree.IsDirectory (fs.locate path)) :
    exists node', node.update fs.disk now invalidationTime path =
        (Except.ok (), node') ∧ node'.children = node.children ∧
      node'.cachingLevel = node.cachingLevel := by
  rw [update_eq, if_neg h, fs.status_disk]
  split
  · rename_i hstatus
    cases hstatus
  · exact ⟨_, rfl, rfl, rfl⟩
  · refine ⟨{ node with lastUpdated := now }, ?_, rfl, rfl⟩
    rw [load, if_pos]
    rw [fs.status_disk]
    apply Or.inl
    intro hstatus
    exact hdir (FileSystem.fileType_eq_directory_iff.mp (Option.some.inj hstatus))

theorem tidy_update (fs : FileSystem) (now invalidationTime : Int) {level : Nat}
    (path : Str) {node : FsNode} (hnode : Tidy level node) :
    Tidy level (node.update fs.disk now invalidationTime path).2 := by
  by_cases hsettled : node.Settled now invalidationTime
  · rw [update_settled hsettled]
    exact hnode
  · by_cases hdir : fs.tree.IsDirectory (fs.locate path)
    · rcases eq_or_ne level 1 with hlast | hlevel
      · -- the last level is never loaded
        have hupdate : node.update fs.disk now invalidationTime path =
            (Except.ok (), { node with lastUpdated := now }) := by
          rw [update_eq, if_neg hsettled, fs.status_disk, hdir]
          show load fs.disk now path { node with lastUpdated := now } = _
          rw [load, if_pos]
          apply Or.inr
          rw [← hlast]
          exact hnode.cachingLevel
        rw [hupdate]
        exact tidy_of_children hnode rfl rfl
      · rcases reloaded_update hsettled hnode hlevel hdir with ⟨node', hupdate, hnode'⟩
        rw [hupdate]
        exact hnode'.tidy
    · rcases update_of_not_directory hsettled hdir with
        ⟨node', hupdate, hchildren, hsame⟩
      rw [hupdate]
      exact tidy_of_children hnode hsame hchildren

/-!
## Changes of one node
-/

/-- Put another node in the place of a child. -/
def setChild (node : FsNode) (name : EntryName) (child : FsNode) : FsNode :=
  node.alter (fun _ => child) [name]

/-- A change further down leaves the child under its name. -/
theorem child_alter (f : FsNode -> FsNode) {node : FsNode} {name : EntryName}
    {old : FsNode} (hold : node.child name.text = some (name, old))
    (rest : List EntryName) :
    (node.alter f (name :: rest)).child name.text =
      some (name, old.alter f rest) := by
  have hset : forall children, lookup children name.text = some (name, old) ->
      lookup (children.map fun entry : EntryName × FsNode =>
        if entry.1 = name then (entry.1, alter f rest entry.2) else entry)
          name.text = some (name, old.alter f rest) := by
    intro children
    induction children with
    | nil =>
        intro h
        cases h
    | cons entry tail ih =>
        intro h
        rw [lookup_cons] at h
        rw [List.map_cons, lookup_cons]
        rcases eq_or_ne entry.1 name with heq | hne
        · rw [if_pos (by rw [heq])] at h
          rw [if_pos heq, if_pos (by rw [heq]), Option.some.inj h]
        · have htext : entry.1.text ≠ name.text := fun h =>
            hne (EntryName.eq_of_text h)
          rw [if_neg hne, if_neg htext]
          rw [if_neg htext] at h
          exact ih h
  exact hset node.children hold

theorem child_setChild {node : FsNode} {name : EntryName} {old : FsNode}
    (hold : node.child name.text = some (name, old)) (child : FsNode) :
    (node.setChild name child).child name.text = some (name, child) :=
  child_alter (fun _ => child) hold []

theorem map_fst_alter (f : FsNode -> FsNode) (name : EntryName)
    (rest : List EntryName) (node : FsNode) :
    (node.alter f (name :: rest)).children.map Prod.fst =
      node.children.map Prod.fst := by
  rw [alter, List.map_map]
  apply List.map_congr_left
  intro entry _
  show (if entry.1 = name then (entry.1, alter f rest entry.2) else entry).1 = _
  split
  · rfl
  · rfl

/-- A change that keeps nodes tidy may be made anywhere. -/
theorem tidy_alter {f : FsNode -> FsNode}
    (hf : forall level node, Tidy level node -> Tidy level (f node))
    (names : List EntryName) :
    forall {level : Nat} {node : FsNode}, Tidy level node ->
      Tidy level (node.alter f names) := by
  induction names with
  | nil =>
      intro level node hnode
      exact hf level node hnode
  | cons name rest ih =>
      intro level node hnode
      apply Tidy.mk
      · exact hnode.cachingLevel
      · rw [sorted_iff_map, map_fst_alter, ← sorted_iff_map]
        exact hnode.sorted
      · intro entry hentry
        rcases List.mem_map.mp hentry with ⟨old, hold, rfl⟩
        split
        · exact ih (hnode.children hold)
        · exact hnode.children hold

theorem tidy_setChild {level : Nat} {node child : FsNode} {name : EntryName}
    (hnode : Tidy level node) (hchild : Tidy (level - 1) child) :
    Tidy level (node.setChild name child) := by
  apply Tidy.mk
  · exact hnode.cachingLevel
  · rw [setChild, sorted_iff_map, map_fst_alter, ← sorted_iff_map]
    exact hnode.sorted
  · intro entry hentry
    rcases List.mem_map.mp hentry with ⟨old, hold, rfl⟩
    split
    · exact hchild
    · exact hnode.children hold

end FsNode

namespace FsCache

open FsNode

variable {cache : FsCache} {fs : FileSystem} {now : Int}

/-!
## Steps of a lookup
-/

/-- A node that a lookup updates before it looks for the child. -/
def Due (cache : FsCache) (now : Int) (node : FsNode) : Prop :=
  now - node.lastUpdated > cache.invalidationTime ∨ node.state = NodeState.init

instance (cache : FsCache) (now : Int) (node : FsNode) :
    Decidable (cache.Due now node) :=
  inferInstanceAs (Decidable (_ ∨ _))

theorem not_settled_of_due {node : FsNode} (h : cache.Due now node) :
    ¬ node.Settled now cache.invalidationTime := by
  rintro ⟨hsync, hage⟩
  rcases h with hold | hinit
  · omega
  · rw [hsync] at hinit
    cases hinit

/-- How a node is passed on the way to a child: it keeps its children, or it is
reloaded. -/
inductive Passed (cache : FsCache) (fs : FileSystem) (now : Int) (level : Nat)
    (place : List Str) (node : FsNode) (part : Str) :
    Option (EntryName × FsNode) -> FsNode -> Prop where
  | kept (node' : FsNode) (htidy : Tidy level node')
      (hchildren : node'.children = node.children)
      (hdue : cache.Due now node -> ¬ fs.tree.IsDirectory place)
      (hmissing : node.child part = none ->
        node.Settled now cache.invalidationTime ∨ ¬ fs.tree.IsDirectory place)
      (hsame : fs.tree.IsDirectory place -> node' = node) :
      Passed cache fs now level place node part (node.child part) node'
  | reloaded (node' : FsNode)
      (hstale : ¬ node.Settled now cache.invalidationTime)
      (hdue : cache.Due now node ∨ node.child part = none)
      (h : Reloaded fs now level place node node') :
      Passed cache fs now level place node part (node'.child part) node'

/-- The refresh and the search for the child, one after the other. -/
def pass (cache : FsCache) (disk : Disk) (now : Int) (depth : Nat) (path part : Str)
    (node : FsNode) :
    Except FilesystemError (Option (EntryName × FsNode)) × FsNode :=
  match cache.refreshNode disk now depth path node with
  | (Except.error e, node) => (Except.error e, node)
  | (Except.ok updated, node) => cache.findChild disk now updated path part node

theorem refreshNode_eq {depth : Nat} (hdepth : depth <= cache.maxCachingLevel)
    (disk : Disk) (path : Str) (node : FsNode) :
    cache.refreshNode disk now depth path node =
      if cache.Due now node then
        match node.update disk now cache.invalidationTime path with
        | (Except.error e, node) => (Except.error e, node)
        | (Except.ok (), node) => (Except.ok true, node)
      else
        (Except.ok false, node) := by
  unfold refreshNode
  by_cases hdue : cache.Due now node
  · have hupdates : (now - node.lastUpdated > cache.invalidationTime ∧
        depth <= cache.maxCachingLevel) ∨ node.state = NodeState.init := by
      rcases hdue with hold | hinit
      · exact Or.inl ⟨hold, hdepth⟩
      · exact Or.inr hinit
    rw [if_pos hdue]
    exact if_pos hupdates
  · rw [if_neg hdue, if_neg]
    rintro (⟨hold, _⟩ | hinit)
    · exact hdue (Or.inl hold)
    · exact hdue (Or.inr hinit)

theorem findChild_updated (disk : Disk) (path part : Str) (node : FsNode) :
    cache.findChild disk now true path part node =
      (Except.ok (node.child part), node) := by
  unfold findChild
  cases hchild : node.child part with
  | none => rfl
  | some entry => rfl

theorem passed_pass {depth level : Nat} (path part : Str) {node : FsNode}
    (hdepth : depth <= cache.maxCachingLevel) (hnode : Tidy level node)
    (hlevel : level ≠ 1) :
    exists found node',
      cache.pass fs.disk now depth path part node = (Except.ok found, node') ∧
        Passed cache fs now level (fs.locate path) node part found node' := by
  unfold pass
  rw [refreshNode_eq hdepth]
  by_cases hdue : cache.Due now node
  · have hstale := not_settled_of_due hdue
    rw [if_pos hdue]
    by_cases hdir : fs.tree.IsDirectory (fs.locate path)
    · rcases reloaded_update hstale hnode hlevel hdir with ⟨node', hupdate, hnode'⟩
      rw [hupdate]
      exact ⟨_, node', findChild_updated _ _ _ _,
        Passed.reloaded node' hstale (Or.inl hdue) hnode'⟩
    · rcases update_of_not_directory hstale hdir with
        ⟨node', hupdate, hchildren, hsame⟩
      rw [hupdate]
      refine ⟨_, node', findChild_updated _ _ _ _, ?_⟩
      have hchild : node'.child part = node.child part := by
        rw [child_eq_lookup, hchildren]
        rfl
      rw [hchild]
      exact Passed.kept node' (tidy_of_children hnode hsame hchildren) hchildren
        (fun _ => hdir) (fun _ => Or.inr hdir) (fun h => absurd h hdir)
  · rw [if_neg hdue]
    dsimp only
    unfold findChild
    cases hchild : node.child part with
    | some entry =>
        refine ⟨some entry, node, rfl, ?_⟩
        rw [← hchild]
        apply Passed.kept node hnode rfl
        · intro h
          exact absurd h hdue
        · intro h
          rw [hchild] at h
          cases h
        · intro _
          rfl
    | none =>
        dsimp only
        rw [if_neg Bool.false_ne_true]
        by_cases hsettled : node.Settled now cache.invalidationTime
        · rw [update_settled hsettled]
          refine ⟨_, node, rfl, ?_⟩
          exact Passed.kept node hnode rfl (fun h => absurd h hdue)
            (fun _ => Or.inl hsettled) (fun _ => rfl)
        · by_cases hdir : fs.tree.IsDirectory (fs.locate path)
          · rcases reloaded_update hsettled hnode hlevel hdir with
              ⟨node', hupdate, hnode'⟩
            rw [hupdate]
            exact ⟨_, node', rfl,
              Passed.reloaded node' hsettled (Or.inr hchild) hnode'⟩
          · rcases update_of_not_directory hsettled hdir with
              ⟨node', hupdate, hchildren, hsame⟩
            rw [hupdate]
            refine ⟨_, node', rfl, ?_⟩
            have hsame' : node'.child part = node.child part := by
              rw [child_eq_lookup, hchildren]
              rfl
            rw [hsame']
            exact Passed.kept node' (tidy_of_children hnode hsame hchildren)
              hchildren (fun h => absurd h hdue) (fun _ => Or.inr hdir)
              (fun h => absurd h hdir)

/-- A node stays tidy when it is passed. -/
theorem Passed.tidy {level : Nat} {place : List Str} {node node' : FsNode}
    {part : Str} {found : Option (EntryName × FsNode)}
    (h : Passed cache fs now level place node part found node') :
    Tidy level node' := by
  cases h with
  | kept _ htidy _ _ _ _ => exact htidy
  | reloaded _ _ _ hreloaded => exact hreloaded.tidy

theorem Passed.found_eq {level : Nat} {place : List Str} {node node' : FsNode}
    {part : Str} {found : Option (EntryName × FsNode)}
    (h : Passed cache fs now level place node part found node') :
    found = node'.child part := by
  cases h with
  | kept _ _ hchildren _ _ _ =>
      rw [child_eq_lookup, child_eq_lookup, hchildren]
  | reloaded _ _ _ _ => rfl

/-- The search goes on from the child, and the child is put back. -/
theorem findFrom_cons {depth : Nat} {names : List EntryName} {path part : Str}
    {rest : List Str} {node : FsNode} (disk : Disk) (hpart : part ≠ [slash])
    (hdepth : depth + 1 ≠ cache.maxCachingLevel) :
    cache.findFrom disk now path depth names node (part :: rest) =
      match cache.pass disk now (depth + 1) (cache.nodePath names) part node with
      | (Except.error e, node) => (Except.error e, node)
      | (Except.ok none, node) => (Except.ok none, node)
      | (Except.ok (some (name, child)), node) =>
          let (found, child) :=
            cache.findFrom disk now path (depth + 1) (names ++ [name]) child rest
          (found, node.setChild name child) := by
  rw [findFrom, if_neg hpart]
  dsimp only
  unfold pass
  cases hrefresh :
      cache.refreshNode disk now (depth + 1) (cache.nodePath names) node with
  | mk answer node' =>
      cases answer with
      | error e => rfl
      | ok updated =>
          dsimp only
          rw [if_neg hdepth]
          rfl

/-- The last cached level is refreshed, and the disk is looked at. -/
theorem findFrom_last {depth : Nat} (names : List EntryName) (path : Str) {part : Str}
    (rest : List Str) {node : FsNode} (hpart : part ≠ [slash])
    (hdepth : depth + 1 = cache.maxCachingLevel) (hnode : Tidy 1 node) :
    exists node',
      cache.findFrom fs.disk now path depth names node (part :: rest) =
        (cache.findListed fs.disk path, node') ∧ Tidy 1 node' := by
  have hupdate := update_ok fs.answering_disk now cache.invalidationTime
    (cache.nodePath names) node
  have htidy := tidy_update fs now cache.invalidationTime (cache.nodePath names) hnode
  rw [findFrom, if_neg hpart]
  dsimp only
  rw [refreshNode_eq (le_of_eq hdepth)]
  by_cases hdue : cache.Due now node
  · rw [if_pos hdue]
    cases hresult : node.update fs.disk now cache.invalidationTime
        (cache.nodePath names) with
    | mk answer node' =>
        rw [hresult] at hupdate htidy
        cases hupdate
        dsimp only
        rw [if_pos hdepth]
        exact ⟨node', rfl, htidy⟩
  · rw [if_neg hdue]
    dsimp only
    rw [if_pos hdepth]
    exact ⟨node, rfl, hnode⟩

/-- A lookup leaves the tree tidy. -/
theorem tidy_findElements (path : Str) (elements : List Str) :
    forall {depth : Nat} {names : List EntryName} {node : FsNode},
      depth < cache.maxCachingLevel -> Tidy (cache.maxCachingLevel - depth) node ->
      Tidy (cache.maxCachingLevel - depth)
        (cache.findFrom fs.disk now path depth names node elements).2 := by
  induction elements with
  | nil =>
      intro depth names node _ hnode
      exact hnode
  | cons part rest ih =>
      intro depth names node hdepth hnode
      rcases eq_or_ne part [slash] with rfl | hpart
      · rw [findFrom, if_pos rfl]
        exact ih hdepth hnode
      rcases eq_or_ne (depth + 1) cache.maxCachingLevel with hlast | hmore
      · have hone : cache.maxCachingLevel - depth = 1 := by
          omega
        rw [hone] at hnode ⊢
        rcases findFrom_last names path rest hpart hlast hnode with
          ⟨node', heq, hnode'⟩
        rw [heq]
        exact hnode'
      · have hlevel : cache.maxCachingLevel - depth ≠ 1 := by
          omega
        rcases passed_pass (cache.nodePath names) part hdepth hnode hlevel with
          ⟨found, node', hpass, hpassed⟩
        rw [findFrom_cons _ hpart hmore, hpass]
        cases found with
        | none => exact hpassed.tidy
        | some entry =>
            apply tidy_setChild hpassed.tidy
            have hchild := hpassed.tidy.child (hpassed.found_eq.symm)
            rw [show cache.maxCachingLevel - depth - 1 =
              cache.maxCachingLevel - (depth + 1) by omega] at hchild ⊢
            exact ih (by omega) hchild

/-!
## What the tree remembers
-/

/-- The tree leads along the parts from the node at the place, and a lookup does
not drop any of it: a directory that is due for an update still has the part,
and its node for the part is synchronised. -/
def Remembered (cache : FsCache) (fs : FileSystem) (now : Int) :
    List Str -> FsNode -> List Str -> Prop
  | _, _, [] => True
  | place, node, part :: rest =>
      exists child, node.child part = some child ∧
        (cache.Due now node -> fs.tree.IsDirectory place ->
          fs.tree.Exists (place ++ [part]) ∧ child.2.state = NodeState.sync) ∧
        Remembered cache fs now (place ++ [part]) child.2 rest

theorem place_child (names : List EntryName) (name : EntryName) :
    cache.place fs (names ++ [name]) = cache.place fs names ++ [name.text] :=
  place_append names [name]

/-- What is found in the tree is there, or the tree remembers it. -/
theorem exists_or_remembered (hnul : 0 ∉ cache.path) {path : Str}
    (parts : List Str) (hparts : [slash] ∉ parts) :
    forall {depth : Nat} {names : List EntryName} {node node' : FsNode}
      {found : Found},
      depth + parts.length < cache.maxCachingLevel ->
      Tidy (cache.maxCachingLevel - depth) node ->
      cache.findFrom fs.disk now path depth names node parts =
        (Except.ok (some found), node') ->
      fs.tree.Exists (cache.place fs names ++ parts) ∨
        cache.Remembered fs now (cache.place fs names) node parts := by
  induction parts with
  | nil =>
      intro depth names node node' found _ _ _
      exact Or.inr trivial
  | cons part rest ih =>
      intro depth names node node' found hdepth hnode h
      rw [List.length_cons] at hdepth
      have hpart : part ≠ [slash] := by
        rintro rfl
        exact hparts List.mem_cons_self
      have hlevel : cache.maxCachingLevel - depth ≠ 1 := by
        omega
      rcases passed_pass (cache.nodePath names) part
        (by omega : depth + 1 <= cache.maxCachingLevel) hnode hlevel with
        ⟨answer, passed, hpass, hpassed⟩
      rw [findFrom_cons _ hpart (by omega), hpass] at h
      cases answer with
      | none => cases h
      | some entry =>
          have hentry : passed.child part = some entry := hpassed.found_eq.symm
          have htext : entry.1.text = part := text_of_child hentry
          have hchild := hpassed.tidy.child hentry
          rw [show cache.maxCachingLevel - depth - 1 =
            cache.maxCachingLevel - (depth + 1) by omega] at hchild
          have hbelow := ih (fun hmem => hparts (List.mem_cons_of_mem _ hmem))
            (by omega) hchild (Prod.ext (Prod.mk.inj h).left rfl)
          rw [place_child, htext, List.append_assoc] at hbelow
          rcases hbelow with hexists | hremembered
          · exact Or.inl hexists
          rw [locate_nodePath hnul] at hpassed
          generalize hanswer : some entry = answer at hpassed
          cases hpassed with
          | kept _ _ _ hdue _ _ =>
              refine Or.inr ⟨entry, hanswer.symm, ?_, hremembered⟩
              intro h hdir
              exact absurd hdir (hdue h)
          | reloaded _ _ _ hreloaded =>
              rcases hreloaded.exact part entry hentry with ⟨_, hexists⟩
              cases rest with
              | nil => exact Or.inl hexists
              | cons next rest =>
                  have holds : forall old, node.child part = some old ->
                      Tidy (cache.maxCachingLevel - depth - 1) old.2 :=
                    fun old hold => hnode.child hold
                  have hrenewed := hreloaded.child_eq hentry
                  -- a new child remembers nothing
                  rcases renewed_cases holds with ⟨old, hold, hsync, heq⟩ | heq
                  · rw [heq] at hrenewed
                    rw [hrenewed] at hremembered
                    exact Or.inr ⟨old, hold, fun _ _ => ⟨hexists, hsync⟩, hremembered⟩
                  · rw [hrenewed, heq] at hremembered
                    rcases hremembered with ⟨child, hchild, _⟩
                    cases hchild

/-- What the tree remembers is found. -/
theorem found_of_remembered (hnul : 0 ∉ cache.path) {path : Str}
    (parts : List Str) (hparts : [slash] ∉ parts) :
    forall {depth : Nat} {names : List EntryName} {node : FsNode},
      depth + parts.length < cache.maxCachingLevel ->
      Tidy (cache.maxCachingLevel - depth) node ->
      cache.Remembered fs now (cache.place fs names) node parts ->
      exists found,
        (cache.findFrom fs.disk now path depth names node parts).1 =
          Except.ok (some found) := by
  induction parts with
  | nil =>
      intro depth names node _ _ _
      exact ⟨Found.node names, rfl⟩
  | cons part rest ih =>
      intro depth names node hdepth hnode h
      rw [List.length_cons] at hdepth
      have hpart : part ≠ [slash] := by
        rintro rfl
        exact hparts List.mem_cons_self
      have hlevel : cache.maxCachingLevel - depth ≠ 1 := by
        omega
      rcases h with ⟨child, hchild, hkept, hremembered⟩
      rcases passed_pass (cache.nodePath names) part
        (by omega : depth + 1 <= cache.maxCachingLevel) hnode hlevel with
        ⟨answer, passed, hpass, hpassed⟩
      have htext : child.1.text = part := text_of_child hchild
      have htidy := hnode.child hchild
      have hanswer : answer = some child := by
        rw [locate_nodePath hnul] at hpassed
        cases hpassed with
        | kept _ _ _ _ _ _ => exact hchild
        | reloaded _ _ hdue hreloaded =>
            have hdue : cache.Due now node := by
              rcases hdue with hdue | hnone
              · exact hdue
              · rw [hchild] at hnone
                cases hnone
            rcases hkept hdue hreloaded.directory with ⟨hexists, hsync⟩
            rw [← htext] at hexists hchild
            rw [← htext, hreloaded.present child.1 hexists, hchild,
              renewed_sync htidy hsync]
      rw [findFrom_cons _ hpart (by omega), hpass, hanswer]
      rw [show cache.maxCachingLevel - depth - 1 =
        cache.maxCachingLevel - (depth + 1) by omega] at htidy
      apply ih (fun hmem => hparts (List.mem_cons_of_mem _ hmem)) (by omega) htidy
      rw [place_child, htext]
      exact hremembered

/-!
## What stands in the way
-/

/-- On the way along the parts there is a directory that is settled and does not
know the next part.  A directory that is due is reloaded first, and a child that
is not synchronised does not outlast that. -/
def Blocked (cache : FsCache) (now : Int) : FsNode -> List Str -> Prop
  | _, [] => False
  | node, part :: rest =>
      match node.child part with
      | none => node.Settled now cache.invalidationTime
      | some child =>
          (cache.Due now node -> child.2.state = NodeState.sync) ∧
            Blocked cache now child.2 rest

/-- The tree leads along the names, past nodes that are not due. -/
def Held (cache : FsCache) (now : Int) : FsNode -> List EntryName -> Prop
  | _, [] => True
  | node, name :: rest =>
      exists child, node.child name.text = some (name, child) ∧
        ¬ cache.Due now node ∧ Held cache now child rest

theorem not_blocked_fresh (cache : FsCache) (now then' : Int) (level : Nat)
    (parts : List Str) : ¬ cache.Blocked now (fresh then' level) parts := by
  intro h
  cases parts with
  | nil => exact h
  | cons part rest =>
      have hsettled : (fresh then' level).Settled now cache.invalidationTime := h
      cases hsettled.left

theorem entry_eq_of_child {node : FsNode} {name : EntryName}
    {entry : EntryName × FsNode} (h : node.child name.text = some entry) :
    entry = (name, entry.2) :=
  Prod.ext (EntryName.eq_of_text (text_of_child h)) rfl

theorem not_due_reloaded (htime : 0 <= cache.invalidationTime) {level : Nat}
    {place : List Str} {node node' : FsNode}
    (h : Reloaded fs now level place node node') : ¬ cache.Due now node' := by
  rintro (hold | hinit)
  · rw [h.lastUpdated] at hold
    omega
  · rw [h.state] at hinit
    cases hinit

/-- What leads to something is there itself. -/
theorem exists_on_way {names tail last : List EntryName} {name : EntryName}
    (hlast : names ++ name :: tail = last)
    (hexists : fs.tree.Exists (cache.place fs last)) :
    fs.tree.Exists (cache.place fs names ++ [name.text]) := by
  rw [← place_child]
  apply FileTree.exists_of_exists_append (tail.map EntryName.text)
  rw [← place_append, ← List.append_cons, hlast]
  exact hexists

theorem exists_passed (fs : FileSystem) (now : Int) (hnul : 0 ∉ cache.path)
    {depth : Nat} {names : List EntryName} {node : FsNode}
    (hdepth : depth + 1 < cache.maxCachingLevel)
    (hnode : Tidy (cache.maxCachingLevel - depth) node) (name : EntryName) :
    exists answer passed,
      cache.pass fs.disk now (depth + 1) (cache.nodePath names) name.text node =
        (Except.ok answer, passed) ∧
      Passed cache fs now (cache.maxCachingLevel - depth) (cache.place fs names) node
        name.text answer passed := by
  have hlevel : cache.maxCachingLevel - depth ≠ 1 := by
    omega
  rw [← locate_nodePath hnul]
  exact passed_pass (cache.nodePath names) name.text (Nat.le_of_lt hdepth) hnode
    hlevel

/-- If nothing stands in the way to what is there, a lookup gets to the end of
the names, and the tree then leads there. -/
theorem found_of_not_blocked (hnul : 0 ∉ cache.path)
    (htime : 0 <= cache.invalidationTime) {path : Str} {rest : List Str}
    {found : Found} {last : List EntryName} (news : List EntryName) :
    forall {depth : Nat} {names : List EntryName} {node : FsNode},
      depth + news.length < cache.maxCachingLevel -> names ++ news = last ->
      Tidy (cache.maxCachingLevel - depth) node ->
      fs.tree.Exists (cache.place fs last) ->
      ¬ cache.Blocked now node (news.map EntryName.text) ->
      (forall node, Tidy (cache.maxCachingLevel - (depth + news.length)) node ->
        exists node', cache.findFrom fs.disk now path (depth + news.length) last
          node rest = (Except.ok (some found), node')) ->
      exists node',
        cache.findFrom fs.disk now path depth names node
            (news.map EntryName.text ++ rest) = (Except.ok (some found), node') ∧
        cache.Held now node' news := by
  induction news with
  | nil =>
      intro depth names node _ hlast hnode _ _ hrest
      rw [List.append_nil] at hlast
      rw [← hlast] at hrest
      rcases hrest node hnode with ⟨node', hfind⟩
      exact ⟨node', hfind, trivial⟩
  | cons name tail ih =>
      intro depth names node hdepth hlast hnode hexists hopen hrest
      rw [List.length_cons] at hdepth hrest
      have hthere := exists_on_way hlast hexists
      have hdir : fs.tree.IsDirectory (cache.place fs names) :=
        FileTree.isDirectory_of_exists_append _ (List.cons_ne_nil _ _) hthere
      rcases exists_passed fs now hnul (by omega) hnode name with
        ⟨answer, passed, hpass, hpassed⟩
      have htidy := hpassed.tidy
      have hfound := hpassed.found_eq
      have hgo : exists child, answer = some (name, child) ∧
          ¬ cache.Due now passed ∧
          ¬ cache.Blocked now child (tail.map EntryName.text) := by
        cases hpassed with
        | kept _ _ _ hdue hmissing hsame =>
            rw [hsame hdir]
            cases hchild : node.child name.text with
            | none =>
                rcases hmissing hchild with hsettled | hnot
                · apply absurd _ hopen
                  rw [List.map_cons, Blocked, hchild]
                  exact hsettled
                · exact absurd hdir hnot
            | some child =>
                refine ⟨child.2, congrArg some (entry_eq_of_child hchild),
                  fun h => hdue h hdir, ?_⟩
                intro hblocked
                apply hopen
                rw [List.map_cons, Blocked, hchild]
                exact ⟨fun h => absurd hdir (hdue h), hblocked⟩
        | reloaded _ hstale hdue hreloaded =>
            refine ⟨_, hreloaded.present name hthere, not_due_reloaded htime hreloaded,
              ?_⟩
            have holds : forall old, node.child name.text = some old ->
                Tidy (cache.maxCachingLevel - depth - 1) old.2 :=
              fun old hold => hnode.child hold
            rcases renewed_cases holds with ⟨old, hold, hsync, heq⟩ | heq
            · rw [heq]
              intro hblocked
              apply hopen
              rw [List.map_cons, Blocked, hold]
              exact ⟨fun _ => hsync, hblocked⟩
            · rw [heq]
              exact not_blocked_fresh cache now _ _ _
      rcases hgo with ⟨child, rfl, hdue, hopen⟩
      have hchild := htidy.child hfound.symm
      rw [show cache.maxCachingLevel - depth - 1 =
        cache.maxCachingLevel - (depth + 1) by omega] at hchild
      rw [List.append_cons] at hlast
      rw [show depth + (tail.length + 1) = depth + 1 + tail.length by omega] at hrest
      rcases ih (by omega) hlast hchild hexists hopen hrest with
        ⟨child', hfind, hheld⟩
      rw [List.map_cons, List.cons_append,
        findFrom_cons _ name.text_ne_slash (by omega), hpass]
      dsimp only
      rw [hfind]
      refine ⟨_, rfl, ?_⟩
      exact ⟨child', child_setChild hfound.symm child', hdue, hheld⟩

/-- What something stands in the way to is not found, and that stays so. -/
theorem blocked_findFrom (hnul : 0 ∉ cache.path)
    (htime : 0 <= cache.invalidationTime) {path : Str} {rest : List Str}
    {last : List EntryName} (news : List EntryName) :
    forall {depth : Nat} {names : List EntryName} {node : FsNode},
      depth + news.length < cache.maxCachingLevel -> names ++ news = last ->
      Tidy (cache.maxCachingLevel - depth) node ->
      fs.tree.Exists (cache.place fs last) ->
      cache.Blocked now node (news.map EntryName.text) ->
      exists node',
        cache.findFrom fs.disk now path depth names node
            (news.map EntryName.text ++ rest) = (Except.ok none, node') ∧
        cache.Blocked now node' (news.map EntryName.text) := by
  induction news with
  | nil =>
      intro depth names node _ _ _ _ hblocked
      exact hblocked.elim
  | cons name tail ih =>
      intro depth names node hdepth hlast hnode hexists hblocked
      rw [List.length_cons] at hdepth
      have hthere := exists_on_way hlast hexists
      have hdir : fs.tree.IsDirectory (cache.place fs names) :=
        FileTree.isDirectory_of_exists_append _ (List.cons_ne_nil _ _) hthere
      rcases exists_passed fs now hnul (by omega) hnode name with
        ⟨answer, passed, hpass, hpassed⟩
      have hfound := hpassed.found_eq
      rw [List.map_cons, Blocked] at hblocked
      rw [List.map_cons, List.cons_append,
        findFrom_cons _ name.text_ne_slash (by omega), hpass]
      cases hchild : node.child name.text with
      | none =>
          rw [hchild] at hblocked
          cases hpassed with
          | kept _ _ _ _ _ hsame =>
              rw [hchild]
              refine ⟨_, rfl, ?_⟩
              rw [hsame hdir, Blocked, hchild]
              exact hblocked
          | reloaded _ hstale _ _ => exact absurd hblocked hstale
      | some child =>
          rw [hchild] at hblocked
          have hgo : answer = some (name, child.2) ∧
              (cache.Due now passed -> False) := by
            cases hpassed with
            | kept _ _ _ hdue _ hsame =>
                rw [hsame hdir]
                refine ⟨?_, fun h => hdue h hdir⟩
                rw [hchild, entry_eq_of_child hchild]
            | reloaded _ _ hdue hreloaded =>
                have hdue : cache.Due now node := by
                  rcases hdue with hdue | hnone
                  · exact hdue
                  · rw [hchild] at hnone
                    cases hnone
                refine ⟨?_, not_due_reloaded htime hreloaded⟩
                rw [hreloaded.present name hthere, hchild,
                  renewed_sync (hnode.child hchild) (hblocked.left hdue)]
          have htidyChild := hnode.child hchild
          rw [show cache.maxCachingLevel - depth - 1 =
            cache.maxCachingLevel - (depth + 1) by omega] at htidyChild
          rw [List.append_cons] at hlast
          rcases ih (by omega) hlast htidyChild hexists hblocked.right with
            ⟨child', hfind, hstill⟩
          rw [hgo.left]
          dsimp only
          rw [hfind]
          refine ⟨_, rfl, ?_⟩
          have hheld : passed.child name.text = some (name, child.2) := by
            rw [← hfound, hgo.left]
          rw [Blocked, child_setChild hheld]
          exact ⟨fun h => (hgo.right h).elim, hstill⟩

theorem due_congr {cache' : FsCache}
    (htime : cache'.invalidationTime = cache.invalidationTime) {node node' : FsNode}
    (hstate : node'.state = node.state)
    (hupdated : node'.lastUpdated = node.lastUpdated) :
    cache'.Due now node' <-> cache.Due now node := by
  rw [Due, Due, htime, hstate, hupdated]

/-- A node that the tree leads to may change: it is still remembered. -/
theorem remembered_of_held {cache' : FsCache}
    (htime : cache'.invalidationTime = cache.invalidationTime)
    (f : FsNode -> FsNode) (names : List EntryName) :
    forall {node : FsNode} (place : List Str), cache.Held now node names ->
      cache'.Remembered fs now place (node.alter f names)
        (names.map EntryName.text) := by
  induction names with
  | nil =>
      intro node place _
      trivial
  | cons name rest ih =>
      rintro node place ⟨child, hchild, hdue, hheld⟩
      refine ⟨_, child_alter f hchild rest, ?_, ih _ hheld⟩
      intro h
      exact absurd ((due_congr htime rfl rfl).mp h) hdue

end FsCache

end CisWebui
