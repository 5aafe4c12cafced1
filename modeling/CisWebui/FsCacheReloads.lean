import CisWebui.FsCacheLookups

/-!
# Reloads of a node

What `load` makes of the children of a node: after a scan of the directory that
went through, and after one that failed.
-/

namespace CisWebui

open Cpp FilesystemPath Foundation

namespace FsNode

/-!
## Scans that go through
-/

/-- The scan of the directory went through: it has seen these entries, each
once and in some order. -/
structure Enumerated (disk : Disk) (path : Str) (names : List EntryName) :
    Prop where
  listing : disk.openDirectory (cStr path) =
    some { names := names, complete := true }
  once : names.Nodup
  answered : Answered disk path names

/-- What a reload with these entries has to make of a node. -/
structure Merged (now : Int) (names : List EntryName) (node node' : FsNode) :
    Prop where
  state : node'.state = NodeState.sync
  ordered : Sorted node'.children
  listed : List.Perm (node'.children.map Prod.fst) names
  inherited : forall name old, (name, old) ∈ node.children ->
    old.state = NodeState.sync -> forall child, (name, child) ∈ node'.children ->
      child = { old with cachingLevel := node.cachingLevel - 1 }
  others : forall name,
    (forall old, (name, old) ∈ node.children -> old.state ≠ NodeState.sync) ->
      forall child, (name, child) ∈ node'.children ->
        child = fresh now (node.cachingLevel - 1)

theorem map_fst_newChildren {names : List EntryName} (hnodup : names.Nodup)
    (child : FsNode) :
    List.Perm ((newChildren names child).map Prod.fst) names := by
  have hspec := newChildren_spec hnodup child
  have hkeys : ((newChildren names child).map Prod.fst).Nodup := by
    apply List.Pairwise.imp _ (sorted_iff_map.mp hspec.left)
    intro a b hlt heq
    rw [heq] at hlt
    exact lt_irrefl _ hlt
  apply (List.perm_ext_iff_of_nodup hkeys hnodup).mpr
  intro name
  constructor
  · intro h
    rcases List.mem_map.mp h with ⟨entry, hentry, hname⟩
    rw [← hname]
    exact ((hspec.right entry).mp hentry).left
  · intro h
    apply List.mem_map.mpr
    exact ⟨(name, child), (hspec.right _).mpr ⟨h, rfl⟩, rfl⟩

/-- A reload after a scan that went through merges the old children into the
new ones. -/
theorem merged_load {disk : Disk} {path : Str} {names : List EntryName}
    (now : Int) (node : FsNode) (hscans : Scans disk path node)
    (hsorted : Sorted node.children) (hscan : Enumerated disk path names) :
    (node.load disk now path).1 = Except.ok () ∧
      Merged now names node (node.load disk now path).2 := by
  have hnames : listedNames disk path = names := by
    rw [listedNames, hscan.listing]
  have hload := load_of_answered hscans (hnames ▸ hscan.answered) now
  have hspec := newChildren_spec hscan.once (fresh now (node.cachingLevel - 1))
  rw [hnames] at hload
  rw [hload]
  refine ⟨rfl, ?_⟩
  constructor
  · rfl
  · exact sorted_merge hspec.left
  · rw [map_fst_merge]
    exact map_fst_newChildren hscan.once _
  · intro name old hold hsync child hchild
    have heq := eq_of_mem_merge hsorted hscan.once hchild
    have hlookup := (lookup_eq_some_iff hsorted).mpr ⟨hold, rfl⟩
    rw [hlookup] at heq
    dsimp only at heq
    rw [takeOver, if_pos hsync] at heq
    exact heq
  · intro name hnone child hchild
    have heq := eq_of_mem_merge hsorted hscan.once hchild
    cases hlookup : lookup node.children name.text with
    | none =>
        rw [hlookup] at heq
        exact heq
    | some old =>
        rw [hlookup] at heq
        rcases (lookup_eq_some_iff hsorted).mp hlookup with ⟨hmem, htext⟩
        have hold : (name, old.2) ∈ node.children := by
          rw [← EntryName.eq_of_text htext]
          exact hmem
        dsimp only at heq
        rw [takeOver, if_neg (hnone old.2 hold)] at heq
        exact heq

/-- The name of one letter. -/
def letter (b : UInt8) (hslash : b ≠ slash) (hnul : b ≠ 0) (hdot : b ≠ chr '.') :
    EntryName where
  text := [b]
  nonempty := List.cons_ne_nil b []
  noSlash := fun h => hslash (List.mem_singleton.mp h).symm
  noNul := fun h => hnul (List.mem_singleton.mp h).symm
  notHere := fun h => hdot (List.cons.inj h).left
  notUp := nofun

def sampleName : EntryName :=
  letter (chr 'a') (by decide) (by decide) (by decide)

def nameB : EntryName :=
  letter (chr 'b') (by decide) (by decide) (by decide)

def nameC : EntryName :=
  letter (chr 'c') (by decide) (by decide) (by decide)

def nameD : EntryName :=
  letter (chr 'd') (by decide) (by decide) (by decide)

theorem enumerated_uniformDisk (path : Str) {names : List EntryName} (hnodup : names.Nodup) :
    Enumerated (FsCache.uniformDisk names) path names := by
  constructor
  · rfl
  · exact hnodup
  · intro other _
    rfl

/-- A directory that has been listed before: `a` with a subtree, `b` changed since, and
`c`. -/
def sampleDirectory : FsNode where
  state := NodeState.modified
  lastUpdated := 3
  cachingLevel := 3
  children :=
    [(sampleName,
        { state := NodeState.sync
          lastUpdated := 2
          cachingLevel := 2
          children := [(nameD, fresh 2 1)] }),
      (nameB, { fresh 1 2 with state := NodeState.modified }),
      (nameC, { fresh 1 2 with state := NodeState.sync })]

/-- Now `c` is gone, and `d` is new. -/
theorem merged_load_sample :
    (sampleDirectory.load (FsCache.uniformDisk [nameD, nameB, sampleName]) 5 (str "/p")).1 =
        Except.ok () ∧
      Merged 5 [nameD, nameB, sampleName] sampleDirectory
        (sampleDirectory.load (FsCache.uniformDisk [nameD, nameB, sampleName]) 5
          (str "/p")).2 :=
  merged_load 5 sampleDirectory ⟨rfl, by decide⟩ (by decide)
    (enumerated_uniformDisk (str "/p") (by decide))

/-!
## Scans that fail
-/

/-- The scan failed when it had seen these entries: the directory could not be
opened, or the iterator that goes through it reported an error, by which it
becomes the end iterator. -/
inductive FailedScan (disk : Disk) (path : Str) : List EntryName -> Prop where
  | opening (h : disk.openDirectory (cStr path) = none) :
      FailedScan disk path []
  | reading (names : List EntryName) (once : names.Nodup)
      (h : disk.openDirectory (cStr path) =
        some { names := names, complete := false }) :
      FailedScan disk path names

theorem FailedScan.listedNames_eq {disk : Disk} {path : Str}
    {names : List EntryName} (h : FailedScan disk path names) :
    listedNames disk path = names ∧ names.Nodup := by
  cases h with
  | opening h => exact ⟨by rw [listedNames, h], List.nodup_nil⟩
  | reading names once h => exact ⟨by rw [listedNames, h], once⟩

/-- The old view is kept: the children are those the node had, and it is not
made a synchronised one. -/
def Kept (node node' : FsNode) : Prop :=
  node'.children = node.children ∧
    (node'.state = NodeState.sync -> node.state = NodeState.sync)

/-- A child that a reload at this time leaves as it is: it is synchronised, or
has just been made. -/
def Steady (now : Int) (level : Nat) (child : FsNode) : Prop :=
  (child.state = NodeState.sync ∧ child.cachingLevel = level) ∨
    child = fresh now level

theorem takeOver_fresh_eq_iff (now : Int) (level : Nat) (child : FsNode) :
    takeOver child (fresh now level) = child <-> Steady now level child := by
  cases child with
  | mk state lastUpdated cachingLevel children =>
      unfold takeOver Steady
      by_cases hsync : state = NodeState.sync
      · rw [if_pos hsync]
        simp only [fresh, FsNode.mk.injEq]
        constructor
        · intro h
          exact Or.inl ⟨hsync, h.right.right.left.symm⟩
        · intro h
          rcases h with h | h
          · exact ⟨trivial, trivial, h.right.symm, trivial⟩
          · rw [hsync] at h
            cases h.left
      · rw [if_neg hsync]
        constructor
        · intro h
          exact Or.inr h.symm
        · intro h
          rcases h with h | h
          · exact absurd h.left hsync
          · exact h.symm

/-- A merge of children with new ones of the same names. -/
theorem merge_map (olds : List (EntryName × FsNode)) (new : FsNode) :
    merge olds (olds.map fun old => (old.1, new)) =
      olds.map fun old => (old.1, takeOver old.2 new) := by
  induction olds with
  | nil => rw [List.map_nil, merge, List.map_nil]
  | cons old olds ih =>
      rw [List.map_cons, merge, if_neg (lt_irrefl _), if_pos rfl, ih,
        List.map_cons]

/-- Two lists of children in order with the same entries. -/
theorem eq_of_sorted {children children' : List (EntryName × FsNode)}
    (h : Sorted children) (h' : Sorted children')
    (hmem : forall entry, entry ∈ children <-> entry ∈ children') :
    children = children' := by
  have hnodup : forall {list : List (EntryName × FsNode)}, Sorted list ->
      list.Nodup := by
    intro list hlist
    apply List.Pairwise.imp _ hlist
    intro a b hlt heq
    rw [heq] at hlt
    exact lt_irrefl _ hlt
  have hperm := (List.perm_ext_iff_of_nodup (hnodup h) (hnodup h')).mpr hmem
  apply List.Perm.eq_of_pairwise _ h h' hperm
  intro a b _ _ hlt hgt
  exact absurd hgt (lt_asymm hlt)

/-- The new children when the names are those of the old ones. -/
theorem newChildren_eq_map {olds : List (EntryName × FsNode)}
    {names : List EntryName} (hsorted : Sorted olds) (hnodup : names.Nodup)
    (hnames : List.Perm (olds.map Prod.fst) names) (new : FsNode) :
    newChildren names new = olds.map fun old => (old.1, new) := by
  have hspec := newChildren_spec hnodup new
  have hmap : Sorted (olds.map fun old => (old.1, new)) :=
    List.pairwise_map.mpr hsorted
  apply eq_of_sorted hspec.left hmap
  intro entry
  rw [hspec.right, ← hnames.mem_iff, List.mem_map, List.mem_map]
  constructor
  · intro h
    rcases h with ⟨⟨old, hold, hname⟩, hnew⟩
    exact ⟨old, hold, Prod.ext hname hnew.symm⟩
  · intro h
    rcases h with ⟨old, hold, heq⟩
    rw [← heq]
    exact ⟨⟨old, hold, rfl⟩, rfl⟩

/-- The merge leaves the old children as they were exactly when the names are
theirs and it leaves each of them as it was. -/
theorem merge_eq_self_iff {olds : List (EntryName × FsNode)}
    {names : List EntryName} (hsorted : Sorted olds) (hnodup : names.Nodup)
    (now : Int) (level : Nat) :
    merge olds (newChildren names (fresh now level)) = olds <->
      List.Perm (olds.map Prod.fst) names ∧
        forall old, old ∈ olds -> Steady now level old.2 := by
  have hcases : List.Perm (olds.map Prod.fst) names ->
      (merge olds (newChildren names (fresh now level)) = olds <->
        forall old, old ∈ olds -> Steady now level old.2) := by
    intro hnames
    have hmap : merge olds (newChildren names (fresh now level)) = olds <->
        olds.map (fun old => (old.1, takeOver old.2 (fresh now level))) =
          olds.map id := by
      rw [newChildren_eq_map hsorted hnodup hnames, merge_map, List.map_id]
    rw [hmap, List.map_inj_left]
    constructor
    · intro h old hold
      exact (takeOver_fresh_eq_iff now level old.2).mp
        (congrArg Prod.snd (h old hold))
    · intro h old hold
      rw [(takeOver_fresh_eq_iff now level old.2).mpr (h old hold), id_eq]
  constructor
  · intro h
    have hnames : List.Perm (olds.map Prod.fst) names := by
      have hkeys := congrArg (List.map Prod.fst) h
      rw [map_fst_merge] at hkeys
      rw [← hkeys]
      exact map_fst_newChildren hnodup _
    exact ⟨hnames, (hcases hnames).mp h⟩
  · intro h
    exact (hcases h.left).mpr h.right

/-- When a scan that fails behind these entries does no harm: nothing is
scanned, no node can be made for an entry, or the node was synchronised before
and the entries are just its children, each to be left as it is. -/
def Unharmed (disk : Disk) (now : Int) (path : Str) (names : List EntryName)
    (node : FsNode) : Prop :=
  ¬ Scans disk path node ∨ ¬ Answered disk path names ∨
    (node.state = NodeState.sync ∧
      List.Perm (node.children.map Prod.fst) names ∧
      forall old, old ∈ node.children ->
        Steady now (node.cachingLevel - 1) old.2)

/-- A scan that failed has been taken for one that came to its end. -/
theorem kept_load_iff {disk : Disk} {path : Str} {names : List EntryName}
    (now : Int) (node : FsNode) (hsorted : Sorted node.children)
    (hfailed : FailedScan disk path names) :
    Kept node (node.load disk now path).2 <->
      Unharmed disk now path names node := by
  rcases hfailed.listedNames_eq with ⟨hnames, hnodup⟩
  unfold Unharmed
  by_cases hscans : Scans disk path node
  · by_cases hanswered : Answered disk path names
    · have hload := load_of_answered hscans (hnames.symm ▸ hanswered) now
      rw [hnames] at hload
      have hself := merge_eq_self_iff hsorted hnodup now (node.cachingLevel - 1)
      rw [hload]
      constructor
      · intro h
        exact Or.inr (Or.inr ⟨h.right rfl, hself.mp h.left⟩)
      · intro h
        rcases h with h | h | h
        · exact absurd hscans h
        · exact absurd hanswered h
        · exact ⟨hself.mpr h.right, fun _ => h.left⟩
    · rw [load_of_not_answered hscans (hnames.symm ▸ hanswered)]
      exact ⟨fun _ => Or.inr (Or.inl hanswered), fun _ => ⟨rfl, id⟩⟩
  · rw [load_of_not_scans hscans]
    exact ⟨fun _ => Or.inl hscans, fun _ => ⟨rfl, id⟩⟩

/-- A directory that is there, but cannot be opened. -/
def closedDisk : Disk where
  status _ := some FileType.directory
  openDirectory _ := none

/-- A node that waits for its reload, with one child. -/
def sampleParent : FsNode where
  state := NodeState.modified
  lastUpdated := 0
  cachingLevel := 3
  children := [(sampleName, fresh 0 2)]

theorem kept_load_iff_sample :
    ¬ Kept sampleParent (sampleParent.load closedDisk 5 (str "/p")).2 := by
  intro hkept
  have hunharmed := (kept_load_iff 5 sampleParent (List.pairwise_singleton _ _)
    (FailedScan.opening rfl)).mp hkept
  rcases hunharmed with h | h | h
  · exact h ⟨rfl, by decide⟩
  · exact h (fun name hname => by cases hname)
  · exact absurd h.left (by decide)

/-- The child is gone, and the node is marked. -/
theorem kept_load_not_everywhere :
    ¬ forall (disk : Disk) (now : Int) (path : Str) (names : List EntryName)
        (node : FsNode), Sorted node.children ->
        FailedScan disk path names ->
        Kept node (node.load disk now path).2 := by
  intro h
  have hkept := h closedDisk 5 (str "/p") [] sampleParent
    (List.pairwise_singleton _ _) (FailedScan.opening rfl)
  exact absurd (hkept.right rfl) (by decide)

end FsNode

end CisWebui
