import CisWebui.FsCacheRuns

/-!
# Creations in the file cache

Whether an entry that has just been made through the cache is found, and every
directory above it.
-/

namespace CisWebui

open Cpp FilesystemPath Foundation

namespace ValidPath

def parent (path : ValidPath) : ValidPath where
  text := parentPath path.text
  absolute := isAbsolute_parentPath path.absolute

/-- The path itself, its parent, the parent of that and so on. -/
def ancestor (path : ValidPath) (k : Nat) : ValidPath :=
  parent^[k] path

theorem parts_ancestor (path : ValidPath) (k : Nat) :
    FsCache.parts (path.ancestor k).text <+: FsCache.parts path.text := by
  induction k generalizing path with
  | zero => exact List.prefix_rfl
  | succ k ih =>
      apply (ih path.parent).trans
      rcases FsCache.parts_parentPath path.absolute with ⟨hparts, hparent⟩ | hparts
      · rw [hparts, parent, hparent]
      · rw [hparts]
        exact List.prefix_append _ _

end ValidPath

/-!
## Ways that are open or blocked
-/

namespace FsCache

variable {settings : CacheSettings} {cache : FsCache} {files : FileSystem}

theorem blocked_of_front {now : Int} {front all : List Str} (hfront : front <+: all) :
    forall {node : FsNode}, cache.Blocked now node front ->
      cache.Blocked now node all := by
  rcases hfront with ⟨rest, rfl⟩
  induction front with
  | nil =>
      intro node h
      exact h.elim
  | cons part front ih =>
      intro node h
      rw [List.cons_append]
      rw [Blocked] at h ⊢
      cases hchild : node.child part with
      | none =>
          rw [hchild] at h
          exact h
      | some child =>
          rw [hchild] at h
          exact ⟨h.left, ih h.right⟩

theorem blocked_congr {cache' : FsCache}
    (htime : cache'.invalidationTime = cache.invalidationTime) {now : Int}
    {parts : List Str} : forall {node : FsNode}, cache.Blocked now node parts ->
      cache'.Blocked now node parts := by
  induction parts with
  | nil =>
      intro node h
      exact h
  | cons part rest ih =>
      intro node h
      rw [Blocked] at h ⊢
      cases hchild : node.child part with
      | none =>
          rw [hchild] at h
          rw [htime]
          exact h
      | some child =>
          rw [hchild] at h
          exact ⟨fun hdue => h.left ((due_congr htime rfl rfl).mp hdue), ih h.right⟩

/-- Where the tree leads on, nothing stands in the way at any time. -/
theorem not_blocked_of_held {cache' : FsCache} {now : Int} (names : List EntryName)
    (then' : Int) :
    forall {node : FsNode}, cache.Held now node names ->
      ¬ cache'.Blocked then' node (names.map EntryName.text) := by
  induction names with
  | nil =>
      intro node _ h
      exact h
  | cons name rest ih =>
      rintro node ⟨child, hchild, _, hheld⟩ h
      rw [List.map_cons, Blocked, hchild] at h
      exact ih hheld h.right

/-- A node that has been invalidated is reloaded for any child. -/
theorem not_blocked_invalidated {cache' : FsCache} {now : Int}
    (names : List EntryName) (then' : Int) (part : Str) :
    forall {node : FsNode}, cache.Held now node names ->
      ¬ cache'.Blocked then' (node.alter FsNode.invalidate names)
        (names.map EntryName.text ++ [part]) := by
  induction names with
  | nil =>
      intro node _ h
      have hstate : (node.alter FsNode.invalidate []).state = NodeState.modified := rfl
      rw [List.map_nil, List.nil_append, Blocked] at h
      cases hchild : (node.alter FsNode.invalidate []).child part with
      | none =>
          rw [hchild] at h
          have hsync : (node.alter FsNode.invalidate []).state = NodeState.sync :=
            h.left
          rw [hstate] at hsync
          cases hsync
      | some child =>
          rw [hchild] at h
          exact h.right
  | cons name rest ih =>
      rintro node ⟨child, hchild, _, hheld⟩ h
      rw [List.map_cons, List.cons_append, Blocked,
        FsNode.child_alter FsNode.invalidate hchild rest] at h
      exact ih hheld h.right

theorem find_root {now : Int} {path : ValidPath} (hparts : parts path.text = [])
    (disk : Disk) :
    (cache.find disk now path.text).1 = Except.ok (some (Found.node [])) := by
  rw [find_eq, hparts]
  rfl

/-- A path that leads below something that was found is all names of entries. -/
theorem ordinary_of_found (hpositive : 0 < cache.maxCachingLevel) {now : Int}
    (path : ValidPath)
    (h : forall k, (cache.find files.disk now (path.ancestor k).text).1 ≠
      Except.ok none) :
    forall part, part ∈ parts path.text -> Ordinary part := by
  suffices hlength : forall (n : Nat) (path : ValidPath),
      (parts path.text).length = n ->
      (forall k, (cache.find files.disk now (path.ancestor k).text).1 ≠
        Except.ok none) ->
      forall part, part ∈ parts path.text -> Ordinary part from
    hlength _ path rfl h
  intro n
  induction n with
  | zero =>
      intro path hnil _ part hpart
      rw [List.length_eq_zero_iff.mp hnil] at hpart
      cases hpart
  | succ n ih =>
      intro path hlength h part hpart
      rcases parts_parentPath path.absolute with ⟨hparts, _⟩ | hparts
      · rw [hparts] at hpart
        cases hpart
      have hparent := ih path.parent (by
        rw [hparts, List.length_append, List.length_singleton] at hlength
        exact Nat.succ.inj hlength) fun k => h (k + 1)
      have hfindable : Findable cache.maxCachingLevel path.text := by
        rcases find_ok files.answering_disk cache now path.text with ⟨answer, hanswer⟩
        cases answer with
        | none => exact absurd hanswer (h 0)
        | some found => exact findable_of_trail (trail_of_find hpositive hanswer)
      rw [hparts] at hpart
      rcases List.mem_append.mp hpart with habove | hlast
      · exact hparent part habove
      rw [List.mem_singleton.mp hlast]
      rcases Nat.lt_or_ge (parts path.text).length cache.maxCachingLevel with
        hshort | hlong
      · apply hfindable.left
        rw [List.take_of_length_le (by omega), hparts]
        exact List.mem_append_right _ List.mem_cons_self
      · exact hfindable.right hlong

/-- What something stands in the way to is not found. -/
theorem find_of_blocked (h : settings.Describes cache) {now : Int} {path : ValidPath}
    (hordinary : forall part, part ∈ parts path.text -> Ordinary part)
    (hexists : files.tree.Exists (files.locate (concat cache.path path.text)))
    (hblocked : cache.Blocked now cache.root (cache.treeParts path.text)) :
    exists root, cache.find files.disk now path.text =
        (Except.ok none, { cache with root := root }) ∧
      cache.Blocked now root (cache.treeParts path.text) := by
  have htree : cache.treeParts path.text <+: parts path.text := List.take_prefix _ _
  rcases exists_entryNames fun part hpart => hordinary part (htree.subset hpart) with
    ⟨names, hnames⟩
  have hplace : files.tree.Exists (cache.place files names) := by
    apply exists_place_of_names h hordinary hexists
    rw [hnames]
    exact htree
  have hdepth : 0 + names.length < cache.maxCachingLevel := by
    have hpositive := h.positive
    have hlength := length_of_treeParts hnames
    omega
  have hparts := append_drop_of_treeParts hnames
  have hgo : exists root,
      cache.findFrom files.disk now path.text 0 [] cache.root
          (names.map EntryName.text ++
            (parts path.text).drop (cache.maxCachingLevel - 1)) =
        (Except.ok none, root) ∧
      cache.Blocked now root (names.map EntryName.text) := by
    rw [← hnames] at hblocked
    exact blocked_findFrom (noNul_path h) h.time_nonneg names hdepth
      (List.nil_append names) h.tidy_root hplace hblocked
  rcases hgo with ⟨root, hfind, hstill⟩
  rw [hparts] at hfind
  rw [hnames] at hstill
  rw [find_eq, hfind]
  exact ⟨root, rfl, hstill⟩

/-!
## After a creation
-/

/-- Above what is there everything is there. -/
theorem exists_of_prefix (h : settings.Describes cache) {path above : ValidPath}
    (hordinary : forall part, part ∈ parts path.text -> Ordinary part)
    (hexists : files.tree.Exists (files.locate (concat cache.path path.text)))
    (habove : parts above.text <+: parts path.text) :
    files.tree.Exists (files.locate (concat cache.path above.text)) := by
  rcases exists_entryNames fun part hpart => hordinary part (habove.subset hpart) with
    ⟨names, hnames⟩
  rw [locate_of_names h above hnames]
  apply exists_place_of_names h hordinary hexists
  rw [hnames]
  exact habove

/-- The path is one of names, and nothing stands in the way to its parent. -/
def Open (cache : FsCache) (now : Int) (path : ValidPath) : Prop :=
  (forall part, part ∈ parts path.text -> Ordinary part) ∧
    ¬ cache.Blocked now cache.root (cache.treeParts path.parent.text)

/-- The parent has been invalidated: the path is open at any time. -/
theorem open_invalidateParent (h : settings.Describes cache) {now : Int}
    {path : ValidPath} (hne : parts path.text ≠ [])
    (hexists : files.tree.Exists (files.locate (concat cache.path path.text)))
    (hopen : cache.Open now path) (then' : Int) :
    let cache' := (cache.invalidateParent files.disk now path.text).2
    ¬ cache'.Blocked then' cache'.root (cache'.treeParts path.text) := by
  rcases hopen with ⟨hordinary, hfree⟩
  rcases parts_parentPath path.absolute with ⟨hnil, _⟩ | hparts
  · exact absurd hnil hne
  have habove : parts path.parent.text <+: parts path.text := path.parts_ancestor 1
  have hordinary' : forall part, part ∈ parts path.parent.text -> Ordinary part :=
    fun part hpart => hordinary part (habove.subset hpart)
  have hexists' := exists_of_prefix h hordinary hexists habove
  have htree : cache.treeParts path.parent.text <+: parts path.parent.text :=
    List.take_prefix _ _
  rcases exists_entryNames fun part hpart => hordinary' part (htree.subset hpart) with
    ⟨names, hnames⟩
  rcases find_of_not_blocked h hnames hordinary' hexists' hfree with
    ⟨found, root, hfind, hheld, hcases⟩
  have hinvalidate : cache.invalidateParent files.disk now path.text =
      (Except.ok (),
        FsCache.alterFound { cache with root := root } FsNode.invalidate found) := by
    have hfind' : cache.find files.disk now (parentPath path.text) =
        (Except.ok (some found), { cache with root := root }) := hfind
    rw [invalidateParent, hfind']
  dsimp only
  rw [hinvalidate]
  rcases hcases with ⟨hshort, rfl⟩ | ⟨hlong, listed, rfl⟩
  · -- the parent is a node of the tree, which is due for any child
    have hall : names.map EntryName.text = parts path.parent.text := by
      rw [hnames]
      exact List.take_of_length_le (Nat.le_sub_one_of_lt hshort)
    have hprefix' : (parts path.text).take (cache.maxCachingLevel - 1) <+:
        names.map EntryName.text ++ [filename path.text] := by
      rw [hall]
      exact (List.take_prefix _ _).trans (by rw [hparts]; exact List.prefix_rfl)
    intro hblocked
    exact not_blocked_invalidated names then' _ hheld
      (blocked_of_front hprefix' hblocked)
  · -- the tree leads to its last level
    have hsame : (parts path.text).take (cache.maxCachingLevel - 1) =
        names.map EntryName.text := by
      rw [hnames, hparts]
      exact List.take_append_of_le_length ((Nat.sub_le _ 1).trans hlong)
    show ¬ FsCache.Blocked _ then' root
      ((parts path.text).take (cache.maxCachingLevel - 1))
    rw [hsame]
    exact not_blocked_of_held names then' hheld

/-- After the invalidation that a creation ends with, the path and all above it
are found at any time exactly if the path was open. -/
theorem created_found_iff (h : settings.Describes cache) {now : Int} {path : ValidPath}
    (hexists : (forall part, part ∈ parts path.text -> Ordinary part) ->
      parts path.text ≠ [] ->
      files.tree.Exists (files.locate (concat cache.path path.text))) :
    (forall then' k,
        ((cache.invalidateParent files.disk now path.text).2.find files.disk then'
          (path.ancestor k).text).1 ≠ Except.ok none) <->
      cache.Open now path := by
  have hcache := @describes_invalidateParent _ _ files h now path.text
  rcases eq_or_ne (parts path.text) [] with hnil | hne
  · have habove : forall k, parts (path.ancestor k).text = [] := by
      intro k
      have hprefix' := path.parts_ancestor k
      rw [hnil] at hprefix'
      exact List.prefix_nil.mp hprefix'
    constructor
    · intro _
      constructor
      · intro part hpart
        rw [hnil] at hpart
        cases hpart
      · have hparent : parts path.parent.text = [] := habove 1
        rw [treeParts, hparent, List.take_nil]
        exact not_false
    · intro _ then' k hnone
      rw [find_root (habove k)] at hnone
      cases hnone
  constructor
  · intro hfound
    have hordinary := ordinary_of_found hcache.positive path (hfound now)
    refine ⟨hordinary, ?_⟩
    intro hblocked
    have hexists := hexists hordinary hne
    have habove : parts path.parent.text <+: parts path.text := path.parts_ancestor 1
    have hordinary' : forall part, part ∈ parts path.parent.text -> Ordinary part :=
      fun part hpart => hordinary part (habove.subset hpart)
    have hexists' := exists_of_prefix h hordinary hexists habove
    rcases find_of_blocked h hordinary' hexists' hblocked with ⟨root, hfind, hstill⟩
    have hfind' : cache.find files.disk now (parentPath path.text) =
        (Except.ok none, { cache with root := root }) := hfind
    have hinvalidate : cache.invalidateParent files.disk now path.text =
        (Except.ok (), { cache with root := root }) := by
      rw [invalidateParent, hfind']
    rw [hinvalidate] at hcache hfound
    have htime : FsCache.invalidationTime { cache with root := root } =
        cache.invalidationTime := rfl
    have hblocked' : FsCache.Blocked { cache with root := root } now root
        (FsCache.treeParts { cache with root := root } path.parent.text) :=
      blocked_congr htime hstill
    rcases find_of_blocked hcache hordinary' hexists' hblocked' with ⟨_, hagain, _⟩
    apply hfound now 1
    have hparent : (path.ancestor 1).text = path.parent.text := rfl
    rw [hparent, hagain]
  · intro hopen then' k hnone
    have hexists := hexists hopen.left hne
    have hfree := open_invalidateParent h hne hexists hopen then'
    dsimp only at hfree
    have habove := path.parts_ancestor k
    have hordinary : forall part, part ∈ parts (path.ancestor k).text ->
        Ordinary part := fun part hpart => hopen.left part (habove.subset hpart)
    have hthere : files.tree.Exists (files.locate (concat
        (cache.invalidateParent files.disk now path.text).2.path
        (path.ancestor k).text)) := by
      rw [hcache.path, ← h.path]
      exact exists_of_prefix h hopen.left hexists habove
    have hway : ¬ (cache.invalidateParent files.disk now path.text).2.Blocked then'
        (cache.invalidateParent files.disk now path.text).2.root
        ((cache.invalidateParent files.disk now path.text).2.treeParts
          (path.ancestor k).text) := by
      intro hblocked
      exact hfree (blocked_of_front (habove.take _) hblocked)
    have htree : (cache.invalidateParent files.disk now path.text).2.treeParts
        (path.ancestor k).text <+: parts (path.ancestor k).text := List.take_prefix _ _
    rcases exists_entryNames fun part hpart => hordinary part (htree.subset hpart) with
      ⟨names, hnames⟩
    rcases find_of_not_blocked hcache hnames hordinary hthere hway with
      ⟨found, root, hfind, _⟩
    rw [hfind] at hnone
    cases hnone

end FsCache

/-!
## What the system has made
-/

namespace FileSystem

open FsCache

variable {settings : CacheSettings} {cache : FsCache} {files files' : FileSystem}

theorem exists_of_createDirectories (h : settings.Describes cache) {path : ValidPath}
    (hordinary : forall part, part ∈ parts path.text -> Ordinary part)
    (hne : parts path.text ≠ [])
    (hmade : files.createDirectories (concat cache.path path.text) = some files') :
    files'.tree.Exists (files'.locate (concat cache.path path.text)) := by
  rcases exists_entryNames hordinary with ⟨names, hnames⟩
  rcases names_of_parts path.absolute hordinary with ⟨hparts, hnul⟩
  have hcut : cStr (concat cache.path path.text) = concat cache.path path.text := by
    apply cStr_of_noNul
    intro hmem
    rcases List.mem_append.mp hmem with hroot | hbelow
    · exact noNul_path h hroot
    · exact hnul hbelow
  rcases List.eq_nil_or_concat names with rfl | ⟨front, name, rfl⟩
  · rw [List.map_nil] at hnames
    exact absurd hnames.symm hne
  have hcomponents : components (concat cache.path path.text) =
      (components cache.path ++ (front.map EntryName.text).map Component.name) ++
        [Component.name name.text] := by
    rw [components, names_concat path.absolute, ← hparts, ← hnames, List.map_append,
      map_component_text, List.concat_eq_append, List.map_append, List.map_append, List.append_assoc]
    rfl
  unfold createDirectories at hmade
  rcases Option.map_eq_some_iff.mp hmade with ⟨tree, htree, rfl⟩
  rw [hcut, hcomponents] at htree
  have hdir := FileTree.isDirectory_of_createDirectories htree
  rw [locate, hcut, resolved, hcomponents, LexicalPath.resolve_append]
  exact hdir.exists

theorem exists_of_createFile {path : Str} (hmade : files.createFile path = some files') :
    files'.tree.Exists (files'.locate path) := by
  unfold createFile at hmade
  split at hmade
  · cases hmade
  rcases Option.map_eq_some_iff.mp hmade with ⟨tree, htree, rfl⟩
  have hkind := FileTree.kind_of_createFile htree (files.locate path)
  rw [if_pos rfl] at hkind
  intro hnone
  have hnone : tree.kind (files.locate path) = none := hnone
  rw [hkind] at hnone
  cases hnone

theorem exists_of_rename {old new : Str} (hmade : files.rename old new = some files') :
    files'.tree.Exists (files'.locate new) := by
  unfold rename at hmade
  split at hmade
  · rcases Option.map_eq_some_iff.mp hmade with ⟨tree, htree, rfl⟩
    exact (FileTree.exists_of_rename htree).right
  · cases hmade

end FileSystem

/-!
## Creations in a run
-/

namespace CacheRun

open FsCache

variable {settings : CacheSettings}

/-- After the step the path and all above it are found at any time. -/
def FoundAfter (s : CacheRun) (e : CacheEvent) (path : ValidPath) : Prop :=
  forall t, step s e = some t -> forall now k,
    t.found now (path.ancestor k) ≠ Except.ok none

/-- What a step makes is found. -/
def CreatedFound (s : CacheRun) (e : CacheEvent) : Prop :=
  match e with
  | CacheEvent.createDirectory _ path => s.FoundAfter e path
  | CacheEvent.createFileW _ path => s.FoundAfter e path
  | CacheEvent.moveEntry _ _ _ newPath => s.FoundAfter e newPath
  | _ => True

/-- The path that is made is open when its parent is looked up: for a move, in
the tree that the lookup of the old parent leaves. -/
def MadeOpen (s : CacheRun) : CacheEvent -> Prop
  | CacheEvent.createDirectory now path => s.cache.Open now path
  | CacheEvent.createFileW now path => s.cache.Open now path
  | CacheEvent.moveEntry now later oldPath newPath =>
      forall files,
        s.files.rename (concat s.cache.path oldPath.text)
          (concat s.cache.path newPath.text) = some files ->
        (s.cache.invalidateParent files.disk now oldPath.text).2.Open later newPath
  | _ => True

theorem foundAfter_iff {s t : CacheRun} {e : CacheEvent} {cache : FsCache} {now : Int}
    {path : ValidPath} (hcache : settings.Describes cache) (hstep : step s e = some t)
    (ht : t.cache = (cache.invalidateParent t.files.disk now path.text).2)
    (hexists : (forall part, part ∈ parts path.text -> Ordinary part) ->
      parts path.text ≠ [] ->
      t.files.tree.Exists (t.files.locate (concat cache.path path.text))) :
    s.FoundAfter e path <-> cache.Open now path := by
  rw [← created_found_iff hcache hexists, ← ht]
  constructor
  · intro h
    exact h t hstep
  · intro h u hu
    rw [hstep] at hu
    cases hu
    exact h

theorem createdFound_iff {s t : CacheRun} (hs : settings.Describes s.cache)
    {e : CacheEvent} (hstep : step s e = some t) : CreatedFound s e <-> MadeOpen s e := by
  cases e with
  | find now path => exact Iff.rfl
  | remove now path => exact Iff.rfl
  | createDirectory now path =>
      have hmade := hstep
      rw [step] at hmade
      rcases Option.map_eq_some_iff.mp hmade with ⟨files, hfiles, rfl⟩
      exact foundAfter_iff hs hstep rfl fun hordinary hne =>
        FileSystem.exists_of_createDirectories hs hordinary hne hfiles
  | createFileW now path =>
      have hmade := hstep
      rw [step] at hmade
      rcases Option.map_eq_some_iff.mp hmade with ⟨files, hfiles, rfl⟩
      exact foundAfter_iff hs hstep rfl fun _ _ =>
        FileSystem.exists_of_createFile hfiles
  | moveEntry now later oldPath newPath =>
      have hmade := hstep
      rw [step] at hmade
      rcases Option.map_eq_some_iff.mp hmade with ⟨files, hfiles, rfl⟩
      have hcache := @describes_invalidateParent _ _ files hs now oldPath.text
      have hpath : (s.cache.invalidateParent files.disk now oldPath.text).2.path =
          s.cache.path := by
        rw [hcache.path, hs.path]
      have hiff := foundAfter_iff hcache hstep rfl fun _ _ => by
        rw [hpath]
        exact FileSystem.exists_of_rename hfiles
      constructor
      · intro h files' hfiles'
        rw [hfiles] at hfiles'
        cases hfiles'
        exact hiff.mp h
      · intro h
        exact hiff.mpr (h files hfiles)

/-- Along a run what is made is found exactly as long as the paths that are made
are open. -/
theorem createdFound_everywhere_iff (settings : CacheSettings) (start : Int)
    (files : FileSystem) (es : List CacheEvent) :
    (system settings start files).EveryStep CreatedFound
        (initial settings start files) es <->
      (system settings start files).EveryStep MadeOpen
        (initial settings start files) es := by
  have hinit := describes_initial settings start files
  have hfound : forall s e t, settings.Describes s.cache -> CreatedFound s e ->
      (system settings start files).step s e = some t ->
      settings.Describes t.cache ∧ MadeOpen s e :=
    fun s e t hs h hstep =>
      ⟨describes_step hs hstep, (createdFound_iff hs hstep).mp h⟩
  have hopen : forall s e t, settings.Describes s.cache -> MadeOpen s e ->
      (system settings start files).step s e = some t ->
      settings.Describes t.cache ∧ CreatedFound s e :=
    fun s e t hs h hstep =>
      ⟨describes_step hs hstep, (createdFound_iff hs hstep).mpr h⟩
  constructor
  · exact EventSystem.everyStep_of_everyStep hfound hinit
  · exact EventSystem.everyStep_of_everyStep hopen hinit

/-- In a settled root that does not know the first name of a path, nothing is
found that is made further down. -/
theorem not_createdFound_of_settled {s t : CacheRun} (hs : settings.Describes s.cache)
    {now : Int} {path : ValidPath} {part : Str} {rest : List Str}
    (hstep : step s (CacheEvent.createDirectory now path) = some t)
    (hway : s.cache.treeParts path.parent.text = part :: rest)
    (hsettled : s.cache.root.Settled now s.cache.invalidationTime)
    (hnone : s.cache.root.child part = none) :
    ¬ CreatedFound s (CacheEvent.createDirectory now path) := by
  intro hcreated
  have hopen : s.cache.Open now path := (createdFound_iff hs hstep).mp hcreated
  apply hopen.right
  rw [hway, Blocked, hnone]
  exact hsettled

/-- The first lookup loads the root: it is settled then, and knows what is there. -/
theorem reloaded_of_first_find {files : FileSystem} (start : Int)
    (hlevels : 1 < settings.maxCachingLevel) {path : ValidPath} {name : EntryName}
    (hparts : parts path.text = [name.text])
    (hdir : files.tree.IsDirectory (files.locate settings.root.path))
    (hmissing : ¬ files.tree.Exists (files.locate settings.root.path ++ [name.text])) :
    FsNode.Reloaded files start settings.maxCachingLevel
      (files.locate settings.root.path)
      (FsNode.fresh start settings.maxCachingLevel)
      ((initial settings start files).cache.find files.disk start path.text).2.root := by
  let cache := (initial settings start files).cache
  have hplace : cache.place files [] = files.locate settings.root.path := place_nil
  have hnode : FsNode.Tidy (cache.maxCachingLevel - 0) cache.root :=
    (describes_initial settings start files).tidy
  rcases exists_passed files start (noNul_path (describes_initial settings start files))
    hlevels hnode name with ⟨answer, passed, hpass, hpassed⟩
  rw [hplace] at hpassed
  have hfound := hpassed.found_eq
  cases hpassed with
  | kept _ _ _ hdue _ _ => exact absurd hdir (hdue (Or.inr rfl))
  | reloaded _ _ _ hreloaded =>
      have hnone : passed.child name.text = none := by
        cases hchild : passed.child name.text with
        | none => rfl
        | some entry =>
            exact absurd (hreloaded.exact name.text entry hchild).right hmissing
      rw [find_eq, hparts, findFrom_cons _ name.text_ne_slash (Nat.ne_of_lt hlevels)]
      rw [hnone] at hpass
      rw [hpass]
      exact hreloaded

/-- Behind a first lookup nothing is found that is made together with its
parent, as long as the root is settled. -/
theorem not_createdFound_behind_find {files files' : FileSystem} {start now : Int}
    {other path : ValidPath} {name : EntryName} {part : Str} {rest : List Str}
    (hlevels : 1 < settings.maxCachingLevel) (hparts : parts other.text = [name.text])
    (hdir : files.tree.IsDirectory (files.locate settings.root.path))
    (hother : ¬ files.tree.Exists (files.locate settings.root.path ++ [name.text]))
    (hmissing : ¬ files.tree.Exists (files.locate settings.root.path ++ [part]))
    (hway : (parts path.parent.text).take (settings.maxCachingLevel - 1) = part :: rest)
    (htime : now - start < settings.invalidationTime)
    (hmade : files.createDirectories (concat settings.root.path path.text) =
      some files') :
    ¬ (system settings start files).EveryStep CreatedFound
      (initial settings start files)
      [CacheEvent.find start other, CacheEvent.createDirectory now path] := by
  intro h
  have hreloaded := reloaded_of_first_find start hlevels hparts hdir hother
  let s : CacheRun :=
    { initial settings start files with
      cache := ((initial settings start files).cache.find files.disk start
        other.text).2 }
  have hfind : step (initial settings start files) (CacheEvent.find start other) =
      some s := rfl
  have hs := describes_step (describes_initial settings start files) hfind
  have hstep : step s (CacheEvent.createDirectory now path) =
      some (s.changed files' [(now, path)]) :=
    Option.map_eq_some_iff.mpr ⟨files', hmade, rfl⟩
  have hsettled : s.cache.root.Settled now s.cache.invalidationTime := by
    refine ⟨hreloaded.state, ?_⟩
    rw [hs.time, hreloaded.lastUpdated]
    exact htime
  have hnone : s.cache.root.child part = none := by
    cases hchild : s.cache.root.child part with
    | none => rfl
    | some entry => exact absurd (hreloaded.exact part entry hchild).right hmissing
  have hcreated : CreatedFound s (CacheEvent.createDirectory now path) :=
    ((h s hfind).right _ hstep).left
  exact not_createdFound_of_settled hs hstep hway hsettled hnone hcreated

/-- A directory and its parent are made in a root that has just been loaded. -/
theorem createdFound_not_everywhere :
    ¬ forall settings start files es,
      (system settings start files).EveryStep CreatedFound
        (initial settings start files) es := by
  intro h
  let settings : CacheSettings :=
    { root := { path := str "/p", nonempty := by decide, noNul := by decide }
      maxCachingLevel := 4
      invalidationTime := 5
      levels := by decide
      time := by decide }
  let tree : FileTree Str :=
    FileTree.add FileTree.bare [] (str "p") FileKind.directory (by decide)
  let files : FileSystem := { tree := tree, cwd := [] }
  let other : ValidPath := { text := str "/x", absolute := by decide }
  let path : ValidPath := { text := str "/a/b", absolute := by decide }
  let name : EntryName :=
    { text := str "x"
      nonempty := by decide
      noSlash := by decide
      noNul := by decide
      notHere := by decide
      notUp := by decide }
  have hmissing : ¬ files.tree.Exists (files.locate settings.root.path ++ [str "a"]) := by
    decide
  have hway : (parts path.parent.text).take (settings.maxCachingLevel - 1) =
      str "a" :: [] := by
    decide
  have hmade : (files.createDirectories (concat settings.root.path path.text)).isSome =
      true := by
    decide
  rcases Option.isSome_iff_exists.mp hmade with ⟨files', hfiles⟩
  exact @not_createdFound_behind_find settings files files' 0 1 other path name _ _
    (by decide) (by decide) (by decide) (by decide) hmissing hway (by decide) hfiles
    (h settings 0 files _)

end CacheRun

end CisWebui
