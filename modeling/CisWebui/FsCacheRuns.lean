import CisWebui.Foundation.EventSystem
import CisWebui.FsCacheLookups

/-!
# Runs of the file cache

Every change of the projects root goes through the cache, at arbitrary times.
Whether an entry that is gone is still found.
-/

namespace CisWebui

open Cpp FilesystemPath Foundation

/-- A path that `validate_path` accepts. -/
structure ValidPath where
  text : Str
  absolute : isAbsolute text = true

/-- How `fs_cache` is constructed. -/
structure CacheSettings where
  root : RootDir
  maxCachingLevel : Nat
  invalidationTime : Int
  levels : 0 < maxCachingLevel
  time : 0 <= invalidationTime

/-- The cache, the file system, and the file systems there have been before. -/
structure CacheRun where
  cache : FsCache
  files : FileSystem
  past : List FileSystem

/-- The operations of the cache, with the times they happen at; `remove` is that
of the iterator which the path has been found with. -/
inductive CacheEvent where
  | find (now : Int) (path : ValidPath)
  | createDirectory (now : Int) (path : ValidPath)
  | createFileW (now : Int) (path : ValidPath)
  | moveEntry (now later : Int) (oldPath newPath : ValidPath)
  | remove (now : Int) (path : ValidPath)

namespace CacheRun

/-- The path in the file system. -/
def located (s : CacheRun) (files : FileSystem) (path : ValidPath) : List Str :=
  files.locate (concat s.cache.path path.text)

/-- What `find` answers. -/
def found (s : CacheRun) (now : Int) (path : ValidPath) :
    Except FilesystemError (Option Found) :=
  (s.cache.find s.files.disk now path.text).1

/-- A change of the files, and the invalidations after it. -/
def changed (s : CacheRun) (files : FileSystem) (paths : List (Int × ValidPath)) :
    CacheRun :=
  { cache := paths.foldl
      (fun cache (now, path) =>
        (cache.invalidateParent files.disk now path.text).2) s.cache
    files := files
    past := s.files :: s.past }

def step (s : CacheRun) : CacheEvent -> Option CacheRun
  | CacheEvent.find now path =>
      some { s with cache := (s.cache.find s.files.disk now path.text).2 }
  | CacheEvent.createDirectory now path =>
      (s.files.createDirectories (concat s.cache.path path.text)).map fun files =>
        s.changed files [(now, path)]
  | CacheEvent.createFileW now path =>
      (s.files.createFile (concat s.cache.path path.text)).map fun files =>
        s.changed files [(now, path)]
  | CacheEvent.moveEntry now later oldPath newPath =>
      (s.files.rename (concat s.cache.path oldPath.text)
        (concat s.cache.path newPath.text)).map fun files =>
          s.changed files [(now, oldPath), (later, newPath)]
  | CacheEvent.remove now path =>
      match s.cache.find s.files.disk now path.text with
      | (Except.ok (some found), cache) =>
          some
            { cache := cache.alterFound FsNode.remove found
              files := s.files.removeAll (cache.foundPath found)
              past := s.files :: s.past }
      | _ => none

def initial (settings : CacheSettings) (start : Int) (files : FileSystem) :
    CacheRun where
  cache :=
    { path := settings.root.path
      maxCachingLevel := settings.maxCachingLevel
      invalidationTime := settings.invalidationTime
      root := FsNode.fresh start settings.maxCachingLevel }
  files := files
  past := []

def system (settings : CacheSettings) (start : Int) (files : FileSystem) :
    EventSystem CacheRun CacheEvent where
  init := initial settings start files
  step := step

end CacheRun

/-!
## The tree along a run
-/

/-- The cache is one that was constructed so, with a tidy tree. -/
structure CacheSettings.Describes (settings : CacheSettings) (cache : FsCache) :
    Prop where
  path : cache.path = settings.root.path
  levels : cache.maxCachingLevel = settings.maxCachingLevel
  time : cache.invalidationTime = settings.invalidationTime
  tidy : FsNode.Tidy settings.maxCachingLevel cache.root

namespace CacheSettings.Describes

variable {settings : CacheSettings} {cache : FsCache}

theorem positive (h : settings.Describes cache) : 0 < cache.maxCachingLevel := by
  rw [h.levels]
  exact settings.levels

theorem time_nonneg (h : settings.Describes cache) :
    0 <= cache.invalidationTime := by
  rw [h.time]
  exact settings.time

/-- The root as a node of the search, which starts at depth zero. -/
theorem tidy_root (h : settings.Describes cache) :
    FsNode.Tidy (cache.maxCachingLevel - 0) cache.root := by
  rw [h.levels]
  exact h.tidy

end CacheSettings.Describes

namespace FsCache

variable {settings : CacheSettings} {cache : FsCache} {files : FileSystem}

theorem describes_find (h : settings.Describes cache) (now : Int) (path : Str) :
    settings.Describes (cache.find files.disk now path).2 := by
  constructor
  · exact h.path
  · exact h.levels
  · exact h.time
  · rw [← h.levels]
    exact tidy_findElements path (elements path) h.positive h.tidy_root

theorem describes_alterFound (h : settings.Describes cache)
    {f : FsNode -> FsNode}
    (hf : forall level node, FsNode.Tidy level node -> FsNode.Tidy level (f node))
    (found : Found) : settings.Describes (cache.alterFound f found) := by
  cases found with
  | listed path => exact h
  | node names =>
      constructor
      · exact h.path
      · exact h.levels
      · exact h.time
      · exact FsNode.tidy_alter hf names h.tidy

theorem tidy_invalidate (level : Nat) (node : FsNode) (h : FsNode.Tidy level node) :
    FsNode.Tidy level node.invalidate :=
  FsNode.tidy_of_children h rfl rfl

theorem tidy_remove (level : Nat) (node : FsNode) (h : FsNode.Tidy level node) :
    FsNode.Tidy level node.remove := by
  apply FsNode.Tidy.mk
  · exact h.cachingLevel
  · exact List.Pairwise.nil
  · intro entry hentry
    cases hentry

theorem describes_invalidateParent (h : settings.Describes cache) (now : Int)
    (path : Str) :
    settings.Describes (cache.invalidateParent files.disk now path).2 := by
  have hfind := @describes_find _ _ files h now (parentPath path)
  unfold invalidateParent
  split
  · rename_i hresult
    rw [hresult] at hfind
    exact hfind
  · rename_i hresult
    rw [hresult] at hfind
    exact hfind
  · rename_i found cache' hresult
    rw [hresult] at hfind
    exact describes_alterFound hfind tidy_invalidate found

end FsCache

namespace CacheRun

open FsCache

variable {settings : CacheSettings}

theorem describes_changed {s : CacheRun} (hs : settings.Describes s.cache)
    (files : FileSystem) (paths : List (Int × ValidPath)) :
    settings.Describes (s.changed files paths).cache := by
  suffices h : forall cache, settings.Describes cache ->
      settings.Describes (paths.foldl
        (fun cache (now, path) =>
          (cache.invalidateParent files.disk now path.text).2) cache) by
    exact h s.cache hs
  induction paths with
  | nil =>
      intro cache hcache
      exact hcache
  | cons first rest ih =>
      intro cache hcache
      exact ih _ (describes_invalidateParent hcache first.1 first.2.text)

theorem describes_step {s t : CacheRun} {e : CacheEvent}
    (hs : settings.Describes s.cache) (h : step s e = some t) :
    settings.Describes t.cache := by
  cases e with
  | find now path =>
      cases h
      exact describes_find hs now path.text
  | createDirectory now path =>
      rcases Option.map_eq_some_iff.mp h with ⟨files, _, rfl⟩
      exact describes_changed hs files _
  | createFileW now path =>
      rcases Option.map_eq_some_iff.mp h with ⟨files, _, rfl⟩
      exact describes_changed hs files _
  | moveEntry now later oldPath newPath =>
      rcases Option.map_eq_some_iff.mp h with ⟨files, _, rfl⟩
      exact describes_changed hs files _
  | remove now path =>
      have hfind := @describes_find _ _ s.files hs now path.text
      rw [step] at h
      split at h
      · rename_i found cache hresult
        cases h
        rw [hresult] at hfind
        exact describes_alterFound hfind tidy_remove found
      · cases h

theorem describes_initial (settings : CacheSettings) (start : Int)
    (files : FileSystem) :
    settings.Describes (initial settings start files).cache where
  path := rfl
  levels := rfl
  time := rfl
  tidy := FsNode.tidy_fresh start settings.maxCachingLevel

end CacheRun

/-!
## Where lookups lead
-/

namespace FsCache

variable {settings : CacheSettings} {cache : FsCache} {files : FileSystem}

theorem noNul_path (h : settings.Describes cache) : 0 ∉ cache.path := by
  rw [h.path]
  exact settings.root.noNul

theorem path_ne_nil (h : settings.Describes cache) : cache.path ≠ [] := by
  rw [h.path]
  exact settings.root.nonempty

theorem locate_of_names (h : settings.Describes cache) (path : ValidPath)
    {names : List EntryName} (hnames : names.map EntryName.text = parts path.text) :
    files.locate (concat cache.path path.text) = cache.place files names := by
  have hordinary : forall part, part ∈ parts path.text -> Ordinary part := by
    intro part hpart
    rw [← hnames] at hpart
    rcases List.mem_map.mp hpart with ⟨name, _, hname⟩
    exact ordinary_iff_exists.mpr ⟨name, hname⟩
  rcases names_of_parts path.absolute hordinary with ⟨hparts, hnul⟩
  rw [locate_concat (path_ne_nil h) (noNul_path h) path.absolute,
    cStr_of_noNul hnul, components, ← hparts, ← hnames,
    FileSystem.map_component_text, FileSystem.resolve_names]
  rfl

/-- An entry that is found on disk is there. -/
theorem exists_of_findListed (path : ValidPath) {found : Found}
    (hfound : cache.findListed files.disk path.text = Except.ok (some found)) :
    files.tree.Exists (files.locate (concat cache.path path.text)) := by
  let directory := removeFilename (concat cache.path path.text)
  have hpath : append directory (filename path.text) = concat cache.path path.text :=
    append_removeFilename path.absolute
  rw [← hpath]
  unfold findListed at hfound
  dsimp only at hfound
  split at hfound
  · cases hfound
  rename_i listing hlisting
  have hdir : files.tree.IsDirectory (files.locate directory) := by
    by_contra hdir
    have hnone : files.disk.openDirectory (cStr directory) = none := if_neg hdir
    rw [hnone] at hlisting
    cases hlisting
  split at hfound
  · rename_i name hname
    have hmem : name ∈ FsNode.listedNames files.disk directory := by
      unfold FsNode.listedNames
      rw [hlisting]
      exact List.mem_of_find?_eq_some hname
    have htext : name.text = filename path.text := by
      simpa using List.find?_some hname
    rw [FileSystem.mem_listedNames hdir, htext] at hmem
    rw [← htext] at hmem ⊢
    have hrelative : isAbsolute name.text = false :=
      isAbsolute_of_not_mem name.noSlash
    by_cases hnul : 0 ∈ directory
    · -- the system gets no further than to the NUL
      have hcut : cStr (append directory name.text) = cStr directory := by
        rw [append_eq_stem hrelative, stem]
        split
        · exact cStr_append_of_nul hnul _
        · rw [List.append_assoc]
          exact cStr_append_of_nul hnul _
      rw [FileSystem.locate, hcut]
      exact hdir.exists
    · rw [FileSystem.locate_append files hnul]
      exact hmem
  · split at hfound
    · cases hfound
    · cases hfound

/-- An entry that is there is found on disk. -/
theorem findListed_of_exists (h : settings.Describes cache) (path : ValidPath)
    (hne : parts path.text ≠ [])
    (hordinary : forall part, part ∈ parts path.text -> Ordinary part)
    (hexists : files.tree.Exists (files.locate (concat cache.path path.text))) :
    exists listed,
      cache.findListed files.disk path.text =
        Except.ok (some (Found.listed listed)) := by
  let directory := removeFilename (concat cache.path path.text)
  have hpath : append directory (filename path.text) = concat cache.path path.text :=
    append_removeFilename path.absolute
  have hlast : filename path.text ∈ parts path.text := by
    rcases parts_parentPath path.absolute with hnil | hparts
    · exact absurd hnil.left hne
    · rw [hparts]
      exact List.mem_append_right _ List.mem_cons_self
  rcases ordinary_iff_exists.mp (hordinary _ hlast) with ⟨name, hname⟩
  have hnul : 0 ∉ directory := by
    intro hmem
    have hall : 0 ∈ concat cache.path path.text := List.mem_of_mem_take hmem
    rcases List.mem_append.mp hall with hroot | hbelow
    · exact noNul_path h hroot
    · exact (names_of_parts path.absolute hordinary).right hbelow
  rw [← hpath, ← hname, FileSystem.locate_append files hnul] at hexists
  have hdir : files.tree.IsDirectory (files.locate directory) :=
    FileTree.isDirectory_of_exists_append _ (List.cons_ne_nil _ _) hexists
  have hmem := (FileSystem.mem_listedNames hdir name).mpr hexists
  unfold findListed
  unfold FsNode.listedNames at hmem
  dsimp only
  cases hlisting : files.disk.openDirectory (cStr directory) with
  | none =>
      rw [hlisting] at hmem
      cases hmem
  | some listing =>
      rw [hlisting] at hmem
      dsimp only at hmem ⊢
      cases hfind : listing.names.find? fun name => name.text == filename path.text with
      | none =>
          have hnone := List.find?_eq_none.mp hfind name hmem
          exact absurd (beq_iff_eq.mpr hname) hnone
      | some found => exact ⟨_, rfl⟩

theorem place_nil : cache.place files [] = cache.base files :=
  List.append_nil _

/-- What `find` answers to an absolute path is decided by its parts. -/
theorem find_eq (now : Int) (path : ValidPath) (disk : Disk) :
    cache.find disk now path.text =
      ((cache.findFrom disk now path.text 0 [] cache.root (parts path.text)).1,
        { cache with
          root := (cache.findFrom disk now path.text 0 [] cache.root
            (parts path.text)).2 }) := by
  rw [find, elements_eq_parts path.absolute, findFrom, if_pos rfl]

/-- Below the cached levels nothing is found that is not there; in the tree only
what it remembers. -/
theorem remembered_of_found (h : settings.Describes cache) {now : Int}
    {path : ValidPath} {found : Found}
    (hgone : ¬ files.tree.Exists (files.locate (concat cache.path path.text)))
    (hfound : (cache.find files.disk now path.text).1 = Except.ok (some found)) :
    (parts path.text).length < cache.maxCachingLevel ∧
      cache.Remembered files now (cache.base files) cache.root
        (parts path.text) := by
  cases trail_of_find h.positive hfound with
  | onDisk _ _ _ hlisted => exact absurd (exists_of_findListed path hlisted) hgone
  | inTree names _ hnames hdepth =>
      rw [find_eq] at hfound
      have hresult : files.tree.Exists (cache.place files [] ++ parts path.text) ∨
          cache.Remembered files now (cache.place files []) cache.root
            (parts path.text) :=
        exists_or_remembered (noNul_path h) (parts path.text)
          (slash_not_mem_parts path.text) hdepth h.tidy_root (Prod.ext hfound rfl)
      rw [place_nil] at hresult
      rcases hresult with hexists | hremembered
      · rw [locate_of_names h path hnames, place, hnames] at hgone
        exact absurd hexists hgone
      · rw [Nat.zero_add] at hdepth
        exact ⟨hdepth, hremembered⟩

theorem find_of_remembered (h : settings.Describes cache) {now : Int}
    {path : ValidPath} (hdepth : (parts path.text).length < cache.maxCachingLevel)
    (hremembered : cache.Remembered files now (cache.base files) cache.root
      (parts path.text)) :
    exists found,
      (cache.find files.disk now path.text).1 = Except.ok (some found) := by
  rw [find_eq]
  apply found_of_remembered (noNul_path h) (parts path.text)
    (slash_not_mem_parts path.text) (by omega) h.tidy_root
  rw [place_nil]
  exact hremembered

/-- The names on the way to a path that are looked up in the tree. -/
def treeParts (cache : FsCache) (path : Str) : List Str :=
  (parts path).take (cache.maxCachingLevel - 1)

theorem length_of_treeParts {path : Str} {names : List EntryName}
    (hnames : names.map EntryName.text = cache.treeParts path) :
    names.length = min (cache.maxCachingLevel - 1) (parts path).length := by
  rw [← List.length_map EntryName.text, hnames, treeParts, List.length_take]

/-- Behind the names in the tree come the parts that are not cached. -/
theorem append_drop_of_treeParts {path : Str} {names : List EntryName}
    (hnames : names.map EntryName.text = cache.treeParts path) :
    names.map EntryName.text ++ (parts path).drop (cache.maxCachingLevel - 1) =
      parts path := by
  rw [hnames]
  exact List.take_append_drop _ _

theorem exists_place_of_names (h : settings.Describes cache) {path : ValidPath}
    (hordinary : forall part, part ∈ parts path.text -> Ordinary part)
    (hexists : files.tree.Exists (files.locate (concat cache.path path.text)))
    {names : List EntryName}
    (hnames : names.map EntryName.text <+: parts path.text) :
    files.tree.Exists (cache.place files names) := by
  rcases exists_entryNames hordinary with ⟨all, hall⟩
  rw [locate_of_names h path hall, place, hall] at hexists
  rcases hnames with ⟨rest, hrest⟩
  rw [← hrest, ← List.append_assoc] at hexists
  exact FileTree.exists_of_exists_append rest hexists

/-- What is there is found, if nothing stands in the way: in the tree, or on disk
behind the last cached level. -/
theorem find_of_not_blocked (h : settings.Describes cache) {now : Int}
    {path : ValidPath} {names : List EntryName}
    (hnames : names.map EntryName.text = cache.treeParts path.text)
    (hordinary : forall part, part ∈ parts path.text -> Ordinary part)
    (hexists : files.tree.Exists (files.locate (concat cache.path path.text)))
    (hopen : ¬ cache.Blocked now cache.root (cache.treeParts path.text)) :
    exists found root, cache.find files.disk now path.text =
        (Except.ok (some found), { cache with root := root }) ∧
      cache.Held now root names ∧
      ((parts path.text).length < cache.maxCachingLevel ∧ found = Found.node names ∨
        cache.maxCachingLevel <= (parts path.text).length ∧
          exists listed, found = Found.listed listed) := by
  have hplace : files.tree.Exists (cache.place files names) := by
    apply exists_place_of_names h hordinary hexists
    rw [hnames]
    exact List.take_prefix _ _
  have hpositive := h.positive
  have hlength := length_of_treeParts hnames
  have hparts := append_drop_of_treeParts hnames
  rw [← hnames] at hopen
  have hgo : forall found,
      (forall node, FsNode.Tidy (cache.maxCachingLevel - (0 + names.length)) node ->
        exists node', cache.findFrom files.disk now path.text (0 + names.length) names
          node ((parts path.text).drop (cache.maxCachingLevel - 1)) =
            (Except.ok (some found), node')) ->
      exists root, cache.find files.disk now path.text =
          (Except.ok (some found), { cache with root := root }) ∧
        cache.Held now root names := by
    intro found hrest
    have hdepth : 0 + names.length < cache.maxCachingLevel := by
      omega
    rcases found_of_not_blocked (noNul_path h) h.time_nonneg names hdepth
      (List.nil_append names) h.tidy_root hplace hopen hrest with ⟨root, hfind, hheld⟩
    rw [hparts] at hfind
    rw [find_eq, hfind]
    exact ⟨root, rfl, hheld⟩
  rcases Nat.lt_or_ge (parts path.text).length cache.maxCachingLevel with
    hshort | hlong
  · rcases hgo (Found.node names) (by
      intro node _
      rw [List.drop_eq_nil_of_le (by omega)]
      exact ⟨node, rfl⟩) with ⟨root, hfind, hheld⟩
    exact ⟨_, root, hfind, hheld, Or.inl ⟨hshort, rfl⟩⟩
  · have hne : parts path.text ≠ [] := by
      intro hnil
      rw [hnil, List.length_nil] at hlong
      omega
    rcases findListed_of_exists h path hne hordinary hexists with ⟨listed, hlisted⟩
    rcases hgo (Found.listed listed) (by
      intro node hnode
      rw [show cache.maxCachingLevel - (0 + names.length) = 1 by omega] at hnode
      cases hrest : (parts path.text).drop (cache.maxCachingLevel - 1) with
      | nil =>
          have hle := List.drop_eq_nil_iff.mp hrest
          omega
      | cons part rest =>
          have hpart : part ≠ [slash] := by
            rintro rfl
            apply slash_not_mem_parts path.text
            apply List.mem_of_mem_drop
            rw [hrest]
            exact List.mem_cons_self
          have hend : exists node',
              cache.findFrom files.disk now path.text (0 + names.length) names node
                  (part :: rest) = (cache.findListed files.disk path.text, node') ∧
                FsNode.Tidy 1 node' :=
            findFrom_last names path.text rest hpart (by omega) hnode
          rcases hend with ⟨node', hfind, _⟩
          rw [hfind, hlisted]
          exact ⟨node', rfl⟩) with ⟨root, hfind, hheld⟩
    exact ⟨_, root, hfind, hheld, Or.inr ⟨hlong, listed, rfl⟩⟩

end FsCache

/-!
## Entries that are gone
-/

namespace CacheRun

open FsCache

variable {settings : CacheSettings}

/-- The path has led to something before, and leads to nothing now. -/
def Gone (s : CacheRun) (path : ValidPath) : Prop :=
  (exists files, files ∈ s.past ∧ files.tree.Exists (s.located files path)) ∧
    ¬ s.files.tree.Exists (s.located s.files path)

/-- A path that is gone is not found. -/
def FindRight (s : CacheRun) : CacheEvent -> Prop
  | CacheEvent.find now path => s.Gone path -> s.found now path = Except.ok none
  | _ => True

/-- A path that is gone is below the cached levels, or the tree does not remember
it. -/
def Forgotten (s : CacheRun) : CacheEvent -> Prop
  | CacheEvent.find now path =>
      s.Gone path ->
        s.cache.maxCachingLevel <= (parts path.text).length ∨
          ¬ s.cache.Remembered s.files now (s.cache.base s.files) s.cache.root
            (parts path.text)
  | _ => True

theorem findRight_iff {s : CacheRun} (hs : settings.Describes s.cache)
    (e : CacheEvent) : FindRight s e <-> Forgotten s e := by
  cases e with
  | find now path =>
      have hdecide : s.Gone path -> (s.found now path = Except.ok none <->
          s.cache.maxCachingLevel <= (parts path.text).length ∨
            ¬ s.cache.Remembered s.files now (s.cache.base s.files) s.cache.root
              (parts path.text)) := by
        intro hgone
        rw [← not_lt, ← not_and_or]
        constructor
        · rintro hnone ⟨hdepth, hremembered⟩
          rcases find_of_remembered hs hdepth hremembered with ⟨found, hfound⟩
          rw [CacheRun.found, hfound] at hnone
          cases hnone
        · intro hforgotten
          rcases find_ok s.files.answering_disk s.cache now path.text with
            ⟨answer, hanswer⟩
          cases answer with
          | none => exact hanswer
          | some found =>
              exact absurd (remembered_of_found hs hgone.right hanswer) hforgotten
      constructor
      · intro h hgone
        exact (hdecide hgone).mp (h hgone)
      · intro h hgone
        exact (hdecide hgone).mpr (h hgone)
  | createDirectory now path => exact Iff.rfl
  | createFileW now path => exact Iff.rfl
  | moveEntry now later oldPath newPath => exact Iff.rfl
  | remove now path => exact Iff.rfl

/-- Along a run paths that are gone are not found exactly as long as the tree
does not remember those that are looked up. -/
theorem findRight_everywhere_iff (settings : CacheSettings) (start : Int)
    (files : FileSystem) (es : List CacheEvent) :
    (system settings start files).EveryStep FindRight
        (initial settings start files) es <->
      (system settings start files).EveryStep Forgotten
        (initial settings start files) es := by
  have hinit := describes_initial settings start files
  have hright : forall s e t, settings.Describes s.cache -> FindRight s e ->
      (system settings start files).step s e = some t ->
      settings.Describes t.cache ∧ Forgotten s e :=
    fun s e t hs h hstep =>
      ⟨describes_step hs hstep, (findRight_iff hs e).mp h⟩
  have hforgotten : forall s e t, settings.Describes s.cache -> Forgotten s e ->
      (system settings start files).step s e = some t ->
      settings.Describes t.cache ∧ FindRight s e :=
    fun s e t hs h hstep =>
      ⟨describes_step hs hstep, (findRight_iff hs e).mpr h⟩
  constructor
  · exact EventSystem.everyStep_of_everyStep hright hinit
  · exact EventSystem.everyStep_of_everyStep hforgotten hinit

/-- An entry that is found in the tree and removed is found again at once. -/
theorem found_after_remove {s : CacheRun} (hs : settings.Describes s.cache)
    {now : Int} {path : ValidPath} {names : List EntryName} (hne : names ≠ [])
    (hnames : names.map EntryName.text = parts path.text)
    (hdepth : names.length < s.cache.maxCachingLevel)
    (hexists : s.files.tree.Exists (s.located s.files path))
    (hopen : ¬ s.cache.Blocked now s.cache.root (parts path.text)) :
    exists t found, step s (CacheEvent.remove now path) = some t ∧ t.Gone path ∧
      t.found now path = Except.ok (some found) := by
  have hlength : (parts path.text).length < s.cache.maxCachingLevel := by
    rw [← hnames, List.length_map]
    exact hdepth
  have htree : s.cache.treeParts path.text = parts path.text :=
    List.take_of_length_le (by omega)
  have hordinary : forall part, part ∈ parts path.text -> Ordinary part := by
    intro part hpart
    rw [← hnames] at hpart
    rcases List.mem_map.mp hpart with ⟨name, _, hname⟩
    exact ordinary_iff_exists.mpr ⟨name, hname⟩
  have hfound : exists root, s.cache.find s.files.disk now path.text =
        (Except.ok (some (Found.node names)), { s.cache with root := root }) ∧
      s.cache.Held now root names := by
    rw [← htree] at hnames hopen
    rcases find_of_not_blocked hs hnames hordinary hexists hopen with
      ⟨found, root, hfind, hheld, ⟨_, rfl⟩ | ⟨hlong, _⟩⟩
    · exact ⟨root, hfind, hheld⟩
    · omega
  rcases hfound with ⟨root, hfind, hheld⟩
  have htidy := @describes_find _ _ s.files hs now path.text
  rw [hfind] at htidy
  have hplace : forall files : FileSystem,
      files.locate (concat s.cache.path path.text) = s.cache.place files names :=
    fun files => locate_of_names hs path hnames
  let cache : FsCache :=
    { s.cache with root := root.alter FsNode.remove names }
  let files := s.files.removeAll (s.cache.nodePath names)
  have hstep : step s (CacheEvent.remove now path) =
      some { cache := cache, files := files, past := s.files :: s.past } := by
    rw [step, hfind]
    rfl
  have hkind : files.tree.kind (s.located files path) = none := by
    have hhere : s.located files path = s.cache.place s.files names := hplace files
    have hplace_ne : s.cache.place s.files names ≠ [] := by
      simp [place, hne]
    rw [hhere]
    show (s.files.tree.removeAll (s.files.locate (s.cache.nodePath names))).kind _ = _
    rw [locate_nodePath (noNul_path hs), FileTree.removeAll_kind hplace_ne,
      if_pos List.prefix_rfl]
  have hcache : settings.Describes cache :=
    describes_alterFound htidy tidy_remove (Found.node names)
  have hremembered : cache.Remembered files now (cache.base files) cache.root
      (parts path.text) := by
    have htime : cache.invalidationTime = s.cache.invalidationTime := rfl
    rw [← hnames]
    exact remembered_of_held htime FsNode.remove names _ hheld
  rcases find_of_remembered hcache hlength hremembered with ⟨found, hfound⟩
  refine ⟨_, found, hstep, ⟨⟨s.files, List.mem_cons_self, hexists⟩, ?_⟩, hfound⟩
  intro hthere
  exact hthere hkind

/-- A project that has been made and removed is still found. -/
theorem findRight_not_everywhere :
    ¬ forall settings start files es,
      (system settings start files).EveryStep FindRight
        (initial settings start files) es := by
  intro h
  let settings : CacheSettings :=
    { root := { path := str "/p", nonempty := by decide, noNul := by decide }
      maxCachingLevel := 4
      invalidationTime := 5
      levels := by decide
      time := by decide }
  let path : ValidPath := { text := str "/a", absolute := by decide }
  let name : EntryName :=
    { text := str "a"
      nonempty := by decide
      noSlash := by decide
      noNul := by decide
      notHere := by decide
      notUp := by decide }
  let files : FileSystem := { tree := FileTree.bare, cwd := [] }
  have hmade : exists s, step (initial settings 0 files)
        (CacheEvent.createDirectory 0 path) = some s ∧
      s.files.tree.Exists (s.located s.files path) ∧
      s.cache.root.state = NodeState.modified ∧
      s.cache.root.child (str "a") = none ∧ s.cache.maxCachingLevel = 4 :=
    ⟨_, rfl, by decide, rfl, rfl, rfl⟩
  rcases hmade with ⟨s, hmake, hexists, hstate, hchild, hlevels⟩
  have hs := describes_step (describes_initial settings 0 files) hmake
  have hnames : [name].map EntryName.text = parts path.text := by
    decide
  have hopen : ¬ s.cache.Blocked 1 s.cache.root (parts path.text) := by
    rw [← hnames]
    intro hblocked
    rw [List.map_cons, Blocked, hchild] at hblocked
    have hsync : s.cache.root.state = NodeState.sync := hblocked.left
    rw [hstate] at hsync
    cases hsync
  have hdepth : [name].length < s.cache.maxCachingLevel := by
    rw [hlevels]
    decide
  rcases found_after_remove hs (List.cons_ne_nil _ _) hnames hdepth hexists hopen with
    ⟨t, found, hremove, hgone, hfound⟩
  have hright := h settings 0 files
    [CacheEvent.createDirectory 0 path, CacheEvent.remove 1 path,
      CacheEvent.find 1 path]
  have hlast : FindRight t (CacheEvent.find 1 path) :=
    ((((hright s hmake).right) t hremove).right _ rfl).left
  have hnone := hlast hgone
  rw [hfound] at hnone
  cases hnone

end CacheRun

end CisWebui
