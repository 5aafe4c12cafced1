import CisWebui.RootDir

/-!
# The file cache

A tree of the directories below the projects root, loaded level by level when
it is asked for and reloaded when it gets old.  Below the cached levels, entries
are looked up on disk.

What the cache asks the disk for may fail; a failure that the standard library
reports by throwing leaves the cache as far as it got.
-/

namespace CisWebui

open Cpp FilesystemPath Foundation

/-- The name of a directory entry. -/
structure EntryName where
  text : Str
  nonempty : text ≠ []
  noSlash : slash ∉ text
  noNul : 0 ∉ text
  notHere : text ≠ str "."
  notUp : text ≠ str ".."
deriving DecidableEq

/-- `std::filesystem::filesystem_error`, thrown -/
structure FilesystemError where
deriving DecidableEq, Repr

inductive FileType where
  | notFound
  | directory
  | regular
  | other
deriving DecidableEq, Repr

/-- What a directory iterator goes through; if it is not complete, stepping
behind the last name fails. -/
structure Listing where
  names : List EntryName
  complete : Bool

/-- The disk, by the paths the system gets: `status` fails by throwing, opening
a directory sets an error code. -/
structure Disk where
  status : Str -> Option FileType
  openDirectory : Str -> Option Listing

inductive NodeState where
  | init
  | deleted
  | sync
  | modified
deriving DecidableEq, Repr

/-- `fs_node`.  The path of a node is the path of its parent and its name; the
children are kept in the order of their names. -/
structure FsNode where
  state : NodeState
  lastUpdated : Int
  cachingLevel : Nat
  children : List (EntryName × FsNode)

namespace FsNode

/-- A node as it is constructed at a time. -/
def fresh (now : Int) (cachingLevel : Nat) : FsNode where
  state := NodeState.init
  lastUpdated := now
  cachingLevel := cachingLevel
  children := []

/-- `insert_equal` -/
def insertEqual (entry : EntryName × FsNode) :
    List (EntryName × FsNode) -> List (EntryName × FsNode)
  | [] => [entry]
  | other :: rest =>
      if entry.1.text < other.1.text then entry :: other :: rest
      else other :: insertEqual entry rest

/-- What a new child takes over from the old one of the same path. -/
def takeOver (old new : FsNode) : FsNode :=
  if old.state = NodeState.sync then
    { new with
      children := old.children
      lastUpdated := old.lastUpdated
      state := old.state }
  else
    new

/-- The walk through the old and the new children. -/
def merge : List (EntryName × FsNode) -> List (EntryName × FsNode) ->
    List (EntryName × FsNode)
  | [], new => new
  | _, [] => []
  | old :: olds, new :: news =>
      if old.1.text < new.1.text then merge olds (new :: news)
      else if old.1.text = new.1.text then
        (new.1, takeOver old.2 new.2) :: merge olds news
      else
        new :: merge (old :: olds) news

/-- What a walk with an error code gets to see of a directory. -/
def listedNames (disk : Disk) (path : Str) : List EntryName :=
  match disk.openDirectory (cStr path) with
  | none => []
  | some listing => listing.names

/-- `load`: a listing that breaks off is taken as far as it got. -/
def load (disk : Disk) (now : Int) (path : Str) (node : FsNode) :
    Except FilesystemError Unit × FsNode :=
  if disk.status (cStr path) ≠ some FileType.directory ∨ node.cachingLevel = 1 then
    (Except.ok (), node)
  else
    let names := listedNames disk path
    if names.any fun name =>
        (disk.status (cStr (append path name.text))).isNone then
      (Except.error {}, node)
    else
      let child := fresh now (node.cachingLevel - 1)
      let children := names.foldl
        (fun children name => insertEqual (name, child) children) []
      (Except.ok (),
        { node with
          children := merge node.children children
          state := NodeState.sync })

/-- `update` -/
def update (disk : Disk) (now invalidationTime : Int) (path : Str)
    (node : FsNode) : Except FilesystemError Unit × FsNode :=
  if node.state = NodeState.sync ∧ now - node.lastUpdated < invalidationTime then
    (Except.ok (), node)
  else
    match disk.status (cStr path) with
    | none => (Except.error {}, node)
    | some FileType.notFound =>
        (Except.ok (),
          { node with lastUpdated := now, state := NodeState.deleted })
    | some _ => load disk now path { node with lastUpdated := now }

/-- `childs_.find` -/
def child (node : FsNode) (name : Str) : Option (EntryName × FsNode) :=
  node.children.find? fun entry => entry.1.text == name

/-- Change the node that the names lead to. -/
def alter (f : FsNode -> FsNode) : List EntryName -> FsNode -> FsNode
  | [], node => f node
  | name :: rest, node =>
      { node with
        children := node.children.map fun entry =>
          if entry.1 = name then (entry.1, alter f rest entry.2) else entry }

def descendant (node : FsNode) : List EntryName -> Option FsNode
  | [] => some node
  | name :: rest =>
      match node.child name.text with
      | none => none
      | some entry => entry.2.descendant rest

/-- `remove`, the part that concerns the cache -/
def remove (node : FsNode) : FsNode :=
  { node with children := [], state := NodeState.deleted }

def invalidate (node : FsNode) : FsNode :=
  { node with state := NodeState.modified }

end FsNode

/-- `fs_cache` -/
structure FsCache where
  path : Str
  maxCachingLevel : Nat
  invalidationTime : Int
  root : FsNode

/-- An iterator that is not the end: a node of the tree, by the names that lead
to it, or the place of a directory iterator. -/
inductive Found where
  | node (names : List EntryName)
  | listed (path : Str)
deriving DecidableEq

namespace FsCache

/-- The path of the node that the names lead to. -/
def nodePath (cache : FsCache) (names : List EntryName) : Str :=
  names.foldl (fun path name => append path name.text) cache.path

def foundPath (cache : FsCache) : Found -> Str
  | Found.node names => cache.nodePath names
  | Found.listed path => path

/-- The lookup on disk, at the last level: the whole rest of the path is left to
the system, and only its last name is compared. -/
def findListed (cache : FsCache) (disk : Disk) (path : Str) :
    Except FilesystemError (Option Found) :=
  let directory := removeFilename (concat cache.path path)
  match disk.openDirectory (cStr directory) with
  | none => Except.ok none
  | some listing =>
      match listing.names.find? fun name => name.text == filename path with
      | some name => Except.ok (some (Found.listed (append directory name.text)))
      | none => if listing.complete then Except.ok none else Except.error {}

/-- The update in front of a lookup at some depth, and whether it was made. -/
def refreshNode (cache : FsCache) (disk : Disk) (now : Int) (depth : Nat)
    (path : Str) (node : FsNode) : Except FilesystemError Bool × FsNode :=
  if (now - node.lastUpdated > cache.invalidationTime ∧
      depth <= cache.maxCachingLevel) ∨ node.state = NodeState.init then
    match node.update disk now cache.invalidationTime path with
    | (Except.error e, node) => (Except.error e, node)
    | (Except.ok (), node) => (Except.ok true, node)
  else
    (Except.ok false, node)

/-- The child of that name; a node that has not been updated yet gets a second
chance. -/
def findChild (cache : FsCache) (disk : Disk) (now : Int) (updated : Bool)
    (path name : Str) (node : FsNode) :
    Except FilesystemError (Option (EntryName × FsNode)) × FsNode :=
  match node.child name with
  | some entry => (Except.ok (some entry), node)
  | none =>
      if updated then
        (Except.ok none, node)
      else
        match node.update disk now cache.invalidationTime path with
        | (Except.error e, node) => (Except.error e, node)
        | (Except.ok (), node) => (Except.ok (node.child name), node)

/-- The loop of `find` over the elements of the path, from the node that the
names lead to. -/
def findFrom (cache : FsCache) (disk : Disk) (now : Int) (path : Str) :
    Nat -> List EntryName -> FsNode -> List Str ->
      Except FilesystemError (Option Found) × FsNode
  | _, names, node, [] => (Except.ok (some (Found.node names)), node)
  | depth, names, node, part :: rest =>
      if part = [slash] then
        findFrom cache disk now path depth names node rest
      else
        let nodePath := cache.nodePath names
        match cache.refreshNode disk now (depth + 1) nodePath node with
        | (Except.error e, node) => (Except.error e, node)
        | (Except.ok updated, node) =>
            if depth + 1 = cache.maxCachingLevel then
              (cache.findListed disk path, node)
            else
              match cache.findChild disk now updated nodePath part node with
              | (Except.error e, node) => (Except.error e, node)
              | (Except.ok none, node) => (Except.ok none, node)
              | (Except.ok (some (name, child)), node) =>
                  let (found, child) :=
                    findFrom cache disk now path (depth + 1) (names ++ [name])
                      child rest
                  (found, node.alter (fun _ => child) [name])

/-- `find`; `none` is the end. -/
def find (cache : FsCache) (disk : Disk) (now : Int) (path : Str) :
    Except FilesystemError (Option Found) × FsCache :=
  let (found, root) :=
    cache.findFrom disk now path 0 [] cache.root (elements path)
  (found, { cache with root := root })

/-- `fs_iterator::update` -/
def updateFound (cache : FsCache) (disk : Disk) (now : Int) :
    Found -> Except FilesystemError Unit × FsCache
  | Found.listed _ => (Except.ok (), cache)
  | Found.node names =>
      match cache.root.descendant names with
      | none => (Except.ok (), cache)
      | some node =>
          let (done, node) := node.update disk now cache.invalidationTime
            (cache.nodePath names)
          (done, { cache with root := cache.root.alter (fun _ => node) names })

/-- `fs_iterator::remove` and `invalidate`, the part that concerns the cache -/
def alterFound (cache : FsCache) (f : FsNode -> FsNode) : Found -> FsCache
  | Found.listed _ => cache
  | Found.node names => { cache with root := cache.root.alter f names }

/-- Invalidate the directory that an entry has changed in. -/
def invalidateParent (cache : FsCache) (disk : Disk) (now : Int) (path : Str) :
    Except FilesystemError Unit × FsCache :=
  match cache.find disk now (parentPath path) with
  | (Except.error e, cache) => (Except.error e, cache)
  | (Except.ok none, cache) => (Except.ok (), cache)
  | (Except.ok (some found), cache) =>
      (Except.ok (), cache.alterFound FsNode.invalidate found)

/-- The part of a cache that no operation changes. -/
def SameSettings (cache cache' : FsCache) : Prop :=
  cache'.path = cache.path ∧ cache'.maxCachingLevel = cache.maxCachingLevel

theorem sameSettings_find (cache : FsCache) (disk : Disk) (now : Int)
    (path : Str) : SameSettings cache (cache.find disk now path).2 :=
  ⟨rfl, rfl⟩

theorem sameSettings_updateFound (cache : FsCache) (disk : Disk) (now : Int)
    (found : Found) :
    SameSettings cache (cache.updateFound disk now found).2 := by
  cases found with
  | listed path => exact ⟨rfl, rfl⟩
  | node names =>
      unfold updateFound
      dsimp only
      split
      · exact ⟨rfl, rfl⟩
      · exact ⟨rfl, rfl⟩

theorem sameSettings_alterFound (cache : FsCache) (f : FsNode -> FsNode)
    (found : Found) : SameSettings cache (cache.alterFound f found) := by
  cases found with
  | listed path => exact ⟨rfl, rfl⟩
  | node names => exact ⟨rfl, rfl⟩

theorem SameSettings.trans {cache cache' cache'' : FsCache}
    (h : SameSettings cache cache') (h' : SameSettings cache' cache'') :
    SameSettings cache cache'' :=
  ⟨h'.left.trans h.left, h'.right.trans h.right⟩

theorem SameSettings.foundPath_eq {cache cache' : FsCache}
    (h : SameSettings cache cache') (found : Found) :
    cache'.foundPath found = cache.foundPath found := by
  cases found with
  | listed path => rfl
  | node names => rw [foundPath, nodePath, h.left]; rfl

theorem sameSettings_invalidateParent (cache : FsCache) (disk : Disk) (now : Int)
    (path : Str) :
    SameSettings cache (cache.invalidateParent disk now path).2 := by
  have hfind := sameSettings_find cache disk now (parentPath path)
  unfold invalidateParent
  split
  · rename_i hresult
    rw [hresult] at hfind
    exact hfind
  · rename_i hresult
    rw [hresult] at hfind
    exact hfind
  · rename_i found cache' hresult
    rw [hresult] at hfind
    exact hfind.trans (sameSettings_alterFound _ FsNode.invalidate found)

/-!
## What can be found
-/

/-- A name that a directory entry can have. -/
def Ordinary (name : Str) : Prop :=
  name ≠ [] ∧ slash ∉ name ∧ 0 ∉ name ∧ name ≠ str "." ∧ name ≠ str ".."

instance (name : Str) : Decidable (Ordinary name) :=
  inferInstanceAs (Decidable (_ ∧ _))

theorem ordinary_iff_exists {name : Str} :
    Ordinary name <-> exists entry : EntryName, entry.text = name := by
  constructor
  · intro h
    rcases h with ⟨hne, hslash, hnul, hhere, hup⟩
    exact ⟨{ text := name, nonempty := hne, noSlash := hslash, noNul := hnul,
             notHere := hhere, notUp := hup }, rfl⟩
  · rintro ⟨entry, rfl⟩
    exact ⟨entry.nonempty, entry.noSlash, entry.noNul, entry.notHere,
      entry.notUp⟩

/-- The elements that the loop of `find` counts. -/
def parts (path : Str) : List Str :=
  (elements path).filter fun part => part ≠ [slash]

/-- The names that are looked up in the tree, and the last name if the lookup
goes to the disk, can be names of entries. -/
def Findable (maxCachingLevel : Nat) (path : Str) : Prop :=
  (forall part, part ∈ (parts path).take (maxCachingLevel - 1) -> Ordinary part) ∧
    (maxCachingLevel <= (parts path).length -> Ordinary (filename path))

instance (maxCachingLevel : Nat) (path : Str) :
    Decidable (Findable maxCachingLevel path) :=
  inferInstanceAs (Decidable (_ ∧ _))

theorem text_of_child {node : FsNode} {name : Str} {entry : EntryName × FsNode}
    (h : node.child name = some entry) : entry.1.text = name := by
  simpa using List.find?_some h

theorem text_of_findChild {cache : FsCache} {disk : Disk} {now : Int}
    {updated : Bool} {path name : Str} {node : FsNode}
    {entry : EntryName × FsNode}
    (h : (cache.findChild disk now updated path name node).1 =
      Except.ok (some entry)) : entry.1.text = name := by
  unfold findChild at h
  split at h
  · rename_i hchild
    cases h
    exact text_of_child hchild
  split at h
  · cases h
  split at h
  · cases h
  · exact text_of_child (Except.ok.inj h)

theorem findListed_found {cache : FsCache} {disk : Disk} {path : Str}
    {found : Found} (h : cache.findListed disk path = Except.ok (some found)) :
    exists name : EntryName, name.text = filename path ∧
      found = Found.listed
        (append (removeFilename (concat cache.path path)) name.text) := by
  unfold findListed at h
  dsimp only at h
  split at h
  · cases h
  split at h
  · rename_i name hname
    cases h
    exact ⟨name, by simpa using List.find?_some hname, rfl⟩
  · split at h
    · cases h
    · cases h

/-- How a lookup that found something went: every element was found in the tree,
or the lookup ended on disk. -/
inductive Trail (cache : FsCache) (disk : Disk) (path : Str) (depth : Nat)
    (names : List EntryName) (rest : List Str) (found : Found) : Prop where
  | inTree (news : List EntryName)
      (hfound : found = Found.node (names ++ news))
      (hnews : news.map EntryName.text = rest)
      (hdepth : depth + rest.length < cache.maxCachingLevel)
  | onDisk (news : List EntryName)
      (hnews : news.map EntryName.text =
        rest.take (cache.maxCachingLevel - depth - 1))
      (hdepth : cache.maxCachingLevel <= depth + rest.length)
      (hfound : cache.findListed disk path = Except.ok (some found))

theorem trail_of_findFrom {cache : FsCache} {disk : Disk} {now : Int}
    {path : Str} (elements : List Str) {found : Found} :
    forall {depth : Nat} {names : List EntryName} {node : FsNode},
      depth < cache.maxCachingLevel ->
      (cache.findFrom disk now path depth names node elements).1 =
        Except.ok (some found) ->
      Trail cache disk path depth names
        (elements.filter fun part => part ≠ [slash]) found := by
  induction elements with
  | nil =>
      intro depth names node hdepth h
      rw [findFrom] at h
      cases h
      exact Trail.inTree [] (by simp) rfl hdepth
  | cons part rest ih =>
      intro depth names node hdepth h
      rw [findFrom] at h
      by_cases hpart : part = [slash]
      · rw [if_pos hpart] at h
        rw [List.filter_cons_of_neg (by simp [hpart])]
        exact ih hdepth h
      rw [if_neg hpart] at h
      rw [List.filter_cons_of_pos (by simp [hpart])]
      dsimp only at h
      split at h
      · cases h
      rename_i updated node' _
      split at h
      · rename_i hmax
        apply Trail.onDisk []
        · rw [show cache.maxCachingLevel - depth - 1 = 0 by omega]
          rfl
        · rw [List.length_cons]
          omega
        · exact h
      · rename_i hmax
        split at h
        · cases h
        · cases h
        · rename_i name child node'' hchild
          have htext : name.text = part :=
            text_of_findChild (congrArg Prod.fst hchild)
          have hdepth' : depth + 1 < cache.maxCachingLevel := by
            omega
          cases ih hdepth' h with
          | inTree news hfound hnews hlength =>
              apply Trail.inTree (name :: news)
              · rw [hfound, List.append_assoc]
                rfl
              · rw [List.map_cons, htext, hnews]
              · rw [List.length_cons]
                omega
          | onDisk news hnews hlength hfound =>
              apply Trail.onDisk (name :: news)
              · rw [show cache.maxCachingLevel - depth - 1 =
                    (cache.maxCachingLevel - (depth + 1) - 1) + 1 by omega,
                  List.take_succ_cons, List.map_cons, htext, hnews]
              · rw [List.length_cons]
                omega
              · exact hfound

/-!
## Where it is found
-/

theorem names_foldl_append (news : List EntryName) (path : Str) :
    names (news.foldl (fun path name => append path name.text) path) =
      names path ++ news.map EntryName.text := by
  induction news generalizing path with
  | nil => simp
  | cons name rest ih =>
      rw [List.foldl_cons, ih, names_append (isAbsolute_of_not_mem name.noSlash),
        names_of_not_mem name.noSlash, if_neg name.nonempty, List.append_assoc]
      rfl

theorem isAbsolute_foldl_append (news : List EntryName) (path : Str) :
    isAbsolute (news.foldl (fun path name => append path name.text) path) =
      isAbsolute path := by
  induction news generalizing path with
  | nil => rfl
  | cons name rest ih =>
      rw [List.foldl_cons, ih, isAbsolute_append,
        isAbsolute_of_not_mem name.noSlash, Bool.or_false]

theorem nul_not_mem_foldl_append (news : List EntryName) {path : Str}
    (hpath : 0 ∉ path) :
    0 ∉ news.foldl (fun path name => append path name.text) path := by
  induction news generalizing path with
  | nil => exact hpath
  | cons name rest ih => exact ih (nul_not_mem_append hpath name.noNul)

theorem slash_not_mem_parts (path : Str) : [slash] ∉ parts path := by
  simp [parts]

theorem parts_eq {path : Str} (hpath : isAbsolute path = true) :
    parts path =
      names path ++ if names path ≠ [] ∧ endsInSlash path then [[]] else [] := by
  have hnames : (names path).filter (fun part => part ≠ [slash]) = names path := by
    apply List.filter_eq_self.mpr
    intro name hname
    have hslash := slash_not_mem_of_mem_names hname
    simp only [ne_eq, decide_not, Bool.not_eq_eq_eq_not, Bool.not_true,
      decide_eq_false_iff_not]
    rintro rfl
    simp at hslash
  unfold parts elements
  rw [if_pos hpath, List.filter_append, List.filter_append, hnames]
  split
  · rfl
  · rfl

/-- The parts of a path are those of its parent, and its last name. -/
theorem parts_parentPath {path : Str} (hpath : isAbsolute path = true) :
    (parts path = [] ∧ parts (parentPath path) = []) ∨
      parts path = parts (parentPath path) ++ [filename path] := by
  have hmem : slash ∈ path := by
    rcases exists_of_isAbsolute hpath with ⟨rest, rfl⟩
    exact List.mem_cons_self
  rw [parts_eq hpath, parts_eq (isAbsolute_parentPath hpath)]
  rcases exists_lastSlash hmem with ⟨q, r, rfl, hr⟩
  rcases names_parentPath hr hpath with ⟨hnames, hends⟩
  have hparent : names q ++ (if names q ≠ [] ∧
      endsInSlash (parentPath (q ++ slash :: r)) = true then [[]] else []) =
        names q := by
    rw [if_neg, List.append_nil]
    rintro ⟨hne, hslash⟩
    rw [hends hne] at hslash
    cases hslash
  rw [hnames, hparent, filename_append_slash q hr, names_append_slash,
    names_of_not_mem hr]
  rcases eq_or_ne r [] with rfl | hne
  · have hslash : endsInSlash (q ++ [slash]) = true := by
      simp [endsInSlash]
    rw [if_pos rfl, List.append_nil, hslash]
    rcases eq_or_ne (names q) [] with hq | hq
    · exact Or.inl ⟨by rw [hq]; rfl, hq⟩
    · exact Or.inr (by rw [if_pos ⟨hq, rfl⟩])
  · rw [if_neg hne, endsInSlash_of_not_mem q hr hne]
    exact Or.inr (by simp)

/-- An absolute path whose elements are all names of entries. -/
theorem names_of_parts {path : Str} (hpath : isAbsolute path = true)
    (hordinary : forall part, part ∈ parts path -> Ordinary part) :
    parts path = names path ∧ 0 ∉ path := by
  rw [parts_eq hpath] at hordinary ⊢
  constructor
  · split
    · rename_i hends
      rw [if_pos hends] at hordinary
      exact absurd rfl (hordinary [] (by simp)).left
    · exact List.append_nil _
  · intro hnul
    rcases exists_mem_names (by decide) hnul with ⟨name, hname, hmem⟩
    exact (hordinary name (List.mem_append_left _ hname)).right.right.left hmem

/-- A path that ends in a name is found again by putting the name back. -/
theorem append_removeFilename {p path : Str} (hpath : isAbsolute path = true) :
    append (removeFilename (concat p path)) (filename path) = concat p path := by
  have hmem : slash ∈ path := by
    rcases exists_of_isAbsolute hpath with ⟨rest, rfl⟩
    exact List.mem_cons_self
  rcases exists_lastSlash hmem with ⟨q, r, rfl, hr⟩
  have hassoc : concat p (q ++ slash :: r) = (p ++ q) ++ slash :: r := by
    rw [concat, List.append_assoc]
  have hends : endsInSlash (p ++ q ++ [slash]) = true := by
    simp [endsInSlash]
  rw [hassoc, removeFilename_append_slash (p ++ q) hr,
    filename_append_slash q hr, append, if_neg (by simp [isAbsolute_of_not_mem hr]),
    if_pos (Or.inr hends), List.append_assoc]
  rfl

theorem findable_of_trail {cache : FsCache} {disk : Disk} {path : Str}
    {found : Found} (htrail : Trail cache disk path 0 [] (parts path) found) :
    Findable cache.maxCachingLevel path := by
  cases htrail with
  | inTree news hfound hnews hdepth =>
      constructor
      · intro part hpart
        have hmem := List.mem_of_mem_take hpart
        rw [← hnews] at hmem
        rcases List.mem_map.mp hmem with ⟨name, _, hname⟩
        exact ordinary_iff_exists.mpr ⟨name, hname⟩
      · intro hlength
        omega
  | onDisk news hnews hdepth hfound =>
      constructor
      · intro part hpart
        rw [Nat.sub_zero] at hnews
        rw [← hnews] at hpart
        rcases List.mem_map.mp hpart with ⟨name, _, hname⟩
        exact ordinary_iff_exists.mpr ⟨name, hname⟩
      · intro _
        rcases findListed_found hfound with ⟨name, hname, _⟩
        exact ordinary_iff_exists.mpr ⟨name, hname⟩

/-- What is found is what the system would find at the path appended to the
root. -/
theorem resolved_of_trail {cache : FsCache} {disk : Disk} {path : Str}
    {found : Found} (root : RootDir) (hroot : cache.path = root.path)
    (hpath : isAbsolute path = true)
    (htrail : Trail cache disk path 0 [] (parts path) found) (cwd : List Str) :
    resolved cwd (cStr (cache.foundPath found)) =
      resolved cwd (cStr (concat root.path path)) := by
  cases htrail with
  | inTree news hfound hnews hdepth =>
      have hordinary : forall part, part ∈ parts path -> Ordinary part := by
        intro part hpart
        rw [← hnews] at hpart
        rcases List.mem_map.mp hpart with ⟨name, _, hname⟩
        exact ordinary_iff_exists.mpr ⟨name, hname⟩
      rcases names_of_parts hpath hordinary with ⟨hnames, hnul⟩
      have hnode : 0 ∉ cache.nodePath news :=
        nul_not_mem_foldl_append news (by rw [hroot]; exact root.noNul)
      have happend : 0 ∉ concat root.path path := by
        simp [concat, root.noNul, hnul]
      rw [hfound, List.nil_append, foundPath, cStr_of_noNul hnode,
        cStr_of_noNul happend, resolved_concat cwd root hpath, resolved,
        nodePath, isAbsolute_foldl_append, components, names_foldl_append,
        List.map_append, LexicalPath.resolve_append, hnews, hnames, hroot]
      rfl
  | onDisk news hnews hdepth hfound =>
      rcases findListed_found hfound with ⟨name, hname, rfl⟩
      rw [foundPath, hname, append_removeFilename hpath, hroot]

theorem trail_of_find {cache : FsCache} {disk : Disk} {now : Int} {path : Str}
    {found : Found} (hmax : 0 < cache.maxCachingLevel)
    (h : (cache.find disk now path).1 = Except.ok (some found)) :
    Trail cache disk path 0 [] (parts path) found :=
  trail_of_findFrom (elements path) hmax h

/-!
## Lookups that do not fail
-/

/-- A disk that answers whatever it is asked. -/
def Answering (disk : Disk) : Prop :=
  (forall path, (disk.status path).isSome = true) ∧
    forall path listing, disk.openDirectory path = some listing ->
      listing.complete = true

theorem update_ok {disk : Disk} (hdisk : Answering disk)
    (now invalidationTime : Int) (path : Str) (node : FsNode) :
    (node.update disk now invalidationTime path).1 = Except.ok () := by
  unfold FsNode.update
  split
  · rfl
  have hsome := hdisk.left (cStr path)
  split
  · rename_i hnone
    rw [hnone] at hsome
    cases hsome
  · rfl
  · unfold FsNode.load
    split
    · rfl
    dsimp only
    split
    · rename_i hany
      rcases List.any_eq_true.mp hany with ⟨name, _, hnone⟩
      have hname := hdisk.left (cStr (append path name.text))
      rw [Option.isNone_iff_eq_none.mp hnone] at hname
      cases hname
    · rfl

theorem findListed_ok {disk : Disk} (hdisk : Answering disk) (cache : FsCache)
    (path : Str) : exists found, cache.findListed disk path = Except.ok found := by
  unfold findListed
  dsimp only
  split
  · exact ⟨_, rfl⟩
  rename_i listing hlisting
  split
  · exact ⟨_, rfl⟩
  · rw [if_pos (hdisk.right _ listing hlisting)]
    exact ⟨_, rfl⟩

theorem findFrom_ok {disk : Disk} (hdisk : Answering disk) (cache : FsCache)
    (now : Int) (path : Str) (elements : List Str) :
    forall (depth : Nat) (names : List EntryName) (node : FsNode),
      exists found,
        (cache.findFrom disk now path depth names node elements).1 =
          Except.ok found := by
  induction elements with
  | nil =>
      intro depth names node
      exact ⟨_, rfl⟩
  | cons part rest ih =>
      intro depth names node
      rw [findFrom]
      split
      · exact ih depth names node
      dsimp only
      split
      · rename_i hrefresh
        unfold refreshNode at hrefresh
        split at hrefresh
        · have hupdate := update_ok hdisk now cache.invalidationTime
            (cache.nodePath names) node
          split at hrefresh
          · rename_i herror
            rw [herror] at hupdate
            cases hupdate
          · cases hrefresh
        · cases hrefresh
      rename_i updated node' _
      split
      · exact findListed_ok hdisk cache path
      split
      · rename_i hchild
        unfold findChild at hchild
        split at hchild
        · cases hchild
        split at hchild
        · cases hchild
        have hupdate := update_ok hdisk now cache.invalidationTime
          (cache.nodePath names) node'
        split at hchild
        · rename_i herror
          rw [herror] at hupdate
          cases hupdate
        · cases hchild
      · exact ⟨_, rfl⟩
      · exact ih _ _ _

theorem find_ok {disk : Disk} (hdisk : Answering disk) (cache : FsCache)
    (now : Int) (path : Str) :
    exists found, (cache.find disk now path).1 = Except.ok found :=
  findFrom_ok hdisk cache now path (elements path) 0 [] cache.root

theorem invalidateParent_ok {disk : Disk} (hdisk : Answering disk) (cache : FsCache)
    (now : Int) (path : Str) :
    (cache.invalidateParent disk now path).1 = Except.ok () := by
  rcases find_ok hdisk cache now (parentPath path) with ⟨answer, hanswer⟩
  unfold invalidateParent
  split
  · rename_i hfind
    rw [hfind] at hanswer
    cases hanswer
  · rfl
  · rfl

/-!
## Lookups that succeed
-/

/-- A synchronised branch of the tree. -/
def branch (now : Int) : List EntryName -> FsNode
  | [] =>
      { state := NodeState.sync
        lastUpdated := now
        cachingLevel := 0
        children := [] }
  | name :: rest =>
      { state := NodeState.sync
        lastUpdated := now
        cachingLevel := 0
        children := [(name, branch now rest)] }

theorem refreshNode_branch (cache : FsCache) (hfresh : 0 <= cache.invalidationTime)
    (disk : Disk) (now : Int) (depth : Nat) (path : Str) (names : List EntryName) :
    cache.refreshNode disk now depth path (branch now names) =
      (Except.ok false, branch now names) := by
  have hage : ¬ now - now > cache.invalidationTime := by
    omega
  have hstate : (branch now names).state = NodeState.sync := by
    cases names with
    | nil => rfl
    | cons name rest => rfl
  have hupdated : (branch now names).lastUpdated = now := by
    cases names with
    | nil => rfl
    | cons name rest => rfl
  rw [refreshNode, hupdated, hstate, if_neg]
  rintro (⟨hold, _⟩ | hinit)
  · exact hage hold
  · cases hinit

/-- A lookup that follows the branch gets to its end. -/
theorem findFrom_branch (cache : FsCache) (hfresh : 0 <= cache.invalidationTime)
    (disk : Disk) (now : Int) (path : Str) (rest : List Str)
    (news : List EntryName) :
    forall {depth : Nat} (names : List EntryName),
      depth + news.length < cache.maxCachingLevel ->
      (cache.findFrom disk now path depth names (branch now news)
          (news.map EntryName.text ++ rest)).1 =
        (cache.findFrom disk now path (depth + news.length) (names ++ news)
          (branch now []) rest).1 := by
  induction news with
  | nil =>
      intro depth names hdepth
      simp
  | cons name tail ih =>
      intro depth names hdepth
      rw [List.length_cons] at hdepth
      have hslash : name.text ≠ [slash] := by
        intro h
        have hmem := name.noSlash
        rw [h] at hmem
        simp at hmem
      have hchild : cache.findChild disk now false (cache.nodePath names)
          name.text (branch now (name :: tail)) =
            (Except.ok (some (name, branch now tail)),
              branch now (name :: tail)) := by
        simp [findChild, branch, FsNode.child]
      rw [List.map_cons, List.cons_append, findFrom, if_neg hslash]
      dsimp only
      rw [refreshNode_branch cache hfresh]
      dsimp only
      rw [if_neg (by omega), hchild]
      dsimp only
      rw [ih (names ++ [name]) (by omega), List.append_assoc, List.length_cons]
      rw [show depth + 1 + tail.length = depth + (tail.length + 1) by omega]
      rfl

theorem elements_eq_parts {path : Str} (hpath : isAbsolute path = true) :
    elements path = [slash] :: parts path := by
  rw [parts_eq hpath, elements, if_pos hpath]
  rfl

theorem exists_entryNames {texts : List Str}
    (h : forall text, text ∈ texts -> Ordinary text) :
    exists news : List EntryName, news.map EntryName.text = texts := by
  induction texts with
  | nil => exact ⟨[], rfl⟩
  | cons text rest ih =>
      rcases ih fun other hother => h other (List.mem_cons_of_mem _ hother) with
        ⟨news, hnews⟩
      rcases ordinary_iff_exists.mp (h text List.mem_cons_self) with ⟨name, hname⟩
      exact ⟨name :: news, by rw [List.map_cons, hname, hnews]⟩

/-- A disk of directories only, each with the same names in it. -/
def uniformDisk (names : List EntryName) : Disk where
  status _ := some FileType.directory
  openDirectory _ := some { names := names, complete := true }

theorem answering_uniformDisk (names : List EntryName) :
    Answering (uniformDisk names) := by
  constructor
  · intro path
    rfl
  · intro path listing h
    cases h
    rfl

/-- Whatever can be found is found on some disk, with some tree in the cache. -/
theorem exists_find (cache : FsCache) (hmax : 0 < cache.maxCachingLevel)
    (hfresh : 0 <= cache.invalidationTime) {path : Str}
    (hpath : isAbsolute path = true)
    (hfindable : Findable cache.maxCachingLevel path) (now : Int) :
    exists listed tree found,
      ({ cache with root := branch now tree }.find (uniformDisk listed) now
        path).1 = Except.ok (some found) := by
  rcases exists_entryNames hfindable.left with ⟨news, hnews⟩
  have hlength : news.length =
      min (cache.maxCachingLevel - 1) (parts path).length := by
    rw [← List.length_map EntryName.text, hnews, List.length_take]
  have hfollow : forall listed rest, parts path =
      news.map EntryName.text ++ rest ->
      ({ cache with root := branch now news }.find (uniformDisk listed) now
        path).1 =
        (({ cache with root := branch now news } : FsCache).findFrom
          (uniformDisk listed) now path news.length news (branch now []) rest).1 := by
    intro listed rest hparts
    have hdepth : 0 + news.length < cache.maxCachingLevel := by
      omega
    have hbranch := findFrom_branch { cache with root := branch now news } hfresh
      (uniformDisk listed) now path rest news [] hdepth
    rw [find, elements_eq_parts hpath, findFrom, if_pos rfl, hparts]
    rw [hbranch, Nat.zero_add, List.nil_append]
  by_cases hshort : (parts path).length < cache.maxCachingLevel
  · have hparts : parts path = news.map EntryName.text ++ [] := by
      rw [hnews, List.append_nil, List.take_of_length_le (by omega)]
    exact ⟨[], news, Found.node news, by rw [hfollow [] [] hparts]; rfl⟩
  · rcases ordinary_iff_exists.mp (hfindable.right (by omega)) with ⟨name, hname⟩
    have hparts : parts path = news.map EntryName.text ++
        (parts path).drop (cache.maxCachingLevel - 1) := by
      rw [hnews, List.take_append_drop]
    cases hrest : (parts path).drop (cache.maxCachingLevel - 1) with
    | nil =>
        have hempty := List.drop_eq_nil_iff.mp hrest
        omega
    | cons part rest =>
        have hslash : part ≠ [slash] := by
          rintro rfl
          exact slash_not_mem_parts path
            (List.mem_of_mem_drop (by rw [hrest]; exact List.mem_cons_self))
        rw [hrest] at hparts
        have hlast : news.length + 1 = cache.maxCachingLevel := by
          omega
        apply Exists.intro [name]
        apply Exists.intro news
        rw [hfollow [name] (part :: rest) hparts, findFrom, if_neg hslash]
        dsimp only
        rw [refreshNode_branch { cache with root := branch now news } hfresh]
        dsimp only
        rw [if_pos hlast]
        simp [findListed, uniformDisk, hname]

end FsCache

end CisWebui
