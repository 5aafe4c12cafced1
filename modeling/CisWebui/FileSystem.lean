import CisWebui.Foundation.FileTree
import CisWebui.FsCache

/-!
# The file system

A file system without links, as the system calls of the server see it: what they
do to the tree of files, by the paths they are given, and the disk that the
cache reads.
-/

namespace CisWebui

open Cpp FilesystemPath Foundation

structure FileSystem where
  tree : FileTree Str
  cwd : List Str

/-- A name that comes from a directory. -/
def EntryName.ofText (text : Str) : Option EntryName :=
  if h : FsCache.Ordinary text then
    some
      { text := text
        nonempty := h.left
        noSlash := h.right.left
        noNul := h.right.right.left
        notHere := h.right.right.right.left
        notUp := h.right.right.right.right }
  else
    none

theorem EntryName.eq_of_text {a b : EntryName} (h : a.text = b.text) : a = b := by
  cases a
  cases b
  cases h
  rfl

theorem EntryName.text_ne_slash (name : EntryName) : name.text ≠ [slash] := by
  intro h
  apply name.noSlash
  rw [h]
  exact List.mem_cons_self

namespace FileSystem

/-!
## What the system does
-/

/-- Where a path leads. -/
def locate (fs : FileSystem) (path : Str) : List Str :=
  resolved fs.cwd (cStr path)

def fileType : Option FileKind -> FileType
  | none => FileType.notFound
  | some FileKind.directory => FileType.directory
  | some FileKind.file => FileType.regular

/-- The disk that the cache reads. -/
def disk (fs : FileSystem) : Disk where
  status path := some (fileType (fs.tree.kind (resolved fs.cwd path)))
  openDirectory path :=
    if fs.tree.IsDirectory (resolved fs.cwd path) then
      some
        { names := (fs.tree.children (resolved fs.cwd path)).filterMap
            EntryName.ofText
          complete := true }
    else
      none

/-- `create_directories` -/
def createDirectories (fs : FileSystem) (path : Str) : Option FileSystem :=
  let start := if isAbsolute path then [] else fs.cwd
  (fs.tree.createDirectories start (components (cStr path))).map fun tree =>
    { fs with tree := tree }

/-- `std::ofstream` -/
def createFile (fs : FileSystem) (path : Str) : Option FileSystem :=
  if endsInSlash (cStr path) then none
  else
    (fs.tree.createFile (fs.locate path)).map fun tree => { fs with tree := tree }

/-- A path that `rename` takes: its last element is a name, and only a directory
is named with a slash at the end. -/
def Renamable (fs : FileSystem) (old path : Str) : Prop :=
  (components (cStr path)).getLast? = (names (cStr path)).getLast?.map Component.name ∧
    (endsInSlash (cStr path) = true -> fs.tree.IsDirectory (fs.locate old))

instance (fs : FileSystem) (old path : Str) : Decidable (fs.Renamable old path) :=
  inferInstanceAs (Decidable (_ ∧ _))

/-- `rename` -/
def rename (fs : FileSystem) (old new : Str) : Option FileSystem :=
  if fs.Renamable old old ∧ fs.Renamable old new then
    (fs.tree.rename (fs.locate old) (fs.locate new)).map fun tree =>
      { fs with tree := tree }
  else
    none

/-- `remove_all` -/
def removeAll (fs : FileSystem) (path : Str) : FileSystem :=
  { fs with tree := fs.tree.removeAll (fs.locate path) }

/-!
## Paths of names
-/

theorem component_text (name : EntryName) :
    component name.text = Component.name name.text := by
  rw [component, if_neg name.notHere, if_neg name.notUp]

theorem map_component_text (names : List EntryName) :
    (names.map EntryName.text).map component =
      (names.map EntryName.text).map Component.name := by
  rw [List.map_map, List.map_map]
  exact List.map_congr_left fun name _ => component_text name

/-- Names lead below the directory one after the other. -/
theorem resolve_names (dir names : List Str) :
    LexicalPath.resolve dir (names.map Component.name) = dir ++ names := by
  induction names generalizing dir with
  | nil => exact (List.append_nil dir).symm
  | cons name rest ih =>
      rw [List.map_cons, LexicalPath.resolve_cons, ih, LexicalPath.move,
        List.append_assoc]
      rfl

theorem locate_append (fs : FileSystem) {directory : Str} (hnul : 0 ∉ directory)
    (name : EntryName) :
    fs.locate (append directory name.text) = fs.locate directory ++ [name.text] := by
  rw [locate, cStr_append hnul, cStr_of_noNul name.noNul,
    resolved_append (isAbsolute_of_not_mem name.noSlash), locate, cStr_of_noNul hnul,
    components, names_of_not_mem name.noSlash, if_neg name.nonempty,
    List.map_singleton, component_text]
  rfl

theorem ofText_text (name : EntryName) : EntryName.ofText name.text = some name := by
  have hordinary : FsCache.Ordinary name.text :=
    FsCache.ordinary_iff_exists.mpr ⟨name, rfl⟩
  rw [EntryName.ofText, dif_pos hordinary]

theorem text_of_ofText {text : Str} {name : EntryName}
    (h : EntryName.ofText text = some name) : name.text = text := by
  unfold EntryName.ofText at h
  split at h
  · cases h
    rfl
  · cases h

/-- Nothing that is asked of the disk fails. -/
theorem answering_disk (fs : FileSystem) : FsCache.Answering fs.disk := by
  constructor
  · intro path
    rfl
  · intro path listing h
    simp only [disk] at h
    split at h
    · cases h
      rfl
    · cases h

theorem status_disk (fs : FileSystem) (path : Str) :
    fs.disk.status (cStr path) =
      some (fileType (fs.tree.kind (fs.locate path))) := rfl

theorem fileType_eq_directory_iff {kind : Option FileKind} :
    fileType kind = FileType.directory <-> kind = some FileKind.directory := by
  rcases kind with _ | _ | _
  · simp [fileType]
  · simp [fileType]
  · simp [fileType]

/-- The names a walk gets to see of a directory. -/
theorem mem_listedNames {fs : FileSystem} {path : Str}
    (hdir : fs.tree.IsDirectory (fs.locate path)) (name : EntryName) :
    name ∈ FsNode.listedNames fs.disk path <->
      fs.tree.Exists (fs.locate path ++ [name.text]) := by
  have hnames : FsNode.listedNames fs.disk path =
      (fs.tree.children (fs.locate path)).filterMap EntryName.ofText := by
    rw [locate] at hdir
    unfold FsNode.listedNames disk locate
    dsimp only
    rw [if_pos hdir]
  rw [hnames, List.mem_filterMap, ← FileTree.mem_children]
  constructor
  · rintro ⟨text, hmem, htext⟩
    rwa [text_of_ofText htext]
  · intro hmem
    exact ⟨name.text, hmem, ofText_text name⟩

theorem nodup_listedNames (fs : FileSystem) (path : Str) :
    (FsNode.listedNames fs.disk path).Nodup := by
  unfold FsNode.listedNames disk
  dsimp only
  split
  · exact List.nodup_nil
  · rename_i listing hlisting
    split at hlisting
    · cases hlisting
      apply (FileTree.nodup_children _ _).filterMap
      intro text text' name hname hname'
      rw [← text_of_ofText hname, ← text_of_ofText hname']
    · cases hlisting

end FileSystem

/-!
## The files of the cache
-/

namespace FsCache

open FileSystem

variable {cache : FsCache} {fs : FileSystem}

/-- Where the root of the cache is. -/
def base (cache : FsCache) (fs : FileSystem) : List Str :=
  fs.locate cache.path

/-- Where the names lead from the root. -/
def place (cache : FsCache) (fs : FileSystem) (names : List EntryName) : List Str :=
  cache.base fs ++ names.map EntryName.text

theorem resolved_nodePath (cwd : List Str) (cache : FsCache)
    (names : List EntryName) :
    resolved cwd (cache.nodePath names) =
      resolved cwd cache.path ++ names.map EntryName.text := by
  rw [resolved, nodePath, isAbsolute_foldl_append, components,
    names_foldl_append, List.map_append, LexicalPath.resolve_append,
    map_component_text, resolve_names]
  rfl

theorem locate_nodePath (hnul : 0 ∉ cache.path) (names : List EntryName) :
    fs.locate (cache.nodePath names) = cache.place fs names := by
  have hnode : cStr (cache.nodePath names) = cache.nodePath names :=
    cStr_of_noNul (nul_not_mem_foldl_append names hnul)
  rw [locate, hnode, resolved_nodePath, place, base, locate, cStr_of_noNul hnul]

theorem place_append (names more : List EntryName) :
    cache.place fs (names ++ more) =
      cache.place fs names ++ more.map EntryName.text := by
  rw [place, place, List.map_append, List.append_assoc]

/-- Where an absolute path leads that is appended to the root. -/
theorem locate_concat (hne : cache.path ≠ []) (hnul : 0 ∉ cache.path) {path : Str}
    (habsolute : isAbsolute path = true) :
    fs.locate (concat cache.path path) =
      LexicalPath.resolve (cache.base fs) (components (cStr path)) := by
  let root : RootDir := { path := cache.path, nonempty := hne, noNul := hnul }
  have habs : isAbsolute (cStr path) = true := by
    rw [isAbsolute_cStr, habsolute]
  have hcut : cStr (concat cache.path path) = concat cache.path (cStr path) :=
    cStr_append_of_noNul hnul path
  rw [locate, hcut, resolved_concat fs.cwd root habs, base, locate,
    cStr_of_noNul hnul]

end FsCache

end CisWebui
