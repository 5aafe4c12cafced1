import CisWebui.Database.ProjectRows
import CisWebui.Foundation.EventSystem
import CisWebui.FsCacheLookups
import CisWebui.Websocket.PathConfinement

/-!
# Projects and their directories

The table of projects beside the directories in the projects root, through the
requests that reach both: the handlers in front of the file cache, the file
system and the database.
-/

namespace CisWebui
namespace Websocket

open Cpp FilesystemPath Foundation

/-!
## The managers
-/

/-- What the managers work on, and what a request leaves: the iterator of the
project that was looked up, and the last reply. -/
structure Holdings where
  files : FileSystem
  database : Database
  project : Option Found
  replied : Option Reply

/-- What the system makes of an effect; the text and the permissions of files
are left out. -/
def Effect.apply (files : FileSystem) : Effect -> Option FileSystem
  | Effect.rename old new => files.rename old new
  | Effect.createDirectories path => files.createDirectories path
  | Effect.openFile path => files.createFile path
  | Effect.write _ _ => some files
  | Effect.setPermissions _ _ => some files
  | Effect.removeAll path => some (files.removeAll path)

def systemError : ErrorCode where
  message := str "filesystem error"

/-- The rights are not asked for here: the machine below has the database. -/
def site (now : Int) : Site Holdings where
  disk o := o.files.disk
  now _ := now
  effect e o :=
    match e.apply o.files with
    | none => (Except.error systemError, o)
    | some files => (Except.ok (), { o with files := files })
  rights _ _ := Except.ok none
  answer _ o := (default, o)

namespace Server

variable (now : Int) (w : Server Holdings)

def setDatabase (database : Database) : Server Holdings :=
  { w with outer := { w.outer with database := database } }

/-- `get_project_info`.  An entry goes by the type it had when it was put into
the cache: whether that was a directory is `isDirectory`. -/
def getProject (isDirectory : Bool) (project : Str) :
    Cached (Option DirEntry) × Server Holdings :=
  match w.find (site now) (slash :: project) with
  | (Except.error f, w) => (Except.error f, w)
  | (Except.ok none, w) => (Except.ok none, w)
  | (Except.ok (some found), w) =>
      if isDirectory then
        (Except.ok (some (w.dirEntry (site now) found)),
          { w with outer := { w.outer with project := some found } })
      else
        (Except.ok none, w)

/-- `create_project` -/
def createProject (project : Str) : Cached (Fallible Unit) × Server Holdings :=
  let path := append (str "/") project
  match w.change (site now) [path] (Effect.createDirectories (w.below path)) with
  | (Except.error f, w) => (Except.error f, w)
  | (Except.ok directory, w) =>
      let (answer, database) :=
        CisManager.createProject none directory project w.outer.database
      (Except.ok answer, w.setDatabase database)

/-- What the iterator is to: its files, and its node. -/
def removeIterator : Option Found -> Server Holdings
  | none => w
  | some found =>
      { w with
        outer :=
          { w.outer with files := w.outer.files.removeAll (w.cache.foundPath found) }
        cache := w.cache.alterFound FsNode.remove found }

/-- `remove_project`, with the iterator that the project was looked up with -/
def removeProject (project : DirEntry) :
    Cached (Fallible Unit) × Server Holdings :=
  let w := w.removeIterator w.outer.project
  let w := { w with cache := w.cache.alterFound FsNode.invalidate (Found.node []) }
  let (answer, database) :=
    CisManager.removeProject none (filename project.path) w.outer.database
  (Except.ok answer, w.setDatabase database)

end Server

/-- The managers, with statements that do not fail; `now` is the time of each
operation.  None of the requests here asks for anything else. -/
def managers (now : Op -> Int) (isDirectory : Bool) :
    Machine Op Op.Answer (Server Holdings) where
  perform
    | Op.call (Call.isAdmin email), w =>
        (RightsManager.isAdmin none email w.outer.database, w)
    | Op.call (Call.checkProjectRight email project), w =>
        (RightsManager.checkProjectRight none email project w.outer.database, w)
    | Op.call (Call.getProjectInfo project), w =>
        w.getProject (now (Op.call (Call.getProjectInfo project))) isDirectory project
    | Op.call (Call.createProject project), w =>
        w.createProject (now (Op.call (Call.createProject project))) project
    | Op.call (Call.removeProject project), w => w.removeProject project
    | Op.call (Call.remove path), w =>
        w.remove (site (now (Op.call (Call.remove path)))) path
    | Op.call (Call.moveEntry oldPath newPath), w =>
        w.change (site (now (Op.call (Call.moveEntry oldPath newPath))))
          [oldPath, newPath] (Effect.rename (w.below oldPath) (w.below newPath))
    | Op.call (Call.createDirectory path), w =>
        w.change (site (now (Op.call (Call.createDirectory path)))) [path]
          (Effect.createDirectories (w.below path))
    | Op.reply r, w => ((), { w with outer := { w.outer with replied := some r } })
    | Op.call c, w => ((default : c.Answer), w)
    | Op.replyMoved _, w => ((), w)
    | Op.setClientInfo _, w => ((), w)

/-!
## Requests
-/

/-- The requests that make, move or remove what is in the projects root; the
decoder lets no project to be removed have a slash in its name. -/
inductive TreeRequest where
  | projectAdd (project : Str)
  | projectRemove (project : Str) (decoded : validatePathFragment project = true)
  | newDir (path : Str)
  | move (oldPath newPath : Str)
  | remove (path : Str)

def TreeRequest.request : TreeRequest -> Request
  | projectAdd project => Request.cisProjectAdd project
  | projectRemove project _ => Request.cisProjectRemove project
  | newDir path => Request.fsEntryNewDir path
  | move oldPath newPath => Request.fsEntryMove oldPath newPath
  | remove path => Request.fsEntryRemove path

/-- A request of a client, with the times it meets. -/
structure TreeEvent where
  ctx : RequestContext
  request : TreeRequest
  now : Op -> Int
  isDirectory : Bool

structure ProjectStore where
  files : FileSystem
  database : Database
  cache : FsCache

namespace ProjectStore

def server (s : ProjectStore) : Server Holdings where
  outer :=
    { files := s.files, database := s.database, project := none, replied := none }
  cache := s.cache
  located := []

/-- What the server is left with behind a request. -/
def after (validCron : Str -> Bool) (s : ProjectStore) (e : TreeEvent) :
    Server Holdings :=
  ((dispatch validCron e.ctx e.request.request).run (managers e.now e.isDirectory)
    s.server).2

def ofServer (w : Server Holdings) : ProjectStore where
  files := w.outer.files
  database := w.outer.database
  cache := w.cache

def succeeded : Option Reply -> Bool
  | some (Reply.success _) => true
  | _ => false

/-- A request that is answered with a success. -/
def step (validCron : Str -> Bool) (s : ProjectStore) (e : TreeEvent) :
    Option ProjectStore :=
  let w := s.after validCron e
  if succeeded w.outer.replied then some (ofServer w) else none

/-- The directories among the entries of a node that has just been loaded. -/
def projectNames (files : FileSystem) (path : Str) (node : FsNode) : List Str :=
  ((node.children.map Prod.fst).filter fun name =>
    files.disk.status (cStr (append path name.text)) =
      some FileType.directory).map EntryName.text

/-- Five seconds, in nanoseconds. -/
def invalidationTime : Int := 5000000000

/-- The state after `refresh_projects`. -/
def started (root : RootDir) (now : Int) (files : FileSystem) (database : Database) :
    ProjectStore :=
  let node :=
    ((FsNode.fresh now 4).update files.disk now invalidationTime root.path).2
  { files := files
    database :=
      (CisManager.refreshProjects none (projectNames files root.path node) database).2
    cache :=
      { path := root.path
        maxCachingLevel := 4
        invalidationTime := invalidationTime
        root := node } }

def system (validCron : Str -> Bool) (root : RootDir) (now : Int) (files : FileSystem)
    (database : Database) : EventSystem ProjectStore TreeEvent where
  init := started root now files database
  step := step validCron

end ProjectStore

/-!
## Directories in the root
-/

/-- There is a directory of that name directly in the root. -/
def HasDirectory (root : RootDir) (files : FileSystem) (name : Str) : Prop :=
  files.tree.IsDirectory (files.locate root.path ++ [name])

/-- On the way to the path nothing is missing directly in the root, but for the
names that are allowed to be. -/
def MakesOnly (root : RootDir) (files : FileSystem) (path : Str)
    (allowed : Str -> Prop) : Prop :=
  let start := if isAbsolute (concat root.path path) then [] else files.cwd
  forall done name rest (entry : EntryName),
    components (cStr (concat root.path path)) = done ++ Component.name name :: rest ->
    LexicalPath.resolve start (done ++ [Component.name name]) =
      files.locate root.path ++ [entry.text] ->
    files.tree.Exists (files.locate root.path ++ [entry.text]) ∨ allowed entry.text

/-- The path is not that of a directory in the root, and not above one. -/
def SparesDirectories (root : RootDir) (files : FileSystem) (path : Str) : Prop :=
  forall entry : EntryName, HasDirectory root files entry.text ->
    ¬ files.locate path <+: files.locate root.path ++ [entry.text]

/-- The move takes no directory from the root and puts no other one there. -/
def MovesNone (root : RootDir) (files : FileSystem) (old new : Str) : Prop :=
  files.locate old = files.locate new ∨
    SparesDirectories root files old ∧
      forall (entry : EntryName) (rest : List Str),
        files.locate root.path ++ [entry.text] = files.locate new ++ rest ->
        files.tree.IsDirectory (files.locate old ++ rest) ->
        HasDirectory root files entry.text

section Directories

variable {root : RootDir} {files files' : FileSystem} {path : Str}

theorem hasDirectory_createDirectories {allowed : Str -> Prop}
    (hmakes : MakesOnly root files path allowed)
    (h : files.createDirectories (concat root.path path) = some files')
    {entry : EntryName} (hentry : ¬ allowed entry.text) :
    HasDirectory root files' entry.text <-> HasDirectory root files entry.text := by
  unfold FileSystem.createDirectories at h
  rcases Option.map_eq_some_iff.mp h with ⟨tree, htree, rfl⟩
  rcases FileTree.kind_of_createDirectories htree
    (files.locate root.path ++ [entry.text]) with
    hsame | ⟨hnone, _, done, rest, name, hpath, hplace⟩
  · show tree.kind _ = _ <-> files.tree.kind _ = _
    rw [← hsame]
    rfl
  · rcases hmakes done name rest entry hpath hplace.symm with hthere | hallowed
    · exact absurd hnone hthere
    · exact absurd hallowed hentry

theorem append_root (project : EntryName) :
    append (str "/") project.text = slash :: project.text := by
  rw [append_eq_stem (isAbsolute_of_not_mem project.noSlash)]
  rfl

theorem components_concat_project (root : RootDir) (project : EntryName) :
    components (cStr (concat root.path (append (str "/") project.text))) =
      components root.path ++ [Component.name project.text] := by
  have hpath := append_root project
  have hnul : 0 ∉ slash :: project.text := by
    intro h
    rcases List.mem_cons.mp h with hslash | hmem
    · exact absurd hslash (by decide)
    · exact project.noNul hmem
  have hcut : cStr (concat root.path (slash :: project.text)) =
      concat root.path (slash :: project.text) := by
    rw [concat, cStr_append_of_noNul root.noNul, cStr_of_noNul hnul]
  rw [hpath, hcut, components, names_concat rfl, names_slash_cons,
    names_of_not_mem project.noSlash, if_neg project.nonempty, List.map_append,
    List.map_singleton, FileSystem.component_text, components]

theorem hasDirectory_made {project : EntryName}
    (h : files.createDirectories (concat root.path (append (str "/") project.text)) =
      some files') : HasDirectory root files' project.text := by
  unfold FileSystem.createDirectories at h
  rcases Option.map_eq_some_iff.mp h with ⟨tree, htree, rfl⟩
  rw [components_concat_project] at htree
  have hmade := FileTree.isDirectory_of_createDirectories htree
  rw [isAbsolute_concat] at hmade
  show tree.IsDirectory (resolved files.cwd (cStr root.path) ++ [project.text])
  rw [cStr_of_noNul root.noNul]
  exact hmade

/-- The directory of a project that is made, next to those that are there. -/
theorem hasDirectory_createProject {project : EntryName}
    (hmakes : MakesOnly root files (append (str "/") project.text)
      fun name => name = project.text)
    (h : files.createDirectories (concat root.path (append (str "/") project.text)) =
      some files') (entry : EntryName) :
    HasDirectory root files' entry.text <->
      HasDirectory root files entry.text ∨ entry.text = project.text := by
  rcases eq_or_ne entry.text project.text with hsame | hne
  · rw [hsame]
    exact ⟨fun _ => Or.inr rfl, fun _ => hasDirectory_made h⟩
  · rw [hasDirectory_createDirectories hmakes h hne]
    constructor
    · exact Or.inl
    · rintro (hdir | heq)
      · exact hdir
      · exact absurd heq hne

theorem hasDirectory_removeAll (hne : files.locate path ≠ []) (name : Str) :
    HasDirectory root (files.removeAll path) name <->
      HasDirectory root files name ∧
        ¬ files.locate path <+: files.locate root.path ++ [name] := by
  have hkind := FileTree.removeAll_kind hne (files.locate root.path ++ [name])
    (t := files.tree)
  show (files.tree.removeAll (files.locate path)).kind
    (files.locate root.path ++ [name]) = some FileKind.directory <-> _
  rw [hkind]
  split
  · rename_i hunder
    constructor
    · intro h
      cases h
    · rintro ⟨_, hnot⟩
      exact absurd hunder hnot
  · rename_i hnot
    exact ⟨fun h => ⟨h, hnot⟩, fun h => h.left⟩

theorem hasDirectory_removeAll_spared (hspares : SparesDirectories root files path)
    (entry : EntryName) :
    HasDirectory root (files.removeAll path) entry.text <->
      HasDirectory root files entry.text := by
  rcases eq_or_ne (files.locate path) [] with htop | hne
  · rw [FileSystem.removeAll, htop, FileTree.removeAll, dif_pos rfl]
  · rw [hasDirectory_removeAll hne]
    constructor
    · exact fun hdir => hdir.left
    · exact fun hdir => ⟨hdir, hspares entry hdir⟩

theorem hasDirectory_rename {old new : Str} (hmoves : MovesNone root files old new)
    (h : files.rename old new = some files') (entry : EntryName) :
    HasDirectory root files' entry.text <-> HasDirectory root files entry.text := by
  unfold FileSystem.rename at h
  split at h
  · rcases Option.map_eq_some_iff.mp h with ⟨tree, htree, rfl⟩
    rcases eq_or_ne (files.locate old) (files.locate new) with hsame | hne
    · rw [hsame, FileTree.rename, if_pos rfl] at htree
      split at htree
      · cases htree
        exact Iff.rfl
      · cases htree
    · rcases hmoves.resolve_left hne with ⟨hspares, hbrings⟩
      constructor
      · intro hdir
        have hdir : tree.kind (files.locate root.path ++ [entry.text]) =
            some FileKind.directory := hdir
        rw [FileTree.kind_of_rename hne htree] at hdir
        split at hdir
        · rename_i hunder
          rcases hunder with ⟨rest, hrest⟩
          rw [← hrest, List.drop_left] at hdir
          exact hbrings entry rest hrest.symm hdir
        · split at hdir
          · cases hdir
          · exact hdir
      · intro hdir
        exact FileTree.isDirectory_of_rename htree hdir (hspares entry hdir)
  · cases h

end Directories

/-!
## Lookups and changes
-/

/-- The cache of the projects root. -/
structure Rooted (root : RootDir) (cache : FsCache) : Prop where
  path : cache.path = root.path
  level : cache.maxCachingLevel = 4

theorem Rooted.of_same {root : RootDir} {cache cache' : FsCache} (h : Rooted root cache)
    (hsame : FsCache.SameSettings cache cache') : Rooted root cache' where
  path := hsame.left.trans h.path
  level := hsame.right.trans h.level

/-- A name as the decoder lets it through. -/
def PlainName (project : Str) : Prop :=
  project ≠ [] ∧ slash ∉ project

section Lookups

variable {root : RootDir} {cache : FsCache} {files : FileSystem}

theorem parts_of_plainName {project : Str} (h : PlainName project) :
    FsCache.parts (slash :: project) = [project] := by
  have hends : endsInSlash ([] ++ slash :: project) = false :=
    endsInSlash_of_not_mem [] h.right h.left
  rw [List.nil_append] at hends
  rw [FsCache.parts_eq rfl, names_slash_cons, names_of_not_mem h.right, if_neg h.left,
    hends]
  simp

/-- A project that is found is a node of the first level. -/
theorem found_of_plainName (hroot : Rooted root cache) {project : Str}
    (hplain : PlainName project) {disk : Disk} {now : Int} {found : Found}
    (h : (cache.find disk now (slash :: project)).1 = Except.ok (some found)) :
    exists name : EntryName, name.text = project ∧ found = Found.node [name] := by
  have hlevel := hroot.level
  have hparts := parts_of_plainName hplain
  cases FsCache.trail_of_find (by omega) h with
  | onDisk _ _ hdepth _ =>
      rw [hparts, List.length_singleton] at hdepth
      omega
  | inTree names hfound hnames _ =>
      rw [hparts] at hnames
      rcases List.map_eq_singleton_iff.mp hnames with ⟨name, rfl, hname⟩
      exact ⟨name, hname, hfound⟩

theorem locate_found (hroot : Rooted root cache) {path : Str}
    (hpath : isAbsolute path = true) {disk : Disk} {now : Int} {found : Found}
    (h : (cache.find disk now path).1 = Except.ok (some found)) :
    files.locate (cache.foundPath found) = files.locate (concat root.path path) := by
  have hlevel := hroot.level
  exact FsCache.resolved_of_trail root hroot.path hpath
    (FsCache.trail_of_find (by omega) h) files.cwd

end Lookups

section Changes

variable {now : Int} {w : Server Holdings}

theorem invalidateParents_ok (now : Int) (paths : List Str) (w : Server Holdings) :
    exists cache, Server.invalidateParents (site now) paths w =
        (Except.ok (), { w with cache := cache }) ∧
      FsCache.SameSettings w.cache cache := by
  induction paths generalizing w with
  | nil => exact ⟨w.cache, rfl, rfl, rfl⟩
  | cons path rest ih =>
      have hsame := FsCache.sameSettings_invalidateParent w.cache w.outer.files.disk now
        path
      have hok := FsCache.invalidateParent_ok w.outer.files.answering_disk w.cache now path
      cases hresult : w.cache.invalidateParent w.outer.files.disk now path with
      | mk answer cache =>
          rw [hresult] at hsame hok
          cases hok
          rcases ih { w with cache := cache } with ⟨cache', hrest, hsame'⟩
          refine ⟨cache', ?_, hsame.trans hsame'⟩
          rw [Server.invalidateParents]
          have hresult' : w.cache.invalidateParent ((site now).disk w.outer)
              ((site now).now w.outer) path = (Except.ok (), cache) := hresult
          rw [hresult']
          exact hrest

theorem change_refused {paths : List Str} {effect : Effect}
    (h : effect.apply w.outer.files = none) :
    w.change (site now) paths effect = (Except.ok (Except.error systemError), w) := by
  have heffect : (site now).effect effect w.outer = (Except.error systemError, w.outer) := by
    show (match effect.apply w.outer.files with
      | none => (Except.error systemError, w.outer)
      | some files => (Except.ok (), { w.outer with files := files })) = _
    rw [h]
  rw [Server.change, heffect]

variable (now) in
theorem change_made (paths : List Str) {effect : Effect} {files : FileSystem}
    (h : effect.apply w.outer.files = some files) :
    exists cache, w.change (site now) paths effect =
        (Except.ok (Except.ok ()),
          { w with outer := { w.outer with files := files }, cache := cache }) ∧
      FsCache.SameSettings w.cache cache := by
  have heffect : (site now).effect effect w.outer =
      (Except.ok (), { w.outer with files := files }) := by
    show (match effect.apply w.outer.files with
      | none => (Except.error systemError, w.outer)
      | some files => (Except.ok (), { w.outer with files := files })) = _
    rw [h]
  rcases invalidateParents_ok now paths
    { w with outer := { w.outer with files := files } } with ⟨cache, hparents, hsame⟩
  refine ⟨cache, ?_, hsame⟩
  rw [Server.change, heffect]
  dsimp only
  rw [hparents]

/-- A lookup changes nothing but the tree of the cache. -/
theorem find_cases (now : Int) (path : Str) (w : Server Holdings) :
    exists found cache, w.find (site now) path =
        (Except.ok found, { w with cache := cache }) ∧
      FsCache.SameSettings w.cache cache ∧
      (w.cache.find w.outer.files.disk now path).1 = Except.ok found := by
  have hsame := FsCache.sameSettings_find w.cache w.outer.files.disk now path
  rcases FsCache.find_ok w.outer.files.answering_disk w.cache now path with
    ⟨found, hfound⟩
  refine ⟨found, (w.cache.find w.outer.files.disk now path).2, ?_, hsame, hfound⟩
  have hfind : w.cache.find ((site now).disk w.outer) ((site now).now w.outer) path =
      (Except.ok found, (w.cache.find w.outer.files.disk now path).2) :=
    Prod.ext hfound rfl
  rw [Server.find, hfind]

/-- A removal takes away what is found, with all below it. -/
theorem remove_cases (now : Int) (path : Str) (w : Server Holdings) :
    FsCache.SameSettings w.cache (w.remove (site now) path).2.cache ∧
      ((w.remove (site now) path).2.outer = w.outer ∨
        exists found, (w.cache.find w.outer.files.disk now path).1 =
            Except.ok (some found) ∧
          (w.remove (site now) path).2.outer =
            { w.outer with
              files := w.outer.files.removeAll (w.cache.foundPath found) }) := by
  rcases find_cases now path w with ⟨found, cache, hfind, hsame, hfound⟩
  unfold Server.remove Server.findLocated
  rw [hfind]
  cases found with
  | none => exact ⟨hsame, Or.inl rfl⟩
  | some found =>
      refine ⟨hsame.trans (FsCache.sameSettings_alterFound _ _ _),
        Or.inr ⟨found, hfound, ?_⟩⟩
      rw [← hsame.foundPath_eq found]
      rfl

end Changes

/-!
## Rows and directories
-/

namespace ProjectStore

/-- The rows that are not deleted are those of the directories in the root. -/
def InStep (root : RootDir) (s : ProjectStore) : Prop :=
  forall name, CisManager.Live s.database name <->
    exists entry : EntryName, entry.text = name ∧ HasDirectory root s.files name

theorem inStep_of_iff {root : RootDir} {s s' : ProjectStore} (h : InStep root s)
    (hrows : forall name, CisManager.Live s'.database name <->
      CisManager.Live s.database name)
    (hdirectories : forall entry : EntryName,
      HasDirectory root s'.files entry.text <-> HasDirectory root s.files entry.text) :
    InStep root s' := by
  intro name
  rw [hrows, h]
  constructor
  · rintro ⟨entry, rfl, hdir⟩
    exact ⟨entry, rfl, (hdirectories entry).mpr hdir⟩
  · rintro ⟨entry, rfl, hdir⟩
    exact ⟨entry, rfl, (hdirectories entry).mp hdir⟩

/-- A new row and a new directory of one name. -/
theorem inStep_add {root : RootDir} {s s' : ProjectStore} (h : InStep root s)
    (project : EntryName)
    (hrows : forall name, CisManager.Live s'.database name <->
      CisManager.Live s.database name ∨ name = project.text)
    (hdirectories : forall entry : EntryName, HasDirectory root s'.files entry.text <->
      HasDirectory root s.files entry.text ∨ entry.text = project.text) :
    InStep root s' := by
  intro name
  rw [hrows, h]
  constructor
  · rintro (⟨entry, rfl, hdir⟩ | rfl)
    · exact ⟨entry, rfl, (hdirectories entry).mpr (Or.inl hdir)⟩
    · exact ⟨project, rfl, (hdirectories project).mpr (Or.inr rfl)⟩
  · rintro ⟨entry, rfl, hdir⟩
    rcases (hdirectories entry).mp hdir with hold | hnew
    · exact Or.inl ⟨entry, rfl, hold⟩
    · exact Or.inr hnew

/-- A row and a directory less. -/
theorem inStep_remove {root : RootDir} {s s' : ProjectStore} (h : InStep root s)
    (project : Str)
    (hrows : forall name, CisManager.Live s'.database name <->
      CisManager.Live s.database name ∧ name ≠ project)
    (hdirectories : forall entry : EntryName, HasDirectory root s'.files entry.text <->
      HasDirectory root s.files entry.text ∧ entry.text ≠ project) :
    InStep root s' := by
  intro name
  rw [hrows, h]
  constructor
  · rintro ⟨⟨entry, rfl, hdir⟩, hne⟩
    exact ⟨entry, rfl, (hdirectories entry).mpr ⟨hdir, hne⟩⟩
  · rintro ⟨entry, rfl, hdir⟩
    rcases (hdirectories entry).mp hdir with ⟨hold, hne⟩
    exact ⟨⟨entry, rfl, hold⟩, hne⟩

end ProjectStore

open ProjectStore

/-!
## Operations
-/

/-- Nothing on disk or in the database is different yet. -/
structure Unchanged (root : RootDir) (s : ProjectStore) (w : Server Holdings) :
    Prop where
  files : w.outer.files = s.files
  database : w.outer.database = s.database
  rooted : Rooted root w.cache

structure Kept (root : RootDir) (w : Server Holdings) : Prop where
  inStep : InStep root (ofServer w)
  rooted : Rooted root w.cache

/-- The operations that change nothing but the last reply. -/
def Asks : Op -> Prop
  | Op.reply _ => True
  | Op.call (Call.isAdmin _) => True
  | Op.call (Call.checkProjectRight _ _) => True
  | _ => False

section Operations

variable {root : RootDir} {s : ProjectStore} {now : Op -> Int} {isDirectory : Bool}
  {w : Server Holdings}

theorem kept_of_unchanged (hs : InStep root s) (h : Unchanged root s w) :
    Kept root w where
  inStep := by
    apply inStep_of_iff hs
    · intro name
      show CisManager.Live w.outer.database name <-> _
      rw [h.database]
    · intro entry
      show HasDirectory root w.outer.files entry.text <-> _
      rw [h.files]
  rooted := h.rooted

variable (now isDirectory) in
theorem perform_asks {op : Op} (hop : Asks op) (w : Server Holdings) :
    exists replied, ((managers now isDirectory).perform op w).2 =
      { w with outer := { w.outer with replied := replied } } := by
  cases op with
  | reply r => exact ⟨some r, rfl⟩
  | replyMoved r => exact absurd hop not_false
  | setClientInfo client => exact absurd hop not_false
  | call c =>
      cases c with
      | isAdmin email => exact ⟨w.outer.replied, rfl⟩
      | checkProjectRight email project => exact ⟨w.outer.replied, rfl⟩
      | _ => exact absurd hop not_false

theorem unchanged_asks (op : Op) (w : Server Holdings) (hop : Asks op)
    (h : Unchanged root s w) :
    Unchanged root s ((managers now isDirectory).perform op w).2 := by
  rcases perform_asks now isDirectory hop w with
    ⟨replied, hw⟩
  rw [hw]
  exact ⟨h.files, h.database, h.rooted⟩

theorem kept_asks (op : Op) (w : Server Holdings) (hop : Asks op) (h : Kept root w) :
    Kept root ((managers now isDirectory).perform op w).2 := by
  rcases perform_asks now isDirectory hop w with
    ⟨replied, hw⟩
  rw [hw]
  exact ⟨h.inStep, h.rooted⟩

variable (now isDirectory) in
/-- A lookup of a project changes nothing on disk or in the database, and what it
finds by a plain name is a node of the first level. -/
theorem perform_getProjectInfo (project : Str) (h : Unchanged root s w) :
    exists found w', (managers now isDirectory).perform
        (Op.call (Call.getProjectInfo project)) w = (Except.ok found, w') ∧
      Unchanged root s w' ∧
      forall entry, found = some entry -> PlainName project ->
        exists name : EntryName, entry.path = append root.path name.text ∧
          w'.outer.project = some (Found.node [name]) := by
  rcases find_cases (now (Op.call (Call.getProjectInfo project))) (slash :: project) w with
    ⟨found, cache, hfind, hsame, hfound⟩
  have hrooted := h.rooted.of_same hsame
  show exists found w', w.getProject _ isDirectory project = (Except.ok found, w') ∧ _
  unfold Server.getProject
  rw [hfind]
  cases found with
  | none =>
      refine ⟨none, _, rfl, ⟨h.files, h.database, hrooted⟩, ?_⟩
      intro entry hnone
      cases hnone
  | some found =>
      cases isDirectory with
      | false =>
          refine ⟨none, _, rfl, ⟨h.files, h.database, hrooted⟩, ?_⟩
          intro entry hnone
          cases hnone
      | true =>
          refine ⟨_, _, rfl, ⟨h.files, h.database, hrooted⟩, ?_⟩
          intro entry hentry hplain
          rcases found_of_plainName h.rooted hplain hfound with ⟨name, _, rfl⟩
          refine ⟨name, ?_, rfl⟩
          cases hentry
          rw [← hrooted.path]
          rfl

/-- A change that leaves the directories in the root. -/
theorem kept_change {at' : Int} {paths : List Str} {effect : Effect}
    (hs : InStep root s) (h : Unchanged root s w)
    (hsame : forall files', effect.apply s.files = some files' ->
      forall entry : EntryName,
        HasDirectory root files' entry.text <-> HasDirectory root s.files entry.text) :
    Kept root (w.change (site at') paths effect).2 := by
  cases happly : effect.apply w.outer.files with
  | none =>
      rw [change_refused happly]
      exact kept_of_unchanged hs h
  | some files' =>
      rcases change_made at' paths happly with ⟨cache, hchange, hsettings⟩
      rw [hchange]
      rw [h.files] at happly
      constructor
      · apply inStep_of_iff hs
        · intro name
          show CisManager.Live w.outer.database name <-> _
          rw [h.database]
        · exact hsame files' happly
      · exact h.rooted.of_same hsettings

theorem below_eq (h : Unchanged root s w) (path : Str) :
    w.below path = concat root.path path := by
  rw [Server.below, h.rooted.path]

theorem kept_createDirectory {path : Str} (hs : InStep root s)
    (hmakes : MakesOnly root s.files path fun _ => False) (h : Unchanged root s w) :
    Kept root ((managers now isDirectory).perform
      (Op.call (Call.createDirectory path)) w).2 := by
  apply kept_change hs h
  intro files' happly entry
  rw [below_eq h] at happly
  exact hasDirectory_createDirectories hmakes happly not_false

theorem kept_moveEntry {oldPath newPath : Str} (hs : InStep root s)
    (hmoves : MovesNone root s.files (concat root.path oldPath)
      (concat root.path newPath)) (h : Unchanged root s w) :
    Kept root ((managers now isDirectory).perform
      (Op.call (Call.moveEntry oldPath newPath)) w).2 := by
  apply kept_change hs h
  intro files' happly entry
  rw [below_eq h, below_eq h] at happly
  exact hasDirectory_rename hmoves happly entry

/-- A project that is added gets a row and a directory. -/
theorem kept_createProject {project : EntryName} (hs : InStep root s)
    (hmakes : MakesOnly root s.files (append (str "/") project.text)
      fun name => name = project.text) (h : Unchanged root s w) :
    Kept root ((managers now isDirectory).perform
      (Op.call (Call.createProject project.text)) w).2 := by
  show Kept root (w.createProject _ project.text).2
  unfold Server.createProject
  dsimp only
  cases happly : (Effect.createDirectories
      (w.below (append (str "/") project.text))).apply w.outer.files with
  | none =>
      rw [change_refused happly]
      exact kept_of_unchanged hs ⟨h.files, h.database, h.rooted⟩
  | some files' =>
      rcases change_made (now (Op.call (Call.createProject project.text)))
        [append (str "/") project.text] happly with ⟨cache, hchange, hsettings⟩
      rcases CisManager.live_createProject project.text w.outer.database with
        ⟨database, hcreate, hlive⟩
      rw [hchange]
      dsimp only
      rw [hcreate]
      rw [h.files, below_eq h] at happly
      constructor
      · apply inStep_add hs project
        · intro name
          show CisManager.Live database name <-> _
          rw [hlive, h.database]
        · exact hasDirectory_createProject hmakes happly
      · exact h.rooted.of_same hsettings

/-- What is removed is what the path leads to. -/
theorem kept_remove {path : Str} (hpath : isAbsolute path = true) (hs : InStep root s)
    (hspares : SparesDirectories root s.files (concat root.path path))
    (h : Unchanged root s w) :
    Kept root ((managers now isDirectory).perform (Op.call (Call.remove path)) w).2 := by
  have hcases := remove_cases (now (Op.call (Call.remove path))) path w
  rcases hcases with ⟨hsame, hnothing | ⟨found, hfound, houter⟩⟩
  · apply kept_of_unchanged hs
    constructor
    · exact (congrArg Holdings.files hnothing).trans h.files
    · exact (congrArg Holdings.database hnothing).trans h.database
    · exact h.rooted.of_same hsame
  · constructor
    · apply inStep_of_iff hs
      · intro name
        show CisManager.Live (w.remove _ path).2.outer.database name <-> _
        rw [houter, h.database]
      · intro entry
        show HasDirectory root (w.remove _ path).2.outer.files entry.text <-> _
        rw [houter, h.files]
        have hplace : s.files.locate (w.cache.foundPath found) =
            s.files.locate (concat root.path path) :=
          locate_found h.rooted hpath hfound
        apply hasDirectory_removeAll_spared
        intro other hdir
        rw [hplace]
        exact hspares other hdir
    · exact h.rooted.of_same hsame

/-- What a lookup of a project leaves, until the project is removed. -/
structure Held (root : RootDir) (s : ProjectStore) (found : Found)
    (w : Server Holdings) : Prop where
  unchanged : Unchanged root s w
  project : w.outer.project = some found

theorem held_asks {found : Found} (op : Op) (w : Server Holdings) (hop : Asks op)
    (h : Held root s found w) :
    Held root s found ((managers now isDirectory).perform op w).2 := by
  rcases perform_asks now isDirectory hop w with
    ⟨replied, hw⟩
  rw [hw]
  exact ⟨⟨h.unchanged.files, h.unchanged.database, h.unchanged.rooted⟩, h.project⟩

/-- A project that is removed loses its row and its directory. -/
theorem kept_removeProject {name : EntryName} {entry : DirEntry}
    (hentry : entry.path = append root.path name.text) (hs : InStep root s)
    (h : Held root s (Found.node [name]) w) :
    Kept root ((managers now isDirectory).perform
      (Op.call (Call.removeProject entry)) w).2 := by
  have hplace : w.cache.foundPath (Found.node [name]) = append root.path name.text := by
    rw [← h.unchanged.rooted.path]
    rfl
  show Kept root (w.removeProject entry).2
  unfold Server.removeProject
  rw [h.project]
  constructor
  · apply inStep_remove hs name.text
    · intro other
      show CisManager.Live (CisManager.removeProject none (filename entry.path)
        w.outer.database).2 other <-> _
      rw [hentry, filename_append _ name.noSlash, CisManager.live_removeProject,
        h.unchanged.database]
    · intro other
      show HasDirectory root (w.outer.files.removeAll (w.cache.foundPath _))
        other.text <-> _
      have hlocate := s.files.locate_append root.noNul name
      rw [h.unchanged.files, hplace, hasDirectory_removeAll (by simp [hlocate]), hlocate,
        List.prefix_append_right_inj]
      constructor
      · rintro ⟨hdir, hnot⟩
        refine ⟨hdir, ?_⟩
        intro heq
        rw [heq] at hnot
        exact hnot (List.prefix_refl _)
      · rintro ⟨hdir, hne⟩
        refine ⟨hdir, ?_⟩
        intro hprefix
        exact hne (List.cons_prefix_cons.mp hprefix).left.symm
  · exact h.unchanged.rooted.of_same ((FsCache.sameSettings_alterFound _ _ _).trans
      (FsCache.sameSettings_alterFound _ _ _))

end Operations

/-!
## Handlers
-/

/-- A handler that asks for one change at most. -/
def Single {α : Type} (C : Op -> Prop) (p : Action α) : Prop :=
  p.OneChange Asks C

section Handlers

variable {C : Op -> Prop} {α : Type}

theorem asks_reply (r : Reply) : (reply r).Only Asks :=
  only_reply trivial

theorem asks_isAdmin (email : Str) : (isAdmin email).Only Asks :=
  only_call trivial

theorem asks_checkProjectRight (email project : Str) :
    (checkProjectRight email project).Only Asks :=
  only_call trivial

theorem asks_getPathRights (email path : Str) :
    (getPathRights email path).Only Asks := by
  unfold getPathRights
  split
  · apply Program.only_bind (asks_isAdmin email)
    intro admin
    split
    · trivial
    · trivial
    · exact asks_checkProjectRight email _
  · trivial

theorem asks_checkEc {answer : Fallible α} {next : α -> Handler}
    (h : forall a, (next a).Only Asks) : (checkEc answer next).Only Asks := by
  cases answer with
  | error ec => exact asks_reply _
  | ok a => exact h a

theorem single_reply (r : Reply) : Single C (reply r) :=
  Program.oneChange_of_only (asks_reply r)

theorem single_call {c : Call} (h : C (Op.call c)) : Single C (call c) :=
  Program.oneChange_ask h

theorem single_checkEc {answer : Fallible α} {next : α -> Handler}
    (h : forall a, Single C (next a)) : Single C (checkEc answer next) := by
  cases answer with
  | error ec => exact single_reply _
  | ok a => exact h a

/-- A change whose exceptions leave the handler, and a reply. -/
theorem single_surely {β : Type} {p : Action (Except Failure α)}
    {next : α -> Action β} (hp : Single C p) (h : forall a, (next a).Only Asks) :
    Single C (surely p >>= next) := by
  apply Program.oneChange_then _ h
  apply Program.oneChange_then hp
  intro answer
  cases answer with
  | error f => trivial
  | ok a => trivial

theorem single_withPath {ctx : RequestContext} {valid : Bool}
    {action : ClientInfo -> Handler}
    (h : forall client, valid = true -> Single C (action client)) :
    Single C (withPath ctx valid action) := by
  rcases withPath_cases ctx valid action with ⟨client, _, hvalid, heq⟩ | ⟨r, heq⟩
  · rw [heq]
    exact h client hvalid
  · rw [heq]
    exact single_reply r

theorem single_withPathRight {email path : Str} {right : ProjectRights -> Bool}
    {action : Handler} (h : Single C action) :
    Single C (withPathRight email path right action) := by
  apply Program.oneChange_bind (asks_getPathRights email path)
  intro answer
  apply single_checkEc
  intro rights
  split
  · exact h
  · exact single_reply _

theorem single_withRight {β : Type} {email project : Str}
    {right : ProjectRights -> Bool} {found : Option β} {missing : Handler}
    {action : β -> Handler} (hmissing : Single C missing)
    (haction : forall b, found = some b -> Single C (action b)) :
    Single C (withRight email project right found missing action) := by
  apply Program.oneChange_bind (asks_checkProjectRight email project)
  intro answer
  apply single_checkEc
  intro perm
  split
  · cases found with
    | none => exact hmissing
    | some b => exact haction b rfl
  · exact single_reply _

theorem single_newDirectory (ctx : RequestContext) (path : Str) :
    Single (fun op => op = Op.call (Call.createDirectory path))
      (newDirectory ctx path) := by
  apply single_withPath
  intro client _
  apply single_withPathRight
  refine single_surely (single_call rfl) ?_
  intro answer
  split
  · exact asks_reply _
  · exact asks_reply _

theorem single_moveFsEntry (ctx : RequestContext) (oldPath newPath : Str) :
    Single (fun op => op = Op.call (Call.moveEntry oldPath newPath))
      (moveFsEntry ctx oldPath newPath) := by
  apply single_withPath
  intro client _
  apply single_withPathRight
  apply single_withPathRight
  refine single_surely (single_call rfl) ?_
  intro answer
  split
  · exact asks_reply _
  · exact asks_reply _

/-- The path of an entry that is removed is an absolute one. -/
theorem single_removeFsEntry (ctx : RequestContext) (path : Str) :
    Single (fun op => isAbsolute path = true ∧ op = Op.call (Call.remove path))
      (removeFsEntry ctx path) := by
  apply single_withPath
  intro client hvalid
  have hpath : isAbsolute path = true :=
    isAbsolute_of_validatePath (Bool.and_eq_true_iff.mp hvalid).left
  apply single_withPathRight
  refine single_surely (single_call ⟨hpath, rfl⟩) ?_
  intro found
  split
  · exact asks_reply _
  · exact asks_reply _

end Handlers

section Requests

variable {root : RootDir} {s : ProjectStore} {now : Op -> Int} {isDirectory : Bool}
  {w : Server Holdings}

theorem kept_single {C : Op -> Prop} {α : Type} {p : Action α} (hs : InStep root s)
    (hp : Single C p)
    (hchange : forall op w, C op -> Unchanged root s w ->
      Kept root ((managers now isDirectory).perform op w).2)
    (h : Unchanged root s w) : Kept root (p.run (managers now isDirectory) w).2 := by
  rcases Program.run_oneChange unchanged_asks hchange kept_asks hp h with hsame | hkept
  · exact kept_of_unchanged hs hsame
  · exact hkept

theorem kept_newDirectory {ctx : RequestContext} {path : Str} (hs : InStep root s)
    (hmakes : MakesOnly root s.files path fun _ => False) (h : Unchanged root s w) :
    Kept root ((newDirectory ctx path).run (managers now isDirectory) w).2 := by
  apply kept_single hs (single_newDirectory ctx path) _ h
  rintro op w rfl h
  exact kept_createDirectory hs hmakes h

theorem kept_moveFsEntry {ctx : RequestContext} {oldPath newPath : Str}
    (hs : InStep root s)
    (hmoves : MovesNone root s.files (concat root.path oldPath)
      (concat root.path newPath)) (h : Unchanged root s w) :
    Kept root ((moveFsEntry ctx oldPath newPath).run (managers now isDirectory) w).2 := by
  apply kept_single hs (single_moveFsEntry ctx oldPath newPath) _ h
  rintro op w rfl h
  exact kept_moveEntry hs hmoves h

theorem kept_removeFsEntry {ctx : RequestContext} {path : Str} (hs : InStep root s)
    (hspares : SparesDirectories root s.files (concat root.path path))
    (h : Unchanged root s w) :
    Kept root ((removeFsEntry ctx path).run (managers now isDirectory) w).2 := by
  apply kept_single hs (single_removeFsEntry ctx path) _ h
  rintro op w ⟨hpath, rfl⟩ h
  exact kept_remove hpath hs hspares h

variable (now isDirectory) in
/-- A handler that looks a project up goes on with what is found. -/
theorem run_projectLookup {α : Type} (project : Str) (next : Option DirEntry -> Action α)
    (h : Unchanged root s w) :
    exists found w', Program.run (managers now isDirectory)
        (surely (call (Call.getProjectInfo project)) >>= next) w =
          (next found).run (managers now isDirectory) w' ∧
      Unchanged root s w' ∧
      forall entry, found = some entry -> PlainName project ->
        exists name : EntryName, entry.path = append root.path name.text ∧
          w'.outer.project = some (Found.node [name]) := by
  rcases perform_getProjectInfo now isDirectory project h with
    ⟨found, w', hperform, hrest⟩
  refine ⟨found, w', ?_, hrest⟩
  rw [Program.run_bind, run_surely (run_call hperform)]

theorem kept_addCisProject {ctx : RequestContext} {project : EntryName}
    (hs : InStep root s)
    (hmakes : MakesOnly root s.files (append (str "/") project.text)
      fun name => name = project.text) (h : Unchanged root s w) :
    Kept root ((addCisProject ctx project.text).run (managers now isDirectory) w).2 := by
  unfold addCisProject
  cases ctx.clientInfo with
  | none => exact kept_of_unchanged hs (Program.run_invariant unchanged_asks (asks_reply _) h)
  | some client =>
      dsimp only
      rcases run_projectLookup now isDirectory project.text _ h with
        ⟨found, w', hrun, h', _⟩
      rw [hrun]
      apply kept_single (C := fun op => op = Op.call (Call.createProject project.text)) hs
        _ _ h'
      · split
        · exact single_reply _
        · apply Program.oneChange_bind (asks_isAdmin client.email)
          intro answer
          apply single_checkEc
          intro admin
          split
          · refine single_surely (single_call rfl) ?_
            intro created
            apply asks_checkEc
            intro _
            exact asks_reply _
          · exact single_reply _
      · rintro op w rfl h
        exact kept_createProject hs hmakes h

theorem kept_removeCisProject {ctx : RequestContext} {project : Str}
    (hplain : PlainName project) (hs : InStep root s) (h : Unchanged root s w) :
    Kept root ((removeCisProject ctx project).run (managers now isDirectory) w).2 := by
  unfold removeCisProject
  cases ctx.clientInfo with
  | none => exact kept_of_unchanged hs (Program.run_invariant unchanged_asks (asks_reply _) h)
  | some client =>
      dsimp only
      rcases run_projectLookup now isDirectory project _ h with
        ⟨found, w', hrun, h', hfound⟩
      rw [hrun]
      cases found with
      | none =>
          -- there is nothing to remove, and no operation of the handler removes
          apply kept_single (C := fun _ => False) hs _ _ h'
          · apply single_withRight (single_reply _)
            intro entry hentry
            cases hentry
          · intro op w hop
            exact hop.elim
      | some entry =>
          rcases hfound entry rfl hplain with ⟨name, hentry, hproject⟩
          have hsingle : Single (fun op => op = Op.call (Call.removeProject entry))
              (withRight client.email project ProjectRights.write (some entry)
                (sendError (ErrorPayload.cisProjectDoesntExist project)
                  "Project doesn't exists.")
                fun entry => do
                  checkEc (← surely (call (Call.removeProject entry))) fun _ =>
                    send Success.cisProjectRemove) := by
            apply single_withRight (single_reply _)
            intro found hfound
            cases hfound
            refine single_surely (single_call rfl) ?_
            intro removed
            apply asks_checkEc
            intro _
            exact asks_reply _
          have hchange : forall op w, op = Op.call (Call.removeProject entry) ->
              Held root s (Found.node [name]) w ->
              Kept root ((managers now isDirectory).perform op w).2 := by
            rintro op w rfl h
            exact kept_removeProject hentry hs h
          rcases Program.run_oneChange held_asks hchange kept_asks hsingle
            ⟨h', hproject⟩ with hheld | hkept
          · exact kept_of_unchanged hs hheld.unchanged
          · exact hkept

end Requests

end Websocket
end CisWebui
