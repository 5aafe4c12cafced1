import CisWebui.FsCache
import CisWebui.Websocket.Handlers

/-!
# Confinement of the file events

Which events of a client who is not an administrator work only below the
directories of projects the client has the right on.

The handlers run in front of the file cache of the projects root, with a table
of rights and a disk.  Every place on disk that an event works on is written
down: the entries the cache finds for it, and the paths it appends to the root.
-/

namespace CisWebui
namespace Websocket

open Cpp FilesystemPath Foundation

/-!
## The server
-/

/-- What the cache has the system do. -/
inductive Effect where
  | rename (old new : Str)
  | createDirectories (path : Str)
  | openFile (path : Str)
  | write (path text : Str)
  | setPermissions (path : Str) (change : PermChange)
  | removeAll (path : Str)
deriving DecidableEq, Repr

/-- The surroundings of the cache: the disk and the clock, what the system does,
the rights of users who are no administrators, and every other answer. -/
structure Site (Outer : Type) where
  disk : Outer -> Disk
  now : Outer -> Int
  effect : Effect -> Outer -> Fallible Unit × Outer
  rights : Str -> Str -> Fallible (Option ProjectRights)
  answer : (c : Call) -> Outer -> c.Answer × Outer

structure Server (Outer : Type) where
  outer : Outer
  cache : FsCache
  /-- The places that have been worked on. -/
  located : List Str

namespace Server

variable {Outer : Type}

def locate (w : Server Outer) (paths : List Str) : Server Outer :=
  { w with located := w.located ++ paths }

/-- `find` of the cache -/
def find (site : Site Outer) (path : Str) (w : Server Outer) :
    Cached (Option Found) × Server Outer :=
  match w.cache.find (site.disk w.outer) (site.now w.outer) path with
  | (Except.error _, cache) =>
      (Except.error Failure.lookup, { w with cache := cache })
  | (Except.ok found, cache) => (Except.ok found, { w with cache := cache })

/-- A `find` for an event that works on what is found. -/
def findLocated (site : Site Outer) (path : Str) (w : Server Outer) :
    Cached (Option Found) × Server Outer :=
  match w.find site path with
  | (Except.ok (some found), w) =>
      (Except.ok (some found), w.locate [w.cache.foundPath found])
  | (answer, w) => (answer, w)

def entryKind (disk : Disk) (path : Str) : EntryKind :=
  match disk.status (cStr path) with
  | some FileType.directory => EntryKind.directory
  | some FileType.regular => EntryKind.regular false
  | _ => EntryKind.other

def dirEntry (site : Site Outer) (w : Server Outer) (found : Found) : DirEntry where
  path := w.cache.foundPath found
  kind := entryKind (site.disk w.outer) (w.cache.foundPath found)

/-- `find`, as the handlers see it -/
def findEntry (site : Site Outer) (path : Str) (w : Server Outer) :
    Cached (Option DirEntry) × Server Outer :=
  match w.findLocated site path with
  | (Except.error f, w) => (Except.error f, w)
  | (Except.ok found, w) => (Except.ok (found.map (w.dirEntry site)), w)

/-- `get_project_info` -/
def getProjectInfo (site : Site Outer) (project : Str) (w : Server Outer) :
    Cached (Option DirEntry) × Server Outer :=
  match w.find site (slash :: project) with
  | (Except.error f, w) => (Except.error f, w)
  | (Except.ok found, w) =>
      (Except.ok ((found.map (w.dirEntry site)).filter fun entry =>
        entry.kind = EntryKind.directory), w)

/-- `cis_manager::refresh` -/
def refresh (site : Site Outer) (path : Str) (w : Server Outer) :
    Cached Bool × Server Outer :=
  match w.findLocated site path with
  | (Except.error f, w) => (Except.error f, w)
  | (Except.ok none, w) => (Except.ok false, w)
  | (Except.ok (some found), w) =>
      match w.cache.updateFound (site.disk w.outer) (site.now w.outer) found with
      | (Except.error _, cache) =>
          (Except.error Failure.lookup, { w with cache := cache })
      | (Except.ok (), cache) => (Except.ok true, { w with cache := cache })

/-- `cis_manager::remove`; an error of `remove_all` is dropped. -/
def remove (site : Site Outer) (path : Str) (w : Server Outer) :
    Cached Bool × Server Outer :=
  match w.findLocated site path with
  | (Except.error f, w) => (Except.error f, w)
  | (Except.ok none, w) => (Except.ok false, w)
  | (Except.ok (some found), w) =>
      let removal := site.effect (Effect.removeAll (w.cache.foundPath found)) w.outer
      (Except.ok true,
        { w with
          outer := removal.2
          cache := w.cache.alterFound FsNode.remove found })

/-- The invalidations after a change, one parent after the other. -/
def invalidateParents (site : Site Outer) :
    List Str -> Server Outer -> Cached Unit × Server Outer
  | [], w => (Except.ok (), w)
  | path :: rest, w =>
      match w.cache.invalidateParent (site.disk w.outer) (site.now w.outer) path with
      | (Except.error _, cache) =>
          (Except.error Failure.lookup, { w with cache := cache })
      | (Except.ok (), cache) =>
          invalidateParents site rest { w with cache := cache }

/-- A change at some paths below the root, followed by the invalidations. -/
def change (site : Site Outer) (paths : List Str) (effect : Effect)
    (w : Server Outer) : Cached (Fallible Unit) × Server Outer :=
  match site.effect effect w.outer with
  | (Except.error ec, outer) =>
      (Except.ok (Except.error ec), { w with outer := outer })
  | (Except.ok (), outer) =>
      match invalidateParents site paths { w with outer := outer } with
      | (Except.error f, w) => (Except.error f, w)
      | (Except.ok (), w) => (Except.ok (Except.ok ()), w)

/-- A change of what stands at a path without any invalidation. -/
def touch (site : Site Outer) (effect : Effect) (w : Server Outer) :
    Fallible Unit × Server Outer :=
  let (answer, outer) := site.effect effect w.outer
  (answer, { w with outer := outer })

/-- The path below the root that a request path is appended to. -/
def below (w : Server Outer) (path : Str) : Str :=
  concat w.cache.path path

end Server

/-- The managers on top of the site, for a user who is no administrator. -/
def Site.machine {Outer : Type} (site : Site Outer) :
    Machine Op Op.Answer (Server Outer) where
  perform
    | Op.call (Call.isAdmin _), w => (Except.ok false, w)
    | Op.call (Call.checkProjectRight email project), w =>
        (site.rights email project, w)
    | Op.call (Call.find path), w => w.findEntry site path
    | Op.call (Call.getProjectInfo project), w => w.getProjectInfo site project
    | Op.call (Call.refresh path), w => w.refresh site path
    | Op.call (Call.remove path), w => w.remove site path
    | Op.call (Call.moveEntry oldPath newPath), w =>
        (w.locate [w.below oldPath, w.below newPath]).change site
          [oldPath, newPath] (Effect.rename (w.below oldPath) (w.below newPath))
    | Op.call (Call.createDirectory path), w =>
        (w.locate [w.below path]).change site [path]
          (Effect.createDirectories (w.below path))
    | Op.call (Call.createFileW path), w =>
        (w.locate [w.below path]).change site [path]
          (Effect.openFile (w.below path))
    | Op.call (Call.writeFile path text), w =>
        ((), (w.touch site (Effect.write (w.below path) text)).2)
    | Op.call (Call.setPermissions path change), w =>
        (w.locate [w.below path]).touch site
          (Effect.setPermissions (w.below path) change)
    | Op.call c, w =>
        let (answer, outer) := site.answer c w.outer
        (answer, { w with outer := outer })
    | Op.reply _, w => ((), w)
    | Op.replyMoved _, w => ((), w)
    | Op.setClientInfo _, w => ((), w)

/-!
## Places
-/

section Places

variable {Outer : Type} (site : Site Outer)

/-- What the cache finds at a path. -/
def Server.foundPlaces (path : Str) (w : Server Outer) : List Str :=
  match (w.cache.find (site.disk w.outer) (site.now w.outer) path).1 with
  | Except.ok (some found) => [w.cache.foundPath found]
  | _ => []

/-- The places an operation works on. -/
def Server.places (w : Server Outer) : Op -> List Str
  | Op.call (Call.find path) => w.foundPlaces site path
  | Op.call (Call.refresh path) => w.foundPlaces site path
  | Op.call (Call.remove path) => w.foundPlaces site path
  | Op.call (Call.moveEntry oldPath newPath) => [w.below oldPath, w.below newPath]
  | Op.call (Call.createDirectory path) => [w.below path]
  | Op.call (Call.createFileW path) => [w.below path]
  | Op.call (Call.setPermissions path _) => [w.below path]
  | _ => []

/-- A step that keeps the settings of the cache and adds the places. -/
def Adds (w w' : Server Outer) (places : List Str) : Prop :=
  FsCache.SameSettings w.cache w'.cache ∧ w'.located = w.located ++ places

variable {site}

theorem Adds.trans {w w' w'' : Server Outer} {places places' : List Str}
    (h : Adds w w' places) (h' : Adds w' w'' places') :
    Adds w w'' (places ++ places') := by
  constructor
  · exact h.left.trans h'.left
  · rw [h'.right, h.right, List.append_assoc]

theorem adds_of_eq {w w' : Server Outer} (hcache : w'.cache = w.cache)
    (hlocated : w'.located = w.located) : Adds w w' [] := by
  constructor
  · rw [hcache]
    exact ⟨rfl, rfl⟩
  · rw [hlocated, List.append_nil]

theorem adds_locate (w : Server Outer) (paths : List Str) :
    Adds w (w.locate paths) paths :=
  ⟨⟨rfl, rfl⟩, rfl⟩

theorem adds_cache {w : Server Outer} {cache : FsCache}
    (h : FsCache.SameSettings w.cache cache) :
    Adds w { w with cache := cache } [] :=
  ⟨h, (List.append_nil _).symm⟩

theorem adds_findLocated (site : Site Outer) (path : Str) (w : Server Outer) :
    Adds w (w.findLocated site path).2 (w.foundPlaces site path) := by
  have hfind := w.cache.sameSettings_find (site.disk w.outer) (site.now w.outer)
    path
  unfold Server.findLocated Server.find Server.foundPlaces
  cases hresult :
      w.cache.find (site.disk w.outer) (site.now w.outer) path with
  | mk answer cache =>
      rw [hresult] at hfind
      cases answer with
      | error e => exact adds_cache hfind
      | ok found =>
          cases found with
          | none => exact adds_cache hfind
          | some found =>
              have hpath : cache.foundPath found = w.cache.foundPath found :=
                FsCache.SameSettings.foundPath_eq hfind found
              have hadds := (adds_cache hfind).trans
                (adds_locate { w with cache := cache } [cache.foundPath found])
              rw [List.nil_append, hpath] at hadds
              simpa [hpath] using hadds

theorem adds_findEntry (path : Str) (w : Server Outer) :
    Adds w (w.findEntry site path).2 (w.foundPlaces site path) := by
  have hfind := adds_findLocated site path w
  unfold Server.findEntry
  split
  · rename_i hresult
    rw [hresult] at hfind
    exact hfind
  · rename_i hresult
    rw [hresult] at hfind
    exact hfind

theorem adds_getProjectInfo (site : Site Outer) (project : Str) (w : Server Outer) :
    Adds w (w.getProjectInfo site project).2 [] := by
  have hfind := FsCache.sameSettings_find w.cache (site.disk w.outer)
    (site.now w.outer) (slash :: project)
  unfold Server.getProjectInfo Server.find
  cases hresult : w.cache.find (site.disk w.outer) (site.now w.outer)
      (slash :: project) with
  | mk answer cache =>
      rw [hresult] at hfind
      cases answer with
      | error e => exact adds_cache hfind
      | ok found => exact adds_cache hfind

theorem adds_refresh (path : Str) (w : Server Outer) :
    Adds w (w.refresh site path).2 (w.foundPlaces site path) := by
  have hfind := adds_findLocated site path w
  unfold Server.refresh
  split
  · rename_i hresult
    rw [hresult] at hfind
    exact hfind
  · rename_i hresult
    rw [hresult] at hfind
    exact hfind
  · rename_i found w' hresult
    rw [hresult] at hfind
    have hupdate := FsCache.sameSettings_updateFound w'.cache
      (site.disk w'.outer) (site.now w'.outer) found
    have hadds := hfind.trans (adds_cache hupdate)
    rw [List.append_nil] at hadds
    split
    · rename_i hcache
      rw [hcache] at hadds
      exact hadds
    · rename_i hcache
      rw [hcache] at hadds
      exact hadds

theorem adds_remove (path : Str) (w : Server Outer) :
    Adds w (w.remove site path).2 (w.foundPlaces site path) := by
  have hfind := adds_findLocated site path w
  unfold Server.remove
  split
  · rename_i hresult
    rw [hresult] at hfind
    exact hfind
  · rename_i hresult
    rw [hresult] at hfind
    exact hfind
  · rename_i found w' hresult
    rw [hresult] at hfind
    have halter := FsCache.sameSettings_alterFound w'.cache FsNode.remove found
    constructor
    · exact hfind.left.trans halter
    · exact hfind.right

theorem adds_invalidateParents (site : Site Outer) (paths : List Str) (w : Server Outer) :
    Adds w (Server.invalidateParents site paths w).2 [] := by
  induction paths generalizing w with
  | nil => exact adds_of_eq rfl rfl
  | cons path rest ih =>
      have hparent := FsCache.sameSettings_invalidateParent w.cache
        (site.disk w.outer) (site.now w.outer) path
      unfold Server.invalidateParents
      split
      · rename_i hresult
        rw [hresult] at hparent
        exact adds_cache hparent
      · rename_i cache hresult
        rw [hresult] at hparent
        exact (adds_cache hparent).trans (ih { w with cache := cache })

theorem adds_change (paths : List Str) (effect : Effect) (w : Server Outer) :
    Adds w (w.change site paths effect).2 [] := by
  unfold Server.change
  split
  · exact adds_of_eq rfl rfl
  · rename_i outer _
    have hparents := adds_invalidateParents site paths
      { w with outer := outer }
    split
    · rename_i hresult
      rw [hresult] at hparents
      exact hparents
    · rename_i hresult
      rw [hresult] at hparents
      exact hparents

/-- What every operation does to the places. -/
theorem adds_perform (site : Site Outer) (op : Op) (w : Server Outer) :
    Adds w (site.machine.perform op w).2 (w.places site op) := by
  cases op with
  | reply r => exact adds_of_eq rfl rfl
  | replyMoved r => exact adds_of_eq rfl rfl
  | setClientInfo client => exact adds_of_eq rfl rfl
  | call c =>
      cases c with
      | find path => exact adds_findEntry path w
      | getProjectInfo project => exact adds_getProjectInfo site project w
      | refresh path => exact adds_refresh path w
      | remove path => exact adds_remove path w
      | moveEntry oldPath newPath =>
          exact (adds_locate w [w.below oldPath, w.below newPath]).trans
            (adds_change _ _ _)
      | createDirectory path =>
          exact (adds_locate w [w.below path]).trans (adds_change _ _ _)
      | createFileW path =>
          exact (adds_locate w [w.below path]).trans (adds_change _ _ _)
      | setPermissions path change => exact adds_locate w [w.below path]
      | _ => exact adds_of_eq rfl rfl

/-!
## Runs
-/

def Op.finds : Op -> List Str
  | Op.call (Call.find path) => [path]
  | Op.call (Call.refresh path) => [path]
  | Op.call (Call.remove path) => [path]
  | _ => []

def Op.changes : Op -> List Str
  | Op.call (Call.moveEntry oldPath newPath) => [oldPath, newPath]
  | Op.call (Call.createDirectory path) => [path]
  | Op.call (Call.createFileW path) => [path]
  | Op.call (Call.setPermissions path _) => [path]
  | _ => []

/-- Everything the operation finds satisfies `F`, everything it changes satisfies
`C`. -/
def Reaches (F C : Str -> Prop) (op : Op) : Prop :=
  (forall path, path ∈ op.finds -> F path) ∧
    forall path, path ∈ op.changes -> C path

/-- A place the system gets to at the path appended to the root. -/
def SamePlace (root : RootDir) (place path : Str) : Prop :=
  forall cwd, resolved cwd (cStr place) = resolved cwd (cStr (concat root.path path))

def PlaceOf (root : RootDir) (F C : Str -> Prop) (place : Str) : Prop :=
  (exists path, F path ∧ FsCache.Findable 4 path ∧ SamePlace root place path) ∨
    exists path, C path ∧ place = concat root.path path

/-- The cache of the projects root, and what has been worked on. -/
structure Serves (root : RootDir) (F C : Str -> Prop) (w : Server Outer) :
    Prop where
  path : w.cache.path = root.path
  level : w.cache.maxCachingLevel = 4
  places : forall place, place ∈ w.located -> PlaceOf root F C place

theorem mem_places {w : Server Outer} {op : Op} {place : Str}
    (h : place ∈ w.places site op) :
    (exists path, path ∈ op.finds ∧ place ∈ w.foundPlaces site path) ∨
      exists path, path ∈ op.changes ∧ place = w.below path := by
  unfold Server.places at h
  split at h
  · exact Or.inl ⟨_, List.mem_singleton_self _, h⟩
  · exact Or.inl ⟨_, List.mem_singleton_self _, h⟩
  · exact Or.inl ⟨_, List.mem_singleton_self _, h⟩
  · rename_i oldPath newPath
    rcases List.mem_cons.mp h with rfl | hnew
    · exact Or.inr ⟨oldPath, by simp [Op.changes], rfl⟩
    · exact Or.inr ⟨newPath, by simp [Op.changes], List.mem_singleton.mp hnew⟩
  · exact Or.inr ⟨_, List.mem_singleton_self _, List.mem_singleton.mp h⟩
  · exact Or.inr ⟨_, List.mem_singleton_self _, List.mem_singleton.mp h⟩
  · exact Or.inr ⟨_, List.mem_singleton_self _, List.mem_singleton.mp h⟩
  · cases h

theorem findable_of_mem_foundPlaces {root : RootDir} {w : Server Outer}
    {path place : Str} (hroot : w.cache.path = root.path)
    (hlevel : w.cache.maxCachingLevel = 4) (hpath : isAbsolute path = true)
    (h : place ∈ w.foundPlaces site path) :
    FsCache.Findable 4 path ∧ SamePlace root place path := by
  unfold Server.foundPlaces at h
  split at h
  · rename_i found hfound
    rw [List.mem_singleton] at h
    have htrail := FsCache.trail_of_find (by omega) hfound
    have hfindable := FsCache.findable_of_trail htrail
    rw [hlevel] at hfindable
    constructor
    · exact hfindable
    · intro cwd
      rw [h]
      exact FsCache.resolved_of_trail root hroot hpath htrail cwd
  · cases h

theorem serves_perform {root : RootDir} {F C : Str -> Prop}
    (hF : forall path, F path -> isAbsolute path = true) (op : Op)
    (w : Server Outer) (hop : Reaches F C op) (hw : Serves root F C w) :
    Serves root F C (site.machine.perform op w).2 := by
  rcases adds_perform site op w with ⟨hsettings, hlocated⟩
  constructor
  · rw [hsettings.left, hw.path]
  · rw [hsettings.right, hw.level]
  · intro place hplace
    rw [hlocated] at hplace
    rcases List.mem_append.mp hplace with hold | hnew
    · exact hw.places place hold
    · rcases mem_places hnew with ⟨path, hfinds, hfound⟩ | ⟨path, hchanges, hbelow⟩
      · have hpath := hop.left path hfinds
        exact Or.inl ⟨path, hpath, findable_of_mem_foundPlaces hw.path hw.level
          (hF path hpath) hfound⟩
      · have hplace' : place = concat root.path path := by
          rw [hbelow, Server.below, hw.path]
        exact Or.inr ⟨path, hop.right path hchanges, hplace'⟩

/-- A handler works only on what it asks for. -/
theorem serves_run (site : Site Outer) {root : RootDir} {F C : Str -> Prop}
    (hF : forall path, F path -> isAbsolute path = true) {α : Type}
    {p : Action α} (hp : p.Only (Reaches F C)) {w : Server Outer}
    (hw : Serves root F C w) :
    Serves root F C (p.run site.machine w).2 :=
  Program.run_invariant (serves_perform hF) hp hw

theorem located_prefix_run {α : Type} (p : Action α) (w : Server Outer) :
    w.located <+: (p.run site.machine w).2.located := by
  have hkeep : forall (op : Op) (w' : Server Outer), True ->
      w.located <+: w'.located ->
      w.located <+: (site.machine.perform op w').2.located := by
    intro op w' _ hprefix
    rw [(adds_perform site op w').right]
    exact hprefix.trans (List.prefix_append _ _)
  exact Program.run_invariant hkeep (Program.only_of_forall (fun _ => trivial) p)
    (List.prefix_refl _)

/-!
## Checked rights
-/

/-- The user has the right on the project. -/
def HasRight (site : Site Outer) (email project : Str)
    (right : ProjectRights -> Bool) : Prop :=
  exists rights, site.rights email project = Except.ok (some rights) ∧
    right rights = true

/-- The project whose right is checked for a path. -/
def checkedProject (path : Str) : Option Str :=
  match elements path with
  | _ :: project :: _ => some project
  | _ => none

def Granted (site : Site Outer) (email path : Str)
    (right : ProjectRights -> Bool) : Prop :=
  exists project, checkedProject path = some project ∧
    HasRight site email project right

theorem run_getPathRights (email path : Str) (w : Server Outer) :
    (getPathRights email path).run site.machine w =
      (Except.ok
        (match checkedProject path with
        | none => Except.ok none
        | some project => site.rights email project), w) := by
  unfold getPathRights checkedProject
  rcases elements path with _ | ⟨first, _ | ⟨project, rest⟩⟩
  · rfl
  · rfl
  · rfl

/-- After the check of a right the handler goes on, or nothing has happened. -/
theorem run_checked (right : ProjectRights -> Bool)
    {answer : Fallible (Option ProjectRights)}
    {check : Action (Fallible (Option ProjectRights))} {w : Server Outer}
    (hcheck : check.run site.machine w = (Except.ok answer, w))
    (action : Handler) :
    ((exists rights, answer = Except.ok (some rights) ∧ right rights = true) ∧
      ((do checkEc (← check) fun rights =>
          if allows right rights then action else notPermitted) :
        Handler).run site.machine w = action.run site.machine w) ∨
    ((¬ exists rights, answer = Except.ok (some rights) ∧ right rights = true) ∧
      (((do checkEc (← check) fun rights =>
          if allows right rights then action else notPermitted) :
        Handler).run site.machine w).2 = w) := by
  rw [Program.run_bind, hcheck]
  dsimp only
  cases answer with
  | error ec =>
      apply Or.inr
      constructor
      · rintro ⟨rights, hrights, _⟩
        cases hrights
      · rfl
  | ok found =>
      cases found with
      | none =>
          apply Or.inr
          constructor
          · rintro ⟨rights, hrights, _⟩
            cases hrights
          · rfl
      | some rights =>
          cases hright : right rights with
          | true =>
              apply Or.inl
              constructor
              · exact ⟨rights, rfl, hright⟩
              · simp [checkEc, allows, hright]
          | false =>
              apply Or.inr
              constructor
              · rintro ⟨rights', hrights', hright'⟩
                cases hrights'
                rw [hright] at hright'
                cases hright'
              · simp only [checkEc, allows, hright]
                rfl

theorem run_withPathRight (email path : Str) (right : ProjectRights -> Bool)
    (action : Handler) (w : Server Outer) :
    (Granted site email path right ∧
      (withPathRight email path right action).run site.machine w =
        action.run site.machine w) ∨
    (¬ Granted site email path right ∧
      ((withPathRight email path right action).run site.machine w).2 = w) := by
  have hgranted :
      (exists rights,
        (match checkedProject path with
        | none => Except.ok none
        | some project => site.rights email project) =
          Except.ok (some rights) ∧ right rights = true) <->
        Granted site email path right := by
    unfold Granted HasRight
    cases checkedProject path with
    | none => simp
    | some project => simp
  rcases run_checked right (run_getPathRights email path w) action with h | h
  · exact Or.inl ⟨hgranted.mp h.left, h.right⟩
  · exact Or.inr ⟨fun hg => h.left (hgranted.mpr hg), h.right⟩

end Places

/-!
## The property
-/

section Confinement

variable (cwd : List Str) (root : RootDir)

/-- The events that work on paths; the fields of `add_cis_job` have passed the
check of the request. -/
def Request.worksOnPaths : Request -> Bool
  | Request.fsEntryInfo _ => true
  | Request.fsEntryRefresh _ => true
  | Request.fsEntryRemove _ => true
  | Request.fsEntryMove _ _ => true
  | Request.fsEntryNewDir _ => true
  | Request.fsEntryList _ => true
  | Request.fsEntrySetExecutableFlag _ _ => true
  | Request.cisJobAdd project job =>
      validatePathFragment project && validatePathFragment job
  | _ => false

def Request.neededRight : Request -> ProjectRights -> Bool
  | Request.fsEntryInfo _ => ProjectRights.read
  | Request.fsEntryRefresh _ => ProjectRights.read
  | Request.fsEntryList _ => ProjectRights.read
  | _ => ProjectRights.write

/-- The place is inside the directory of a project on which the user has the
right. -/
def ConfinedFor {Outer : Type} (site : Site Outer) (ctx : RequestContext)
    (right : ProjectRights -> Bool) (place : Str) : Prop :=
  exists client project, ctx.clientInfo = some client ∧ slash ∉ project ∧
    HasRight site client.email project right ∧
    Inside cwd (projectDir cwd root project) (cStr place)

/-- The cache of `cis_manager`: four levels, five seconds. -/
def projectsCache (tree : FsNode) : FsCache where
  path := root.path
  maxCachingLevel := 4
  invalidationTime := 5000000000
  root := tree

/-- A server before an event. -/
def startServer {Outer : Type} (outer : Outer) (tree : FsNode) : Server Outer where
  outer := outer
  cache := projectsCache root tree
  located := []

/-- A handler works inside the projects, whatever the server is like. -/
def Confines (right : ProjectRights -> Bool)
    (handler : RequestContext -> Handler) : Prop :=
  forall (Outer : Type) (site : Site Outer) (ctx : RequestContext)
    (outer : Outer) (tree : FsNode) (place : Str),
    place ∈ ((handler ctx).run site.machine
      (startServer root outer tree)).2.located ->
    ConfinedFor cwd root site ctx right place

def PathConfined (validCron : Str -> Bool) (req : Request) : Prop :=
  req.worksOnPaths = true ->
    Confines cwd root req.neededRight fun ctx => dispatch validCron ctx req

/-- With every `..` taken back and appended to the root, the path leads into one
of the projects. -/
def LeadsInto (projects : List Str) (path : Str) : Prop :=
  exists project, project ∈ projects ∧
    projectDir cwd root project <+:
      (LexicalPath.normal (components (cStr path))).apply (resolved cwd root.path)

/-- An accepted path leads into the project it is checked for. -/
def ChangeLeadsInto (path : Str) : Prop :=
  validatePath path = true -> forall project,
    checkedProject path = some project -> LeadsInto cwd root [project] path

/-- What a request must be like. -/
def PathsLeadIntoProjects : Request -> Prop
  | Request.fsEntryInfo path =>
      FsCache.Findable 4 path -> ChangeLeadsInto cwd root path
  | Request.fsEntryRefresh path =>
      FsCache.Findable 4 path -> ChangeLeadsInto cwd root path
  | Request.fsEntryRemove path =>
      FsCache.Findable 4 path -> ChangeLeadsInto cwd root path
  | Request.fsEntryList path =>
      FsCache.Findable 4 path -> ChangeLeadsInto cwd root path
  | Request.fsEntrySetExecutableFlag path _ =>
      FsCache.Findable 4 path -> ChangeLeadsInto cwd root path
  | Request.fsEntryNewDir path => ChangeLeadsInto cwd root path
  | Request.fsEntryMove oldPath newPath =>
      validatePath oldPath = true -> validatePath newPath = true ->
        forall oldProject newProject,
          checkedProject oldPath = some oldProject ->
          checkedProject newPath = some newProject ->
          LeadsInto cwd root [oldProject, newProject] oldPath ∧
            LeadsInto cwd root [oldProject, newProject] newPath
  | Request.cisJobAdd project job =>
      validatePathFragment project = true -> validatePathFragment job = true ->
        FsCache.Findable 4 (slash :: project) ->
          LeadsInto cwd root [project] (jobPath project job)
  | _ => True

variable {cwd root}

theorem isAbsolute_of_validatePath {path : Str} (h : validatePath path = true) :
    isAbsolute path = true := by
  cases habs : isAbsolute path with
  | true => rfl
  | false =>
      rw [validatePath, rootPath, if_neg (by simp [habs])] at h
      exact absurd h (by decide)

theorem slash_not_mem_of_checkedProject {path project : Str}
    (hpath : isAbsolute path = true) (h : checkedProject path = some project) :
    slash ∉ project := by
  unfold checkedProject at h
  split at h
  · rename_i first second rest helements
    cases h
    rw [FsCache.elements_eq_parts hpath, FsCache.parts_eq hpath] at helements
    cases hnames : names path with
    | nil =>
        rw [hnames] at helements
        simp at helements
    | cons name tail =>
        rw [hnames] at helements
        cases helements
        exact slash_not_mem_of_mem_names (by rw [hnames]; exact List.mem_cons_self)
  · cases h

theorem inside_iff_of_samePlace {place path : Str} {dir : List Str}
    (hpath : isAbsolute path = true) (hplace : SamePlace root place path) :
    Inside cwd dir (cStr place) <->
      dir <+: (LexicalPath.normal (components (cStr path))).apply
        (resolved cwd root.path) := by
  have habs : isAbsolute (cStr path) = true := by
    rw [isAbsolute_cStr, hpath]
  rw [Inside, hplace cwd, concat, cStr_append_of_noNul root.noNul,
    ← LexicalPath.resolve_eq_apply, ← resolved_concat cwd root habs]
  rfl

/-!
## Confined handlers
-/

theorem confinedFor_of_leadsInto {Outer : Type} {site : Site Outer}
    {ctx : RequestContext} {client : ClientInfo}
    {right : ProjectRights -> Bool} {projects : List Str} {place path : Str}
    (hclient : ctx.clientInfo = some client)
    (hrights : forall project, project ∈ projects ->
      slash ∉ project ∧ HasRight site client.email project right)
    (hpath : isAbsolute path = true) (hplace : SamePlace root place path)
    (hleads : LeadsInto cwd root projects path) :
    ConfinedFor cwd root site ctx right place := by
  rcases hleads with ⟨project, hmem, hinside⟩
  rcases hrights project hmem with ⟨hslash, hright⟩
  exact ⟨client, project, hclient, hslash, hright,
    (inside_iff_of_samePlace hpath hplace).mpr hinside⟩

theorem withPath_cases (ctx : RequestContext) (valid : Bool)
    (action : ClientInfo -> Handler) :
    (exists client, ctx.clientInfo = some client ∧ valid = true ∧
      withPath ctx valid action = action client) ∨
    exists r, withPath ctx valid action = reply r := by
  unfold withPath
  cases ctx.clientInfo with
  | none => exact Or.inr ⟨_, rfl⟩
  | some client =>
      cases valid with
      | true => exact Or.inl ⟨client, rfl, rfl, rfl⟩
      | false => exact Or.inr ⟨_, rfl⟩

theorem withValidPath_cases (ctx : RequestContext) (path : Str)
    (action : ClientInfo -> Handler) :
    (exists client, ctx.clientInfo = some client ∧ validatePath path = true ∧
      withValidPath ctx path action = action client) ∨
    exists r, withValidPath ctx path action = reply r := by
  unfold withValidPath
  cases validatePath path with
  | false => exact Or.inr ⟨_, rfl⟩
  | true =>
      cases ctx.clientInfo with
      | none => exact Or.inr ⟨_, rfl⟩
      | some client => exact Or.inl ⟨client, rfl, rfl, rfl⟩

/-- A handler that works on one path, behind the checks of that path. -/
structure GuardsPath (right : ProjectRights -> Bool) (path : Str)
    (action : Handler) (handler : RequestContext -> Handler) : Prop where
  cases_ : forall ctx,
    (exists client, ctx.clientInfo = some client ∧ validatePath path = true ∧
      handler ctx = withPathRight client.email path right action) ∨
    exists r, handler ctx = reply r
  reached : forall ctx client project, ctx.clientInfo = some client ->
    validatePath path = true -> checkedProject path = some project ->
    handler ctx = withPathRight client.email path right action

theorem serves_startServer (root : RootDir) {Outer : Type} {F C : Str -> Prop}
    (outer : Outer) (tree : FsNode) : Serves root F C (startServer root outer tree) := by
  constructor
  · rfl
  · rfl
  · intro place hplace
    cases hplace

theorem confines_of_guardsPath {right : ProjectRights -> Bool} {path : Str}
    {action : Handler} {handler : RequestContext -> Handler} {F C : Str -> Prop}
    (hguards : GuardsPath right path action handler)
    (hF : forall p, F p -> p = path) (haction : action.Only (Reaches F C))
    (hplaces : forall place, PlaceOf root F C place ->
      SamePlace root place path ∧ ChangeLeadsInto cwd root path) :
    Confines cwd root right handler := by
  intro Outer site ctx outer tree place hplace
  rcases hguards.cases_ ctx with ⟨client, hclient, hvalid, hrun⟩ | ⟨r, hrun⟩
  · have hpath := isAbsolute_of_validatePath hvalid
    rw [hrun] at hplace
    rcases run_withPathRight client.email path right action
      (startServer root outer tree) with
        ⟨⟨project, hproject, hright⟩, hgranted⟩ | ⟨_, hrefused⟩
    · rw [hgranted] at hplace
      have hserves := serves_run site
        (fun p hp => by rw [hF p hp]; exact hpath) haction
        (serves_startServer root outer tree)
      rcases hplaces place (hserves.places place hplace) with ⟨hsame, hleads⟩
      apply confinedFor_of_leadsInto hclient _ hpath hsame
        (hleads hvalid project hproject)
      intro other hother
      rw [List.mem_singleton.mp hother]
      exact ⟨slash_not_mem_of_checkedProject hpath hproject, hright⟩
    · rw [hrefused] at hplace
      cases hplace
  · rw [hrun] at hplace
    cases hplace

/-!
## A site with some rights
-/

/-- A site on a uniform disk where everything succeeds, and where every user has
all rights on some projects. -/
def grantSite (projects : List Str) (listed : List EntryName) : Site Unit where
  disk _ := FsCache.uniformDisk listed
  now _ := 0
  effect _ _ := (Except.ok (), ())
  rights _ project :=
    if project ∈ projects then
      Except.ok (some { read := true, write := true, execute := true })
    else
      Except.ok none
  answer _ _ := (default, ())

theorem mem_of_hasRight {projects : List Str} {listed : List EntryName}
    {email project : Str} {right : ProjectRights -> Bool}
    (h : HasRight (grantSite projects listed) email project right) :
    project ∈ projects := by
  rcases h with ⟨rights, hrights, _⟩
  by_contra hmem
  rw [grantSite] at hrights
  simp [hmem] at hrights

theorem leadsInto_of_confinedFor {projects : List Str} {listed : List EntryName}
    {ctx : RequestContext} {right : ProjectRights -> Bool} {place path : Str}
    (hpath : isAbsolute path = true) (hplace : SamePlace root place path)
    (h : ConfinedFor cwd root (grantSite projects listed) ctx right place) :
    LeadsInto cwd root projects path := by
  rcases h with ⟨client, project, _, _, hright, hinside⟩
  exact ⟨project, mem_of_hasRight hright,
    (inside_iff_of_samePlace hpath hplace).mp hinside⟩

def someClient : RequestContext where
  clientInfo := some { email := [], activeToken := [], apiAccessKey := [] }
  cookies := []
  resStatus := Status.unknown
  allowedVerbs := []
  error := []

theorem hasRight_grantSite {projects : List Str} {listed : List EntryName}
    {project : Str} (hmem : project ∈ projects) (email : Str)
    {right : ProjectRights -> Bool}
    (hright : right { read := true, write := true, execute := true } = true) :
    HasRight (grantSite projects listed) email project right := by
  refine ⟨_, ?_, hright⟩
  simp [grantSite, hmem]

/-- A confined handler leads to the projects of every path it works on. -/
theorem changeLeadsInto_of_confines {right : ProjectRights -> Bool} {path : Str}
    {action : Handler} {handler : RequestContext -> Handler}
    (listed : List EntryName) (tree : FsNode)
    (hright : right { read := true, write := true, execute := true } = true)
    (hguards : GuardsPath right path action handler)
    (hworks : forall projects, exists place, SamePlace root place path ∧
      place ∈ (action.run (grantSite projects listed).machine
        (startServer root () tree)).2.located)
    (h : Confines cwd root right handler) : ChangeLeadsInto cwd root path := by
  intro hvalid project hproject
  rcases hworks [project] with ⟨place, hsame, hplace⟩
  have hrun := hguards.reached someClient _ project rfl hvalid hproject
  have hgranted : Granted (grantSite [project] listed) [] path right :=
    ⟨project, hproject, hasRight_grantSite (List.mem_singleton_self project) []
      hright⟩
  apply leadsInto_of_confinedFor (isAbsolute_of_validatePath hvalid) hsame
  apply h Unit (grantSite [project] listed) someClient () tree place
  rw [hrun]
  rcases run_withPathRight [] path right action (startServer root () tree) with
    ⟨_, hallowed⟩ | ⟨hrefused, _⟩
  · rw [hallowed]
    exact hplace
  · exact absurd hgranted hrefused

theorem mem_located_of_places {Outer : Type} {site : Site Outer} {op : Op}
    {α : Type} {next : op.Answer -> Action α} {w : Server Outer} {place : Str}
    (h : place ∈ w.places site op) :
    place ∈ ((Program.perform op next).run site.machine w).2.located := by
  rw [Program.run_perform]
  apply (located_prefix_run _ _).subset
  rw [(adds_perform site op w).right]
  exact List.mem_append_right _ h

/-- What the first part has located stays located. -/
theorem mem_located_bind {Outer α β : Type} {site : Site Outer} {p : Action α}
    {f : α -> Action β} {w : Server Outer} {place : Str}
    (h : place ∈ (p.run site.machine w).2.located) :
    place ∈ ((p >>= f).run site.machine w).2.located := by
  rw [Program.run_bind]
  rcases hrun : p.run site.machine w with ⟨e | a, w'⟩
  · rw [hrun] at h
    exact h
  · rw [hrun] at h
    exact (located_prefix_run _ _).subset h

theorem exists_foundPlace (root : RootDir) {path : Str} (hpath : isAbsolute path = true)
    (hfindable : FsCache.Findable 4 path) :
    exists listed tree, forall projects, exists place,
      SamePlace root place path ∧
        place ∈ (startServer root () tree).foundPlaces
          (grantSite projects listed) path := by
  have hlevel : forall tree, 0 < (projectsCache root tree).maxCachingLevel :=
    fun _ => Nat.succ_pos 3
  have hfresh : 0 <= (projectsCache root (FsCache.branch 0 [])).invalidationTime :=
    Int.natCast_nonneg 5000000000
  rcases FsCache.exists_find (projectsCache root (FsCache.branch 0 []))
    (hlevel _) hfresh hpath hfindable 0 with ⟨listed, names, found, hfound⟩
  apply Exists.intro listed
  apply Exists.intro (FsCache.branch 0 names)
  intro projects
  apply Exists.intro
    ((projectsCache root (FsCache.branch 0 names)).foundPath found)
  constructor
  · intro cwd
    exact FsCache.resolved_of_trail root rfl hpath
      (FsCache.trail_of_find (hlevel _) hfound) cwd
  · have hfind : ((startServer root () (FsCache.branch 0 names)).cache.find
        ((grantSite projects listed).disk ()) ((grantSite projects listed).now ())
        path).1 = Except.ok (some found) := hfound
    unfold Server.foundPlaces
    change _ ∈ match ((startServer root () (FsCache.branch 0 names)).cache.find
        ((grantSite projects listed).disk ()) ((grantSite projects listed).now ())
        path).1 with
      | Except.ok (some found) => _
      | _ => _
    rw [hfind]
    exact List.mem_singleton_self _

/-- The handlers that look the path up are confined exactly if the path leads
into its project, or cannot be found. -/
theorem confines_found_iff {right : ProjectRights -> Bool} {path : Str}
    {action : Handler} {handler : RequestContext -> Handler}
    (hright : right { read := true, write := true, execute := true } = true)
    (hguards : GuardsPath right path action handler)
    (haction : action.Only (Reaches (fun p => p = path) fun _ => False))
    (hfinds : forall (projects : List Str) (listed : List EntryName)
      (w : Server Unit) (place : Str),
      place ∈ w.foundPlaces (grantSite projects listed) path ->
      place ∈ (action.run (grantSite projects listed).machine w).2.located) :
    Confines cwd root right handler <->
      (FsCache.Findable 4 path -> ChangeLeadsInto cwd root path) := by
  constructor
  · intro h hfindable hvalid
    rcases exists_foundPlace root (isAbsolute_of_validatePath hvalid)
      hfindable with ⟨listed, tree, hfound⟩
    apply changeLeadsInto_of_confines listed tree hright hguards _ h hvalid
    intro projects
    rcases hfound projects with ⟨place, hsame, hplace⟩
    exact ⟨place, hsame, hfinds projects listed _ place hplace⟩
  · intro h
    apply confines_of_guardsPath hguards (fun p hp => hp) haction
    intro place hplace
    rcases hplace with ⟨p, rfl, hfindable, hsame⟩ | ⟨p, hfalse, _⟩
    · exact ⟨hsame, h hfindable⟩
    · exact hfalse.elim

theorem confines_change_iff {right : ProjectRights -> Bool} {path : Str}
    {action : Handler} {handler : RequestContext -> Handler}
    (hright : right { read := true, write := true, execute := true } = true)
    (hguards : GuardsPath right path action handler)
    (haction : action.Only (Reaches (fun _ => False) fun p => p = path))
    (hchanges : forall (projects : List Str) (w : Server Unit),
      w.below path ∈
        (action.run (grantSite projects []).machine w).2.located) :
    Confines cwd root right handler <-> ChangeLeadsInto cwd root path := by
  constructor
  · intro h
    apply changeLeadsInto_of_confines [] (FsCache.branch 0 []) hright hguards _ h
    intro projects
    exact ⟨concat root.path path, fun _ => rfl, hchanges projects _⟩
  · intro h
    apply confines_of_guardsPath hguards (fun p hp => hp.elim) haction
    intro place hplace
    rcases hplace with ⟨p, hfalse, _⟩ | ⟨p, rfl, rfl⟩
    · exact hfalse.elim
    · exact ⟨fun _ => rfl, h⟩

theorem guardsPath_withValidPath (right : ProjectRights -> Bool) (path : Str)
    (action : Handler) :
    GuardsPath right path action fun ctx =>
      withValidPath ctx path fun client =>
        withPathRight client.email path right action := by
  constructor
  · intro ctx
    exact withValidPath_cases ctx path _
  · intro ctx client project hclient hvalid _
    rw [withValidPath, if_pos hvalid, hclient]

theorem guardsPath_withPath (right : ProjectRights -> Bool) {path : Str}
    {valid : Bool} (action : Handler)
    (hvalid : valid = true -> validatePath path = true)
    (hreached : forall project, validatePath path = true ->
      checkedProject path = some project -> valid = true) :
    GuardsPath right path action fun ctx =>
      withPath ctx valid fun client =>
        withPathRight client.email path right action := by
  constructor
  · intro ctx
    rcases withPath_cases ctx valid
        (fun client => withPathRight client.email path right action) with
      ⟨client, hclient, htrue, hrun⟩ | hreply
    · exact Or.inl ⟨client, hclient, hvalid htrue, hrun⟩
    · exact Or.inr hreply
  · intro ctx client project hclient hpath hproject
    rw [withPath, hclient]
    exact if_pos (hreached project hpath hproject)

theorem guardsPath_withEntry (right : ProjectRights -> Bool) (path : Str)
    (action : Handler) :
    GuardsPath right path action fun ctx =>
      withPath ctx (validatePath path && !isRoot path) fun client =>
        withPathRight client.email path right action := by
  apply guardsPath_withPath
  · intro hvalid
    exact (Bool.and_eq_true_iff.mp hvalid).left
  · intro project hpath hproject
    have hroot : isRoot path = false := by
      unfold checkedProject at hproject
      split at hproject
      · rename_i helements
        simp [isRoot, helements]
      · cases hproject
    rw [hpath, hroot]
    rfl

/-!
## The events
-/

theorem reaches_none {F C : Str -> Prop} {op : Op} (hfinds : op.finds = [])
    (hchanges : op.changes = []) : Reaches F C op := by
  simp [Reaches, hfinds, hchanges]

theorem reaches_find {C : Str -> Prop} {op : Op} {path : Str}
    (hfinds : op.finds = [path]) (hchanges : op.changes = []) :
    Reaches (fun p => p = path) C op := by
  simp [Reaches, hfinds, hchanges]

theorem reaches_change {F : Str -> Prop} {op : Op} {path : Str}
    (hfinds : op.finds = []) (hchanges : op.changes = [path]) :
    Reaches F (fun p => p = path) op := by
  simp [Reaches, hfinds, hchanges]

theorem only_replies {F C : Str -> Prop} (r : Reply) :
    (reply r).Only (Reaches F C) :=
  only_reply (reaches_none rfl rfl)

theorem confines_fsEntryInfo_iff (validCron : Str -> Bool) (path : Str) :
    Confines cwd root ProjectRights.read
        (fun ctx => dispatch validCron ctx (Request.fsEntryInfo path)) <->
      (FsCache.Findable 4 path -> ChangeLeadsInto cwd root path) := by
  apply confines_found_iff rfl (guardsPath_withValidPath _ path _)
  · apply Program.only_bind (only_surely (only_call (reaches_find rfl rfl)))
    intro found
    cases found with
    | none => exact only_replies _
    | some entry =>
        exact Program.only_bind (only_call (reaches_none rfl rfl))
          fun _ => only_replies _
  · intro projects listed w place hplace
    exact mem_located_of_places hplace

theorem confines_fsEntryList_iff (validCron : Str -> Bool) (path : Str) :
    Confines cwd root ProjectRights.read
        (fun ctx => dispatch validCron ctx (Request.fsEntryList path)) <->
      (FsCache.Findable 4 path -> ChangeLeadsInto cwd root path) := by
  apply confines_found_iff rfl (guardsPath_withValidPath _ path _)
  · apply Program.only_bind (only_surely (only_call (reaches_find rfl rfl)))
    intro found
    cases found with
    | none => exact only_replies _
    | some entry =>
        apply Program.only_bind (only_surely (only_call (reaches_none rfl rfl)))
        intro files
        exact Program.only_bind (only_call (reaches_none rfl rfl))
          fun _ => only_replies _
  · intro projects listed w place hplace
    exact mem_located_of_places hplace

theorem confines_fsEntryRefresh_iff (validCron : Str -> Bool) (path : Str) :
    Confines cwd root ProjectRights.read
        (fun ctx => dispatch validCron ctx (Request.fsEntryRefresh path)) <->
      (FsCache.Findable 4 path -> ChangeLeadsInto cwd root path) := by
  apply confines_found_iff rfl
    (guardsPath_withPath _ _ (fun h => h) fun _ h _ => h)
  · apply Program.only_bind (only_surely (only_call (reaches_find rfl rfl)))
    intro found
    cases found with
    | false => exact only_replies _
    | true => exact only_replies _
  · intro projects listed w place hplace
    exact mem_located_of_places hplace

theorem confines_fsEntryRemove_iff (validCron : Str -> Bool) (path : Str) :
    Confines cwd root ProjectRights.write
        (fun ctx => dispatch validCron ctx (Request.fsEntryRemove path)) <->
      (FsCache.Findable 4 path -> ChangeLeadsInto cwd root path) := by
  apply confines_found_iff rfl (guardsPath_withEntry _ path _)
  · apply Program.only_bind (only_surely (only_call (reaches_find rfl rfl)))
    intro found
    cases found with
    | false => exact only_replies _
    | true => exact only_replies _
  · intro projects listed w place hplace
    exact mem_located_of_places hplace

theorem confines_fsEntrySetExecutableFlag_iff (validCron : Str -> Bool)
    (path : Str) (executable : Bool) :
    Confines cwd root ProjectRights.write
        (fun ctx => dispatch validCron ctx
          (Request.fsEntrySetExecutableFlag path executable)) <->
      (FsCache.Findable 4 path -> ChangeLeadsInto cwd root path) := by
  apply confines_found_iff rfl (guardsPath_withEntry _ path _)
  · apply Program.only_bind (only_surely (only_call (reaches_find rfl rfl)))
    intro found
    cases found with
    | none => exact only_replies _
    | some entry =>
        apply Program.only_bind (only_call (reaches_none rfl rfl))
        intro answer
        cases answer with
        | error ec => exact only_replies _
        | ok done => exact only_replies _
  · intro projects listed w place hplace
    exact mem_located_of_places hplace

theorem confines_fsEntryNewDir_iff (validCron : Str -> Bool) (path : Str) :
    Confines cwd root ProjectRights.write
        (fun ctx => dispatch validCron ctx (Request.fsEntryNewDir path)) <->
      ChangeLeadsInto cwd root path := by
  apply confines_change_iff rfl
    (guardsPath_withPath _ _ (fun h => h) fun _ h _ => h)
  · apply Program.only_bind (only_surely (only_call (reaches_change rfl rfl)))
    intro answer
    cases answer with
    | error ec => exact only_replies _
    | ok done => exact only_replies _
  · intro projects w
    have hplace : w.below path ∈ w.places (grantSite projects [])
        (Op.call (Call.createDirectory path)) := List.mem_singleton_self _
    apply mem_located_bind
    apply mem_located_bind
    exact mem_located_of_places hplace

/-!
## Moves
-/

theorem only_moveEntry (oldPath newPath : Str) :
    (moveEntry oldPath newPath).Only
      (Reaches (fun _ => False) fun p => p = oldPath ∨ p = newPath) := by
  have hmove : Reaches (fun _ => False) (fun p => p = oldPath ∨ p = newPath)
      (Op.call (Call.moveEntry oldPath newPath)) := by
    simp [Reaches, Op.finds, Op.changes]
  apply Program.only_bind (only_surely (only_call hmove))
  intro answer
  cases answer with
  | error ec => exact only_replies _
  | ok done => exact only_replies _

theorem mem_located_moveEntry {Outer : Type} (site : Site Outer)
    (w : Server Outer) {oldPath newPath path : Str}
    (h : path = oldPath ∨ path = newPath) :
    w.below path ∈ ((moveEntry oldPath newPath).run site.machine w).2.located := by
  apply mem_located_of_places
  rcases h with rfl | rfl
  · exact List.mem_cons_self
  · exact List.mem_cons_of_mem _ (List.mem_singleton_self _)

/-- Both checks of `move_fs_entry`. -/
theorem run_moveChecks {Outer : Type} {site : Site Outer}
    (email oldPath newPath : Str) (w : Server Outer) :
    (Granted site email oldPath ProjectRights.write ∧
      Granted site email newPath ProjectRights.write ∧
      (withPathRight email oldPath ProjectRights.write
        (withPathRight email newPath ProjectRights.write
          (moveEntry oldPath newPath))).run site.machine w =
        (moveEntry oldPath newPath).run site.machine w) ∨
    (¬ (Granted site email oldPath ProjectRights.write ∧
        Granted site email newPath ProjectRights.write) ∧
      ((withPathRight email oldPath ProjectRights.write
        (withPathRight email newPath ProjectRights.write
          (moveEntry oldPath newPath))).run site.machine w).2 = w) := by
  rcases run_withPathRight email oldPath ProjectRights.write
      (withPathRight email newPath ProjectRights.write
        (moveEntry oldPath newPath)) w with ⟨hold, holdRun⟩ | ⟨hold, holdRun⟩
  · rw [holdRun]
    rcases run_withPathRight email newPath ProjectRights.write
        (moveEntry oldPath newPath) w with ⟨hnew, hnewRun⟩ | ⟨hnew, hnewRun⟩
    · exact Or.inl ⟨hold, hnew, hnewRun⟩
    · exact Or.inr ⟨fun h => hnew h.right, hnewRun⟩
  · exact Or.inr ⟨fun h => hold h.left, holdRun⟩

theorem confines_fsEntryMove_iff (validCron : Str -> Bool)
    (oldPath newPath : Str) :
    Confines cwd root ProjectRights.write
        (fun ctx => dispatch validCron ctx (Request.fsEntryMove oldPath newPath)) <->
      PathsLeadIntoProjects cwd root (Request.fsEntryMove oldPath newPath) := by
  constructor
  · intro h hold hnew oldProject newProject holdProject hnewProject
    have hgranted : forall {path project : Str},
        checkedProject path = some project ->
        project ∈ [oldProject, newProject] ->
        Granted (grantSite [oldProject, newProject] []) [] path
          ProjectRights.write :=
      fun hproject hmem => ⟨_, hproject, hasRight_grantSite hmem [] rfl⟩
    have hrun : moveFsEntry someClient oldPath newPath =
        withPathRight [] oldPath ProjectRights.write
          (withPathRight [] newPath ProjectRights.write
            (moveEntry oldPath newPath)) := by
      rw [moveFsEntry, hold, hnew]
      rfl
    have hleads : forall path, path = oldPath ∨ path = newPath ->
        isAbsolute path = true ->
        LeadsInto cwd root [oldProject, newProject] path := by
      intro path hpath habs
      have hplace := h Unit (grantSite [oldProject, newProject] []) someClient ()
        (FsCache.branch 0 []) (concat root.path path)
      simp only [dispatch, hrun] at hplace
      rcases run_moveChecks [] oldPath newPath
          (startServer root () (FsCache.branch 0 [])) with
        ⟨_, _, hallowed⟩ | ⟨hrefused, _⟩
      · rw [hallowed] at hplace
        exact leadsInto_of_confinedFor habs (fun _ => rfl)
          (hplace (mem_located_moveEntry _ _ hpath))
      · exact absurd ⟨hgranted holdProject (by simp), hgranted hnewProject (by simp)⟩
          hrefused
    constructor
    · exact hleads oldPath (Or.inl rfl) (isAbsolute_of_validatePath hold)
    · exact hleads newPath (Or.inr rfl) (isAbsolute_of_validatePath hnew)
  · intro h Outer site ctx outer tree place hplace
    simp only [dispatch, moveFsEntry] at hplace
    rcases withPath_cases ctx (validatePath oldPath && validatePath newPath) _ with
      ⟨client, hclient, hvalid, hrun⟩ | ⟨r, hrun⟩
    · rw [hrun] at hplace
      rcases Bool.and_eq_true_iff.mp hvalid with ⟨hold, hnew⟩
      rcases run_moveChecks client.email oldPath newPath
          (startServer root outer tree) with
        ⟨⟨oldProject, holdProject, holdRight⟩, ⟨newProject, hnewProject, hnewRight⟩,
          hallowed⟩ | ⟨_, hrefused⟩
      · rw [hallowed] at hplace
        have hrights : forall project, project ∈ [oldProject, newProject] ->
            slash ∉ project ∧
              HasRight site client.email project ProjectRights.write := by
          intro project hmem
          rcases List.mem_cons.mp hmem with rfl | hmem'
          · exact ⟨slash_not_mem_of_checkedProject
              (isAbsolute_of_validatePath hold) holdProject, holdRight⟩
          · rw [List.mem_singleton.mp hmem']
            exact ⟨slash_not_mem_of_checkedProject
              (isAbsolute_of_validatePath hnew) hnewProject, hnewRight⟩
        have hserves := serves_run site (fun p hp => hp.elim)
          (only_moveEntry oldPath newPath) (serves_startServer root outer tree)
        rcases h hold hnew oldProject newProject holdProject hnewProject with
          ⟨holdLeads, hnewLeads⟩
        rcases hserves.places place hplace with
          ⟨p, hfalse, _⟩ | ⟨p, rfl | rfl, rfl⟩
        · exact hfalse.elim
        · exact confinedFor_of_leadsInto hclient hrights
            (isAbsolute_of_validatePath hold) (fun _ => rfl) holdLeads
        · exact confinedFor_of_leadsInto hclient hrights
            (isAbsolute_of_validatePath hnew) (fun _ => rfl) hnewLeads
      · rw [hrefused] at hplace
        cases hplace
    · rw [hrun] at hplace
      cases hplace

/-!
## New jobs
-/

/-- The paths that `add_cis_job` changes: the directory of the job, and files in
it. -/
def JobPlace (project job path : Str) : Prop :=
  path = jobPath project job ∨
    exists file, FsCache.Ordinary file ∧ path = append (jobPath project job) file

theorem isAbsolute_jobPath {project job : Str} (hproject : slash ∉ project)
    (hjob : slash ∉ job) : isAbsolute (jobPath project job) = true := by
  rw [jobPath, isAbsolute_append, isAbsolute_append,
    isAbsolute_of_not_mem hproject, isAbsolute_of_not_mem hjob]
  rfl

/-- What leads into a project still does with an ordinary name behind it. -/
theorem leadsInto_append {projects : List Str} {path file : Str}
    (hfile : FsCache.Ordinary file) (h : LeadsInto cwd root projects path) :
    LeadsInto cwd root projects (append path file) := by
  rcases h with ⟨project, hmem, hinside⟩
  refine ⟨project, hmem, ?_⟩
  have hrel : isAbsolute file = false := isAbsolute_of_not_mem hfile.right.left
  by_cases hnul : 0 ∈ path
  · have hcut : cStr (append path file) = cStr path := by
      rw [append_eq_stem hrel]
      unfold stem
      split
      · exact cStr_append_of_nul hnul file
      · rw [List.append_assoc]
        exact cStr_append_of_nul hnul _
    rw [hcut]
    exact hinside
  · have hkeep : cStr file = file := cStr_of_noNul hfile.right.right.left
    rw [cStr_append hnul, hkeep, components, names_append hrel,
      names_of_not_mem hfile.right.left, if_neg hfile.left, List.map_append,
      ← LexicalPath.resolve_eq_apply, LexicalPath.resolve_append]
    rw [cStr_of_noNul hnul, ← LexicalPath.resolve_eq_apply] at hinside
    have hname : component file = Component.name file := by
      rw [component, if_neg hfile.right.right.right.left,
        if_neg hfile.right.right.right.right]
    rw [List.map_singleton, hname]
    exact hinside.trans (List.prefix_append _ _)

theorem only_createJob (project job : Str) :
    (createJob project job).Only
      (Reaches (fun p => p = jobPath project job) (JobPlace project job)) := by
  have hfile : forall file, FsCache.Ordinary file ->
      forall op : Op, op.finds = [] ->
        op.changes = [append (jobPath project job) file] ->
        Reaches (fun p => p = jobPath project job) (JobPlace project job) op := by
    intro file hordinary op hfinds hchanges
    constructor
    · intro path hpath
      rw [hfinds] at hpath
      cases hpath
    · intro path hpath
      rw [hchanges, List.mem_singleton] at hpath
      exact Or.inr ⟨file, hordinary, hpath⟩
  have hscript : FsCache.Ordinary (str "script") := by
    decide
  have hparams : FsCache.Ordinary (str "job.params") := by
    decide
  have hconf : FsCache.Ordinary (str "job.conf") := by
    decide
  apply Program.only_bind (only_surely (only_call (reaches_find rfl rfl)))
  intro found
  cases found with
  | some entry => exact only_replies _
  | none =>
      have hdirectory : Reaches (fun p => p = jobPath project job)
          (JobPlace project job)
          (Op.call (Call.createDirectory (jobPath project job))) := by
        constructor
        · intro path hpath
          cases hpath
        · intro path hpath
          exact Or.inl (List.mem_singleton.mp hpath)
      apply Program.only_bind (only_surely (only_call hdirectory))
      intro directory
      cases directory with
      | error ec => exact only_replies _
      | ok done =>
          apply Program.only_bind
            (only_surely (only_call (hfile _ hscript _ rfl rfl)))
          intro script
          cases script with
          | error ec => exact only_replies _
          | ok done =>
              apply Program.only_bind (only_call (hfile _ hscript _ rfl rfl))
              intro permissions
              cases permissions with
              | error ec => exact only_replies _
              | ok done =>
                  apply Program.only_bind
                    (only_surely (only_call (hfile _ hparams _ rfl rfl)))
                  intro params
                  cases params with
                  | error ec => exact only_replies _
                  | ok done =>
                      apply Program.only_bind
                        (only_surely (only_call (hfile _ hconf _ rfl rfl)))
                      intro conf
                      cases conf with
                      | error ec => exact only_replies _
                      | ok done =>
                          exact Program.only_bind
                            (only_call (reaches_none rfl rfl))
                            fun _ => only_replies _

/-- A project that was looked up can be found. -/
theorem findable_of_getProjectInfo {Outer : Type} {site : Site Outer}
    {project : Str} {w : Server Outer} {entry : DirEntry}
    (hlevel : w.cache.maxCachingLevel = 4)
    (h : (w.getProjectInfo site project).1 = Except.ok (some entry)) :
    FsCache.Findable 4 (slash :: project) := by
  unfold Server.getProjectInfo Server.find at h
  cases hresult : w.cache.find (site.disk w.outer) (site.now w.outer)
      (slash :: project) with
  | mk answer cache =>
      rw [hresult] at h
      cases answer with
      | error e => cases h
      | ok found =>
          cases found with
          | none => cases h
          | some found =>
              have htrail := FsCache.trail_of_find (by omega)
                (congrArg Prod.fst hresult)
              have hfindable := FsCache.findable_of_trail htrail
              rw [hlevel] at hfindable
              exact hfindable

theorem run_lookupProject {Outer : Type} (site : Site Outer) (project : Str)
    (w : Server Outer) :
    (surely (call (Call.getProjectInfo project)) : Action (Option DirEntry)).run
        site.machine w =
      ((w.getProjectInfo site project).1,
        (w.getProjectInfo site project).2) :=
  run_surely rfl

/-- `add_cis_job` works on something only if the project can be found and the
client has the right on it. -/
theorem run_addCisJob {Outer : Type} (site : Site Outer) (ctx : RequestContext)
    {project job : Str} (hproject : slash ∉ project) (hjob : slash ∉ job)
    (outer : Outer) (tree : FsNode) {place : Str}
    (hplace : place ∈ ((addCisJob ctx project job).run site.machine
      (startServer root outer tree)).2.located) :
    FsCache.Findable 4 (slash :: project) ∧
      (exists client, ctx.clientInfo = some client ∧
        HasRight site client.email project ProjectRights.write) ∧
      PlaceOf root (fun p => p = jobPath project job) (JobPlace project job)
        place := by
  have hadds := adds_getProjectInfo site project
    (startServer root outer tree)
  unfold addCisJob at hplace
  rw [Program.run_bind, run_lookupProject] at hplace
  cases hlookup : (startServer root outer tree).getProjectInfo site project with
  | mk answer w =>
      rw [hlookup] at hadds hplace
      have hnone : w.located = [] := hadds.right
      cases answer with
      | error f =>
          rw [show place ∈ _ <-> place ∈ w.located from Iff.rfl, hnone] at hplace
          cases hplace
      | ok found =>
          cases hclient : ctx.clientInfo with
          | none =>
              simp only [clientInfoValue, hclient] at hplace
              have hleft : place ∈ w.located := hplace
              rw [hnone] at hleft
              cases hleft
          | some client =>
              have hrest : place ∈ ((withRight client.email project
                  ProjectRights.write found
                  (sendError (ErrorPayload.cisProjectDoesntExist project)
                    "Project doesn't exists.")
                  fun _ => createJob project job).run site.machine w).2.located := by
                simpa [clientInfoValue, hclient] using hplace
              unfold withRight at hrest
              have hcheck : (checkProjectRight client.email project).run site.machine
                  w = (Except.ok (site.rights client.email project), w) := rfl
              rcases run_checked ProjectRights.write hcheck _ with
                ⟨hright, hrun⟩ | ⟨_, hrun⟩
              · rw [hrun] at hrest
                cases found with
                | none =>
                    have hleft : place ∈ w.located := hrest
                    rw [hnone] at hleft
                    cases hleft
                | some entry =>
                    have hserves : Serves root (fun p => p = jobPath project job)
                        (JobPlace project job) w := by
                      constructor
                      · exact hadds.left.left
                      · exact hadds.left.right
                      · intro other hother
                        rw [hnone] at hother
                        cases hother
                    have hcreate := serves_run site
                      (fun p hp => by rw [hp]; exact isAbsolute_jobPath hproject hjob)
                      (only_createJob project job) hserves
                    constructor
                    · exact findable_of_getProjectInfo rfl
                        (congrArg Prod.fst hlookup)
                    constructor
                    · exact ⟨client, rfl, hright⟩
                    · exact hcreate.places place hrest
              · rw [hrun, hnone] at hrest
                cases hrest

theorem find_of_found {Outer : Type} {site : Site Outer} {path : Str}
    (w : Server Outer) {found : Option Found}
    (h : (w.cache.find (site.disk w.outer) (site.now w.outer) path).1 =
      Except.ok found) :
    w.find site path =
      (Except.ok found,
        { w with
          cache := (w.cache.find (site.disk w.outer) (site.now w.outer) path).2 }) := by
  unfold Server.find
  cases hresult :
      w.cache.find (site.disk w.outer) (site.now w.outer) path with
  | mk answer cache =>
      rw [hresult] at h
      cases h
      rfl

/-- Once it may, `add_cis_job` works at the path of the job. -/
theorem exists_place_createJob {Outer : Type} {site : Site Outer}
    {project job : Str} (w : Server Outer)
    (hdisk : FsCache.Answering (site.disk w.outer))
    (hroot : w.cache.path = root.path) (hlevel : w.cache.maxCachingLevel = 4)
    (hpath : isAbsolute (jobPath project job) = true) :
    exists place, SamePlace root place (jobPath project job) ∧
      place ∈ ((createJob project job).run site.machine w).2.located := by
  rcases FsCache.find_ok hdisk w.cache (site.now w.outer) (jobPath project job)
    with ⟨found, hfound⟩
  cases found with
  | some found =>
      have hmem : w.cache.foundPath found ∈
          w.foundPlaces site (jobPath project job) := by
        unfold Server.foundPlaces
        rw [hfound]
        exact List.mem_singleton_self _
      exact ⟨_, (findable_of_mem_foundPlaces hroot hlevel hpath hmem).right,
        mem_located_of_places hmem⟩
  | none =>
      have hentry : w.findEntry site (jobPath project job) =
          (Except.ok none,
            { w with
              cache := (w.cache.find (site.disk w.outer) (site.now w.outer)
                (jobPath project job)).2 }) := by
        unfold Server.findEntry Server.findLocated
        rw [find_of_found w hfound]
        rfl
      have hlookup : (surely (call (Call.find (jobPath project job))) :
          Action (Option DirEntry)).run site.machine w =
            w.findEntry site (jobPath project job) :=
        run_surely rfl
      refine ⟨concat root.path (jobPath project job), fun _ => rfl, ?_⟩
      unfold createJob
      rw [Program.run_bind, hlookup, hentry]
      apply mem_located_of_places
      rw [← hroot]
      exact List.mem_singleton_self _

theorem confines_cisJobAdd_iff (validCron : Str -> Bool) (project job : Str)
    (hproject : validatePathFragment project = true)
    (hjob : validatePathFragment job = true) :
    Confines cwd root ProjectRights.write
        (fun ctx => dispatch validCron ctx (Request.cisJobAdd project job)) <->
      PathsLeadIntoProjects cwd root (Request.cisJobAdd project job) := by
  have hprojectSlash : slash ∉ project := by
    simpa [validatePathFragment] using hproject
  have hjobSlash : slash ∉ job := by
    simpa [validatePathFragment] using hjob
  have hpath := isAbsolute_jobPath hprojectSlash hjobSlash
  constructor
  · intro h _ _ hfindable
    have hfresh :
        0 <= (projectsCache root (FsCache.branch 0 [])).invalidationTime :=
      Int.natCast_nonneg 5000000000
    have habs : isAbsolute (slash :: project) = true := rfl
    rcases FsCache.exists_find (projectsCache root (FsCache.branch 0 []))
      (Nat.succ_pos 3) hfresh habs hfindable 0 with ⟨listed, names, found, hfound⟩
    have hlookup : exists entry w,
        (startServer root () (FsCache.branch 0 names)).getProjectInfo
            (grantSite [project] listed) project =
          (Except.ok (some entry), w) ∧
        w.cache.path = root.path ∧ w.cache.maxCachingLevel = 4 := by
      have hfind : (startServer root () (FsCache.branch 0 names)).find
          (grantSite [project] listed) (slash :: project) = _ :=
        find_of_found (startServer root () (FsCache.branch 0 names)) hfound
      unfold Server.getProjectInfo
      rw [hfind]
      exact ⟨_, _, rfl, rfl, rfl⟩
    rcases hlookup with ⟨entry, w, hentry, hroot, hlevel⟩
    have hdisk : FsCache.Answering ((grantSite [project] listed).disk w.outer) :=
      FsCache.answering_uniformDisk listed
    rcases exists_place_createJob w hdisk hroot hlevel hpath with
      ⟨place, hsame, hplace⟩
    apply leadsInto_of_confinedFor hpath hsame
    apply h Unit (grantSite [project] listed) someClient ()
      (FsCache.branch 0 names) place
    simp only [dispatch]
    unfold addCisJob
    rw [Program.run_bind, run_lookupProject, hentry]
    change place ∈ ((withRight [] project ProjectRights.write (some entry)
      (sendError (ErrorPayload.cisProjectDoesntExist project)
        "Project doesn't exists.")
      fun _ => createJob project job).run (grantSite [project] listed).machine
        w).2.located
    have hcheck : (checkProjectRight [] project).run
        (grantSite [project] listed).machine w =
          (Except.ok ((grantSite [project] listed).rights [] project), w) := rfl
    unfold withRight
    rcases run_checked ProjectRights.write hcheck _ with ⟨_, hrun⟩ | ⟨hrefused, _⟩
    · rw [hrun]
      exact hplace
    · exact absurd (hasRight_grantSite (List.mem_singleton_self project) [] rfl)
        hrefused
  · intro h Outer site ctx outer tree place hplace
    rcases run_addCisJob site ctx hprojectSlash hjobSlash outer tree hplace with
      ⟨hfindable, ⟨client, hclient, hright⟩, hof⟩
    have hleads := h hproject hjob hfindable
    have hrights : forall other, other ∈ [project] ->
        slash ∉ other ∧ HasRight site client.email other ProjectRights.write := by
      intro other hother
      rw [List.mem_singleton.mp hother]
      exact ⟨hprojectSlash, hright⟩
    rcases hof with ⟨path, rfl, _, hsame⟩ | ⟨path, rfl | ⟨file, hfile, rfl⟩, rfl⟩
    · exact confinedFor_of_leadsInto hclient hrights hpath hsame hleads
    · exact confinedFor_of_leadsInto hclient hrights hpath (fun _ => rfl) hleads
    · have hfilePath : isAbsolute (append (jobPath project job) file) = true := by
        rw [isAbsolute_append, hpath, Bool.true_or]
      exact confinedFor_of_leadsInto hclient hrights hfilePath (fun _ => rfl)
        (leadsInto_append hfile hleads)

/-- Which events that work on paths stay inside the projects of the client. -/
theorem pathConfined_iff (cwd : List Str) (root : RootDir)
    (validCron : Str -> Bool) (req : Request) :
    PathConfined cwd root validCron req <-> PathsLeadIntoProjects cwd root req := by
  cases req with
  | fsEntryInfo path =>
      exact (imp_iff_right rfl).trans (confines_fsEntryInfo_iff validCron path)
  | fsEntryRefresh path =>
      exact (imp_iff_right rfl).trans (confines_fsEntryRefresh_iff validCron path)
  | fsEntryRemove path =>
      exact (imp_iff_right rfl).trans (confines_fsEntryRemove_iff validCron path)
  | fsEntryMove oldPath newPath =>
      exact (imp_iff_right rfl).trans
        (confines_fsEntryMove_iff validCron oldPath newPath)
  | fsEntryNewDir path =>
      exact (imp_iff_right rfl).trans (confines_fsEntryNewDir_iff validCron path)
  | fsEntryList path =>
      exact (imp_iff_right rfl).trans (confines_fsEntryList_iff validCron path)
  | fsEntrySetExecutableFlag path executable =>
      exact (imp_iff_right rfl).trans
        (confines_fsEntrySetExecutableFlag_iff validCron path executable)
  | cisJobAdd project job =>
      constructor
      · intro h hproject hjob
        have hworks : (Request.cisJobAdd project job).worksOnPaths = true := by
          rw [Request.worksOnPaths, hproject, hjob]
          rfl
        exact (confines_cisJobAdd_iff validCron project job hproject hjob).mp
          (h hworks) hproject hjob
      · intro h hworks
        rcases Bool.and_eq_true_iff.mp hworks with ⟨hproject, hjob⟩
        exact (confines_cisJobAdd_iff validCron project job hproject hjob).mpr h
  | _ => exact iff_of_true (fun h => by cases h) trivial

end Confinement

/-- Someone who may write to one project makes a directory in another. -/
theorem pathConfined_not_everywhere :
    ¬ forall cwd root validCron req, PathConfined cwd root validCron req := by
  intro h
  let root : RootDir :=
    { path := str "/cis/projects", nonempty := by decide, noNul := by decide }
  have hplace := h [] root (fun _ => true)
    (Request.fsEntryNewDir (str "/web/../vault/x")) rfl Unit
    (grantSite [str "web"] []) someClient () (FsCache.branch 0 [])
    (str "/cis/projects/web/../vault/x") (by decide)
  have hsame : SamePlace root (str "/cis/projects/web/../vault/x")
      (str "/web/../vault/x") :=
    fun _ => rfl
  rcases leadsInto_of_confinedFor (by decide) hsame hplace with
    ⟨project, hmem, hinside⟩
  rw [List.mem_singleton.mp hmem] at hinside
  exact absurd hinside (by decide)

end Websocket
end CisWebui
