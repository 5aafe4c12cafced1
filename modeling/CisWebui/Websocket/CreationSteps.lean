import CisWebui.Foundation.Chain
import CisWebui.Websocket.Volume

/-!
# The steps of a creation

A new job and a new project are made step by step: the directory, the files, the
permissions of the script, the row of the project.  Any of the steps may fail.
The steps on disk only add to what is there.
-/

namespace CisWebui
namespace Websocket

open Cpp FilesystemPath Foundation

/-!
## The managers
-/

/-- What a creation works on, and the last reply. -/
structure Estate where
  volume : Volume
  database : Database
  replied : Option Reply

/-- What the operations of a request meet: the time, the disk as the cache sees
it, and failures.  No operation is asked for twice. -/
structure Circumstances where
  now : Op -> Int
  /-- Whether the entry of the project was a directory when it was cached. -/
  isDirectory : Bool
  seen : FileSystem -> Disk
  fault : Effect -> Option ErrorCode
  /-- How many elements of a path a `create_directories` that fails gets to. -/
  made : Str -> Nat
  broken : Call -> Option ErrorCode

/-- Where `create_directories` starts from, and the way it goes. -/
def waySource (files : FileSystem) (path : Str) : List Str :=
  if isAbsolute path then [] else files.cwd

def way (path : Str) : List (Component Str) :=
  components (cStr path)

namespace Circumstances

variable (c : Circumstances)

/-- What an effect leaves that fails. -/
def left (v : Volume) : Effect -> Volume
  | Effect.createDirectories path =>
      match v.files.tree.createDirectories (waySource v.files path)
        ((way path).take (c.made path)) with
      | some tree => { v with files := { v.files with tree := tree } }
      | none => v
  | _ => v

def effect (e : Effect) (o : Estate) : Fallible Unit × Estate :=
  match c.fault e, o.volume.perform e with
  | none, some volume => (Except.ok (), { o with volume := volume })
  | none, none => (Except.error systemError, { o with volume := c.left o.volume e })
  | some ec, _ => (Except.error ec, { o with volume := c.left o.volume e })

def site (op : Op) : Site Estate where
  disk o := c.seen o.volume.files
  now _ := c.now op
  effect := c.effect
  rights _ _ := Except.ok none
  answer _ o := (default, o)

/-- `create_directory` of the cache -/
def createDirectory (path : Str) (w : Server Estate) :
    Cached (Fallible Unit) × Server Estate :=
  w.change (c.site (Op.call (Call.createDirectory path))) [path]
    (Effect.createDirectories (w.below path))

/-- `get_project_info`.  An entry goes by the type it had when it was put into
the cache. -/
def getProject (project : Str) (w : Server Estate) :
    Cached (Option DirEntry) × Server Estate :=
  let site := c.site (Op.call (Call.getProjectInfo project))
  match w.find site (slash :: project) with
  | (Except.error f, w) => (Except.error f, w)
  | (Except.ok found, w) =>
      if c.isDirectory then
        (Except.ok (found.map (w.dirEntry site)), w)
      else
        (Except.ok none, w)

/-- `create_project` -/
def createProject (project : Str) (w : Server Estate) :
    Cached (Fallible Unit) × Server Estate :=
  match c.createDirectory (append (str "/") project) w with
  | (Except.error f, w) => (Except.error f, w)
  | (Except.ok directory, w) =>
      let (answer, database) :=
        CisManager.createProject (c.broken (Call.createProject project)) directory
          project w.outer.database
      (Except.ok answer, { w with outer := { w.outer with database := database } })

/-- The managers.  The two requests ask for nothing else. -/
def managers : Machine Op Op.Answer (Server Estate) where
  perform
    | Op.call (Call.isAdmin email), w =>
        (RightsManager.isAdmin (c.broken (Call.isAdmin email)) email w.outer.database, w)
    | Op.call (Call.checkProjectRight email project), w =>
        (RightsManager.checkProjectRight (c.broken (Call.checkProjectRight email project))
          email project w.outer.database, w)
    | Op.call (Call.getProjectInfo project), w => c.getProject project w
    | Op.call (Call.find path), w => w.findEntry (c.site (Op.call (Call.find path))) path
    | Op.call (Call.createDirectory path), w => c.createDirectory path w
    | Op.call (Call.createFileW path), w =>
        w.change (c.site (Op.call (Call.createFileW path))) [path]
          (Effect.openFile (w.below path))
    | Op.call (Call.setPermissions path change), w =>
        w.touch (c.site (Op.call (Call.setPermissions path change)))
          (Effect.setPermissions (w.below path) change)
    | Op.call (Call.writeFile path text), w =>
        ((), (w.touch (c.site (Op.call (Call.writeFile path text)))
          (Effect.write (w.below path) text)).2)
    | Op.call (Call.createProject project), w => c.createProject project w
    | Op.reply r, w => ((), { w with outer := { w.outer with replied := some r } })
    | Op.call call, w => ((default : call.Answer), w)
    | Op.replyMoved _, w => ((), w)
    | Op.setClientInfo _, w => ((), w)

end Circumstances

/-!
## Requests
-/

inductive CreationRequest where
  | jobAdd (project job : Str)
  | projectAdd (project : Str)

def CreationRequest.handler (ctx : RequestContext) : CreationRequest -> Handler
  | jobAdd project job => addCisJob ctx project job
  | projectAdd project => addCisProject ctx project

/-- The steps on disk. -/
inductive CreationStep where
  | directory (path : Str)
  | file (path : Str)
  | script (path : Str)

def CreationStep.program : CreationStep -> Action (Fallible Unit)
  | directory path => surely (call (Call.createDirectory path))
  | file path => surely (call (Call.createFileW path))
  | script path => call (Call.setPermissions path PermChange.replaceWithScript)

/-- The steps that a request consists of once the checks have let it through. -/
def CreationRequest.steps : CreationRequest -> List CreationStep
  | jobAdd project job =>
      let path := jobPath project job
      [CreationStep.directory path,
        CreationStep.file (append path (str "script")),
        CreationStep.script (append path (str "script")),
        CreationStep.file (append path (str "job.params")),
        CreationStep.file (append path (str "job.conf"))]
  | projectAdd project => [CreationStep.directory (append (str "/") project)]

/-- An exception, or an error that is answered. -/
inductive Stop where
  | thrown (f : Failure)
  | refused (ec : ErrorCode)

def outcome : Cached (Fallible Unit) -> Except Stop Unit
  | Except.error f => Except.error (Stop.thrown f)
  | Except.ok (Except.error ec) => Except.error (Stop.refused ec)
  | Except.ok (Except.ok ()) => Except.ok ()

namespace CreationStep

/-- How a step comes out. -/
def take (c : Circumstances) (step : CreationStep) (w : Server Estate) :
    Except Stop Unit × Server Estate :=
  (outcome (step.program.run c.managers w).1, (step.program.run c.managers w).2)

/-- What the step is to do below the place has been done already: the directories
are there, the file is there and empty, the script is executable. -/
def Idle (place : List Str) (step : CreationStep) (w : Server Estate) : Prop :=
  let v := w.outer.volume
  match step with
  | directory path =>
      v.WayThere place (waySource v.files (w.below path)) (way (w.below path))
  | file path => v.EmptyFile place (v.files.locate (w.below path))
  | script path => v.ScriptMode place (v.files.locate (w.below path))

/-- The step stops without having changed anything below the place: it is idle,
or it fails, and no directory it may have made before was missing. -/
def Harmless (c : Circumstances) (place : List Str) :
    Stop -> CreationStep -> Server Estate -> Prop
  | Stop.thrown _, step, w => step.Idle place w
  | Stop.refused _, directory path, w =>
      let v := w.outer.volume
      let source := waySource v.files (w.below path)
      let gone := (way (w.below path)).take (c.made (w.below path))
      (v.files.tree.createDirectories source gone).isSome = true ->
        v.WayThere place source gone
  | Stop.refused _, _, _ => True

def effect (w : Server Estate) : CreationStep -> Effect
  | directory path => Effect.createDirectories (w.below path)
  | file path => Effect.openFile (w.below path)
  | script path => Effect.setPermissions (w.below path) PermChange.replaceWithScript

/-- The volume only grows, and the cache stays where it is. -/
def Adds (place : List Str) (w w' : Server Estate) : Prop :=
  w'.cache.path = w.cache.path ∧ Volume.Grows place w.outer.volume w'.outer.volume

/-!
## Steps
-/

section Steps

variable (c : Circumstances) {place : List Str} {step : CreationStep}
  {w t : Server Estate}

theorem effect_cases (e : Effect) (o : Estate) :
    (exists volume, o.volume.perform e = some volume ∧
        c.effect e o = (Except.ok (), { o with volume := volume })) ∨
      exists ec, c.effect e o =
        (Except.error ec, { o with volume := c.left o.volume e }) := by
  unfold Circumstances.effect
  cases c.fault e with
  | some ec => exact Or.inr ⟨ec, rfl⟩
  | none =>
      cases o.volume.perform e with
      | none => exact Or.inr ⟨systemError, rfl⟩
      | some volume => exact Or.inl ⟨volume, rfl, rfl⟩

theorem invalidateParents_cases (site : Site Estate) (paths : List Str) :
    forall w : Server Estate, exists answer cache,
      w.invalidateParents site paths = (answer, { w with cache := cache }) ∧
        cache.path = w.cache.path := by
  induction paths with
  | nil =>
      intro w
      exact ⟨Except.ok (), w.cache, rfl, rfl⟩
  | cons path rest ih =>
      intro w
      have hsame := FsCache.sameSettings_invalidateParent w.cache (site.disk w.outer)
        (site.now w.outer) path
      rw [Server.invalidateParents]
      rcases hcache : w.cache.invalidateParent (site.disk w.outer) (site.now w.outer)
        path with ⟨answer, cache⟩
      rw [hcache] at hsame
      cases answer with
      | error e => exact ⟨_, cache, rfl, hsame.left⟩
      | ok _ =>
          rcases ih { w with cache := cache } with ⟨answer, cache', hrest, hpath⟩
          exact ⟨answer, cache', hrest, hpath.trans hsame.left⟩

/-- What an effect with a lookup behind it comes to: it is done, whatever the lookup
says, or it fails. -/
def Comes (w : Server Estate) (e : Effect) (answer : Cached (Fallible Unit))
    (w' : Server Estate) : Prop :=
  (exists volume cache, w.outer.volume.perform e = some volume ∧
      cache.path = w.cache.path ∧ (forall ec, answer ≠ Except.ok (Except.error ec)) ∧
      w' = { w with outer := { w.outer with volume := volume }, cache := cache }) ∨
    exists ec, answer = Except.ok (Except.error ec) ∧
      w' = { w with outer := { w.outer with volume := c.left w.outer.volume e } }

theorem comes_change (op : Op) (path : Str) (e : Effect) (w : Server Estate) :
    Comes c w e (w.change (c.site op) [path] e).1 (w.change (c.site op) [path] e).2 := by
  have heffect : (c.site op).effect e w.outer = c.effect e w.outer := rfl
  unfold Server.change
  rw [heffect]
  rcases effect_cases c e w.outer with ⟨volume, hperform, hdone⟩ | ⟨ec, hfailed⟩
  · rw [hdone]
    rcases invalidateParents_cases (c.site op) [path]
        { w with outer := { w.outer with volume := volume } } with
      ⟨answer, cache, hcache, hpath⟩
    dsimp only
    rw [hcache]
    refine Or.inl ⟨volume, cache, hperform, hpath, ?_⟩
    cases answer with
    | ok _ => exact ⟨fun _ h => (by cases h), rfl⟩
    | error f => exact ⟨fun _ h => (by cases h), rfl⟩
  · rw [hfailed]
    exact Or.inr ⟨ec, rfl, rfl⟩

theorem comes_touch (op : Op) (e : Effect) (w : Server Estate) :
    Comes c w e (Except.ok (w.touch (c.site op) e).1) (w.touch (c.site op) e).2 := by
  have heffect : (c.site op).effect e w.outer = c.effect e w.outer := rfl
  unfold Server.touch
  rw [heffect]
  rcases effect_cases c e w.outer with ⟨volume, hperform, hdone⟩ | ⟨ec, hfailed⟩
  · rw [hdone]
    exact Or.inl ⟨volume, w.cache, hperform, rfl, fun _ h => (by cases h), rfl⟩
  · rw [hfailed]
    exact Or.inr ⟨ec, rfl, rfl⟩

theorem comes_run (step : CreationStep) (w : Server Estate) :
    Comes c w (step.effect w) (step.program.run c.managers w).1
      (step.program.run c.managers w).2 := by
  cases step with
  | directory path =>
      have hrun : (directory path).program.run c.managers w =
          c.createDirectory path w := run_surely (run_call rfl)
      rw [hrun]
      exact comes_change c _ path _ w
  | file path =>
      have hrun : (file path).program.run c.managers w =
          w.change (c.site (Op.call (Call.createFileW path))) [path]
            (Effect.openFile (w.below path)) := run_surely (run_call rfl)
      rw [hrun]
      exact comes_change c _ path _ w
  | script path =>
      exact comes_touch c (Op.call (Call.setPermissions path PermChange.replaceWithScript))
        _ w

/-- A step that has been done has grown what is below the place, unless it had
nothing to do. -/
theorem grows_step {volume : Volume}
    (h : w.outer.volume.perform (step.effect w) = some volume) :
    Volume.Grows place w.outer.volume volume ∧
      (Volume.Grows place volume w.outer.volume <-> step.Idle place w) := by
  cases step with
  | directory path =>
      rcases Option.map_eq_some_iff.mp h with ⟨files, hfiles, rfl⟩
      rcases Option.map_eq_some_iff.mp hfiles with ⟨tree, htree, rfl⟩
      exact ⟨Volume.grows_directories htree, Volume.wayThere_iff htree⟩
  | file path => exact ⟨Volume.grows_openFile h, Volume.emptyFile_iff h⟩
  | script path =>
      rcases Volume.perform_setPermissions h with ⟨hexists, rfl⟩
      exact ⟨Volume.grows_setMode place _ _, Volume.scriptMode_iff hexists⟩

/-- So has one that has failed, unless the failure was harmless. -/
theorem grows_left (step : CreationStep) (w : Server Estate) (ec : ErrorCode) :
    Volume.Grows place w.outer.volume (c.left w.outer.volume (step.effect w)) ∧
      (Volume.Grows place (c.left w.outer.volume (step.effect w)) w.outer.volume <->
        step.Harmless c place (Stop.refused ec) w) := by
  have hrefl := Volume.grows_refl place w.outer.volume
  cases step with
  | file path => exact ⟨hrefl, iff_of_true hrefl trivial⟩
  | script path => exact ⟨hrefl, iff_of_true hrefl trivial⟩
  | directory path =>
      unfold effect Circumstances.left Harmless
      dsimp only
      split
      · rename_i tree htree
        rw [htree]
        exact ⟨Volume.grows_directories htree,
          (Volume.wayThere_iff htree).trans (imp_iff_right rfl).symm⟩
      · rename_i hnone
        rw [hnone]
        exact ⟨hrefl, iff_of_true hrefl fun h => by cases h⟩

/-- What is idle stays idle in a volume that has grown. -/
theorem idle_of_adds (h : Adds place w t) (hidle : step.Idle place w) :
    step.Idle place t := by
  rcases h with ⟨hpath, hgrows⟩
  have hbelow : forall path, t.below path = w.below path := by
    intro path
    rw [Server.below, Server.below, hpath]
  have hsource : forall path,
      waySource t.outer.volume.files path = waySource w.outer.volume.files path := by
    intro path
    rw [waySource, waySource, hgrows.cwd]
  have hlocate : forall path,
      t.outer.volume.files.locate path = w.outer.volume.files.locate path := by
    intro path
    rw [FileSystem.locate, FileSystem.locate, hgrows.cwd]
  cases step with
  | directory path =>
      unfold Idle
      dsimp only
      rw [hbelow, hsource]
      intro done name rest hway hplace
      exact hgrows.exists hplace (hidle done name rest hway hplace)
  | file path =>
      unfold Idle
      dsimp only
      rw [hbelow, hlocate]
      intro hplace
      rcases hidle hplace with ⟨hfile, hempty⟩
      have hexists : w.outer.volume.files.tree.Exists
          (w.outer.volume.files.locate (w.below path)) := by
        rw [FileTree.Exists, hfile]
        exact Option.some_ne_none _
      refine ⟨(hgrows.kind _ hplace hexists).trans hfile, ?_⟩
      rcases hgrows.text _ hplace hexists with hsame | hgone
      · exact hsame.trans hempty
      · exact hgone
  | script path =>
      unfold Idle
      dsimp only
      rw [hbelow, hlocate]
      intro hplace
      rcases hidle hplace with ⟨hexists, hmode⟩
      refine ⟨hgrows.exists hplace hexists, ?_⟩
      rcases hgrows.mode _ hplace hexists with hsame | hscript
      · exact hsame.trans hmode
      · exact hscript

variable (place) in
theorem additive_take :
    Chain.Additive (take c) (Adds place) (Idle place) (Harmless c place) where
  refl := fun w => ⟨rfl, Volume.grows_refl place _⟩
  trans := fun h h' => ⟨h'.left.trans h.left, h.right.trans h'.right⟩
  adds := by
    intro step w
    unfold take
    dsimp only
    rcases comes_run c step w with
      ⟨volume, cache, hperform, hpath, _, hleft⟩ | ⟨ec, _, hleft⟩
    · rw [hleft]
      exact ⟨hpath, (grows_step hperform).left⟩
    · rw [hleft]
      exact ⟨rfl, (grows_left c step w ec).left⟩
  idle_iff := by
    intro step w w' htake
    have hanswer := congrArg Prod.fst htake
    have hworld := congrArg Prod.snd htake
    dsimp only [take] at hanswer hworld
    rw [← hworld]
    rcases comes_run c step w with
      ⟨volume, cache, hperform, hpath, _, hleft⟩ | ⟨ec, hfailed, _⟩
    · rw [hleft, ← (grows_step hperform).right]
      exact and_iff_right hpath.symm
    · rw [hfailed] at hanswer
      cases hanswer
  harmless_iff := by
    intro step w w' stop htake
    have hanswer := congrArg Prod.fst htake
    have hworld := congrArg Prod.snd htake
    dsimp only [take] at hanswer hworld
    rw [← hworld]
    rcases comes_run c step w with
      ⟨volume, cache, hperform, hpath, hnot, hleft⟩ | ⟨ec, hfailed, hleft⟩
    · rw [hleft]
      rcases hrun : (step.program.run c.managers w).1 with f | ec | _
      · rw [hrun] at hanswer
        cases hanswer
        show _ <-> step.Idle place w
        rw [← (grows_step hperform).right]
        exact and_iff_right hpath.symm
      · exact absurd hrun (hnot ec)
      · rw [hrun] at hanswer
        cases hanswer
    · rw [hfailed] at hanswer
      cases hanswer
      rw [hleft, ← (grows_left c step w ec).right]
      exact and_iff_right rfl
  idle_congr := fun h _ hidle => idle_of_adds h hidle

end Steps

end CreationStep

end Websocket
end CisWebui
