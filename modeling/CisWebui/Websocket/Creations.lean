import CisWebui.Websocket.CreationSteps
import CisWebui.Websocket.ProjectRuns

/-!
# Creations that fail

A request whose creation stops half way is answered with an error; what it
leaves on disk is compared with what was there before.
-/

namespace CisWebui
namespace Websocket

open Cpp FilesystemPath Foundation ProjectStore

/-!
## What a request leaves
-/

/-- What there is before a request. -/
structure Premises where
  volume : Volume
  database : Database
  cache : FsCache

namespace Premises

def server (p : Premises) : Server Estate where
  outer := { volume := p.volume, database := p.database, replied := none }
  cache := p.cache
  located := []

/-- Where the projects root is. -/
def place (p : Premises) : List Str :=
  p.volume.files.locate p.cache.path

def after (p : Premises) (c : Circumstances) (ctx : RequestContext)
    (request : CreationRequest) : Server Estate :=
  ((request.handler ctx).run c.managers p.server).2

end Premises

/-- The last reply is an error. -/
def Refused (w : Server Estate) : Prop :=
  exists r, w.outer.replied = some r ∧ r.isError = true

/-- A request that is answered with an error leaves the disk below the projects
root and the table of projects as they were. -/
def Atomic (c : Circumstances) (ctx : RequestContext) (request : CreationRequest)
    (p : Premises) : Prop :=
  Refused (p.after c ctx request) ->
    Volume.SameBelow p.place p.volume (p.after c ctx request).outer.volume ∧
      (p.after c ctx request).outer.database.projects = p.database.projects

/-- The checks let the request through, and nothing has been changed yet but the
cache. -/
def Admitted (c : Circumstances) (ctx : RequestContext) (w w' : Server Estate) :
    CreationRequest -> Prop
  | CreationRequest.jobAdd project job =>
      exists entry looked client perm,
        c.managers.perform (Op.call (Call.getProjectInfo project)) w =
            (Except.ok (some entry), looked) ∧
          ctx.clientInfo = some client ∧
          RightsManager.checkProjectRight
              (c.broken (Call.checkProjectRight client.email project)) client.email
              project looked.outer.database = Except.ok perm ∧
          allows ProjectRights.write perm = true ∧
          c.managers.perform (Op.call (Call.find (jobPath project job))) looked =
            (Except.ok none, w')
  | CreationRequest.projectAdd project =>
      exists client,
        ctx.clientInfo = some client ∧
          c.managers.perform (Op.call (Call.getProjectInfo project)) w =
            (Except.ok none, w') ∧
          RightsManager.isAdmin (c.broken (Call.isAdmin client.email)) client.email
            w'.outer.database = Except.ok true

/-- The error of the database behind the steps on disk. -/
def CreationRequest.rowFault (c : Circumstances) : CreationRequest -> Option ErrorCode
  | jobAdd _ _ => none
  | projectAdd project => c.broken (Call.createProject project)

/-- What has been done in front of the first failure, had been done before. -/
structure Spared (c : Circumstances) (ctx : RequestContext) (request : CreationRequest)
    (p : Premises) : Prop where
  steps : forall {w before failing found ec left}, Admitted c ctx p.server w request ->
    Chain.Breaks (CreationStep.take c) request.steps w before failing found ->
    failing.take c found = (Except.error (Stop.refused ec), left) ->
      (forall step, step ∈ before -> step.Idle p.place w) ∧
        failing.Harmless c p.place (Stop.refused ec) found
  row : forall {w left}, Admitted c ctx p.server w request ->
    Chain.run (CreationStep.take c) request.steps w = (Except.ok (), left) ->
    request.rowFault c ≠ none -> forall step, step ∈ request.steps -> step.Idle p.place w

/-- Two servers with the same disk and database. -/
structure Untouched (w w' : Server Estate) : Prop where
  volume : w'.outer.volume = w.outer.volume
  database : w'.outer.database = w.outer.database
  path : w'.cache.path = w.cache.path

/-- How a request ends that the checks have let through. -/
structure Ends (c : Circumstances) (request : CreationRequest) (w after : Server Estate) :
    Prop where
  done : forall {left},
    Chain.run (CreationStep.take c) request.steps w = (Except.ok (), left) ->
      (request.rowFault c = none ∧ ¬ Refused after) ∨
        (request.rowFault c ≠ none ∧ Refused after ∧ Untouched left after)
  thrown : forall {f left},
    Chain.run (CreationStep.take c) request.steps w =
        (Except.error (Stop.thrown f), left) -> ¬ Refused after
  refused : forall {ec left},
    Chain.run (CreationStep.take c) request.steps w =
        (Except.error (Stop.refused ec), left) -> Refused after ∧ Untouched left after

/-!
## The steps in a handler
-/

/-- A handler that takes one step after the other, with the texts of its errors. -/
def createAll (last : Handler) : List (CreationStep × String) -> Handler
  | [] => last
  | (step, text) :: rest =>
      step.program >>= fun answer => checkEcMsg answer text fun _ => createAll last rest

section Handlers

variable {c : Circumstances} {ctx : RequestContext} {w left : Server Estate}

/-- The steps leave the database and the reply to others. -/
theorem outer_take (c : Circumstances) (step : CreationStep) (w : Server Estate) :
    (step.take c w).2.outer.database = w.outer.database ∧
      (step.take c w).2.outer.replied = w.outer.replied := by
  unfold CreationStep.take
  dsimp only
  rcases CreationStep.comes_run c step w with ⟨_, _, _, _, _, hleft⟩ | ⟨_, _, hleft⟩
  · rw [hleft]
    exact ⟨rfl, rfl⟩
  · rw [hleft]
    exact ⟨rfl, rfl⟩

theorem outer_run (c : Circumstances) (steps : List CreationStep) (w : Server Estate) :
    (Chain.run (CreationStep.take c) steps w).2.outer.database = w.outer.database ∧
      (Chain.run (CreationStep.take c) steps w).2.outer.replied = w.outer.replied := by
  induction steps generalizing w with
  | nil => exact ⟨rfl, rfl⟩
  | cons step rest ih =>
      have hstep := outer_take c step w
      rw [Chain.run]
      rcases htake : step.take c w with ⟨answer, next⟩
      rw [htake] at hstep
      cases answer with
      | error stop => exact hstep
      | ok _ => exact ⟨(ih next).left.trans hstep.left, (ih next).right.trans hstep.right⟩

def replying (w : Server Estate) (r : Reply) : Server Estate :=
  { w with outer := { w.outer with replied := some r } }

/-- One step more in front. -/
theorem run_createAll_cons (last : Handler) (step : CreationStep) (text : String)
    (rest : List (CreationStep × String)) (w : Server Estate) :
    (createAll last ((step, text) :: rest)).run c.managers w =
      match step.take c w with
      | (Except.ok (), left) => (createAll last rest).run c.managers left
      | (Except.error (Stop.thrown f), left) => (Except.error f, left)
      | (Except.error (Stop.refused _), left) =>
          (Except.ok (), replying left (Reply.error none (str text))) := by
  rw [createAll, Program.run_bind, CreationStep.take]
  rcases step.program.run c.managers w with ⟨f | ec | _, left⟩
  · rfl
  · rfl
  · rfl

/-- What a handler of steps comes to, by how the steps do. -/
def Concludes (c : Circumstances) (last : Handler) (left : Server Estate) :
    Except Stop Unit -> Except Failure Unit × Server Estate -> Prop
  | Except.ok _, ending => ending = last.run c.managers left
  | Except.error (Stop.thrown f), ending => ending = (Except.error f, left)
  | Except.error (Stop.refused _), ending => exists text : String,
      ending = (Except.ok (), replying left (Reply.error none (str text)))

theorem run_createAll (last : Handler) (steps : List (CreationStep × String)) :
    forall {w answer}, Chain.run (CreationStep.take c) (steps.map Prod.fst) w =
        (answer, left) ->
      Concludes c last left answer ((createAll last steps).run c.managers w) := by
  induction steps with
  | nil =>
      intro w answer h
      cases h
      rfl
  | cons head rest ih =>
      intro w answer h
      rcases head with ⟨step, text⟩
      rw [run_createAll_cons]
      rw [List.map_cons, Chain.run] at h
      rcases htake : step.take c w with ⟨stop | _, next⟩
      · rw [htake] at h
        cases h
        cases stop with
        | thrown f => rfl
        | refused ec => exact ⟨text, rfl⟩
      · rw [htake] at h
        exact ih h

/-- The steps of a job with the texts of their errors, and what is written in the
end. -/
def jobSteps (project job : Str) : List (CreationStep × String) :=
  let path := jobPath project job
  [(CreationStep.directory path, "Can't create directory."),
    (CreationStep.file (append path (str "script")), "Can't create file."),
    (CreationStep.script (append path (str "script")), "Can't make script executable."),
    (CreationStep.file (append path (str "job.params")), "Can't create file."),
    (CreationStep.file (append path (str "job.conf")), "Can't create file.")]

def finishJob (project job : Str) : Handler := do
  let _ ← call (Call.writeFile (append (jobPath project job) (str "job.conf")) jobConfText)
  send Success.cisJobAdd

theorem createJob_eq (project job : Str) :
    createJob project job =
      surely (call (Call.find (jobPath project job))) >>= fun found =>
        match found with
        | some _ =>
            sendError (ErrorPayload.cisJobAlreadyExist project job) "Job already exists."
        | none => createAll (finishJob project job) (jobSteps project job) := rfl

/-- A lookup leaves what is outside of the cache. -/
def Looked (w w' : Server Estate) : Prop :=
  w'.outer = w.outer ∧ w'.cache.path = w.cache.path

theorem looked_find (site : Site Estate) (path : Str) (w : Server Estate) :
    Looked w (w.find site path).2 := by
  have hsame := FsCache.sameSettings_find w.cache (site.disk w.outer)
    (site.now w.outer) path
  unfold Server.find
  rcases hfind : w.cache.find (site.disk w.outer) (site.now w.outer) path with
    ⟨answer, cache⟩
  rw [hfind] at hsame
  cases answer with
  | error e => exact ⟨rfl, hsame.left⟩
  | ok found => exact ⟨rfl, hsame.left⟩

theorem looked_getProject (c : Circumstances) (project : Str) (w : Server Estate) :
    Looked w (c.getProject project w).2 := by
  have hfind := looked_find (c.site (Op.call (Call.getProjectInfo project)))
    (slash :: project) w
  unfold Circumstances.getProject
  dsimp only
  rcases hresult : w.find (c.site (Op.call (Call.getProjectInfo project)))
    (slash :: project) with ⟨answer, looked⟩
  rw [hresult] at hfind
  cases answer with
  | error f => exact hfind
  | ok found =>
      dsimp only
      split
      · exact hfind
      · exact hfind

theorem looked_findEntry (site : Site Estate) (path : Str) (w : Server Estate) :
    Looked w (w.findEntry site path).2 := by
  have hfind := looked_find site path w
  unfold Server.findEntry Server.findLocated
  rcases hresult : w.find site path with ⟨answer, looked⟩
  rw [hresult] at hfind
  rcases answer with f | _ | found
  · exact hfind
  · exact hfind
  · exact hfind

theorem looked_of_admitted {w' : Server Estate} {request : CreationRequest}
    (h : Admitted c ctx w w' request) : Looked w w' := by
  cases request with
  | jobAdd project job =>
      rcases h with ⟨entry, looked, client, perm, hproject, _, _, _, hfind⟩
      have hlooked := looked_getProject c project w
      have hentry := looked_findEntry (c.site (Op.call (Call.find (jobPath project job))))
        (jobPath project job) looked
      rw [show c.getProject project w = _ from hproject] at hlooked
      rw [show looked.findEntry _ _ = _ from hfind] at hentry
      exact ⟨hentry.left.trans hlooked.left, hentry.right.trans hlooked.right⟩
  | projectAdd project =>
      rcases h with ⟨client, _, hproject, _⟩
      have hlooked := looked_getProject c project w
      rw [show c.getProject project w = _ from hproject] at hlooked
      exact hlooked

/-- A job that may be made is made step by step. -/
theorem run_jobAdd {project job : Str} {w' : Server Estate}
    (h : Admitted c ctx w w' (CreationRequest.jobAdd project job)) :
    (addCisJob ctx project job).run c.managers w =
      (createAll (finishJob project job) (jobSteps project job)).run c.managers w' := by
  rcases h with ⟨entry, looked, client, perm, hproject, hclient, hperm, hallows, hfind⟩
  have hright : (checkProjectRight client.email project).run c.managers looked =
      (Except.ok (Except.ok perm), looked) := run_call (Prod.ext hperm rfl)
  have hsome : ctx.clientInfo ≠ none := by
    rw [hclient]
    exact Option.some_ne_none client
  unfold addCisJob
  rw [run_surely_ok (run_call hproject), if_neg hsome, clientInfoValue, hclient,
    Program.done_bind, withRight, Program.run_bind, hright]
  dsimp only
  rw [checkEc, if_pos hallows, createJob_eq, run_surely_ok (run_call hfind)]

theorem Looked.untouched {t : Server Estate} (h : Looked w t) : Untouched w t where
  volume := congrArg Estate.volume h.left
  database := congrArg Estate.database h.left
  path := h.right

theorem Looked.replying {t : Server Estate} (h : Looked w t) (r : Reply) :
    Untouched w (replying t r) where
  volume := h.untouched.volume
  database := h.untouched.database
  path := h.untouched.path

/-- A job that may not be made leaves nothing behind. -/
theorem jobAdd_cases (project job : Str) :
    Untouched w ((addCisJob ctx project job).run c.managers w).2 ∨
      exists w', Admitted c ctx w w' (CreationRequest.jobAdd project job) := by
  have hlooked := looked_getProject c project w
  rcases hresult : c.getProject project w with ⟨answer, looked⟩
  rw [hresult] at hlooked
  have hproject : c.managers.perform (Op.call (Call.getProjectInfo project)) w =
      (answer, looked) := hresult
  unfold addCisJob
  cases answer with
  | error f =>
      rw [run_surely_error (run_call hproject)]
      exact Or.inl hlooked.untouched
  | ok found =>
      rw [run_surely_ok (run_call hproject)]
      cases hclient : ctx.clientInfo with
      | none =>
          rw [if_pos rfl, clientInfoValue, hclient]
          exact Or.inl (hlooked.replying _)
      | some client =>
          rw [if_neg (Option.some_ne_none client), clientInfoValue, hclient,
            Program.done_bind]
          unfold withRight
          rw [Program.run_bind]
          have hright : (checkProjectRight client.email project).run c.managers looked =
              (Except.ok (RightsManager.checkProjectRight
                (c.broken (Call.checkProjectRight client.email project)) client.email project
                looked.outer.database), looked) := rfl
          rw [hright]
          dsimp only
          cases hperm : RightsManager.checkProjectRight
              (c.broken (Call.checkProjectRight client.email project)) client.email project
              looked.outer.database with
          | error ec => exact Or.inl (hlooked.replying _)
          | ok perm =>
              rw [checkEc]
              by_cases hallows : allows ProjectRights.write perm = true
              · rw [if_pos hallows]
                cases found with
                | none => exact Or.inl (hlooked.replying _)
                | some entry =>
                    have hentry := looked_findEntry
                      (c.site (Op.call (Call.find (jobPath project job))))
                      (jobPath project job) looked
                    rcases hjob : looked.findEntry
                      (c.site (Op.call (Call.find (jobPath project job))))
                      (jobPath project job) with ⟨answer, looked'⟩
                    rw [hjob] at hentry
                    have hboth : Looked w looked' :=
                      ⟨hentry.left.trans hlooked.left, hentry.right.trans hlooked.right⟩
                    have hfind : c.managers.perform
                        (Op.call (Call.find (jobPath project job))) looked =
                      (answer, looked') := hjob
                    rw [createJob_eq]
                    rcases answer with f | _ | entry'
                    · rw [run_surely_error (run_call hfind)]
                      exact Or.inl hboth.untouched
                    · exact Or.inr ⟨looked', entry, looked, client, perm, hproject, hclient,
                        hperm, hallows, hfind⟩
                    · rw [run_surely_ok (run_call hfind)]
                      exact Or.inl (hboth.replying _)
              · rw [if_neg hallows]
                exact Or.inl (hlooked.replying _)

/-- What `create_project` leaves is told to the client. -/
def finishProject (answer : Fallible Unit) : Handler :=
  checkEc answer fun _ => send Success.cisProjectAdd

theorem run_projectAdd {project : Str} {w' : Server Estate}
    (h : Admitted c ctx w w' (CreationRequest.projectAdd project)) :
    (addCisProject ctx project).run c.managers w =
      (surely (call (Call.createProject project)) >>= finishProject).run c.managers w' := by
  rcases h with ⟨client, hclient, hproject, hadmin⟩
  have hright : (isAdmin client.email).run c.managers w' = (Except.ok (Except.ok true), w') :=
    run_call (Prod.ext hadmin rfl)
  unfold addCisProject
  rw [hclient]
  dsimp only
  rw [run_surely_ok (run_call hproject)]
  dsimp only
  rw [Program.run_bind, hright]
  dsimp only
  rw [checkEc, if_pos rfl]
  rfl

/-- A project that may not be made leaves nothing behind. -/
theorem projectAdd_cases (project : Str) :
    Untouched w ((addCisProject ctx project).run c.managers w).2 ∨
      exists w', Admitted c ctx w w' (CreationRequest.projectAdd project) := by
  have hlooked := looked_getProject c project w
  rcases hresult : c.getProject project w with ⟨answer, looked⟩
  rw [hresult] at hlooked
  have hproject : c.managers.perform (Op.call (Call.getProjectInfo project)) w =
      (answer, looked) := hresult
  unfold addCisProject
  cases hclient : ctx.clientInfo with
  | none => exact Or.inl ⟨rfl, rfl, rfl⟩
  | some client =>
      dsimp only
      rcases answer with f | _ | entry
      · rw [run_surely_error (run_call hproject)]
        exact Or.inl hlooked.untouched
      · rw [run_surely_ok (run_call hproject)]
        dsimp only
        have hright : (isAdmin client.email).run c.managers looked =
            (Except.ok (RightsManager.isAdmin (c.broken (Call.isAdmin client.email))
              client.email looked.outer.database), looked) := rfl
        rw [Program.run_bind, hright]
        dsimp only
        rcases hadmin : RightsManager.isAdmin (c.broken (Call.isAdmin client.email))
          client.email looked.outer.database with ec | _ | _
        · exact Or.inl (hlooked.replying _)
        · exact Or.inl (hlooked.replying _)
        · exact Or.inr ⟨looked, client, hclient, hproject, hadmin⟩
      · rw [run_surely_ok (run_call hproject)]
        exact Or.inl (hlooked.replying _)

theorem untouched_or_admitted (c : Circumstances) (ctx : RequestContext)
    (request : CreationRequest) (p : Premises) :
    Untouched p.server (p.after c ctx request) ∨
      exists w', Admitted c ctx p.server w' request := by
  cases request with
  | jobAdd project job => exact jobAdd_cases project job
  | projectAdd project => exact projectAdd_cases project

/-!
## Endings
-/

theorem not_refused (h : w.outer.replied = none) : ¬ Refused w := by
  intro hrefused
  rcases hrefused with ⟨r, hreplied, _⟩
  rw [h] at hreplied
  cases hreplied

theorem not_refused_of_success {payload : Success}
    (h : w.outer.replied = some (Reply.success payload)) : ¬ Refused w := by
  intro hrefused
  rcases hrefused with ⟨r, hreplied, herror⟩
  rw [h] at hreplied
  cases hreplied
  cases herror

theorem refused_replying (w : Server Estate) (payload : Option ErrorPayload) (text : Str) :
    Refused (replying w (Reply.error payload text)) :=
  ⟨_, rfl, rfl⟩

theorem ends_jobAdd {project job : Str} {w' : Server Estate}
    (hreplied : w'.outer.replied = none)
    (h : Admitted c ctx w w' (CreationRequest.jobAdd project job)) :
    Ends c (CreationRequest.jobAdd project job) w'
      ((addCisJob ctx project job).run c.managers w).2 := by
  rw [run_jobAdd h]
  constructor
  · intro left hrun
    have hsteps := run_createAll (finishJob project job) (jobSteps project job) hrun
    rw [hsteps]
    exact Or.inl ⟨rfl, not_refused_of_success rfl⟩
  · intro f left hrun
    have hsteps := run_createAll (finishJob project job) (jobSteps project job) hrun
    have houter := (outer_run c (CreationRequest.jobAdd project job).steps w').right
    rw [hrun] at houter
    rw [hsteps]
    exact not_refused (houter.trans hreplied)
  · intro ec left hrun
    rcases run_createAll (finishJob project job) (jobSteps project job) hrun with
      ⟨text, hsteps⟩
    rw [hsteps]
    exact ⟨refused_replying left _ _, rfl, rfl, rfl⟩

theorem run_directory (path : Str) (w : Server Estate) :
    Chain.run (CreationStep.take c) [CreationStep.directory path] w =
      (outcome (c.createDirectory path w).1, (c.createDirectory path w).2) := by
  have hrun : (CreationStep.directory path).program.run c.managers w =
      c.createDirectory path w := run_surely (run_call rfl)
  rw [Chain.run, CreationStep.take, hrun]
  rcases c.createDirectory path w with ⟨f | ec | _, left⟩
  · rfl
  · rfl
  · rfl

theorem createProject_eq (c : Circumstances) (project : Str) (w : Server Estate) :
    c.createProject project w =
      match c.createDirectory (append (str "/") project) w with
      | (Except.error f, made) => (Except.error f, made)
      | (Except.ok directory, made) =>
          let created := CisManager.createProject (c.broken (Call.createProject project))
            directory project made.outer.database
          (Except.ok created.1,
            { made with outer := { made.outer with database := created.2 } }) := rfl

theorem ends_projectAdd {project : Str} {w' : Server Estate}
    (hreplied : w'.outer.replied = none)
    (h : Admitted c ctx w w' (CreationRequest.projectAdd project)) :
    Ends c (CreationRequest.projectAdd project) w'
      ((addCisProject ctx project).run c.managers w).2 := by
  have houter := (outer_run c (CreationRequest.projectAdd project).steps w').right
  have hchain : Chain.run (CreationStep.take c) (CreationRequest.projectAdd project).steps
      w' = _ := run_directory (append (str "/") project) w'
  have hperform : c.managers.perform (Op.call (Call.createProject project)) w' = _ :=
    createProject_eq c project w'
  rw [hchain] at houter
  rw [run_projectAdd h]
  rcases hdirectory : c.createDirectory (append (str "/") project) w' with
    ⟨f | ec | _, made⟩
  · rw [hdirectory] at hchain houter hperform
    rw [run_surely_error (run_call hperform)]
    constructor
    · intro left hrun
      cases hchain.symm.trans hrun
    · intro f left hrun
      exact not_refused (houter.trans hreplied)
    · intro ec left hrun
      cases hchain.symm.trans hrun
  · rw [hdirectory] at hchain hperform
    rw [run_surely_ok (run_call hperform)]
    constructor
    · intro left hrun
      cases hchain.symm.trans hrun
    · intro f left hrun
      cases hchain.symm.trans hrun
    · intro ec left hrun
      cases hchain.symm.trans hrun
      exact ⟨refused_replying made _ _, rfl, rfl, rfl⟩
  · rw [hdirectory] at hchain hperform
    rw [run_surely_ok (run_call hperform)]
    constructor
    · intro left hrun
      cases hchain.symm.trans hrun
      cases hfault : c.broken (Call.createProject project) with
      | none =>
          rcases CisManager.live_createProject project made.outer.database with
            ⟨database, hcreated, _⟩
          dsimp only
          rw [hcreated]
          exact Or.inl ⟨hfault, not_refused_of_success rfl⟩
      | some ec =>
          refine Or.inr ⟨?_, refused_replying made _ _, rfl, rfl, rfl⟩
          show c.broken (Call.createProject project) ≠ none
          rw [hfault]
          exact Option.some_ne_none ec
    · intro f left hrun
      cases hchain.symm.trans hrun
    · intro ec left hrun
      cases hchain.symm.trans hrun

theorem ends_of_admitted {p : Premises} {request : CreationRequest}
    (h : Admitted c ctx p.server w request) : Ends c request w (p.after c ctx request) := by
  have hreplied : w.outer.replied = none :=
    congrArg Estate.replied (looked_of_admitted h).left
  cases request with
  | jobAdd project job => exact ends_jobAdd hreplied h
  | projectAdd project => exact ends_projectAdd hreplied h

/-- What is behind a request differs from what was in front of it just as the steps
make a difference. -/
theorem sameBelow_iff_of_run {p : Premises} {request : CreationRequest}
    {after : Server Estate} {answer : Except Stop Unit}
    (hadmitted : Admitted c ctx p.server w request)
    (hrun : Chain.run (CreationStep.take c) request.steps w = (answer, left))
    (hsame : Untouched left after) :
    Volume.SameBelow p.place p.volume after.outer.volume <->
      CreationStep.Adds p.place left w := by
  have hlooked : w.outer.volume = p.volume :=
    congrArg Estate.volume (looked_of_admitted hadmitted).left
  have hadds := (CreationStep.additive_take c p.place).adds_run request.steps w
  rw [hrun] at hadds
  rw [hsame.volume, ← hlooked, Volume.sameBelow_iff hadds.right]
  exact (and_iff_right hadds.left.symm).symm

theorem database_of_run {p : Premises} {request : CreationRequest}
    {after : Server Estate} {answer : Except Stop Unit}
    (hadmitted : Admitted c ctx p.server w request)
    (hrun : Chain.run (CreationStep.take c) request.steps w = (answer, left))
    (hsame : Untouched left after) : after.outer.database = p.database := by
  have hlooked : w.outer.database = p.database :=
    congrArg Estate.database (looked_of_admitted hadmitted).left
  have houter := (outer_run c request.steps w).left
  rw [hrun] at houter
  exact hsame.database.trans (houter.trans hlooked)

theorem sameBelow_refl (place : List Str) (v : Volume) : Volume.SameBelow place v v :=
  ⟨fun _ _ => rfl, fun _ _ _ => rfl, fun _ _ _ => rfl⟩

theorem spared_of_atomic {request : CreationRequest} {p : Premises}
    (hatomic : Atomic c ctx request p) : Spared c ctx request p := by
  have hadditive := CreationStep.additive_take c p.place
  constructor
  · intro w before failing found ec left hadmitted hbreaks hfails
    have hrun := (Chain.run_of_breaks hbreaks).trans hfails
    rcases (ends_of_admitted hadmitted).refused hrun with ⟨hrefused, hsame⟩
    have hbelow := (hatomic hrefused).left
    rw [sameBelow_iff_of_run hadmitted hrun hsame] at hbelow
    exact (hadditive.breaks_iff hbreaks hfails).mp hbelow
  · intro w left hadmitted hrun hfault
    rcases (ends_of_admitted hadmitted).done hrun with ⟨hnone, _⟩ | ⟨_, hrefused, hsame⟩
    · exact absurd hnone hfault
    · have hbelow := (hatomic hrefused).left
      rw [sameBelow_iff_of_run hadmitted hrun hsame] at hbelow
      exact (hadditive.run_iff hrun).mp hbelow

/-- A creation is atomic exactly if what was done in front of a failure had been
done before the request, and the failure has made nothing. -/
theorem atomic_iff (c : Circumstances) (ctx : RequestContext) (request : CreationRequest)
    (p : Premises) : Atomic c ctx request p <-> Spared c ctx request p := by
  constructor
  · exact spared_of_atomic
  · intro hspared hrefused
    rcases untouched_or_admitted c ctx request p with huntouched | ⟨w, hadmitted⟩
    · rw [huntouched.volume, huntouched.database]
      exact ⟨sameBelow_refl p.place p.volume, rfl⟩
    · have hadditive := CreationStep.additive_take c p.place
      have hends := ends_of_admitted hadmitted
      rcases hrun : Chain.run (CreationStep.take c) request.steps w with ⟨answer, left⟩
      rcases answer with stop | _
      · cases stop with
        | thrown f => exact absurd hrefused (hends.thrown hrun)
        | refused ec =>
            have hsame := (hends.refused hrun).right
            rcases Chain.breaks_of_error hrun with
              ⟨before, failing, found, hbreaks, hfails⟩
            refine ⟨(sameBelow_iff_of_run hadmitted hrun hsame).mpr ?_, ?_⟩
            · exact (hadditive.breaks_iff hbreaks hfails).mpr
                (hspared.steps hadmitted hbreaks hfails)
            · rw [database_of_run hadmitted hrun hsame]
      · rcases hends.done hrun with ⟨_, hnot⟩ | ⟨hfault, _, hsame⟩
        · exact absurd hrefused hnot
        · refine ⟨(sameBelow_iff_of_run hadmitted hrun hsame).mpr ?_, ?_⟩
          · exact (hadditive.run_iff hrun).mpr (hspared.row hadmitted hrun hfault)
          · rw [database_of_run hadmitted hrun hsame]

/-- A directory that can be made is made if lookups do not throw. -/
theorem createDirectory_done {path : Str} {volume : Volume}
    (hseen : forall files, FsCache.Answering (c.seen files))
    (hfault : c.fault (Effect.createDirectories (w.below path)) = none)
    (hmade : w.outer.volume.perform (Effect.createDirectories (w.below path)) =
      some volume) :
    (c.createDirectory path w).1 = Except.ok (Except.ok ()) := by
  have heffect : (c.site (Op.call (Call.createDirectory path))).effect
      (Effect.createDirectories (w.below path)) w.outer =
        (Except.ok (), { w.outer with volume := volume }) := by
    show c.effect _ _ = _
    rw [Circumstances.effect, hfault, hmade]
  have hok := FsCache.invalidateParent_ok (hseen volume.files) w.cache
    (c.now (Op.call (Call.createDirectory path))) path
  have hparents : exists t, Server.invalidateParents
      (c.site (Op.call (Call.createDirectory path))) [path]
      { w with outer := { w.outer with volume := volume } } = (Except.ok (), t) := by
    rcases hcache : w.cache.invalidateParent (c.seen volume.files)
      (c.now (Op.call (Call.createDirectory path))) path with ⟨answer, cache⟩
    rw [hcache] at hok
    cases hok
    have hcache' : w.cache.invalidateParent
        ((c.site (Op.call (Call.createDirectory path))).disk
          { w.outer with volume := volume })
        ((c.site (Op.call (Call.createDirectory path))).now
          { w.outer with volume := volume }) path = (Except.ok (), cache) := hcache
    rw [Server.invalidateParents, hcache']
    exact ⟨_, rfl⟩
  rcases hparents with ⟨t, ht⟩
  rw [Circumstances.createDirectory, Server.change, heffect]
  dsimp only
  rw [ht]

end Handlers

/-!
## A row that fails
-/

/-- An administrator's connection. -/
def sampleContext : RequestContext where
  clientInfo := some { email := str "root", activeToken := str "t", apiAccessKey := [] }
  cookies := []
  resStatus := Status.unknown
  allowedVerbs := []
  error := []

/-- A root with one project, and a cache that has seen nothing yet. -/
def samplePremises : Premises where
  volume := { files := sampleFiles, text := fun _ => [], mode := fun _ => 0o644 }
  database := sampleDatabase
  cache :=
    { path := sampleRoot.path
      maxCachingLevel := 4
      invalidationTime := invalidationTime
      root := FsNode.fresh 0 4 }

/-- Nothing fails but the row of a new project. -/
def rowless : Circumstances where
  now _ := 0
  isDirectory := false
  seen := FileSystem.disk
  fault _ := none
  made _ := 0
  broken
    | Call.createProject _ => some systemError
    | _ => none

theorem find_of_cache {site : Site Estate} {path : Str} {w : Server Estate}
    {found : Option Found}
    (h : (w.cache.find (site.disk w.outer) (site.now w.outer) path).1 = Except.ok found) :
    w.find site path = (Except.ok found, { w with
      cache := (w.cache.find (site.disk w.outer) (site.now w.outer) path).2 }) := by
  rw [Server.find]
  rcases hcache : w.cache.find (site.disk w.outer) (site.now w.outer) path with
    ⟨answer, cache⟩
  rw [hcache] at h
  cases h
  rfl

/-- The administrator may make the project. -/
theorem admitted_sample : Admitted rowless sampleContext samplePremises.server
    (rowless.getProject (str "y") samplePremises.server).2
    (CreationRequest.projectAdd (str "y")) := by
  have hlooked := looked_getProject rowless (str "y") samplePremises.server
  refine ⟨_, rfl, Prod.ext ?_ rfl, ?_⟩
  · rcases FsCache.find_ok sampleFiles.answering_disk samplePremises.cache 0
      (slash :: str "y") with ⟨found, hfound⟩
    have hfind : samplePremises.server.find
        (rowless.site (Op.call (Call.getProjectInfo (str "y")))) (slash :: str "y") =
      (Except.ok found, _) := find_of_cache hfound
    show (rowless.getProject (str "y") samplePremises.server).1 = _
    rw [Circumstances.getProject, hfind]
    rfl
  · rw [hlooked.left]
    decide

/-- The directory of a project that has got no row. -/
theorem atomic_not_everywhere :
    ¬ forall c ctx request p, Atomic c ctx request p := by
  intro h
  have hspared := spared_of_atomic
    (h rowless sampleContext (CreationRequest.projectAdd (str "y")) samplePremises)
  have hlooked := looked_of_admitted admitted_sample
  have hback : CreationStep.Adds samplePremises.place
      (rowless.getProject (str "y") samplePremises.server).2 samplePremises.server := by
    refine ⟨hlooked.right.symm, ?_⟩
    rw [hlooked.left]
    exact Volume.grows_refl _ _
  have hmade : ((rowless.getProject (str "y") samplePremises.server).2.outer.volume.perform
      (Effect.createDirectories ((rowless.getProject (str "y") samplePremises.server).2.below
        (append (str "/") (str "y"))))).isSome = true := by
    rw [Server.below, hlooked.left, hlooked.right]
    decide
  rcases Option.isSome_iff_exists.mp hmade with ⟨volume, hvolume⟩
  have hseen : forall files, FsCache.Answering (rowless.seen files) :=
    fun files => files.answering_disk
  have hdirectory := createDirectory_done hseen rfl hvolume
  have hrun : Chain.run (CreationStep.take rowless)
      (CreationRequest.projectAdd (str "y")).steps
      (rowless.getProject (str "y") samplePremises.server).2 = _ :=
    run_directory (append (str "/") (str "y")) _
  rw [hdirectory] at hrun
  have hidle := hspared.row admitted_sample hrun (Option.some_ne_none _) _
    List.mem_cons_self
  have hthere := CreationStep.idle_of_adds hback hidle [Component.name (str "p")] (str "y") []
    (by decide) (by decide)
  exact absurd hthere (by decide)

end Websocket
end CisWebui
