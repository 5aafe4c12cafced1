import CisWebui.Cis.Registry

/-!
# The connections of the core

A core connection authenticates for a session and then sends its log entries.
The handlers keep the session in `ctx.session`, and the handler of `log_entry`
calls it whether or not there is one.  This module runs the sessions together
with a record of what each `log_entry` has done.
-/

namespace CisWebui
namespace Cis

open Cpp
open Foundation

/-!
## The handler of a log entry
-/

/-- What the handler of `log_entry` does, one act after the other. -/
inductive CoreAct where
  | closeQueue
  | log (session : Option Nat)
deriving DecidableEq, Repr

/-- The acts of the handler; there is no `return` after the queue is closed. -/
def logEntryActs (session : Option Nat) : List CoreAct :=
  match session with
  | none => [CoreAct.closeQueue, CoreAct.log none]
  | some o => [CoreAct.log (some o)]

namespace State

/-- What an act does to the sessions; the queue is not one of them. -/
def runAct (entry : LogEntry) (s : State) : CoreAct -> Except Fault State
  | CoreAct.closeQueue => Except.ok s
  | CoreAct.log none => Except.error Fault.nullSession
  | CoreAct.log (some o) => Except.ok (s.log o entry)

theorem handleLogEntry_eq (s : State) (core : Nat) (entry : LogEntry) :
    s.handleLogEntry core entry =
      (logEntryActs (s.cores core)).foldlM (runAct entry) s := by
  unfold handleLogEntry
  cases s.cores core <;> rfl

end State

/-!
## The sessions with a record
-/

/-- A call of the handler: the id and the session of the latest `session_auth`
of the connection, the acts, and the id of the session they concern. -/
structure LogCall where
  authenticated : Option (Str × Nat)
  acts : List CoreAct
  target : Option Str
deriving DecidableEq, Repr

/-- The entry goes to the session the connection has authenticated for; before
that, the queue is closed and nothing else is done. -/
def LogCall.Right (c : LogCall) : Prop :=
  match c.authenticated with
  | none => c.acts = [CoreAct.closeQueue]
  | some (sessionId, o) =>
      c.acts = [CoreAct.log (some o)] ∧ c.target = some sessionId

/-- The sessions; for each core connection what `connect` has returned to its
latest `session_auth`; the calls of the `log_entry` handler; and whether one of
them has used a null pointer. -/
structure CoreRun where
  state : State
  authenticated : Nat -> Option (Str × Nat)
  calls : List LogCall
  crashed : Bool

namespace CoreRun

/-- What `connect` returns for a `session_auth`. -/
def connected (s : State) (sessionId : Str) : Option (Str × Nat) :=
  (s.connect sessionId).toOption.map fun result => (sessionId, result.2)

/-- The record of an event. -/
def noted (r : CoreRun) : Event -> CoreRun
  | Event.auth core sessionId =>
      { r with
        authenticated := Function.update r.authenticated core
          (connected r.state sessionId) }
  | Event.disconnect core =>
      { r with authenticated := Function.update r.authenticated core none }
  | Event.logEntry core _ =>
      { r with
        calls := r.calls ++
          [{ authenticated := r.authenticated core
             acts := logEntryActs (r.state.cores core)
             target := (r.state.cores core).map fun o => (r.state.objects o).id }] }
  | _ => r

/-- The state after an event has been handled. -/
def handled (r : CoreRun) : Except Fault State -> CoreRun
  | Except.ok t => { r with state := t }
  | Except.error _ => { r with crashed := true }

def step (r : CoreRun) (event : Event) : Option CoreRun :=
  if r.crashed then none
  else if event.Enabled r.state then
    some ((r.noted event).handled (r.state.handle event))
  else none

def initial : CoreRun where
  state := State.initial
  authenticated := fun _ => none
  calls := []
  crashed := false

/-- The server as far as its sessions go, with the record. -/
def system : EventSystem CoreRun Event where
  init := initial
  step := step

@[simp] theorem noted_state (r : CoreRun) (event : Event) :
    (r.noted event).state = r.state := by
  cases event <;> rfl

@[simp] theorem noted_crashed (r : CoreRun) (event : Event) :
    (r.noted event).crashed = r.crashed := by
  cases event <;> rfl

/-- Without the record a run is one of the sessions. -/
theorem reachable_state {r : CoreRun} (hr : system.Reachable r) :
    sessionSystem.Reachable r.state := by
  have hstep : forall r event q, sessionSystem.Reachable r.state ->
      system.step r event = some q -> sessionSystem.Reachable q.state := by
    intro r event q hreach hstep
    simp only [system, step] at hstep
    split at hstep
    · cases hstep
    split at hstep
    · rename_i henabled
      cases hstep
      cases hhandle : r.state.handle event with
      | error fault =>
          show sessionSystem.Reachable (r.noted event).state
          rw [noted_state]
          exact hreach
      | ok t =>
          rcases hreach with ⟨es, hrun⟩
          refine ⟨es ++ [event], ?_⟩
          rw [EventSystem.runFrom_append, hrun, Option.bind_some,
            EventSystem.runFrom_cons]
          simp [sessionSystem, henabled, hhandle, handled, Except.toOption]
    · cases hstep
  exact EventSystem.invariant_of_reachable ⟨[], rfl⟩ hstep hr

end CoreRun

namespace State

/-!
## Who changes `ctx.session`

Only `session_auth` and the end of the connection do.
-/

@[simp] theorem setObject_cores (s : State) (o : Nat) (object : SessionObject) :
    (s.setObject o object).cores = s.cores := rfl

@[simp] theorem acquire_cores (s : State) (o : Nat) (owner : Owner) :
    (s.acquire o owner).cores = s.cores := rfl

@[simp] theorem create_cores (s : State) (object : SessionObject)
    (owners : List Owner) : (s.create object owners).cores = s.cores := rfl

@[simp] theorem setSubscriber_cores (s : State) (number : Nat)
    (subscriber : Subscriber) :
    (s.setSubscriber number subscriber).cores = s.cores := rfl

@[simp] theorem setHandlers_cores (s : State) (connection : Nat)
    (handlers : SortedMap HandlerId Nat) :
    (s.setHandlers connection handlers).cores = s.cores := rfl

@[simp] theorem holdInCall_cores (s : State) (number : Nat) :
    (s.holdInCall number).cores = s.cores := rfl

@[simp] theorem send_cores (s : State) (number : Nat)
    (notification : Notification) :
    (s.send number notification).cores = s.cores := rfl

@[simp] theorem release_cores (s : State) (o : Nat) (owner : Owner) :
    (s.release o owner).cores = s.cores := by
  unfold release
  split <;> rfl

@[simp] theorem resetSession_cores (s : State) (number : Nat) :
    (s.resetSession number).cores = s.cores := by
  unfold resetSession
  split
  · rfl
  · rw [release_cores, setSubscriber_cores]

@[simp] theorem setSession_cores (s : State) (number o : Nat) :
    (s.setSession number o).cores = s.cores := by
  simp only [setSession, setSubscriber_cores, resetSession_cores, acquire_cores]

@[simp] theorem dropSubscriber_cores (s : State) (number : Nat) :
    (s.dropSubscriber number).cores = s.cores := by
  unfold dropSubscriber
  split
  · rfl
  · exact resetSession_cores s number

@[simp] theorem leaveCall_cores (s : State) (number : Nat) :
    (s.leaveCall number).cores = s.cores :=
  dropSubscriber_cores _ number

@[simp] theorem removeCloseHandler_cores (s : State) (connection : Nat)
    (id : HandlerId) : (s.removeCloseHandler connection id).cores = s.cores := by
  unfold removeCloseHandler
  split
  · rfl
  · rw [dropSubscriber_cores, setHandlers_cores]

@[simp] theorem unsubscribe_cores (s : State) (number : Nat) :
    (s.unsubscribe number).cores = s.cores := by
  have hreset : ((s.resetSession number).markEnded number).cores = s.cores :=
    resetSession_cores s number
  unfold unsubscribe
  dsimp only
  split
  · exact hreset
  · rw [removeCloseHandler_cores]
    exact hreset

@[simp] theorem sessionNotEstablished_cores (s : State) (number : Nat) :
    (s.sessionNotEstablished number).cores = s.cores :=
  unsubscribe_cores _ number

@[simp] theorem sessionClosed_cores (s : State) (number : Nat) :
    (s.sessionClosed number).cores = s.cores :=
  unsubscribe_cores _ number

theorem foldl_cores {α : Type} {f : State -> α -> State}
    (hf : forall s a, (f s a).cores = s.cores) (l : List α) (s : State) :
    (l.foldl f s).cores = s.cores := by
  induction l generalizing s with
  | nil => rfl
  | cons a rest ih =>
      rw [List.foldl_cons, ih, hf]

theorem forEach_cores (s : State) (o : Nat) {f : Nat -> State -> State}
    (hf : forall number s, (f number s).cores = s.cores) :
    (s.forEach o f).cores = s.cores := by
  apply foldl_cores
  intro s entry
  unfold withLocked
  split
  · rw [leaveCall_cores, hf, holdInCall_cores]
  · rfl

@[simp] theorem establish_cores (s : State) (o : Nat) :
    (s.establish o).cores = s.cores := by
  unfold establish
  split <;> rfl

@[simp] theorem log_cores (s : State) (o : Nat) (entry : LogEntry) :
    (s.log o entry).cores = s.cores :=
  forEach_cores _ o fun _ _ => rfl

@[simp] theorem replay_cores (s : State) (o number : Nat) :
    (s.replay o number).cores = s.cores :=
  foldl_cores (fun s _ => send_cores s number _) _ s

@[simp] theorem sessionSubscribe_cores (s : State) (o wsSessionId number : Nat) :
    (s.sessionSubscribe o wsSessionId number).cores = s.cores := by
  have hregister : (((s.note o number).replay o number).register o wsSessionId
      number).cores = s.cores :=
    replay_cores (s.note o number) o number
  unfold sessionSubscribe
  dsimp only
  split
  · rw [sessionNotEstablished_cores]
    rfl
  · rw [sessionClosed_cores, hregister]
  · exact hregister
  · rw [sessionClosed_cores, hregister]

@[simp] theorem finish_cores (s : State) (o : Nat) :
    (s.finish o).cores = s.cores := by
  unfold finish
  split
  · rfl
  · exact forEach_cores _ o fun number s => sessionClosed_cores s number

@[simp] theorem onTimer_cores (s : State) (o : Nat) (aborted : Bool) :
    (s.onTimer o aborted).cores = s.cores := by
  unfold onTimer
  split
  · rfl
  split
  · exact forEach_cores _ o fun number s => sessionNotEstablished_cores s number
  · rfl

@[simp] theorem emplaceSession_cores (s : State) (sessionId : Str) (o : Nat) :
    (s.emplaceSession sessionId o).1.cores = s.cores := by
  unfold emplaceSession
  split <;> rfl

theorem connect_cores {s t : State} {sessionId : Str} {o : Nat}
    (h : s.connect sessionId = Except.ok (t, o)) : t.cores = s.cores := by
  unfold connect at h
  split at h
  · split at h
    · cases h
      simp only [establish_cores, acquire_cores]
    · cases h
  · dsimp only at h
    split at h
    · cases h
      simp only [establish_cores, emplaceSession_cores, newSession, create_cores]
    · cases h

theorem subscribeToNew_cores {s t : State} {sessionId : Str}
    {o wsSessionId number : Nat}
    (h : s.subscribeToNew sessionId o wsSessionId number = Except.ok t) :
    t.cores = s.cores := by
  unfold subscribeToNew at h
  dsimp only at h
  split at h
  · cases h
    simp only [release_cores, setSession_cores, sessionSubscribe_cores,
      emplaceSession_cores]
  · cases h

theorem subscribe_cores {s t : State} {sessionId : Str}
    {wsSessionId number : Nat} {combinedLog : Option (List LogEntry)}
    (h : s.subscribe sessionId wsSessionId number combinedLog = Except.ok t) :
    t.cores = s.cores := by
  unfold subscribe at h
  split at h
  · split at h
    · cases h
      simp only [release_cores, setSession_cores, sessionSubscribe_cores,
        acquire_cores]
    · cases h
      rfl
  · split at h
    · rw [subscribeToNew_cores h]
      rfl
    · rw [subscribeToNew_cores h]
      rfl

theorem handleSubscribe_cores {s t : State} {connection : Nat} {sessionId : Str}
    {combinedLog : Option (List LogEntry)} {memory : HandlerId}
    (h : s.handleSubscribe connection sessionId combinedLog memory =
      Except.ok t) : t.cores = s.cores := by
  unfold handleSubscribe at h
  dsimp only at h
  cases hsubscribe : (s.newSubscriber sessionId connection memory).subscribe
      sessionId connection s.nextSubscriber combinedLog with
  | error fault =>
      rw [hsubscribe] at h
      cases h
  | ok u =>
      rw [hsubscribe] at h
      cases h
      have hkeep : (u.keepUntilClosed connection s.nextSubscriber).cores =
          u.cores := rfl
      rw [leaveCall_cores, hkeep, subscribe_cores hsubscribe]
      rfl

@[simp] theorem handleUnsubscribe_cores (s : State) (connection : Nat)
    (sessionId : Str) : (s.handleUnsubscribe connection sessionId).cores =
      s.cores := by
  unfold handleUnsubscribe
  split
  · rfl
  · rw [leaveCall_cores, unsubscribe_cores, holdInCall_cores]

@[simp] theorem closeConnection_cores (s : State) (connection : Nat) :
    (s.closeConnection connection).cores = s.cores :=
  foldl_cores
    (fun s (entry : HandlerId × Nat) => dropSubscriber_cores s entry.2) _ _

@[simp] theorem finishSession_cores (s : State) (sessionId : Str) :
    (s.finishSession sessionId).cores = s.cores := by
  unfold finishSession
  dsimp only
  split
  · rfl
  split
  · simp only [release_cores, finish_cores, acquire_cores]
  · rfl

theorem releaseCore_cores (s : State) (core : Nat) :
    (s.releaseCore core).cores = Function.update s.cores core none := by
  unfold releaseCore
  split
  · rename_i hnone
    rw [← hnone, Function.update_eq_self]
  · rw [release_cores]

/-- The object `connect` returns has the id it was asked for. -/
theorem connect_id {s t : State} (h : s.Registry) {sessionId : Str} {o : Nat}
    (hconnect : s.connect sessionId = Except.ok (t, o)) :
    (t.objects o).id = sessionId := by
  unfold connect at hconnect
  split at hconnect
  · rename_i p hfind
    split at hconnect
    · cases hconnect
      rw [(letsGo_establish _ o).id_eq]
      exact (h.alive_of_sessions hfind).right
    · cases hconnect
  · rename_i hfind
    dsimp only at hconnect
    rw [newSession, emplaceSession_create hfind] at hconnect
    cases hconnect
    rw [(letsGo_establish _ _).id_eq]
    simp [create]

end State

namespace State

/-- The session of each core connection after an event. -/
theorem handle_cores {s t : State} {event : Event}
    (h : s.handle event = Except.ok t)
    (hauth : forall core sessionId, event ≠ Event.auth core sessionId)
    (hend : forall core, event ≠ Event.disconnect core) :
    t.cores = s.cores := by
  cases event with
  | subscribe connection sessionId combinedLog memory =>
      exact handleSubscribe_cores h
  | unsubscribe connection sessionId =>
      cases h
      exact handleUnsubscribe_cores s connection sessionId
  | close connection =>
      cases h
      exact closeConnection_cores s connection
  | auth core sessionId => exact absurd rfl (hauth core sessionId)
  | logEntry core entry =>
      change s.handleLogEntry core entry = _ at h
      unfold handleLogEntry at h
      split at h
      · cases h
      · cases h
        exact log_cores s _ entry
  | disconnect core => exact absurd rfl (hend core)
  | finish sessionId =>
      cases h
      exact finishSession_cores s sessionId
  | timer o aborted =>
      cases h
      exact (release_cores _ o _).trans (onTimer_cores s o aborted)

/-- `session_auth` puts what `connect` has returned into `ctx.session`. -/
theorem handleAuth_cores {s : State} (h : s.Registry) (core : Nat)
    (sessionId : Str) :
    exists t o u, s.connect sessionId = Except.ok (u, o) ∧
      s.handleAuth core sessionId = Except.ok t ∧
      t.cores = Function.update s.cores core (some o) ∧
      o < t.nextObject ∧ (t.objects o).id = sessionId := by
  rcases connect_spec h sessionId with ⟨u, o, hu, hreg, _, hcall⟩
  rcases handleAuth_spec h core sessionId with ⟨t, ht, _⟩
  have heq := ht
  unfold handleAuth at heq
  rw [hu] at heq
  cases heq
  have hobject : o < u.nextObject := by
    rcases Nat.lt_or_ge o u.nextObject with hlt | hge
    · exact hlt
    · rw [hreg.owners_of_le hge] at hcall
      cases hcall
  have halive : (u.releaseCore core).Alive o :=
    List.ne_nil_of_mem (mem_call_releaseCore core hcall)
  have hassign : Grows ((u.releaseCore core).acquire o (Owner.core core))
      { (u.releaseCore core).acquire o (Owner.core core) with
        cores := Function.update (u.releaseCore core).cores core (some o) } :=
    Grows.of_eq rfl rfl rfl rfl
  have hgrows := (releaseCore_spec hreg core).right.trans
    ((Grows.acquire halive (Owner.core core)).trans
      (hassign.trans (Grows.release _ o Owner.call)))
  refine ⟨_, o, u, hu, ht, ?_, lt_of_lt_of_le hobject hgrows.nextObject_le, ?_⟩
  · rw [release_cores]
    show Function.update (u.releaseCore core).cores core (some o) = _
    rw [releaseCore_cores, Function.update_idem, connect_cores hu]
  · exact (hgrows.id_eq hobject).trans (connect_id h hu)

end State

namespace CoreRun

/-!
## The sessions that entries go to
-/

/-- Every call of the handler so far was as it should be. -/
def LogsRight (r : CoreRun) : Prop :=
  forall c, c ∈ r.calls -> c.Right

/-- An entry arrives on a connection that has authenticated since it was
opened.  All other events are unrestricted. -/
def Authenticated (r : CoreRun) : Event -> Prop
  | Event.logEntry core _ => r.authenticated core ≠ none
  | _ => True

/-- `ctx.session` is what the record says. -/
def Holds (s : State) (core : Nat) : Option (Str × Nat) -> Prop
  | none => s.cores core = none
  | some (sessionId, o) =>
      s.cores core = some o ∧ o < s.nextObject ∧ (s.objects o).id = sessionId

/-- The inductive form of `LogsRight`. -/
structure Recorded (r : CoreRun) : Prop where
  registry : r.state.Registry
  holds : forall core, Holds r.state core (r.authenticated core)
  right : r.LogsRight

theorem holds_of_grows {s t : State} (hgrows : State.Grows s t) {core : Nat}
    (hcores : t.cores core = s.cores core) {session : Option (Str × Nat)}
    (h : Holds s core session) : Holds t core session := by
  cases session with
  | none => exact hcores.trans h
  | some pair =>
      rcases h with ⟨hcore, hlt, hid⟩
      exact ⟨hcores.trans hcore, lt_of_lt_of_le hlt hgrows.nextObject_le,
        (hgrows.id_eq hlt).trans hid⟩

theorem holds_called {s : State} {core : Nat} {session : Option (Str × Nat)}
    (event : Event) (h : Holds s core session) :
    Holds (s.called event) core session := by
  cases event <;> exact h

/-- `session_auth` and the end of the connection keep the record right. -/
theorem recorded_auth {r : CoreRun} (hr : Recorded r) (core : Nat)
    (sessionId : Str) :
    Recorded ((r.noted (Event.auth core sessionId)).handled
      (r.state.handle (Event.auth core sessionId))) := by
  rcases State.handleAuth_cores hr.registry core sessionId with
    ⟨t, o, u, hconnect, ht, hcores, hlt, hid⟩
  rcases State.handleAuth_spec hr.registry core sessionId with
    ⟨t', ht', hreg, hgrows⟩
  rw [ht] at ht'
  cases ht'
  have hhandle : r.state.handle (Event.auth core sessionId) = Except.ok t := ht
  rw [hhandle]
  refine ⟨hreg, ?_, hr.right⟩
  intro other
  show Holds t other (Function.update r.authenticated core
    (connected r.state sessionId) other)
  rcases eq_or_ne other core with rfl | hne
  · have hconnected : connected r.state sessionId = some (sessionId, o) := by
      simp [connected, hconnect, Except.toOption]
    rw [Function.update_self, hconnected]
    refine ⟨?_, hlt, hid⟩
    rw [hcores, Function.update_self]
  · rw [Function.update_of_ne hne]
    apply holds_of_grows hgrows ?_ (hr.holds other)
    rw [hcores, Function.update_of_ne hne]

theorem recorded_disconnect {r : CoreRun} (hr : Recorded r) (core : Nat) :
    Recorded ((r.noted (Event.disconnect core)).handled
      (r.state.handle (Event.disconnect core))) := by
  rcases State.releaseCore_spec hr.registry core with ⟨hreg, hgrows⟩
  refine ⟨hreg, ?_, hr.right⟩
  intro other
  show Holds (r.state.releaseCore core) other
    (Function.update r.authenticated core none other)
  rcases eq_or_ne other core with rfl | hne
  · rw [Function.update_self]
    show (r.state.releaseCore other).cores other = none
    rw [State.releaseCore_cores, Function.update_self]
  · rw [Function.update_of_ne hne]
    apply holds_of_grows hgrows ?_ (hr.holds other)
    rw [State.releaseCore_cores, Function.update_of_ne hne]

/-- An event that is not about a core connection. -/
theorem recorded_other {r : CoreRun} {event : Event} (hr : Recorded r)
    (hauth : forall core sessionId, event ≠ Event.auth core sessionId)
    (hend : forall core, event ≠ Event.disconnect core)
    (hlog : forall core entry, event ≠ Event.logEntry core entry) :
    Recorded ((r.noted event).handled (r.state.handle event)) := by
  have hnoted : r.noted event = r := by
    cases event with
    | auth core sessionId => exact absurd rfl (hauth core sessionId)
    | disconnect core => exact absurd rfl (hend core)
    | logEntry core entry => exact absurd rfl (hlog core entry)
    | _ => rfl
  rw [hnoted]
  rcases State.handle_cases hr.registry event with
    ⟨t, ht, hreg, hgrows⟩ | hfault
  · rw [ht]
    refine ⟨hreg, ?_, hr.right⟩
    intro core
    apply holds_of_grows hgrows ?_ (holds_called event (hr.holds core))
    rw [State.handle_cores ht hauth hend]
    cases event <;> rfl
  · rw [hfault]
    exact ⟨hr.registry, hr.holds, hr.right⟩

/-- The call of the handler on a connection that has authenticated. -/
theorem right_of_authenticated {r : CoreRun} (hr : Recorded r) {core : Nat}
    (hauth : r.authenticated core ≠ none) :
    LogCall.Right
      { authenticated := r.authenticated core
        acts := logEntryActs (r.state.cores core)
        target := (r.state.cores core).map fun o => (r.state.objects o).id } := by
  have hholds := hr.holds core
  cases hsession : r.authenticated core with
  | none => exact absurd hsession hauth
  | some pair =>
      rw [hsession] at hholds
      rcases hholds with ⟨hcore, _, hid⟩
      rw [hcore]
      exact ⟨rfl, congrArg some hid⟩

theorem recorded_logEntry {r : CoreRun} (hr : Recorded r) {core : Nat}
    (entry : LogEntry) (hauth : r.authenticated core ≠ none) :
    Recorded ((r.noted (Event.logEntry core entry)).handled
      (r.state.handle (Event.logEntry core entry))) := by
  have hright : LogsRight (r.noted (Event.logEntry core entry)) := by
    intro c hc
    rcases List.mem_append.mp hc with hold | hnew
    · exact hr.right c hold
    · rw [List.mem_singleton.mp hnew]
      exact right_of_authenticated hr hauth
  cases hcore : r.state.cores core with
  | none =>
      have hhandle : r.state.handle (Event.logEntry core entry) =
          Except.error Fault.nullSession := by
        simp only [State.handle, State.handleLogEntry, hcore]
      rw [hhandle]
      exact ⟨hr.registry, hr.holds, hright⟩
  | some o =>
      have hhandle : r.state.handle (Event.logEntry core entry) =
          Except.ok (r.state.log o entry) := by
        simp only [State.handle, State.handleLogEntry, hcore]
      have hgo := State.letsGo_log r.state o entry
      rw [hhandle]
      refine ⟨hgo.registry hr.registry, ?_, hright⟩
      intro other
      exact holds_of_grows hgo.grows
        (congrFun (State.log_cores r.state o entry) other) (hr.holds other)

theorem recorded_step {r t : CoreRun} {event : Event} (hr : Recorded r)
    (hauth : Authenticated r event) (hstep : system.step r event = some t) :
    Recorded t := by
  simp only [system, step] at hstep
  split at hstep
  · cases hstep
  split at hstep
  · cases hstep
    cases event with
    | auth core sessionId => exact recorded_auth hr core sessionId
    | disconnect core => exact recorded_disconnect hr core
    | logEntry core entry => exact recorded_logEntry hr entry hauth
    | subscribe _ _ _ _ => exact recorded_other hr nofun nofun nofun
    | unsubscribe _ _ => exact recorded_other hr nofun nofun nofun
    | close _ => exact recorded_other hr nofun nofun nofun
    | finish _ => exact recorded_other hr nofun nofun nofun
    | timer _ _ => exact recorded_other hr nofun nofun nofun
  · cases hstep

/-- An entry on a connection that has not authenticated is passed to a null
pointer. -/
theorem authenticated_of_step {r t : CoreRun} {event : Event}
    (hr : Recorded r) (hstep : system.step r event = some t)
    (ht : t.LogsRight) : Authenticated r event := by
  cases event with
  | logEntry core entry =>
      intro hnone
      have hcore : r.state.cores core = none := by
        have hholds := hr.holds core
        rw [hnone] at hholds
        exact hholds
      simp only [system, step] at hstep
      split at hstep
      · cases hstep
      split at hstep
      · cases hstep
        have hhandle : r.state.handle (Event.logEntry core entry) =
            Except.error Fault.nullSession := by
          simp only [State.handle, State.handleLogEntry, hcore]
        rw [hhandle] at ht
        have hright := ht _ (List.mem_append_right r.calls
          (List.mem_singleton_self _))
        simp only [LogCall.Right, hnone, hcore, logEntryActs] at hright
        cases hright
      · cases hstep
  | _ => trivial

theorem recorded_initial : Recorded initial where
  registry := State.registry_initial
  holds := fun _ => rfl
  right := fun _ hc => absurd hc List.not_mem_nil

/-- Every entry of a run goes to the session of the latest `session_auth` of
its connection exactly when no entry comes before the first one. -/
theorem coreLogs_right_iff (es : List Event) :
    system.EveryState LogsRight system.init es <->
      system.EveryStep Authenticated system.init es := by
  refine EventSystem.everyState_iff_everyStep ?_ ?_ ?_ recorded_initial
  · intro r event t hr hauth hstep
    exact recorded_step hr hauth hstep
  · intro r event t hr hstep ht
    exact authenticated_of_step hr hstep ht
  · intro r hr
    exact hr.right

/-- A peer connects and sends a log entry at once. -/
theorem coreLogs_right_not_everywhere :
    ¬ forall es, system.EveryState LogsRight system.init es := by
  intro h
  let entry : LogEntry := { time := 0, action := [], message := [] }
  let es := [Event.logEntry 0 entry]
  let r := (system.runFrom system.init es).get (by decide)
  have hrun : system.runFrom system.init es = some r :=
    (Option.some_get _).symm
  have hright : r.LogsRight := EventSystem.everyState_last (h es) hrun
  have hcalls : r.calls = [{ authenticated := none
                             acts := [CoreAct.closeQueue, CoreAct.log none]
                             target := none }] := by
    decide
  have hfirst := hright _ (hcalls ▸ List.mem_singleton_self _)
  cases hfirst

end CoreRun

end Cis
end CisWebui
