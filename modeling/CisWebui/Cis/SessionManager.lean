import CisWebui.Cis.SessionState
import CisWebui.Foundation.EventSystem

/-!
# The session manager and its callers

The sessions as an event system.  The events are what the `io_context` can
deliver: a request of a WebSocket connection, its end, a message of a core
connection, its end, the end of a job, and the completion of a timer.  What a
step meets and cannot know is in its event: what the member `subscribe_id_` of
a new subscriber holds before it is assigned, and what there is in the combined
log of a session.
-/

namespace CisWebui
namespace Cis

open Cpp
open Foundation

namespace State

/-!
## Sessions
-/

/-- The loop over `subscribers_`. -/
def forEach (s : State) (o : Nat) (f : Nat -> State -> State) : State :=
  (s.objects o).subscribers.entries.foldl
    (fun s entry => s.withLocked entry.2 (f entry.2)) s

/-- `session::establish`, and `offline_session::establish`, which is empty. -/
def establish (s : State) (o : Nat) : State :=
  match (s.objects o).kind with
  | Kind.offline => s
  | Kind.online _ =>
      s.setObject o
        { s.objects o with
          kind := Kind.online Phase.inProgress
          cancelled := true }

/-- `log`, which both kinds have. -/
def log (s : State) (o : Nat) (entry : LogEntry) : State :=
  (s.setObject o
    { s.objects o with
      receivedLogs := (s.objects o).receivedLogs ++ [entry] }).forEach o
        fun number s => s.logEntry number entry

/-- A record of the session a subscriber has been passed to. -/
def note (s : State) (o number : Nat) : State :=
  let subscriber := s.subscribers number
  s.setSubscriber number
    { subscriber with
      history :=
        { subscriber.history with
          object := some o
          found := some (s.objects o).kind } }

/-- The loop over `received_logs_`. -/
def replay (s : State) (o number : Nat) : State :=
  (s.objects o).receivedLogs.foldl (fun s entry => s.logEntry number entry) s

/-- `subscribers_.emplace` -/
def register (s : State) (o wsSessionId number : Nat) : State :=
  s.setObject o
    { s.objects o with
      subscribers := (s.objects o).subscribers.emplace wsSessionId number }

/-- `session::subscribe` and `offline_session::subscribe` -/
def sessionSubscribe (s : State) (o wsSessionId number : Nat) : State :=
  let s := s.note o number
  match (s.objects o).kind with
  | Kind.online Phase.notEstablished => s.sessionNotEstablished number
  | Kind.online Phase.finished =>
      ((s.replay o number).register o wsSessionId number).sessionClosed number
  | Kind.online _ => (s.replay o number).register o wsSessionId number
  | Kind.offline =>
      ((s.replay o number).register o wsSessionId number).sessionClosed number

/-- `session::finish`, and `offline_session::finish`, which is empty. -/
def finish (s : State) (o : Nat) : State :=
  match (s.objects o).kind with
  | Kind.offline => s
  | Kind.online _ =>
      (s.setObject o
        { s.objects o with kind := Kind.online Phase.finished }).forEach o
          fun number s => s.sessionClosed number

/-- `session::on_timer` -/
def onTimer (s : State) (o : Nat) (aborted : Bool) : State :=
  if aborted then
    s
  else if (s.objects o).kind = Kind.online Phase.pending then
    (s.setObject o
      { s.objects o with kind := Kind.online Phase.notEstablished }).forEach o
        fun number s => s.sessionNotEstablished number
  else
    s

end State

/-!
## The manager
-/

/-- What must not happen: a null pointer is used, or an assertion fails. -/
inductive Fault where
  | nullSession
  | expiredSession
  | notEmplaced
deriving DecidableEq, Repr

namespace State

/-- `sessions_.emplace`, and whether it has succeeded. -/
def emplaceSession (s : State) (sessionId : Str) (o : Nat) : State × Bool :=
  match s.sessions sessionId with
  | none => ({ s with sessions := Function.update s.sessions sessionId (some o) }, true)
  | some _ => (s, false)

/-- A new `session` with `init_timer` called. -/
def newSession (s : State) (sessionId : Str) : State :=
  s.create
    { id := sessionId
      kind := Kind.online Phase.pending
      receivedLogs := []
      subscribers := SortedMap.empty
      cancelled := false } [Owner.timer]

/-- A new `offline_session` with what it has read. -/
def newOfflineSession (s : State) (sessionId : Str) (logs : List LogEntry) :
    State :=
  s.create
    { id := sessionId
      kind := Kind.offline
      receivedLogs := logs
      subscribers := SortedMap.empty
      cancelled := false } []

/-- `session_manager::connect`; the call holds the session it returns. -/
def connect (s : State) (sessionId : Str) : Except Fault (State × Nat) :=
  match s.sessions sessionId with
  | some o =>
      if s.Alive o then
        Except.ok ((s.acquire o Owner.call).establish o, o)
      else
        Except.error Fault.expiredSession
  | none =>
      let o := s.nextObject
      let (s, success) := (s.newSession sessionId).emplaceSession sessionId o
      let s := s.establish o
      if success then Except.ok (s, o) else Except.error Fault.notEmplaced

/-- The rest of `session_manager::subscribe` for a session the call has made. -/
def subscribeToNew (s : State) (sessionId : Str) (o wsSessionId number : Nat) :
    Except Fault State :=
  let (s, success) := s.emplaceSession sessionId o
  let s := (s.sessionSubscribe o wsSessionId number).setSession number o
  if success then Except.ok (s.release o Owner.call)
  else Except.error Fault.notEmplaced

/-- `session_manager::subscribe`, with what there is in the combined log. -/
def subscribe (s : State) (sessionId : Str) (wsSessionId number : Nat)
    (combinedLog : Option (List LogEntry)) : Except Fault State :=
  match s.sessions sessionId with
  | some o =>
      if s.Alive o then
        let s := s.acquire o Owner.call
        let s := (s.sessionSubscribe o wsSessionId number).setSession number o
        Except.ok (s.release o Owner.call)
      else
        Except.ok s
  | none =>
      match combinedLog with
      | some logs =>
          (s.newOfflineSession sessionId logs).subscribeToNew sessionId
            s.nextObject wsSessionId number
      | none =>
          (s.newSession sessionId).subscribeToNew sessionId s.nextObject
            wsSessionId number

/-- `session_manager::get_subscriber`; the session locked for it is held by
others too. -/
def getSubscriber (s : State) (sessionId : Str) (wsSessionId : Nat) :
    Option Nat :=
  (s.sessions sessionId).bind fun o =>
    if s.Alive o then
      ((s.objects o).subscribers.find? wsSessionId).bind fun number =>
        if s.Lockable number then some number else none
    else
      none

/-- `session_manager::finish_session` -/
def finishSession (s : State) (sessionId : Str) : State :=
  let s :=
    { s with finishCalled := Function.update s.finishCalled sessionId true }
  match s.sessions sessionId with
  | none => s
  | some o =>
      if s.Alive o then
        ((s.acquire o Owner.call).finish o).release o Owner.call
      else
        s

/-!
## The handlers
-/

/-- `make_shared<subscriber>` -/
def newSubscriber (s : State) (sessionId : Str) (connection : Nat)
    (memory : HandlerId) : State :=
  { (s.setSubscriber s.nextSubscriber
      { sessionId := sessionId
        connection := connection
        subscribeId := memory }).holdInCall s.nextSubscriber with
    nextSubscriber := s.nextSubscriber + 1 }

/-- `add_close_handler` and `set_subscribe_id` -/
def keepUntilClosed (s : State) (connection number : Nat) : State :=
  let (s, id) := s.addCloseHandler connection number
  let subscriber := s.subscribers number
  s.setSubscriber number
    { subscriber with
      subscribeId := id
      history := { subscriber.history with givenId := some id } }

/-- `session_subscribe`; the id of the connection is its `ctx.session_id`. -/
def handleSubscribe (s : State) (connection : Nat) (sessionId : Str)
    (combinedLog : Option (List LogEntry)) (memory : HandlerId) :
    Except Fault State :=
  let number := s.nextSubscriber
  let s := s.newSubscriber sessionId connection memory
  (s.subscribe sessionId connection number combinedLog).map fun s =>
    (s.keepUntilClosed connection number).leaveCall number

/-- `session_unsubscribe` -/
def handleUnsubscribe (s : State) (connection : Nat) (sessionId : Str) : State :=
  match s.getSubscriber sessionId connection with
  | none => s
  | some number =>
      ((s.holdInCall number).unsubscribe number).leaveCall number

/-- The end of a connection: the queue goes, and the handlers with it. -/
def closeConnection (s : State) (connection : Nat) : State :=
  (s.closeHandlers connection).entries.foldl
    (fun s entry => s.dropSubscriber entry.2)
    { s.setHandlers connection SortedMap.empty with
      closed := Function.update s.closed connection true }

/-- `ctx.session` goes or is about to be assigned. -/
def releaseCore (s : State) (core : Nat) : State :=
  match s.cores core with
  | none => s
  | some o =>
      { s with cores := Function.update s.cores core none }.release o
        (Owner.core core)

/-- The handler of `session_auth`: the result of `connect` is moved into
`ctx.session`. -/
def handleAuth (s : State) (core : Nat) (sessionId : Str) :
    Except Fault State :=
  (s.connect sessionId).map fun (s, o) =>
    let s := (s.releaseCore core).acquire o (Owner.core core)
    { s with cores := Function.update s.cores core (some o) }.release o
      Owner.call

/-- The handler of `log_entry`, which goes on without a session. -/
def handleLogEntry (s : State) (core : Nat) (entry : LogEntry) :
    Except Fault State :=
  match s.cores core with
  | none => Except.error Fault.nullSession
  | some o => Except.ok (s.log o entry)

/-- The completion of the timer, whose handler holds the session. -/
def timerCompletes (s : State) (o : Nat) (aborted : Bool) : State :=
  (s.onTimer o aborted).release o Owner.timer

end State

/-!
## The event system
-/

inductive Event where
  | subscribe (connection : Nat) (sessionId : Str)
      (combinedLog : Option (List LogEntry)) (memory : HandlerId)
  | unsubscribe (connection : Nat) (sessionId : Str)
  | close (connection : Nat)
  | auth (core : Nat) (sessionId : Str)
  | logEntry (core : Nat) (entry : LogEntry)
  | disconnect (core : Nat)
  | finish (sessionId : Str)
  | timer (object : Nat) (aborted : Bool)
deriving DecidableEq, Repr

/-- When an event can occur: requests come from open connections, and a timer
completes once, with an error only if it has been cancelled. -/
def Event.Enabled (s : State) : Event -> Prop
  | subscribe connection _ _ _ => s.closed connection = false
  | unsubscribe connection _ => s.closed connection = false
  | close connection => s.closed connection = false
  | timer o aborted =>
      Owner.timer ∈ s.owners o ∧ (aborted = true -> (s.objects o).cancelled = true)
  | _ => True

instance (s : State) (event : Event) : Decidable (event.Enabled s) := by
  cases event <;> unfold Event.Enabled <;> infer_instance

def State.handle (s : State) : Event -> Except Fault State
  | Event.subscribe connection sessionId combinedLog memory =>
      s.handleSubscribe connection sessionId combinedLog memory
  | Event.unsubscribe connection sessionId =>
      Except.ok (s.handleUnsubscribe connection sessionId)
  | Event.close connection => Except.ok (s.closeConnection connection)
  | Event.auth core sessionId => s.handleAuth core sessionId
  | Event.logEntry core entry => s.handleLogEntry core entry
  | Event.disconnect core => Except.ok (s.releaseCore core)
  | Event.finish sessionId => Except.ok (s.finishSession sessionId)
  | Event.timer o aborted => Except.ok (s.timerCompletes o aborted)

def State.initial : State where
  sessions := fun _ => none
  objects := fun _ =>
    { id := []
      kind := Kind.offline
      receivedLogs := []
      subscribers := SortedMap.empty
      cancelled := false }
  owners := fun _ => []
  nextObject := 0
  subscribers := fun _ => { sessionId := [], connection := 0, subscribeId := 0 }
  nextSubscriber := 0
  calls := []
  closeHandlers := fun _ => SortedMap.empty
  closed := fun _ => false
  cores := fun _ => none
  removals := []
  finishCalled := fun _ => false

/-- The server as far as its sessions go; a fault ends a run. -/
def sessionSystem : EventSystem State Event where
  init := State.initial
  step := fun s event =>
    if event.Enabled s then (s.handle event).toOption else none

end Cis
end CisWebui
