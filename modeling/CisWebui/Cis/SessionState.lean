import Mathlib.Logic.Function.Basic
import Mathlib.Order.Fin.Basic
import Mathlib.Order.Nat
import CisWebui.Foundation.SortedMap
import CisWebui.Cpp.Bytes

/-!
# Sessions, subscribers and who holds them

A session lives as long as a `shared_ptr` to it does.  There is one in the
completion handler of its armed timer, one in every connection of the core that
has authenticated for it, one in every subscriber that has been given it, and
one in the call that works with it.  A subscriber is held by the close handler
of its connection and by the calls that work with it.  The maps of both keep
weak pointers only.

Objects and subscribers are numbered in the order of their creation.
-/

namespace CisWebui
namespace Cis

open Cpp
open Foundation

/-- `cis1::cwu::log_entry` -/
structure LogEntry where
  time : Int
  action : Str
  message : Str
deriving DecidableEq, Repr

/-- The calls of a subscriber that end in a message to its client. -/
inductive Notification where
  | logEntry (entry : LogEntry)
  | sessionNotEstablished
  | sessionClosed
deriving DecidableEq, Repr

def Notification.terminal : Notification -> Bool
  | logEntry _ => false
  | sessionNotEstablished => true
  | sessionClosed => true

/-- `session::state` -/
inductive Phase where
  | pending
  | notEstablished
  | inProgress
  | finished
deriving DecidableEq, Repr

/-- A `session` with its state, or an `offline_session`. -/
inductive Kind where
  | online (phase : Phase)
  | offline
deriving DecidableEq, Repr

/-- Whether a subscription is told the end of the session at once. -/
def Kind.over : Kind -> Bool
  | Kind.online Phase.pending => false
  | Kind.online Phase.inProgress => false
  | _ => true

/-- A session; `id` is the one its deleter has captured, `cancelled` says that
its timer has been cancelled. -/
structure SessionObject where
  id : Str
  kind : Kind
  receivedLogs : List LogEntry
  subscribers : SortedMap Nat Nat
  cancelled : Bool

/-- Where a `shared_ptr` to a session is. -/
inductive Owner where
  | call
  | timer
  | core (connection : Nat)
  | subscriber (number : Nat)
deriving DecidableEq, Repr

/-- `subscribe_id_` and the keys of `close_handlers_` -/
abbrev HandlerId := Fin (2 ^ 32)

/-- What is recorded about a subscriber: the id that `add_close_handler` has
returned for it, the session it has been passed to and what that was at the
time, and whether it has been unsubscribed. -/
structure History where
  givenId : Option HandlerId := none
  object : Option Nat := none
  found : Option Kind := none
  ended : Bool := false
deriving DecidableEq, Repr

/-- `subscriber`; its transaction is that of the connection, and `received` are
the messages sent over it. -/
structure Subscriber where
  sessionId : Str
  connection : Nat
  session : Option Nat := none
  subscribeId : HandlerId
  received : List Notification := []
  history : History := {}
deriving DecidableEq, Repr

/-- A call of `remove_close_handler`: who has called it with which id, the id
it had been given, and whose handler has been removed. -/
structure Removal where
  subscriber : Nat
  id : HandlerId
  givenId : Option HandlerId
  removed : Option Nat
deriving DecidableEq, Repr

/-- All sessions, subscribers and connections; `calls` are the subscribers held
by running calls, `removals` and `finishCalled` a record. -/
structure State where
  sessions : Str -> Option Nat
  objects : Nat -> SessionObject
  owners : Nat -> List Owner
  nextObject : Nat
  subscribers : Nat -> Subscriber
  nextSubscriber : Nat
  calls : List Nat
  closeHandlers : Nat -> SortedMap HandlerId Nat
  closed : Nat -> Bool
  cores : Nat -> Option Nat
  removals : List Removal
  finishCalled : Str -> Bool

namespace State

/-- A weak pointer to the session can be locked. -/
def Alive (s : State) (o : Nat) : Prop :=
  s.owners o ≠ []

instance (s : State) (o : Nat) : Decidable (s.Alive o) :=
  inferInstanceAs (Decidable (_ ≠ _))

/-- A close handler of its connection holds the subscriber. -/
def Attached (s : State) (number : Nat) : Prop :=
  exists e, e ∈ (s.closeHandlers (s.subscribers number).connection).entries ∧
    e.2 = number

instance (s : State) (number : Nat) : Decidable (s.Attached number) :=
  inferInstanceAs (Decidable (exists e, e ∈ _ ∧ _))

/-- A weak pointer to the subscriber can be locked. -/
def Lockable (s : State) (number : Nat) : Prop :=
  s.Attached number ∨ number ∈ s.calls

instance (s : State) (number : Nat) : Decidable (s.Lockable number) :=
  inferInstanceAs (Decidable (_ ∨ _))

/-!
## Sessions
-/

def setObject (s : State) (o : Nat) (object : SessionObject) : State :=
  { s with objects := Function.update s.objects o object }

def acquire (s : State) (o : Nat) (owner : Owner) : State :=
  { s with owners := Function.update s.owners o (owner :: s.owners o) }

/-- A `shared_ptr` goes, if it is there; with the last one the deleter runs and
erases the id. -/
def release (s : State) (o : Nat) (owner : Owner) : State :=
  if owner ∈ s.owners o then
    let left := (s.owners o).erase owner
    { s with
      owners := Function.update s.owners o left
      sessions :=
        if left = [] then Function.update s.sessions (s.objects o).id none
        else s.sessions }
  else
    s

/-- A new session, held by the call and by its other first owners. -/
def create (s : State) (object : SessionObject) (owners : List Owner) : State :=
  { s with
    objects := Function.update s.objects s.nextObject object
    owners := Function.update s.owners s.nextObject (Owner.call :: owners)
    nextObject := s.nextObject + 1 }

/-!
## Subscribers
-/

def setSubscriber (s : State) (number : Nat) (subscriber : Subscriber) : State :=
  { s with
    subscribers := Function.update s.subscribers number subscriber }

/-- `session_.reset()` -/
def resetSession (s : State) (number : Nat) : State :=
  match (s.subscribers number).session with
  | none => s
  | some o =>
      (s.setSubscriber number
        { s.subscribers number with session := none }).release o
          (Owner.subscriber number)

/-- `set_session` -/
def setSession (s : State) (number o : Nat) : State :=
  let t := (s.acquire o (Owner.subscriber number)).resetSession number
  t.setSubscriber number { t.subscribers number with session := some o }

/-- A `shared_ptr` to the subscriber has gone; its destructor runs if that was
the last one. -/
def dropSubscriber (s : State) (number : Nat) : State :=
  if s.Lockable number then s else s.resetSession number

def holdInCall (s : State) (number : Nat) : State :=
  { s with calls := number :: s.calls }

def leaveCall (s : State) (number : Nat) : State :=
  { s with calls := s.calls.erase number }.dropSubscriber number

/-- `weak_ptr::lock` and, if it succeeds, a call with the result. -/
def withLocked (s : State) (number : Nat) (f : State -> State) : State :=
  if s.Lockable number then (f (s.holdInCall number)).leaveCall number else s

/-!
## The close handlers of a connection
-/

def setHandlers (s : State) (connection : Nat)
    (handlers : SortedMap HandlerId Nat) : State :=
  { s with
    closeHandlers := Function.update s.closeHandlers connection handlers }

/-- The key `add_close_handler` makes from the last one of the map. -/
def newKey (handlers : SortedMap HandlerId Nat) : HandlerId :=
  match handlers.last? with
  | none => 0
  | some (key, _) => key - 1

/-- `add_close_handler`, with a handler that holds the subscriber. -/
def addCloseHandler (s : State) (connection number : Nat) : State × HandlerId :=
  let handlers := s.closeHandlers connection
  let key := newKey handlers
  (s.setHandlers connection (handlers.emplace key number), key)

/-- `remove_close_handler` -/
def removeCloseHandler (s : State) (connection : Nat) (id : HandlerId) : State :=
  match (s.closeHandlers connection).find? id with
  | none => s
  | some number =>
      (s.setHandlers connection
        ((s.closeHandlers connection).erase id)).dropSubscriber number

/-!
## The methods of a subscriber
-/

/-- `tr_.send` -/
def send (s : State) (number : Nat) (notification : Notification) : State :=
  let subscriber := s.subscribers number
  s.setSubscriber number
    { subscriber with received := subscriber.received ++ [notification] }

/-- A record that the subscriber has been unsubscribed. -/
def markEnded (s : State) (number : Nat) : State :=
  let subscriber := s.subscribers number
  s.setSubscriber number
    { subscriber with history := { subscriber.history with ended := true } }

/-- A record of the call of `remove_close_handler` that follows. -/
def noteRemoval (s : State) (number : Nat) : State :=
  let subscriber := s.subscribers number
  { s with
    removals := s.removals ++
      [{ subscriber := number
         id := subscriber.subscribeId
         givenId := subscriber.history.givenId
         removed := (s.closeHandlers subscriber.connection).find?
           subscriber.subscribeId }] }

/-- `subscriber::unsubscribe`; the queue is gone when the connection is. -/
def unsubscribe (s : State) (number : Nat) : State :=
  let s := (s.resetSession number).markEnded number
  let subscriber := s.subscribers number
  if s.closed subscriber.connection then
    s
  else
    (s.noteRemoval number).removeCloseHandler subscriber.connection
      subscriber.subscribeId

/-- `subscriber::log_entry` -/
def logEntry (s : State) (number : Nat) (entry : LogEntry) : State :=
  s.send number (Notification.logEntry entry)

/-- `subscriber::session_not_established` -/
def sessionNotEstablished (s : State) (number : Nat) : State :=
  (s.send number Notification.sessionNotEstablished).unsubscribe number

/-- `subscriber::session_closed` -/
def sessionClosed (s : State) (number : Nat) : State :=
  (s.send number Notification.sessionClosed).unsubscribe number

end State

end Cis
end CisWebui
