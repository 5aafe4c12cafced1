import CisWebui.Foundation.EventSystem
import CisWebui.Cpp.Bytes

/-!
# The queued WebSocket session

`queued_websocket_session` and its `websocket_queue` as an event system.  The
events are what the `io_context` can deliver on the session's strand: the
completion of a read or of a write, and a message pushed by some other part of
the server.  Reading is restarted in two places, at the end of `on_read` and,
when the queue was at its limit, at the end of `on_write`.
-/

namespace CisWebui
namespace Net

open Foundation
open Cpp

/-- The outcomes of an asynchronous operation that the session tells apart. -/
inductive IoResult where
  | ok
  | operationAborted
  | closed
  | failed
deriving DecidableEq, Repr

/-- A queued message: `websocket_queue::message` without its callback. -/
structure Message where
  text : Bool
  buffer : Str
deriving DecidableEq, Repr

/--
The reading side of the session.  Only `pending` steers the session; the other
fields record that a read has completed with an error, that bytes were handed
to the request handler after that, and that a read was started after that.
-/
structure ReadState where
  pending : Nat
  failed : Bool
  handledAfterError : Bool
  startedAfterError : Bool
deriving DecidableEq, Repr

/-- The session and its queue; `wire` lists the writes started so far. -/
structure QueuedWebsocketSession where
  reads : ReadState
  messages : List Message
  writing : Bool
  wire : List Message
deriving DecidableEq, Repr

namespace WebsocketQueue

/-- `websocket_queue::limit` -/
def limit : Nat := 64

end WebsocketQueue

namespace QueuedWebsocketSession

/-!
## The operations
-/

/-- `websocket_queue::is_full` -/
def isFull (s : QueuedWebsocketSession) : Bool :=
  decide (WebsocketQueue.limit <= s.messages.length)

/-- `websocket_queue::send`: start writing the front message. -/
def sendFront (s : QueuedWebsocketSession) : QueuedWebsocketSession :=
  match s.messages with
  | [] => s
  | m :: _ => { s with writing := true, wire := s.wire ++ [m] }

/-- `websocket_queue::send_text` and `send_binary`, told apart by the message. -/
def send (s : QueuedWebsocketSession) (m : Message) : QueuedWebsocketSession :=
  let queued := { s with messages := s.messages ++ [m] }
  if queued.messages.length = 1 then queued.sendFront else queued

/-- Send a list of messages, one after the other. -/
def sendAll (s : QueuedWebsocketSession) (ms : List Message) :
    QueuedWebsocketSession :=
  ms.foldl send s

/-- `queued_websocket_session::do_read` -/
def doRead (s : QueuedWebsocketSession) : QueuedWebsocketSession :=
  { s with
    reads :=
      { s.reads with
        pending := s.reads.pending + 1
        startedAfterError := s.reads.startedAfterError || s.reads.failed } }

/-- The call of `handler_` in `on_read`, with the replies it queues. -/
def callHandler (s : QueuedWebsocketSession) (replies : List Message) :
    QueuedWebsocketSession :=
  ({ s with
    reads :=
      { s.reads with
        handledAfterError :=
          s.reads.handledAfterError || s.reads.failed } }).sendAll replies

/-- The bookkeeping of a completed read: it is no longer outstanding. -/
def readCompleted (s : QueuedWebsocketSession) (ec : IoResult) :
    QueuedWebsocketSession :=
  { s with
    reads :=
      { s.reads with
        pending := s.reads.pending - 1
        failed := s.reads.failed || decide (ec ≠ IoResult.ok) } }

/-- `queued_websocket_session::on_read` -/
def onRead (s : QueuedWebsocketSession) (ec : IoResult)
    (replies : List Message) : QueuedWebsocketSession :=
  let completed := s.readCompleted ec
  match ec with
  | IoResult.operationAborted => completed
  | IoResult.closed => completed
  -- `fail` only logs: a failed read goes on like a successful one
  | IoResult.failed | IoResult.ok =>
      let handled := completed.callHandler replies
      if handled.isFull then handled else handled.doRead

/-- `websocket_queue::on_write`, where the callback of the written message may
send further messages. -/
def queueOnWrite (s : QueuedWebsocketSession) (sent : List Message) :
    QueuedWebsocketSession :=
  let called := s.sendAll sent
  let erased := { called with messages := called.messages.tail, writing := false }
  erased.sendFront

/-- `queued_websocket_session::on_write` -/
def onWrite (s : QueuedWebsocketSession) (ec : IoResult)
    (sent : List Message) : QueuedWebsocketSession :=
  match ec with
  | IoResult.ok =>
      let wasFull := s.isFull
      let written := s.queueOnWrite sent
      if wasFull then written.doRead else written
  | _ => { s with writing := false }

/-!
## The event system
-/

/-- What can happen to the session, with everything its environment decides. -/
inductive Event where
  | readDone (ec : IoResult) (replies : List Message)
  | writeDone (ec : IoResult) (sent : List Message)
  | asyncSend (m : Message)
deriving DecidableEq, Repr

/-- The session when `on_accept_success` has started the first read. -/
def accepted : QueuedWebsocketSession :=
  doRead
    { reads :=
        { pending := 0
          failed := false
          handledAfterError := false
          startedAfterError := false }
      messages := []
      writing := false
      wire := [] }

/-- A completion can occur only while the operation is outstanding. -/
def step (s : QueuedWebsocketSession) : Event -> Option QueuedWebsocketSession
  | Event.readDone ec replies =>
      if s.reads.pending = 0 then none else some (s.onRead ec replies)
  | Event.writeDone ec sent =>
      if s.writing then some (s.onWrite ec sent) else none
  | Event.asyncSend m => some (s.send m)

/-- The queued WebSocket session as an event system. -/
def system : EventSystem QueuedWebsocketSession Event where
  init := accepted
  step := step

/-!
## Frame lemmas

Sending touches the queue only; the reading side changes in `do_read` and when
a read completes.
-/

@[simp] theorem sendFront_reads (s : QueuedWebsocketSession) :
    s.sendFront.reads = s.reads := by
  unfold sendFront
  split <;> rfl

@[simp] theorem sendFront_messages (s : QueuedWebsocketSession) :
    s.sendFront.messages = s.messages := by
  unfold sendFront
  split <;> rfl

@[simp] theorem send_reads (s : QueuedWebsocketSession) (m : Message) :
    (s.send m).reads = s.reads := by
  simp only [send]
  split
  · rw [sendFront_reads]
  · rfl

@[simp] theorem sendAll_reads (s : QueuedWebsocketSession)
    (ms : List Message) : (s.sendAll ms).reads = s.reads := by
  induction ms generalizing s with
  | nil => rfl
  | cons m rest ih =>
      show ((s.send m).sendAll rest).reads = s.reads
      rw [ih, send_reads]

theorem send_messages (s : QueuedWebsocketSession) (m : Message) :
    (s.send m).messages = s.messages ++ [m] := by
  simp only [send]
  split
  · exact sendFront_messages _
  · rfl

/-- A message sent to an idle session starts a write at once. -/
theorem send_writing {s : QueuedWebsocketSession} {m : Message}
    (h : s.messages = [] ∨ s.writing = true) : (s.send m).writing = true := by
  cases h with
  | inl hempty => simp [send, sendFront, hempty]
  | inr hwriting =>
      simp only [send, sendFront]
      split
      · split
        · exact hwriting
        · rfl
      · exact hwriting

theorem sendAll_writing {s : QueuedWebsocketSession} {ms : List Message}
    (hs : s.writing = true) : (s.sendAll ms).writing = true := by
  induction ms generalizing s with
  | nil => exact hs
  | cons m rest ih => exact ih (send_writing (Or.inr hs))

theorem sendAll_messages (s : QueuedWebsocketSession) (ms : List Message) :
    (s.sendAll ms).messages = s.messages ++ ms := by
  induction ms generalizing s with
  | nil => simp [sendAll]
  | cons m rest ih =>
      show ((s.send m).sendAll rest).messages = s.messages ++ m :: rest
      rw [ih, send_messages]
      simp

theorem runFrom_asyncSends (s : QueuedWebsocketSession) (ms : List Message) :
    system.runFrom s (ms.map Event.asyncSend) = some (s.sendAll ms) := by
  induction ms generalizing s with
  | nil => rfl
  | cons m rest ih => exact ih (s.send m)

@[simp] theorem queueOnWrite_reads (s : QueuedWebsocketSession)
    (sent : List Message) : (s.queueOnWrite sent).reads = s.reads := by
  unfold queueOnWrite
  rw [sendFront_reads]
  exact sendAll_reads s sent

/-!
## At most one read
-/

/-- At most one read is outstanding, and nothing was passed on and no read was
started after a read had completed with an error. -/
def SingleRead (s : QueuedWebsocketSession) : Prop :=
  s.reads.pending <= 1 ∧ s.reads.handledAfterError = false ∧
    s.reads.startedAfterError = false

/--
The steps after which the session still reads at most once: a read completes
without a failure that `on_read` merely logs, and a write that frees a full
queue completes when no read is outstanding and none has completed with an
error.
-/
def ReadGuard (s : QueuedWebsocketSession) : Event -> Prop
  | Event.readDone ec _ => ec ≠ IoResult.failed
  | Event.writeDone ec _ =>
      ec = IoResult.ok -> s.isFull = true ->
        s.reads.pending = 0 ∧ s.reads.failed = false
  | Event.asyncSend _ => True

/-- The inductive form of `SingleRead`: no read is outstanding after an error. -/
def ReadInvariant (s : QueuedWebsocketSession) : Prop :=
  SingleRead s ∧ (s.reads.failed = true -> s.reads.pending = 0)

theorem readInvariant_of_reads_eq {s t : QueuedWebsocketSession}
    (hreads : t.reads = s.reads) (hs : ReadInvariant s) : ReadInvariant t := by
  unfold ReadInvariant SingleRead at hs ⊢
  rw [hreads]
  exact hs

theorem readInvariant_doRead {s : QueuedWebsocketSession}
    (hs : ReadInvariant s) (hpending : s.reads.pending = 0)
    (hfailed : s.reads.failed = false) : ReadInvariant s.doRead := by
  rcases hs with ⟨⟨_, hhandled, hstarted⟩, _⟩
  simp [ReadInvariant, SingleRead, doRead, hpending, hfailed, hhandled,
    hstarted]

theorem readInvariant_accepted : ReadInvariant accepted := by
  simp [ReadInvariant, SingleRead, accepted, doRead]

theorem readInvariant_onRead {s : QueuedWebsocketSession} {ec : IoResult}
    {replies : List Message} (hs : ReadInvariant s)
    (hpending : s.reads.pending ≠ 0) (hec : ec ≠ IoResult.failed) :
    ReadInvariant (s.onRead ec replies) := by
  rcases hs with ⟨⟨hle, hhandled, hstarted⟩, hfailed⟩
  have hone : s.reads.pending = 1 := by omega
  have hnotFailed : s.reads.failed = false := by
    cases hf : s.reads.failed with
    | false => rfl
    | true => exact absurd (hfailed hf) hpending
  cases ec with
  | operationAborted =>
      simp [onRead, readCompleted, ReadInvariant, SingleRead, hone, hhandled,
        hstarted]
  | closed =>
      simp [onRead, readCompleted, ReadInvariant, SingleRead, hone, hhandled,
        hstarted]
  | failed => exact absurd rfl hec
  | ok =>
      have hreads : ((s.readCompleted IoResult.ok).callHandler replies).reads =
          { s.reads with pending := 0 } := by
        simp [callHandler, readCompleted, hone, hhandled, hnotFailed]
      have hhandledInv :
          ReadInvariant ((s.readCompleted IoResult.ok).callHandler replies) := by
        simp [ReadInvariant, SingleRead, hreads, hhandled, hstarted]
      simp only [onRead]
      split
      · exact hhandledInv
      · apply readInvariant_doRead hhandledInv
        · rw [hreads]
        · rw [hreads]
          exact hnotFailed

theorem readInvariant_onWrite {s : QueuedWebsocketSession} {ec : IoResult}
    {sent : List Message} (hs : ReadInvariant s)
    (hguard : ReadGuard s (Event.writeDone ec sent)) :
    ReadInvariant (s.onWrite ec sent) := by
  cases ec with
  | ok =>
      have hwritten : ReadInvariant (s.queueOnWrite sent) :=
        readInvariant_of_reads_eq (queueOnWrite_reads s sent) hs
      simp only [onWrite]
      split
      · rename_i hfull
        rcases hguard rfl hfull with ⟨hpending, hfailed⟩
        apply readInvariant_doRead hwritten
        · rw [queueOnWrite_reads]
          exact hpending
        · rw [queueOnWrite_reads]
          exact hfailed
      · exact hwritten
  | operationAborted => exact readInvariant_of_reads_eq rfl hs
  | closed => exact readInvariant_of_reads_eq rfl hs
  | failed => exact readInvariant_of_reads_eq rfl hs

theorem readInvariant_step {s t : QueuedWebsocketSession} {e : Event}
    (hs : ReadInvariant s) (hguard : ReadGuard s e)
    (hstep : system.step s e = some t) : ReadInvariant t := by
  simp only [system] at hstep
  cases e with
  | readDone ec replies =>
      by_cases hpending : s.reads.pending = 0
      · simp [step, hpending] at hstep
      · simp only [step, hpending, if_false, Option.some.injEq] at hstep
        rw [← hstep]
        exact readInvariant_onRead hs hpending hguard
  | writeDone ec sent =>
      cases hwriting : s.writing with
      | false => simp [step, hwriting] at hstep
      | true =>
          simp only [step, hwriting, if_true, Option.some.injEq] at hstep
          rw [← hstep]
          exact readInvariant_onWrite hs hguard
  | asyncSend m =>
      simp only [step, Option.some.injEq] at hstep
      rw [← hstep]
      exact readInvariant_of_reads_eq (send_reads s m) hs

/-- A step outside the guard leaves `SingleRead` at once. -/
theorem readGuard_of_step {s t : QueuedWebsocketSession} {e : Event}
    (hstep : system.step s e = some t) (ht : SingleRead t) :
    ReadGuard s e := by
  simp only [system] at hstep
  cases e with
  | readDone ec replies =>
      intro hec
      subst hec
      by_cases hpending : s.reads.pending = 0
      · simp [step, hpending] at hstep
      · simp only [step, hpending, if_false, Option.some.injEq] at hstep
        have hhandled : (s.onRead IoResult.failed replies).reads.handledAfterError
            = true := by
          simp only [onRead]
          split <;> simp [callHandler, readCompleted, doRead]
        rw [hstep, ht.right.left] at hhandled
        cases hhandled
  | writeDone ec sent =>
      intro hec hfull
      subst hec
      cases hwriting : s.writing with
      | false => simp [step, hwriting] at hstep
      | true =>
          simp only [step, hwriting, if_true, Option.some.injEq, onWrite,
            hfull] at hstep
          rw [← hstep] at ht
          rcases ht with ⟨hle, _, hstarted⟩
          simp [doRead] at hle hstarted
          exact ⟨hle, hstarted.right⟩
  | asyncSend m => trivial

/-- A run keeps at most one read outstanding, and is silent after a failed
read, exactly when each of its steps meets the guard. -/
theorem websocketSession_singleRead_iff (es : List Event) :
    system.EveryState SingleRead system.init es <->
      system.EveryStep ReadGuard system.init es := by
  refine EventSystem.everyState_iff_everyStep ?_ ?_ ?_ readInvariant_accepted
  · intro s e t hs hguard hstep
    exact readInvariant_step hs hguard hstep
  · intro s e t _ hstep ht
    exact readGuard_of_step hstep ht
  · intro s hs
    exact hs.left

/-- Messages that fill the queue while the first read is pending make the next
completed write start a second one. -/
theorem secondRead_of_asyncSends {m : Message} {ms : List Message}
    (hlength : WebsocketQueue.limit <= (m :: ms).length) :
    exists s, system.runFrom system.init
        ((m :: ms).map Event.asyncSend ++ [Event.writeDone IoResult.ok []]) =
          some s ∧
      s.reads.pending = 2 := by
  have hwriting : (accepted.sendAll (m :: ms)).writing = true :=
    sendAll_writing (s := accepted.send m) (send_writing (Or.inl rfl))
  have hfull : (accepted.sendAll (m :: ms)).isFull = true := by
    rw [isFull, decide_eq_true_iff, sendAll_messages]
    exact hlength
  exists (accepted.sendAll (m :: ms)).onWrite IoResult.ok []
  constructor
  · rw [EventSystem.runFrom_append]
    have hsent : system.runFrom system.init ((m :: ms).map Event.asyncSend) =
        some (accepted.sendAll (m :: ms)) :=
      runFrom_asyncSends accepted (m :: ms)
    rw [hsent, Option.bind_some, EventSystem.runFrom_cons]
    simp [system, step, hwriting]
  · simp only [onWrite, hfull, if_true]
    simp [doRead, accepted]

/-- Two reads are outstanding: a log subscription has pushed a queue full of
messages before the client has answered anything. -/
theorem websocketSession_singleRead_not_everywhere :
    ¬ forall es, system.EveryState SingleRead system.init es := by
  intro h
  have hlength : WebsocketQueue.limit <=
      (List.replicate WebsocketQueue.limit
        ({ text := true, buffer := str "log" } : Message)).length := by
    simp
  rcases secondRead_of_asyncSends hlength with ⟨s, hrun, hpending⟩
  have hle : s.reads.pending <= 1 := (EventSystem.everyState_last (h _) hrun).left
  omega

end QueuedWebsocketSession

end Net
end CisWebui
