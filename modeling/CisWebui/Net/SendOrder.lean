import Mathlib.Data.List.Nodup
import CisWebui.Net.WebsocketSession

/-!
# The order of outgoing messages

`websocket_queue` once more, this time with what it tells its callers: every
`send_text` or `send_binary` call has a number, and the log lists when the write
of a call starts, when it completes and when its callback runs.  Forgetting the
numbers and the log gives the queue of `QueuedWebsocketSession` back.
-/

namespace CisWebui
namespace Net

open Foundation

/-- An element of `messages_` and the number of the call that pushed it. -/
structure QueuedMessage where
  call : Nat
  message : Message
deriving DecidableEq, Repr

/-- What happens to a message, in the order in which it happens. -/
inductive SendAct where
  | started (w : QueuedMessage)
  | completed (call : Nat)
  | notified (call : Nat)
deriving DecidableEq, Repr

/--
The queue and the stream it writes to: the flag `ws_.text` sets, the elements
of `messages_`, the writes that are outstanding, all calls made so far and the
log.
-/
structure SendQueue where
  wsText : Bool
  messages : List QueuedMessage
  outstanding : List QueuedMessage
  calls : List Message
  log : List SendAct
deriving DecidableEq, Repr

namespace SendQueue

/-!
## The operations
-/

/-- `ws_.async_write`: the stream sends the buffer under its current flag. -/
def asyncWrite (q : SendQueue) (m : QueuedMessage) : SendQueue :=
  let w := { m with message := { m.message with text := q.wsText } }
  { q with
    outstanding := q.outstanding ++ [w]
    log := q.log ++ [SendAct.started w] }

/-- `websocket_queue::send`, called on a queue that is not empty. -/
def sendFront (q : SendQueue) : SendQueue :=
  match q.messages with
  | [] => q
  | m :: _ => { q with wsText := m.message.text }.asyncWrite m

/-- `messages_.push_back` -/
def pushBack (q : SendQueue) (m : Message) : SendQueue :=
  { q with
    messages := q.messages ++ [{ call := q.calls.length, message := m }]
    calls := q.calls ++ [m] }

/-- `websocket_queue::send_text` and `send_binary`, told apart by the message. -/
def send (q : SendQueue) (m : Message) : SendQueue :=
  let queued := q.pushBack m
  if queued.messages.length = 1 then queued.sendFront else queued

/-- Send a list of messages, one after the other. -/
def sendAll (q : SendQueue) (ms : List Message) : SendQueue :=
  ms.foldl send q

/-- The callback of a message, which sends the messages `sent`. -/
def runCallback (q : SendQueue) (m : QueuedMessage) (sent : List Message) :
    SendQueue :=
  { q with log := q.log ++ [SendAct.notified m.call] }.sendAll sent

/-- `websocket_queue::on_write` -/
def onWrite (q : SendQueue) (sent : List Message) : SendQueue :=
  match q.messages with
  -- `BOOST_ASSERT(!messages_.empty())`
  | [] => q
  | m :: _ =>
      let called := q.runCallback m sent
      { called with messages := called.messages.tail }.sendFront

/-- One of the outstanding writes completes. -/
def complete (q : SendQueue) (i : Nat) (w : QueuedMessage) : SendQueue :=
  { q with
    outstanding := q.outstanding.eraseIdx i
    log := q.log ++ [SendAct.completed w.call] }

/-- A call, or the completion of an outstanding write whose callback makes the
calls `sent`. -/
inductive Event where
  | send (m : Message)
  | writeDone (i : Nat) (sent : List Message)
deriving DecidableEq, Repr

def step (q : SendQueue) : Event -> Option SendQueue
  | Event.send m => some (q.send m)
  | Event.writeDone i sent =>
      q.outstanding[i]?.map fun w => (q.complete i w).onWrite sent

/-- The queue of a new session, of which no call has been made. -/
def empty : SendQueue where
  wsText := true
  messages := []
  outstanding := []
  calls := []
  log := []

/-- The outgoing queue as an event system. -/
def system : EventSystem SendQueue Event where
  init := empty
  step := step

/-!
## The order

The calls in their order, and what the log holds for one that has been served.
-/

/-- The calls with their numbers. -/
def numbered (calls : List Message) : List QueuedMessage :=
  calls.mapIdx fun i m => { call := i, message := m }

/-- A message that has been sent: its write started and completed, and its
callback ran. -/
def served (w : QueuedMessage) : List SendAct :=
  [SendAct.started w, SendAct.completed w.call, SendAct.notified w.call]

/-- The writes that a log starts. -/
def startedWrites (log : List SendAct) : List QueuedMessage :=
  log.filterMap fun
    | SendAct.started w => some w
    | _ => none

/-- The first `done` calls have been served, and no write is outstanding. -/
structure Served (q : SendQueue) (done : Nat) : Prop where
  le : done <= q.calls.length
  messages : q.messages = (numbered q.calls).drop done
  outstanding : q.outstanding = []
  log : q.log = ((numbered q.calls).take done).flatMap served

/-- The first `done` calls have been served, and the write of the next one, if
there is a next one, is outstanding. -/
structure InOrder (q : SendQueue) (done : Nat) : Prop where
  le : done <= q.calls.length
  messages : q.messages = (numbered q.calls).drop done
  outstanding : q.outstanding = q.messages.take 1
  log : q.log = ((numbered q.calls).take done).flatMap served ++
    q.outstanding.map SendAct.started

theorem numbered_length (calls : List Message) :
    (numbered calls).length = calls.length := by
  simp [numbered]

theorem numbered_append (calls : List Message) (m : Message) :
    numbered (calls ++ [m]) =
      numbered calls ++ [{ call := calls.length, message := m }] := by
  simp [numbered, List.mapIdx_append]

theorem numbered_nodup (calls : List Message) : (numbered calls).Nodup := by
  have hcall : (numbered calls).map QueuedMessage.call =
      List.range calls.length := by
    apply List.ext_getElem
    · simp [numbered]
    · intro i h₁ h₂
      simp [numbered]
  have hnodup : ((numbered calls).map QueuedMessage.call).Nodup := by
    rw [hcall]
    exact List.nodup_range
  exact List.Nodup.of_map QueuedMessage.call hnodup

theorem startedWrites_append (log log' : List SendAct) :
    startedWrites (log ++ log') = startedWrites log ++ startedWrites log' := by
  simp [startedWrites]

theorem startedWrites_served (ws : List QueuedMessage) :
    startedWrites (ws.flatMap served) = ws := by
  induction ws with
  | nil => rfl
  | cons w rest ih =>
      rw [List.flatMap_cons, startedWrites_append, ih]
      rfl

theorem startedWrites_started (ws : List QueuedMessage) :
    startedWrites (ws.map SendAct.started) = ws := by
  induction ws with
  | nil => rfl
  | cons w rest ih =>
      show w :: startedWrites (rest.map SendAct.started) = w :: rest
      rw [ih]

/-!
## One step
-/

theorem sendFront_cons {q : SendQueue} {m : QueuedMessage}
    {rest : List QueuedMessage} (hmessages : q.messages = m :: rest) :
    q.sendFront = { q with
      wsText := m.message.text
      outstanding := q.outstanding ++ [m]
      log := q.log ++ [SendAct.started m] } := by
  simp only [sendFront, hmessages, asyncWrite]

/-- `websocket_queue::send` starts the write of the next call. -/
theorem inOrder_sendFront {q : SendQueue} {done : Nat} (h : Served q done) :
    InOrder q.sendFront done := by
  cases hmessages : q.messages with
  | nil =>
      have hsame : q.sendFront = q := by
        simp only [sendFront, hmessages]
      rw [hsame]
      constructor
      · exact h.le
      · exact h.messages
      · rw [h.outstanding, hmessages]
        rfl
      · rw [h.outstanding, h.log]
        simp
  | cons m rest =>
      rw [sendFront_cons hmessages]
      constructor
      · exact h.le
      · exact h.messages
      · show q.outstanding ++ [m] = q.messages.take 1
        rw [h.outstanding, hmessages]
        rfl
      · show q.log ++ [SendAct.started m] =
          ((numbered q.calls).take done).flatMap served ++
            (q.outstanding ++ [m]).map SendAct.started
        rw [h.outstanding, h.log]
        rfl

theorem send_of_ne_nil {q : SendQueue} {m : Message}
    (hbusy : q.messages ≠ []) : q.send m = q.pushBack m := by
  have hlength : (q.pushBack m).messages.length ≠ 1 := by
    have hpos := List.length_pos_of_ne_nil hbusy
    simp only [pushBack, List.length_append, List.length_cons, List.length_nil]
    omega
  simp only [send, hlength, if_false]

theorem send_of_nil {q : SendQueue} {m : Message} (hidle : q.messages = []) :
    q.send m = (q.pushBack m).sendFront := by
  have hlength : (q.pushBack m).messages.length = 1 := by
    simp [pushBack, hidle]
  simp only [send, hlength, if_true]

theorem drop_pushBack {q : SendQueue} {done : Nat} {m : Message}
    (hle : done <= q.calls.length)
    (hmessages : q.messages = (numbered q.calls).drop done) :
    (q.pushBack m).messages = (numbered (q.pushBack m).calls).drop done := by
  have hlength : done <= (numbered q.calls).length := by
    rw [numbered_length]
    exact hle
  show q.messages ++ [{ call := q.calls.length, message := m }] =
    (numbered (q.calls ++ [m])).drop done
  rw [numbered_append, List.drop_append_of_le_length hlength, hmessages]

theorem take_pushBack {q : SendQueue} {done : Nat} {m : Message}
    (hle : done <= q.calls.length) :
    (numbered (q.pushBack m).calls).take done =
      (numbered q.calls).take done := by
  have hlength : done <= (numbered q.calls).length := by
    rw [numbered_length]
    exact hle
  show (numbered (q.calls ++ [m])).take done = (numbered q.calls).take done
  rw [numbered_append, List.take_append_of_le_length hlength]

theorem le_pushBack {q : SendQueue} {done : Nat} {m : Message}
    (hle : done <= q.calls.length) : done <= (q.pushBack m).calls.length := by
  show done <= (q.calls ++ [m]).length
  rw [List.length_append]
  exact Nat.le_add_right_of_le hle

theorem inOrder_send {q : SendQueue} {done : Nat} (m : Message)
    (h : InOrder q done) : InOrder (q.send m) done := by
  rcases eq_or_ne q.messages [] with hidle | hbusy
  · have houtstanding : q.outstanding = [] := by
      rw [h.outstanding, hidle]
      rfl
    rw [send_of_nil hidle]
    apply inOrder_sendFront
    constructor
    · exact le_pushBack h.le
    · exact drop_pushBack h.le h.messages
    · exact houtstanding
    · rw [take_pushBack h.le]
      show q.log = _
      rw [h.log, houtstanding]
      simp
  · rw [send_of_ne_nil hbusy]
    constructor
    · exact le_pushBack h.le
    · exact drop_pushBack h.le h.messages
    · show q.outstanding = (q.messages ++ _).take 1
      rw [h.outstanding, List.take_append_of_le_length]
      exact List.length_pos_of_ne_nil hbusy
    · rw [take_pushBack h.le]
      exact h.log

/-- Calls made while a message is being served only push. -/
theorem sendAll_of_ne_nil {q : SendQueue} {ms : List Message}
    (hbusy : q.messages ≠ []) : q.sendAll ms = ms.foldl pushBack q := by
  induction ms generalizing q with
  | nil => rfl
  | cons m rest ih =>
      show (q.send m).sendAll rest = rest.foldl pushBack (q.pushBack m)
      rw [send_of_ne_nil hbusy]
      apply ih
      simp [pushBack]

/-- The state inside `on_write`: the write of the call `done` has completed and
its callback has run, but its message is still the front one. -/
structure FrontServed (q : SendQueue) (done : Nat) : Prop where
  lt : done + 1 <= q.calls.length
  messages : q.messages = (numbered q.calls).drop done
  outstanding : q.outstanding = []
  log : q.log = ((numbered q.calls).take (done + 1)).flatMap served

theorem frontServed_pushBacks {q : SendQueue} {done : Nat}
    (ms : List Message) (h : FrontServed q done) :
    FrontServed (ms.foldl pushBack q) done := by
  induction ms generalizing q with
  | nil => exact h
  | cons m rest ih =>
      apply ih
      constructor
      · exact le_pushBack h.lt
      · exact drop_pushBack (Nat.le_of_succ_le h.lt) h.messages
      · exact h.outstanding
      · rw [take_pushBack h.lt]
        exact h.log

theorem served_erase {q : SendQueue} {done : Nat} (h : FrontServed q done) :
    Served { q with messages := q.messages.tail } (done + 1) where
  le := h.lt
  messages := by
    show q.messages.tail = (numbered q.calls).drop (done + 1)
    rw [h.messages, List.tail_drop]
  outstanding := h.outstanding
  log := h.log

theorem onWrite_cons {q : SendQueue} {m : QueuedMessage}
    {rest : List QueuedMessage} (sent : List Message)
    (hmessages : q.messages = m :: rest) :
    q.onWrite sent = { q.runCallback m sent with
      messages := (q.runCallback m sent).messages.tail }.sendFront := by
  simp only [onWrite, hmessages]

/-- The only outstanding write is that of the front message. -/
theorem front_of_outstanding {q : SendQueue} {done i : Nat} {w : QueuedMessage}
    (h : InOrder q done) (hw : q.outstanding[i]? = some w) :
    i = 0 ∧ q.outstanding = [w] ∧ exists rest, q.messages = w :: rest := by
  cases hmessages : q.messages with
  | nil =>
      rw [h.outstanding, hmessages] at hw
      simp at hw
  | cons m rest =>
      have houtstanding : q.outstanding = [m] := by
        rw [h.outstanding, hmessages]
        rfl
      rw [houtstanding] at hw
      cases i with
      | zero =>
          have hmw : m = w := by
            simpa using hw
          subst hmw
          exact ⟨rfl, houtstanding, rest, rfl⟩
      | succ n => simp at hw

theorem frontServed_notified {q : SendQueue} {done : Nat} {w : QueuedMessage}
    {rest : List QueuedMessage} (h : InOrder q done)
    (houtstanding : q.outstanding = [w]) (hmessages : q.messages = w :: rest) :
    FrontServed { q.complete 0 w with
      log := (q.complete 0 w).log ++ [SendAct.notified w.call] } done := by
  have hdrop : (numbered q.calls).drop done = w :: rest := by
    rw [← h.messages, hmessages]
  have htake : (numbered q.calls).take (done + 1) =
      (numbered q.calls).take done ++ [w] := by
    rw [List.take_add, hdrop]
    rfl
  have hlength := congrArg List.length hdrop
  rw [List.length_drop, numbered_length, List.length_cons] at hlength
  constructor
  · show done + 1 <= q.calls.length
    omega
  · exact h.messages
  · show q.outstanding.eraseIdx 0 = []
    rw [houtstanding]
    rfl
  · show (q.log ++ [SendAct.completed w.call]) ++ [SendAct.notified w.call] =
      ((numbered q.calls).take (done + 1)).flatMap served
    rw [h.log, houtstanding, htake, List.flatMap_append]
    simp [served]

/-- A completed write runs its callback and starts the write of the next call,
also when the callback has made that call. -/
theorem inOrder_writeDone {q : SendQueue} {done i : Nat} {w : QueuedMessage}
    (sent : List Message) (h : InOrder q done)
    (hw : q.outstanding[i]? = some w) :
    InOrder ((q.complete i w).onWrite sent) (done + 1) := by
  rcases front_of_outstanding h hw with ⟨rfl, houtstanding, rest, hmessages⟩
  have hfront := frontServed_notified h houtstanding hmessages
  have hbusy : { q.complete 0 w with
      log := (q.complete 0 w).log ++ [SendAct.notified w.call] }.messages ≠ [] := by
    show q.messages ≠ []
    rw [hmessages]
    exact List.cons_ne_nil w rest
  have hcompleted : (q.complete 0 w).messages = w :: rest := hmessages
  rw [onWrite_cons sent hcompleted, runCallback, sendAll_of_ne_nil hbusy]
  exact inOrder_sendFront (served_erase (frontServed_pushBacks sent hfront))

theorem inOrder_step {q t : SendQueue} {e : Event}
    (hq : exists done, InOrder q done) (hstep : system.step q e = some t) :
    exists done, InOrder t done := by
  rcases hq with ⟨done, h⟩
  cases e with
  | send m =>
      cases hstep
      exact ⟨done, inOrder_send m h⟩
  | writeDone i sent =>
      rcases Option.map_eq_some_iff.mp hstep with ⟨w, hw, ht⟩
      subst ht
      exact ⟨done + 1, inOrder_writeDone sent h hw⟩

theorem inOrder_empty : InOrder empty 0 where
  le := Nat.le_refl 0
  messages := rfl
  outstanding := rfl
  log := rfl

theorem inOrder_of_reachable {q : SendQueue} (hq : system.Reachable q) :
    exists done, InOrder q done := by
  have hinit : exists done, InOrder system.init done := ⟨0, inOrder_empty⟩
  have hstep : forall q e t, (exists done, InOrder q done) ->
      system.step q e = some t -> exists done, InOrder t done := by
    intro q e t hq hstep
    exact inOrder_step hq hstep
  exact EventSystem.invariant_of_reachable hinit hstep hq

theorem startedWrites_of_inOrder {q : SendQueue} {done : Nat}
    (h : InOrder q done) :
    startedWrites q.log = (numbered q.calls).take (done + q.outstanding.length) := by
  rw [h.log, startedWrites_append, startedWrites_served, startedWrites_started,
    h.outstanding, h.messages, List.take_add]
  congr 1
  cases (numbered q.calls).drop done <;> rfl

/-!
## The queue of the session

Without the numbers and the log this is the queue of `QueuedWebsocketSession`.
-/

/-- A session whose queue is in the state of `q`. -/
structure QueueOf (s : QueuedWebsocketSession) (q : SendQueue) : Prop where
  messages : s.messages = q.messages.map QueuedMessage.message
  writing : s.writing = !q.outstanding.isEmpty
  wire : s.wire = (startedWrites q.log).map QueuedMessage.message

theorem queueOf_sendFront {s : QueuedWebsocketSession} {q : SendQueue}
    (h : QueueOf s q) : QueueOf s.sendFront q.sendFront := by
  cases hmessages : q.messages with
  | nil =>
      have hs : s.messages = [] := by
        rw [h.messages, hmessages]
        rfl
      simpa only [QueuedWebsocketSession.sendFront, hs, sendFront, hmessages]
        using h
  | cons m rest =>
      have hs : s.messages = m.message :: rest.map QueuedMessage.message := by
        rw [h.messages, hmessages]
        rfl
      rw [sendFront_cons hmessages]
      constructor
      · rw [QueuedWebsocketSession.sendFront_messages]
        exact h.messages
      · simp [QueuedWebsocketSession.sendFront, hs]
      · have hwire : s.sendFront.wire = s.wire ++ [m.message] := by
          simp only [QueuedWebsocketSession.sendFront, hs]
        rw [hwire, h.wire, startedWrites_append, List.map_append]
        rfl

theorem queueOf_send {s : QueuedWebsocketSession} {q : SendQueue}
    (m : Message) (h : QueueOf s q) : QueueOf (s.send m) (q.send m) := by
  have hlength : s.messages.length = q.messages.length := by
    rw [h.messages, List.length_map]
  have hpushed : QueueOf { s with messages := s.messages ++ [m] }
      (q.pushBack m) := by
    constructor
    · show s.messages ++ [m] = (q.messages ++ [_]).map QueuedMessage.message
      rw [h.messages, List.map_append]
      rfl
    · exact h.writing
    · exact h.wire
  simp only [QueuedWebsocketSession.send, send]
  rw [List.length_append, hlength]
  simp only [pushBack, List.length_append, List.length_cons, List.length_nil]
  split
  · exact queueOf_sendFront hpushed
  · exact hpushed

theorem session_sendAll_of_ne_nil {s : QueuedWebsocketSession}
    {ms : List Message} (hbusy : s.messages ≠ []) :
    s.sendAll ms = { s with messages := s.messages ++ ms } := by
  induction ms generalizing s with
  | nil => simp [QueuedWebsocketSession.sendAll]
  | cons m rest ih =>
      have hlength : (s.messages ++ [m]).length ≠ 1 := by
        simpa using hbusy
      have hsend : s.send m = { s with messages := s.messages ++ [m] } := by
        simp only [QueuedWebsocketSession.send, hlength, if_false]
      show (s.send m).sendAll rest = _
      rw [hsend, ih]
      · simp
      · simp

/-- What calls made in a callback do to the queue of messages and leave alone. -/
theorem pushBacks_spec (q : SendQueue) (ms : List Message) :
    (ms.foldl pushBack q).messages.map QueuedMessage.message =
        q.messages.map QueuedMessage.message ++ ms ∧
      (ms.foldl pushBack q).outstanding = q.outstanding ∧
      (ms.foldl pushBack q).log = q.log := by
  induction ms generalizing q with
  | nil => simp
  | cons m rest ih =>
      rcases ih (q.pushBack m) with ⟨hmessages, houtstanding, hlog⟩
      refine ⟨?_, houtstanding, hlog⟩
      show (rest.foldl pushBack (q.pushBack m)).messages.map _ = _
      rw [hmessages]
      simp [pushBack]

theorem queueOf_queueOnWrite {s : QueuedWebsocketSession} {q : SendQueue}
    {done i : Nat} {w : QueuedMessage} (sent : List Message)
    (horder : InOrder q done) (h : QueueOf s q)
    (hw : q.outstanding[i]? = some w) :
    QueueOf (s.queueOnWrite sent) ((q.complete i w).onWrite sent) := by
  rcases front_of_outstanding horder hw with
    ⟨rfl, houtstanding, rest, hmessages⟩
  have hcompleted : (q.complete 0 w).messages = w :: rest := hmessages
  have hsession : s.messages ≠ [] := by
    rw [h.messages, hmessages]
    exact List.cons_ne_nil _ _
  let notified : SendQueue :=
    { q.complete 0 w with
      log := (q.complete 0 w).log ++ [SendAct.notified w.call] }
  have hbusy : notified.messages ≠ [] := by
    show q.messages ≠ []
    rw [hmessages]
    exact List.cons_ne_nil w rest
  rcases pushBacks_spec notified sent with ⟨hpushed, hout, hlog⟩
  rw [onWrite_cons sent hcompleted, runCallback, sendAll_of_ne_nil hbusy,
    QueuedWebsocketSession.queueOnWrite, session_sendAll_of_ne_nil hsession]
  apply queueOf_sendFront
  constructor
  · show (s.messages ++ sent).tail =
      (sent.foldl pushBack notified).messages.tail.map QueuedMessage.message
    rw [List.map_tail, hpushed, h.messages]
    rfl
  · show false = !(sent.foldl pushBack notified).outstanding.isEmpty
    rw [hout]
    show false = !(q.outstanding.eraseIdx 0).isEmpty
    rw [houtstanding]
    rfl
  · show s.wire = (startedWrites (sent.foldl pushBack notified).log).map
      QueuedMessage.message
    rw [hlog, h.wire]
    simp [notified, complete, startedWrites]

/-- Every step here is a step of the session, on the same queue. -/
theorem queueOf_step {s : QueuedWebsocketSession} {q t : SendQueue} {e : Event}
    {done : Nat} (horder : InOrder q done) (h : QueueOf s q)
    (hstep : system.step q e = some t) :
    exists e' s', QueuedWebsocketSession.system.step s e' = some s' ∧
      QueueOf s' t := by
  cases e with
  | send m =>
      cases hstep
      exact ⟨QueuedWebsocketSession.Event.asyncSend m, s.send m, rfl,
        queueOf_send m h⟩
  | writeDone i sent =>
      rcases Option.map_eq_some_iff.mp hstep with ⟨w, hw, ht⟩
      subst ht
      have hwriting : s.writing = true := by
        rcases front_of_outstanding horder hw with ⟨_, houtstanding, _⟩
        rw [h.writing, houtstanding]
        rfl
      refine ⟨QueuedWebsocketSession.Event.writeDone IoResult.ok sent,
        s.onWrite IoResult.ok sent, ?_, ?_⟩
      · simp [QueuedWebsocketSession.system, QueuedWebsocketSession.step,
          hwriting]
      · have hqueue := queueOf_queueOnWrite sent horder h hw
        simp only [QueuedWebsocketSession.onWrite]
        split
        · exact ⟨hqueue.messages, hqueue.writing, hqueue.wire⟩
        · exact hqueue

/-- Every run of the queue is a run of the session that reads nothing. -/
theorem session_of_reachable {q : SendQueue} (hq : system.Reachable q) :
    exists s, QueuedWebsocketSession.system.Reachable s ∧ QueueOf s q := by
  have hinit : (exists done, InOrder system.init done) ∧
      exists s, QueuedWebsocketSession.system.Reachable s ∧
        QueueOf s system.init :=
    ⟨⟨0, inOrder_empty⟩, QueuedWebsocketSession.accepted, ⟨[], rfl⟩,
      ⟨rfl, rfl, rfl⟩⟩
  have hstep : forall q e t, ((exists done, InOrder q done) ∧
        exists s, QueuedWebsocketSession.system.Reachable s ∧ QueueOf s q) ->
      system.step q e = some t ->
      (exists done, InOrder t done) ∧
        exists s, QueuedWebsocketSession.system.Reachable s ∧ QueueOf s t := by
    intro q e t hq hstep
    rcases hq with ⟨⟨done, horder⟩, s, ⟨es, hrun⟩, hqueue⟩
    rcases queueOf_step horder hqueue hstep with ⟨e', s', hnext, hqueue'⟩
    refine ⟨inOrder_step ⟨done, horder⟩ hstep, s', ⟨es ++ [e'], ?_⟩, hqueue'⟩
    rw [EventSystem.runFrom_append, hrun, Option.bind_some,
      EventSystem.runFrom_cons, hnext]
    rfl
  exact (EventSystem.invariant_of_reachable hinit hstep hq).right

/-!
## The result
-/

/-- Messages are sent once, in the order of the calls, one at a time, and each
callback runs between the completion of its write and the start of the next. -/
theorem sendQueue_in_order {q : SendQueue} (hq : system.Reachable q) :
    (q.outstanding ≠ [] <-> q.messages ≠ []) ∧ q.outstanding.length <= 1 ∧
      startedWrites q.log <+: numbered q.calls ∧ (startedWrites q.log).Nodup ∧
      exists done, done <= q.calls.length ∧
        q.messages = (numbered q.calls).drop done ∧
        q.log = ((numbered q.calls).take done).flatMap served ++
          q.outstanding.map SendAct.started := by
  rcases inOrder_of_reachable hq with ⟨done, h⟩
  have hstarted := startedWrites_of_inOrder h
  constructor
  · rw [h.outstanding]
    cases q.messages <;> simp
  constructor
  · rw [h.outstanding]
    exact List.length_take_le 1 q.messages
  constructor
  · rw [hstarted]
    exact List.take_prefix _ _
  constructor
  · rw [hstarted]
    exact (numbered_nodup q.calls).sublist (List.take_sublist _ _)
  · exact ⟨done, h.le, h.messages, h.log⟩

/-- A callback sends a second message before a third one is queued. -/
theorem sendQueue_in_order_sample :
    exists q, system.Reachable q ∧ q.calls.length = 3 ∧
      q.outstanding.length <= 1 ∧ startedWrites q.log <+: numbered q.calls := by
  let reply (text : Bool) : Message := { text := text, buffer := [] }
  let run : List Event :=
    [Event.send (reply true), Event.writeDone 0 [reply false],
      Event.send (reply true), Event.writeDone 0 []]
  let q := (system.runFrom system.init run).get (by decide)
  have hq : system.Reachable q := ⟨run, (Option.some_get _).symm⟩
  rcases sendQueue_in_order hq with ⟨_, hone, hprefix, _⟩
  have hcalls : q.calls.length = 3 := by
    decide
  exact ⟨q, hq, hcalls, hone, hprefix⟩

end SendQueue

end Net
end CisWebui
