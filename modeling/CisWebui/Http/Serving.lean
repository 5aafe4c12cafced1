import CisWebui.Http.Application
import CisWebui.Net.SessionSteps

/-!
# Serving a connection

A connection of the public application: its HTTP session, and with it which
request each of the queued and of the written responses answers.  Requests may
be pipelined, and nothing is assumed of what the managers and the files are when
a request is handled.

Forgetting the answers gives a run of the session back.
-/

namespace CisWebui
namespace Http

open Cpp Foundation Net

/-- A response in the queue, and the number of the request that it answers. -/
structure Answer where
  request : Nat
  content : Response
  response : Net.Response

/-- A request whose body is being read for a callback. -/
structure Awaiting where
  request : Nat
  header : Request
  callback : BodyCallback

/--
A connection: `reading` says for each outstanding read of the session which
callback waits for it, `received` counts the requests whose header has been
read.
-/
structure Serving where
  session : HttpSession
  reading : List (Option Awaiting)
  queued : List Answer
  written : List Answer
  received : Nat

namespace Serving

variable (app : Application)

/-!
## Steps
-/

/-- What happens to the connection; the outside is as the event finds it. -/
inductive Event where
  | headerRead (i : Nat) (ec : SocketResult) (env : AppEnv) (req : Request)
      (upgrade : Bool)
  | bodyRead (i : Nat) (ec : SocketResult) (env : AppEnv) (body : BodyContent)
  | writeDone (ec : SocketResult)

/-- The answers to a request before its body is read. -/
def headerAnswers (env : AppEnv) (req : Request) (upgrade : Bool) (number : Nat) :
    List Answer :=
  let responses :=
    if upgrade then (Application.upgradeResponse req).toList
    else app.headerResponses env req
  responses.map fun r =>
    { request := number, content := r, response := Application.sized r }

/-- The callback that waits for the body of a request. -/
def asked (env : AppEnv) (req : Request) (upgrade : Bool) (number : Nat) :
    Option Awaiting :=
  if upgrade then none
  else (app.awaited env req).map fun callback =>
    { request := number, header := req, callback := callback }

/-- The answers of a callback. -/
def bodyAnswers (env : AppEnv) (body : BodyContent) (awaiting : Awaiting) : List Answer :=
  (Application.bodyResponses env awaiting.header body awaiting.callback).map fun r =>
    { request := awaiting.request, content := r, response := Application.unsized r }

/-- The reads that a session has started have the callback `callback`. -/
def started (reading : List (Option Awaiting)) (callback : Option Awaiting)
    (session : HttpSession) : List (Option Awaiting) :=
  reading ++ List.replicate (session.reads.outstanding.length - reading.length) callback

/-- What the read at position `i` gives the session to send. -/
def readAnswers (s : Serving) (i : Nat) (ec : SocketResult) (env : AppEnv)
    (body : BodyContent) : List Answer :=
  if ec = SocketResult.ok then
    ((s.reading[i]?).join.map (bodyAnswers env body)).getD []
  else
    []

/-- The event, as the session sees it. -/
def sessionEvent (s : Serving) : Event -> HttpSession.Event
  | Event.headerRead i ec env req upgrade =>
      HttpSession.Event.headerRead i ec (app.outcome env req upgrade)
  | Event.bodyRead i ec env body =>
      HttpSession.Event.bodyRead i ec ((s.readAnswers i ec env body).map Answer.response)
  | Event.writeDone ec => HttpSession.Event.writeDone ec

/-- What the event makes of the answers, beside the session. -/
def follow (s : Serving) (session : HttpSession) : Event -> Serving
  | Event.headerRead i ec env req upgrade =>
      if ec = SocketResult.ok then
        { session := session
          reading :=
            started (s.reading.eraseIdx i) (asked app env req upgrade s.received) session
          queued := s.queued ++ headerAnswers app env req upgrade s.received
          written := s.written
          received := s.received + 1 }
      else
        { s with session := session, reading := s.reading.eraseIdx i }
  | Event.bodyRead i ec env body =>
      { s with
        session := session
        reading := started (s.reading.eraseIdx i) none session
        queued := s.queued ++ s.readAnswers i ec env body }
  | Event.writeDone ec =>
      if ec = SocketResult.ok then
        { s with
          session := session
          reading := started s.reading none session
          queued := if s.session.closesAfterWrite then s.queued else s.queued.tail
          written := s.written ++ s.queued.take 1 }
      else
        { s with session := session }

def step (s : Serving) (e : Event) : Option Serving :=
  (HttpSession.system.step s.session (s.sessionEvent app e)).map fun session =>
    s.follow app session e

/-- A new connection, whose session has begun to read. -/
def system : EventSystem Serving Event where
  init :=
    { session := HttpSession.system.init
      reading := [none]
      queued := []
      written := []
      received := 0 }
  step := step app

/-- A write frees a full queue only when no read is outstanding. -/
def ReadGuard (s : Serving) (e : Event) : Prop :=
  HttpSession.ReadGuard s.session (s.sessionEvent app e)

instance (s : Serving) (e : Event) : Decidable (s.ReadGuard app e) :=
  inferInstanceAs (Decidable (HttpSession.ReadGuard _ _))

end Serving

/-!
## The order of the answers
-/

/-- A response behind which the connection is closed. -/
def Answer.Closes (a : Answer) : Prop :=
  a.response.needEof = true

/-- The queue answers the requests `n`, `n + 1`, … in front of `m`; what is behind
a response that closes the connection does not matter. -/
def Follows : Nat -> List Answer -> Nat -> Prop
  | n, [], m => n = m
  | n, a :: rest, m => a.request = n ∧ (a.Closes ∨ Follows (n + 1) rest m)

theorem follows_append {n m m' : Nat} {queued more : List Answer}
    (h : Follows n queued m) (hmore : Follows m more m') : Follows n (queued ++ more) m' := by
  induction queued generalizing n with
  | nil =>
      rw [show n = m from h]
      exact hmore
  | cons a rest ih => exact ⟨h.left, h.right.imp id ih⟩

theorem follows_of_closes {n m m' : Nat} {queued : List Answer} (h : Follows n queued m)
    (hcloses : exists a, a ∈ queued ∧ a.Closes) : Follows n queued m' := by
  induction queued generalizing n with
  | nil =>
      rcases hcloses with ⟨a, hmem, _⟩
      cases hmem
  | cons a rest ih =>
      refine ⟨h.left, ?_⟩
      rcases h.right with hfirst | hrest
      · exact Or.inl hfirst
      · rcases hcloses with ⟨b, hmem, hb⟩
        rcases List.mem_cons.mp hmem with rfl | htail
        · exact Or.inl hb
        · exact Or.inr (ih hrest ⟨b, htail, hb⟩)

/-- There is room for one more response, or the connection is going to be closed. -/
def Room (queued : List Answer) : Prop :=
  queued.length < HttpSession.limit ∨ exists a, a ∈ queued ∧ a.Closes

/-- The queue is within its limit, or the connection is going to be closed. -/
def Bounded (queued : List Answer) : Prop :=
  queued.length <= HttpSession.limit ∨ exists a, a ∈ queued ∧ a.Closes

theorem bounded_of_room {queued : List Answer} (h : Room queued) : Bounded queued :=
  h.imp Nat.le_of_lt id

theorem bounded_append {queued more : List Answer} (h : Room queued)
    (hmore : more.length <= 1 ∨ exists a, a ∈ more ∧ a.Closes) :
    Bounded (queued ++ more) := by
  rcases h with hlt | ⟨a, hmem, ha⟩
  · rcases hmore with hone | ⟨a, hmem, ha⟩
    · apply Or.inl
      rw [List.length_append]
      omega
    · exact Or.inr ⟨a, List.mem_append_right _ hmem, ha⟩
  · exact Or.inr ⟨a, List.mem_append_left _ hmem, ha⟩

/-- A response that does not close the connection leaves the queue. -/
theorem bounded_tail {a : Answer} {rest : List Answer} (h : Bounded (a :: rest))
    (ha : ¬ a.Closes) : Room rest := by
  rcases h with hle | ⟨b, hmem, hb⟩
  · exact Or.inl hle
  · rcases List.mem_cons.mp hmem with rfl | htail
    · exact absurd hb ha
    · exact Or.inr ⟨b, htail, hb⟩

namespace Serving

/--
What is being read: nothing, a header, a body that nobody waits for, or the body
of a request that a callback is going to answer.  All requests but the last one
have been answered into the queue; a body that could not be read leaves its
request without an answer.
-/
inductive Phase (s : Serving) (due : Nat) : Prop where
  | idle (houtstanding : s.session.reads.outstanding = []) (hreading : s.reading = [])
      (hdue : due = s.received ∨ due < s.received ∧ Room s.queued)
  | header (p : Nat) (hread : s.session.OnlyRead p Body.emptyBody)
      (hreading : s.reading = [none]) (hdone : s.session.readerDone = false)
      (hdue : due = s.received) (hroom : Room s.queued)
  | sink (p : Nat) (hread : s.session.OnlyRead p Body.sinkBody)
      (hreading : s.reading = [none]) (hdue : due = s.received)
  | body (p : Nat) (body : Body) (awaiting : Awaiting) (hread : s.session.OnlyRead p body)
      (hempty : body ≠ Body.emptyBody) (hsink : body ≠ Body.sinkBody)
      (hreading : s.reading = [some awaiting]) (hnumber : awaiting.request = due)
      (hdue : due + 1 = s.received) (hroom : Room s.queued)

/-- The responses stand in the queue in the order of their requests, the written
ones in front. -/
structure InOrder (s : Serving) (due : Nat) : Prop where
  calm : s.session.crashed = false
  phase : s.Phase due
  items : s.session.items = s.queued.map Answer.response
  busy : s.session.Busy
  order : s.session.Open -> Follows s.written.length s.queued due
  bounded : Bounded s.queued
  written : s.written.map Answer.request = List.range s.written.length
  known : s.written.length <= s.received
  asked : forall a, a ∈ s.queued -> a.request < s.received

/-!
## What the session does to its queue
-/

/-- The session has queued the responses `rs`, and that was all. -/
structure Sent (s t : HttpSession) (rs : List Net.Response) : Prop where
  crashed : t.crashed = s.crashed
  items : t.items = s.items ++ rs
  stays : t.Open <-> s.Open
  busy : s.Busy -> t.Busy

theorem sent_sendAll (s : HttpSession) (rs : List Net.Response) : Sent s (s.sendAll rs) rs where
  crashed := HttpSession.crashed_sendAll s rs
  items := HttpSession.items_sendAll s rs
  stays := HttpSession.open_sendAll s rs
  busy := fun hs => HttpSession.busy_sendAll hs rs

/-- What a session does to its reads alone. -/
theorem sent_of_eq {s t : HttpSession} (hcrashed : t.crashed = s.crashed)
    (hitems : t.items = s.items) (hwriting : t.writing = s.writing) : Sent s t [] where
  crashed := hcrashed
  items := by rw [hitems, List.append_nil]
  stays := by
    unfold HttpSession.Open
    rw [hitems, hwriting]
  busy := by
    unfold HttpSession.Busy
    rw [hitems, hwriting]
    exact id

theorem sent_trans {s t u : HttpSession} {rs rs' : List Net.Response} (h : Sent s t rs)
    (h' : Sent t u rs') : Sent s u (rs ++ rs') where
  crashed := h'.crashed.trans h.crashed
  items := by rw [h'.items, h.items, List.append_assoc]
  stays := h'.stays.trans h.stays
  busy := fun hs => h'.busy (h.busy hs)

theorem sent_completed (s : HttpSession) : Sent s s.completed [] :=
  sent_of_eq rfl rfl rfl

theorem sent_askedFor (s : HttpSession) (body : Body) : Sent s (s.askedFor body) [] :=
  sent_of_eq rfl rfl rfl

theorem sent_nextHeader (s : HttpSession) : Sent s s.nextHeader [] :=
  sent_of_eq rfl rfl rfl

/-- More answers stand behind those in the queue. -/
theorem inOrder_of_sent {s t : Serving} {due due' : Nat} {more : List Answer}
    (h : InOrder s due) (hsent : Sent s.session t.session (more.map Answer.response))
    (hqueued : t.queued = s.queued ++ more) (hwritten : t.written = s.written)
    (hreceived : s.received <= t.received) (hmore : Follows due more due')
    (hasked : forall a, a ∈ more -> a.request < t.received)
    (hbounded : Bounded t.queued) (hphase : t.Phase due') : InOrder t due' where
  calm := hsent.crashed.trans h.calm
  phase := hphase
  items := by rw [hsent.items, h.items, hqueued, List.map_append]
  busy := hsent.busy h.busy
  order := by
    intro hopen
    rw [hwritten, hqueued]
    exact follows_append (h.order (hsent.stays.mp hopen)) hmore
  bounded := hbounded
  written := by
    rw [hwritten]
    exact h.written
  known := by
    rw [hwritten]
    exact Nat.le_trans h.known hreceived
  asked := by
    intro a ha
    rw [hqueued] at ha
    rcases List.mem_append.mp ha with hold | hnew
    · exact Nat.lt_of_lt_of_le (h.asked a hold) hreceived
    · exact hasked a hnew

/-- One answer is queued, to the request that is due. -/
theorem inOrder_of_answer {s t : Serving} {due : Nat} {a : Answer} (h : InOrder s due)
    (hqueued : t.queued = s.queued ++ [a]) (hsent : Sent s.session t.session [a.response])
    (hwritten : t.written = s.written) (hreceived : s.received <= t.received)
    (hnumber : a.request = due) (hknown : due < t.received) (hroom : Room s.queued)
    (hphase : t.Phase (due + 1)) : InOrder t (due + 1) := by
  refine @inOrder_of_sent s t due (due + 1) [a] h hsent hqueued hwritten hreceived ?_ ?_ ?_
    hphase
  · exact ⟨hnumber, Or.inr rfl⟩
  · intro b hb
    rw [List.mem_singleton.mp hb, hnumber]
    exact hknown
  · rw [hqueued]
    exact bounded_append hroom (Or.inl (Nat.le_refl 1))

/-- Nothing is queued. -/
theorem inOrder_of_quiet {s t : Serving} {due : Nat} (h : InOrder s due)
    (hsent : Sent s.session t.session []) (hqueued : t.queued = s.queued)
    (hwritten : t.written = s.written) (hreceived : s.received <= t.received)
    (hphase : t.Phase due) : InOrder t due := by
  refine @inOrder_of_sent s t due due [] h hsent ?_ hwritten hreceived rfl ?_ ?_ hphase
  · rw [hqueued, List.append_nil]
  · intro a ha
    cases ha
  · rw [hqueued]
    exact h.bounded

/-!
## A header has been read
-/

section Steps

variable {app : Application} {s : Serving} {due p : Nat}

theorem started_one (callback : Option Awaiting) {session : HttpSession} {p : Nat}
    {body : Body} (h : session.OnlyRead p body) :
    started ([] : List (Option Awaiting)) callback session = [callback] := by
  unfold started
  rw [h.outstanding]
  rfl

theorem started_none (callback : Option Awaiting) {session : HttpSession}
    (h : session.reads.outstanding = []) :
    started ([] : List (Option Awaiting)) callback session = [] := by
  unfold started
  rw [h]
  rfl

theorem follow_headerRead (session : HttpSession) (i : Nat) (env : AppEnv) (req : Request)
    (upgrade : Bool) :
    s.follow app session (Event.headerRead i SocketResult.ok env req upgrade) =
      { session := session
        reading :=
          started (s.reading.eraseIdx i) (asked app env req upgrade s.received) session
        queued := s.queued ++ headerAnswers app env req upgrade s.received
        written := s.written
        received := s.received + 1 } :=
  rfl

/-- The chain is called for a header that is not an upgrade. -/
theorem onReadHeader_handlers (env : AppEnv) (req : Request)
    (hread : s.session.OnlyRead p Body.emptyBody) :
    s.session.completed.onReadHeader SocketResult.ok (app.outcome env req false) =
      s.session.completed.handleHeader
        (Application.sized (errorHandler req (Application.lastContext (app.calls env req))))
        ((app.calls env req).map Application.toCall) := by
  unfold HttpSession.onReadHeader
  dsimp only
  rw [HttpSession.completed_getParser hread]
  rfl

/-- The request is answered at once, or its body is read for a callback. -/
theorem inOrder_handlers (env : AppEnv) (req : Request)
    (h : InOrder s due) (hread : s.session.OnlyRead p Body.emptyBody)
    (hreading : s.reading = [none]) (hdone : s.session.readerDone = false)
    (hdue : due = s.received) (hroom : Room s.queued) :
    exists due', InOrder
      (s.follow app (HttpSession.settle (s.session.completed.onReadHeader SocketResult.ok
        (app.outcome env req false))) (Event.headerRead 0 SocketResult.ok env req false))
      due' := by
  have hidle := HttpSession.completed_outstanding hread
  have hparser : s.session.completed.reads.parser = some { id := p, body := Body.emptyBody } :=
    hread.parser
  rw [onReadHeader_handlers env req hread, follow_headerRead, hreading]
  cases Application.reacts app env req with
  | answered r hresponses hawaited hhandle =>
      have hanswers : headerAnswers app env req false s.received =
          [{ request := s.received, content := r, response := Application.sized r }] :=
        congrArg (List.map _) hresponses
      have hasked : asked app env req false s.received = none :=
        congrArg (Option.map _) hawaited
      have hidle' : (s.session.completed.send (Application.sized r)).reads.outstanding = [] := by
        rw [HttpSession.send_reads]
        exact hidle
      rw [hhandle, HttpSession.done_of_header (p := p)
        (by rw [HttpSession.send_reads]; exact hparser)
        (by rw [HttpSession.send_readerDone]; exact hdone), hanswers, hasked]
      have hsent := sent_trans (sent_completed s.session)
        (sent_trans (sent_sendAll s.session.completed [Application.sized r])
          (sent_askedFor _ Body.sinkBody))
      have honly := HttpSession.onlyRead_askedFor hidle' Body.sinkBody
      rw [hdue] at h
      refine ⟨s.received + 1, inOrder_of_answer h rfl hsent rfl (Nat.le_succ s.received) rfl
        (Nat.lt_succ_self s.received) hroom ?_⟩
      exact Phase.sink _ honly (started_one none honly) rfl
  | asked callback hresponses hawaited hhandle =>
      have hanswers : headerAnswers app env req false s.received = [] :=
        congrArg (List.map _) hresponses
      have hasked : asked app env req false s.received =
          some { request := s.received, header := req, callback := callback } :=
        congrArg (Option.map _) hawaited
      have hempty : Application.bodyType callback ≠ Body.emptyBody := by
        cases callback <;> exact nofun
      have hsink : Application.bodyType callback ≠ Body.sinkBody := by
        cases callback <;> exact nofun
      rw [hhandle, HttpSession.readBody_of_header hparser hempty, hanswers, hasked]
      have hsent := sent_trans (sent_completed s.session)
        (sent_askedFor s.session.completed (Application.bodyType callback))
      have honly := HttpSession.onlyRead_askedFor hidle (Application.bodyType callback)
      refine ⟨s.received, ?_⟩
      rw [hdue] at h
      refine inOrder_of_quiet h hsent (List.append_nil s.queued) rfl
        (Nat.le_succ s.received) ?_
      exact Phase.body _ _ _ honly hempty hsink (started_one _ honly) rfl rfl
        ((List.append_nil s.queued).symm ▸ hroom)

/-- After an upgrade nothing is read any more. -/
theorem inOrder_upgrade (env : AppEnv) (req : Request)
    (h : InOrder s due) (hread : s.session.OnlyRead p Body.emptyBody)
    (hreading : s.reading = [none]) (hdue : due = s.received) (hroom : Room s.queued) :
    exists due', InOrder
      (s.follow app (HttpSession.settle (s.session.completed.onReadHeader SocketResult.ok
        (app.outcome env req true))) (Event.headerRead 0 SocketResult.ok env req true))
      due' := by
  have hsession : s.session.completed.onReadHeader SocketResult.ok (app.outcome env req true) =
      Except.ok (s.session.completed.sendAll
        ((Application.upgradeResponse req).toList.map Application.sized)) := by
    unfold HttpSession.onReadHeader
    dsimp only
    rw [HttpSession.completed_getParser hread]
    rfl
  have hidle : forall rs, (s.session.completed.sendAll rs).reads.outstanding = [] := by
    intro rs
    rw [HttpSession.sendAll_reads]
    exact HttpSession.completed_outstanding hread
  rw [hsession, follow_headerRead, hreading]
  cases hresponse : Application.upgradeResponse req with
  | none =>
      refine ⟨due, inOrder_of_quiet h (sent_completed s.session) ?_ rfl
        (Nat.le_succ s.received) ?_⟩
      · unfold headerAnswers
        rw [if_pos rfl, hresponse]
        exact List.append_nil s.queued
      · apply Phase.idle
        · exact HttpSession.completed_outstanding hread
        · exact started_none _ (HttpSession.completed_outstanding hread)
        · apply Or.inr
          constructor
          · rw [hdue]
            exact Nat.lt_succ_self s.received
          · unfold headerAnswers
            rw [if_pos rfl, hresponse]
            exact (List.append_nil s.queued).symm ▸ hroom
  | some r =>
      have hanswers : headerAnswers app env req true s.received =
          [{ request := s.received, content := r, response := Application.sized r }] := by
        unfold headerAnswers
        rw [if_pos rfl, hresponse]
        rfl
      have hsent := sent_trans (sent_completed s.session)
        (sent_sendAll s.session.completed [Application.sized r])
      rw [hanswers]
      rw [hdue] at h
      refine ⟨s.received + 1, inOrder_of_answer h rfl hsent rfl (Nat.le_succ s.received) rfl
        (Nat.lt_succ_self s.received) hroom ?_⟩
      exact Phase.idle (hidle _) (started_none _ (hidle _)) (Or.inl rfl)

/-- A read that has failed leaves the queue alone. -/
theorem onReadHeader_failed {ec : SocketResult} (hec : ec ≠ SocketResult.ok)
    (t : HttpSession) (outcome : HeaderOutcome) :
    t.onReadHeader ec outcome = Except.ok t := by
  cases ec with
  | ok => exact absurd rfl hec
  | operationAborted => rfl
  | endOfStream => rfl
  | failed => rfl

theorem onReadBody_failed {ec : SocketResult} (hec : ec ≠ SocketResult.ok)
    (t : HttpSession) (body : Body) (rs : List Net.Response) :
    t.onReadBody body ec rs = Except.ok t := by
  cases ec with
  | ok => exact absurd rfl hec
  | operationAborted => rfl
  | endOfStream => rfl
  | failed => rfl

theorem inOrder_headerRead {t : HttpSession} {i : Nat} {ec : SocketResult} {env : AppEnv}
    {req : Request} {upgrade : Bool} (h : InOrder s due)
    (hstep : HttpSession.system.step s.session
      (s.sessionEvent app (Event.headerRead i ec env req upgrade)) = some t) :
    exists due', InOrder (s.follow app t (Event.headerRead i ec env req upgrade)) due' := by
  rcases HttpSession.headerRead_of_step hstep with ⟨_, ⟨op, hop, hbody⟩, rfl⟩
  cases h.phase with
  | idle houtstanding hreading hdue =>
      rw [houtstanding] at hop
      cases hop
  | sink p hread hreading hdue =>
      rcases HttpSession.read_of_onlyRead hread hop with ⟨_, rfl⟩
      cases hbody
  | body p body awaiting hread hempty hsink hreading hnumber hdue hroom =>
      rcases HttpSession.read_of_onlyRead hread hop with ⟨_, rfl⟩
      exact absurd hbody hempty
  | header p hread hreading hdone hdue hroom =>
      rcases HttpSession.read_of_onlyRead hread hop with ⟨rfl, _⟩
      by_cases hec : ec = SocketResult.ok
      · subst hec
        cases upgrade with
        | true => exact inOrder_upgrade env req h hread hreading hdue hroom
        | false => exact inOrder_handlers env req h hread hreading hdone hdue hroom
      · refine ⟨due, ?_⟩
        unfold follow
        dsimp only
        rw [onReadHeader_failed hec, if_neg hec, hreading]
        refine inOrder_of_quiet h (sent_completed s.session) rfl rfl (Nat.le_refl _) ?_
        exact Phase.idle (HttpSession.completed_outstanding hread) rfl (Or.inl hdue)

/-!
## A body has been read
-/

/-- A callback answers its request, and every answer of it closes the connection. -/
theorem bodyAnswers_cases (env : AppEnv) (body : BodyContent) (awaiting : Awaiting) :
    (exists a rest, bodyAnswers env body awaiting = a :: rest) ∧
      forall a, a ∈ bodyAnswers env body awaiting ->
        a.request = awaiting.request ∧ a.Closes := by
  constructor
  · unfold bodyAnswers Application.bodyResponses Application.runBody
    cases awaiting.callback with
    | form mode => exact ⟨_, _, rfl⟩
    | hook callback =>
        cases callback with
        | finish hook =>
            dsimp only [WebhooksHandler.runCallback, WebhooksHandler.finish]
            split
            · exact ⟨_, _, rfl⟩
            · exact ⟨_, _, rfl⟩
        | handleGithubSignature hook signature =>
            dsimp only [WebhooksHandler.runCallback, WebhooksHandler.handleGithubSignature,
              WebhooksHandler.finish]
            split
            · exact ⟨_, _, rfl⟩
            · split
              · exact ⟨_, _, rfl⟩
              · exact ⟨_, _, rfl⟩
  · intro a ha
    rcases List.mem_map.mp ha with ⟨r, _, rfl⟩
    exact ⟨rfl, rfl⟩

/-- Once a body has been read, the next header is read if there is room. -/
theorem inOrder_bodyCompleted {due' : Nat} {body : Body} {more : List Answer}
    (h : InOrder s due) (hread : s.session.OnlyRead p body)
    (hsink : body = Body.sinkBody -> more = []) (hmore : Follows due more due')
    (hdue : due' = s.received) (hasked : forall a, a ∈ more -> a.request < s.received)
    (hbounded : Bounded (s.queued ++ more)) :
    InOrder
      { s with
        session := HttpSession.settle (s.session.completed.onReadBody body SocketResult.ok
          (more.map Answer.response))
        reading := started [] none (HttpSession.settle (s.session.completed.onReadBody body
          SocketResult.ok (more.map Answer.response)))
        queued := s.queued ++ more } due' := by
  have hsent := sent_trans (sent_completed s.session)
    (sent_sendAll s.session.completed (more.map Answer.response))
  have hidle : (s.session.completed.sendAll (more.map Answer.response)).reads.outstanding =
      [] := by
    rw [HttpSession.sendAll_reads]
    exact HttpSession.completed_outstanding hread
  rw [HttpSession.onReadBody_ok hread _ fun hbody => by rw [hsink hbody]; rfl]
  split
  · refine @inOrder_of_sent s _ due due' more h hsent rfl rfl (Nat.le_refl _) hmore hasked
      hbounded ?_
    exact Phase.idle hidle (started_none _ hidle) (Or.inl hdue)
  · next hfull =>
      have honly := HttpSession.onlyRead_nextHeader hidle
      have hsent' := sent_trans hsent (sent_nextHeader _)
      rw [List.nil_append, List.append_nil] at hsent'
      refine @inOrder_of_sent s _ due due' more h hsent' rfl rfl (Nat.le_refl _) hmore
        hasked hbounded ?_
      refine Phase.header _ honly (started_one _ honly) rfl hdue (Or.inl ?_)
      have hitems : (s.session.completed.sendAll (more.map Answer.response)).items =
          (s.queued ++ more).map Answer.response := by
        rw [HttpSession.items_sendAll, List.map_append]
        exact congrArg (· ++ more.map Answer.response) h.items
      rw [HttpSession.isFull, hitems, List.length_map, decide_eq_true_eq] at hfull
      exact Nat.lt_of_not_le hfull

theorem readAnswers_failed {i : Nat} {ec : SocketResult} (hec : ec ≠ SocketResult.ok)
    (env : AppEnv) (body : BodyContent) : s.readAnswers i ec env body = [] :=
  if_neg hec

theorem readAnswers_ok {reading : Option Awaiting} (hreading : s.reading = [reading])
    (env : AppEnv) (body : BodyContent) :
    s.readAnswers 0 SocketResult.ok env body =
      (reading.map (bodyAnswers env body)).getD [] := by
  unfold readAnswers
  rw [if_pos rfl, hreading]
  rfl

/-- A body that could not be read leaves its request without an answer. -/
theorem inOrder_bodyFailed {i : Nat} {ec : SocketResult} {env : AppEnv}
    {content : BodyContent} {body : Body} {reading : Option Awaiting}
    (hec : ec ≠ SocketResult.ok) (h : InOrder s due) (hread : s.session.OnlyRead p body)
    (hreading : s.reading = [reading])
    (hdue : due = s.received ∨ due < s.received ∧ Room s.queued) :
    InOrder
      (s.follow app (HttpSession.settle (s.session.completed.onReadBody body ec
        ((s.readAnswers i ec env content).map Answer.response)))
        (Event.bodyRead 0 ec env content)) due := by
  unfold follow
  dsimp only
  rw [readAnswers_failed hec, onReadBody_failed hec, readAnswers_failed hec, hreading]
  have hidle := HttpSession.completed_outstanding hread
  refine inOrder_of_quiet h (sent_completed s.session) (List.append_nil s.queued) rfl
    (Nat.le_refl _) ?_
  exact Phase.idle hidle (started_none none hidle) ((List.append_nil s.queued).symm ▸ hdue)

theorem inOrder_bodyRead {t : HttpSession} {i : Nat} {ec : SocketResult} {env : AppEnv}
    {content : BodyContent} (h : InOrder s due)
    (hstep : HttpSession.system.step s.session
      (s.sessionEvent app (Event.bodyRead i ec env content)) = some t) :
    exists due', InOrder (s.follow app t (Event.bodyRead i ec env content)) due' := by
  rcases HttpSession.bodyRead_of_step hstep with ⟨_, op, hop, hbody, rfl⟩
  cases h.phase with
  | idle houtstanding hreading hdue =>
      rw [houtstanding] at hop
      cases hop
  | header p hread hreading hdone hdue hroom =>
      rcases HttpSession.read_of_onlyRead hread hop with ⟨_, rfl⟩
      exact absurd rfl hbody
  | sink p hread hreading hdue =>
      rcases HttpSession.read_of_onlyRead hread hop with ⟨rfl, rfl⟩
      by_cases hec : ec = SocketResult.ok
      · subst hec
        refine ⟨due, ?_⟩
        unfold follow
        dsimp only
        rw [readAnswers_ok hreading, hreading]
        refine inOrder_bodyCompleted h hread (fun _ => rfl) rfl hdue ?_ ?_
        · intro a ha
          cases ha
        · exact (List.append_nil s.queued).symm ▸ h.bounded
      · exact ⟨due, inOrder_bodyFailed hec h hread hreading (Or.inl hdue)⟩
  | body p body awaiting hread hempty hsink hreading hnumber hdue hroom =>
      rcases HttpSession.read_of_onlyRead hread hop with ⟨rfl, rfl⟩
      by_cases hec : ec = SocketResult.ok
      · subst hec
        rcases bodyAnswers_cases env content awaiting with ⟨⟨a, rest, hanswers⟩, hall⟩
        have ha := hall a (hanswers ▸ List.mem_cons_self)
        refine ⟨due + 1, ?_⟩
        unfold follow
        dsimp only
        rw [readAnswers_ok hreading, hreading]
        refine inOrder_bodyCompleted h hread (fun hbody => absurd hbody hsink) ?_ hdue ?_ ?_
        · show Follows due (bodyAnswers env content awaiting) (due + 1)
          rw [hanswers]
          exact ⟨ha.left.trans hnumber, Or.inl ha.right⟩
        · intro b hb
          rw [(hall b hb).left, hnumber, ← hdue]
          exact Nat.lt_succ_self due
        · apply bounded_append hroom
          refine Or.inr ⟨a, ?_, ha.right⟩
          show a ∈ bodyAnswers env content awaiting
          rw [hanswers]
          exact List.mem_cons_self
      · refine ⟨due, inOrder_bodyFailed hec h hread hreading (Or.inr ⟨?_, hroom⟩)⟩
        rw [← hdue]
        exact Nat.lt_succ_self due

/-!
## A response has been written
-/

theorem onWrite_failed {ec : SocketResult} (hec : ec ≠ SocketResult.ok) (t : HttpSession) :
    t.onWrite ec = Except.ok { t with writing := false } := by
  cases ec with
  | ok => exact absurd rfl hec
  | operationAborted => rfl
  | endOfStream => rfl
  | failed => rfl

/-- A write that ends the connection stops the queue. -/
theorem inOrder_stopped {written : List Answer} (h : InOrder s due)
    (hne : s.queued ≠ []) (hwritten : written.map Answer.request = List.range written.length)
    (hknown : written.length <= s.received) :
    InOrder { s with session := { s.session with writing := false }, written := written }
      due where
  calm := h.calm
  phase := by
    cases h.phase with
    | idle houtstanding hreading hdue => exact Phase.idle houtstanding hreading hdue
    | header p hread hreading hdone hdue hroom =>
        exact Phase.header p ⟨hread.outstanding, hread.parser⟩ hreading hdone hdue hroom
    | sink p hread hreading hdue =>
        exact Phase.sink p ⟨hread.outstanding, hread.parser⟩ hreading hdue
    | body p body awaiting hread hempty hsink hreading hnumber hdue hroom =>
        exact Phase.body p body awaiting ⟨hread.outstanding, hread.parser⟩ hempty hsink
          hreading hnumber hdue hroom
  items := h.items
  busy := by
    intro hwriting
    cases hwriting
  order := by
    intro hopen
    rcases hopen with hwriting | hitems
    · cases hwriting
    · have hitems : s.session.items = [] := hitems
      rw [h.items] at hitems
      exact absurd (List.map_eq_nil_iff.mp hitems) hne
  bounded := h.bounded
  written := hwritten
  known := hknown
  asked := h.asked

/-- The answers written so far, with the next one. -/
theorem written_append {written : List Answer} {a : Answer}
    (h : written.map Answer.request = List.range written.length)
    (ha : a.request = written.length) :
    (written ++ [a]).map Answer.request = List.range (written ++ [a]).length := by
  rw [List.map_append, h, List.length_append, List.length_singleton, List.range_succ]
  exact congrArg (List.range written.length ++ [·]) ha

/-- The phase after the first response has left the queue. -/
theorem phase_tail {a : Answer} {rest written : List Answer} (hphase : s.Phase due)
    (hqueued : s.queued = a :: rest) (ha : ¬ a.Closes) :
    Phase { s with
      session := s.session.queueOnWrite, queued := rest, written := written } due := by
  have hroom : Room s.queued -> Room rest := by
    intro h
    rw [hqueued] at h
    exact bounded_tail (bounded_of_room h) ha
  cases hphase with
  | idle houtstanding hreading hdue =>
      exact Phase.idle houtstanding hreading (hdue.imp_right fun h => ⟨h.left, hroom h.right⟩)
  | header p hread hreading hdone hdue hr =>
      exact Phase.header p ⟨hread.outstanding, hread.parser⟩ hreading hdone hdue (hroom hr)
  | sink p hread hreading hdue =>
      exact Phase.sink p ⟨hread.outstanding, hread.parser⟩ hreading hdue
  | body p body awaiting hread hempty hsink hreading hnumber hdue hr =>
      exact Phase.body p body awaiting ⟨hread.outstanding, hread.parser⟩ hempty hsink
        hreading hnumber hdue (hroom hr)

/-- One phase reads as many bodies and headers as the session does. -/
theorem length_reading (hphase : s.Phase due) :
    s.reading.length = s.session.reads.outstanding.length := by
  cases hphase with
  | idle houtstanding hreading hdue =>
      rw [houtstanding, hreading]
      rfl
  | header p hread hreading hdone hdue hr =>
      rw [hread.outstanding, hreading]
      rfl
  | sink p hread hreading hdue =>
      rw [hread.outstanding, hreading]
      rfl
  | body p body awaiting hread hempty hsink hreading hnumber hdue hr =>
      rw [hread.outstanding, hreading]
      rfl

theorem started_same {reading : List (Option Awaiting)} {callback : Option Awaiting}
    {session : HttpSession} (h : reading.length = session.reads.outstanding.length) :
    started reading callback session = reading := by
  unfold started
  rw [← h, Nat.sub_self]
  exact List.append_nil reading

theorem follow_writeDone (session : HttpSession) :
    s.follow app session (Event.writeDone SocketResult.ok) =
      { s with
        session := session
        reading := started s.reading none session
        queued := if s.session.closesAfterWrite then s.queued else s.queued.tail
        written := s.written ++ s.queued.take 1 } :=
  rfl

theorem closesAfterWrite_iff {a : Answer} {rest : List Answer}
    (hitems : s.session.items = s.queued.map Answer.response)
    (hqueued : s.queued = a :: rest) : s.session.closesAfterWrite = true <-> a.Closes := by
  unfold HttpSession.closesAfterWrite
  rw [hitems, hqueued]
  exact Iff.rfl

/-- The rest of the queue is written, and if it was full, a header is read again. -/
theorem inOrder_popped {a : Answer} {rest : List Answer} (h : InOrder s due)
    (hqueued : s.queued = a :: rest) (ha : ¬ a.Closes)
    (hfollows : Follows (s.written.length + 1) rest due)
    (hwritten : (s.written ++ [a]).map Answer.request =
      List.range (s.written ++ [a]).length)
    (hknown : (s.written ++ [a]).length <= s.received) :
    InOrder { s with
      session := s.session.queueOnWrite, queued := rest, written := s.written ++ [a] }
      due where
  calm := h.calm
  phase := phase_tail h.phase hqueued ha
  items := by
    show s.session.items.tail = rest.map Answer.response
    rw [h.items, hqueued]
    rfl
  busy := by
    intro hwriting
    exact of_decide_eq_true hwriting
  order := by
    intro _
    rw [List.length_append]
    exact hfollows
  bounded := by
    have hbounded := h.bounded
    rw [hqueued] at hbounded
    exact bounded_of_room (bounded_tail hbounded ha)
  written := hwritten
  known := hknown
  asked := by
    intro b hb
    apply h.asked b
    rw [hqueued]
    exact List.mem_cons_of_mem a hb

/-- A request that has no answer is behind a response that closes the connection. -/
theorem follows_received {a : Answer} {rest : List Answer} {n : Nat} (h : InOrder s due)
    (hidle : s.session.reads.outstanding = []) (hfull : s.session.isFull = true)
    (hqueued : s.queued = a :: rest) (ha : ¬ a.Closes) (hfollows : Follows n rest due) :
    Follows n rest s.received := by
  have hread : forall {p body}, s.session.OnlyRead p body -> False := by
    intro p body honly
    have houtstanding := honly.outstanding
    rw [hidle] at houtstanding
    cases houtstanding
  cases h.phase with
  | header p honly hreading hdone hdue hroom => exact (hread honly).elim
  | sink p honly hreading hdue => exact (hread honly).elim
  | body p body awaiting honly hempty hsink hreading hnumber hdue hroom =>
      exact (hread honly).elim
  | idle houtstanding hreading hdue =>
      rcases hdue with hdue | ⟨_, hlt | ⟨b, hmem, hb⟩⟩
      · rw [← hdue]
        exact hfollows
      · rw [HttpSession.isFull, decide_eq_true_eq, h.items, List.length_map] at hfull
        exact absurd hlt (Nat.not_lt_of_le hfull)
      · rw [hqueued] at hmem
        rcases List.mem_cons.mp hmem with rfl | htail
        · exact absurd hb ha
        · exact follows_of_closes hfollows ⟨b, htail, hb⟩

theorem inOrder_nextHeader {due' : Nat} (h : InOrder s due)
    (hidle : s.session.reads.outstanding = []) (hroom : Room s.queued)
    (hdue' : due' = s.received)
    (hfollows : s.session.Open -> Follows s.written.length s.queued due') :
    InOrder { s with
      session := s.session.nextHeader
      reading := started [] none s.session.nextHeader } due' where
  calm := h.calm
  phase := by
    have honly := HttpSession.onlyRead_nextHeader hidle
    exact Phase.header _ honly (started_one none honly) rfl hdue' hroom
  items := h.items
  busy := h.busy
  order := hfollows
  bounded := h.bounded
  written := h.written
  known := h.known
  asked := h.asked

theorem inOrder_writeDone {t : HttpSession} {ec : SocketResult} (h : InOrder s due)
    (hguard : ReadGuard app s (Event.writeDone ec))
    (hstep : HttpSession.system.step s.session
      (s.sessionEvent app (Event.writeDone ec)) = some t) :
    exists due', InOrder (s.follow app t (Event.writeDone ec)) due' := by
  rcases HttpSession.writeDone_of_step hstep with ⟨_, hwriting, rfl⟩
  have horder := h.order (Or.inl hwriting)
  cases hqueued : s.queued with
  | nil =>
      apply absurd _ (h.busy hwriting)
      rw [h.items, hqueued]
      rfl
  | cons a rest =>
      have hne : s.queued ≠ [] := by
        rw [hqueued]
        exact List.cons_ne_nil a rest
      rw [hqueued] at horder
      have hknown : (s.written ++ [a]).length <= s.received := by
        rw [List.length_append, List.length_singleton, ← horder.left]
        exact h.asked a (hqueued ▸ List.mem_cons_self)
      have hwritten := written_append h.written horder.left
      by_cases hec : ec = SocketResult.ok
      · subst hec
        rw [follow_writeDone, hqueued]
        unfold HttpSession.onWrite
        by_cases hcloses : s.session.closesAfterWrite = true
        · -- the queue is left as it is, and nothing more is written
          refine ⟨due, ?_⟩
          have hstopped := inOrder_stopped h hne hwritten hknown
          rw [hqueued] at hstopped
          dsimp only
          rw [if_pos hcloses, if_pos hcloses, show started s.reading none (HttpSession.settle
            (Except.ok { s.session with writing := false })) = s.reading from
              started_same (length_reading h.phase)]
          exact hstopped
        · have ha : ¬ a.Closes :=
            fun ha => hcloses ((closesAfterWrite_iff h.items hqueued).mpr ha)
          have hfollows : Follows (s.written.length + 1) rest due :=
            horder.right.resolve_left ha
          have hpopped := inOrder_popped h hqueued ha hfollows hwritten hknown
          dsimp only
          rw [if_neg hcloses, if_neg hcloses]
          by_cases hfull : s.session.isFull = true
          · rw [if_pos hfull]
            have hidle : s.session.reads.outstanding = [] :=
              hguard rfl (eq_false_of_ne_true hcloses) hfull
            have hreading : s.reading = [] := by
              apply List.eq_nil_of_length_eq_zero
              rw [length_reading h.phase, hidle]
              rfl
            have hroom : Room rest := by
              have hbounded := h.bounded
              rw [hqueued] at hbounded
              exact bounded_tail hbounded ha
            rw [hreading]
            refine ⟨s.received, inOrder_nextHeader hpopped hidle hroom rfl ?_⟩
            intro _
            rw [List.length_append]
            exact follows_received h hidle hfull hqueued ha hfollows
          · rw [if_neg hfull]
            refine ⟨due, ?_⟩
            rw [show started s.reading none (HttpSession.settle
              (Except.ok s.session.queueOnWrite)) = s.reading from
                started_same (length_reading h.phase)]
            exact hpopped
      · refine ⟨due, ?_⟩
        unfold follow
        dsimp only
        rw [onWrite_failed hec, if_neg hec]
        exact inOrder_stopped h hne h.written h.known

end Steps

/-!
## Runs
-/

variable {app : Application}

theorem inOrder_step {s t : Serving} {e : Event} (hs : exists due, InOrder s due)
    (hguard : ReadGuard app s e) (hstep : (system app).step s e = some t) :
    exists due, InOrder t due := by
  rcases hs with ⟨due, h⟩
  rcases Option.map_eq_some_iff.mp hstep with ⟨session, hsession, rfl⟩
  cases e with
  | headerRead i ec env req upgrade => exact inOrder_headerRead h hsession
  | bodyRead i ec env body => exact inOrder_bodyRead h hsession
  | writeDone ec => exact inOrder_writeDone h hguard hsession

theorem inOrder_init : InOrder (system app).init 0 where
  calm := rfl
  phase := Phase.header 0 ⟨rfl, rfl⟩ rfl rfl rfl (Or.inl (Nat.succ_pos 7))
  items := rfl
  busy := by
    intro hwriting
    cases hwriting
  order := fun _ => rfl
  bounded := Or.inl (Nat.zero_le _)
  written := rfl
  known := Nat.le_refl 0
  asked := by
    intro a ha
    cases ha

/-- The requests get their responses in order: the written ones answer the requests
`0`, `1`, … that have been received, each once. -/
def InRequestOrder (s : Serving) : Prop :=
  s.written.map Answer.request = List.range s.written.length ∧
    s.written.length <= s.received

/-- As long as a single read is outstanding at a time, a connection never crashes and
answers its requests in order, each of them once, however they are pipelined and
whatever the handlers find; and its queue stays within the limit, up to a response
that closes the connection. -/
theorem serving_inOrder (app : Application) (es : List Event)
    (hguard : (system app).EveryStep (ReadGuard app) (system app).init es) :
    (system app).EveryState
      (fun s => s.session.crashed = false ∧ s.InRequestOrder ∧ Bounded s.queued)
      (system app).init es := by
  have hinv : (system app).EveryState (fun s => exists due, InOrder s due)
      (system app).init es :=
    EventSystem.everyState_of_everyStep
      (fun s e t hs hg hstep => inOrder_step hs hg hstep) ⟨0, inOrder_init⟩ hguard
  apply EventSystem.everyState_mono ?_ hinv
  rintro s ⟨due, h⟩
  exact ⟨h.calm, ⟨h.written, h.known⟩, h.bounded⟩

/-- A server that finds nothing. -/
def emptyEnv : AppEnv where
  authenticate := fun _ => Except.ok none
  rights := { checkProjectRight := fun _ _ => Except.ok none }
  hooks :=
    { getUserInfo := fun _ => Except.ok none
      checkProjectRight := fun _ _ => Except.ok none
      hmacSha1 := fun _ _ => []
      jobParams := fun _ _ => none
      currentPath := []
      freshName := 0 }
  files := { openFile := fun _ => OpenResult.noSuchFile, mimeType := fun _ => [] }
  disk := { isDirectory := fun _ => false, fileExists := fun _ => false }

def sampleApp : Application where
  docRoot := []
  projectsRoot := []

/-- A request for a file that is not there. -/
def sampleRequest : Request where
  method := Verb.get
  target := str "/x"
  fields := []
  version := 11
  keepAlive := true

/-- A request with its body, behind one that has been read. -/
def arrival : List Event :=
  [Event.headerRead 0 SocketResult.ok emptyEnv sampleRequest false,
    Event.bodyRead 0 SocketResult.ok emptyEnv { values := [], text := [] }]

/-- Eight requests fill the queue; when a write has freed it, another one comes in, and
all nine are answered. -/
def sampleEvents : List Event :=
  (List.replicate 8 arrival).flatten ++ [Event.writeDone SocketResult.ok] ++ arrival ++
    List.replicate 8 (Event.writeDone SocketResult.ok)

theorem serving_inOrder_sample :
    (system sampleApp).EveryState
        (fun s => s.session.crashed = false ∧ s.InRequestOrder ∧ Bounded s.queued)
        (system sampleApp).init sampleEvents ∧
      ((system sampleApp).runFrom (system sampleApp).init sampleEvents).map
        (fun s => s.written.map Answer.request) = some (List.range 9) :=
  ⟨serving_inOrder sampleApp sampleEvents (by decide +kernel), by decide +kernel⟩

end Serving
end Http
end CisWebui
