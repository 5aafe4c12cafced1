import CisWebui.Net.HttpSession
import CisWebui.Net.WebsocketSession

/-!
# Back-pressure

Both kinds of session stop reading when their queue is at its limit and start
again when a write has made room.  As long as no operation fails, a session
that does not read has a full queue and is writing, so it cannot be stuck.
-/

namespace CisWebui
namespace Net

open Foundation

namespace QueuedWebsocketSession

/-!
## The WebSocket session
-/

/-- The completions of operations that have not failed. -/
def ErrorFree : Event -> Prop
  | Event.readDone ec _ => ec = IoResult.ok
  | Event.writeDone ec _ => ec = IoResult.ok
  | Event.asyncSend _ => True

/-- The queue is being written, and a session that does not read has a full
queue. -/
structure Flowing (s : QueuedWebsocketSession) : Prop where
  writing : s.messages ≠ [] -> s.writing = true
  full : s.reads.pending = 0 -> s.isFull = true

theorem writing_sendFront {s : QueuedWebsocketSession}
    (hne : s.messages ≠ []) : s.sendFront.writing = true := by
  cases hmessages : s.messages with
  | nil => exact absurd hmessages hne
  | cons m rest => simp only [sendFront, hmessages]

theorem isFull_of_length_le {s t : QueuedWebsocketSession}
    (hle : s.messages.length <= t.messages.length) (hs : s.isFull = true) :
    t.isFull = true := by
  rw [isFull, decide_eq_true_iff] at hs ⊢
  exact Nat.le_trans hs hle

theorem flowing_send {s : QueuedWebsocketSession} (m : Message)
    (hs : Flowing s) : Flowing (s.send m) where
  writing := by
    intro _
    rcases eq_or_ne s.messages [] with hempty | hne
    · exact send_writing (Or.inl hempty)
    · exact send_writing (Or.inr (hs.writing hne))
  full := by
    intro hpending
    rw [send_reads] at hpending
    apply isFull_of_length_le ?_ (hs.full hpending)
    rw [send_messages, List.length_append]
    exact Nat.le_add_right _ _

theorem writing_sendAll {s : QueuedWebsocketSession} (ms : List Message)
    (hs : s.messages ≠ [] -> s.writing = true) :
    (s.sendAll ms).messages ≠ [] -> (s.sendAll ms).writing = true := by
  induction ms generalizing s with
  | nil => exact hs
  | cons m rest ih =>
      apply ih
      intro _
      rcases eq_or_ne s.messages [] with hempty | hne
      · exact send_writing (Or.inl hempty)
      · exact send_writing (Or.inr (hs hne))

theorem pending_doRead (s : QueuedWebsocketSession) :
    s.doRead.reads.pending ≠ 0 := by
  exact Nat.succ_ne_zero _

theorem flowing_doRead {s : QueuedWebsocketSession}
    (hs : s.messages ≠ [] -> s.writing = true) : Flowing s.doRead where
  writing := hs
  full := fun hpending => absurd hpending (pending_doRead s)

theorem flowing_onRead {s : QueuedWebsocketSession} (replies : List Message)
    (hs : Flowing s) : Flowing (s.onRead IoResult.ok replies) := by
  have hhandled :
      ((s.readCompleted IoResult.ok).callHandler replies).messages ≠ [] ->
        ((s.readCompleted IoResult.ok).callHandler replies).writing = true :=
    writing_sendAll replies hs.writing
  simp only [onRead]
  split
  · rename_i hfull
    exact ⟨hhandled, fun _ => hfull⟩
  · exact flowing_doRead hhandled

theorem writing_queueOnWrite (s : QueuedWebsocketSession)
    (sent : List Message) :
    (s.queueOnWrite sent).messages ≠ [] ->
      (s.queueOnWrite sent).writing = true := by
  intro hne
  unfold queueOnWrite at hne ⊢
  rw [sendFront_messages] at hne
  exact writing_sendFront hne

theorem flowing_onWrite {s : QueuedWebsocketSession} (sent : List Message)
    (hs : Flowing s) : Flowing (s.onWrite IoResult.ok sent) := by
  have hwriting := writing_queueOnWrite s sent
  simp only [onWrite]
  split
  · exact flowing_doRead hwriting
  · rename_i hfull
    refine ⟨hwriting, ?_⟩
    intro hpending
    rw [queueOnWrite_reads] at hpending
    exact absurd (hs.full hpending) hfull

theorem flowing_step {s t : QueuedWebsocketSession} {e : Event}
    (hs : Flowing s) (herror : ErrorFree e)
    (hstep : system.step s e = some t) : Flowing t := by
  simp only [system] at hstep
  cases e with
  | readDone ec replies =>
      simp only [step] at hstep
      split at hstep
      · cases hstep
      · cases hstep
        have hok : ec = IoResult.ok := herror
        rw [hok]
        exact flowing_onRead replies hs
  | writeDone ec sent =>
      simp only [step] at hstep
      split at hstep
      · cases hstep
        have hok : ec = IoResult.ok := herror
        rw [hok]
        exact flowing_onWrite sent hs
      · cases hstep
  | asyncSend m =>
      cases hstep
      exact flowing_send m hs

theorem flowing_accepted : Flowing accepted :=
  flowing_doRead fun hne => absurd rfl hne

theorem flowing_of_errorFree {s : QueuedWebsocketSession} {es : List Event}
    (herror : forall e, e ∈ es -> ErrorFree e)
    (hrun : system.runFrom system.init es = some s) : Flowing s := by
  refine EventSystem.last_of_forall_mem ?_ flowing_accepted herror hrun
  intro s e t hs he hstep
  exact flowing_step hs he hstep

/-- A session whose queue other parts of the server have filled stops reading
when its read completes. -/
theorem stopped_of_asyncSends {ms : List Message}
    (hlength : WebsocketQueue.limit <= ms.length) :
    exists s, system.runFrom system.init
        (ms.map Event.asyncSend ++ [Event.readDone IoResult.ok []]) = some s ∧
      s.reads.pending = 0 := by
  let sent := accepted.sendAll ms
  have hpending : sent.reads.pending = 1 := by
    show (accepted.sendAll ms).reads.pending = 1
    rw [sendAll_reads]
    rfl
  have hmessages : sent.messages = ms := by
    show (accepted.sendAll ms).messages = ms
    rw [sendAll_messages]
    rfl
  have hfull : ((sent.readCompleted IoResult.ok).callHandler []).isFull = true := by
    rw [isFull, decide_eq_true_iff]
    show WebsocketQueue.limit <= sent.messages.length
    rw [hmessages]
    exact hlength
  exists sent.onRead IoResult.ok []
  constructor
  · have hsent : system.runFrom system.init (ms.map Event.asyncSend) =
        some sent := runFrom_asyncSends accepted ms
    rw [EventSystem.runFrom_append, hsent, Option.bind_some,
      EventSystem.runFrom_cons]
    simp [system, step, hpending]
  · simp only [onRead, hfull, if_true]
    show sent.reads.pending - 1 = 0
    rw [hpending]

/-- The completed write of a full queue starts a read. -/
theorem read_after_write {s t : QueuedWebsocketSession} {sent : List Message}
    (hfull : s.isFull = true)
    (hstep : system.step s (Event.writeDone IoResult.ok sent) = some t) :
    t.reads.pending ≠ 0 := by
  simp only [system, step] at hstep
  split at hstep
  · cases hstep
    simp only [onWrite, hfull, if_true]
    exact pending_doRead _
  · cases hstep

end QueuedWebsocketSession

namespace HttpSession

/-!
## The HTTP session
-/

/-- A response that keeps the connection open. -/
def KeepsAlive (r : Response) : Prop :=
  r.needEof = false

/-- The responses a handler sends keep the connection open. -/
def CallKeepsAlive (c : HandlerCall) : Prop :=
  forall r, HandlerAction.send r ∈ c.actions -> KeepsAlive r

/-- A request that is no upgrade, and that some handler of the chain ends. -/
def Ends : HeaderOutcome -> Prop
  | HeaderOutcome.upgrade _ => False
  | HeaderOutcome.handlers calls onError =>
      (exists c, c ∈ calls ∧ c.result ≠ HandleResult.next) ∧
        KeepsAlive onError ∧ forall c, c ∈ calls -> CallKeepsAlive c

/-- The events of a keep-alive connection on which nothing fails and every
request ends in its handler chain. -/
def ErrorFree : Event -> Prop
  | Event.headerRead _ ec outcome => ec = SocketResult.ok ∧ Ends outcome
  | Event.bodyRead _ ec responses =>
      ec = SocketResult.ok ∧ forall r, r ∈ responses -> KeepsAlive r
  | Event.writeDone ec => ec = SocketResult.ok
  | Event.queued r => KeepsAlive r

/-- The queue is being written, no response closes the connection, and a header
parser belongs to a request whose body has not been asked for. -/
structure Steady (s : HttpSession) : Prop where
  writing : s.items ≠ [] -> s.writing = true
  keepsAlive : forall r, r ∈ s.items -> KeepsAlive r
  headerParser : forall p, s.reads.parser = some p ->
    p.body = Body.emptyBody -> s.readerDone = false

/-- A read of the body that `parser_` was made for is outstanding. -/
def Reading (s : HttpSession) : Prop :=
  exists p op, s.reads.parser = some p ∧ op ∈ s.reads.outstanding ∧
    op.body = p.body

/-- `parser_` is the parser of a header that has been read. -/
def HeaderRead (s : HttpSession) : Prop :=
  exists p, s.reads.parser = some p ∧ p.body = Body.emptyBody

/-- Between two events: a session that does not read has a full queue. -/
def Flowing (s : HttpSession) : Prop :=
  Steady s ∧ (Reading s ∨ s.isFull = true)

/-- While the handlers run: a body has been asked for or can be. -/
def Serving (s : HttpSession) : Prop :=
  Steady s ∧ (Reading s ∨ HeaderRead s)

/-- After the handlers: a body is being read. -/
def BodyRead (s : HttpSession) : Prop :=
  Steady s ∧ Reading s

/-!
### Sending
-/

theorem send_items (s : HttpSession) (r : Response) :
    (s.send r).items = s.items ++ [r] := by
  simp only [send]
  split <;> rfl

theorem send_writing {s : HttpSession} (r : Response)
    (hs : s.items ≠ [] -> s.writing = true) : (s.send r).writing = true := by
  rcases eq_or_ne s.items [] with hempty | hne
  · simp [send, hempty]
  · have hlength : (s.items ++ [r]).length ≠ 1 := by
      simpa using hne
    simp only [send, hlength, if_false]
    exact hs hne

theorem steady_send {s : HttpSession} {r : Response} (hr : KeepsAlive r)
    (hs : Steady s) : Steady (s.send r) where
  writing := fun _ => send_writing r hs.writing
  keepsAlive := by
    intro r' hr'
    rw [send_items] at hr'
    rcases List.mem_append.mp hr' with hold | hnew
    · exact hs.keepsAlive r' hold
    · cases List.mem_singleton.mp hnew
      exact hr
  headerParser := by
    intro p hp hbody
    rw [send_reads] at hp
    rw [send_readerDone]
    exact hs.headerParser p hp hbody

theorem reading_of_reads_eq {s t : HttpSession} (hreads : t.reads = s.reads)
    (hs : Reading s) : Reading t := by
  unfold Reading at hs ⊢
  rw [hreads]
  exact hs

theorem serving_send {s : HttpSession} {r : Response} (hr : KeepsAlive r)
    (hs : Serving s) : Serving (s.send r) := by
  refine ⟨steady_send hr hs.left, ?_⟩
  unfold Reading HeaderRead
  rw [send_reads]
  exact hs.right

theorem isFull_send {s : HttpSession} (r : Response) (hs : s.isFull = true) :
    (s.send r).isFull = true := by
  rw [isFull, decide_eq_true_iff] at hs ⊢
  rw [send_items, List.length_append]
  exact Nat.le_add_right_of_le hs

theorem flowing_send {s : HttpSession} {r : Response} (hr : KeepsAlive r)
    (hs : Flowing s) : Flowing (s.send r) := by
  refine ⟨steady_send hr hs.left, ?_⟩
  cases hs.right with
  | inl hreading => exact Or.inl (reading_of_reads_eq (send_reads s r) hreading)
  | inr hfull => exact Or.inr (isFull_send r hfull)

theorem steady_sendAll {s : HttpSession} {rs : List Response}
    (hrs : forall r, r ∈ rs -> KeepsAlive r) (hs : Steady s) :
    Steady (s.sendAll rs) := by
  induction rs generalizing s with
  | nil => exact hs
  | cons r rest ih =>
      apply ih
      · intro r' hr'
        exact hrs r' (List.mem_cons_of_mem r hr')
      · exact steady_send (hrs r List.mem_cons_self) hs

/-!
### Reading
-/

theorem reading_freshRead (s : HttpSession) (body : Body) :
    Reading (s.freshRead body) := by
  refine ⟨{ id := s.reads.parsersMade, body := body },
    { body := body, parser := s.reads.parsersMade }, rfl, ?_, rfl⟩
  rw [freshRead_outstanding]
  exact List.mem_append_right _ (List.mem_singleton_self _)

theorem flowing_doReadHeader {s : HttpSession} (hs : Steady s) :
    Settles Flowing s.doReadHeader := by
  rw [doReadHeader_eq]
  refine ⟨?_, Or.inl (reading_freshRead _ _)⟩
  exact ⟨hs.writing, hs.keepsAlive, fun _ _ _ => rfl⟩

/-- A body can be asked for once; asking again is a bad parser cast, and the
first read is still outstanding. -/
theorem bodyRead_asyncReadBody {s : HttpSession} {body : Body}
    (hbody : body ≠ Body.emptyBody) (hs : Serving s) :
    Settles BodyRead (s.asyncReadBody body) := by
  rcases asyncReadBody_cases s hbody with herror | ⟨_, hok⟩
  · rw [herror]
    refine ⟨hs.left, ?_⟩
    cases hs.right with
    | inl hreading => exact hreading
    | inr hheader =>
        rcases hheader with ⟨p, hp, hempty⟩
        have hread : s.asyncReadBody body ≠ Except.error s := by
          simp [asyncReadBody, upgradeParser, if_neg hbody, getParser, hp,
            hempty, makeParser, bind, Except.bind, pure, Except.pure]
        exact absurd herror hread
  · rw [hok]
    refine ⟨⟨hs.left.writing, hs.left.keepsAlive, ?_⟩,
      reading_of_reads_eq rfl (reading_freshRead s body)⟩
    intro p hp hempty
    cases hp
    exact absurd hempty hbody

/-- An action that returns leaves `P`, and one that throws leaves `Q`. -/
def ReturnsOr (P Q : HttpSession -> Prop) : Action -> Prop
  | Except.ok s => P s
  | Except.error s => Q s

theorem returnsOr_bind {P P' Q : HttpSession -> Prop} {a : Action}
    {f : HttpSession -> Action} (ha : ReturnsOr P Q a)
    (hf : forall s, P s -> ReturnsOr P' Q (f s)) :
    ReturnsOr P' Q (a.bind f) := by
  cases a with
  | ok s => exact hf s ha
  | error s => exact ha

theorem settles_bind_of_returnsOr {P Q : HttpSession -> Prop} {a : Action}
    {f : HttpSession -> Action} (ha : ReturnsOr P Q a)
    (hf : forall s, P s -> Settles Q (f s)) : Settles Q (a.bind f) := by
  cases a with
  | ok s => exact hf s ha
  | error s => exact ha

theorem returnsOr_of_settles {P Q : HttpSession -> Prop} {a : Action}
    (hQP : forall s, Q s -> P s) (ha : Settles Q a) : ReturnsOr P Q a := by
  cases a with
  | ok s => exact hQP s ha
  | error s => exact ha

theorem serving_of_bodyRead {s : HttpSession} (hs : BodyRead s) : Serving s :=
  ⟨hs.left, Or.inl hs.right⟩

theorem flowing_of_bodyRead {s : HttpSession} (hs : BodyRead s) : Flowing s :=
  ⟨hs.left, Or.inl hs.right⟩

/-- Once the chain has ended a request, its body is being read. -/
theorem bodyRead_done {s : HttpSession} (hs : Serving s) :
    Settles BodyRead s.done := by
  unfold done
  split
  · rename_i hdone
    refine ⟨hs.left, ?_⟩
    cases hs.right with
    | inl hreading => exact hreading
    | inr hheader =>
        rcases hheader with ⟨p, hp, hempty⟩
        have hnotDone := hs.left.headerParser p hp hempty
        rw [hdone] at hnotDone
        cases hnotDone
  · exact bodyRead_asyncReadBody (by decide) hs

theorem serving_runAction {s : HttpSession} {a : HandlerAction}
    (ha : forall r, HandlerAction.send r = a -> KeepsAlive r)
    (hs : Serving s) : ReturnsOr Serving BodyRead (s.runAction a) := by
  cases a with
  | send r => exact serving_send (ha r rfl) hs
  | readStringBody =>
      exact returnsOr_of_settles (fun _ => serving_of_bodyRead)
        (bodyRead_asyncReadBody (by decide) hs)
  | readMultipartForm =>
      exact returnsOr_of_settles (fun _ => serving_of_bodyRead)
        (bodyRead_asyncReadBody (by decide) hs)

theorem serving_runActions {s : HttpSession} {as : List HandlerAction}
    (has : forall r, HandlerAction.send r ∈ as -> KeepsAlive r)
    (hs : Serving s) : ReturnsOr Serving BodyRead (s.runActions as) := by
  induction as generalizing s with
  | nil => exact hs
  | cons a rest ih =>
      have haction : ReturnsOr Serving BodyRead (s.runAction a) := by
        apply serving_runAction ?_ hs
        intro r hr
        apply has r
        rw [hr]
        exact List.mem_cons_self
      apply returnsOr_bind haction
      intro t ht
      apply ih ?_ ht
      intro r hr
      exact has r (List.mem_cons_of_mem a hr)

/-- A chain in which some handler ends the request leaves a body read
outstanding, even when a handler throws. -/
theorem bodyRead_handleHeader {s : HttpSession} {onError : Response}
    {calls : List HandlerCall} (honError : KeepsAlive onError)
    (hcalls : forall c, c ∈ calls -> CallKeepsAlive c)
    (hends : exists c, c ∈ calls ∧ c.result ≠ HandleResult.next)
    (hs : Serving s) : Settles BodyRead (s.handleHeader onError calls) := by
  induction calls generalizing s with
  | nil =>
      rcases hends with ⟨c, hc, _⟩
      cases hc
  | cons c rest ih =>
      have hactions : ReturnsOr Serving BodyRead (s.runActions c.actions) :=
        serving_runActions (hcalls c List.mem_cons_self) hs
      apply settles_bind_of_returnsOr hactions
      intro t ht
      cases hresult : c.result with
      | done => exact bodyRead_done ht
      | error => exact bodyRead_done (serving_send honError ht)
      | next =>
          apply ih ?_ ?_ ht
          · intro d hd
            exact hcalls d (List.mem_cons_of_mem c hd)
          · rcases hends with ⟨d, hd, hdresult⟩
            rcases List.mem_cons.mp hd with rfl | hrest
            · exact absurd hresult hdresult
            · exact ⟨d, hrest, hdresult⟩

/-!
### The completions
-/

/-- A read of another kind than `parser_` was made for is not the one that
`parser_` waits for. -/
theorem flowing_readCompleted {s : HttpSession} {i : Nat} {op : ReadOp}
    (hs : Flowing s) (hop : s.reads.outstanding[i]? = some op)
    (hother : forall p, s.reads.parser = some p -> p.body ≠ op.body) :
    Flowing (s.readCompleted i) := by
  refine ⟨⟨hs.left.writing, hs.left.keepsAlive, hs.left.headerParser⟩, ?_⟩
  cases hs.right with
  | inr hfull => exact Or.inr hfull
  | inl hreading =>
      rcases hreading with ⟨p, waited, hp, hwaited, hbody⟩
      refine Or.inl ⟨p, waited, hp, ?_, hbody⟩
      rcases List.mem_iff_getElem?.mp hwaited with ⟨j, hj⟩
      apply List.mem_eraseIdx_iff_getElem?.mpr
      refine ⟨j, ?_, hj⟩
      intro hij
      rw [hij, hop] at hj
      cases hj
      exact hother p hp hbody.symm

theorem steady_readCompleted {s : HttpSession} {i : Nat} (hs : Steady s) :
    Steady (s.readCompleted i) :=
  ⟨hs.writing, hs.keepsAlive, hs.headerParser⟩

theorem getParser_error {s t : HttpSession} {body : Body}
    (h : s.getParser body = Except.error t) :
    forall p, s.reads.parser = some p -> p.body ≠ body := by
  intro p hp hbody
  simp [getParser, hp, hbody] at h

theorem flowing_onReadHeader {s : HttpSession} {i : Nat} {op : ReadOp}
    {outcome : HeaderOutcome} (hs : Flowing s)
    (hop : s.reads.outstanding[i]? = some op)
    (hbody : op.body = Body.emptyBody) (hends : Ends outcome) :
    Settles Flowing ((s.readCompleted i).onReadHeader SocketResult.ok outcome) := by
  cases outcome with
  | upgrade responses => cases hends
  | handlers calls onError =>
      rcases hends with ⟨hended, honError, hcalls⟩
      simp only [onReadHeader]
      rcases getParser_cases (s.readCompleted i) Body.emptyBody with
        herror | ⟨p, hp, hempty, hok⟩
      · rw [herror]
        apply flowing_readCompleted hs hop
        rw [hbody]
        exact getParser_error (s := s.readCompleted i) herror
      · rw [hok]
        have hserving : Serving (s.readCompleted i) :=
          ⟨steady_readCompleted hs.left, Or.inr ⟨p, hp, hempty⟩⟩
        exact settles_mono (fun _ => flowing_of_bodyRead)
          (bodyRead_handleHeader honError hcalls hended hserving)

theorem flowing_restart {s : HttpSession} (hs : Steady s) :
    Settles Flowing (if s.isFull then Except.ok s else s.doReadHeader) := by
  split
  · rename_i hfull
    exact ⟨hs, Or.inr hfull⟩
  · exact flowing_doReadHeader hs

theorem flowing_onReadBody {s : HttpSession} {i : Nat} {op : ReadOp}
    {responses : List Response} (hs : Flowing s)
    (hop : s.reads.outstanding[i]? = some op)
    (hresponses : forall r, r ∈ responses -> KeepsAlive r) :
    Settles Flowing
      ((s.readCompleted i).onReadBody op.body SocketResult.ok responses) := by
  have hsteady : Steady (s.readCompleted i) := steady_readCompleted hs.left
  have hcallback : ReturnsOr Steady Flowing
      ((s.readCompleted i).bodyCallback op.body responses) := by
    unfold bodyCallback
    split
    · exact hsteady
    · rcases getParser_cases (s.readCompleted i) op.body with
        herror | ⟨p, _, _, hok⟩
      · rw [herror]
        exact flowing_readCompleted hs hop
          (getParser_error (s := s.readCompleted i) herror)
      · rw [hok]
        exact steady_sendAll hresponses hsteady
  apply settles_bind_of_returnsOr hcallback
  intro t ht
  exact flowing_restart ht

theorem steady_queueOnWrite {s : HttpSession} (hs : Steady s) :
    Steady s.queueOnWrite where
  writing := fun hne => decide_eq_true hne
  keepsAlive := fun r hr => hs.keepsAlive r (List.mem_of_mem_tail hr)
  headerParser := hs.headerParser

theorem closesAfterWrite_of_steady {s : HttpSession} (hs : Steady s) :
    s.closesAfterWrite = false := by
  unfold closesAfterWrite
  cases hitems : s.items with
  | nil => rfl
  | cons r rest =>
      apply hs.keepsAlive r
      rw [hitems]
      exact List.mem_cons_self

theorem flowing_onWrite {s : HttpSession} (hs : Flowing s) :
    Settles Flowing (s.onWrite SocketResult.ok) := by
  have hsteady := steady_queueOnWrite hs.left
  simp only [onWrite, closesAfterWrite_of_steady hs.left, Bool.false_eq_true,
    if_false]
  split
  · exact flowing_doReadHeader hsteady
  · rename_i hroom
    refine ⟨hsteady, Or.inl ?_⟩
    cases hs.right with
    | inl hreading => exact reading_of_reads_eq rfl hreading
    | inr hfull => exact absurd hfull hroom

theorem flowing_step {s t : HttpSession} {e : Event} (hs : Flowing s)
    (herror : ErrorFree e) (hstep : system.step s e = some t) : Flowing t := by
  have hcrash : forall q, Flowing q -> Flowing { q with crashed := true } := by
    intro q hq
    exact ⟨⟨hq.left.writing, hq.left.keepsAlive, hq.left.headerParser⟩, hq.right⟩
  simp only [system, step] at hstep
  split at hstep
  · cases hstep
  cases e with
  | headerRead i ec outcome =>
      rcases herror with ⟨rfl, hends⟩
      cases hop : s.reads.outstanding[i]? with
      | none => simp [hop] at hstep
      | some op =>
          simp only [hop] at hstep
          split at hstep
          · rename_i hbody
            cases hstep
            exact settle_of_settles hcrash
              (flowing_onReadHeader hs hop hbody hends)
          · cases hstep
  | bodyRead i ec responses =>
      rcases herror with ⟨rfl, hresponses⟩
      cases hop : s.reads.outstanding[i]? with
      | none => simp [hop] at hstep
      | some op =>
          simp only [hop] at hstep
          split at hstep
          · cases hstep
          · cases hstep
            exact settle_of_settles hcrash
              (flowing_onReadBody hs hop hresponses)
  | writeDone ec =>
      have hok : ec = SocketResult.ok := herror
      subst hok
      simp only at hstep
      split at hstep
      · cases hstep
        exact settle_of_settles hcrash (flowing_onWrite hs)
      · cases hstep
  | queued r =>
      cases hstep
      exact flowing_send herror hs

theorem flowing_init : Flowing system.init := by
  have hcreated : Steady created := by
    constructor
    · intro hne
      exact absurd rfl hne
    · intro r hr
      cases hr
    · intro p hp
      cases hp
  exact settle_of_settles (P := Flowing)
    (fun q hq => ⟨⟨hq.left.writing, hq.left.keepsAlive, hq.left.headerParser⟩,
      hq.right⟩)
    (flowing_doReadHeader hcreated)

theorem flowing_of_errorFree {s : HttpSession} {es : List Event}
    (herror : forall e, e ∈ es -> ErrorFree e)
    (hrun : system.runFrom system.init es = some s) : Flowing s := by
  refine EventSystem.last_of_forall_mem ?_ flowing_init herror hrun
  intro s e t hs he hstep
  exact flowing_step hs he hstep

/-- The completed write of a full queue starts a read. -/
theorem read_after_write {s t : HttpSession} (hs : Flowing s)
    (hfull : s.isFull = true)
    (hstep : system.step s (Event.writeDone SocketResult.ok) = some t) :
    t.reads.outstanding ≠ [] := by
  simp only [system, step] at hstep
  split at hstep
  · cases hstep
  split at hstep
  · cases hstep
    simp only [onWrite, closesAfterWrite_of_steady hs.left, Bool.false_eq_true,
      if_false, hfull, if_true, doReadHeader_eq, settle, freshRead_outstanding]
    exact List.append_ne_nil_of_right_ne_nil _ (List.cons_ne_nil _ _)
  · cases hstep

end HttpSession

/-!
## The result
-/

/-- A session on which nothing fails stops reading only while its queue is full
and being written, the next completed write makes it read again, and a session
with an idle queue is reading. -/
theorem backPressure_never_wedges :
    (forall es s, (forall e, e ∈ es -> QueuedWebsocketSession.ErrorFree e) ->
      QueuedWebsocketSession.system.runFrom
          QueuedWebsocketSession.system.init es = some s ->
        (s.reads.pending = 0 ->
          WebsocketQueue.limit <= s.messages.length ∧ s.writing = true ∧
            forall sent t, QueuedWebsocketSession.system.step s
                (QueuedWebsocketSession.Event.writeDone IoResult.ok sent) =
                  some t ->
              t.reads.pending ≠ 0) ∧
        (s.messages = [] -> s.reads.pending ≠ 0)) ∧
    (forall es s, (forall e, e ∈ es -> HttpSession.ErrorFree e) ->
      HttpSession.system.runFrom HttpSession.system.init es = some s ->
        (s.reads.outstanding = [] ->
          HttpSession.limit <= s.items.length ∧ s.writing = true ∧
            forall t, HttpSession.system.step s
                (HttpSession.Event.writeDone SocketResult.ok) = some t ->
              t.reads.outstanding ≠ []) ∧
        (s.items = [] -> s.reads.outstanding ≠ [])) := by
  constructor
  · intro es s herror hrun
    have hs := QueuedWebsocketSession.flowing_of_errorFree herror hrun
    constructor
    · intro hpending
      have hfull := hs.full hpending
      have hlength : WebsocketQueue.limit <= s.messages.length :=
        of_decide_eq_true hfull
      have hne : s.messages ≠ [] := by
        intro hempty
        rw [hempty] at hlength
        exact absurd hlength (by decide)
      refine ⟨hlength, hs.writing hne, ?_⟩
      intro sent t hstep
      exact QueuedWebsocketSession.read_after_write hfull hstep
    · intro hempty hpending
      have hlength : WebsocketQueue.limit <= s.messages.length :=
        of_decide_eq_true (hs.full hpending)
      rw [hempty] at hlength
      exact absurd hlength (by decide)
  · intro es s herror hrun
    have hs := HttpSession.flowing_of_errorFree herror hrun
    have hidle : s.reads.outstanding = [] -> s.isFull = true := by
      intro houtstanding
      cases hs.right with
      | inr hfull => exact hfull
      | inl hreading =>
          rcases hreading with ⟨p, op, _, hop, _⟩
          rw [houtstanding] at hop
          cases hop
    constructor
    · intro houtstanding
      have hfull := hidle houtstanding
      have hlength : HttpSession.limit <= s.items.length :=
        of_decide_eq_true hfull
      have hne : s.items ≠ [] := by
        intro hempty
        rw [hempty] at hlength
        exact absurd hlength (by decide)
      refine ⟨hlength, hs.left.writing hne, ?_⟩
      intro t hstep
      exact HttpSession.read_after_write hs hfull hstep
    · intro hempty houtstanding
      have hlength : HttpSession.limit <= s.items.length :=
        of_decide_eq_true (hidle houtstanding)
      rw [hempty] at hlength
      exact absurd hlength (by decide)

/-- Two sessions that have stopped reading: one whose queue other parts of the
server filled, and one whose client pipelined eight requests. -/
theorem backPressure_never_wedges_sample :
    (exists s, QueuedWebsocketSession.system.Reachable s ∧
      s.reads.pending = 0 ∧ s.writing = true) ∧
    (exists s, HttpSession.system.Reachable s ∧ s.reads.outstanding = [] ∧
      s.writing = true) := by
  constructor
  · let log : Message := { text := true, buffer := [] }
    let ms := List.replicate WebsocketQueue.limit log
    have hlength : WebsocketQueue.limit <= ms.length := by
      rw [List.length_replicate]
    rcases QueuedWebsocketSession.stopped_of_asyncSends hlength with
      ⟨s, hrun, hidle⟩
    have herror : forall e, e ∈ ms.map QueuedWebsocketSession.Event.asyncSend ++
          [QueuedWebsocketSession.Event.readDone IoResult.ok []] ->
        QueuedWebsocketSession.ErrorFree e := by
      intro e he
      rcases List.mem_append.mp he with hsent | hread
      · rcases List.mem_map.mp hsent with ⟨m, _, rfl⟩
        trivial
      · rw [List.mem_singleton.mp hread]
        rfl
    have hwriting := ((backPressure_never_wedges.left _ s herror hrun).left
      hidle).right.left
    exact ⟨s, ⟨_, hrun⟩, hidle, hwriting⟩
  · let ok : Response := { needEof := false }
    let call : HandlerCall :=
      { actions := [HandlerAction.send ok], result := HandleResult.done }
    let answered := HttpSession.Event.headerRead 0 SocketResult.ok
      (HeaderOutcome.handlers [call] ok)
    let sunk := HttpSession.Event.bodyRead 0 SocketResult.ok []
    let es := (List.replicate 8 [answered, sunk]).flatten
    have hends : HttpSession.Ends (HeaderOutcome.handlers [call] ok) := by
      refine ⟨⟨call, List.mem_singleton_self call, by decide⟩, rfl, ?_⟩
      intro c hc r hr
      rw [List.mem_singleton.mp hc] at hr
      cases List.mem_singleton.mp hr
      rfl
    have herror : forall e, e ∈ es -> HttpSession.ErrorFree e := by
      intro e he
      rcases List.mem_flatten.mp he with ⟨pair, hpair, he⟩
      rw [List.eq_of_mem_replicate hpair] at he
      rcases List.mem_cons.mp he with rfl | hrest
      · exact ⟨rfl, hends⟩
      · rw [List.mem_singleton.mp hrest]
        exact ⟨rfl, fun r hr => absurd hr List.not_mem_nil⟩
    let s := (HttpSession.system.runFrom HttpSession.system.init es).get
      (by decide)
    have hrun : HttpSession.system.runFrom HttpSession.system.init es = some s :=
      (Option.some_get _).symm
    have hidle : s.reads.outstanding = [] := by
      decide
    have hwriting := ((backPressure_never_wedges.right es s herror hrun).left
      hidle).right.left
    exact ⟨s, ⟨es, hrun⟩, hidle, hwriting⟩

end Net
end CisWebui
