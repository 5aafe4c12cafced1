import CisWebui.Foundation.EventSystem
import CisWebui.RequestContext

/-!
# The HTTP session

`http_session`, its response queue and its request reader as an event system.
A request is read in two asynchronous operations, the header and then the body,
and both use the parser object `parser_` points to.  The next request is read
from `on_read_body` while the queue has room and from `on_write` when the queue
was at its limit.

A handler decides what is done with a request: the event of a header read
carries the calls of the handlers in the chain, each with the responses it
queues, the body it asks for and its result.
-/

namespace CisWebui
namespace Net

open Foundation

/-- The body types the request parser is instantiated with. -/
inductive Body where
  | emptyBody
  | sinkBody
  | stringBody
  | multipartFormBody
deriving DecidableEq, Repr

/-- The object `parser_` points to, and the body type it was made for. -/
structure Parser where
  id : Nat
  body : Body
deriving DecidableEq, Repr

/-- An outstanding `async_read_header` (of an `emptyBody`) or `async_read`. -/
structure ReadOp where
  body : Body
  parser : Nat
deriving DecidableEq, Repr

/-- A queued response; `needEof` closes the connection after it is written. -/
structure Response where
  needEof : Bool
deriving DecidableEq, Repr

/-- The outcomes of a socket operation that the session tells apart. -/
inductive SocketResult where
  | ok
  | operationAborted
  | endOfStream
  | failed
deriving DecidableEq, Repr

/-- What a handler does with the session before it returns. -/
inductive HandlerAction where
  | send (r : Response)
  | readStringBody
  | readMultipartForm
deriving DecidableEq, Repr

/-- One call of a handler in the chain. -/
structure HandlerCall where
  actions : List HandlerAction
  result : HandleResult
deriving DecidableEq, Repr

/-- What becomes of a request header: an upgrade, or the calls of the handlers
in the chain and the response of the error handler. -/
inductive HeaderOutcome where
  | upgrade (responses : List Response)
  | handlers (calls : List HandlerCall) (onError : Response)
deriving DecidableEq, Repr

/--
The reading side: the outstanding reads, `parser_`, and the number of parsers
made so far.  `replacedInUse` records that `parser_` was replaced while an
outstanding read still used it.
-/
structure RequestReads where
  outstanding : List ReadOp
  parser : Option Parser
  parsersMade : Nat
  replacedInUse : Bool
deriving DecidableEq, Repr

/-- The session; `crashed` is set when an exception leaves a handler. -/
structure HttpSession where
  reads : RequestReads
  readerDone : Bool
  items : List Response
  writing : Bool
  crashed : Bool
deriving DecidableEq, Repr

namespace HttpSession

/-- The session after a call returned, or at the point where it threw. -/
abbrev Action := Except HttpSession HttpSession

/-!
## The response queue
-/

/-- `http_session_queue::limit` -/
def limit : Nat := 8

/-- `http_session_queue::is_full` -/
def isFull (s : HttpSession) : Bool :=
  decide (limit <= s.items.length)

/-- `http_session_queue::send` -/
def send (s : HttpSession) (r : Response) : HttpSession :=
  let queued := { s with items := s.items ++ [r] }
  if queued.items.length = 1 then { queued with writing := true } else queued

/-- Queue a list of responses, one after the other. -/
def sendAll (s : HttpSession) (rs : List Response) : HttpSession :=
  rs.foldl send s

/-- `http_session_queue::on_write` -/
def queueOnWrite (s : HttpSession) : HttpSession :=
  let rest := s.items.tail
  { s with items := rest, writing := decide (rest ≠ []) }

/-- The response being written asks for the connection to be closed. -/
def closesAfterWrite (s : HttpSession) : Bool :=
  match s.items with
  | [] => false
  | r :: _ => r.needEof

/-!
## The request reader
-/

/-- `parser_ = std::make_unique<parser_wrapper_impl<Body>>(..)` -/
def makeParser (s : HttpSession) (body : Body) : HttpSession :=
  let inUse :=
    match s.reads.parser with
    | none => false
    | some p => s.reads.outstanding.any fun op => op.parser == p.id
  { s with
    reads :=
      { s.reads with
        parser := some { id := s.reads.parsersMade, body := body }
        parsersMade := s.reads.parsersMade + 1
        replacedInUse := s.reads.replacedInUse || inUse } }

/-- `get_parser<Body>`: a parser of another type is a bad cast. -/
def getParser (s : HttpSession) (body : Body) : Except HttpSession Parser :=
  match s.reads.parser with
  | none => Except.error s
  | some p => if p.body = body then Except.ok p else Except.error s

/-- Start an asynchronous read that uses the parser `p`. -/
def startRead (s : HttpSession) (p : Parser) : HttpSession :=
  { s with
    reads :=
      { s.reads with
        outstanding :=
          s.reads.outstanding ++ [{ body := p.body, parser := p.id }] } }

/-- `http_request_reader::prepare` -/
def prepare (s : HttpSession) : HttpSession :=
  { s with readerDone := false }.makeParser Body.emptyBody

/-- `http_request_reader::upgrade_parser`, a no-op for `empty_body`. -/
def upgradeParser (s : HttpSession) (body : Body) : Action := do
  if body = Body.emptyBody then
    return s
  let _ ← s.getParser Body.emptyBody
  return s.makeParser body

/-- `http_request_reader::async_read_body` -/
def asyncReadBody (s : HttpSession) (body : Body) : Action := do
  let upgraded ← s.upgradeParser body
  let p ← upgraded.getParser body
  return { upgraded.startRead p with readerDone := true }

/-- `http_request_reader::done`: sink the body no handler asked for. -/
def done (s : HttpSession) : Action :=
  if s.readerDone then Except.ok s else s.asyncReadBody Body.sinkBody

/-- `http_session::do_read_header` -/
def doReadHeader (s : HttpSession) : Action := do
  let prepared := s.prepare
  let p ← prepared.getParser Body.emptyBody
  return prepared.startRead p

/-!
## The handlers
-/

/-- One action of a handler. -/
def runAction (s : HttpSession) : HandlerAction -> Action
  | HandlerAction.send r => Except.ok (s.send r)
  | HandlerAction.readStringBody => s.asyncReadBody Body.stringBody
  | HandlerAction.readMultipartForm => s.asyncReadBody Body.multipartFormBody

/-- The actions of a handler, in order. -/
def runActions (s : HttpSession) : List HandlerAction -> Action
  | [] => Except.ok s
  | a :: rest => (s.runAction a).bind fun t => t.runActions rest

/-- `handlers_chain::handle_header`; the reader is not told to be done when
every handler passed the request on. -/
def handleHeader (s : HttpSession) (onError : Response) :
    List HandlerCall -> Action
  | [] => Except.ok (s.send onError)
  | c :: rest =>
      (s.runActions c.actions).bind fun t =>
        match c.result with
        | HandleResult.next => t.handleHeader onError rest
        | HandleResult.done => t.done
        | HandleResult.error => (t.send onError).done

/-!
## The completions
-/

/-- The read at position `i` is no longer outstanding. -/
def readCompleted (s : HttpSession) (i : Nat) : HttpSession :=
  { s with
    reads := { s.reads with outstanding := s.reads.outstanding.eraseIdx i } }

/-- `http_session::on_read_header` -/
def onReadHeader (s : HttpSession) (ec : SocketResult)
    (outcome : HeaderOutcome) : Action :=
  match ec with
  | SocketResult.operationAborted => Except.ok s
  | SocketResult.endOfStream => Except.ok s
  | SocketResult.failed => Except.ok s
  | SocketResult.ok =>
      (s.getParser Body.emptyBody).bind fun _ =>
        match outcome with
        | HeaderOutcome.upgrade responses => Except.ok (s.sendAll responses)
        | HeaderOutcome.handlers calls onError => s.handleHeader onError calls

/-- The callback of `on_read_body`; a sunk body has none. -/
def bodyCallback (s : HttpSession) (body : Body) (responses : List Response) :
    Action :=
  if body = Body.sinkBody then
    Except.ok s
  else
    (s.getParser body).bind fun _ => Except.ok (s.sendAll responses)

/-- `http_session::on_read_body` -/
def onReadBody (s : HttpSession) (body : Body) (ec : SocketResult)
    (responses : List Response) : Action :=
  match ec with
  | SocketResult.operationAborted => Except.ok s
  | SocketResult.endOfStream => Except.ok s
  | SocketResult.failed => Except.ok s
  | SocketResult.ok =>
      (s.bodyCallback body responses).bind fun t =>
        if t.isFull then Except.ok t else t.doReadHeader

/-- `http_session::on_write` -/
def onWrite (s : HttpSession) (ec : SocketResult) : Action :=
  match ec with
  | SocketResult.operationAborted => Except.ok { s with writing := false }
  | SocketResult.endOfStream => Except.ok { s with writing := false }
  | SocketResult.failed => Except.ok { s with writing := false }
  | SocketResult.ok =>
      if s.closesAfterWrite then
        Except.ok { s with writing := false }
      else if s.isFull then
        s.queueOnWrite.doReadHeader
      else
        Except.ok s.queueOnWrite

/-!
## The event system
-/

/-- What can happen to the session; `i` is the place of the completed read
among the outstanding ones. -/
inductive Event where
  | headerRead (i : Nat) (ec : SocketResult) (outcome : HeaderOutcome)
  | bodyRead (i : Nat) (ec : SocketResult) (responses : List Response)
  | writeDone (ec : SocketResult)
  | queued (r : Response)
deriving DecidableEq, Repr

/-- An exception leaves `io_context::run` and ends the process. -/
def settle : Action -> HttpSession
  | Except.ok s => s
  | Except.error s => { s with crashed := true }

/-- A session before `run`: nothing is outstanding and there is no parser. -/
def created : HttpSession where
  reads :=
    { outstanding := []
      parser := none
      parsersMade := 0
      replacedInUse := false }
  readerDone := false
  items := []
  writing := false
  crashed := false

/-- A completion can occur only while the operation is outstanding. -/
def step (s : HttpSession) (e : Event) : Option HttpSession :=
  if s.crashed then
    none
  else
    match e with
    | Event.headerRead i ec outcome =>
        match s.reads.outstanding[i]? with
        | none => none
        | some op =>
            if op.body = Body.emptyBody then
              some (settle ((s.readCompleted i).onReadHeader ec outcome))
            else
              none
    | Event.bodyRead i ec responses =>
        match s.reads.outstanding[i]? with
        | none => none
        | some op =>
            if op.body = Body.emptyBody then
              none
            else
              some (settle ((s.readCompleted i).onReadBody op.body ec responses))
    | Event.writeDone ec =>
        if s.writing then some (settle (s.onWrite ec)) else none
    | Event.queued r => some (s.send r)

/-- The HTTP session as an event system, started by `run`. -/
def system : EventSystem HttpSession Event where
  init := settle created.doReadHeader
  step := step

/-!
## What the operations do to the reading side
-/

/-- A predicate holds of the session an action leaves behind, whether it
returned or threw. -/
def Settles (P : HttpSession -> Prop) : Action -> Prop
  | Except.ok s => P s
  | Except.error s => P s

theorem settles_bind {P Q : HttpSession -> Prop} {a : Action}
    {f : HttpSession -> Action} (ha : Settles P a)
    (hPQ : forall s, P s -> Q s) (hf : forall s, P s -> Settles Q (f s)) :
    Settles Q (a.bind f) := by
  cases a with
  | ok s => exact hf s ha
  | error s => exact hPQ s ha

theorem settles_mono {P Q : HttpSession -> Prop} {a : Action}
    (hPQ : forall s, P s -> Q s) (ha : Settles P a) : Settles Q a := by
  cases a with
  | ok s => exact hPQ s ha
  | error s => exact hPQ s ha

@[simp] theorem send_reads (s : HttpSession) (r : Response) :
    (s.send r).reads = s.reads := by
  simp only [send]
  split <;> rfl

@[simp] theorem send_readerDone (s : HttpSession) (r : Response) :
    (s.send r).readerDone = s.readerDone := by
  simp only [send]
  split <;> rfl

@[simp] theorem sendAll_reads (s : HttpSession) (rs : List Response) :
    (s.sendAll rs).reads = s.reads := by
  induction rs generalizing s with
  | nil => rfl
  | cons r rest ih =>
      show ((s.send r).sendAll rest).reads = s.reads
      rw [ih, send_reads]

theorem getParser_cases (s : HttpSession) (body : Body) :
    s.getParser body = Except.error s ∨
      exists p, s.reads.parser = some p ∧ p.body = body ∧
        s.getParser body = Except.ok p := by
  unfold getParser
  cases hparser : s.reads.parser with
  | none => exact Or.inl rfl
  | some p =>
      by_cases hbody : p.body = body
      · exact Or.inr ⟨p, rfl, hbody, by simp [hbody]⟩
      · exact Or.inl (by simp [hbody])

/-- The session after a read with a parser made for it. -/
def freshRead (s : HttpSession) (body : Body) : HttpSession :=
  (s.makeParser body).startRead { id := s.reads.parsersMade, body := body }

theorem doReadHeader_eq (s : HttpSession) :
    s.doReadHeader =
      Except.ok ({ s with readerDone := false }.freshRead Body.emptyBody) := by
  rfl

/-- A body can be asked for only while `parser_` is the header parser. -/
theorem asyncReadBody_cases (s : HttpSession) {body : Body}
    (hbody : body ≠ Body.emptyBody) :
    s.asyncReadBody body = Except.error s ∨
      (exists p, s.reads.parser = some p ∧ p.body = Body.emptyBody) ∧
        s.asyncReadBody body =
          Except.ok { s.freshRead body with readerDone := true } := by
  rcases getParser_cases s Body.emptyBody with herror | ⟨p, hp, hpBody, hok⟩
  · apply Or.inl
    simp only [asyncReadBody, upgradeParser, if_neg hbody, herror]
    rfl
  · apply Or.inr
    constructor
    · exact ⟨p, hp, hpBody⟩
    · simp only [asyncReadBody, upgradeParser, if_neg hbody, hok]
      simp [getParser, makeParser, freshRead, bind, Except.bind, pure,
        Except.pure]

theorem freshRead_outstanding (s : HttpSession) (body : Body) :
    (s.freshRead body).reads.outstanding =
      s.reads.outstanding ++
        [{ body := body, parser := s.reads.parsersMade }] := rfl

theorem freshRead_replacedInUse {s : HttpSession} (body : Body)
    (hidle : s.reads.outstanding = []) :
    (s.freshRead body).reads.replacedInUse = s.reads.replacedInUse := by
  simp only [freshRead, startRead, makeParser, hidle]
  cases s.reads.parser <;> simp

/-!
## At most one read
-/

/-- At most one read is outstanding, and `parser_` was never replaced under an
outstanding read. -/
def SingleRead (s : HttpSession) : Prop :=
  s.reads.outstanding.length <= 1 ∧ s.reads.replacedInUse = false

/-- A write that frees a full queue completes only when no read is
outstanding.  All other steps are unrestricted. -/
def ReadGuard (s : HttpSession) : Event -> Prop
  | Event.writeDone ec =>
      ec = SocketResult.ok -> s.closesAfterWrite = false -> s.isFull = true ->
        s.reads.outstanding = []
  | _ => True

instance (s : HttpSession) : (e : Event) -> Decidable (ReadGuard s e)
  | Event.headerRead _ _ _ => isTrue trivial
  | Event.bodyRead _ _ _ => isTrue trivial
  | Event.writeDone ec =>
      inferInstanceAs (Decidable (ec = SocketResult.ok -> s.closesAfterWrite = false ->
        s.isFull = true -> s.reads.outstanding = []))
  | Event.queued _ => isTrue trivial

/-- No read is outstanding and no parser was replaced in use. -/
def Idle (s : HttpSession) : Prop :=
  s.reads.outstanding = [] ∧ s.reads.replacedInUse = false

/-- While the handlers run, either no body was asked for yet, or one was and
the parser can no longer be upgraded. -/
def Handling (s : HttpSession) : Prop :=
  Idle s ∨
    (SingleRead s ∧ s.readerDone = true ∧
      forall p, s.reads.parser = some p -> p.body ≠ Body.emptyBody)

theorem singleRead_of_idle {s : HttpSession} (hs : Idle s) : SingleRead s := by
  rcases hs with ⟨hidle, hreplaced⟩
  simp [SingleRead, hidle, hreplaced]

theorem singleRead_of_handling {s : HttpSession} (hs : Handling s) :
    SingleRead s := by
  cases hs with
  | inl hidle => exact singleRead_of_idle hidle
  | inr hbusy => exact hbusy.left

theorem idle_of_reads_eq {s t : HttpSession} (hreads : t.reads = s.reads)
    (hs : Idle s) : Idle t := by
  unfold Idle at hs ⊢
  rw [hreads]
  exact hs

theorem singleRead_of_reads_eq {s t : HttpSession}
    (hreads : t.reads = s.reads) (hs : SingleRead s) : SingleRead t := by
  unfold SingleRead at hs ⊢
  rw [hreads]
  exact hs

theorem singleRead_freshRead {s : HttpSession} (body : Body) (hs : Idle s) :
    SingleRead (s.freshRead body) := by
  rcases hs with ⟨hidle, hreplaced⟩
  constructor
  · rw [freshRead_outstanding, hidle]
    simp
  · rw [freshRead_replacedInUse body hidle]
    exact hreplaced

theorem settles_doReadHeader {s : HttpSession} (hs : Idle s) :
    Settles SingleRead s.doReadHeader := by
  rw [doReadHeader_eq]
  exact singleRead_freshRead Body.emptyBody (idle_of_reads_eq rfl hs)

theorem settles_asyncReadBody {s : HttpSession} {body : Body}
    (hbody : body ≠ Body.emptyBody) (hs : Handling s) :
    Settles Handling (s.asyncReadBody body) := by
  rcases asyncReadBody_cases s hbody with herror | ⟨⟨p, hp, hpBody⟩, hok⟩
  · rw [herror]
    exact hs
  · rw [hok]
    cases hs with
    | inl hidle =>
        apply Or.inr
        refine ⟨singleRead_freshRead body hidle, rfl, ?_⟩
        intro q hq
        cases hq
        exact hbody
    | inr hbusy => exact absurd hpBody (hbusy.right.right p hp)

theorem handling_send {s : HttpSession} (r : Response) (hs : Handling s) :
    Handling (s.send r) := by
  unfold Handling Idle SingleRead at hs ⊢
  rw [send_reads, send_readerDone]
  exact hs

theorem settles_done {s : HttpSession} (hs : Handling s) :
    Settles Handling s.done := by
  unfold done
  split
  · exact hs
  · exact settles_asyncReadBody (by decide) hs

theorem settles_runActions {s : HttpSession} (as : List HandlerAction)
    (hs : Handling s) : Settles Handling (s.runActions as) := by
  induction as generalizing s with
  | nil => exact hs
  | cons a rest ih =>
      apply settles_bind (P := Handling) ?_ (fun _ ht => ht)
      · intro t ht
        exact ih ht
      · cases a with
        | send r => exact handling_send r hs
        | readStringBody => exact settles_asyncReadBody (by decide) hs
        | readMultipartForm => exact settles_asyncReadBody (by decide) hs

theorem settles_handleHeader {s : HttpSession} (onError : Response)
    (calls : List HandlerCall) (hs : Handling s) :
    Settles Handling (s.handleHeader onError calls) := by
  induction calls generalizing s with
  | nil => exact handling_send onError hs
  | cons c rest ih =>
      apply settles_bind (settles_runActions c.actions hs) (fun _ ht => ht)
      intro t ht
      cases c.result with
      | next => exact ih ht
      | done => exact settles_done ht
      | error => exact settles_done (handling_send onError ht)

theorem settles_onReadHeader {s : HttpSession} (ec : SocketResult)
    (outcome : HeaderOutcome) (hs : Idle s) :
    Settles SingleRead (s.onReadHeader ec outcome) := by
  cases ec with
  | operationAborted => exact singleRead_of_idle hs
  | endOfStream => exact singleRead_of_idle hs
  | failed => exact singleRead_of_idle hs
  | ok =>
      simp only [onReadHeader]
      rcases getParser_cases s Body.emptyBody with herror | ⟨p, _, _, hok⟩
      · rw [herror]
        exact singleRead_of_idle hs
      · rw [hok]
        cases outcome with
        | upgrade responses =>
            exact singleRead_of_reads_eq (sendAll_reads s responses)
              (singleRead_of_idle hs)
        | handlers calls onError =>
            exact settles_mono (fun _ => singleRead_of_handling)
              (settles_handleHeader onError calls (Or.inl hs))

theorem settles_bodyCallback {s : HttpSession} (body : Body)
    (responses : List Response) (hs : Idle s) :
    Settles Idle (s.bodyCallback body responses) := by
  unfold bodyCallback
  split
  · exact hs
  · rcases getParser_cases s body with herror | ⟨p, _, _, hok⟩
    · rw [herror]
      exact hs
    · rw [hok]
      exact idle_of_reads_eq (sendAll_reads s responses) hs

theorem settles_onReadBody {s : HttpSession} (body : Body) (ec : SocketResult)
    (responses : List Response) (hs : Idle s) :
    Settles SingleRead (s.onReadBody body ec responses) := by
  cases ec with
  | operationAborted => exact singleRead_of_idle hs
  | endOfStream => exact singleRead_of_idle hs
  | failed => exact singleRead_of_idle hs
  | ok =>
      apply settles_bind (settles_bodyCallback body responses hs)
        (fun _ => singleRead_of_idle)
      intro t ht
      split
      · exact singleRead_of_idle ht
      · exact settles_doReadHeader ht

theorem settles_onWrite {s : HttpSession} {ec : SocketResult}
    (hs : SingleRead s) (hguard : ReadGuard s (Event.writeDone ec)) :
    Settles SingleRead (s.onWrite ec) := by
  cases ec with
  | operationAborted => exact hs
  | endOfStream => exact hs
  | failed => exact hs
  | ok =>
      simp only [onWrite]
      split
      · exact hs
      · rename_i hcloses
        have hcloses : s.closesAfterWrite = false := by simpa using hcloses
        split
        · rename_i hfull
          have hidle : s.reads.outstanding = [] := hguard rfl hcloses hfull
          exact settles_doReadHeader (s := s.queueOnWrite) ⟨hidle, hs.right⟩
        · exact hs

theorem settle_of_settles {P : HttpSession -> Prop} {a : Action}
    (hcrash : forall s, P s -> P { s with crashed := true })
    (ha : Settles P a) : P (settle a) := by
  cases a with
  | ok s => exact ha
  | error s => exact hcrash s ha

/-- The only outstanding read completes, so none is left. -/
theorem idle_readCompleted {s : HttpSession} {i : Nat} {op : ReadOp}
    (hs : SingleRead s) (hop : s.reads.outstanding[i]? = some op) :
    Idle (s.readCompleted i) := by
  rcases hs with ⟨hle, hreplaced⟩
  have hlt : i < s.reads.outstanding.length :=
    (List.getElem?_eq_some_iff.mp hop).choose
  have hlength : (s.reads.outstanding.eraseIdx i).length = 0 := by
    rw [List.length_eraseIdx_of_lt hlt]
    omega
  exact ⟨List.length_eq_zero_iff.mp hlength, hreplaced⟩

theorem singleRead_step {s t : HttpSession} {e : Event} (hs : SingleRead s)
    (hguard : ReadGuard s e) (hstep : system.step s e = some t) :
    SingleRead t := by
  have hcrash : forall q, SingleRead q ->
      SingleRead { q with crashed := true } := fun _ hq => hq
  simp only [system, step] at hstep
  split at hstep
  · cases hstep
  cases e with
  | headerRead i ec outcome =>
      cases hop : s.reads.outstanding[i]? with
      | none => simp [hop] at hstep
      | some op =>
          by_cases hbody : op.body = Body.emptyBody
          · simp only [hop, hbody, if_true, Option.some.injEq] at hstep
            rw [← hstep]
            exact settle_of_settles hcrash
              (settles_onReadHeader ec outcome (idle_readCompleted hs hop))
          · simp [hop, hbody] at hstep
  | bodyRead i ec responses =>
      cases hop : s.reads.outstanding[i]? with
      | none => simp [hop] at hstep
      | some op =>
          by_cases hbody : op.body = Body.emptyBody
          · simp [hop, hbody] at hstep
          · simp only [hop, hbody, if_false, Option.some.injEq] at hstep
            rw [← hstep]
            exact settle_of_settles hcrash
              (settles_onReadBody op.body ec responses
                (idle_readCompleted hs hop))
  | writeDone ec =>
      cases hwriting : s.writing with
      | false => simp [hwriting] at hstep
      | true =>
          simp only [hwriting, if_true, Option.some.injEq] at hstep
          rw [← hstep]
          exact settle_of_settles hcrash (settles_onWrite hs hguard)
  | queued r =>
      simp only [Option.some.injEq] at hstep
      rw [← hstep]
      exact singleRead_of_reads_eq (send_reads s r) hs

/-- A step outside the guard starts a read next to the outstanding one. -/
theorem readGuard_of_step {s t : HttpSession} {e : Event}
    (hstep : system.step s e = some t) (ht : SingleRead t) :
    ReadGuard s e := by
  cases e with
  | headerRead i ec outcome => trivial
  | bodyRead i ec responses => trivial
  | queued r => trivial
  | writeDone ec =>
      intro hec hcloses hfull
      subst hec
      simp only [system, step] at hstep
      split at hstep
      · cases hstep
      cases hwriting : s.writing with
      | false => simp [hwriting] at hstep
      | true =>
          simp only [hwriting, if_true, Option.some.injEq, onWrite, hcloses,
            Bool.false_eq_true, if_false, hfull, doReadHeader_eq] at hstep
          have hle : t.reads.outstanding.length <= 1 := ht.left
          rw [← hstep] at hle
          simp only [settle, freshRead_outstanding, List.length_append,
            List.length_cons, List.length_nil] at hle
          have hlength : s.reads.outstanding.length = 0 := by
            simpa [queueOnWrite] using hle
          exact List.length_eq_zero_iff.mp hlength

theorem singleRead_init : SingleRead system.init := by
  have hidle : Idle created := ⟨rfl, rfl⟩
  exact settle_of_settles (fun _ hq => hq) (settles_doReadHeader hidle)

/-- A run keeps at most one read outstanding, each with its own parser, exactly
when no write frees a full queue while a read is outstanding. -/
theorem httpSession_singleRead_iff (es : List Event) :
    system.EveryState SingleRead system.init es <->
      system.EveryStep ReadGuard system.init es := by
  refine EventSystem.everyState_iff_everyStep ?_ ?_ ?_ singleRead_init
  · intro s e t hs hguard hstep
    exact singleRead_step hs hguard hstep
  · intro s e t _ hstep ht
    exact readGuard_of_step hstep ht
  · intro s hs
    exact hs

/-- A client pipelines eight requests and reads no response: the eighth body is
still being read when the first response has been written. -/
theorem httpSession_singleRead_not_everywhere :
    ¬ forall es, system.EveryState SingleRead system.init es := by
  intro h
  let ok : Response := { needEof := false }
  let answered : Event := Event.headerRead 0 SocketResult.ok
    (HeaderOutcome.handlers
      [{ actions := [HandlerAction.send ok], result := HandleResult.done }] ok)
  let sunk : Event := Event.bodyRead 0 SocketResult.ok []
  let es := (List.replicate 7 [answered, sunk]).flatten ++
    [answered, Event.writeDone SocketResult.ok]
  have hrun : ((system.runFrom system.init es).map
      fun s => s.reads.outstanding.length) = some 2 := by
    decide
  rcases Option.map_eq_some_iff.mp hrun with ⟨s, hs, hlength⟩
  have hle : s.reads.outstanding.length <= 1 :=
    (EventSystem.everyState_last (h es) hs).left
  omega

end HttpSession

end Net
end CisWebui
