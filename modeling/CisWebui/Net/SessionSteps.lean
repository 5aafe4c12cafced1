import CisWebui.Net.HttpSession

/-!
# Steps of the HTTP session

What each completion leaves behind when it is that of the only outstanding read,
with the parser that was made for it still in place.
-/

namespace CisWebui
namespace Net

open Foundation

namespace HttpSession

variable {s t : HttpSession} {p i : Nat} {body : Body} {ec : SocketResult}

/-!
## The response queue
-/

@[simp] theorem items_send (s : HttpSession) (r : Response) :
    (s.send r).items = s.items ++ [r] := by
  simp only [send]
  split <;> rfl

@[simp] theorem crashed_send (s : HttpSession) (r : Response) :
    (s.send r).crashed = s.crashed := by
  simp only [send]
  split <;> rfl

/-- The first response in the queue is written at once. -/
theorem writing_send_iff (s : HttpSession) (r : Response) :
    (s.send r).writing = true <-> s.writing = true ∨ s.items = [] := by
  unfold send
  cases hitems : s.items with
  | nil => simp
  | cons first rest => simp

@[simp] theorem items_sendAll (s : HttpSession) (rs : List Response) :
    (s.sendAll rs).items = s.items ++ rs := by
  induction rs generalizing s with
  | nil => exact (List.append_nil s.items).symm
  | cons r rest ih =>
      show ((s.send r).sendAll rest).items = s.items ++ r :: rest
      rw [ih, items_send, List.append_assoc]
      rfl

@[simp] theorem crashed_sendAll (s : HttpSession) (rs : List Response) :
    (s.sendAll rs).crashed = s.crashed := by
  induction rs generalizing s with
  | nil => rfl
  | cons r rest ih =>
      show ((s.send r).sendAll rest).crashed = s.crashed
      rw [ih, crashed_send]

/-- Either nothing is queued and nothing is written, or a write goes on. -/
def Open (s : HttpSession) : Prop :=
  s.writing = true ∨ s.items = []

/-- What is behind the queue of a session that is not open is never written. -/
theorem open_send (s : HttpSession) (r : Response) : (s.send r).Open <-> s.Open := by
  unfold Open
  rw [writing_send_iff, items_send]
  simp

theorem open_sendAll (s : HttpSession) (rs : List Response) :
    (s.sendAll rs).Open <-> s.Open := by
  induction rs generalizing s with
  | nil => exact Iff.rfl
  | cons r rest ih => exact (ih (s.send r)).trans (open_send s r)

/-- A write is that of a response in the queue. -/
def Busy (s : HttpSession) : Prop :=
  s.writing = true -> s.items ≠ []

theorem busy_send (s : HttpSession) (r : Response) : (s.send r).Busy := by
  intro _
  rw [items_send]
  exact List.append_ne_nil_of_right_ne_nil _ (List.cons_ne_nil r [])

theorem busy_sendAll (hs : s.Busy) (rs : List Response) : (s.sendAll rs).Busy := by
  induction rs generalizing s with
  | nil => exact hs
  | cons r rest ih => exact ih (busy_send s r)

/-!
## The only read
-/

/-- The only outstanding read is one of this body, with the parser in place. -/
structure OnlyRead (s : HttpSession) (p : Nat) (body : Body) : Prop where
  outstanding : s.reads.outstanding = [{ body := body, parser := p }]
  parser : s.reads.parser = some { id := p, body := body }

/-- The session once its only read has completed. -/
def completed (s : HttpSession) : HttpSession :=
  s.readCompleted 0

theorem completed_outstanding (h : s.OnlyRead p body) :
    s.completed.reads.outstanding = [] := by
  show s.reads.outstanding.eraseIdx 0 = []
  rw [h.outstanding]
  rfl

theorem completed_getParser (h : s.OnlyRead p body) :
    s.completed.getParser body = Except.ok { id := p, body := body } := by
  have hparser : s.completed.reads.parser = some { id := p, body := body } := h.parser
  unfold getParser
  rw [hparser]
  exact if_pos rfl

theorem onlyRead_freshRead (hidle : s.reads.outstanding = []) (body : Body) :
    (s.freshRead body).OnlyRead s.reads.parsersMade body := by
  constructor
  · rw [freshRead_outstanding, hidle]
    rfl
  · rfl

/-- The session once a body has been asked for. -/
def askedFor (s : HttpSession) (body : Body) : HttpSession :=
  { s.freshRead body with readerDone := true }

theorem onlyRead_askedFor (hidle : s.reads.outstanding = []) (body : Body) :
    (s.askedFor body).OnlyRead s.reads.parsersMade body := by
  have hfresh := onlyRead_freshRead hidle body
  exact ⟨hfresh.outstanding, hfresh.parser⟩

/-- The session once it has begun to read another header. -/
def nextHeader (s : HttpSession) : HttpSession :=
  { s with readerDone := false }.freshRead Body.emptyBody

theorem onlyRead_nextHeader (hidle : s.reads.outstanding = []) :
    s.nextHeader.OnlyRead s.reads.parsersMade Body.emptyBody :=
  @onlyRead_freshRead { s with readerDone := false } hidle Body.emptyBody

/-- A body is asked for with the parser of the header. -/
theorem asyncReadBody_of_header
    (hparser : s.reads.parser = some { id := p, body := Body.emptyBody })
    (hbody : body ≠ Body.emptyBody) :
    s.asyncReadBody body = Except.ok (s.askedFor body) := by
  rcases asyncReadBody_cases s hbody with herror | ⟨_, hok⟩
  · simp [asyncReadBody, upgradeParser, hbody, getParser, hparser, makeParser, bind,
      Except.bind, pure, Except.pure] at herror
  · exact hok

theorem done_of_header (hparser : s.reads.parser = some { id := p, body := Body.emptyBody })
    (hdone : s.readerDone = false) :
    s.done = Except.ok (s.askedFor Body.sinkBody) := by
  unfold done
  rw [hdone]
  exact asyncReadBody_of_header hparser (by decide)

theorem readBody_of_header
    (hparser : s.reads.parser = some { id := p, body := Body.emptyBody })
    (hbody : body ≠ Body.emptyBody) :
    (s.asyncReadBody body).bind done =
      Except.ok (s.askedFor body) := by
  rw [asyncReadBody_of_header hparser hbody]
  rfl

/-!
## The events
-/

theorem read_of_onlyRead (h : s.OnlyRead p body) {op : ReadOp}
    (hop : s.reads.outstanding[i]? = some op) :
    i = 0 ∧ op = { body := body, parser := p } := by
  rw [h.outstanding] at hop
  cases i with
  | zero =>
      cases hop
      exact ⟨rfl, rfl⟩
  | succ i => cases hop

/-- A header is read only while it is a header that is being read. -/
theorem headerRead_of_step {outcome : HeaderOutcome}
    (hstep : system.step s (Event.headerRead i ec outcome) = some t) :
    s.crashed = false ∧ (exists op, s.reads.outstanding[i]? = some op ∧
      op.body = Body.emptyBody) ∧
        t = settle ((s.readCompleted i).onReadHeader ec outcome) := by
  simp only [system, step] at hstep
  split at hstep
  · cases hstep
  · next hcalm =>
      cases hop : s.reads.outstanding[i]? with
      | none => simp [hop] at hstep
      | some op =>
          by_cases hbody : op.body = Body.emptyBody
          · simp only [hop, hbody, if_true, Option.some.injEq] at hstep
            exact ⟨eq_false_of_ne_true hcalm, ⟨op, rfl, hbody⟩, hstep.symm⟩
          · simp [hop, hbody] at hstep

theorem bodyRead_of_step {responses : List Response}
    (hstep : system.step s (Event.bodyRead i ec responses) = some t) :
    s.crashed = false ∧ exists op, s.reads.outstanding[i]? = some op ∧
      op.body ≠ Body.emptyBody ∧
        t = settle ((s.readCompleted i).onReadBody op.body ec responses) := by
  simp only [system, step] at hstep
  split at hstep
  · cases hstep
  · next hcalm =>
      cases hop : s.reads.outstanding[i]? with
      | none => simp [hop] at hstep
      | some op =>
          by_cases hbody : op.body = Body.emptyBody
          · simp [hop, hbody] at hstep
          · simp only [hop, hbody, if_false, Option.some.injEq] at hstep
            exact ⟨eq_false_of_ne_true hcalm, op, rfl, hbody, hstep.symm⟩

theorem writeDone_of_step (hstep : system.step s (Event.writeDone ec) = some t) :
    s.crashed = false ∧ s.writing = true ∧ t = settle (s.onWrite ec) := by
  simp only [system, step] at hstep
  split at hstep
  · cases hstep
  · next hcalm =>
      cases hwriting : s.writing with
      | false => simp [hwriting] at hstep
      | true =>
          simp only [hwriting, if_true, Option.some.injEq] at hstep
          exact ⟨eq_false_of_ne_true hcalm, rfl, hstep.symm⟩

/-- The callbacks have run, and the next header is read while there is room. -/
theorem onReadBody_ok (h : s.OnlyRead p body) (responses : List Response)
    (hsink : body = Body.sinkBody -> responses = []) :
    s.completed.onReadBody body SocketResult.ok responses =
      if (s.completed.sendAll responses).isFull then
        Except.ok (s.completed.sendAll responses)
      else
        Except.ok (s.completed.sendAll responses).nextHeader := by
  have hcallback : s.completed.bodyCallback body responses =
      Except.ok (s.completed.sendAll responses) := by
    unfold bodyCallback
    split
    · next hbody =>
        rw [hsink hbody]
        rfl
    · rw [completed_getParser h]
      rfl
  unfold onReadBody
  rw [hcallback]
  rfl

end HttpSession

end Net
end CisWebui
