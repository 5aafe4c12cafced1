import CisWebui.Multipart.Acceptance
import CisWebui.Multipart.Headings
import CisWebui.Multipart.Modes

/-!
# What the reader lets through

The two parsers without the values and the files: whether a body goes through
depends on the file system only in whether files can be opened.  The error of
`handle_message_end` is lost, and so is the error of a byte of a header when a
file is opened with the bytes let go together with it.
-/

namespace CisWebui
namespace Multipart

open Cpp
open Foundation
open Http (FormTarget Mode)

/-!
## The parsers alone
-/

namespace Headers

/-- A token as the reader takes it, with whether an error stands. -/
def take (x : Headers × Bool) : Token -> Headers × Bool
  | Token.byte b =>
      if x.1.message then
        let step := x.1.parser.handleMessageChar b
        ({ x.1 with parser := step.parser },
          step.failed || (x.2 && decide (step.event ≠ MessageEvent.endFilename)))
      else
        x
  | Token.messageBegin => ({ x.1 with message := true }, x.2)
  | Token.messageEnd =>
      ({ message := false, parser := x.1.parser.handleMessageEnd.parser }, x.2)

def takeAll (x : Headers × Bool) (tokens : List Token) : Headers × Bool :=
  tokens.foldl take x

end Headers

/-- A byte goes through both parsers, and no error stands after its tokens. -/
def goOn (x : Scanner × Headers) (c : UInt8) :
    Option ((Scanner × Headers) × List Token) :=
  (x.1.scan c).bind fun next =>
    let taken := Headers.takeAll (x.2, false) next.2
    if taken.2 then none else some ((next.1, taken.1), next.2)

theorem goOn_eq_some_iff {x : Scanner × Headers} {c : UInt8}
    {next : (Scanner × Headers) × List Token} : goOn x c = some next <->
      x.1.scan c = some (next.1.1, next.2) ∧
        Headers.takeAll (x.2, false) next.2 = (next.1.2, false) := by
  rw [goOn, Option.bind_eq_some_iff]
  dsimp only
  constructor
  · rintro ⟨scanned, hscan, htaken⟩
    split at htaken
    · cases htaken
    · rename_i hfine
      cases htaken
      exact ⟨hscan, Prod.ext rfl (Bool.not_eq_true _ ▸ hfine)⟩
  · rintro ⟨hscan, htaken⟩
    refine ⟨_, hscan, ?_⟩
    rw [htaken, if_neg Bool.false_ne_true]

/-- What a byte of a part does to the state, by its event. -/
inductive ByteEffect (p q : MessageState) : MessageEvent -> Bool -> Prop where
  | silent (failed : Bool) : q.nameless = p.nameless -> q.collects = p.collects ->
      ByteEffect p q MessageEvent.none failed
  | beginName : p.nameless = true -> q.nameless = true -> q.collects = true ->
      ByteEffect p q MessageEvent.beginName false
  | endName : q.nameless = false -> q.collects = false ->
      ByteEffect p q MessageEvent.endName false
  | beginFilename : q.nameless = false -> q.collects = true ->
      ByteEffect p q MessageEvent.beginFilename false
  | endFilename : q.nameless = false -> q.collects = false ->
      ByteEffect p q MessageEvent.endFilename false
  | beginBody : p.nameless = false -> q.nameless = false -> q.collects = true ->
      ByteEffect p q MessageEvent.beginBody false

theorem byteEffect_expect {s : MessageState} {p : MessageParser} (c : UInt8)
    {next : MessageState} {event : MessageEvent} (hname : p.state.nameless = s.nameless)
    (hvalue : p.state.collects = s.collects) (hnext : ByteEffect s next event false) :
    ByteEffect s (p.expect c next event).parser.state (p.expect c next event).event
      (p.expect c next event).failed := by
  unfold MessageParser.expect
  split
  · split
    · exact hnext
    · exact ByteEffect.silent false hname hvalue
  · exact ByteEffect.silent true hname hvalue

theorem byteEffect_handleMessageChar (p : MessageParser) (c : UInt8) :
    ByteEffect p.state (p.handleMessageChar c).parser.state (p.handleMessageChar c).event
      (p.handleMessageChar c).failed := by
  rcases p with ⟨state, transition⟩
  unfold MessageParser.handleMessageChar
  cases state with
  | start => exact byteEffect_expect c rfl rfl (ByteEffect.beginName rfl rfl rfl)
  | contentDisposition => exact byteEffect_expect c rfl rfl (ByteEffect.beginName rfl rfl rfl)
  | name =>
      dsimp only
      split
      · exact ByteEffect.endName rfl rfl
      · exact ByteEffect.silent false rfl rfl
  | maybeFilename =>
      dsimp only
      split
      · exact ByteEffect.silent false rfl rfl
      · split
        · exact ByteEffect.silent false rfl rfl
        · exact ByteEffect.silent true rfl rfl
  | filename => exact byteEffect_expect c rfl rfl (ByteEffect.beginFilename rfl rfl)
  | filenameBody =>
      dsimp only
      split
      · exact ByteEffect.endFilename rfl rfl
      · exact ByteEffect.silent false rfl rfl
  | contentType => exact byteEffect_expect c rfl rfl (ByteEffect.silent false rfl rfl)
  | contentTypeBody =>
      dsimp only
      split
      · exact ByteEffect.silent false rfl rfl
      · exact ByteEffect.silent false rfl rfl
  | preBody => exact byteEffect_expect c rfl rfl (ByteEffect.beginBody rfl rfl rfl)
  | body => exact ByteEffect.silent false rfl rfl

/-!
## The reader and its parsers
-/

/-- The reader is where its message parser is. -/
structure Shadows (h : Headers) (c : Collector) : Prop where
  message_eq : c.message = h.message
  parser_eq : c.messageParser = h.parser
  state_iff : c.state = ReaderState.name <-> h.parser.state.nameless = true
  isWritable_eq : c.isWritable = h.parser.state.collects

theorem shadows_initial (target : FormTarget) : Shadows {} { target := target } where
  message_eq := rfl
  parser_eq := rfl
  state_iff := iff_of_true rfl rfl
  isWritable_eq := rfl

theorem shadows_write {h : Headers} {c : Collector} (hm : Shadows h c) (text : Str) :
    Shadows h (c.write text) where
  message_eq := (c.write_message text).trans hm.message_eq
  parser_eq := (c.write_messageParser text).trans hm.parser_eq
  state_iff := by
    rw [c.write_state]
    exact hm.state_iff
  isWritable_eq := (c.write_isWritable text).trans hm.isWritable_eq

theorem shadows_collect {h : Headers} {c : Collector} (hm : Shadows h c) (b : UInt8) :
    Shadows h (c.collect b) := by
  unfold Collector.collect
  split
  · exact shadows_write hm [b]
  · exact hm

variable {fs : FileSystem} {h : Headers} {c : Collector} {ec : Ec} {failed : Bool}

/-- A byte of a part. -/
theorem shadows_passOn (hm : Shadows h c) (b : UInt8) (hmessage : h.message = true) :
    Shadows { h with parser := (h.parser.handleMessageChar b).parser }
      (Collector.passOn fs
        ({ c with messageParser := (h.parser.handleMessageChar b).parser }, ec)
        ⟨b, (h.parser.handleMessageChar b).event⟩).1 := by
  have heffect := byteEffect_handleMessageChar h.parser b
  have hmsg : c.message = true := hm.message_eq.trans hmessage
  unfold Collector.passOn
  generalize hstep : h.parser.handleMessageChar b = step at heffect
  rcases step with ⟨q, event, err⟩
  cases heffect with
  | silent _ hname hvalue =>
      apply shadows_collect
      exact ⟨hm.message_eq, rfl, hm.state_iff.trans (by rw [hname]),
        hm.isWritable_eq.trans hvalue.symm⟩
  | beginName hbefore hname hvalue =>
      exact ⟨hm.message_eq, rfl,
        iff_of_true (hm.state_iff.mpr hbefore) hname, hvalue.symm⟩
  | endName hname hvalue =>
      exact ⟨hm.message_eq, rfl, by simp [Collector.onEvent, hname], hvalue.symm⟩
  | beginFilename hname hvalue =>
      exact ⟨hm.message_eq, rfl, by simp [Collector.onEvent, hname], hvalue.symm⟩
  | endFilename hname hvalue =>
      let d : Collector := { c with messageParser := q, isWritable := false }
      exact ⟨(Collector.openFile_message fs d ec).trans hm.message_eq,
        Collector.openFile_messageParser fs d ec, by simp [Collector.onEvent, hname],
        (Collector.openFile_isWritable fs d ec).trans hvalue.symm⟩
  | beginBody hbefore hname hvalue =>
      have hstate : c.state ≠ ReaderState.name := by
        intro hstate
        rw [hm.state_iff.mp hstate] at hbefore
        cases hbefore
      by_cases hcontent : c.state = ReaderState.content
      · have honEvent : (Collector.onEvent fs { c with messageParser := q } ec
            MessageEvent.beginBody).1 =
            { Collector.emplaceValue { c with messageParser := q } false with
              isWritable := true } := by
          simp only [Collector.onEvent, if_pos hcontent]
        rw [honEvent]
        exact ⟨hm.message_eq, rfl, iff_of_false hstate (by simp [hname]), hvalue.symm⟩
      · have honEvent : (Collector.onEvent fs { c with messageParser := q } ec
            MessageEvent.beginBody).1 =
            { c with messageParser := q, isWritable := true } := by
          simp only [Collector.onEvent, if_neg hcontent]
        rw [honEvent]
        exact ⟨hm.message_eq, rfl, iff_of_false hstate (by simp [hname]), hvalue.symm⟩

theorem shadows_take (hm : Shadows h c) (token : Token) :
    Shadows (Headers.take (h, failed) token).1 (Collector.take fs (c, ec) token).1 := by
  cases token with
  | byte b =>
      unfold Headers.take Collector.take
      dsimp only
      by_cases hmessage : h.message = true
      · rw [if_pos hmessage, if_pos (hm.message_eq.trans hmessage), hm.parser_eq]
        exact shadows_passOn hm b hmessage
      · rw [if_neg hmessage, if_neg (hm.message_eq ▸ hmessage)]
        exact shadows_collect hm b
  | messageBegin => exact ⟨rfl, hm.parser_eq, hm.state_iff, hm.isWritable_eq⟩
  | messageEnd =>
      unfold Headers.take Collector.take
      dsimp only
      rw [hm.parser_eq]
      unfold MessageParser.handleMessageEnd
      by_cases hbody : h.parser.state = MessageState.body
      · rw [if_pos hbody]
        dsimp only [Collector.onEvent]
        split
        · exact ⟨rfl, rfl, iff_of_true rfl rfl, rfl⟩
        · exact ⟨rfl, rfl, iff_of_true rfl rfl, rfl⟩
      · rw [if_neg hbody]
        exact ⟨rfl, rfl, hm.state_iff, hm.isWritable_eq⟩

theorem shadows_takeAll (tokens : List Token) : forall {h : Headers} {c : Collector}
    {ec : Ec} {failed : Bool}, Shadows h c ->
      Shadows (Headers.takeAll (h, failed) tokens).1
        (Collector.takeAll fs (c, ec) tokens).1 := by
  induction tokens with
  | nil =>
      intro h c ec failed hm
      exact hm
  | cons token rest ih =>
      intro h c ec failed hm
      exact ih (shadows_take hm token)

/-!
## Errors that stand
-/

theorem event_of_failed {p q : MessageState} {event : MessageEvent}
    (h : ByteEffect p q event true) : event = MessageEvent.none := by
  cases h
  rfl

theorem passOn_ec {p q : MessageState} {event : MessageEvent} {failed : Bool}
    (h : ByteEffect p q event failed) (hne : ¬ event = MessageEvent.endFilename)
    (b : UInt8) : (Collector.passOn fs (c, ec) ⟨b, event⟩).2 = ec := by
  cases h with
  | endFilename => exact absurd rfl hne
  | silent => rfl
  | beginName => rfl
  | endName => rfl
  | beginFilename => rfl
  | beginBody => rfl

/-- What stands with the parsers stands with the reader, whatever the files. -/
theorem failed_take (hm : Shadows h c) {token : Token}
    (hne : ¬ token = Token.messageEnd) (hec : failed = true -> ¬ ec = none)
    (hfailed : (Headers.take (h, failed) token).2 = true) :
    ¬ (Collector.take fs (c, ec) token).2 = none := by
  cases token with
  | messageBegin => exact hec hfailed
  | messageEnd => exact absurd rfl hne
  | byte b =>
      unfold Headers.take at hfailed
      unfold Collector.take
      dsimp only at hfailed ⊢
      by_cases hmessage : h.message = true
      · rw [if_pos hmessage] at hfailed
        rw [if_pos (hm.message_eq.trans hmessage), hm.parser_eq]
        have heffect := byteEffect_handleMessageChar h.parser b
        generalize h.parser.handleMessageChar b = step at heffect hfailed
        rcases step with ⟨q, event, err⟩
        cases err with
        | true =>
            have hevent := event_of_failed heffect
            subst hevent
            rw [passOn_ec heffect (by simp)]
            simp
        | false =>
            simp only [Bool.false_or, Bool.and_eq_true, decide_eq_true_eq] at hfailed
            rw [passOn_ec heffect hfailed.right]
            exact hec hfailed.left
      · rw [if_neg hmessage] at hfailed
        rw [if_neg (hm.message_eq ▸ hmessage)]
        exact hec hfailed

theorem failed_takeAll {tokens : List Token} (hne : ¬ Token.messageEnd ∈ tokens) :
    forall {h : Headers} {c : Collector} {ec : Ec} {failed : Bool}, Shadows h c ->
      (failed = true -> ¬ ec = none) ->
      (Headers.takeAll (h, failed) tokens).2 = true ->
      ¬ (Collector.takeAll fs (c, ec) tokens).2 = none := by
  induction tokens with
  | nil =>
      intro h c ec failed _ hec
      exact hec
  | cons token rest ih =>
      intro h c ec failed hm hec
      rw [List.mem_cons, not_or] at hne
      exact ih hne.right (shadows_take hm token)
        (failed_take hm (fun heq => hne.left heq.symm) hec)

/-- Every file is opened that is asked for. -/
def OpensAll (fs : FileSystem) (target : FormTarget) : Prop :=
  (forall opened filename, target.opens (fs.disk opened) filename = true) ∧
    forall opened path, fs.openError opened path = none

theorem openFile_ec (ho : OpensAll fs c.target) : (Collector.openFile fs c ec).2 = none := by
  unfold Collector.openFile
  dsimp only
  rw [if_pos (ho.left _ _), ho.right]

theorem target_onEvent (event : MessageEvent) :
    (c.onEvent fs ec event).1.target = c.target := by
  by_cases hevent : event = MessageEvent.endFilename
  · subst hevent
    exact (Collector.opened_openFile fs { c with isWritable := false } ec).left
  · exact (Collector.opened_onEvent fs c ec hevent).left

theorem target_collect (b : UInt8) : (c.collect b).target = c.target := by
  unfold Collector.collect
  split
  · exact c.target_write [b]
  · rfl

theorem target_passOn (mark : Mark) :
    (Collector.passOn fs (c, ec) mark).1.target = c.target := by
  by_cases hevent : mark.event = MessageEvent.none
  · unfold Collector.passOn
    rw [hevent]
    exact target_collect mark.byte
  · rw [Collector.passOn_of_ne hevent]
    exact target_onEvent mark.event

theorem target_take (token : Token) :
    (Collector.take fs (c, ec) token).1.target = c.target := by
  cases token with
  | messageBegin => rfl
  | messageEnd => exact target_onEvent _
  | byte b =>
      unfold Collector.take
      dsimp only
      split
      · exact target_passOn _
      · exact target_collect b

theorem target_takeAll (tokens : List Token) : forall x : Collector × Ec,
    (Collector.takeAll fs x tokens).1.target = x.1.target := by
  induction tokens with
  | nil =>
      intro x
      rfl
  | cons token rest ih =>
      intro x
      exact (ih _).trans (target_take token)

/-- With such files nothing else is left over. -/
theorem ec_take (hm : Shadows h c) (ho : OpensAll fs c.target) {token : Token}
    (hec : failed = false -> ec = none)
    (hfailed : (Headers.take (h, failed) token).2 = false) :
    (Collector.take fs (c, ec) token).2 = none := by
  cases token with
  | messageBegin => exact hec hfailed
  | messageEnd =>
      have hnone := hec hfailed
      subst hnone
      unfold Collector.take MessageParser.handleMessageEnd
      dsimp only
      split
      · dsimp only [Collector.onEvent]
        split
        · rfl
        · rfl
      · rfl
  | byte b =>
      unfold Headers.take at hfailed
      unfold Collector.take
      dsimp only at hfailed ⊢
      by_cases hmessage : h.message = true
      · rw [if_pos hmessage] at hfailed
        rw [if_pos (hm.message_eq.trans hmessage), hm.parser_eq]
        have heffect := byteEffect_handleMessageChar h.parser b
        generalize h.parser.handleMessageChar b = step at heffect hfailed
        rcases step with ⟨q, event, err⟩
        cases err with
        | true => cases hfailed
        | false =>
            by_cases hevent : event = MessageEvent.endFilename
            · subst hevent
              exact openFile_ec ho
            · simp only [Bool.false_or, Bool.and_eq_false_iff, decide_eq_false_iff_not,
                not_not] at hfailed
              rw [passOn_ec heffect hevent]
              exact hec (hfailed.resolve_right hevent)
      · rw [if_neg hmessage] at hfailed
        rw [if_neg (hm.message_eq ▸ hmessage)]
        exact hec hfailed

theorem ec_takeAll (tokens : List Token) :
    forall {h : Headers} {c : Collector} {ec : Ec} {failed : Bool}, Shadows h c ->
      OpensAll fs c.target -> (failed = false -> ec = none) ->
      (Headers.takeAll (h, failed) tokens).2 = false ->
      (Collector.takeAll fs (c, ec) tokens).2 = none := by
  induction tokens with
  | nil =>
      intro h c ec failed _ _ hec
      exact hec
  | cons token rest ih =>
      intro h c ec failed hm ho hec
      have htarget : (Collector.take fs (c, ec) token).1.target = c.target :=
        target_take token
      exact ih (shadows_take hm token) (htarget ▸ ho) (ec_take hm ho hec)

/-!
## Runs
-/

theorem messageEnd_not_mem_bytes (text : Str) : ¬ Token.messageEnd ∈ bytes text := by
  simp [bytes]

/-- The end of a part comes before the bytes let go with it, so that the error
it may bring is lost before they can bring one. -/
theorem failed_tokens (hm : Shadows h c) (step : StreamStep) (held : Str)
    (hfailed : (Headers.takeAll (h, false) (step.tokens held)).2 = true) :
    ¬ (Collector.takeAll fs (c, none) (step.tokens held)).2 = none := by
  unfold StreamStep.tokens at hfailed ⊢
  cases hevent : step.event with
  | none =>
      rw [hevent] at hfailed
      exact failed_takeAll (messageEnd_not_mem_bytes _) hm (by simp) hfailed
  | messageBegin =>
      rw [hevent] at hfailed
      have hne : ¬ Token.messageEnd ∈ bytes (held.take step.advancement) ++
          [Token.messageBegin] := by
        rw [List.mem_append, not_or]
        exact ⟨messageEnd_not_mem_bytes _, by simp⟩
      exact failed_takeAll hne hm (by simp) hfailed
  | messageEnd =>
      rw [hevent] at hfailed
      have hnext : Shadows (Headers.take (h, false) Token.messageEnd).1
          (Collector.take fs (c, none) Token.messageEnd).1 :=
        shadows_take hm Token.messageEnd
      have hnone : false = true ->
          ¬ (Collector.take fs (c, none) Token.messageEnd).2 = none := by
        intro hfalse
        cases hfalse
      exact failed_takeAll (messageEnd_not_mem_bytes _) hnext hnone hfailed

theorem goOn_of_feed {r : Reader} {b : UInt8} (hm : Shadows h r.collector)
    (hok : (r.feed fs b).2 = none) :
    exists h' toks, goOn (r.scanner, h) b = some (((r.feed fs b).1.scanner, h'), toks) ∧
      Shadows h' (r.feed fs b).1.collector := by
  rw [Reader.feed] at hok ⊢
  rw [goOn, Scanner.scan]
  dsimp only at hok ⊢
  by_cases hrefused : (r.scanner.parser.handleChar b).failed = true
  · rw [if_pos hrefused] at hok
    cases hok
  · rw [if_neg hrefused] at hok
    rw [if_neg hrefused, if_neg hrefused, Option.bind_some]
    dsimp only at hok ⊢
    have hfailed : ¬ (Headers.takeAll (h, false) ((r.scanner.parser.handleChar b).tokens
        (r.scanner.pending ++ [b]))).2 = true :=
      fun hfailed => failed_tokens hm _ _ hfailed hok
    rw [if_neg hfailed]
    exact ⟨_, _, rfl, shadows_takeAll _ hm⟩

theorem feed_of_goOn {r : Reader} {b : UInt8} (hm : Shadows h r.collector)
    (ho : OpensAll fs r.collector.target) {next : (Scanner × Headers) × List Token}
    (hgo : goOn (r.scanner, h) b = some next) :
    (r.feed fs b).2 = none ∧ (r.feed fs b).1.scanner = next.1.1 ∧
      Shadows next.1.2 (r.feed fs b).1.collector ∧
      (r.feed fs b).1.collector.target = r.collector.target := by
  rw [Reader.feed]
  rw [goOn, Scanner.scan] at hgo
  dsimp only at hgo ⊢
  by_cases hrefused : (r.scanner.parser.handleChar b).failed = true
  · rw [if_pos hrefused] at hgo
    cases hgo
  · rw [if_neg hrefused, Option.bind_some] at hgo
    rw [if_neg hrefused]
    dsimp only at hgo ⊢
    by_cases hfailed : (Headers.takeAll (h, false) ((r.scanner.parser.handleChar b).tokens
        (r.scanner.pending ++ [b]))).2 = true
    · rw [if_pos hfailed] at hgo
      cases hgo
    · rw [if_neg hfailed] at hgo
      cases hgo
      exact ⟨ec_takeAll _ hm ho (fun _ => rfl) (Bool.not_eq_true _ ▸ hfailed), rfl,
        shadows_takeAll _ hm, target_takeAll _ _⟩

theorem goOn_of_feedAll (body : Str) : forall (r : Reader) (h : Headers),
    Shadows h r.collector -> (r.feedAll fs body).2 = none ->
    exists h' toks, Transducer.run goOn (r.scanner, h) body =
        some (((r.feedAll fs body).1.scanner, h'), toks) ∧
      Shadows h' (r.feedAll fs body).1.collector := by
  induction body with
  | nil =>
      intro r h hm _
      exact ⟨h, [], rfl, hm⟩
  | cons b rest ih =>
      intro r h hm hok
      rw [Reader.feedAll] at hok ⊢
      by_cases hfeed : (r.feed fs b).2 = none
      · rw [if_pos hfeed] at hok ⊢
        rcases goOn_of_feed hm hfeed with ⟨h₁, toks, hgo, hm₁⟩
        rcases ih _ h₁ hm₁ hok with ⟨h₂, more, hrest, hm₂⟩
        refine ⟨h₂, toks ++ more, ?_, hm₂⟩
        rw [Transducer.run_cons_of_step hgo, hrest, Option.map_some]
      · rw [if_neg hfeed] at hok
        exact absurd hok hfeed

theorem feedAll_of_goOn (body : Str) : forall (r : Reader) (h : Headers),
    Shadows h r.collector -> OpensAll fs r.collector.target ->
    forall x toks, Transducer.run goOn (r.scanner, h) body = some (x, toks) ->
      (r.feedAll fs body).2 = none ∧ (r.feedAll fs body).1.scanner = x.1 ∧
        Shadows x.2 (r.feedAll fs body).1.collector := by
  induction body with
  | nil =>
      intro r h hm _ x toks hrun
      cases hrun
      exact ⟨rfl, rfl, hm⟩
  | cons b rest ih =>
      intro r h hm ho x toks hrun
      rcases Transducer.exists_of_run_cons hrun with ⟨y, u, v, hgo, hrest, -⟩
      rcases feed_of_goOn hm ho hgo with ⟨hfeed, hscanner, hm', htarget⟩
      rw [Reader.feedAll, if_pos hfeed]
      refine ih _ y.2 hm' (htarget ▸ ho) x v ?_
      rw [hscanner]
      exact hrest

/-- The body ends where `finish` looks for no part: the name of a part is not
complete, and a name that has begun goes on with bytes held back. -/
def Stops (x : Scanner × Headers) : Prop :=
  x.2.parser.state.nameless = true ∧
    ¬ (x.2.parser.state = MessageState.name ∧ x.1.pending = [])

theorem stops_iff {r : Reader} (hm : Shadows h r.collector) :
    Stops (r.scanner, h) <-> ¬ r.CutsName ∧ r.finish = none := by
  have hname : h.parser.state = MessageState.name <->
      r.collector.isWritable = true ∧ r.collector.state = ReaderState.name := by
    rw [hm.isWritable_eq, hm.state_iff]
    cases h.parser.state <;> decide
  have hfinish : r.finish = none <-> h.parser.state.nameless = true := by
    rw [← hm.state_iff, Reader.finish]
    split <;> simp_all
  rw [Stops, hfinish, Reader.CutsName, ← and_assoc, ← hname, and_comm]

namespace Reader

variable {boundary body : Str} {target : FormTarget}

/-- A body that is accepted goes through the two parsers. -/
theorem exists_goOn_of_accepts (h : Accepts fs target boundary body) :
    exists x toks, Transducer.run goOn (Scanner.start boundary, {}) body =
      some (x, toks) ∧ Stops x := by
  rcases accepts_iff.mp h with ⟨hok, hends⟩
  rcases goOn_of_feedAll body _ {} (shadows_initial target) hok with
    ⟨h', toks, hrun, hm⟩
  exact ⟨_, toks, hrun, (stops_iff hm).mpr hends⟩

/-- Where all files can be opened, nothing else is asked for. -/
theorem accepts_of_goOn (ho : OpensAll fs target) {x : Scanner × Headers}
    {toks : List Token}
    (hrun : Transducer.run goOn (Scanner.start boundary, {}) body = some (x, toks))
    (hx : Stops x) : Accepts fs target boundary body := by
  rcases feedAll_of_goOn body (initial boundary target) {} (shadows_initial target) ho x
    toks hrun with ⟨hok, hscanner, hm⟩
  rcases x with ⟨s, h⟩
  change _ = s at hscanner
  subst hscanner
  exact accepts_iff.mpr ⟨hok, (stops_iff hm).mp hx⟩

end Reader

end Multipart
end CisWebui
