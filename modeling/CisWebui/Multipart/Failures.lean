import CisWebui.Multipart.RoundTrip

/-!
# Opens that fail

The loop of `put` looks at the error of a byte after everything the byte has
let go, and some events set the error back.  In a well-formed body none of
these stands between the end of a filename and the end of its byte, so an open
that fails always fails the upload.
-/

namespace CisWebui
namespace Multipart

open Cpp
open Foundation
open Http (FormTarget)

/-- The header parser is behind the filename of a part. -/
def MessageState.pastFilename : MessageState -> Bool
  | MessageState.contentType => true
  | MessageState.contentTypeBody => true
  | MessageState.preBody => true
  | MessageState.body => true
  | _ => false

namespace MessageParser

theorem expect_pastFilename {p : MessageParser} {next : MessageState}
    (c : UInt8) (event : MessageEvent)
    (hp : p.state.pastFilename = true) (hnext : next.pastFilename = true) :
    (p.expect c next event).parser.state.pastFilename = true ∧
      ((p.expect c next event).event = MessageEvent.none ∨
        (p.expect c next event).event = event) := by
  unfold expect
  split
  · split
    · exact ⟨hnext, Or.inr rfl⟩
    · exact ⟨hp, Or.inl rfl⟩
  · exact ⟨hp, Or.inl rfl⟩

/-- Behind the filename only the body begins. -/
theorem handleMessageChar_pastFilename {p : MessageParser} (c : UInt8)
    (hp : p.state.pastFilename = true) :
    (p.handleMessageChar c).parser.state.pastFilename = true ∧
      ((p.handleMessageChar c).event = MessageEvent.none ∨
        (p.handleMessageChar c).event = MessageEvent.beginBody) := by
  unfold handleMessageChar
  cases hstate : p.state with
  | contentType =>
      have hexpect := expect_pastFilename c MessageEvent.none hp
        (show MessageState.contentTypeBody.pastFilename = true from rfl)
      exact ⟨hexpect.left, Or.inl (hexpect.right.elim id id)⟩
  | contentTypeBody =>
      dsimp only
      split
      · exact ⟨rfl, Or.inl rfl⟩
      · exact ⟨hp, Or.inl rfl⟩
  | preBody => exact expect_pastFilename c MessageEvent.beginBody hp rfl
  | body => exact ⟨hp, Or.inl rfl⟩
  | _ =>
      rw [hstate] at hp
      cases hp

/-- The end of a filename is where the parser gets behind it. -/
theorem pastFilename_of_endFilename {p : MessageParser} {c : UInt8}
    (h : (p.handleMessageChar c).event = MessageEvent.endFilename) :
    (p.handleMessageChar c).parser.state.pastFilename = true := by
  have hexpect : forall (q : MessageParser) (next : MessageState)
      (event : MessageEvent), ¬ event = MessageEvent.endFilename ->
      ¬ (q.expect c next event).event = MessageEvent.endFilename := by
    intro q next event hevent
    unfold expect
    split
    · split
      · exact hevent
      · exact fun hnone => nomatch hnone
    · exact fun hnone => nomatch hnone
  unfold handleMessageChar at h ⊢
  cases hstate : p.state with
  | filenameBody =>
      rw [hstate] at h
      dsimp only at h ⊢
      split at h
      · rename_i hquote
        rw [if_pos hquote]
        rfl
      · cases h
  | start =>
      rw [hstate] at h
      exact absurd h (hexpect _ _ _ (fun hname => nomatch hname))
  | contentDisposition =>
      rw [hstate] at h
      exact absurd h (hexpect _ _ _ (fun hname => nomatch hname))
  | filename =>
      rw [hstate] at h
      exact absurd h (hexpect _ _ _ (fun hname => nomatch hname))
  | contentType =>
      rw [hstate] at h
      exact absurd h (hexpect _ _ _ (fun hname => nomatch hname))
  | preBody =>
      rw [hstate] at h
      exact absurd h (hexpect _ _ _ (fun hname => nomatch hname))
  | name =>
      rw [hstate] at h
      dsimp only at h
      split at h <;> cases h
  | maybeFilename =>
      rw [hstate] at h
      dsimp only at h
      split at h
      · cases h
      · split at h <;> cases h
  | contentTypeBody =>
      rw [hstate] at h
      dsimp only at h
      split at h <;> cases h
  | body =>
      rw [hstate] at h
      cases h

end MessageParser

namespace Collector

variable {fs : FileSystem}

theorem passOn_messageParser (fs : FileSystem) (x : Collector × Ec)
    (mark : Mark) :
    (passOn fs x mark).1.messageParser = x.1.messageParser := by
  by_cases h : mark.event = MessageEvent.none
  · rcases mark with ⟨b, event⟩
    change event = _ at h
    subst h
    simp only [passOn, collect]
    split
    · exact write_messageParser _ _
    · rfl
  · rw [passOn_of_ne h]
    exact onEvent_messageParser fs x.1 x.2 mark.event

theorem passOn_ec {x : Collector × Ec} {b : UInt8} {event : MessageEvent}
    (h : event = MessageEvent.none ∨ event = MessageEvent.beginBody) :
    (passOn fs x ⟨b, event⟩).2 = x.2 := by
  rcases h with rfl | rfl <;> rfl

/-- An error behind the filename stays until the part ends. -/
theorem takeAll_failed (toks : List Token) : forall x : Collector × Ec,
    ¬ Token.messageEnd ∈ toks ->
    x.1.messageParser.state.pastFilename = true -> x.2 ≠ none ->
    (takeAll fs x toks).2 ≠ none := by
  induction toks with
  | nil =>
      intro x _ _ hec
      exact hec
  | cons tok toks ih =>
      intro x hend hpast hec
      rw [List.mem_cons, not_or] at hend
      have hrest : (take fs x tok).1.messageParser.state.pastFilename = true ∧
          (take fs x tok).2 ≠ none := by
        cases tok with
        | messageEnd => exact absurd rfl hend.left
        | messageBegin => exact ⟨hpast, hec⟩
        | byte b =>
            rw [take]
            split
            · have hstep := MessageParser.handleMessageChar_pastFilename b hpast
              dsimp only
              rw [passOn_messageParser, passOn_ec hstep.right]
              refine ⟨hstep.left, ?_⟩
              split
              · simp
              · exact hec
            · refine ⟨?_, hec⟩
              unfold collect
              split
              · simpa using hpast
              · exact hpast
      exact ih _ hend.right hrest.left hrest.right

/-- The part of a collector that the headers decide. -/
def headers (c : Collector) : Headers where
  message := c.message
  parser := c.messageParser

theorem headers_take {c : Collector} {tok : Token} {h : Headers} (ec : Ec)
    (hstep : c.headers.step tok = some h) :
    (take fs (c, ec) tok).1.headers = h := by
  cases tok with
  | messageBegin =>
      cases hstep
      rfl
  | messageEnd =>
      rw [Headers.step] at hstep
      split at hstep
      · cases hstep
      · cases hstep
        simp [take, headers]
  | byte b =>
      rw [Headers.step] at hstep
      rw [take]
      change (if c.message then _ else _) = _ at hstep
      cases hmessage : c.message with
      | true =>
          rw [hmessage, if_pos rfl] at hstep
          rw [if_pos rfl]
          dsimp only at hstep ⊢
          split at hstep
          · cases hstep
          · cases hstep
            rw [headers, passOn_messageParser, passOn_message]
            rfl
      | false =>
          rw [hmessage] at hstep
          cases hstep
          rw [if_neg (by simp)]
          unfold collect
          split <;> simp [headers]

theorem headers_takeAll (toks : List Token) : forall {x : Collector × Ec}
    {h : Headers}, x.1.headers.steps toks = some h ->
      (takeAll fs x toks).1.headers = h := by
  induction toks with
  | nil =>
      intro x h hsteps
      cases hsteps
      rfl
  | cons tok toks ih =>
      intro x h hsteps
      rw [Headers.steps, List.foldlM_cons] at hsteps
      rcases Option.bind_eq_some_iff.mp hsteps with ⟨next, hnext, hrest⟩
      rw [takeAll, List.foldl_cons]
      apply ih
      rw [headers_take x.2 hnext]
      exact hrest

/-- While the headers are right, only an open brings an error. -/
theorem endFilename_of_failed {c : Collector} {b : UInt8} {event : MessageEvent}
    (h : (passOn fs (c, none) ⟨b, event⟩).2 ≠ none) :
    event = MessageEvent.endFilename := by
  cases event with
  | endFilename => rfl
  | endBody =>
      have hclosed : (c.onEvent fs none MessageEvent.endBody).2 = none := by
        unfold onEvent
        dsimp only
        split <;> rfl
      exact absurd hclosed h
  | _ => exact absurd rfl h

theorem failed_messageEnd (c : Collector) :
    (take fs (c, none) Token.messageEnd).2 = none := by
  rw [take]
  unfold MessageParser.handleMessageEnd
  split
  · unfold onEvent
    dsimp only
    split <;> rfl
  · rfl

theorem pastFilename_of_failed {c : Collector} {tok : Token} {h : Headers}
    (hstep : c.headers.step tok = some h) (hend : ¬ tok = Token.messageEnd)
    (hfailed : (take fs (c, none) tok).2 ≠ none) :
    (take fs (c, none) tok).1.messageParser.state.pastFilename = true := by
  cases tok with
  | messageEnd => exact absurd rfl hend
  | messageBegin => exact absurd rfl hfailed
  | byte b =>
      rw [Headers.step] at hstep
      change (if c.message then _ else _) = _ at hstep
      rw [take] at hfailed ⊢
      cases hmessage : c.message with
      | false =>
          rw [hmessage, if_neg (by simp)] at hfailed
          exact absurd rfl hfailed
      | true =>
          rw [hmessage, if_pos rfl] at hstep hfailed
          rw [if_pos rfl]
          change (if (c.messageParser.handleMessageChar b).failed then _
            else _) = _ at hstep
          dsimp only at hfailed ⊢
          split at hstep
          · cases hstep
          · rename_i hok
            rw [if_neg hok] at hfailed ⊢
            rw [passOn_messageParser]
            exact MessageParser.pastFilename_of_endFilename
              (endFilename_of_failed hfailed)

/-- Over tokens that end no part, an error stays if the headers are right. -/
theorem takeAll_of_not_takeOk (toks : List Token) : forall c : Collector,
    ¬ Token.messageEnd ∈ toks -> c.headers.steps toks ≠ none ->
    toks.foldlM (takeOk fs) c = none -> (takeAll fs (c, none) toks).2 ≠ none := by
  induction toks with
  | nil =>
      intro c _ _ h
      cases h
  | cons tok toks ih =>
      intro c hend hsteps h
      rw [List.mem_cons, not_or] at hend
      rcases Option.ne_none_iff_exists'.mp hsteps with ⟨last, hlast⟩
      rw [Headers.steps, List.foldlM_cons] at hlast
      rcases Option.bind_eq_some_iff.mp hlast with ⟨next, hnext, hrest⟩
      rw [takeAll, List.foldl_cons]
      by_cases hec : (take fs (c, none) tok).2 = none
      · have hok : takeOk fs c tok = some (take fs (c, none) tok).1 := by
          rw [takeOk]
          generalize take fs (c, none) tok = x at hec
          rcases x with ⟨d, ec⟩
          change ec = none at hec
          subst hec
          rfl
        have hx : take fs (c, none) tok = ((take fs (c, none) tok).1, none) :=
          Prod.ext rfl hec
        rw [List.foldlM_cons, hok] at h
        rw [hx]
        refine ih _ (fun hmem => hend.right hmem) ?_ h
        rw [headers_take none hnext, Headers.steps, hrest]
        simp
      · have hpast := pastFilename_of_failed hnext
          (fun htok => hend.left htok.symm) hec
        exact takeAll_failed toks _ hend.right hpast hec

/-- The same over the tokens of a byte, among which the end of a part comes
first. -/
theorem takeAll_tokens_of_not_takeOk {step : StreamStep} {held : Str}
    {c : Collector} (hsteps : c.headers.steps (step.tokens held) ≠ none)
    (h : (step.tokens held).foldlM (takeOk fs) c = none) :
    (takeAll fs (c, none) (step.tokens held)).2 ≠ none := by
  have hbytes : forall text : Str, ¬ Token.messageEnd ∈ bytes text := by
    intro text
    simp [bytes]
  rw [StreamStep.tokens] at hsteps h ⊢
  cases hevent : step.event with
  | none =>
      rw [hevent] at hsteps h
      exact takeAll_of_not_takeOk _ c (hbytes _) hsteps h
  | messageBegin =>
      rw [hevent] at hsteps h
      refine takeAll_of_not_takeOk _ c ?_ hsteps h
      rw [List.mem_append, not_or]
      exact ⟨hbytes _, by simp⟩
  | messageEnd =>
      rw [hevent] at hsteps h
      dsimp only at hsteps h ⊢
      rcases Option.ne_none_iff_exists'.mp hsteps with ⟨last, hlast⟩
      rw [Headers.steps, List.foldlM_cons] at hlast
      rcases Option.bind_eq_some_iff.mp hlast with ⟨next, hnext, hrest⟩
      have htake : take fs (c, none) Token.messageEnd =
          ((take fs (c, none) Token.messageEnd).1, none) :=
        Prod.ext rfl (failed_messageEnd c)
      rw [List.foldlM_cons, takeOk, htake] at h
      rw [takeAll, List.foldl_cons, htake]
      refine takeAll_of_not_takeOk _ _ (hbytes _) ?_ h
      rw [headers_take none hnext, Headers.steps, hrest]
      simp

end Collector

namespace Reader

variable {fs : FileSystem} {boundary body : Str} {target : FormTarget}

/-- A body with right headers that brings an error brings it out. -/
theorem feedAll_of_not_takeOk (body : Str) : forall {r : Reader} {s : Scanner}
    {toks : List Token},
    Transducer.run Scanner.scan r.scanner body = some (s, toks) ->
    r.collector.headers.steps toks ≠ none ->
    toks.foldlM (Collector.takeOk fs) r.collector = none ->
    (r.feedAll fs body).2 ≠ none := by
  induction body with
  | nil =>
      intro r s toks hscan _ h
      cases hscan
      cases h
  | cons c body ih =>
      intro r s toks hscan hsteps h
      rcases Transducer.exists_of_run_cons hscan with ⟨q, u, v, hstep, hrest, rfl⟩
      rw [Headers.steps_append] at hsteps
      rcases Option.ne_none_iff_exists'.mp hsteps with ⟨last, hlast⟩
      rcases Option.bind_eq_some_iff.mp hlast with ⟨next, hnext, hmore⟩
      rw [Scanner.scan] at hstep
      split at hstep
      · cases hstep
      · rename_i hok
        cases hstep
        rw [feedAll, feed]
        dsimp only
        rw [if_neg hok]
        cases hbatch : (StreamStep.tokens (r.scanner.parser.handleChar c)
            (r.scanner.pending ++ [c])).foldlM (Collector.takeOk fs)
              r.collector with
        | none =>
            have hec := Collector.takeAll_tokens_of_not_takeOk
              (by rw [hnext]; simp) hbatch
            rw [if_neg hec]
            exact hec
        | some d =>
            have hheaders : d.headers = next := by
              have htake : (Collector.takeAll fs (r.collector, none) _).1.headers =
                next := Collector.headers_takeAll _ hnext
              rw [Collector.takeAll_of_takeOk _ hbatch] at htake
              exact htake
            rw [Collector.takeAll_of_takeOk _ hbatch, if_pos rfl]
            rw [Collector.foldlM_append_some hbatch] at h
            refine ih (r := ⟨_, d⟩) hrest ?_ h
            rw [hheaders, hmore]
            simp

/-- An upload of valid parts in a frame fails when one of its opens does. -/
theorem feedAll_framed_failed {parts : List Part}
    (hframed : Framed boundary body (parts.map Part.text))
    (hvalid : forall part, part ∈ parts -> part.Valid)
    (hleave : parts.foldlM (Collector.leave fs) { target := target } = none) :
    ((initial boundary target).feedAll fs body).2 ≠ none := by
  rcases Scanner.scans_framed hframed with ⟨s, pre, toks, hscan, hcarries, -⟩
  have hfresh : Collector.Fresh { target := target } := ⟨rfl, rfl, rfl⟩
  have hparts : toks.foldlM (Collector.takeOk fs) _ = _ :=
    Collector.takeOk_parts hcarries { target := target } parts hfresh hvalid rfl
  have hpre : (bytes pre).foldlM (Collector.takeOk fs) { target := target } = _ :=
    Collector.takeOk_bytes_outside rfl rfl pre
  rcases Headers.exists_steps hcarries {} parts rfl hvalid rfl with
    ⟨last, hlast⟩
  refine feedAll_of_not_takeOk body hscan ?_ ?_
  · change Headers.steps {} _ ≠ none
    rw [Headers.steps_append, Headers.steps_bytes_outside, Option.bind_some]
    change Headers.steps ⟨true, {}⟩ toks ≠ none
    rw [hlast]
    simp
  · change List.foldlM (Collector.takeOk fs) ({ target := target } : Collector)
      _ = none
    rw [Collector.foldlM_append_some hpre, List.foldlM_cons]
    rw [hleave] at hparts
    exact hparts

end Reader

end Multipart
end CisWebui
