import CisWebui.Multipart.Chunking
import CisWebui.Multipart.Framing

/-!
# Which bodies are accepted

A well-formed body is a frame whose parts are complete.  The two parsers
together recognise exactly these: the scanner gets to its epilogue, and no call
of the message parser reports an error.

The reader does not look at all of that: `finish` looks at the state of the
reader only.
-/

namespace CisWebui
namespace Multipart

open Cpp
open Foundation
open Http (FormTarget)

/-- A preamble, the opening line, one or more complete parts with a delimiter
after each, the dashes of the last one, and an epilogue. -/
def WellFormed (boundary body : Str) : Prop :=
  exists parts : List Part, (forall part, part ∈ parts -> part.Valid) ∧
    Framed boundary body (parts.map Part.text)

/-!
## The message parser over the tokens
-/

/-- The message parser, and whether it is given the bytes. -/
structure Headers where
  message : Bool := false
  parser : MessageParser := {}
deriving DecidableEq, Repr

namespace Headers

/-- One token, unless the message parser reports an error. -/
def step (h : Headers) : Token -> Option Headers
  | Token.byte b =>
      if h.message then
        let step := h.parser.handleMessageChar b
        if step.failed then none else some { h with parser := step.parser }
      else
        some h
  | Token.messageBegin => some { h with message := true }
  | Token.messageEnd =>
      let step := h.parser.handleMessageEnd
      if step.failed then none
      else some { message := false, parser := step.parser }

def steps (h : Headers) (tokens : List Token) : Option Headers :=
  tokens.foldlM step h

theorem steps_append (h : Headers) (a b : List Token) :
    h.steps (a ++ b) = (h.steps a).bind fun q => q.steps b := by
  rw [steps, List.foldlM_append]
  rfl

/-- Between the parts the bytes go nowhere. -/
theorem steps_bytes_outside (p : MessageParser) (text : Str) :
    steps ⟨false, p⟩ (bytes text) = some ⟨false, p⟩ := by
  induction text with
  | nil => rfl
  | cons b text ih => exact ih

theorem steps_bytes_inside (text : Str) : forall p : MessageParser,
    steps ⟨true, p⟩ (bytes text) =
      (Transducer.run MessageParser.read p text).map fun q => ⟨true, q.1⟩ := by
  induction text with
  | nil =>
      intro p
      rfl
  | cons b text ih =>
      intro p
      rw [Transducer.run_cons, MessageParser.read]
      change (step ⟨true, p⟩ (Token.byte b)).bind
        (fun q => q.steps (bytes text)) = _
      rw [step]
      dsimp only
      cases hfailed : (p.handleMessageChar b).failed with
      | true => rfl
      | false =>
          simp only [if_true, Bool.false_eq_true, if_false, Option.bind_some,
            Option.map_map]
          rw [ih]
          rfl

theorem step_messageEnd {p : MessageParser} {h : Headers}
    (hstep : step ⟨true, p⟩ Token.messageEnd = some h) :
    p.state = MessageState.body ∧ h.message = false ∧
      h.parser.state = MessageState.start := by
  rw [step] at hstep
  dsimp only at hstep
  rw [MessageParser.handleMessageEnd] at hstep
  by_cases hbody : p.state = MessageState.body
  · rw [if_pos hbody] at hstep
    cases hstep
    exact ⟨hbody, rfl, rfl⟩
  · rw [if_neg hbody] at hstep
    cases hstep

/-- The text of a part up to its end. -/
theorem exists_part_of_steps {p : MessageParser}
    (hp : p.state = MessageState.start) {t : Str} {rest : List Token}
    {last : Headers}
    (h : steps ⟨true, p⟩ (bytes t ++ Token.messageEnd :: rest) = some last) :
    exists part : Part, part.Valid ∧ t = part.text ∧
      exists q : MessageParser, q.state = MessageState.start ∧
        steps ⟨false, q⟩ rest = some last := by
  rw [steps_append, steps_bytes_inside] at h
  rcases Option.bind_eq_some_iff.mp h with ⟨inside, hinside, hend⟩
  rcases Option.map_eq_some_iff.mp hinside with ⟨⟨q, marks⟩, hrun, rfl⟩
  change (step ⟨true, q⟩ Token.messageEnd).bind (fun h => h.steps rest) = _
    at hend
  rcases Option.bind_eq_some_iff.mp hend with ⟨after, hafter, hrest⟩
  rcases step_messageEnd hafter with ⟨hbody, hmessage, hstart⟩
  rcases MessageParser.exists_part hp hrun hbody with ⟨part, hvalid, htext⟩
  rcases after with ⟨message, parser⟩
  change message = false at hmessage
  subst hmessage
  exact ⟨part, hvalid, htext, parser, hstart, hrest⟩

theorem steps_part {p : MessageParser} (hp : p.state = MessageState.start)
    {part : Part} (hvalid : part.Valid) (gap : Str) :
    steps ⟨true, p⟩ (bytes part.text ++ Token.messageEnd :: bytes gap) =
      some ⟨false, ⟨MessageState.start, []⟩⟩ := by
  rw [steps_append, steps_bytes_inside, MessageParser.run_part hp hvalid]
  change (step ⟨true, ⟨MessageState.body, []⟩⟩ Token.messageEnd).bind
    (fun h => h.steps (bytes gap)) = _
  exact steps_bytes_outside ⟨MessageState.start, []⟩ gap

theorem exists_parts_of_steps {toks : List Token} {ts : List Str}
    (h : Carries toks ts) : forall (p : MessageParser) (last : Headers),
      p.state = MessageState.start -> steps ⟨true, p⟩ toks = some last ->
      exists parts : List Part, (forall part, part ∈ parts -> part.Valid) ∧
        ts = parts.map Part.text := by
  induction h with
  | last t gap =>
      intro p last hp hsteps
      rcases exists_part_of_steps hp hsteps with ⟨part, hvalid, rfl, -⟩
      exact ⟨[part], by simpa using hvalid, rfl⟩
  | more t gap _ ih =>
      intro p last hp hsteps
      rw [List.append_assoc, List.cons_append] at hsteps
      rcases exists_part_of_steps hp hsteps with
        ⟨part, hvalid, rfl, q, hq, hrest⟩
      rw [steps_append, steps_bytes_outside, Option.bind_some] at hrest
      change steps ⟨true, q⟩ _ = some last at hrest
      rcases ih q last hq hrest with ⟨parts, hparts, rfl⟩
      refine ⟨part :: parts, ?_, rfl⟩
      simpa using ⟨hvalid, hparts⟩

theorem exists_steps {toks : List Token} {ts : List Str} (h : Carries toks ts) :
    forall (p : MessageParser) (parts : List Part),
      p.state = MessageState.start -> (forall part, part ∈ parts -> part.Valid) ->
      ts = parts.map Part.text -> exists last, steps ⟨true, p⟩ toks = some last := by
  induction h with
  | last t gap =>
      intro p parts hp hvalid hts
      cases parts with
      | nil => cases hts
      | cons part parts =>
          rcases List.cons.inj hts with ⟨rfl, -⟩
          exact ⟨_, steps_part hp (hvalid part (by simp)) gap⟩
  | more t gap _ ih =>
      intro p parts hp hvalid hts
      cases parts with
      | nil => cases hts
      | cons part parts =>
          rcases List.cons.inj hts with ⟨rfl, hrest⟩
          rw [steps_append, steps_part hp (hvalid part (by simp)) gap,
            Option.bind_some]
          exact ih ⟨MessageState.start, []⟩ parts rfl
            (fun part hpart => hvalid part (by simp [hpart])) hrest

end Headers

/-- The parsers get through a body: the scanner to its epilogue, the message
parser without an error. -/
def Parsed (boundary body : Str) : Prop :=
  exists s toks last,
    Transducer.run Scanner.scan (Scanner.start boundary) body = some (s, toks) ∧
      s.parser.state = StreamState.epilogue ∧ Headers.steps {} toks = some last

/-- The two parsers recognise the well-formed bodies. -/
theorem parsed_iff_wellFormed (boundary body : Str) :
    Parsed boundary body <-> WellFormed boundary body := by
  constructor
  · rintro ⟨s, toks, last, hscan, hepilogue, hsteps⟩
    rcases Scanner.framed_of_scans hscan hepilogue with
      ⟨ts, pre, inner, hframed, rfl, hcarries⟩
    rw [Headers.steps_append, Headers.steps_bytes_outside,
      Option.bind_some] at hsteps
    change Headers.steps ⟨true, {}⟩ inner = some last at hsteps
    rcases Headers.exists_parts_of_steps hcarries {} last rfl hsteps with
      ⟨parts, hvalid, rfl⟩
    exact ⟨parts, hvalid, hframed⟩
  · rintro ⟨parts, hvalid, hframed⟩
    rcases Scanner.scans_framed hframed with
      ⟨s, pre, toks, hscan, hcarries, hwaits⟩
    rcases Headers.exists_steps hcarries {} parts rfl hvalid rfl with
      ⟨last, hlast⟩
    refine ⟨s, _, last, hscan, hwaits.state_eq, ?_⟩
    rw [Headers.steps_append, Headers.steps_bytes_outside, Option.bind_some]
    exact hlast

/-!
## What the reader accepts
-/

namespace Reader

variable {fs : FileSystem} {boundary body : Str} {target : FormTarget}

/-- A body given in one piece, to which neither `put` nor `finish` objects. -/
def Accepts (fs : FileSystem) (target : FormTarget) (boundary body : Str) :
    Prop :=
  exists out, (initial boundary target).put fs body = Except.ok out ∧
    out.ec = none ∧ out.reader.finish = none

/-- `put` on a whole body does what the bytewise reader does, but for a name
that the body ends in. -/
theorem accepts_iff : Accepts fs target boundary body <->
    ((initial boundary target).feedAll fs body).2 = none ∧
      ¬ ((initial boundary target).feedAll fs body).1.CutsName ∧
      ((initial boundary target).feedAll fs body).1.finish = none := by
  have hready := ready_initial boundary target
  rw [Accepts]
  by_cases hok : ((initial boundary target).feedAll fs body).2 = none
  · by_cases hcut : ((initial boundary target).feedAll fs body).1.CutsName
    · rw [put_of_cutsName hready.placed hok hcut]
      constructor
      · rintro ⟨out, hout, -⟩
        cases hout
      · intro h
        exact absurd hcut h.right.left
    · rcases put_of_ok hready.placed hok hcut with
        ⟨out, hput, hec, -, hcollector, -, -⟩
      have hfinish : out.reader.finish =
          ((initial boundary target).feedAll fs body).1.finish := by
        rw [finish, finish, hcollector]
      rw [hput]
      constructor
      · rintro ⟨out', hout, -, hdone⟩
        cases hout
        exact ⟨hok, hcut, hfinish.symm.trans hdone⟩
      · intro h
        exact ⟨out, rfl, hec, hfinish.trans h.right.right⟩
  · rcases Option.ne_none_iff_exists'.mp hok with ⟨e, he⟩
    rcases put_of_error hready.placed he with ⟨out, hput, hec, -⟩
    rw [hput]
    constructor
    · rintro ⟨out', hout, hnone, -⟩
      cases hout
      rw [hec] at hnone
      cases hnone
    · intro h
      exact absurd h.left hok

end Reader

end Multipart
end CisWebui
