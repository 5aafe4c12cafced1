import CisWebui.Multipart.PartText

/-!
# The calls of the message parser

A text goes to the parser byte by byte, and its end is told to it last; an error
does not stop the calls.  No call reports one just when the text is that of a
part, and then the events delimit the values of the part.
-/

namespace CisWebui
namespace Multipart

open Cpp
open Foundation

namespace MessageParser

/-!
## Calls
-/

/-- The calls for the bytes of a text and the one for its end. -/
def calls (p : MessageParser) : Str -> List MessageStep
  | [] => [p.handleMessageEnd]
  | c :: text => p.handleMessageChar c :: calls (p.handleMessageChar c).parser text

/-- No call has set the error. -/
def Accepts (p : MessageParser) (text : Str) : Prop :=
  forall step, step ∈ p.calls text -> step.failed = false

/-- The parser behind all the calls. -/
def finish (p : MessageParser) : Str -> MessageParser
  | [] => p.handleMessageEnd.parser
  | c :: text => finish (p.handleMessageChar c).parser text

/-- The events that are some, under the numbers of their calls. -/
def numbered (n : Nat) : List MessageEvent -> List (Nat × MessageEvent)
  | [] => []
  | event :: rest =>
      if event = MessageEvent.none then numbered (n + 1) rest
      else (n, event) :: numbered (n + 1) rest

/-- The events of the calls. -/
def events (p : MessageParser) (text : Str) : List (Nat × MessageEvent) :=
  numbered 0 ((p.calls text).map MessageStep.event)

/-- The calls of a text that the parser gets through. -/
theorem calls_of_run {p q : MessageParser} {text : Str} {marks : List Mark}
    (h : Transducer.run read p text = some (q, marks)) :
    (p.calls text).map MessageStep.event =
        marks.map Mark.event ++ [q.handleMessageEnd.event] ∧
      p.finish text = q.handleMessageEnd.parser ∧
      (p.Accepts text <-> q.handleMessageEnd.failed = false) := by
  induction text generalizing p marks with
  | nil =>
      cases h
      refine ⟨rfl, rfl, ?_⟩
      simp [Accepts, calls]
  | cons c text ih =>
      rcases Transducer.exists_of_run_cons h with ⟨r, u, v, hread, hrest, rfl⟩
      unfold read at hread
      dsimp only at hread
      split at hread
      · cases hread
      · rename_i hfailed
        cases hread
        rcases ih hrest with ⟨hevents, hfinish, haccepts⟩
        refine ⟨?_, hfinish, ?_⟩
        · rw [calls, List.map_cons, hevents]
          rfl
        · rw [← haccepts]
          simp [Accepts, calls, hfailed]

/-- A parser that accepts a text gets through it to a body. -/
theorem exists_run_of_accepts {p : MessageParser} {text : Str} (h : p.Accepts text) :
    exists q marks, Transducer.run read p text = some (q, marks) ∧
      q.state = MessageState.body := by
  induction text generalizing p with
  | nil =>
      have hend : p.handleMessageEnd.failed = false := h _ List.mem_cons_self
      refine ⟨p, [], rfl, ?_⟩
      unfold handleMessageEnd at hend
      split at hend
      · rename_i hstate
        exact hstate
      · cases hend
  | cons c text ih =>
      have hfirst : (p.handleMessageChar c).failed = false := h _ List.mem_cons_self
      have hrest : (p.handleMessageChar c).parser.Accepts text := by
        intro step hstep
        exact h step (List.mem_cons_of_mem _ hstep)
      rcases ih hrest with ⟨q, marks, hrun, hq⟩
      have hread : read p c = some ((p.handleMessageChar c).parser,
          [⟨c, (p.handleMessageChar c).event⟩]) := by
        unfold read
        dsimp only
        rw [if_neg (by simp [hfirst])]
      refine ⟨q, ⟨c, (p.handleMessageChar c).event⟩ :: marks, ?_, hq⟩
      rw [Transducer.run_cons_of_step hread, hrun]
      rfl

/-!
## Events
-/

theorem numbered_append (a b : List MessageEvent) (n : Nat) :
    numbered n (a ++ b) = numbered n a ++ numbered (n + a.length) b := by
  induction a generalizing n with
  | nil => rfl
  | cons event rest ih =>
      rw [List.cons_append, numbered, numbered, ih, List.length_cons]
      have hshift : n + 1 + rest.length = n + (rest.length + 1) := by omega
      rw [hshift]
      split
      · rfl
      · rfl

theorem map_snd_numbered (events : List MessageEvent) (n : Nat) :
    (numbered n events).map Prod.snd =
      events.filter fun event => event ≠ MessageEvent.none := by
  induction events generalizing n with
  | nil => rfl
  | cons event rest ih =>
      rw [numbered, List.filter_cons]
      split
      · rename_i hnone
        rw [ih, if_neg (by simp [hnone])]
      · rename_i hsome
        rw [List.map_cons, ih, if_pos (by simpa using hsome)]

/-- The value lies between the byte of one event and the call of another one. -/
def Encloses (text : Str) (events : List (Nat × MessageEvent))
    (begins ends : MessageEvent) (value : Str) : Prop :=
  exists first, (first, begins) ∈ events ∧
    (first + 1 + value.length, ends) ∈ events ∧
    (text.drop (first + 1)).take value.length = value

/-- A value in the middle of the marks of a text. -/
theorem encloses_of_split {before : List Mark} {b : UInt8} {value after : Str}
    {begins ends : MessageEvent} {later : List MessageEvent}
    (hbegins : begins ≠ MessageEvent.none) (hends : ends ≠ MessageEvent.none) :
    Encloses (before.map Mark.byte ++ b :: value ++ after)
      (numbered 0 (before.map Mark.event ++ begins ::
        (silent value).map Mark.event ++ ends :: later)) begins ends value := by
  refine ⟨before.length, ?_, ?_, ?_⟩
  · rw [List.append_assoc, numbered_append, List.cons_append, numbered, if_neg hbegins,
      List.length_map, Nat.zero_add]
    exact List.mem_append_right _ List.mem_cons_self
  · have hlength : (before.map Mark.event ++ begins ::
        (silent value).map Mark.event).length = before.length + 1 + value.length := by
      simp [silent]
      omega
    rw [numbered_append, numbered, if_neg hends, hlength, Nat.zero_add]
    exact List.mem_append_right _ List.mem_cons_self
  · have hdrop : (before.map Mark.byte ++ b :: value ++ after).drop (before.length + 1) =
        value ++ after := by
      have htext : before.map Mark.byte ++ b :: value ++ after =
          (before.map Mark.byte ++ [b]) ++ (value ++ after) := by
        simp
      rw [htext]
      exact List.drop_left' (by simp)
    rw [hdrop, List.take_left]

end MessageParser

/-!
## Parts
-/

namespace Part

/-- The events of a part. -/
def events (part : Part) : List MessageEvent :=
  [MessageEvent.beginName, MessageEvent.endName] ++
    (match part.file with
    | none => []
    | some _ => [MessageEvent.beginFilename, MessageEvent.endFilename]) ++
    [MessageEvent.beginBody, MessageEvent.endBody]

/-- The events of the calls for a part, its end included. -/
def calledEvents (part : Part) : List MessageEvent :=
  part.marks.map Mark.event ++ [MessageEvent.endBody]

theorem map_byte_silent (text : Str) : (silent text).map Mark.byte = text := by
  rw [silent, List.map_map]
  exact List.map_id text

theorem map_byte_marks (part : Part) : part.marks.map Mark.byte = part.text := by
  rcases part with ⟨name, file, body⟩
  cases file with
  | none =>
      simp [marks, text, fileMarks, fileHeader, map_byte_silent, str, chr]
  | some values =>
      simp [marks, text, fileMarks, fileHeader, map_byte_silent, str, chr]

open MessageParser (numbered Encloses encloses_of_split)

theorem encloses_of_marks {part : Part} {before behind : List Mark} {b : UInt8}
    {value : Str} {begins ends : MessageEvent} {later : List MessageEvent}
    (hmarks : part.marks = before ++ ⟨b, begins⟩ :: silent value ++ behind)
    (hbehind : behind.map Mark.event ++ [MessageEvent.endBody] = ends :: later)
    (hbegins : begins ≠ MessageEvent.none) (hends : ends ≠ MessageEvent.none) :
    Encloses part.text (numbered 0 part.calledEvents) begins ends value := by
  have hevents : part.calledEvents = before.map Mark.event ++ begins ::
      (silent value).map Mark.event ++ ends :: later := by
    rw [calledEvents, hmarks, ← hbehind]
    simp
  have htext : part.text = before.map Mark.byte ++ b :: value ++ behind.map Mark.byte := by
    rw [← map_byte_marks, hmarks]
    simp [map_byte_silent]
  rw [hevents, htext]
  exact encloses_of_split hbegins hends

theorem encloses_name (part : Part) :
    Encloses part.text (numbered 0 part.calledEvents) MessageEvent.beginName
      MessageEvent.endName part.name := by
  have hmarks : part.marks = silent (str "Content-Disposition: form-data; name=") ++
      ⟨chr '"', MessageEvent.beginName⟩ :: silent part.name ++
      ⟨chr '"', MessageEvent.endName⟩ :: (fileMarks part.file ++ silent (str "\r\n\r") ++
        ⟨chr '\n', MessageEvent.beginBody⟩ :: silent part.body) := by
    simp [marks]
  exact encloses_of_marks hmarks rfl (by decide) (by decide)

theorem encloses_filename {part : Part} {filename contentType : Str}
    (hfile : part.file = some (filename, contentType)) :
    Encloses part.text (numbered 0 part.calledEvents) MessageEvent.beginFilename
      MessageEvent.endFilename filename := by
  have hmarks : part.marks = (silent (str "Content-Disposition: form-data; name=") ++
      ⟨chr '"', MessageEvent.beginName⟩ :: silent part.name ++
      ⟨chr '"', MessageEvent.endName⟩ :: silent (str "; filename=")) ++
      ⟨chr '"', MessageEvent.beginFilename⟩ :: silent filename ++
      ⟨chr '"', MessageEvent.endFilename⟩ ::
        (silent (str "\r\nContent-Type: " ++ contentType) ++ silent (str "\r\n\r") ++
          ⟨chr '\n', MessageEvent.beginBody⟩ :: silent part.body) := by
    simp [marks, fileMarks, hfile]
  exact encloses_of_marks hmarks rfl (by decide) (by decide)

theorem encloses_body (part : Part) :
    Encloses part.text (numbered 0 part.calledEvents) MessageEvent.beginBody
      MessageEvent.endBody part.body := by
  have hmarks : part.marks = (silent (str "Content-Disposition: form-data; name=") ++
      ⟨chr '"', MessageEvent.beginName⟩ :: silent part.name ++
      ⟨chr '"', MessageEvent.endName⟩ :: (fileMarks part.file ++
        silent (str "\r\n\r"))) ++
      ⟨chr '\n', MessageEvent.beginBody⟩ :: silent part.body ++ [] := by
    simp [marks]
  exact encloses_of_marks hmarks rfl (by decide) (by decide)

theorem map_snd_calledEvents (part : Part) :
    (numbered 0 part.calledEvents).map Prod.snd = part.events := by
  have hsilent : forall text : Str, ((silent text).map Mark.event).filter
      (fun event => !decide (event = MessageEvent.none)) = [] := by
    intro text
    induction text with
    | nil => rfl
    | cons c text ih => exact ih
  rw [MessageParser.map_snd_numbered]
  rcases part with ⟨name, file, body⟩
  cases file with
  | none =>
      simp [calledEvents, marks, fileMarks, events, hsilent]
  | some values =>
      simp [calledEvents, marks, fileMarks, events, hsilent]

end Part

/-- A fresh parser accepts exactly the texts of parts; for each of them it gives
their events in order, around the values, and is back at its start. -/
theorem MessageParser.accepts_iff_part (text : Str) :
    (({} : MessageParser).Accepts text <->
      exists part : Part, part.Valid ∧ text = part.text) ∧
    forall part : Part, part.Valid -> text = part.text ->
      (({} : MessageParser).events text).map Prod.snd = part.events ∧
      Encloses text (({} : MessageParser).events text) MessageEvent.beginName
        MessageEvent.endName part.name ∧
      (forall filename contentType, part.file = some (filename, contentType) ->
        Encloses text (({} : MessageParser).events text) MessageEvent.beginFilename
          MessageEvent.endFilename filename) ∧
      Encloses text (({} : MessageParser).events text) MessageEvent.beginBody
        MessageEvent.endBody part.body ∧
      (({} : MessageParser).finish text).state = MessageState.start := by
  constructor
  · constructor
    · intro h
      rcases exists_run_of_accepts h with ⟨q, marks, hrun, hq⟩
      exact exists_part rfl hrun hq
    · rintro ⟨part, hvalid, rfl⟩
      exact (calls_of_run (run_part rfl hvalid)).right.right.mpr rfl
  · rintro part hvalid rfl
    rcases calls_of_run (p := {}) (run_part rfl hvalid) with ⟨hevents, hfinish, _⟩
    have hcalled : ({} : MessageParser).events part.text =
        numbered 0 part.calledEvents := by
      rw [events, hevents]
      rfl
    rw [hcalled, hfinish]
    exact ⟨part.map_snd_calledEvents, part.encloses_name,
      fun filename contentType hfile => Part.encloses_filename hfile,
      part.encloses_body, rfl⟩

end Multipart
end CisWebui
