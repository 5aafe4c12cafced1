import CisWebui.Foundation.Transducer
import CisWebui.Multipart.Parsers

/-!
# The text of a part

A part is a header, a blank line and a body.  The message parser gets through a
text to its body exactly when the text is that of a part, and the events it
gives mark where the name, the filename and the body lie.
-/

namespace CisWebui
namespace Multipart

open Cpp
open Foundation

/-- A part of a multipart body; a file part has a filename and a content
type. -/
structure Part where
  name : Str
  file : Option (Str × Str)
  body : Str
deriving DecidableEq, Repr

namespace Part

def fileHeader : Option (Str × Str) -> Str
  | none => []
  | some (filename, contentType) =>
      str "; filename=\"" ++ filename ++ str "\"\r\nContent-Type: " ++
        contentType

def text (part : Part) : Str :=
  str "Content-Disposition: form-data; name=\"" ++ part.name ++ str "\"" ++
    fileHeader part.file ++ str "\r\n\r\n" ++ part.body

/-- Every value ends where its part says it does. -/
structure Valid (part : Part) : Prop where
  name : ¬ chr '"' ∈ part.name
  filename : forall filename contentType,
    part.file = some (filename, contentType) -> ¬ chr '"' ∈ filename
  contentType : forall filename contentType,
    part.file = some (filename, contentType) -> ¬ chr '\r' ∈ contentType

end Part

/-- A byte of a part with the event the parser gives for it. -/
structure Mark where
  byte : UInt8
  event : MessageEvent := MessageEvent.none
deriving DecidableEq, Repr

def silent (text : Str) : List Mark :=
  text.map fun b => { byte := b }

namespace MessageParser

/-- The mark of one byte, unless the parser reports an error. -/
def read (p : MessageParser) (c : UInt8) :
    Option (MessageParser × List Mark) :=
  let step := p.handleMessageChar c
  if step.failed then none else some (step.parser, [⟨c, step.event⟩])

/-!
## Literals
-/

/-- In this state the parser walks over a literal. -/
def Expects (state next : MessageState) (event : MessageEvent) : Prop :=
  forall (transition : Str) (c : UInt8),
    handleMessageChar ⟨state, transition⟩ c =
      expect ⟨state, transition⟩ c next event

theorem expects_contentDisposition :
    Expects MessageState.contentDisposition MessageState.name
      MessageEvent.beginName := fun _ _ => rfl

theorem expects_filename :
    Expects MessageState.filename MessageState.filenameBody
      MessageEvent.beginFilename := fun _ _ => rfl

theorem expects_contentType :
    Expects MessageState.contentType MessageState.contentTypeBody
      MessageEvent.none := fun _ _ => rfl

theorem expects_preBody :
    Expects MessageState.preBody MessageState.body MessageEvent.beginBody :=
  fun _ _ => rfl

theorem read_expect {state next : MessageState} {event : MessageEvent}
    (h : Expects state next event) (c d : UInt8) (rest : Str) :
    read ⟨state, c :: d :: rest⟩ c =
      some (⟨state, d :: rest⟩, silent [c]) := by
  simp [read, h _ _, expect, trNext, silent]

theorem read_expect_last {state next : MessageState} {event : MessageEvent}
    (h : Expects state next event) (c : UInt8) :
    read ⟨state, [c]⟩ c = some (⟨next, []⟩, [⟨c, event⟩]) := by
  simp [read, h _ _, expect, trNext]

theorem read_expect_ne {state next : MessageState} {event : MessageEvent}
    (h : Expects state next event) {c d : UInt8} {rest : Str}
    (hne : ¬ d = c) : read ⟨state, c :: rest⟩ d = none := by
  have hne' : ¬ c = d := fun heq => hne heq.symm
  simp [read, h _ _, expect, hne']

theorem run_literal {state next : MessageState} {event : MessageEvent}
    (h : Expects state next event) (literal : Str) (c : UInt8) :
    Transducer.run read ⟨state, literal ++ [c]⟩ (literal ++ [c]) =
      some (⟨next, []⟩, silent literal ++ [⟨c, event⟩]) := by
  induction literal with
  | nil => exact Transducer.run_singleton (read_expect_last h c)
  | cons d rest ih =>
      have hstep : read ⟨state, d :: (rest ++ [c])⟩ d =
          some (⟨state, rest ++ [c]⟩, silent [d]) := by
        cases rest with
        | nil => exact read_expect h d c []
        | cons e rest => exact read_expect h d e (rest ++ [c])
      rw [List.cons_append, Transducer.run_cons_of_step hstep, ih]
      simp [silent]

/-- Whoever gets out of a literal has read it. -/
theorem exists_of_run_literal {state next : MessageState} {event : MessageEvent}
    (h : Expects state next event) (literal : Str) (hne : ¬ literal = []) :
    forall {text : Str} {q : MessageParser} {marks : List Mark},
      Transducer.run read ⟨state, literal⟩ text = some (q, marks) ->
      ¬ q.state = state -> exists rest, text = literal ++ rest := by
  induction literal with
  | nil => exact absurd rfl hne
  | cons c rest ih =>
      intro text q marks hrun hq
      cases text with
      | nil =>
          cases hrun
          exact absurd rfl hq
      | cons d text =>
          rcases Transducer.exists_of_run_cons hrun with
            ⟨p, u, v, hread, hrest, -⟩
          by_cases heq : d = c
          · subst heq
            cases rest with
            | nil => exact ⟨text, rfl⟩
            | cons e rest =>
                rw [read_expect h] at hread
                cases hread
                rcases ih (by simp) hrest hq with ⟨more, rfl⟩
                exact ⟨more, rfl⟩
          · rw [read_expect_ne h heq] at hread
            cases hread

theorem after_literal {state next : MessageState} {event : MessageEvent}
    (h : Expects state next event) (literal : Str) (c : UInt8) {text : Str}
    {q : MessageParser} {marks : List Mark}
    (hrun : Transducer.run read ⟨state, literal ++ [c]⟩ text = some (q, marks))
    (hq : ¬ q.state = state) :
    exists rest marks', text = literal ++ [c] ++ rest ∧
      Transducer.run read ⟨next, []⟩ rest = some (q, marks') := by
  rcases exists_of_run_literal h (literal ++ [c]) (by simp) hrun hq with
    ⟨rest, rfl⟩
  rcases Transducer.exists_of_run_append hrun with ⟨p, u, v, hp, hrest, -⟩
  rw [run_literal h] at hp
  cases hp
  exact ⟨rest, v, rfl, hrest⟩

/-!
## Values
-/

/-- In this state the parser waits for the byte that ends a value. -/
def Collects (state : MessageState) (stop : UInt8) (next : MessageParser)
    (event : MessageEvent) : Prop :=
  forall c : UInt8, handleMessageChar ⟨state, []⟩ c =
    if c = stop then
      { parser := next, event := event }
    else
      { parser := ⟨state, []⟩ }

theorem collects_name :
    Collects MessageState.name (chr '"') ⟨MessageState.maybeFilename, []⟩
      MessageEvent.endName := fun _ => rfl

theorem collects_filenameBody :
    Collects MessageState.filenameBody (chr '"')
      ⟨MessageState.contentType, literal MessageState.contentType⟩
      MessageEvent.endFilename := fun _ => rfl

theorem collects_contentTypeBody :
    Collects MessageState.contentTypeBody (chr '\r')
      ⟨MessageState.preBody, (literal MessageState.preBody).tail⟩
      MessageEvent.none := fun _ => rfl

theorem run_value {state : MessageState} {stop : UInt8} {next : MessageParser}
    {event : MessageEvent} (h : Collects state stop next event) {value : Str}
    (hvalue : ¬ stop ∈ value) :
    Transducer.run read ⟨state, []⟩ (value ++ [stop]) =
      some (next, silent value ++ [⟨stop, event⟩]) := by
  induction value with
  | nil =>
      apply Transducer.run_singleton
      simp [read, h stop, silent]
  | cons c rest ih =>
      rw [List.mem_cons, not_or] at hvalue
      have hne : ¬ c = stop := fun heq => hvalue.left heq.symm
      have hstep : read ⟨state, []⟩ c = some (⟨state, []⟩, silent [c]) := by
        simp [read, h c, hne, silent]
      rw [List.cons_append, Transducer.run_cons_of_step hstep,
        ih hvalue.right]
      simp [silent]

theorem exists_of_run_value {state : MessageState} {stop : UInt8}
    {next : MessageParser} {event : MessageEvent}
    (h : Collects state stop next event) {text : Str} :
    forall {q : MessageParser} {marks : List Mark},
      Transducer.run read ⟨state, []⟩ text = some (q, marks) ->
      ¬ q.state = state ->
      exists value rest, ¬ stop ∈ value ∧ text = value ++ [stop] ++ rest := by
  induction text with
  | nil =>
      intro q marks hrun hq
      cases hrun
      exact absurd rfl hq
  | cons c text ih =>
      intro q marks hrun hq
      by_cases heq : c = stop
      · exact ⟨[], text, by simp, by rw [heq]; rfl⟩
      · have hstep : read ⟨state, []⟩ c = some (⟨state, []⟩, silent [c]) := by
          simp [read, h c, heq, silent]
        rcases Transducer.exists_of_run_cons hrun with
          ⟨p, u, v, hread, hrest, -⟩
        rw [hstep] at hread
        cases hread
        rcases ih hrest hq with ⟨value, rest, hvalue, rfl⟩
        refine ⟨c :: value, rest, ?_, rfl⟩
        rw [List.mem_cons, not_or]
        exact ⟨fun hstop => heq hstop.symm, hvalue⟩

theorem after_value {state : MessageState} {stop : UInt8}
    {next : MessageParser} {event : MessageEvent}
    (h : Collects state stop next event) {text : Str} {q : MessageParser}
    {marks : List Mark}
    (hrun : Transducer.run read ⟨state, []⟩ text = some (q, marks))
    (hq : ¬ q.state = state) :
    exists value rest marks', ¬ stop ∈ value ∧ text = value ++ [stop] ++ rest ∧
      Transducer.run read next rest = some (q, marks') := by
  rcases exists_of_run_value h hrun hq with ⟨value, rest, hvalue, rfl⟩
  rcases Transducer.exists_of_run_append hrun with ⟨p, u, v, hp, hrest, -⟩
  rw [run_value h hvalue] at hp
  cases hp
  exact ⟨value, rest, v, hvalue, rfl, hrest⟩

/-!
## After the name, and the body
-/

theorem read_semicolon :
    read ⟨MessageState.maybeFilename, []⟩ (chr ';') =
      some (⟨MessageState.filename, literal MessageState.filename⟩,
        silent (str ";")) := rfl

theorem read_return :
    read ⟨MessageState.maybeFilename, []⟩ (chr '\r') =
      some (⟨MessageState.preBody, (literal MessageState.preBody).tail⟩,
        silent (str "\r")) := rfl

theorem read_maybeFilename {c : UInt8} {next : MessageParser × List Mark}
    (h : read ⟨MessageState.maybeFilename, []⟩ c = some next) :
    c = chr ';' ∨ c = chr '\r' := by
  by_contra hne
  rw [not_or] at hne
  simp [read, handleMessageChar, hne.left, hne.right] at h

theorem run_body (text : Str) :
    Transducer.run read ⟨MessageState.body, []⟩ text =
      some (⟨MessageState.body, []⟩, silent text) := by
  induction text with
  | nil => rfl
  | cons c text ih =>
      have hstep : read ⟨MessageState.body, []⟩ c =
          some (⟨MessageState.body, []⟩, silent [c]) := rfl
      rw [Transducer.run_cons_of_step hstep, ih]
      rfl

end MessageParser

/-!
## Parts
-/

namespace Part

def fileMarks : Option (Str × Str) -> List Mark
  | none => []
  | some (filename, contentType) =>
      silent (str "; filename=") ++ [⟨chr '"', MessageEvent.beginFilename⟩] ++
        silent filename ++ [⟨chr '"', MessageEvent.endFilename⟩] ++
        silent (str "\r\nContent-Type: " ++ contentType)

/-- The text of a part, with the events at their places. -/
def marks (part : Part) : List Mark :=
  silent (str "Content-Disposition: form-data; name=") ++
    [⟨chr '"', MessageEvent.beginName⟩] ++ silent part.name ++
    [⟨chr '"', MessageEvent.endName⟩] ++ fileMarks part.file ++
    silent (str "\r\n\r") ++ [⟨chr '\n', MessageEvent.beginBody⟩] ++
    silent part.body

end Part

namespace MessageParser

theorem run_preBody (body : Str) :
    Transducer.run read ⟨MessageState.preBody, (literal MessageState.preBody).tail⟩
        (str "\n\r\n" ++ body) =
      some (⟨MessageState.body, []⟩, silent (str "\n\r") ++
        [⟨chr '\n', MessageEvent.beginBody⟩] ++ silent body) :=
  Transducer.run_append
    (run_literal expects_preBody (str "\n\r") (chr '\n')) (run_body body)

theorem run_afterName {file : Option (Str × Str)} (body : Str)
    (hfilename : forall filename contentType,
      file = some (filename, contentType) -> ¬ chr '"' ∈ filename)
    (hcontentType : forall filename contentType,
      file = some (filename, contentType) -> ¬ chr '\r' ∈ contentType) :
    Transducer.run read ⟨MessageState.maybeFilename, []⟩
        (Part.fileHeader file ++ str "\r\n\r\n" ++ body) =
      some (⟨MessageState.body, []⟩, Part.fileMarks file ++
        silent (str "\r\n\r") ++ [⟨chr '\n', MessageEvent.beginBody⟩] ++
        silent body) := by
  cases file with
  | none =>
      have hreturn := Transducer.run_append
        (Transducer.run_singleton read_return) (run_preBody body)
      simpa [Part.fileHeader, Part.fileMarks, silent, str, chr] using hreturn
  | some values =>
      rcases values with ⟨filename, contentType⟩
      have hall := Transducer.run_append
        (Transducer.run_singleton read_semicolon)
        (Transducer.run_append
          (run_literal expects_filename (str " filename=") (chr '"'))
          (Transducer.run_append
            (run_value collects_filenameBody (hfilename filename contentType rfl))
            (Transducer.run_append
              (run_literal expects_contentType (str "\r\nContent-Type:") (chr ' '))
              (Transducer.run_append
                (run_value collects_contentTypeBody
                  (hcontentType filename contentType rfl))
                (run_preBody body)))))
      simpa [Part.fileHeader, Part.fileMarks, silent, str, chr] using hall

theorem run_start {p : MessageParser} (h : p.state = MessageState.start)
    {c : UInt8} {text : Str} :
    Transducer.run read p (c :: text) =
      Transducer.run read ⟨MessageState.contentDisposition,
        literal MessageState.contentDisposition⟩ (c :: text) := by
  rcases p with ⟨state, transition⟩
  change state = _ at h
  subst h
  rfl

/-- The parser gets through the text of a part to its body. -/
theorem run_part {p : MessageParser} (h : p.state = MessageState.start)
    {part : Part} (hvalid : part.Valid) :
    Transducer.run read p part.text =
      some (⟨MessageState.body, []⟩, part.marks) := by
  have hall := Transducer.run_append
    (run_literal expects_contentDisposition
      (str "Content-Disposition: form-data; name=") (chr '"'))
    (Transducer.run_append (run_value collects_name hvalid.name)
      (run_afterName part.body hvalid.filename hvalid.contentType))
  have hcons : exists c rest, part.text = c :: rest := by
    apply List.exists_cons_of_ne_nil
    simp [Part.text, str]
  rcases hcons with ⟨c, rest, htext⟩
  rw [htext, run_start h, ← htext]
  simpa [Part.text, Part.marks, silent, str, chr, literal] using hall

theorem exists_body {q : MessageParser} {text : Str} {marks : List Mark}
    (hrun : Transducer.run read
      ⟨MessageState.preBody, (literal MessageState.preBody).tail⟩ text =
        some (q, marks))
    (hq : q.state = MessageState.body) :
    exists body, text = str "\n\r\n" ++ body := by
  rcases after_literal expects_preBody (str "\n\r") (chr '\n') hrun
    (by rw [hq]; decide) with ⟨rest, _, rfl, -⟩
  exact ⟨rest, rfl⟩

theorem exists_afterName {q : MessageParser} {text : Str} {marks : List Mark}
    (hrun : Transducer.run read ⟨MessageState.maybeFilename, []⟩ text =
      some (q, marks))
    (hq : q.state = MessageState.body) :
    exists file body, text = Part.fileHeader file ++ str "\r\n\r\n" ++ body ∧
      forall filename contentType, file = some (filename, contentType) ->
        ¬ chr '"' ∈ filename ∧ ¬ chr '\r' ∈ contentType := by
  cases text with
  | nil =>
      cases hrun
      cases hq
  | cons c text =>
      rcases Transducer.exists_of_run_cons hrun with
        ⟨p, u, v, hread, hrest, -⟩
      rcases read_maybeFilename hread with rfl | rfl
      · rw [read_semicolon] at hread
        cases hread
        rcases after_literal expects_filename (str " filename=") (chr '"') hrest
          (by rw [hq]; decide) with ⟨afterName, _, rfl, hname⟩
        rcases after_value collects_filenameBody hname (by rw [hq]; decide) with
          ⟨filename, afterFilename, _, hfilename, rfl, htype⟩
        rcases after_literal expects_contentType (str "\r\nContent-Type:")
          (chr ' ') htype (by rw [hq]; decide) with ⟨afterType, _, rfl, hvalue⟩
        rcases after_value collects_contentTypeBody hvalue
          (by rw [hq]; decide) with
          ⟨contentType, afterHeader, _, hcontentType, rfl, hbody⟩
        rcases exists_body hbody hq with ⟨body, rfl⟩
        refine ⟨some (filename, contentType), body, ?_, ?_⟩
        · simp [Part.fileHeader, str, chr]
        · intro filename' contentType' heq
          cases heq
          exact ⟨hfilename, hcontentType⟩
      · rw [read_return] at hread
        cases hread
        rcases exists_body hrest hq with ⟨body, rfl⟩
        refine ⟨none, body, rfl, ?_⟩
        intro filename contentType heq
        cases heq

/-- A text the parser gets through to a body is that of a part. -/
theorem exists_part {p q : MessageParser} (h : p.state = MessageState.start)
    {text : Str} {marks : List Mark}
    (hrun : Transducer.run read p text = some (q, marks))
    (hq : q.state = MessageState.body) :
    exists part : Part, part.Valid ∧ text = part.text := by
  cases text with
  | nil =>
      cases hrun
      rw [h] at hq
      cases hq
  | cons c text =>
      rw [run_start h] at hrun
      rcases after_literal expects_contentDisposition
        (str "Content-Disposition: form-data; name=") (chr '"') hrun
        (by rw [hq]; decide) with ⟨afterStart, _, htext, hname⟩
      rcases after_value collects_name hname (by rw [hq]; decide) with
        ⟨name, afterName, _, hvalue, rfl, hrest⟩
      rcases exists_afterName hrest hq with ⟨file, body, rfl, hfile⟩
      refine ⟨⟨name, file, body⟩, ⟨hvalue, ?_, ?_⟩, ?_⟩
      · exact fun filename contentType heq =>
          (hfile filename contentType heq).left
      · exact fun filename contentType heq =>
          (hfile filename contentType heq).right
      · rw [htext]
        simp [Part.text, str, chr]

end MessageParser

end Multipart
end CisWebui
