import CisWebui.Multipart.Bytewise
import CisWebui.Multipart.Framing

/-!
# What a part leaves behind

The collector over the tokens of one part: the value it adds, and for a file
part the file it opens and what is written to it.
-/

namespace CisWebui
namespace Multipart

open Cpp
open Foundation
open Http (FormTarget)

namespace Collector

variable (fs : FileSystem) {c : Collector}

/-!
## Marks
-/

/-- A mark without an error. -/
def passOk (fs : FileSystem) (c : Collector) (mark : Mark) : Option Collector :=
  match passOn fs (c, none) mark with
  | (d, none) => some d
  | (_, some _) => none

/-- A token without an error. -/
def takeOk (fs : FileSystem) (c : Collector) (tok : Token) : Option Collector :=
  match take fs (c, none) tok with
  | (d, none) => some d
  | (_, some _) => none

theorem openFile_setParser (fs : FileSystem) (c : Collector)
    (p : MessageParser) (ec : Ec) :
    openFile fs { c with messageParser := p } ec =
      ({ (openFile fs c ec).1 with messageParser := p },
        (openFile fs c ec).2) := by
  have hopened : ({ c with messageParser := p } : Collector).opened = c.opened :=
    rfl
  have hcontent : ({ c with messageParser := p } : Collector).currentContent =
      c.currentContent := rfl
  cases hopens : c.target.opens (fs.disk c.opened) c.currentContent with
  | false => simp [openFile, hopened, hcontent, hopens]
  | true =>
      cases herror : fs.openError c.opened
        (c.target.filePath c.currentContent) with
      | none => simp [openFile, hopened, hcontent, hopens, herror]
      | some e => simp [openFile, hopened, hcontent, hopens, herror]

theorem onEvent_setParser (fs : FileSystem) (c : Collector) (p : MessageParser)
    (ec : Ec) (event : MessageEvent) :
    onEvent fs { c with messageParser := p } ec event =
      ({ (onEvent fs c ec event).1 with messageParser := p },
        (onEvent fs c ec event).2) := by
  cases event with
  | endFilename =>
      have h := openFile_setParser fs { c with isWritable := false } p ec
      dsimp only at h
      simp only [onEvent, h]
  | beginBody =>
      simp only [onEvent]
      split <;> rfl
  | endBody =>
      simp only [onEvent]
      split <;> rfl
  | _ => rfl

theorem passOn_setParser (fs : FileSystem) (c : Collector) (p : MessageParser)
    (ec : Ec) (mark : Mark) :
    passOn fs ({ c with messageParser := p }, ec) mark =
      ({ (passOn fs (c, ec) mark).1 with messageParser := p },
        (passOn fs (c, ec) mark).2) := by
  by_cases h : mark.event = MessageEvent.none
  · rcases mark with ⟨b, event⟩
    change event = _ at h
    subst h
    simp only [passOn, collect]
    split
    · rw [write_setParser]
    · rfl
  · rw [passOn_of_ne h, passOn_of_ne h, onEvent_setParser]

theorem passOn_message (fs : FileSystem) (x : Collector × Ec) (mark : Mark) :
    (passOn fs x mark).1.message = x.1.message := by
  by_cases h : mark.event = MessageEvent.none
  · rcases mark with ⟨b, event⟩
    change event = _ at h
    subst h
    simp only [passOn, collect]
    split
    · rw [write_message]
    · rfl
  · rw [passOn_of_ne h, onEvent_message]

theorem passOk_setParser (fs : FileSystem) (c : Collector) (p : MessageParser)
    (mark : Mark) :
    passOk fs { c with messageParser := p } mark =
      (passOk fs c mark).map fun d => { d with messageParser := p } := by
  rw [passOk, passOk, passOn_setParser]
  generalize passOn fs (c, none) mark = x
  rcases x with ⟨d, ec⟩
  cases ec <;> rfl

theorem passOk_message {d : Collector} {mark : Mark}
    (h : passOk fs c mark = some d) : d.message = c.message := by
  have hmessage := passOn_message fs (c, none) mark
  rw [passOk] at h
  generalize passOn fs (c, none) mark = x at h hmessage
  rcases x with ⟨e, ec⟩
  cases ec with
  | none =>
      cases h
      exact hmessage
  | some n => cases h

theorem foldlM_append_some {α β : Type} {f : β -> α -> Option β} {b d : β}
    {xs ys : List α} (h : xs.foldlM f b = some d) :
    (xs ++ ys).foldlM f b = ys.foldlM f d := by
  rw [List.foldlM_append, h]
  rfl

/-- In a part the collector sees the marks of the message parser. -/
theorem takeOk_bytes (text : Str) :
    forall (c : Collector) (p q : MessageParser) (marks : List Mark),
      c.message = true ->
      Transducer.run MessageParser.read p text = some (q, marks) ->
      (bytes text).foldlM (takeOk fs) { c with messageParser := p } =
        (marks.foldlM (passOk fs) c).map fun d =>
          { d with messageParser := q } := by
  induction text with
  | nil =>
      intro c p q marks _ hrun
      cases hrun
      rfl
  | cons b text ih =>
      intro c p q marks hmessage hrun
      rcases Transducer.exists_of_run_cons hrun with ⟨r, u, v, hread, hrest, rfl⟩
      rw [MessageParser.read] at hread
      cases hfailed : (p.handleMessageChar b).failed with
      | true =>
          rw [hfailed] at hread
          cases hread
      | false =>
          rw [hfailed] at hread
          cases hread
          have hstep : takeOk fs { c with messageParser := p } (Token.byte b) =
              (passOk fs c ⟨b, (p.handleMessageChar b).event⟩).map fun d =>
                { d with messageParser := (p.handleMessageChar b).parser } := by
            rw [← passOk_setParser, takeOk, take]
            dsimp only
            rw [if_pos hmessage, hfailed]
            rfl
          change (takeOk fs { c with messageParser := p } (Token.byte b)).bind
            (fun d => (bytes text).foldlM (takeOk fs) d) =
            ((passOk fs c ⟨b, (p.handleMessageChar b).event⟩).bind fun d =>
              v.foldlM (passOk fs) d).map _
          rw [hstep]
          cases hpass : passOk fs c ⟨b, (p.handleMessageChar b).event⟩ with
          | none => rfl
          | some d =>
              exact ih d _ q v ((passOk_message fs hpass).trans hmessage) hrest

variable {fs}

/-- The marks of a text are passed on without an error. -/
def Passes (fs : FileSystem) (c : Collector) (marks : List Mark)
    (d : Collector) : Prop :=
  marks.foldlM (passOk fs) c = some d

theorem Passes.append {d e : Collector} {a b : List Mark}
    (ha : Passes fs c a d) (hb : Passes fs d b e) : Passes fs c (a ++ b) e :=
  (foldlM_append_some ha).trans hb

theorem Passes.cons {d e : Collector} {mark : Mark} {marks : List Mark}
    (h : passOk fs c mark = some d) (hrest : Passes fs d marks e) :
    Passes fs c (mark :: marks) e := by
  rw [Passes, List.foldlM_cons, h]
  exact hrest

theorem passes_event {d : Collector} {b : UInt8} {event : MessageEvent}
    (h : passOk fs c ⟨b, event⟩ = some d) : Passes fs c [⟨b, event⟩] d :=
  Passes.cons h rfl

theorem passes_idle (h : c.isWritable = false) (text : Str) :
    Passes fs c (silent text) c := by
  induction text with
  | nil => rfl
  | cons b text ih =>
      have hstep : passOk fs c ⟨b, MessageEvent.none⟩ = some c := by
        simp [passOk, passOn, collect, h]
      exact Passes.cons hstep ih

theorem passes_value (text : Str) : forall c : Collector,
    c.isWritable = true -> Passes fs c (silent text) (c.write text) := by
  induction text with
  | nil =>
      intro c _
      rw [write_nil]
      rfl
  | cons b text ih =>
      intro c h
      have hstep : passOk fs c ⟨b, MessageEvent.none⟩ = some (c.write [b]) := by
        simp [passOk, passOn, collect, h]
      have hrest := ih (c.write [b]) ((write_isWritable c [b]).trans h)
      rw [write_write] at hrest
      exact Passes.cons hstep hrest

/-!
## Parts
-/

/-- Between two parts. -/
structure Fresh (c : Collector) : Prop where
  isWritable_eq : c.isWritable = false
  state_eq : c.state = ReaderState.name
  nameBuffer_eq : c.nameBuffer = []

/-- After the name of a part. -/
def named (c : Collector) (name : Str) : Collector :=
  { c with state := ReaderState.content, nameBuffer := name }

theorem passes_name (h : Fresh c) (name : Str) :
    Passes fs c (silent (str "Content-Disposition: form-data; name=") ++
      [⟨chr '"', MessageEvent.beginName⟩] ++ silent name ++
      [⟨chr '"', MessageEvent.endName⟩]) (c.named name) := by
  rcases c with ⟨target, parser, message, isWritable, state, buffer, values, files⟩
  rcases h with ⟨hwritable, hstate, hbuffer⟩
  dsimp only at hwritable hstate hbuffer
  subst hwritable hstate hbuffer
  have hstart : Passes fs ⟨target, parser, message, false, ReaderState.name, [],
      values, files⟩ _ _ :=
    passes_idle rfl (str "Content-Disposition: form-data; name=")
  have hname : Passes fs ⟨target, parser, message, true, ReaderState.name, [],
      values, files⟩ _ _ := passes_value name _ rfl
  exact ((hstart.append (passes_event rfl)).append hname).append
    (passes_event rfl)

theorem passes_body {d : Collector} (hidle : c.isWritable = false)
    (hbegin : passOk fs c ⟨chr '\n', MessageEvent.beginBody⟩ = some d)
    (hd : d.isWritable = true) (header body : Str) :
    Passes fs c (silent header ++ [⟨chr '\n', MessageEvent.beginBody⟩] ++
      silent body) (d.write body) :=
  ((passes_idle hidle header).append (passes_event hbegin)).append
    (passes_value body d hd)

/-- After the filename of a part, with the value it has added and the files. -/
def filed (c : Collector) (value : Value) (files : List FormFile) : Collector :=
  { c with
    state := ReaderState.file
    values := value :: c.values
    files := files }

/-- The file of a part once it has been opened. -/
def openedFile (fs : FileSystem) (c : Collector) (filename : Str) : FormFile where
  name := filename
  path := some (c.target.filePath filename)
  room := fs.room c.opened (c.target.filePath filename)
  isOpen := true

theorem passes_filename (h : Fresh c) (name filename : Str) :
    Passes fs (c.named name) (silent (str "; filename=") ++
      [⟨chr '"', MessageEvent.beginFilename⟩] ++ silent filename)
      { c with
        state := ReaderState.filename
        isWritable := true
        values := { name := name, isFile := true, content := filename } ::
          c.values } := by
  rcases c with ⟨target, parser, message, isWritable, state, buffer, values, files⟩
  rcases h with ⟨hwritable, hstate, hbuffer⟩
  dsimp only at hwritable hstate hbuffer
  subst hwritable hstate hbuffer
  have hstart : Passes fs ⟨target, parser, message, false, ReaderState.content,
      name, values, files⟩ _ _ := passes_idle rfl (str "; filename=")
  have hvalue : Passes fs ⟨target, parser, message, true, ReaderState.filename,
      [], { name := name, isFile := true } :: values, files⟩ _ _ :=
    passes_value filename _ rfl
  exact (hstart.append (passes_event rfl)).append hvalue

/-- What the end of a filename makes of the collector; `none` is an error. -/
def afterFilename (fs : FileSystem) (c : Collector) (name filename : Str) :
    Option Collector :=
  if c.target.opens (fs.disk c.opened) filename then
    match fs.openError c.opened (c.target.filePath filename) with
    | none =>
        some (c.filed { name := name, isFile := true, content := filename }
          (openedFile fs c filename :: c.files))
    | some _ => none
  else
    some (c.filed
      { name := name, isFile := true, written := false, content := filename }
      ({ name := filename } :: c.files))

theorem passOk_endFilename (h : Fresh c) (name filename : Str) :
    passOk fs
      { c with
        state := ReaderState.filename
        isWritable := true
        values := { name := name, isFile := true, content := filename } ::
          c.values }
      ⟨chr '"', MessageEvent.endFilename⟩ =
      afterFilename fs c name filename := by
  rcases c with ⟨target, parser, message, isWritable, state, buffer, values, files⟩
  rcases h with ⟨hwritable, hstate, hbuffer⟩
  dsimp only at hwritable hstate hbuffer
  subst hwritable hstate hbuffer
  generalize hc : (⟨target, parser, message, false, ReaderState.name, [], values,
    files⟩ : Collector) = c
  have hopened : c.opened = files.filterMap fun file => file.path := by
    rw [← hc]
    rfl
  cases hopens : target.opens (fs.disk c.opened) filename with
  | false =>
      rw [hopened] at hopens
      simp [passOk, passOn, onEvent, openFile, currentContent, opened,
        afterFilename, hopens, filed, ← hc]
  | true =>
      cases herror : fs.openError c.opened (target.filePath filename) with
      | none =>
          rw [hopened] at hopens herror
          simp [passOk, passOn, onEvent, openFile, currentContent, opened,
            afterFilename, hopens, herror, filed, openedFile, ← hc]
      | some e =>
          rw [hopened] at hopens herror
          simp [passOk, passOn, onEvent, openFile, currentContent, opened,
            afterFilename, hopens, herror, ← hc]

/-- What a whole part makes of the collector; `none` is an error of an open. -/
def leave (fs : FileSystem) (c : Collector) (part : Part) : Option Collector :=
  match part.file with
  | none =>
      some { c with
        values := { name := part.name, isFile := false, content := part.body } ::
          c.values }
  | some (filename, _) =>
      (afterFilename fs c part.name filename).map fun d =>
        { d with
          state := ReaderState.name
          files := d.files.modifyHead fun file =>
            { file.write part.body with isOpen := false } }

/-- Outside the parts no byte is kept. -/
theorem takeOk_bytes_outside (hmessage : c.message = false)
    (hwritable : c.isWritable = false) (gap : Str) :
    (bytes gap).foldlM (takeOk fs) c = some c := by
  induction gap with
  | nil => rfl
  | cons b gap ih =>
      have hstep : takeOk fs c (Token.byte b) = some c := by
        simp [takeOk, take, hmessage, collect, hwritable]
      rw [bytes, List.map_cons, List.foldlM_cons, hstep]
      exact ih

theorem takeOk_end_content (fs : FileSystem) (c : Collector)
    (hstate : c.state = ReaderState.content) :
    takeOk fs { c with messageParser := ⟨MessageState.body, []⟩ }
        Token.messageEnd =
      some { c with
        messageParser := ⟨MessageState.start, []⟩
        isWritable := false
        state := ReaderState.name
        message := false } := by
  simp [takeOk, take, MessageParser.handleMessageEnd, onEvent, hstate]

theorem takeOk_end_file (fs : FileSystem) (c : Collector)
    (hstate : c.state = ReaderState.file) :
    takeOk fs { c with messageParser := ⟨MessageState.body, []⟩ }
        Token.messageEnd =
      some { c with
        messageParser := ⟨MessageState.start, []⟩
        isWritable := false
        state := ReaderState.name
        files := c.files.modifyHead fun file => { file with isOpen := false }
        message := false } := by
  simp [takeOk, take, MessageParser.handleMessageEnd, onEvent, hstate]

/-- The header and the body of a part, one after the other. -/
theorem passes_marks {d e : Collector} {part : Part} (h : Fresh c)
    (hfile : Passes fs (c.named part.name) (Part.fileMarks part.file) d)
    (hidle : d.isWritable = false)
    (hbegin : passOk fs d ⟨chr '\n', MessageEvent.beginBody⟩ = some e)
    (he : e.isWritable = true) :
    Passes fs c part.marks (e.write part.body) := by
  have hall := ((passes_name h part.name).append hfile).append
    (passes_body hidle hbegin he (str "\r\n\r") part.body)
  simpa only [Part.marks, List.append_assoc] using hall

theorem takeOk_end_gap {d : Collector} (hwritable : d.isWritable = false)
    (hmessage : d.message = false)
    (hend : takeOk fs c Token.messageEnd = some d) (gap : Str) :
    (Token.messageEnd :: bytes gap).foldlM (takeOk fs) c = some d := by
  rw [List.foldlM_cons, hend]
  exact takeOk_bytes_outside hmessage hwritable gap

theorem passes_fileMarks {d : Collector} (h : Fresh c)
    {name filename contentType : Str}
    (hend : afterFilename fs c name filename = some d)
    (hidle : d.isWritable = false) :
    Passes fs (c.named name) (Part.fileMarks (some (filename, contentType))) d :=
  ((passes_filename h name filename).append
    (passes_event ((passOk_endFilename h name filename).trans hend))).append
    (passes_idle hidle (str "\r\nContent-Type: " ++ contentType))

theorem not_passes_fileMarks (h : Fresh c) {part : Part}
    {filename contentType : Str} (hfile : part.file = some (filename, contentType))
    (hend : afterFilename fs c part.name filename = none) :
    part.marks.foldlM (passOk fs) c = none := by
  have hname : Passes fs c _ _ := passes_name h part.name
  have hhead := hname.append (passes_filename h part.name filename)
  have hmark := (passOk_endFilename h part.name filename).trans hend
  have hall : part.marks = (silent (str "Content-Disposition: form-data; name=")
      ++ [⟨chr '"', MessageEvent.beginName⟩] ++ silent part.name ++
      [⟨chr '"', MessageEvent.endName⟩] ++ (silent (str "; filename=") ++
      [⟨chr '"', MessageEvent.beginFilename⟩] ++ silent filename)) ++
      ⟨chr '"', MessageEvent.endFilename⟩ ::
        (silent (str "\r\nContent-Type: " ++ contentType) ++
          (silent (str "\r\n\r") ++ [⟨chr '\n', MessageEvent.beginBody⟩] ++
            silent part.body)) := by
    simp [Part.marks, Part.fileMarks, hfile]
  rw [hall, foldlM_append_some hhead, List.foldlM_cons, hmark]
  rfl

theorem exists_filed {d : Collector} {name filename : Str}
    (h : afterFilename fs c name filename = some d) :
    exists value files, d = c.filed value files := by
  rw [afterFilename] at h
  split at h
  · split at h
    · cases h
      exact ⟨_, _, rfl⟩
    · cases h
  · cases h
    exact ⟨_, _, rfl⟩

/-- A valid part and the bytes up to the next one. -/
theorem takeOk_part (h : Fresh c) (hmessage : c.message = true)
    (hstart : c.messageParser.state = MessageState.start) {part : Part}
    (hvalid : part.Valid) (gap : Str) :
    (bytes part.text ++ Token.messageEnd :: bytes gap).foldlM (takeOk fs) c =
      (leave fs c part).map fun d =>
        { d with message := false, messageParser := ⟨MessageState.start, []⟩ } := by
  have hbytes := takeOk_bytes fs part.text c c.messageParser _ _ hmessage
    (MessageParser.run_part hstart hvalid)
  change (bytes part.text).foldlM (takeOk fs) c = _ at hbytes
  rw [List.foldlM_append, hbytes, leave]
  rcases c with ⟨target, parser, message, isWritable, state, buffer, olds, files⟩
  have hfresh := h
  rcases h with ⟨hwritable, hstate, hbuffer⟩
  dsimp only at hwritable hstate hbuffer hmessage
  subst hwritable hstate hbuffer hmessage
  cases hfile : part.file with
  | none =>
      have hmarks : Passes fs _ part.marks ⟨target, parser, true, true,
          ReaderState.content, [],
          { name := part.name, isFile := false, content := part.body } :: olds,
          files⟩ :=
        passes_marks hfresh (by rw [hfile]; rfl) rfl rfl rfl
      rw [hmarks]
      exact takeOk_end_gap rfl rfl (takeOk_end_content fs
        ⟨target, parser, true, true, ReaderState.content, [],
          { name := part.name, isFile := false, content := part.body } :: olds,
          files⟩ rfl) gap
  | some values =>
      rcases values with ⟨filename, contentType⟩
      dsimp only
      cases hend : afterFilename fs ⟨target, parser, true, false,
        ReaderState.name, [], olds, files⟩ part.name filename with
      | none =>
          rw [not_passes_fileMarks hfresh hfile hend]
          rfl
      | some d =>
          rcases exists_filed hend with ⟨value, opened, rfl⟩
          have hmarks : Passes fs _ part.marks ⟨target, parser, true, true,
              ReaderState.file, [], value :: olds,
              opened.modifyHead fun file => file.write part.body⟩ :=
            passes_marks hfresh
              (by rw [hfile]; exact passes_fileMarks hfresh hend rfl) rfl rfl rfl
          rw [hmarks]
          have hclosed := takeOk_end_gap rfl rfl
            (takeOk_end_file fs ⟨target, parser, true, true,
              ReaderState.file, [], value :: olds,
              opened.modifyHead fun file => file.write part.body⟩ rfl) gap
          refine hclosed.trans ?_
          simp [filed, Function.comp_def]

theorem fresh_leave {d : Collector} {part : Part} (h : Fresh c)
    (hleave : leave fs c part = some d) : Fresh d := by
  rw [leave] at hleave
  cases hfile : part.file with
  | none =>
      rw [hfile] at hleave
      cases hleave
      exact ⟨h.isWritable_eq, h.state_eq, h.nameBuffer_eq⟩
  | some values =>
      rw [hfile] at hleave
      rcases Option.map_eq_some_iff.mp hleave with ⟨e, he, rfl⟩
      rcases exists_filed he with ⟨value, files, rfl⟩
      exact ⟨h.isWritable_eq, rfl, h.nameBuffer_eq⟩

/-!
## Bodies
-/

/-- The collector with a message parser that waits for the next part. -/
def waiting (c : Collector) (message : Bool) : Collector :=
  { c with message := message, messageParser := ⟨MessageState.start, []⟩ }

theorem leave_waiting (c : Collector) (message : Bool) (part : Part) :
    leave fs (c.waiting message) part =
      (leave fs c part).map fun d => d.waiting message := by
  rw [leave, leave]
  cases part.file with
  | none => rfl
  | some values =>
      rcases values with ⟨filename, contentType⟩
      have hopened : (c.waiting message).opened = c.opened := rfl
      have htarget : (c.waiting message).target = c.target := rfl
      dsimp only
      rw [afterFilename, afterFilename, hopened, htarget]
      split
      · split
        · rfl
        · rfl
      · rfl

theorem takeOk_part_waiting (h : Fresh c) {part : Part} (hvalid : part.Valid)
    (gap : Str) :
    (bytes part.text ++ Token.messageEnd :: bytes gap).foldlM (takeOk fs)
        (c.waiting true) =
      (leave fs c part).map fun d => d.waiting false := by
  have hfresh : Fresh (c.waiting true) :=
    ⟨h.isWritable_eq, h.state_eq, h.nameBuffer_eq⟩
  rw [takeOk_part hfresh rfl rfl hvalid gap, leave_waiting, Option.map_map]
  rfl

/-- The tokens of valid parts leave behind what the parts do, one by one. -/
theorem takeOk_parts {toks : List Token} {ts : List Str} (h : Carries toks ts) :
    forall (c : Collector) (parts : List Part), Fresh c ->
      (forall part, part ∈ parts -> part.Valid) -> ts = parts.map Part.text ->
      toks.foldlM (takeOk fs) (c.waiting true) =
        (parts.foldlM (leave fs) c).map fun d => d.waiting false := by
  induction h with
  | last t gap =>
      intro c parts hfresh hvalid hts
      cases parts with
      | nil => cases hts
      | cons part parts =>
          rcases List.cons.inj hts with ⟨rfl, hrest⟩
          have hnil : parts = [] := List.map_eq_nil_iff.mp hrest.symm
          subst hnil
          rw [takeOk_part_waiting hfresh (hvalid part (by simp)) gap,
            List.foldlM_cons]
          cases leave fs c part with
          | none => rfl
          | some d => rfl
  | more t gap _ ih =>
      intro c parts hfresh hvalid hts
      cases parts with
      | nil => cases hts
      | cons part parts =>
          rcases List.cons.inj hts with ⟨rfl, hrest⟩
          rw [List.foldlM_append,
            takeOk_part_waiting hfresh (hvalid part (by simp)) gap,
            List.foldlM_cons]
          cases hleave : leave fs c part with
          | none => rfl
          | some d =>
              exact ih d parts (fresh_leave hfresh hleave)
                (fun part hpart => hvalid part (by simp [hpart])) hrest

theorem takeAll_of_takeOk (toks : List Token) : forall {c d : Collector},
    toks.foldlM (takeOk fs) c = some d ->
      takeAll fs (c, none) toks = (d, none) := by
  induction toks with
  | nil =>
      intro c d h
      cases h
      rfl
  | cons tok toks ih =>
      intro c d h
      rw [List.foldlM_cons] at h
      rcases Option.bind_eq_some_iff.mp h with ⟨e, he, hrest⟩
      have hstep : take fs (c, none) tok = (e, none) := by
        rw [takeOk] at he
        generalize take fs (c, none) tok = x at he
        rcases x with ⟨f, ec⟩
        cases ec with
        | none =>
            cases he
            rfl
        | some n => cases he
      rw [takeAll, List.foldl_cons, hstep]
      exact ih hrest

end Collector

namespace Reader

variable {fs : FileSystem}

/-- A body whose tokens bring no error at all. -/
theorem feedAll_of_takeOk (body : Str) :
    forall {r : Reader} {s : Scanner} {toks : List Token} {d : Collector},
      Transducer.run Scanner.scan r.scanner body = some (s, toks) ->
      toks.foldlM (Collector.takeOk fs) r.collector = some d ->
      r.feedAll fs body = (⟨s, d⟩, none) := by
  induction body with
  | nil =>
      intro r s toks d hscan htake
      cases hscan
      cases htake
      rfl
  | cons c body ih =>
      intro r s toks d hscan htake
      rcases Transducer.exists_of_run_cons hscan with ⟨q, u, v, hstep, hrest, rfl⟩
      rw [List.foldlM_append] at htake
      rcases Option.bind_eq_some_iff.mp htake with ⟨e, he, hlast⟩
      have hall := Collector.takeAll_of_takeOk u he
      have hfeed : r.feed fs c = (⟨q, e⟩, none) := by
        rw [Scanner.scan] at hstep
        rw [feed]
        dsimp only at hstep ⊢
        by_cases hfailed : (r.scanner.parser.handleChar c).failed = true
        · rw [if_pos hfailed] at hstep
          cases hstep
        · rw [if_neg hfailed] at hstep ⊢
          cases hstep
          rw [hall]
      rw [feedAll, hfeed, if_pos rfl]
      exact ih (r := ⟨q, e⟩) hrest hlast

end Reader

end Multipart
end CisWebui
