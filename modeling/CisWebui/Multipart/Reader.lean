import CisWebui.Http.MultipartFormHandler
import CisWebui.Multipart.Scanner

/-!
# The multipart reader

`basic_multipart_form_body::reader` is fed the body of a request in pieces.  It
runs the two parsers over the bytes held back and the new ones, and copies the
values of the parts out of them: at the end of a value, and at the end of every
piece for what the piece has of it.

A position counts bytes from the start of the bytes held back.  A multimap is
the list of what has been put into it, the newest first: that order determines
the order in the map, and the newest entry is the one the reader writes to.
-/

namespace CisWebui
namespace Multipart

open Cpp
open Http (FormTarget DiskView)

/-- The value of a `boost::system::error_code`, when it is set. -/
abbrev Ec := Option Nat

/-- What the file system does, given the files opened so far: which files it
finds, which error an open sets, and how many bytes an opened file takes, if
that is limited. -/
structure FileSystem where
  isDirectory : Str -> Bool
  fileExists : List Str -> Str -> Bool
  openError : List Str -> Str -> Ec
  room : List Str -> Str -> Option Nat

namespace FileSystem

def disk (fs : FileSystem) (opened : List Str) : DiskView where
  isDirectory := fs.isDirectory
  fileExists := fs.fileExists opened

end FileSystem

/-- `value_t`, with its key. -/
structure Value where
  name : Str
  isFile : Bool
  written : Bool := true
  content : Str := []
deriving DecidableEq, Repr

/-- An entry of `files_`: where it has been opened, and what has been written
to it. -/
structure FormFile where
  name : Str
  path : Option Str := none
  room : Option Nat := none
  isOpen : Bool := false
  written : Str := []
deriving DecidableEq, Repr

namespace FormFile

/-- What the file still takes of a text. -/
def taken (file : FormFile) (text : Str) : Str :=
  match file.room with
  | none => text
  | some room => text.take (room - file.written.length)

/-- `File::write`, if the file is open. -/
def write (file : FormFile) (text : Str) : FormFile :=
  if file.isOpen then
    { file with written := file.written ++ file.taken text }
  else
    file

end FormFile

/-- `reader::state` -/
inductive ReaderState where
  | name
  | filename
  | content
  | file
deriving DecidableEq, Repr

/-- What the reader makes of the bytes it is given: everything but the stream
parser and the bytes held back. -/
structure Collector where
  target : FormTarget
  messageParser : MessageParser := {}
  message : Bool := false
  isWritable : Bool := false
  state : ReaderState := ReaderState.name
  nameBuffer : Str := []
  values : List Value := []
  files : List FormFile := []
deriving DecidableEq, Repr

/-- `basic_multipart_form_body::reader` -/
structure Reader where
  scanner : Scanner
  collector : Collector
deriving DecidableEq, Repr

namespace Collector

def opened (c : Collector) : List Str :=
  c.files.filterMap fun file => file.path

/-- Where `write_part` copies bytes to.  An error of `File::write` is left out:
`close` clears it after a body, and `put` clears it at its end. -/
def write (c : Collector) (text : Str) : Collector :=
  match c.state with
  | ReaderState.name => { c with nameBuffer := c.nameBuffer ++ text }
  | ReaderState.content =>
      { c with values := c.values.modifyHead fun value =>
          { value with content := value.content ++ text } }
  | ReaderState.filename =>
      { c with values := c.values.modifyHead fun value =>
          { value with content := value.content ++ text } }
  | ReaderState.file =>
      { c with files := c.files.modifyHead fun file => file.write text }

/-- `body_.values_.emplace` with the name read last. -/
def emplaceValue (c : Collector) (isFile : Bool) : Collector :=
  { c with
    values := { name := c.nameBuffer, isFile := isFile } :: c.values
    nameBuffer := [] }

/-- The content of `current_content_`. -/
def currentContent (c : Collector) : Str :=
  (c.values.head?.map fun value => value.content).getD []

/-- The end of a filename: the entry of `files_`, and the file itself if the
mode allows it. -/
def openFile (fs : FileSystem) (c : Collector) (ec : Ec) : Collector × Ec :=
  let filename := c.currentContent
  let path := c.target.filePath filename
  if c.target.opens (fs.disk c.opened) filename then
    match fs.openError c.opened path with
    | none =>
        ({ c with
          files := { name := filename, path := some path,
                     room := fs.room c.opened path, isOpen := true } ::
            c.files }, none)
    | some e => ({ c with files := { name := filename } :: c.files }, some e)
  else
    ({ c with
      values := c.values.modifyHead fun value => { value with written := false }
      files := { name := filename } :: c.files }, ec)

/-- The cases of `message_part_event`, without the positions that a beginning
sets and the `write_part` that an end starts with. -/
def onEvent (fs : FileSystem) (c : Collector) (ec : Ec) :
    MessageEvent -> Collector × Ec
  | MessageEvent.none => (c, ec)
  | MessageEvent.beginName => ({ c with isWritable := true }, ec)
  | MessageEvent.endName =>
      ({ c with isWritable := false, state := ReaderState.content }, ec)
  | MessageEvent.beginFilename =>
      ({ c.emplaceValue true with
        state := ReaderState.filename, isWritable := true }, ec)
  | MessageEvent.endFilename =>
      let opened := openFile fs { c with isWritable := false } ec
      ({ opened.1 with state := ReaderState.file }, opened.2)
  | MessageEvent.beginBody =>
      let c := if c.state = ReaderState.content then c.emplaceValue false else c
      ({ c with isWritable := true }, ec)
  | MessageEvent.endBody =>
      let c := { c with isWritable := false }
      if c.state = ReaderState.file then
        ({ c with
          files := c.files.modifyHead fun file => { file with isOpen := false }
          state := ReaderState.name }, none)
      else
        ({ c with state := ReaderState.name }, ec)

end Collector

/-!
## put
-/

/-- Reading past the end of the buffers. -/
inductive Fault where
  | pastTheEnd
deriving DecidableEq, Repr

theorem exists_of_map {α β : Type} {x : Except Fault α} {f : α -> β} {b : β}
    (h : x.map f = Except.ok b) : exists a, x = Except.ok a ∧ f a = b := by
  cases x with
  | error e => cases h
  | ok a => exact ⟨a, rfl, Except.ok.inj h⟩

theorem exists_of_bind {α β : Type} {x : Except Fault α}
    {f : α -> Except Fault β} {b : β} (h : x.bind f = Except.ok b) :
    exists a, x = Except.ok a ∧ f a = Except.ok b := by
  cases x with
  | error e => cases h
  | ok a => exact ⟨a, rfl, h⟩

/-- The locals of `put`: `msg` is the position of `msg_it` and, as both advance
together, `parsed_offset`; `part` is that of `part_it`. -/
structure Cursor where
  parser : StreamParser
  collector : Collector
  msg : Nat := 0
  part : Nat := 0
  ec : Ec := none
deriving DecidableEq, Repr

def slice (view : Str) (first last : Nat) : Str :=
  (view.drop first).take (last - first)

def MessageEvent.begins : MessageEvent -> Bool
  | MessageEvent.beginName => true
  | MessageEvent.beginFilename => true
  | MessageEvent.beginBody => true
  | _ => false

def MessageEvent.ends : MessageEvent -> Bool
  | MessageEvent.endName => true
  | MessageEvent.endFilename => true
  | MessageEvent.endBody => true
  | _ => false

namespace Cursor

/-- `write_part`, with `part_end` at `msg`.  In a name it looks at the buffer
of `part_end` without asking whether there is one. -/
def writePart (view : Str) (x : Cursor) : Except Fault Cursor :=
  if x.collector.state = ReaderState.name ∧ view.length <= x.msg then
    Except.error Fault.pastTheEnd
  else
    Except.ok
      { x with
        collector := x.collector.write (slice view x.part x.msg)
        part := x.msg }

theorem writePart_ok {view : Str} {x y : Cursor}
    (h : x.writePart view = Except.ok y) :
    y = { x with
      collector := x.collector.write (slice view x.part x.msg)
      part := x.msg } := by
  unfold writePart at h
  split at h
  · cases h
  · exact (Except.ok.inj h).symm

/-- `message_part_event` -/
def messagePartEvent (fs : FileSystem) (view : Str) (x : Cursor)
    (event : MessageEvent) : Except Fault Cursor :=
  (if event.ends then x.writePart view else Except.ok x).map fun x =>
    let handled := x.collector.onEvent fs x.ec event
    { x with
      collector := handled.1
      ec := handled.2
      part := if event.begins then x.msg + 1 else x.part }

/-- `on_parser_event`, whose parameter `ec` is a copy: the error of
`handle_message_end` goes no further. -/
def onParserEvent (fs : FileSystem) (view : Str) (x : Cursor) :
    StreamEvent -> Except Fault Cursor
  | StreamEvent.none => Except.ok x
  | StreamEvent.messageBegin =>
      Except.ok { x with collector := { x.collector with message := true } }
  | StreamEvent.messageEnd =>
      let step := x.collector.messageParser.handleMessageEnd
      let x :=
        { x with
          collector := { x.collector with messageParser := step.parser } }
      (x.messagePartEvent fs view step.event).map fun x =>
        { x with collector := { x.collector with message := false } }

/-- `advance` -/
def advance (fs : FileSystem) (view : Str) : Nat -> Cursor ->
    Except Fault Cursor
  | 0, x => Except.ok x
  | adv + 1, x =>
      match view[x.msg]? with
      | none => Except.error Fault.pastTheEnd
      | some c =>
          if x.collector.message then
            let step := x.collector.messageParser.handleMessageChar c
            let x :=
              { x with
                collector := { x.collector with messageParser := step.parser }
                ec := if step.failed then some 1 else x.ec }
            (x.messagePartEvent fs view step.event).bind fun x =>
              advance fs view adv { x with msg := x.msg + 1 }
          else
            advance fs view adv { x with msg := x.msg + 1 }

/-- One round of the loop of `put`. -/
def handleChar (fs : FileSystem) (view : Str) (x : Cursor) (c : UInt8) :
    Except Fault Cursor :=
  let step := x.parser.handleChar c
  let x := { x with parser := step.parser }
  if step.failed then
    Except.ok { x with ec := some 1 }
  else
    match step.event with
    | StreamEvent.messageBegin =>
        (x.advance fs view step.advancement).bind fun x =>
          x.onParserEvent fs view step.event
    | _ =>
        (x.onParserEvent fs view step.event).bind fun x =>
          x.advance fs view step.advancement

/-- The loop of `put`, which counts the bytes taken without an error. -/
def loop (fs : FileSystem) (view : Str) :
    Str -> Nat -> Cursor -> Except Fault (Cursor × Nat)
  | [], nwritten, x => Except.ok (x, nwritten)
  | c :: rest, nwritten, x =>
      (x.handleChar fs view c).bind fun x =>
        if x.ec = none then
          loop fs view rest (nwritten + 1) x
        else
          Except.ok (x, nwritten)

end Cursor

namespace Reader

/-- What `put` leaves behind: the reader, the number of bytes and the error. -/
structure Result where
  reader : Reader
  nwritten : Nat
  ec : Ec
deriving DecidableEq, Repr

/-- The bytes held back at the end of `put`: `buf_size` bytes from `msg` on are
added to the buffer, then the consumed ones are dropped from its front. -/
def nextPending (view pending : Str) (nwritten msg : Nat) : Str :=
  let consumed := if msg < pending.length then msg else pending.length
  let bufSize := nwritten + consumed - msg
  (pending ++ (view.drop msg).take bufSize).drop consumed

/-- `put`, for one buffer. -/
def put (fs : FileSystem) (r : Reader) (chunk : Str) : Except Fault Result :=
  let view := r.scanner.pending ++ chunk
  let start : Cursor :=
    { parser := r.scanner.parser, collector := r.collector }
  (start.loop fs view chunk 0).bind fun (x, nwritten) =>
    if x.ec = none then
      (if x.collector.isWritable then x.writePart view else Except.ok x).map
        fun x =>
          { reader :=
              { scanner :=
                  { parser := x.parser
                    pending := nextPending view r.scanner.pending nwritten x.msg }
                collector := x.collector }
            nwritten := nwritten
            ec := none }
    else
      Except.ok
        { reader :=
            { scanner := { r.scanner with parser := x.parser }
              collector := x.collector }
          nwritten := nwritten
          ec := x.ec }

/-- `finish` -/
def finish (r : Reader) : Ec :=
  if r.collector.state = ReaderState.name then none else some 1

/-- A reader after `init` with a boundary. -/
def initial (boundary : Str) (target : FormTarget) : Reader where
  scanner := Scanner.start boundary
  collector := { target := target }

/-- The boundary that the constructor takes from the content type, and `init`,
which refuses an empty one. -/
def init (contentType : Str) (target : FormTarget) : Except Nat Reader :=
  let boundary := (contentType.dropWhile fun b => b ≠ chr '=').tail
  if boundary = [] then
    Except.error 1
  else
    Except.ok (initial boundary target)

end Reader

end Multipart
end CisWebui
