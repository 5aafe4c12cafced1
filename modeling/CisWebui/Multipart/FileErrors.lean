import CisWebui.Multipart.Failures

/-!
# Errors of the files

`put` with the one error code that everything it calls assigns to: each call of
`File::write` and of `File::close` sets it or clears it.  The calls are answered
in their order, as the file system likes.

Every `write` is followed by something that assigns the error code again before
anyone looks at it: the `close` behind the end of a body, or the end of `put`.
-/

namespace CisWebui
namespace Multipart

open Cpp
open Http (FormTarget)

/-- What the calls of `File::write` and of `File::close` set the error code to,
each numbered from the first of the request. -/
structure FileCalls where
  write : Nat -> Ec
  close : Nat -> Ec

/-- How many of the calls have been made. -/
structure Ledger where
  writes : Nat := 0
  closes : Nat := 0
deriving DecidableEq, Repr

/-- How a view lies in buffers, none of them empty. -/
structure Layout where
  buffers : Str -> List Str
  flatten_buffers : forall view, (buffers view).flatten = view
  nonempty : forall view buffer, buffer ∈ buffers view -> buffer ≠ []

/-- What `write_part` writes in the state `file`: the rest of every buffer in
front of `part_end`, then what the buffer of `part_end` has up to it, if there
is one. -/
def writtenPieces : List Str -> Nat -> Nat -> List Str
  | [], _, _ => []
  | buffer :: rest, first, last =>
      if last < buffer.length then
        [slice buffer first last]
      else if first < buffer.length then
        buffer.drop first :: writtenPieces rest 0 (last - buffer.length)
      else
        writtenPieces rest (first - buffer.length) (last - buffer.length)

/-- The file that is written to is open. -/
def Collector.fileOpen (c : Collector) : Bool :=
  (c.files.head?.map fun file => file.isOpen).getD false

/-- The locals of `put` and the calls made so far; the error code is the one of
the cursor. -/
structure Tracked where
  cursor : Cursor
  ledger : Ledger
deriving DecidableEq, Repr

namespace Tracked

def callWrite (calls : FileCalls) (x : Tracked) : Tracked where
  cursor := { x.cursor with ec := calls.write x.ledger.writes }
  ledger := { x.ledger with writes := x.ledger.writes + 1 }

def callClose (calls : FileCalls) (x : Tracked) : Tracked where
  cursor := { x.cursor with ec := calls.close x.ledger.closes }
  ledger := { x.ledger with closes := x.ledger.closes + 1 }

def callWrites (calls : FileCalls) (pieces : List Str) (x : Tracked) : Tracked :=
  pieces.foldl (fun x _ => x.callWrite calls) x

/-- `write_part` -/
def writePart (calls : FileCalls) (buffers : List Str) (x : Tracked) :
    Except Fault Tracked :=
  (x.cursor.writePart buffers.flatten).map fun cursor =>
    let copied := { x with cursor := cursor }
    if x.cursor.collector.state = ReaderState.file ∧
        x.cursor.collector.fileOpen = true then
      copied.callWrites calls
        (writtenPieces buffers x.cursor.part x.cursor.msg)
    else
      copied

/-- The event ends the body of a file, which is closed. -/
def Closes (c : Collector) (event : MessageEvent) : Prop :=
  event = MessageEvent.endBody ∧ c.state = ReaderState.file

instance (c : Collector) (event : MessageEvent) : Decidable (Closes c event) :=
  inferInstanceAs (Decidable (_ ∧ _))

/-- `message_part_event` -/
def messagePartEvent (calls : FileCalls) (fs : FileSystem) (buffers : List Str)
    (x : Tracked) (event : MessageEvent) : Except Fault Tracked :=
  (if event.ends then x.writePart calls buffers else Except.ok x).map fun x =>
    let handled := x.cursor.collector.onEvent fs x.cursor.ec event
    let y : Tracked :=
      { x with
        cursor :=
          { x.cursor with
            collector := handled.1
            ec := handled.2
            part := if event.begins then x.cursor.msg + 1 else x.cursor.part } }
    if Closes x.cursor.collector event then y.callClose calls else y

/-- `on_parser_event`; the error of `handle_message_end` goes no further. -/
def onParserEvent (calls : FileCalls) (fs : FileSystem) (buffers : List Str)
    (x : Tracked) : StreamEvent -> Except Fault Tracked
  | StreamEvent.none => Except.ok x
  | StreamEvent.messageBegin =>
      let c := { x.cursor.collector with message := true }
      Except.ok { x with cursor := { x.cursor with collector := c } }
  | StreamEvent.messageEnd =>
      let step := x.cursor.collector.messageParser.handleMessageEnd
      let c := { x.cursor.collector with messageParser := step.parser }
      let x := { x with cursor := { x.cursor with collector := c } }
      (x.messagePartEvent calls fs buffers step.event).map fun x =>
        let c := { x.cursor.collector with message := false }
        { x with cursor := { x.cursor with collector := c } }

/-- `advance` -/
def advance (calls : FileCalls) (fs : FileSystem) (buffers : List Str) :
    Nat -> Tracked -> Except Fault Tracked
  | 0, x => Except.ok x
  | adv + 1, x =>
      let next (x : Tracked) : Tracked :=
        { x with cursor := { x.cursor with msg := x.cursor.msg + 1 } }
      match buffers.flatten[x.cursor.msg]? with
      | none => Except.error Fault.pastTheEnd
      | some b =>
          if x.cursor.collector.message then
            let step := x.cursor.collector.messageParser.handleMessageChar b
            let c := { x.cursor.collector with messageParser := step.parser }
            let ec := if step.failed then some 1 else x.cursor.ec
            let x := { x with cursor := { x.cursor with collector := c, ec := ec } }
            (x.messagePartEvent calls fs buffers step.event).bind fun x =>
              advance calls fs buffers adv (next x)
          else
            advance calls fs buffers adv (next x)

/-- One round of the loop of `put`. -/
def handleChar (calls : FileCalls) (fs : FileSystem) (buffers : List Str)
    (x : Tracked) (b : UInt8) : Except Fault Tracked :=
  let step := x.cursor.parser.handleChar b
  let x := { x with cursor := { x.cursor with parser := step.parser } }
  if step.failed then
    Except.ok { x with cursor := { x.cursor with ec := some 1 } }
  else
    match step.event with
    | StreamEvent.messageBegin =>
        (x.advance calls fs buffers step.advancement).bind fun x =>
          x.onParserEvent calls fs buffers step.event
    | _ =>
        (x.onParserEvent calls fs buffers step.event).bind fun x =>
          x.advance calls fs buffers step.advancement

/-- The loop of `put`. -/
def loop (calls : FileCalls) (fs : FileSystem) (buffers : List Str) :
    Str -> Nat -> Tracked -> Except Fault (Tracked × Nat)
  | [], nwritten, x => Except.ok (x, nwritten)
  | b :: rest, nwritten, x =>
      (x.handleChar calls fs buffers b).bind fun x =>
        if x.cursor.ec = none then
          loop calls fs buffers rest (nwritten + 1) x
        else
          Except.ok (x, nwritten)

end Tracked

namespace Reader

/-- `put`, with the ledger before and after it. -/
def putTracked (calls : FileCalls) (fs : FileSystem) (layout : Layout)
    (r : Reader) (ledger : Ledger) (chunk : Str) :
    Except Fault (Result × Ledger) :=
  let buffers := layout.buffers (r.scanner.pending ++ chunk)
  let start : Tracked :=
    { cursor := { parser := r.scanner.parser, collector := r.collector }
      ledger := ledger }
  (start.loop calls fs buffers chunk 0).bind fun (x, nwritten) =>
    if x.cursor.ec = none then
      (if x.cursor.collector.isWritable then x.writePart calls buffers
        else Except.ok x).map fun y =>
        -- whatever the last write has set
        let cursor := { y.cursor with ec := none }
        ({ reader :=
            { scanner :=
                { parser := cursor.parser
                  pending := nextPending buffers.flatten r.scanner.pending
                    nwritten cursor.msg }
              collector := cursor.collector }
           nwritten := nwritten
           ec := cursor.ec }, y.ledger)
    else
      Except.ok
        ({ reader :=
            { scanner := { r.scanner with parser := x.cursor.parser }
              collector := x.cursor.collector }
           nwritten := nwritten
           ec := x.cursor.ec }, x.ledger)

end Reader

/-!
## Where files are written to
-/

namespace Collector

/-- In the state `file` the header parser is behind the filename. -/
def InFile (c : Collector) : Prop :=
  c.state = ReaderState.file -> c.messageParser.state.pastFilename = true

def nextState (state : ReaderState) : MessageEvent -> ReaderState
  | MessageEvent.endName => ReaderState.content
  | MessageEvent.beginFilename => ReaderState.filename
  | MessageEvent.endFilename => ReaderState.file
  | MessageEvent.endBody => ReaderState.name
  | _ => state

theorem onEvent_state (fs : FileSystem) (c : Collector) (ec : Ec)
    (event : MessageEvent) :
    (c.onEvent fs ec event).1.state = nextState c.state event := by
  cases event with
  | beginBody =>
      rw [onEvent]
      dsimp only
      split <;> rfl
  | endBody =>
      rw [onEvent]
      dsimp only
      split <;> rfl
  | _ => rfl

end Collector

open Collector (InFile nextState)

namespace Cursor

variable {fs : FileSystem} {view : Str} {x y : Cursor} {event : MessageEvent}

/-- What an event does to the states of the reader and of the header parser,
and to the position. -/
theorem messagePartEvent_ok
    (h : x.messagePartEvent fs view event = Except.ok y) :
    y.collector.state = nextState x.collector.state event ∧
      y.collector.messageParser = x.collector.messageParser ∧
      y.msg = x.msg := by
  unfold messagePartEvent at h
  cases hends : event.ends with
  | false =>
      rw [hends] at h
      cases h
      exact ⟨Collector.onEvent_state fs _ _ event,
        Collector.onEvent_messageParser fs _ _ event, rfl⟩
  | true =>
      rw [hends, if_pos rfl] at h
      cases hwrite : x.writePart view with
      | error e =>
          rw [hwrite] at h
          cases h
      | ok z =>
          rw [hwrite] at h
          cases h
          rw [writePart_ok hwrite]
          refine ⟨?_, ?_, rfl⟩
          · rw [Collector.onEvent_state, Collector.write_state]
          · rw [Collector.onEvent_messageParser, Collector.write_messageParser]

/-- A byte of a header or of a body leaves the reader in order. -/
theorem inFile_of_char {c : Collector} {b : UInt8} (hfile : InFile c)
    (hstate : x.collector.state = c.state)
    (hparser : x.collector.messageParser =
      (c.messageParser.handleMessageChar b).parser)
    (h : x.messagePartEvent fs view (c.messageParser.handleMessageChar b).event =
      Except.ok y) : InFile y.collector := by
  rcases messagePartEvent_ok h with ⟨hstate', hparser', -⟩
  intro hin
  rw [hstate', hstate] at hin
  rw [hparser', hparser]
  cases hevent : (c.messageParser.handleMessageChar b).event with
  | endFilename => exact MessageParser.pastFilename_of_endFilename hevent
  | endName =>
      rw [hevent] at hin
      cases hin
  | beginFilename =>
      rw [hevent] at hin
      cases hin
  | endBody =>
      rw [hevent] at hin
      cases hin
  | none =>
      rw [hevent] at hin
      exact (MessageParser.handleMessageChar_pastFilename b (hfile hin)).left
  | beginName =>
      rw [hevent] at hin
      exact (MessageParser.handleMessageChar_pastFilename b (hfile hin)).left
  | beginBody =>
      rw [hevent] at hin
      exact (MessageParser.handleMessageChar_pastFilename b (hfile hin)).left

theorem inFile_advance (adv : Nat) : forall x y : Cursor, InFile x.collector ->
    x.advance fs view adv = Except.ok y -> InFile y.collector := by
  induction adv with
  | zero =>
      intro x y hfile h
      cases h
      exact hfile
  | succ adv ih =>
      intro x y hfile h
      rw [advance] at h
      split at h
      · cases h
      · rename_i b _
        split at h
        · dsimp only at h
          rcases exists_of_bind h with ⟨z, hz, h⟩
          have hnext : InFile z.collector := by
            refine inFile_of_char hfile ?_ ?_ hz
            · rfl
            · rfl
          exact ih { z with msg := z.msg + 1 } y hnext h
        · exact ih { x with msg := x.msg + 1 } y hfile h

/-- The end of a part leaves the reader in order, outside the parts. -/
theorem inFile_onParserEvent (hfile : InFile x.collector)
    (h : x.onParserEvent fs view StreamEvent.messageEnd = Except.ok y) :
    InFile y.collector ∧ y.collector.message = false := by
  rw [onParserEvent] at h
  dsimp only at h
  rcases exists_of_map h with ⟨z, hz, hy⟩
  rcases messagePartEvent_ok hz with ⟨hstate, hparser, -⟩
  rw [← hy]
  refine ⟨?_, rfl⟩
  intro hin
  dsimp only at hin hstate hparser ⊢
  rw [hstate] at hin
  rw [hparser]
  unfold MessageParser.handleMessageEnd at hin ⊢
  split
  · rename_i hbody
    rw [if_pos hbody] at hin
    cases hin
  · rename_i hbody
    rw [if_neg hbody] at hin
    exact hfile hin

/-- Outside the parts the error code is left alone. -/
theorem advance_setEc (adv : Nat) : forall (x : Cursor) (e : Ec),
    x.collector.message = false ->
      advance fs view adv { x with ec := e } =
        (x.advance fs view adv).map fun y => { y with ec := e } := by
  induction adv with
  | zero =>
      intro x e _
      rfl
  | succ adv ih =>
      intro x e hmessage
      rw [advance, advance]
      dsimp only
      cases view[x.msg]? with
      | none => rfl
      | some b =>
          dsimp only
          rw [hmessage]
          exact ih { x with msg := x.msg + 1 } e hmessage

end Cursor

namespace Tracked

variable {calls : FileCalls} {fs : FileSystem} {buffers : List Str}

/-- Calls of `write` change the error code and their number. -/
theorem callWrites_spec (calls : FileCalls) (pieces : List Str) :
    forall x : Tracked, exists e n, x.callWrites calls pieces =
      { cursor := { x.cursor with ec := e }
        ledger := { x.ledger with writes := n } } := by
  induction pieces with
  | nil =>
      intro x
      exact ⟨x.cursor.ec, x.ledger.writes, rfl⟩
  | cons piece rest ih =>
      intro x
      rcases ih (x.callWrite calls) with ⟨e, n, h⟩
      exact ⟨e, n, h⟩

/-- Outside a file nothing is called. -/
theorem writePart_eq {x : Tracked}
    (hstate : x.cursor.collector.state ≠ ReaderState.file) :
    x.writePart calls buffers =
      (x.cursor.writePart buffers.flatten).map fun y =>
        { x with cursor := y } := by
  unfold writePart
  simp only [hstate, false_and, if_false]

theorem messagePartEvent_eq {x : Tracked} {event : MessageEvent}
    (h : event.ends = true -> x.cursor.collector.state ≠ ReaderState.file) :
    x.messagePartEvent calls fs buffers event =
      (x.cursor.messagePartEvent fs buffers.flatten event).map fun y =>
        { x with cursor := y } := by
  unfold messagePartEvent Cursor.messagePartEvent
  cases hends : event.ends with
  | false =>
      have hopen : ¬ Closes x.cursor.collector event := by
        intro hcloses
        rw [hcloses.left] at hends
        cases hends
      rw [if_neg (by simp), if_neg (by simp)]
      dsimp only [Except.map]
      rw [if_neg hopen]
  | true =>
      rw [if_pos rfl, if_pos rfl, writePart_eq (h hends)]
      cases hwrite : x.cursor.writePart buffers.flatten with
      | error e => rfl
      | ok z =>
          have hopen : ¬ Closes z.collector event := by
            intro hcloses
            apply h hends
            rw [← hcloses.right, Cursor.writePart_ok hwrite]
            exact (Collector.write_state _ _).symm
          dsimp only [Except.map]
          rw [if_neg hopen]

variable (calls) in
/-- The end of a file: whatever the writes have set, `close` sets it anew. -/
theorem messagePartEvent_close {x : Tracked}
    (hstate : x.cursor.collector.state = ReaderState.file) {y : Cursor}
    (h : x.cursor.messagePartEvent fs buffers.flatten MessageEvent.endBody =
      Except.ok y) :
    y.ec = none ∧
      exists z, x.messagePartEvent calls fs buffers MessageEvent.endBody =
          Except.ok z ∧
        z.cursor = { y with ec := calls.close x.ledger.closes } ∧
        z.ledger.closes = x.ledger.closes + 1 := by
  have hends : MessageEvent.endBody.ends = true := rfl
  unfold Cursor.messagePartEvent at h
  rw [if_pos hends] at h
  rcases exists_of_map h with ⟨w, hwrite, hy⟩
  have hfile : w.collector.state = ReaderState.file := by
    rw [Cursor.writePart_ok hwrite]
    exact (Collector.write_state _ _).trans hstate
  have hcloses : Closes w.collector MessageEvent.endBody := ⟨rfl, hfile⟩
  have hend : forall ec, w.collector.onEvent fs ec MessageEvent.endBody =
      ((w.collector.onEvent fs none MessageEvent.endBody).1, none) := by
    intro ec
    unfold Collector.onEvent
    dsimp only
    rw [if_pos hfile, if_pos hfile]
  have hwritten : exists e n, x.writePart calls buffers = Except.ok
      { cursor := { w with ec := e }
        ledger := { x.ledger with writes := n } } := by
    unfold writePart
    rw [hwrite]
    dsimp only [Except.map]
    split
    · rcases callWrites_spec calls (writtenPieces buffers x.cursor.part
        x.cursor.msg) { x with cursor := w } with ⟨e, n, hcalls⟩
      exact ⟨e, n, congrArg Except.ok hcalls⟩
    · exact ⟨w.ec, x.ledger.writes, rfl⟩
  rcases hwritten with ⟨e, n, hwritten⟩
  rw [← hy, hend]
  refine ⟨rfl, ?_⟩
  unfold messagePartEvent
  rw [if_pos hends, hwritten]
  dsimp only [Except.map]
  rw [if_pos hcloses, hend]
  exact ⟨_, rfl, rfl, rfl⟩

variable (calls fs buffers) in
/-- `advance` calls nothing: a file ends with its part only. -/
theorem advance_eq (adv : Nat) : forall x : Tracked,
    InFile x.cursor.collector ->
      x.advance calls fs buffers adv =
        (x.cursor.advance fs buffers.flatten adv).map fun y =>
          { x with cursor := y } := by
  induction adv with
  | zero =>
      intro x _
      rfl
  | succ adv ih =>
      intro x hfile
      rw [advance, Cursor.advance]
      dsimp only
      cases buffers.flatten[x.cursor.msg]? with
      | none => rfl
      | some b =>
          dsimp only
          by_cases hmessage : x.cursor.collector.message = true
          · rw [if_pos hmessage, if_pos hmessage, messagePartEvent_eq]
            · cases hz : Cursor.messagePartEvent fs buffers.flatten _ _ with
              | error e => rfl
              | ok z =>
                  have hnext : InFile z.collector := by
                    refine Cursor.inFile_of_char hfile ?_ ?_ hz
                    · rfl
                    · rfl
                  exact ih ⟨{ z with msg := z.msg + 1 }, x.ledger⟩ hnext
            · intro hends hstate
              have hevent := (MessageParser.handleMessageChar_pastFilename b
                (hfile hstate)).right
              rcases hevent with hevent | hevent
              · rw [hevent] at hends
                cases hends
              · rw [hevent] at hends
                cases hends
          · rw [if_neg hmessage, if_neg hmessage]
            exact ih ⟨{ x.cursor with msg := x.cursor.msg + 1 }, x.ledger⟩ hfile

/-- Where a step of `put` gets to that takes the plain cursor to `y`: nothing
has been closed, or one file, whose error is set now. -/
def Follows (calls : FileCalls) (ledger : Ledger) (y : Cursor) (z : Tracked) :
    Prop :=
  (z.cursor = y ∧ z.ledger.closes = ledger.closes) ∨
    (y.ec = none ∧ z.cursor = { y with ec := calls.close ledger.closes } ∧
      z.ledger.closes = ledger.closes + 1)

theorem Follows.collector_eq {ledger : Ledger} {y : Cursor} {z : Tracked}
    (h : Follows calls ledger y z) : z.cursor.collector = y.collector := by
  rcases h with h | h
  · rw [h.left]
  · rw [h.right.left]

variable (calls) in
theorem exists_onParserEvent {x : Tracked} {y : Cursor}
    (h : x.cursor.onParserEvent fs buffers.flatten StreamEvent.messageEnd =
      Except.ok y) :
    exists z, x.onParserEvent calls fs buffers StreamEvent.messageEnd =
        Except.ok z ∧ Follows calls x.ledger y z := by
  let step := x.cursor.collector.messageParser.handleMessageEnd
  let x' : Tracked :=
    { x with
      cursor :=
        { x.cursor with
          collector :=
            { x.cursor.collector with messageParser := step.parser } } }
  rw [Cursor.onParserEvent] at h
  rcases exists_of_map h with ⟨w, hw, hy⟩
  change x'.cursor.messagePartEvent fs buffers.flatten step.event = _ at hw
  rw [onParserEvent, ← hy]
  change exists z, Except.map _
    (x'.messagePartEvent calls fs buffers step.event) = Except.ok z ∧ _
  by_cases hcloses : x.cursor.collector.messageParser.state = MessageState.body ∧
      x.cursor.collector.state = ReaderState.file
  · have hevent : step.event = MessageEvent.endBody := by
      show (MessageParser.handleMessageEnd _).event = _
      rw [MessageParser.handleMessageEnd, if_pos hcloses.left]
    have hstate : x'.cursor.collector.state = ReaderState.file := hcloses.right
    rw [hevent] at hw ⊢
    rcases messagePartEvent_close calls hstate hw with
      ⟨hec, z, hz, hcursor, hledger⟩
    rw [hz]
    refine ⟨_, rfl, Or.inr ⟨hec, ?_, hledger⟩⟩
    dsimp only
    rw [hcursor]
  · have hends : step.event.ends = true ->
        x'.cursor.collector.state ≠ ReaderState.file := by
      intro hends hstate
      change (MessageParser.handleMessageEnd _).event.ends = true at hends
      unfold MessageParser.handleMessageEnd at hends
      split at hends
      · rename_i hbody
        exact hcloses ⟨hbody, hstate⟩
      · cases hends
    rw [messagePartEvent_eq hends, hw]
    exact ⟨_, rfl, Or.inl ⟨rfl, rfl⟩⟩

/-- Behind the end of a part the error of a `close` stays. -/
theorem exists_advance_of_follows {ledger : Ledger} {w y : Cursor} {z : Tracked}
    (adv : Nat) (hfollows : Follows calls ledger w z)
    (hfile : InFile w.collector) (hmessage : w.collector.message = false)
    (h : w.advance fs buffers.flatten adv = Except.ok y) :
    exists z', z.advance calls fs buffers adv = Except.ok z' ∧
      Follows calls ledger y z' := by
  have hz : InFile z.cursor.collector := by
    rw [hfollows.collector_eq]
    exact hfile
  rw [advance_eq calls fs buffers adv z hz]
  rcases hfollows with ⟨hcursor, hcloses⟩ | ⟨hec, hcursor, hcloses⟩
  · rw [hcursor, h]
    exact ⟨_, rfl, Or.inl ⟨rfl, hcloses⟩⟩
  · have hkeep : y.ec = none := by
      have hset : Cursor.advance fs buffers.flatten adv { w with ec := none } = _ :=
        Cursor.advance_setEc adv w none hmessage
      have hsame : ({ w with ec := none } : Cursor) = w := by
        rw [← hec]
      rw [hsame, h] at hset
      exact congrArg Cursor.ec (Except.ok.inj hset)
    rw [hcursor, Cursor.advance_setEc adv w _ hmessage, h]
    exact ⟨_, rfl, Or.inr ⟨hkeep, rfl, hcloses⟩⟩

variable (calls) in
/-- A byte takes the tracked cursor where it takes the plain one, but for the
error of a `close`. -/
theorem exists_handleChar {x : Tracked} (hfile : InFile x.cursor.collector)
    {b : UInt8} {y : Cursor}
    (h : x.cursor.handleChar fs buffers.flatten b = Except.ok y) :
    exists z, x.handleChar calls fs buffers b = Except.ok z ∧
      Follows calls x.ledger y z ∧ InFile z.cursor.collector := by
  let step := x.cursor.parser.handleChar b
  let x' : Tracked :=
    { x with cursor := { x.cursor with parser := step.parser } }
  have hfile' : InFile x'.cursor.collector := hfile
  have hadvance := advance_eq calls fs buffers step.advancement x' hfile'
  unfold Cursor.handleChar at h
  unfold handleChar
  change (if step.failed = true then _ else _) = _ at h
  change exists z, (if step.failed = true then _ else _) = _ ∧ _
  by_cases hfailed : step.failed = true
  · rw [if_pos hfailed] at h ⊢
    cases h
    exact ⟨_, rfl, Or.inl ⟨rfl, rfl⟩, hfile⟩
  · rw [if_neg hfailed] at h ⊢
    dsimp only at h ⊢
    cases hevent : step.event with
    | none =>
        rw [hevent] at h
        have hy : x'.cursor.advance fs buffers.flatten step.advancement =
            Except.ok y := h
        refine ⟨{ x' with cursor := y }, ?_, Or.inl ⟨rfl, rfl⟩, ?_⟩
        · show x'.advance calls fs buffers step.advancement = _
          rw [hadvance, hy]
          rfl
        · exact Cursor.inFile_advance _ _ y hfile' hy
    | messageBegin =>
        rw [hevent] at h
        rcases exists_of_bind h with ⟨w, hw, hy⟩
        cases hy
        refine ⟨{ x' with
          cursor :=
            { w with collector := { w.collector with message := true } } },
          ?_, Or.inl ⟨rfl, rfl⟩, ?_⟩
        · show (x'.advance calls fs buffers step.advancement).bind _ = _
          rw [hadvance, hw]
          rfl
        · exact Cursor.inFile_advance _ _ w hfile' hw
    | messageEnd =>
        rw [hevent] at h
        rcases exists_of_bind h with ⟨w, hw, hy⟩
        have hend : x'.cursor.onParserEvent fs buffers.flatten
            StreamEvent.messageEnd = Except.ok w := hw
        rcases Cursor.inFile_onParserEvent hfile' hend with ⟨hin, hmessage⟩
        rcases exists_onParserEvent calls hend with ⟨z, hz, hfollows⟩
        rcases exists_advance_of_follows step.advancement hfollows hin hmessage
          hy with ⟨z', hz', hfollows'⟩
        refine ⟨z', ?_, hfollows', ?_⟩
        · show (x'.onParserEvent calls fs buffers StreamEvent.messageEnd).bind
            _ = _
          rw [hz]
          exact hz'
        · rw [hfollows'.collector_eq]
          exact Cursor.inFile_advance _ _ y hin hy

/-- A call of `close` that has been made between the two has failed. -/
def CloseFailed (calls : FileCalls) (before after : Ledger) : Prop :=
  exists n, before.closes <= n ∧ n < after.closes ∧ calls.close n ≠ none

/-- Calls that have not failed make no difference. -/
theorem closeFailed_iff {before between after : Ledger}
    (hle : before.closes <= between.closes)
    (hquiet : ¬ CloseFailed calls before between) :
    CloseFailed calls before after <-> CloseFailed calls between after := by
  constructor
  · intro h
    rcases h with ⟨i, hfirst, hlast, hfailed⟩
    by_cases hi : i < between.closes
    · exact absurd ⟨i, hfirst, hi, hfailed⟩ hquiet
    · exact ⟨i, Nat.not_lt.mp hi, hlast, hfailed⟩
  · intro h
    rcases h with ⟨i, hfirst, hlast, hfailed⟩
    exact ⟨i, hle.trans hfirst, hlast, hfailed⟩

/-- Where the loop ends: at the plain one's end, without a `close` that failed,
or with the error of one. -/
def Ends (calls : FileCalls) (ledger : Ledger) (y : Cursor) (m : Nat)
    (z : Tracked) (k : Nat) : Prop :=
  (z.cursor = y ∧ k = m ∧ ¬ CloseFailed calls ledger z.ledger) ∨
    (z.cursor.ec ≠ none ∧ CloseFailed calls ledger z.ledger)

/-- What a round of the loop has called, if the loop goes on. -/
theorem Follows.quiet_or_failed {ledger : Ledger} {w : Cursor} {z : Tracked}
    (h : Follows calls ledger w z) :
    ledger.closes <= z.ledger.closes ∧
      ((z.cursor = w ∧ ¬ CloseFailed calls ledger z.ledger) ∨
        (z.cursor.ec ≠ none ∧ CloseFailed calls ledger z.ledger)) := by
  rcases h with ⟨hcursor, hcloses⟩ | ⟨hec, hcursor, hcloses⟩
  · refine ⟨hcloses.ge, Or.inl ⟨hcursor, ?_⟩⟩
    intro hfailed
    rcases hfailed with ⟨i, hfirst, hlast, -⟩
    omega
  · refine ⟨by omega, ?_⟩
    by_cases hclose : calls.close ledger.closes = none
    · refine Or.inl ⟨?_, ?_⟩
      · rw [hcursor, hclose, ← hec]
      · intro hfailed
        rcases hfailed with ⟨i, hfirst, hlast, hne⟩
        have hi : i = ledger.closes := by
          omega
        rw [hi] at hne
        exact hne hclose
    · refine Or.inr ⟨?_, ledger.closes, le_rfl, by omega, hclose⟩
      rw [hcursor]
      exact hclose

variable (calls) in
/-- The loop stops where the plain one does, or earlier, with the error of a
`close`. -/
theorem exists_loop (rest : Str) : forall (n : Nat) (x : Tracked) (y : Cursor)
    (m : Nat), InFile x.cursor.collector ->
    x.cursor.loop fs buffers.flatten rest n = Except.ok (y, m) ->
    exists z k, x.loop calls fs buffers rest n = Except.ok (z, k) ∧
      InFile z.cursor.collector ∧ x.ledger.closes <= z.ledger.closes ∧
      Ends calls x.ledger y m z k := by
  induction rest with
  | nil =>
      intro n x y m hfile h
      cases h
      refine ⟨x, n, rfl, hfile, le_rfl, Or.inl ⟨rfl, rfl, ?_⟩⟩
      intro hfailed
      rcases hfailed with ⟨i, hfirst, hlast, -⟩
      exact absurd hlast (Nat.not_lt.mpr hfirst)
  | cons b rest ih =>
      intro n x y m hfile h
      rw [Cursor.loop] at h
      rcases exists_of_bind h with ⟨w, hw, hrest⟩
      rcases exists_handleChar calls hfile hw with ⟨z, hz, hfollows, hin⟩
      rw [loop, hz]
      dsimp only [Except.bind]
      rcases hfollows.quiet_or_failed with
        ⟨hle, ⟨hcursor, hquiet⟩ | ⟨herror, hfailed⟩⟩
      · rw [← hcursor] at hrest
        by_cases hok : z.cursor.ec = none
        · rw [if_pos hok] at hrest ⊢
          rcases ih (n + 1) z y m hin hrest with
            ⟨z', k, hloop, hin', hle', hends⟩
          refine ⟨z', k, hloop, hin', hle.trans hle', ?_⟩
          rw [Ends, closeFailed_iff hle hquiet]
          exact hends
        · rw [if_neg hok] at hrest ⊢
          cases hrest
          exact ⟨z, n, rfl, hin, hle, Or.inl ⟨rfl, rfl, hquiet⟩⟩
      · rw [if_neg herror]
        exact ⟨z, n, rfl, hin, hle, Or.inr ⟨herror, hfailed⟩⟩

/-- `write_part` copies what the plain one copies, whatever the calls set. -/
theorem exists_of_writePart {x z : Tracked}
    (h : x.writePart calls buffers = Except.ok z) :
    exists y e n, x.cursor.writePart buffers.flatten = Except.ok y ∧
      z = { cursor := { y with ec := e }
            ledger := { x.ledger with writes := n } } := by
  unfold writePart at h
  rcases exists_of_map h with ⟨y, hy, hz⟩
  dsimp only at hz
  split at hz
  · rcases callWrites_spec calls (writtenPieces buffers x.cursor.part
      x.cursor.msg) { x with cursor := y } with ⟨e, n, hcalls⟩
    exact ⟨y, e, n, hy, hz.symm.trans hcalls⟩
  · exact ⟨y, y.ec, x.ledger.writes, hy, hz.symm⟩

end Tracked

namespace Reader

open Tracked (CloseFailed)

variable {fs : FileSystem} {boundary : Str} {calls : FileCalls}

/-- A call of `put` does what the plain one does, or a `close` fails, and with
it the call. -/
theorem putTracked_cases {layout : Layout} {r : Reader} {ledger after : Ledger}
    {chunk : Str} {out : Result} (h : Placed boundary r)
    (hfile : InFile r.collector)
    (hput : r.putTracked calls fs layout ledger chunk =
      Except.ok (out, after)) :
    InFile out.reader.collector ∧
      ((r.put fs chunk = Except.ok out ∧ ¬ CloseFailed calls ledger after) ∨
        (out.ec ≠ none ∧ CloseFailed calls ledger after)) := by
  rcases Cursor.exists_loop fs chunk r.scanner.pending _ r 0 rfl
    (agrees_start h chunk) rfl h.sized with ⟨y, m, hloop, -, -, -⟩
  have hflatten := layout.flatten_buffers (r.scanner.pending ++ chunk)
  let start : Tracked :=
    { cursor := { parser := r.scanner.parser, collector := r.collector }
      ledger := ledger }
  have hplain : start.cursor.loop fs
      (layout.buffers (r.scanner.pending ++ chunk)).flatten chunk 0 =
        Except.ok (y, m) := by
    rw [hflatten]
    exact hloop
  rcases Tracked.exists_loop calls chunk 0 start y m hfile hplain with
    ⟨z, k, htracked, hin, -, hends⟩
  rw [putTracked] at hput
  change (start.loop calls fs _ chunk 0).bind _ = _ at hput
  rw [htracked] at hput
  dsimp only [Except.bind] at hput
  rw [put, hloop]
  dsimp only [Except.bind]
  rcases hends with ⟨hcursor, hk, hquiet⟩ | ⟨herror, hfailed⟩
  · rw [← hcursor, ← hk]
    by_cases hok : z.cursor.ec = none
    · rw [if_pos hok] at hput ⊢
      by_cases hwritable : z.cursor.collector.isWritable = true
      · rw [if_pos hwritable] at hput ⊢
        rcases exists_of_map hput with ⟨w, hwrite, hout⟩
        rcases Tracked.exists_of_writePart hwrite with ⟨v, e, n, hv, hw⟩
        rw [hflatten] at hv
        rw [hw, hflatten] at hout
        cases hout
        refine ⟨?_, Or.inl ⟨?_, hquiet⟩⟩
        · intro hstate
          rw [Cursor.writePart_ok hv] at hstate ⊢
          dsimp only at hstate ⊢
          rw [Collector.write_state] at hstate
          rw [Collector.write_messageParser]
          exact hin hstate
        · rw [hv]
          rfl
      · rw [if_neg hwritable] at hput ⊢
        rw [hflatten] at hput
        cases hput
        exact ⟨hin, Or.inl ⟨rfl, hquiet⟩⟩
    · rw [if_neg hok] at hput ⊢
      cases hput
      exact ⟨hin, Or.inl ⟨rfl, hquiet⟩⟩
  · rw [if_neg herror] at hput
    cases hput
    exact ⟨hin, Or.inr ⟨herror, hfailed⟩⟩

/-- The error that a call of `put` returns is one of the parsers, of `open` or
of `close`. -/
theorem putTracked_ec_iff {layout : Layout} {r : Reader} {ledger after : Ledger}
    {chunk : Str} {out : Result} (h : Placed boundary r)
    (hfile : InFile r.collector)
    (hput : r.putTracked calls fs layout ledger chunk =
      Except.ok (out, after)) :
    out.ec ≠ none <->
      (r.feedAll fs chunk).2 ≠ none ∨ CloseFailed calls ledger after := by
  rcases (putTracked_cases h hfile hput).right with
    ⟨hplain, hquiet⟩ | ⟨herror, hfailed⟩
  · have hec : out.ec = (r.feedAll fs chunk).2 := by
      cases hfeed : (r.feedAll fs chunk).2 with
      | some e =>
          rcases put_of_error h hfeed with ⟨out', hput', hec', -⟩
          rw [hplain] at hput'
          cases hput'
          exact hec'
      | none =>
          by_cases hcut : (r.feedAll fs chunk).1.CutsName
          · rw [put_of_cutsName h hfeed hcut] at hplain
            cases hplain
          · rcases put_of_ok h hfeed hcut with ⟨out', hput', hec', -⟩
            rw [hplain] at hput'
            cases hput'
            exact hec'
    rw [hec]
    constructor
    · intro hne
      exact Or.inl hne
    · intro hor
      exact hor.resolve_right hquiet
  · exact ⟨fun _ => Or.inr hfailed, fun _ => herror⟩

/-!
## Whole requests
-/

/-- A call of `write` that has been made between the two has failed. -/
def WriteFailed (calls : FileCalls) (before after : Ledger) : Prop :=
  exists n, before.writes <= n ∧ n < after.writes ∧ calls.write n ≠ none

/-- Every call of `put` in which a `write` fails returns an error. -/
def WritesReported (calls : FileCalls) (fs : FileSystem) (layout : Layout) :
    Reader -> Ledger -> List Str -> Prop
  | _, _, [] => True
  | r, ledger, chunk :: rest =>
      forall out after,
        r.putTracked calls fs layout ledger chunk = Except.ok (out, after) ->
        (WriteFailed calls ledger after -> out.ec ≠ none) ∧
          (out.ec = none ->
            WritesReported calls fs layout out.reader after rest)

/-- No `write` fails, but in a call of `put` in which a `close` fails or whose
bytes bring an error of the parsers or of `open`. -/
def WritesSucceed (calls : FileCalls) (fs : FileSystem) (layout : Layout) :
    Reader -> Ledger -> List Str -> Prop
  | _, _, [] => True
  | r, ledger, chunk :: rest =>
      forall out after,
        r.putTracked calls fs layout ledger chunk = Except.ok (out, after) ->
        (¬ WriteFailed calls ledger after ∨ CloseFailed calls ledger after ∨
            (r.feedAll fs chunk).2 ≠ none) ∧
          (out.ec = none ->
            WritesSucceed calls fs layout out.reader after rest)

theorem writesReported_of_placed (calls : FileCalls) (fs : FileSystem)
    (layout : Layout) (cutting : List Str) :
    forall (r : Reader) (ledger : Ledger), Placed boundary r ->
      InFile r.collector ->
      (r.WritesReported calls fs layout ledger cutting <->
        r.WritesSucceed calls fs layout ledger cutting) := by
  induction cutting with
  | nil =>
      intro r ledger _ _
      exact Iff.rfl
  | cons chunk rest ih =>
      intro r ledger h hfile
      rw [WritesReported, WritesSucceed]
      apply forall_congr'
      intro out
      apply forall_congr'
      intro after
      apply imp_congr_right
      intro hput
      have hec := putTracked_ec_iff h hfile hput
      rcases putTracked_cases h hfile hput with ⟨hin, hcases⟩
      have hrest : out.ec = none ->
          (out.reader.WritesReported calls fs layout after rest <->
            out.reader.WritesSucceed calls fs layout after rest) := by
        intro hok
        rcases hcases with ⟨hplain, _⟩ | ⟨herror, _⟩
        · exact ih out.reader after (placed_put h hplain hok) hin
        · exact absurd hok herror
      apply and_congr
      · rw [hec, or_comm (a := CloseFailed calls ledger after)]
        exact imp_iff_not_or
      · exact imp_congr_right hrest

/-- The error of a `write` never leaves `put`: it is reported only by chance,
together with another. -/
theorem writesReported_iff (calls : FileCalls) (fs : FileSystem)
    (layout : Layout) (boundary : Str) (target : FormTarget)
    (cutting : List Str) :
    (initial boundary target).WritesReported calls fs layout {} cutting <->
      (initial boundary target).WritesSucceed calls fs layout {} cutting :=
  writesReported_of_placed calls fs layout cutting _ {}
    (ready_initial boundary target).placed (fun h => nomatch h)

/-- All of a view in one buffer. -/
def oneBuffer : Layout where
  buffers view := if view = [] then [] else [view]
  flatten_buffers view := by
    split
    · rename_i h
      rw [h]
      rfl
    · simp
  nonempty view buffer h := by
    split at h
    · cases h
    · rename_i hne
      rw [List.mem_singleton.mp h]
      exact hne

/-- A disk that is full. -/
def fullDisk : FileCalls where
  write _ := some 28
  close _ := none

def fileBody : Str :=
  str "--B\r\nContent-Disposition: form-data; name=\"a\"; filename=\"f\"" ++
    str "\r\nContent-Type: t\r\n\r\nx\r\n--B--"

theorem writesReported_not_everywhere :
    ¬ forall (calls : FileCalls) (fs : FileSystem) (layout : Layout)
        (boundary : Str) (target : FormTarget) (cutting : List Str),
        (initial boundary target).WritesReported calls fs layout {} cutting := by
  intro h
  have hreported := h fullDisk emptyDisk oneBuffer (str "B") sampleTarget
    [fileBody]
  have hput : ((initial (str "B") sampleTarget).putTracked fullDisk emptyDisk
      oneBuffer {} fileBody).map (fun result => (result.1.ec, result.2.writes)) =
        Except.ok (none, 1) := by
    decide +kernel
  rcases exists_of_map hput with ⟨⟨out, after⟩, hput, hresult⟩
  have hec : out.ec = none := congrArg Prod.fst hresult
  have hwrites : after.writes = 1 := congrArg Prod.snd hresult
  have hfailed : WriteFailed fullDisk {} after :=
    ⟨0, le_rfl, by rw [hwrites]; exact Nat.one_pos, by decide⟩
  exact (hreported out after hput).left hfailed hec

end Reader

end Multipart
end CisWebui
