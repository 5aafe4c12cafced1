import CisWebui.Multipart.PartText
import CisWebui.Multipart.Reader

/-!
# Reading byte by byte

The reader without positions: every byte the scanner lets go is handled and
copied at once, and the bytes held back are exactly those not let go.

`put` does the same with positions and late copies.  It agrees with the bytewise
reader on what it collects, on its errors and on the bytes it takes; three
things can make it differ, and each has its own condition: a piece that ends
inside a name with nothing held back, a piece shorter than what is held back at
its end, and an error while a value is being copied.
-/

namespace CisWebui
namespace Multipart

open Cpp
open Http (FormTarget)

namespace Collector

/-- A byte outside all values, or inside one. -/
def collect (c : Collector) (b : UInt8) : Collector :=
  if c.isWritable then c.write [b] else c

def passOn (fs : FileSystem) (x : Collector × Ec) (mark : Mark) :
    Collector × Ec :=
  match mark.event with
  | MessageEvent.none => (x.1.collect mark.byte, x.2)
  | event => x.1.onEvent fs x.2 event

def take (fs : FileSystem) (x : Collector × Ec) : Token -> Collector × Ec
  | Token.byte b =>
      if x.1.message then
        let step := x.1.messageParser.handleMessageChar b
        passOn fs ({ x.1 with messageParser := step.parser },
          if step.failed then some 1 else x.2) ⟨b, step.event⟩
      else
        (x.1.collect b, x.2)
  | Token.messageBegin => ({ x.1 with message := true }, x.2)
  | Token.messageEnd =>
      let step := x.1.messageParser.handleMessageEnd
      let handled :=
        onEvent fs { x.1 with messageParser := step.parser } x.2 step.event
      ({ handled.1 with message := false }, handled.2)

def takeAll (fs : FileSystem) (x : Collector × Ec) (tokens : List Token) :
    Collector × Ec :=
  tokens.foldl (take fs) x

theorem takeAll_append (fs : FileSystem) (x : Collector × Ec)
    (a b : List Token) :
    takeAll fs x (a ++ b) = takeAll fs (takeAll fs x a) b :=
  List.foldl_append

end Collector

namespace Reader

/-- One byte; the error is looked at after all tokens of the byte. -/
def feed (fs : FileSystem) (r : Reader) (c : UInt8) : Reader × Ec :=
  let step := r.scanner.parser.handleChar c
  let held := r.scanner.pending ++ [c]
  if step.failed then
    ({ r with scanner := { r.scanner with parser := step.parser } }, some 1)
  else
    let taken := Collector.takeAll fs (r.collector, none) (step.tokens held)
    ({ scanner :=
        { parser := step.parser, pending := held.drop step.advancement }
       collector := taken.1 }, taken.2)

def feedAll (fs : FileSystem) : Reader -> Str -> Reader × Ec
  | r, [] => (r, none)
  | r, c :: rest =>
      let next := r.feed fs c
      if next.2 = none then feedAll fs next.1 rest else next

end Reader

/-!
## Copying
-/

namespace Collector

theorem modifyHead_id {α : Type} {f : α -> α} (h : forall a, f a = a)
    (l : List α) : l.modifyHead f = l := by
  cases l with
  | nil => rfl
  | cons a l => simp [h a]

theorem write_nil_file (file : FormFile) : file.write [] = file := by
  rcases file with ⟨name, path, room, isOpen, written⟩
  cases isOpen with
  | false => rfl
  | true => cases room <;> simp [FormFile.write, FormFile.taken]

/-- What a file takes does not depend on how the text is cut. -/
theorem write_write_file (file : FormFile) (a b : Str) :
    (file.write a).write b = file.write (a ++ b) := by
  unfold FormFile.write FormFile.taken
  cases hopen : file.isOpen with
  | false => simp [hopen]
  | true =>
      cases hroom : file.room with
      | none => simp
      | some room =>
          have hrest : room - (file.written.length +
              min (room - file.written.length) a.length) =
              room - file.written.length - a.length := by
            omega
          simp [List.take_append, hrest]

theorem write_nil (c : Collector) : c.write [] = c := by
  rcases c with ⟨target, parser, message, isWritable, state, name, values, files⟩
  cases state with
  | name => simp [write]
  | content => simp [write, modifyHead_id]
  | filename => simp [write, modifyHead_id]
  | file => simp [write, modifyHead_id write_nil_file]

theorem write_write (c : Collector) (a b : Str) :
    (c.write a).write b = c.write (a ++ b) := by
  unfold write
  cases c.state with
  | name => simp
  | content => simp [Function.comp_def]
  | filename => simp [Function.comp_def]
  | file => simp [Function.comp_def, write_write_file]

@[simp] theorem write_isWritable (c : Collector) (text : Str) :
    (c.write text).isWritable = c.isWritable := by
  unfold write
  cases c.state <;> rfl

@[simp] theorem write_message (c : Collector) (text : Str) :
    (c.write text).message = c.message := by
  unfold write
  cases c.state <;> rfl

@[simp] theorem write_messageParser (c : Collector) (text : Str) :
    (c.write text).messageParser = c.messageParser := by
  unfold write
  cases c.state <;> rfl

@[simp] theorem write_state (c : Collector) (text : Str) :
    (c.write text).state = c.state := by
  unfold write
  cases c.state <;> simp

theorem write_setParser (c : Collector) (p : MessageParser) (text : Str) :
    ({ c with messageParser := p } : Collector).write text =
      { c.write text with messageParser := p } := by
  unfold write
  cases c.state <;> rfl

end Collector

/-!
## When a value is being copied
-/

namespace MessageState

/-- The states whose bytes belong to a value. -/
def collects : MessageState -> Bool
  | MessageState.name => true
  | MessageState.filenameBody => true
  | MessageState.body => true
  | _ => false

end MessageState

/-- An event and the change of state it comes with. -/
def Fits (before after : Bool) (event : MessageEvent) : Prop :=
  (event.begins = true -> before = false ∧ after = true) ∧
    (event.ends = true -> before = true ∧ after = false) ∧
    (event = MessageEvent.none -> after = before)

instance (before after : Bool) (event : MessageEvent) :
    Decidable (Fits before after event) :=
  inferInstanceAs (Decidable (_ ∧ _ ∧ _))

theorem fits_expect {p : MessageParser} {c : UInt8} {next : MessageState}
    {event : MessageEvent} (hp : p.state.collects = false)
    (h : Fits false next.collects event) :
    Fits p.state.collects (p.expect c next event).parser.state.collects
      (p.expect c next event).event := by
  unfold MessageParser.expect
  split
  · split
    · rw [hp]
      exact h
    · simp [Fits, MessageEvent.begins, MessageEvent.ends, MessageParser.trNext]
  · simp [Fits, MessageEvent.begins, MessageEvent.ends]

theorem fits_handleMessageChar (p : MessageParser) (c : UInt8) :
    Fits p.state.collects (p.handleMessageChar c).parser.state.collects
      (p.handleMessageChar c).event := by
  have hname : Fits false MessageState.name.collects MessageEvent.beginName := by
    decide
  have hfilename : Fits false MessageState.filenameBody.collects
      MessageEvent.beginFilename := by
    decide
  have htype : Fits false MessageState.contentTypeBody.collects
      MessageEvent.none := by
    decide
  have hbody : Fits false MessageState.body.collects MessageEvent.beginBody := by
    decide
  have hkeep : forall b, Fits b b MessageEvent.none := by
    decide
  have hend : Fits true false MessageEvent.endName ∧
      Fits true false MessageEvent.endFilename := by
    decide
  rcases p with ⟨state, transition⟩
  unfold MessageParser.handleMessageChar
  cases state with
  | start =>
      exact fits_expect (p := MessageParser.goReset ⟨_, transition⟩
        MessageState.contentDisposition) rfl hname
  | contentDisposition => exact fits_expect rfl hname
  | name =>
      dsimp only
      split
      · exact hend.left
      · exact hkeep true
  | maybeFilename =>
      dsimp only
      split
      · exact hkeep false
      · split
        · exact hkeep false
        · exact hkeep false
  | filename => exact fits_expect rfl hfilename
  | filenameBody =>
      dsimp only
      split
      · exact hend.right
      · exact hkeep true
  | contentType => exact fits_expect rfl htype
  | contentTypeBody =>
      dsimp only
      split
      · exact hkeep false
      · exact hkeep false
  | preBody => exact fits_expect rfl hbody
  | body => exact hkeep true

theorem fits_handleMessageEnd (p : MessageParser) :
    Fits p.state.collects p.handleMessageEnd.parser.state.collects
      p.handleMessageEnd.event := by
  unfold MessageParser.handleMessageEnd
  split
  · rename_i h
    simp [Fits, MessageEvent.begins, MessageEvent.ends, h,
      MessageState.collects]
  · simp [Fits, MessageEvent.begins, MessageEvent.ends]

namespace Collector

/-- Values are copied while the message parser is inside one. -/
def Collecting (c : Collector) : Prop :=
  c.isWritable = c.messageParser.state.collects

theorem openFile_isWritable (fs : FileSystem) (c : Collector) (ec : Ec) :
    (openFile fs c ec).1.isWritable = c.isWritable := by
  unfold openFile
  dsimp only
  split
  · split <;> rfl
  · rfl

theorem openFile_message (fs : FileSystem) (c : Collector) (ec : Ec) :
    (openFile fs c ec).1.message = c.message := by
  unfold openFile
  dsimp only
  split
  · split <;> rfl
  · rfl

theorem openFile_messageParser (fs : FileSystem) (c : Collector) (ec : Ec) :
    (openFile fs c ec).1.messageParser = c.messageParser := by
  unfold openFile
  dsimp only
  split
  · split <;> rfl
  · rfl

theorem onEvent_isWritable (fs : FileSystem) {c : Collector} (ec : Ec)
    {after : Bool} {event : MessageEvent} (h : Fits c.isWritable after event) :
    (c.onEvent fs ec event).1.isWritable = after := by
  cases event with
  | none => exact (h.right.right rfl).symm
  | beginName => exact (h.left rfl).right.symm
  | endName => exact (h.right.left rfl).right.symm
  | beginFilename => exact (h.left rfl).right.symm
  | endFilename =>
      rw [(h.right.left rfl).right]
      exact openFile_isWritable fs _ ec
  | beginBody => exact (h.left rfl).right.symm
  | endBody =>
      rw [(h.right.left rfl).right, onEvent]
      dsimp only
      split <;> rfl

@[simp] theorem onEvent_messageParser (fs : FileSystem) (c : Collector) (ec : Ec)
    (event : MessageEvent) :
    (c.onEvent fs ec event).1.messageParser = c.messageParser := by
  cases event with
  | endFilename => exact openFile_messageParser fs _ ec
  | beginBody =>
      rw [onEvent]
      dsimp only
      split <;> rfl
  | endBody =>
      rw [onEvent]
      dsimp only
      split <;> rfl
  | _ => rfl

@[simp] theorem onEvent_message (fs : FileSystem) (c : Collector) (ec : Ec)
    (event : MessageEvent) :
    (c.onEvent fs ec event).1.message = c.message := by
  cases event with
  | endFilename => exact openFile_message fs _ ec
  | beginBody =>
      rw [onEvent]
      dsimp only
      split <;> rfl
  | endBody =>
      rw [onEvent]
      dsimp only
      split <;> rfl
  | _ => rfl

theorem passOn_of_ne {fs : FileSystem} {x : Collector × Ec} {mark : Mark}
    (h : ¬ mark.event = MessageEvent.none) :
    passOn fs x mark = x.1.onEvent fs x.2 mark.event := by
  rcases mark with ⟨b, event⟩
  cases event with
  | none => exact absurd rfl h
  | _ => rfl

end Collector

/-!
## Positions
-/

theorem slice_self (view : Str) (n : Nat) : slice view n n = [] := by
  simp [slice]

theorem slice_succ {view : Str} {first last : Nat} {b : UInt8}
    (hle : first <= last) (hb : view[last]? = some b) :
    slice view first (last + 1) = slice view first last ++ [b] := by
  have hsub : last + 1 - first = last - first + 1 := by omega
  have hget : (view.drop first)[last - first]? = some b := by
    rw [List.getElem?_drop, Nat.add_sub_cancel' hle, hb]
  rw [slice, slice, hsub, List.take_add_one, hget]
  rfl

namespace Cursor

/-- What the collector becomes when the open value is copied up to `msg`. -/
def settled (view : Str) (x : Cursor) : Collector :=
  if x.collector.isWritable then
    x.collector.write (slice view x.part x.msg)
  else
    x.collector

/-- The cursor stands for the collector of the bytewise reader. -/
structure Stands (view : Str) (x : Cursor) (c : Collector) : Prop where
  settled_eq : x.settled view = c
  part_le : x.collector.isWritable = true -> x.part <= x.msg
  collecting : x.collector.Collecting

variable (fs : FileSystem) {view : Str} {x : Cursor} {c : Collector}

theorem Stands.message_eq (h : Stands view x c) :
    c.message = x.collector.message := by
  rw [← h.settled_eq, settled]
  split <;> simp

theorem Stands.messageParser_eq (h : Stands view x c) :
    c.messageParser = x.collector.messageParser := by
  rw [← h.settled_eq, settled]
  split <;> simp

theorem Stands.isWritable_eq (h : Stands view x c) :
    c.isWritable = x.collector.isWritable := by
  rw [← h.settled_eq, settled]
  split <;> simp

theorem Stands.state_eq (h : Stands view x c) :
    c.state = x.collector.state := by
  rw [← h.settled_eq, settled]
  split <;> simp

/-- A byte that ends nothing and begins nothing is copied later or never. -/
theorem stands_skip (h : Stands view x c) {b : UInt8}
    (hb : view[x.msg]? = some b) :
    Stands view { x with msg := x.msg + 1 } (c.collect b) := by
  have hwritable := h.isWritable_eq
  rcases h with ⟨rfl, hpart, hcollecting⟩
  refine ⟨?_, fun hw => Nat.le_succ_of_le (hpart hw), hcollecting⟩
  rw [Collector.collect, hwritable, settled, settled]
  dsimp only
  split
  · rename_i hw
    rw [slice_succ (hpart hw) hb, Collector.write_write]
  · rfl

/-- The message parser moves on without a word about the position. -/
theorem stands_setParser (h : Stands view x c) {p : MessageParser}
    (hp : p.state.collects = x.collector.messageParser.state.collects) (e : Ec) :
    Stands view
      { x with collector := { x.collector with messageParser := p }, ec := e }
      { c with messageParser := p } := by
  rcases h with ⟨rfl, hpart, hcollecting⟩
  refine ⟨?_, hpart, ?_⟩
  · rw [settled, settled]
    dsimp only
    split
    · rw [Collector.write_setParser]
    · rfl
  · rw [Collector.Collecting] at hcollecting ⊢
    exact hcollecting.trans hp.symm

theorem begins_or_ends {event : MessageEvent}
    (h : ¬ event = MessageEvent.none) :
    event.begins = true ∧ event.ends = false ∨
      event.begins = false ∧ event.ends = true := by
  cases event with
  | none => exact absurd rfl h
  | _ => decide

theorem messagePartEvent_of_begins {event : MessageEvent}
    (hbegins : event.begins = true) (hends : event.ends = false) :
    messagePartEvent fs view x event = Except.ok
      { x with
        collector := (x.collector.onEvent fs x.ec event).1
        ec := (x.collector.onEvent fs x.ec event).2
        part := x.msg + 1 } := by
  rw [messagePartEvent, hends, hbegins]
  rfl

theorem messagePartEvent_of_ends {event : MessageEvent}
    (hbegins : event.begins = false) (hends : event.ends = true)
    (hmsg : x.msg < view.length) :
    messagePartEvent fs view x event = Except.ok
      { x with
        collector := ((x.collector.write
          (slice view x.part x.msg)).onEvent fs x.ec event).1
        ec := ((x.collector.write
          (slice view x.part x.msg)).onEvent fs x.ec event).2
        part := x.msg } := by
  have hin : ¬ (x.collector.state = ReaderState.name ∧
      view.length <= x.msg) := by
    intro hpast
    omega
  rw [messagePartEvent, hends, if_pos rfl, writePart, if_neg hin, hbegins]
  rfl

/-- An event is handled alike, wherever the cursor goes after it; a beginning
has to be followed by the next byte. -/
theorem exists_messagePartEvent (h : Stands view x c)
    (hmsg : x.msg < view.length) {p : MessageParser} {event : MessageEvent}
    (hevent : ¬ event = MessageEvent.none)
    (hfits : Fits x.collector.messageParser.state.collects p.state.collects
      event) (e : Ec) :
    exists y, messagePartEvent fs view
        { x with collector := { x.collector with messageParser := p }, ec := e }
        event = Except.ok y ∧
      y.msg = x.msg ∧ y.parser = x.parser ∧
      y.ec = (Collector.onEvent fs { c with messageParser := p } e event).2 ∧
      forall m, (event.begins = true -> m = x.msg + 1) ->
        Stands view { y with msg := m }
          (Collector.onEvent fs { c with messageParser := p } e event).1 := by
  have hcollecting := h.collecting
  rw [Collector.Collecting] at hcollecting
  rw [← hcollecting] at hfits
  rcases h with ⟨rfl, hpart, -⟩
  rcases begins_or_ends hevent with ⟨hbegins, hends⟩ | ⟨hbegins, hends⟩
  · rcases hfits.left hbegins with ⟨hbefore, hafter⟩
    have hsettled : x.settled view = x.collector := by
      rw [settled, hbefore]
      rfl
    have hwritable : (Collector.onEvent fs
        { x.collector with messageParser := p } e event).1.isWritable = true := by
      rw [← hafter]
      exact Collector.onEvent_isWritable fs e hfits
    rw [hsettled, messagePartEvent_of_begins fs hbegins hends]
    refine ⟨_, rfl, rfl, rfl, rfl, ?_⟩
    intro m hm
    rw [hm hbegins]
    refine ⟨?_, fun _ => le_rfl, ?_⟩
    · rw [settled]
      dsimp only
      rw [hwritable, if_pos rfl, slice_self, Collector.write_nil]
    · rw [Collector.Collecting]
      dsimp only
      rw [hwritable, Collector.onEvent_messageParser]
      exact hafter.symm
  · rcases hfits.right.left hends with ⟨hbefore, hafter⟩
    have hsettled : x.settled view =
        x.collector.write (slice view x.part x.msg) := by
      rw [settled, hbefore]
      rfl
    have hfits' : Fits (({ x.collector with messageParser := p } :
        Collector).write (slice view x.part x.msg)).isWritable
        p.state.collects event := by
      rw [Collector.write_isWritable]
      exact hfits
    have hwritable := Collector.onEvent_isWritable fs e hfits'
    rw [hafter] at hwritable
    rw [hsettled, ← Collector.write_setParser,
      messagePartEvent_of_ends fs hbegins hends (by exact hmsg)]
    refine ⟨_, rfl, rfl, rfl, rfl, ?_⟩
    intro m _
    refine ⟨?_, ?_, ?_⟩
    · rw [settled]
      dsimp only
      rw [hwritable]
      rfl
    · intro hw
      dsimp only at hw
      rw [hwritable] at hw
      cases hw
    · rw [Collector.Collecting]
      dsimp only
      rw [hwritable, Collector.onEvent_messageParser,
        Collector.write_messageParser]
      exact hafter.symm

/-- One byte of `advance`. -/
theorem exists_advance_byte (h : Stands view x c) {b : UInt8}
    (hb : view[x.msg]? = some b) (adv : Nat) :
    exists y, x.advance fs view (adv + 1) = y.advance fs view adv ∧
      y.msg = x.msg + 1 ∧ y.parser = x.parser ∧
      y.ec = (Collector.take fs (c, x.ec) (Token.byte b)).2 ∧
      Stands view y (Collector.take fs (c, x.ec) (Token.byte b)).1 := by
  rcases List.getElem?_eq_some_iff.mp hb with ⟨hmsg, -⟩
  rw [advance, hb, Collector.take]
  dsimp only
  rw [h.messageParser_eq]
  by_cases hmessage : x.collector.message = true
  · rw [if_pos hmessage, if_pos (h.message_eq.trans hmessage)]
    generalize hstep : x.collector.messageParser.handleMessageChar b = step
    have hfits := fits_handleMessageChar x.collector.messageParser b
    rw [hstep] at hfits
    generalize (if step.failed = true then some 1 else x.ec) = e
    by_cases hevent : step.event = MessageEvent.none
    · have hparser := stands_setParser h (hfits.right.right hevent) e
      rw [hevent]
      exact ⟨_, rfl, rfl, rfl, rfl, stands_skip hparser hb⟩
    · rcases exists_messagePartEvent fs h hmsg hevent hfits e with
        ⟨y, hy, hmsg', hparser, hec, hstands⟩
      rw [Collector.passOn_of_ne hevent, hy]
      refine ⟨{ y with msg := y.msg + 1 }, rfl, ?_, hparser, hec, ?_⟩
      · rw [← hmsg']
      · rw [hmsg']
        exact hstands (x.msg + 1) fun _ => rfl
  · have hother : ¬ c.message = true := by
      rw [h.message_eq]
      exact hmessage
    rw [if_neg hmessage, if_neg hother]
    exact ⟨{ x with msg := x.msg + 1 }, rfl, rfl, rfl, rfl, stands_skip h hb⟩

/-- `advance` hands over the bytes from `msg` on, as tokens. -/
theorem exists_advance (adv : Nat) : forall (x : Cursor) (c : Collector),
    Stands view x c -> x.msg + adv <= view.length ->
    exists y, x.advance fs view adv = Except.ok y ∧ y.msg = x.msg + adv ∧
      y.parser = x.parser ∧
      y.ec = (Collector.takeAll fs (c, x.ec)
        (bytes ((view.drop x.msg).take adv))).2 ∧
      Stands view y (Collector.takeAll fs (c, x.ec)
        (bytes ((view.drop x.msg).take adv))).1 := by
  induction adv with
  | zero =>
      intro x c h _
      exact ⟨x, rfl, rfl, rfl, by rw [List.take_zero]; rfl,
        by rw [List.take_zero]; exact h⟩
  | succ adv ih =>
      intro x c h hlen
      have hmsg : x.msg < view.length := by omega
      have hb : view[x.msg]? = some view[x.msg] := List.getElem?_eq_getElem hmsg
      rcases exists_advance_byte fs h hb adv with
        ⟨y, hadvance, hy, hparser, hec, hstands⟩
      rcases ih y _ hstands (by omega) with ⟨z, hz, hmsg', hparser', hec', hlast⟩
      have htake : (view.drop x.msg).take (adv + 1) =
          view[x.msg] :: (view.drop y.msg).take adv := by
        rw [List.drop_eq_getElem_cons hmsg, List.take_succ_cons, hy]
      refine ⟨z, hadvance.trans hz, by omega, hparser'.trans hparser, ?_, ?_⟩
      · rw [htake, hec', hec]
        rfl
      · rw [htake]
        rw [hec] at hlast
        exact hlast

theorem stands_setMessage (h : Stands view x c) (message : Bool) :
    Stands view
      { x with collector := { x.collector with message := message } }
      { c with message := message } := by
  rcases h with ⟨rfl, hpart, hcollecting⟩
  refine ⟨?_, hpart, hcollecting⟩
  rw [settled, settled]
  dsimp only
  split
  · unfold Collector.write
    cases x.collector.state <;> rfl
  · rfl

theorem exists_messageEnd (h : Stands view x c) (hmsg : x.msg < view.length) :
    exists y, x.onParserEvent fs view StreamEvent.messageEnd = Except.ok y ∧
      y.msg = x.msg ∧ y.parser = x.parser ∧
      y.ec = (Collector.take fs (c, x.ec) Token.messageEnd).2 ∧
      Stands view y (Collector.take fs (c, x.ec) Token.messageEnd).1 := by
  rw [onParserEvent, Collector.take]
  dsimp only
  rw [h.messageParser_eq]
  generalize hstep : x.collector.messageParser.handleMessageEnd = step
  have hfits := fits_handleMessageEnd x.collector.messageParser
  rw [hstep] at hfits
  by_cases hevent : step.event = MessageEvent.none
  · have hparser := stands_setParser h (hfits.right.right hevent) x.ec
    rw [hevent]
    exact ⟨_, rfl, rfl, rfl, rfl, stands_setMessage hparser false⟩
  · rcases exists_messagePartEvent fs h hmsg hevent hfits x.ec with
      ⟨y, hy, hmsg', hparser, hec, hstands⟩
    rw [hy]
    refine ⟨_, rfl, hmsg', hparser, hec, ?_⟩
    have hend : ¬ step.event.begins = true := by
      intro hbegins
      rw [← hstep, MessageParser.handleMessageEnd] at hbegins
      split at hbegins <;> cases hbegins
    exact stands_setMessage
      (hstands y.msg fun hbegins => absurd hbegins hend) false

/-- The cursor has read `read` and stands where the bytewise reader does. -/
structure Agrees (view read : Str) (x : Cursor) (r : Reader) : Prop where
  parser_eq : x.parser = r.scanner.parser
  pending_eq : r.scanner.pending = read.drop x.msg
  msg_le : x.msg <= read.length
  stands : Stands view x r.collector

theorem exists_handleChar {boundary read rest : Str} {ch : UInt8} {r : Reader}
    (hview : view = read ++ ch :: rest) (h : Agrees view read x r)
    (hec : x.ec = none) (hsized : r.scanner.Sized boundary) :
    exists y, x.handleChar fs view ch = Except.ok y ∧
      y.ec = (r.feed fs ch).2 ∧ Stands view y (r.feed fs ch).1.collector ∧
      (y.ec = none -> Agrees view (read ++ [ch]) y (r.feed fs ch).1 ∧
        (r.feed fs ch).1.scanner.Sized boundary) := by
  have hsteps := Scanner.steps_of_sized hsized ch
  have hstands := h.stands
  rw [handleChar, Reader.feed, h.parser_eq]
  dsimp only
  generalize r.scanner.parser.handleChar ch = step at hsteps ⊢
  cases hfailed : step.failed with
  | true =>
      refine ⟨_, rfl, rfl, ⟨hstands.settled_eq, hstands.part_le,
        hstands.collecting⟩, ?_⟩
      intro hnone
      cases hnone
  | false =>
      rcases hsteps hfailed with ⟨hadv, hnext⟩
      have hheld : r.scanner.pending ++ [ch] = (read ++ [ch]).drop x.msg := by
        rw [h.pending_eq, List.drop_append_of_le_length h.msg_le]
      have hlen : (r.scanner.pending ++ [ch]).length + x.msg =
          read.length + 1 := by
        have hle := h.msg_le
        rw [hheld, List.length_drop, List.length_append]
        simp only [List.length_singleton]
        omega
      have hroom : x.msg + step.advancement <= read.length + 1 := by
        rw [List.length_append] at hlen
        simp only [List.length_singleton] at hlen
        omega
      have hviewLen : read.length + 1 <= view.length := by
        rw [hview, List.length_append, List.length_cons]
        omega
      have htake : (view.drop x.msg).take step.advancement =
          (r.scanner.pending ++ [ch]).take step.advancement := by
        have hdrop : view.drop x.msg =
            (r.scanner.pending ++ [ch]) ++ rest := by
          rw [hview, h.pending_eq, List.drop_append_of_le_length h.msg_le]
          simp
        rw [hdrop, List.take_append_of_le_length]
        omega
      -- The parser is set before the cursor moves.
      have hset : Stands view { x with parser := step.parser } r.collector :=
        ⟨hstands.settled_eq, hstands.part_le, hstands.collecting⟩
      have hagrees : forall y : Cursor, y.parser = step.parser ->
          y.msg = x.msg + step.advancement -> forall d, Stands view y d ->
          Agrees view (read ++ [ch]) y
            ⟨⟨step.parser, (r.scanner.pending ++ [ch]).drop step.advancement⟩,
              d⟩ := by
        intro y hparser hmsg d hd
        refine ⟨hparser, ?_, ?_, hd⟩
        · dsimp only
          rw [hheld, List.drop_drop, hmsg]
        · rw [hmsg, List.length_append]
          exact hroom
      rw [if_neg (by simp), if_neg (by simp)]
      cases hevent : step.event with
      | none =>
          rcases exists_advance fs step.advancement _ _ hset
            (by dsimp only; omega) with ⟨y, hy, hmsg, hparser, hec', hlast⟩
          dsimp only at hy hmsg hparser hec' hlast
          rw [htake, hec] at hec' hlast
          rw [StreamStep.tokens, hevent]
          exact ⟨y, hy, hec', hlast, fun _ =>
            ⟨hagrees y hparser hmsg _ hlast, hnext⟩⟩
      | messageBegin =>
          rcases exists_advance fs step.advancement _ _ hset
            (by dsimp only; omega) with ⟨y, hy, hmsg, hparser, hec', hlast⟩
          dsimp only at hy hmsg hparser hec' hlast
          rw [htake, hec] at hec' hlast
          rw [StreamStep.tokens, hevent]
          dsimp only
          rw [hy, Collector.takeAll_append]
          have hbegin := stands_setMessage hlast true
          exact ⟨{ y with collector := { y.collector with message := true } },
            rfl, hec', hbegin, fun _ => ⟨hagrees
              { y with collector := { y.collector with message := true } }
              hparser hmsg _ hbegin, hnext⟩⟩
      | messageEnd =>
          have hmsg : ({ x with parser := step.parser } : Cursor).msg <
              view.length := by
            have hle := h.msg_le
            dsimp only
            omega
          rcases exists_messageEnd fs hset hmsg with
            ⟨y, hy, hmsg', hparser, hec', hend⟩
          dsimp only at hmsg' hparser hec' hend
          rcases exists_advance fs step.advancement y _ hend
            (by omega) with ⟨z, hz, hmsg'', hparser', hec'', hlast⟩
          rw [hmsg', htake, hec', hec] at hec'' hlast
          rw [StreamStep.tokens, hevent]
          dsimp only
          rw [hy]
          refine ⟨z, hz, hec'', hlast, fun _ => ⟨?_, hnext⟩⟩
          exact hagrees z (hparser'.trans hparser) (by omega) _ hlast

/-- The loop of `put` stops where the bytewise reader does. -/
theorem exists_loop {boundary : Str} (rest : Str) :
    forall (read : Str) (x : Cursor) (r : Reader) (n : Nat),
      view = read ++ rest -> Agrees view read x r -> x.ec = none ->
      r.scanner.Sized boundary ->
      exists y m, x.loop fs view rest n = Except.ok (y, m) ∧
        y.ec = (r.feedAll fs rest).2 ∧
        Stands view y (r.feedAll fs rest).1.collector ∧
        (y.ec = none -> m = n + rest.length ∧
          Agrees view view y (r.feedAll fs rest).1 ∧
          (r.feedAll fs rest).1.scanner.Sized boundary) := by
  induction rest with
  | nil =>
      intro read x r n hview h hec hsized
      rw [List.append_nil] at hview
      refine ⟨x, n, rfl, hec, h.stands, ?_⟩
      intro _
      refine ⟨rfl, ?_, hsized⟩
      subst hview
      exact h
  | cons ch rest ih =>
      intro read x r n hview h hec hsized
      rcases exists_handleChar fs hview h hec hsized with
        ⟨y, hy, hyec, hystands, hyagrees⟩
      rw [loop, hy, Reader.feedAll, ← hyec]
      dsimp only [Except.bind]
      by_cases hok : y.ec = none
      · rcases hyagrees hok with ⟨hagrees, hysized⟩
        rw [if_pos hok, if_pos hok]
        rcases ih (read ++ [ch]) y _ (n + 1) (by rw [hview, List.append_assoc]; rfl)
          hagrees hok hysized with ⟨z, m, hz, hzec, hzstands, hzagrees⟩
        refine ⟨z, m, hz, hzec, hzstands, ?_⟩
        intro hnone
        rcases hzagrees hnone with ⟨hm, hlast, hzsized⟩
        exact ⟨by rw [hm, List.length_cons]; omega, hlast, hzsized⟩
      · rw [if_neg hok, if_neg hok]
        exact ⟨y, n, rfl, hyec, hystands, fun hnone => absurd hnone hok⟩

end Cursor

namespace Reader

variable {fs : FileSystem} {boundary : Str}

/-- What the states of a reader have in common. -/
structure Ready (boundary : Str) (r : Reader) : Prop where
  sound : r.scanner.Sound boundary
  collecting : r.collector.Collecting

theorem ready_initial (boundary : Str) (target : FormTarget) :
    Ready boundary (initial boundary target) :=
  ⟨Scanner.sound_start boundary, rfl⟩

/-- What the states of a reader have in common whatever the bytes held back
are. -/
structure Placed (boundary : Str) (r : Reader) : Prop where
  sized : r.scanner.Sized boundary
  collecting : r.collector.Collecting

theorem Ready.placed {r : Reader} (h : Ready boundary r) : Placed boundary r :=
  ⟨Scanner.sized_of_sound h.sound, h.collecting⟩

theorem agrees_start {r : Reader} (h : Placed boundary r) (chunk : Str) :
    Cursor.Agrees (r.scanner.pending ++ chunk) r.scanner.pending
      { parser := r.scanner.parser, collector := r.collector } r := by
  refine ⟨rfl, rfl, Nat.zero_le _, ?_, fun _ => le_rfl, h.collecting⟩
  rw [Cursor.settled]
  dsimp only
  rw [slice_self, Collector.write_nil]
  split <;> rfl

theorem placed_feedAll {r : Reader} (h : Placed boundary r) {chunk : Str}
    (hok : (r.feedAll fs chunk).2 = none) :
    Placed boundary (r.feedAll fs chunk).1 := by
  rcases Cursor.exists_loop fs chunk r.scanner.pending _ r 0 rfl
    (agrees_start h chunk) rfl h.sized with ⟨y, m, -, hec, hstands, hagrees⟩
  rcases hagrees (hec.trans hok) with ⟨-, -, hsized⟩
  refine ⟨hsized, ?_⟩
  rw [Collector.Collecting, hstands.isWritable_eq, hstands.messageParser_eq]
  exact hstands.collecting

theorem sound_feed {r : Reader} (h : r.scanner.Sound boundary) {c : UInt8}
    (hok : (r.feed fs c).2 = none) :
    (r.feed fs c).1.scanner.Sound boundary := by
  have hsteps := Scanner.steps_of_sound h c
  unfold feed at hok ⊢
  dsimp only at hok ⊢
  cases hfailed : (r.scanner.parser.handleChar c).failed with
  | true =>
      rw [if_pos hfailed] at hok
      cases hok
  | false =>
      rw [if_neg (by simp)]
      exact (hsteps hfailed).right

theorem sound_feedAll (chunk : Str) : forall r : Reader,
    r.scanner.Sound boundary -> (r.feedAll fs chunk).2 = none ->
      (r.feedAll fs chunk).1.scanner.Sound boundary := by
  induction chunk with
  | nil =>
      intro r h _
      exact h
  | cons c rest ih =>
      intro r h hok
      rw [feedAll] at hok ⊢
      by_cases hfeed : (r.feed fs c).2 = none
      · rw [if_pos hfeed] at hok ⊢
        exact ih _ (sound_feed h hfeed) hok
      · rw [if_neg hfeed] at hok
        exact absurd hok hfeed

theorem ready_feedAll {r : Reader} (h : Ready boundary r) {chunk : Str}
    (hok : (r.feedAll fs chunk).2 = none) :
    Ready boundary (r.feedAll fs chunk).1 :=
  ⟨sound_feedAll chunk r h.sound hok, (placed_feedAll h.placed hok).collecting⟩

/-- An error leaves the values as the bytewise reader has them, unless one was
being copied. -/
theorem put_of_error {r : Reader} (h : Placed boundary r) {chunk : Str} {e : Nat}
    (herror : (r.feedAll fs chunk).2 = some e) :
    exists out, r.put fs chunk = Except.ok out ∧ out.ec = some e ∧
      ((r.feedAll fs chunk).1.collector.isWritable = false ->
        out.reader.collector = (r.feedAll fs chunk).1.collector) := by
  rcases Cursor.exists_loop fs chunk r.scanner.pending _ r 0 rfl
    (agrees_start h chunk) rfl h.sized with ⟨y, m, hloop, hec, hstands, -⟩
  have hne : ¬ y.ec = none := by
    rw [hec, herror]
    simp
  rw [put, hloop]
  dsimp only [Except.bind]
  rw [if_neg hne]
  refine ⟨_, rfl, hec.trans herror, ?_⟩
  intro hwritable
  rw [hstands.isWritable_eq] at hwritable
  rw [← hstands.settled_eq, Cursor.settled, hwritable]
  rfl

theorem nextPending_eq {pending chunk : Str} {msg : Nat}
    (hmsg : msg <= pending.length + chunk.length)
    (hshort : pending.length + chunk.length - msg <= chunk.length) :
    nextPending (pending ++ chunk) pending chunk.length msg =
      (pending ++ chunk).drop msg := by
  have hconsumed : ¬ msg < pending.length := by omega
  rw [nextPending, if_neg hconsumed, List.drop_left, List.take_of_length_le]
  rw [List.length_drop, List.length_append]
  omega

/-- The number of bytes held back is right, even where the bytes are not. -/
theorem length_nextPending {pending chunk : Str} {msg : Nat}
    (hmsg : msg <= pending.length + chunk.length) :
    (nextPending (pending ++ chunk) pending chunk.length msg).length =
      pending.length + chunk.length - msg := by
  rw [nextPending, List.length_drop, List.length_append, List.length_take,
    List.length_drop, List.length_append]
  split
  · rename_i hlt
    rw [Nat.min_eq_left (by omega)]
    omega
  · rename_i hle
    rw [Nat.min_eq_right (by omega)]
    omega

/-- A piece that ends inside a name with nothing held back. -/
def CutsName (r : Reader) : Prop :=
  r.collector.isWritable = true ∧ r.collector.state = ReaderState.name ∧
    r.scanner.pending = []

instance (r : Reader) : Decidable r.CutsName :=
  inferInstanceAs (Decidable (_ ∧ _ ∧ _))

theorem put_of_cutsName {r : Reader} (h : Placed boundary r) {chunk : Str}
    (hok : (r.feedAll fs chunk).2 = none)
    (hcut : (r.feedAll fs chunk).1.CutsName) :
    r.put fs chunk = Except.error Fault.pastTheEnd := by
  rcases Cursor.exists_loop fs chunk r.scanner.pending _ r 0 rfl
    (agrees_start h chunk) rfl h.sized with
    ⟨y, m, hloop, hec, hstands, hagrees⟩
  rcases hagrees (hec.trans hok) with ⟨-, hlast, -⟩
  rcases hcut with ⟨hwritable, hstate, hpending⟩
  rw [hstands.isWritable_eq] at hwritable
  rw [hstands.state_eq] at hstate
  rw [hlast.pending_eq] at hpending
  have hpast : y.collector.state = ReaderState.name ∧
      (r.scanner.pending ++ chunk).length <= y.msg :=
    ⟨hstate, List.drop_eq_nil_iff.mp hpending⟩
  rw [put, hloop]
  dsimp only [Except.bind]
  rw [if_pos (hec.trans hok), if_pos hwritable, Cursor.writePart, if_pos hpast]
  rfl

theorem put_of_ok {r : Reader} (h : Placed boundary r) {chunk : Str}
    (hok : (r.feedAll fs chunk).2 = none)
    (hcut : ¬ (r.feedAll fs chunk).1.CutsName) :
    exists out, r.put fs chunk = Except.ok out ∧ out.ec = none ∧
      out.nwritten = chunk.length ∧
      out.reader.collector = (r.feedAll fs chunk).1.collector ∧
      out.reader.scanner.parser = (r.feedAll fs chunk).1.scanner.parser ∧
      out.reader.scanner.pending.length =
        (r.feedAll fs chunk).1.scanner.pending.length ∧
      ((r.feedAll fs chunk).1.scanner.pending.length <= chunk.length ->
        out.reader.scanner.pending =
          (r.feedAll fs chunk).1.scanner.pending) := by
  rcases Cursor.exists_loop fs chunk r.scanner.pending _ r 0 rfl
    (agrees_start h chunk) rfl h.sized with
    ⟨y, m, hloop, hec, hstands, hagrees⟩
  rcases hagrees (hec.trans hok) with ⟨hm, hlast, -⟩
  rw [Nat.zero_add] at hm
  have hpending : (r.feedAll fs chunk).1.scanner.pending.length <=
      chunk.length ->
      nextPending (r.scanner.pending ++ chunk) r.scanner.pending m y.msg =
        (r.feedAll fs chunk).1.scanner.pending := by
    intro hshort
    have hle := hlast.msg_le
    rw [hlast.pending_eq] at hshort ⊢
    rw [List.length_drop, List.length_append] at hshort
    rw [List.length_append] at hle
    rw [hm, nextPending_eq hle hshort]
  have hlength : (nextPending (r.scanner.pending ++ chunk) r.scanner.pending m
      y.msg).length = (r.feedAll fs chunk).1.scanner.pending.length := by
    have hle := hlast.msg_le
    rw [List.length_append] at hle
    rw [hm, length_nextPending hle, hlast.pending_eq, List.length_drop,
      List.length_append]
  rw [put, hloop]
  dsimp only [Except.bind]
  rw [if_pos (hec.trans hok)]
  by_cases hwritable : y.collector.isWritable = true
  · have hin : ¬ (y.collector.state = ReaderState.name ∧
        (r.scanner.pending ++ chunk).length <= y.msg) := by
      intro hpast
      apply hcut
      refine ⟨hstands.isWritable_eq.trans hwritable,
        hstands.state_eq.trans hpast.left, ?_⟩
      rw [hlast.pending_eq]
      exact List.drop_eq_nil_of_le hpast.right
    rw [if_pos hwritable, Cursor.writePart, if_neg hin]
    refine ⟨_, rfl, rfl, hm, ?_, hlast.parser_eq, hlength, hpending⟩
    rw [← hstands.settled_eq, Cursor.settled, if_pos hwritable]
  · rw [if_neg hwritable]
    refine ⟨_, rfl, rfl, hm, ?_, hlast.parser_eq, hlength, hpending⟩
    rw [← hstands.settled_eq, Cursor.settled, if_neg hwritable]

/-- A piece that is taken has not cut a name, and brought no error. -/
theorem put_ok {r : Reader} (h : Placed boundary r) {chunk : Str} {out : Result}
    (hput : r.put fs chunk = Except.ok out) (hec : out.ec = none) :
    (r.feedAll fs chunk).2 = none ∧ ¬ (r.feedAll fs chunk).1.CutsName := by
  cases hfeed : (r.feedAll fs chunk).2 with
  | some e =>
      rcases put_of_error h hfeed with ⟨out', hput', hec', -⟩
      rw [hput'] at hput
      cases hput
      rw [hec] at hec'
      cases hec'
  | none =>
      refine ⟨rfl, ?_⟩
      intro hcut
      rw [put_of_cutsName h hfeed hcut] at hput
      cases hput

/-- Whatever the pieces are, the reader stays where its positions are right. -/
theorem placed_put {r : Reader} (h : Placed boundary r) {chunk : Str}
    {out : Result} (hput : r.put fs chunk = Except.ok out)
    (hec : out.ec = none) : Placed boundary out.reader := by
  rcases put_ok h hput hec with ⟨hok, hcut⟩
  rcases put_of_ok h hok hcut with
    ⟨out', hput', -, -, hcollector, hparser, hlength, -⟩
  rw [hput] at hput'
  cases hput'
  rcases placed_feedAll h hok with ⟨⟨y, hsound, hyparser, hylength⟩, hcollecting⟩
  constructor
  · exact ⟨y, hsound, hyparser.trans hparser.symm, hylength.trans hlength.symm⟩
  · rw [hcollector]
    exact hcollecting

end Reader

end Multipart
end CisWebui
