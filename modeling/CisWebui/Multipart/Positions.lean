import CisWebui.Multipart.Chunking

/-!
# Positions

The positions of the view of the buffers that `put` and its helpers look at, in
their order, up to the first one that is not there.

Whatever the bytes and the pieces are, they are all there but one: a piece that
ends inside a name with nothing held back makes `write_part` look at the end.
-/

namespace CisWebui
namespace Multipart

open Cpp
open Http (FormTarget)

/-- Every position that is looked at is one of the view. -/
def InRange (view : Str) (reads : List Nat) : Prop :=
  forall position, position ∈ reads -> position < view.length

theorem inRange_nil (view : Str) : InRange view [] := by
  intro position h
  cases h

theorem inRange_singleton {view : Str} {position : Nat}
    (h : position < view.length) : InRange view [position] := by
  intro other hother
  rw [List.mem_singleton.mp hother]
  exact h

theorem inRange_append {view : Str} {a b : List Nat} (ha : InRange view a)
    (hb : InRange view b) : InRange view (a ++ b) := by
  intro position h
  rcases List.mem_append.mp h with h | h
  · exact ha position h
  · exact hb position h

theorem inRange_range {view : Str} {first n : Nat}
    (h : first + n <= view.length) : InRange view (List.range' first n) := by
  intro position hposition
  have hlast := (List.mem_range'_1.mp hposition).right
  omega

namespace Cursor

/-- `write_part` looks at the buffers: always, but for a file that is not
open. -/
def copies (c : Collector) : Bool :=
  match c.state with
  | ReaderState.file => (c.files.head?.map fun file => file.isOpen).getD false
  | _ => true

/-- `write_part` with `part_end` at `msg`: the bytes it copies, or the end if it
never gets to `part_end`, and then `part_end` itself.  Only in a name it does
not ask first whether that is the end. -/
def writePartReads (view : Str) (x : Cursor) : List Nat :=
  if copies x.collector then
    (if x.part <= x.msg then List.range' x.part (x.msg - x.part)
      else [view.length]) ++
    if x.collector.state = ReaderState.name ∨ x.msg < view.length then [x.msg]
      else []
  else
    []

/-- `message_part_event`: a beginning steps on to the next byte. -/
def messagePartEventReads (view : Str) (x : Cursor) (event : MessageEvent) :
    List Nat :=
  if event.ends then x.writePartReads view
  else if event.begins then [x.msg]
  else []

/-- `on_parser_event` -/
def onParserEventReads (view : Str) (x : Cursor) : StreamEvent -> List Nat
  | StreamEvent.messageEnd =>
      x.messagePartEventReads view x.collector.messageParser.handleMessageEnd.event
  | _ => []

/-- A round of `advance`: the byte, what the event looks at, and the step to the
next byte. -/
def byteReads (view : Str) (x : Cursor) : List Nat :=
  match view[x.msg]? with
  | none => [x.msg]
  | some c =>
      if x.collector.message then
        x.msg :: x.messagePartEventReads view
          (x.collector.messageParser.handleMessageChar c).event ++ [x.msg]
      else
        [x.msg]

/-- `advance` -/
def advanceReads (fs : FileSystem) (view : Str) : Nat -> Cursor -> List Nat
  | 0, _ => []
  | adv + 1, x =>
      x.byteReads view ++
        match x.advance fs view 1 with
        | Except.ok x => advanceReads fs view adv x
        | Except.error _ => []

/-- One round of the loop of `put`. -/
def handleCharReads (fs : FileSystem) (view : Str) (x : Cursor) (c : UInt8) :
    List Nat :=
  let step := x.parser.handleChar c
  let x := { x with parser := step.parser }
  if step.failed then
    []
  else
    match step.event with
    | StreamEvent.messageBegin =>
        x.advanceReads fs view step.advancement ++
          match x.advance fs view step.advancement with
          | Except.ok x => x.onParserEventReads view step.event
          | Except.error _ => []
    | _ =>
        x.onParserEventReads view step.event ++
          match x.onParserEvent fs view step.event with
          | Except.ok x => x.advanceReads fs view step.advancement
          | Except.error _ => []

/-- The loop of `put`. -/
def loopReads (fs : FileSystem) (view : Str) : Str -> Cursor -> List Nat
  | [], _ => []
  | c :: rest, x =>
      x.handleCharReads fs view c ++
        match x.handleChar fs view c with
        | Except.ok x => if x.ec = none then loopReads fs view rest x else []
        | Except.error _ => []

/-- The end of `put`: the open value is copied, then the bytes that are held
back, as long as there are any. -/
def tailReads (view pending : Str) (nwritten : Nat) (x : Cursor) : List Nat :=
  let consumed := if x.msg < pending.length then x.msg else pending.length
  let bufSize := nwritten + consumed - x.msg
  let copied := List.range' x.msg (min bufSize (view.length - x.msg))
  if x.collector.isWritable then
    x.writePartReads view ++
      match x.writePart view with
      | Except.ok _ => copied
      | Except.error _ => []
  else
    copied

end Cursor

namespace Reader

/-- `put` -/
def putReads (fs : FileSystem) (r : Reader) (chunk : Str) : List Nat :=
  let view := r.scanner.pending ++ chunk
  let start : Cursor :=
    { parser := r.scanner.parser, collector := r.collector }
  start.loopReads fs view chunk ++
    match start.loop fs view chunk 0 with
    | Except.ok (x, nwritten) =>
        if x.ec = none then x.tailReads view r.scanner.pending nwritten else []
    | Except.error _ => []

end Reader

/-!
## What is in range
-/

namespace Cursor

variable (fs : FileSystem) {view : Str} {x : Cursor} {c : Collector}

theorem inRange_writePartReads (hpart : x.part <= x.msg)
    (hmsg : x.msg <= view.length)
    (hname : x.collector.state = ReaderState.name -> x.msg < view.length) :
    InRange view (x.writePartReads view) := by
  rw [writePartReads, if_pos hpart]
  split
  · apply inRange_append
    · exact inRange_range (by omega)
    · split
      · rename_i h
        exact inRange_singleton (h.elim hname id)
      · exact inRange_nil view
  · exact inRange_nil view

theorem inRange_messagePartEventReads (h : Stands view x c)
    (hmsg : x.msg < view.length) {after : Bool} {event : MessageEvent}
    (hfits : Fits x.collector.messageParser.state.collects after event) :
    InRange view (x.messagePartEventReads view event) := by
  unfold messagePartEventReads
  split
  · rename_i hends
    have hwritable : x.collector.isWritable = true :=
      h.collecting.trans (hfits.right.left hends).left
    exact inRange_writePartReads (h.part_le hwritable) (Nat.le_of_lt hmsg)
      fun _ => hmsg
  · split
    · exact inRange_singleton hmsg
    · exact inRange_nil view

theorem inRange_onParserEventReads (h : Stands view x c)
    (hmsg : x.msg < view.length) (event : StreamEvent) :
    InRange view (x.onParserEventReads view event) := by
  cases event with
  | none => exact inRange_nil view
  | messageBegin => exact inRange_nil view
  | messageEnd =>
      exact inRange_messagePartEventReads h hmsg
        (fits_handleMessageEnd x.collector.messageParser)

theorem inRange_byteReads (h : Stands view x c) (hmsg : x.msg < view.length) :
    InRange view (x.byteReads view) := by
  rw [byteReads, List.getElem?_eq_getElem hmsg]
  dsimp only
  split
  · have hevent := inRange_messagePartEventReads h hmsg
      (fits_handleMessageChar x.collector.messageParser view[x.msg])
    exact inRange_append (inRange_append (inRange_singleton hmsg) hevent)
      (inRange_singleton hmsg)
  · exact inRange_singleton hmsg

theorem inRange_advanceReads (adv : Nat) : forall (x : Cursor) (c : Collector),
    Stands view x c -> x.msg + adv <= view.length ->
      InRange view (x.advanceReads fs view adv) := by
  induction adv with
  | zero =>
      intro x c _ _
      exact inRange_nil view
  | succ adv ih =>
      intro x c h hlen
      have hmsg : x.msg < view.length := by
        omega
      rcases exists_advance_byte fs h (List.getElem?_eq_getElem hmsg) 0 with
        ⟨y, hy, hymsg, -, -, hstands⟩
      rw [advanceReads, hy]
      apply inRange_append (inRange_byteReads h hmsg)
      exact ih y _ hstands (by omega)

/-- The parser lets go no more bytes than have come. -/
theorem advancement_le {boundary read rest : Str} {ch : UInt8} {r : Reader}
    (hview : view = read ++ ch :: rest) (h : Agrees view read x r)
    (hsized : r.scanner.Sized boundary)
    (hok : (x.parser.handleChar ch).failed = false) :
    x.msg + (x.parser.handleChar ch).advancement <= view.length ∧
      x.msg < view.length := by
  rw [h.parser_eq] at hok ⊢
  have hadv := (Scanner.steps_of_sized hsized ch hok).left
  have hle := h.msg_le
  rw [h.pending_eq, List.length_drop] at hadv
  rw [hview, List.length_append, List.length_cons]
  omega

theorem inRange_handleCharReads {boundary read rest : Str} {ch : UInt8}
    {r : Reader} (hview : view = read ++ ch :: rest) (h : Agrees view read x r)
    (hsized : r.scanner.Sized boundary) :
    InRange view (x.handleCharReads fs view ch) := by
  have hroom := advancement_le hview h hsized
  have hstands := h.stands
  unfold handleCharReads
  dsimp only
  generalize x.parser.handleChar ch = step at hroom ⊢
  cases hfailed : step.failed with
  | true => exact inRange_nil view
  | false =>
      rcases hroom hfailed with ⟨hadv, hmsg⟩
      have hset : Stands view { x with parser := step.parser } r.collector :=
        ⟨hstands.settled_eq, hstands.part_le, hstands.collecting⟩
      rcases exists_advance fs step.advancement _ _ hset hadv with
        ⟨y, hy, -, -, -, hystands⟩
      have hadvance := inRange_advanceReads fs step.advancement _ _ hset hadv
      rw [if_neg (by simp)]
      cases hevent : step.event with
      | none =>
          exact inRange_append (inRange_nil view) hadvance
      | messageBegin =>
          dsimp only
          rw [hy]
          exact inRange_append hadvance (inRange_nil view)
      | messageEnd =>
          rcases exists_messageEnd fs hset hmsg with
            ⟨z, hz, hzmsg, -, -, hzstands⟩
          dsimp only
          rw [hz]
          apply inRange_append (inRange_onParserEventReads hset hmsg _)
          exact inRange_advanceReads fs step.advancement z _ hzstands
            (by rw [hzmsg]; exact hadv)

theorem inRange_loopReads {boundary : Str} (rest : Str) :
    forall (read : Str) (x : Cursor) (r : Reader), view = read ++ rest ->
      Agrees view read x r -> x.ec = none -> r.scanner.Sized boundary ->
        InRange view (x.loopReads fs view rest) := by
  induction rest with
  | nil =>
      intro read x r _ _ _ _
      exact inRange_nil view
  | cons ch rest ih =>
      intro read x r hview h hec hsized
      rcases exists_handleChar fs hview h hec hsized with
        ⟨y, hy, hyec, -, hyagrees⟩
      rw [loopReads, hy]
      apply inRange_append (inRange_handleCharReads fs hview h hsized)
      dsimp only
      split
      · rename_i hok
        rcases hyagrees hok with ⟨hagrees, hysized⟩
        exact ih (read ++ [ch]) y _ (by rw [hview, List.append_assoc]; rfl)
          hagrees hok hysized
      · exact inRange_nil view

/-- At the end of `put` only a name can be cut where nothing follows. -/
theorem inRange_tailReads_iff (pending : Str) (nwritten : Nat)
    (h : Stands view x c) (hmsg : x.msg <= view.length) :
    InRange view (x.tailReads view pending nwritten) <->
      ¬ (x.collector.isWritable = true ∧
        x.collector.state = ReaderState.name ∧ x.msg = view.length) := by
  have hcopied : forall n, InRange view
      (List.range' x.msg (min n (view.length - x.msg))) := by
    intro n
    apply inRange_range
    have hmin := Nat.min_le_right n (view.length - x.msg)
    omega
  unfold tailReads
  dsimp only
  cases hwritable : x.collector.isWritable with
  | false =>
      constructor
      · intro _ hcut
        cases hcut.left
      · intro _
        exact hcopied _
  | true =>
      rw [if_pos rfl]
      constructor
      · intro hrange hcut
        have hread : x.msg ∈ x.writePartReads view := by
          have hcopies : copies x.collector = true := by
            rw [copies, hcut.right.left]
          rw [writePartReads, if_pos hcopies, if_pos (Or.inl hcut.right.left)]
          exact List.mem_append_right _ (List.mem_singleton.mpr rfl)
        have hlt := hrange x.msg (List.mem_append_left _ hread)
        rw [hcut.right.right] at hlt
        exact lt_irrefl _ hlt
      · intro hcut
        apply inRange_append
        · apply inRange_writePartReads (h.part_le hwritable) hmsg
          intro hname
          exact lt_of_le_of_ne hmsg fun heq => hcut ⟨rfl, hname, heq⟩
        · split
          · exact hcopied _
          · exact inRange_nil view

end Cursor

namespace Reader

variable {boundary : Str}

/-- One call of `put`. -/
theorem inRange_putReads_iff (fs : FileSystem) {r : Reader}
    (h : Placed boundary r) (chunk : Str) :
    InRange (r.scanner.pending ++ chunk) (r.putReads fs chunk) <->
      ((r.feedAll fs chunk).2 = none ->
        ¬ (r.feedAll fs chunk).1.CutsName) := by
  have hstart := agrees_start h chunk
  have hloops := Cursor.inRange_loopReads fs chunk r.scanner.pending _ r rfl
    hstart rfl h.sized
  rcases Cursor.exists_loop fs chunk r.scanner.pending _ r 0 rfl hstart rfl
    h.sized with ⟨y, m, hloop, hec, hstands, hagrees⟩
  rw [putReads, hloop]
  dsimp only
  by_cases hok : y.ec = none
  · rcases hagrees hok with ⟨-, hlast, -⟩
    have htail := Cursor.inRange_tailReads_iff r.scanner.pending m hstands
      hlast.msg_le
    have hcut : (r.feedAll fs chunk).1.CutsName <->
        y.collector.isWritable = true ∧
          y.collector.state = ReaderState.name ∧
          y.msg = (r.scanner.pending ++ chunk).length := by
      have hend : (r.feedAll fs chunk).1.scanner.pending = [] <->
          y.msg = (r.scanner.pending ++ chunk).length := by
        rw [hlast.pending_eq, List.drop_eq_nil_iff]
        exact ⟨fun hle => Nat.le_antisymm hlast.msg_le hle, Nat.le_of_eq ∘ Eq.symm⟩
      rw [CutsName, hstands.isWritable_eq, hstands.state_eq, hend]
    rw [if_pos hok, ← hec, hcut, ← htail]
    constructor
    · intro hrange _ position hposition
      exact hrange position (List.mem_append_right _ hposition)
    · intro hrange
      exact inRange_append hloops (hrange hok)
  · rw [if_neg hok, List.append_nil]
    constructor
    · intro _ hnone
      exact absurd (hec.trans hnone) hok
    · intro _
      exact hloops

/-- The positions that the calls of `put` look at, up to the first that returns
an error, are positions of their views. -/
def RunInRange (fs : FileSystem) : Reader -> List Str -> Prop
  | _, [] => True
  | r, chunk :: rest =>
      InRange (r.scanner.pending ++ chunk) (r.putReads fs chunk) ∧
        forall out, r.put fs chunk = Except.ok out -> out.ec = none ->
          RunInRange fs out.reader rest

/-- No piece, up to the first that brings an error, ends inside a name with
nothing held back. -/
def CutsNoName (fs : FileSystem) : Reader -> List Str -> Prop
  | _, [] => True
  | r, chunk :: rest =>
      ((r.feedAll fs chunk).2 = none -> ¬ (r.feedAll fs chunk).1.CutsName) ∧
        forall out, r.put fs chunk = Except.ok out -> out.ec = none ->
          CutsNoName fs out.reader rest

theorem runInRange_of_placed (fs : FileSystem) (cutting : List Str) :
    forall r : Reader, Placed boundary r ->
      (r.RunInRange fs cutting <-> r.CutsNoName fs cutting) := by
  induction cutting with
  | nil =>
      intro r _
      exact Iff.rfl
  | cons chunk rest ih =>
      intro r h
      rw [RunInRange, CutsNoName, inRange_putReads_iff fs h chunk]
      have hrest : forall out, r.put fs chunk = Except.ok out ->
          out.ec = none ->
          (out.reader.RunInRange fs rest <-> out.reader.CutsNoName fs rest) := by
        intro out hput hec
        exact ih out.reader (placed_put h hput hec)
      constructor
      · intro hrange
        refine ⟨hrange.left, ?_⟩
        intro out hput hec
        exact (hrest out hput hec).mp (hrange.right out hput hec)
      · intro hcuts
        refine ⟨hcuts.left, ?_⟩
        intro out hput hec
        exact (hrest out hput hec).mpr (hcuts.right out hput hec)

/-- Whatever the bytes and the pieces are, every position that is looked at is
there, exactly when no piece ends inside a name with nothing held back. -/
theorem runInRange_iff (fs : FileSystem) (boundary : Str) (target : FormTarget)
    (cutting : List Str) :
    (initial boundary target).RunInRange fs cutting <->
      (initial boundary target).CutsNoName fs cutting :=
  runInRange_of_placed fs cutting _ (ready_initial boundary target).placed

/-- A piece that ends inside the name of a part. -/
def pieceOfName : Str :=
  str "--B\r\nContent-Disposition: form-data; name=\"a"

theorem runInRange_not_everywhere :
    ¬ forall (fs : FileSystem) (boundary : Str) (target : FormTarget)
        (cutting : List Str), (forall chunk, chunk ∈ cutting -> chunk ≠ []) ->
        (initial boundary target).RunInRange fs cutting := by
  intro h
  have hrun := h emptyDisk (str "B") sampleTarget [pieceOfName] (by decide)
  have hcuts := (inRange_putReads_iff emptyDisk
    (ready_initial (str "B") sampleTarget).placed pieceOfName).mp hrun.left
  exact hcuts (by decide +kernel) (by decide +kernel)

end Reader

end Multipart
end CisWebui
