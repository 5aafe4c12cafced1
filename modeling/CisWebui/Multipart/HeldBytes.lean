import CisWebui.Foundation.EventSystem
import CisWebui.Multipart.Chunking
import CisWebui.Multipart.Ledger

/-!
# The bytes held back between two calls

What `put` keeps for the next call should be what the stream parser has not let go of the
body so far.

Its tail is copied from where the parts are read up to, and it copies as many bytes as the
call has brought.  When that place is still in front of the bytes of the call, these are not
the last ones, and the copy is right only if the call repeats the bytes held back.
-/

namespace CisWebui
namespace Multipart

open Cpp Foundation
open Http (FormTarget)

def lastBytes (n : Nat) (stream : Str) : Str :=
  stream.drop (stream.length - n)

/-- The last bytes of a stream, as many as the stream parser has not let go, unless it has
reported an error. -/
def unconsumed (boundary stream : Str) : Option Str :=
  ((StreamParser.init {} boundary).handleAll stream).map fun last =>
    lastBytes (stream.length - last.2) stream

theorem unconsumed_of_handleAll {boundary stream : Str} {p : StreamParser} {n : Nat}
    (h : (StreamParser.init {} boundary).handleAll stream = some (p, n)) :
    unconsumed boundary stream = some (stream.drop n) := by
  have hle := (Scanner.sound_of_handleAll h).left
  rw [unconsumed, h, Option.map_some, lastBytes, Nat.sub_sub_self hle]

namespace Reader

/-- A reader and all it has been fed. -/
structure Feeding where
  reader : Reader
  stream : Str := []
deriving DecidableEq, Repr

/-- Calls of `put`, none of them for nothing, that come back without an error. -/
def feeding (fs : FileSystem) (boundary : Str) (target : FormTarget) :
    EventSystem Feeding Str where
  init := { reader := initial boundary target }
  step := fun x piece =>
    if piece = [] then
      none
    else
      match x.reader.put fs piece with
      | Except.error _ => none
      | Except.ok out =>
          if out.ec = none then
            some { reader := out.reader, stream := x.stream ++ piece }
          else
            none

/-- The bytes held back are the ones not let go. -/
def HoldsRest (boundary : Str) (x : Feeding) : Prop :=
  unconsumed boundary x.stream = some x.reader.scanner.pending

/-- What is not let go behind a piece is not longer than it, or starts like it. -/
def Copies (boundary : Str) (x : Feeding) (piece : Str) : Prop :=
  forall rest, unconsumed boundary (x.stream ++ piece) = some rest ->
    rest.length <= piece.length ∨ piece <+: rest

instance (boundary : Str) (x : Feeding) : Decidable (HoldsRest boundary x) :=
  inferInstanceAs (Decidable (_ = _))

variable {fs : FileSystem} {boundary : Str} {target : FormTarget}

/-!
## One call
-/

/-- The tail of `put` keeps what it should, unless the bytes of the call are not the last
ones. -/
theorem nextPending_eq_iff {pending piece : Str} {msg : Nat}
    (hmsg : msg <= pending.length + piece.length) :
    nextPending (pending ++ piece) pending piece.length msg = (pending ++ piece).drop msg <->
      ((pending ++ piece).drop msg).length <= piece.length ∨
        piece <+: (pending ++ piece).drop msg := by
  have hlength : ((pending ++ piece).drop msg).length =
      pending.length + piece.length - msg := by
    rw [List.length_drop, List.length_append]
  by_cases hshort : pending.length + piece.length - msg <= piece.length
  · rw [nextPending_eq hmsg hshort, hlength]
    exact ⟨fun _ => Or.inl hshort, fun _ => rfl⟩
  · have hinside : msg < pending.length := by omega
    have hdrop : (pending ++ piece).drop msg = pending.drop msg ++ piece :=
      List.drop_append_of_le_length (Nat.le_of_lt hinside)
    have hsize : piece.length + msg - msg = piece.length := by omega
    rw [hlength, nextPending, if_pos hinside, hsize,
      List.drop_append_of_le_length (Nat.le_of_lt hinside), List.prefix_iff_eq_take]
    constructor
    · intro h
      rw [hdrop, List.append_cancel_left_eq] at h
      exact Or.inr (by rw [hdrop]; exact h.symm)
    · intro h
      rcases h with h | h
      · exact absurd h hshort
      · rw [← h, hdrop]

theorem scanner_feed {r : Reader} {c : UInt8} (hok : (r.feed fs c).2 = none) :
    (r.scanner.parser.handleChar c).failed = false ∧
      (r.feed fs c).1.scanner =
        ⟨(r.scanner.parser.handleChar c).parser,
          (r.scanner.pending ++ [c]).drop (r.scanner.parser.handleChar c).advancement⟩ := by
  unfold feed at hok ⊢
  dsimp only at hok ⊢
  cases hfailed : (r.scanner.parser.handleChar c).failed with
  | true =>
      rw [if_pos hfailed] at hok
      cases hok
  | false => exact ⟨rfl, rfl⟩

/-- Reading byte by byte lets go what the stream parser says. -/
theorem handleAll_feedAll (chunk : Str) : forall r : Reader,
    r.scanner.Sized boundary -> (r.feedAll fs chunk).2 = none ->
      exists n, r.scanner.parser.handleAll chunk =
          some ((r.feedAll fs chunk).1.scanner.parser, n) ∧
        n <= r.scanner.pending.length + chunk.length ∧
        (r.feedAll fs chunk).1.scanner.pending = (r.scanner.pending ++ chunk).drop n := by
  induction chunk with
  | nil =>
      intro r _ _
      refine ⟨0, rfl, Nat.zero_le _, ?_⟩
      rw [List.append_nil, List.drop_zero]
      rfl
  | cons c rest ih =>
      intro r hsized hok
      rw [feedAll] at hok ⊢
      by_cases hfeed : (r.feed fs c).2 = none
      · rw [if_pos hfeed] at hok ⊢
        rcases scanner_feed hfeed with ⟨hfailed, hscanner⟩
        rcases Scanner.steps_of_sized hsized c hfailed with ⟨hadv, hnext⟩
        rw [← hscanner] at hnext
        rcases ih (r.feed fs c).1 hnext hok with ⟨k, hrest, hle, hpending⟩
        rw [hscanner] at hrest hle hpending
        refine ⟨(r.scanner.parser.handleChar c).advancement + k, ?_, ?_, ?_⟩
        · rw [StreamParser.handleAll_cons_of_not_failed hfailed, hrest, Option.map_some]
        · rw [List.length_drop, List.length_append, List.length_singleton] at hle
          rw [List.length_cons]
          omega
        · have hfits : (r.scanner.parser.handleChar c).advancement <=
              (r.scanner.pending ++ [c]).length := by
            rw [List.length_append]
            exact hadv
          rw [hpending, ← List.drop_append_of_le_length hfits, List.drop_drop,
            ← List.append_cons]
      · rw [if_neg hfeed] at hok
        exact absurd hok hfeed

/-- What a call does to the stream parser and to the bytes held back. -/
theorem exists_of_put {r : Reader} (h : Placed boundary r) {piece : Str} {out : Result}
    (hput : r.put fs piece = Except.ok out) (hec : out.ec = none) :
    exists n, r.scanner.parser.handleAll piece = some (out.reader.scanner.parser, n) ∧
      n <= r.scanner.pending.length + piece.length ∧
      out.reader.scanner.pending =
        nextPending (r.scanner.pending ++ piece) r.scanner.pending piece.length n := by
  rcases put_ok h hput hec with ⟨hok, -⟩
  rcases handleAll_feedAll piece r h.sized hok with ⟨n, hall, hle, hrest⟩
  rcases Cursor.exists_loop fs piece r.scanner.pending _ r 0 rfl
    (agrees_start h piece) rfl h.sized with ⟨y, m, hloop, hyec, -, hagrees⟩
  rcases hagrees (hyec.trans hok) with ⟨hm, hlast, -⟩
  rw [Nat.zero_add] at hm
  have hmsg : y.msg = n := by
    have hylength := congrArg List.length (hlast.pending_eq.symm.trans hrest)
    have hyle := hlast.msg_le
    rw [List.length_drop, List.length_drop] at hylength
    rw [List.length_append] at hylength hyle
    omega
  have hkept : exists z : Cursor, z.msg = y.msg ∧ z.parser = y.parser ∧
      out.reader.scanner = ⟨z.parser, nextPending (r.scanner.pending ++ piece)
        r.scanner.pending m z.msg⟩ := by
    rw [put, hloop] at hput
    dsimp only [Except.bind] at hput
    rw [if_pos (hyec.trans hok)] at hput
    rcases exists_of_map hput with ⟨z, hz, rfl⟩
    by_cases hwritable : y.collector.isWritable = true
    · rw [if_pos hwritable] at hz
      rw [Cursor.writePart_ok hz]
      exact ⟨_, rfl, rfl, rfl⟩
    · rw [if_neg hwritable] at hz
      cases hz
      exact ⟨_, rfl, rfl, rfl⟩
  rcases hkept with ⟨z, hzmsg, hzparser, hscanner⟩
  refine ⟨n, ?_, hle, ?_⟩
  · rw [hscanner, hall]
    dsimp only
    rw [hzparser, hlast.parser_eq]
  · rw [hscanner]
    dsimp only
    rw [hzmsg, hmsg, hm]

/-!
## A run of calls
-/

/-- The reader is where it should be behind all it has been fed. -/
structure Right (boundary : Str) (x : Feeding) : Prop where
  placed : Placed boundary x.reader
  fed : exists n, (StreamParser.init {} boundary).handleAll x.stream =
      some (x.reader.scanner.parser, n) ∧
    n <= x.stream.length ∧ x.reader.scanner.pending = x.stream.drop n

theorem right_initial (fs : FileSystem) (boundary : Str) (target : FormTarget) :
    Right boundary (feeding fs boundary target).init where
  placed := (ready_initial boundary target).placed
  fed := ⟨0, rfl, Nat.zero_le _, rfl⟩

theorem Right.holdsRest {x : Feeding} (h : Right boundary x) : HoldsRest boundary x := by
  rcases h.fed with ⟨n, hall, -, hpending⟩
  rw [HoldsRest, unconsumed_of_handleAll hall, hpending]

theorem exists_put_of_step {x t : Feeding} {piece : Str}
    (hstep : (feeding fs boundary target).step x piece = some t) :
    exists out, x.reader.put fs piece = Except.ok out ∧ out.ec = none ∧
      t = { reader := out.reader, stream := x.stream ++ piece } := by
  unfold feeding at hstep
  dsimp only at hstep
  split at hstep
  · cases hstep
  · cases hput : x.reader.put fs piece with
    | error e =>
        rw [hput] at hstep
        cases hstep
    | ok out =>
        rw [hput] at hstep
        dsimp only at hstep
        by_cases hec : out.ec = none
        · rw [if_pos hec] at hstep
          exact ⟨out, rfl, hec, (Option.some.inj hstep).symm⟩
        · rw [if_neg hec] at hstep
          cases hstep

/-- From where a reader should be, a call goes on right just when its copy does. -/
theorem right_iff_copies {x t : Feeding} {piece : Str} (h : Right boundary x)
    (hstep : (feeding fs boundary target).step x piece = some t) :
    (HoldsRest boundary t <-> Copies boundary x piece) ∧
      (HoldsRest boundary t -> Right boundary t) := by
  rcases exists_put_of_step hstep with ⟨out, hput, hec, rfl⟩
  rcases h.fed with ⟨n, hall, hle, hpending⟩
  rcases exists_of_put h.placed hput hec with ⟨k, hmore, hfits, hnext⟩
  have htogether := StreamParser.handleAll_append hall hmore
  have hview : x.reader.scanner.pending ++ piece = (x.stream ++ piece).drop n := by
    rw [hpending, List.drop_append_of_le_length hle]
  have hrest : (x.reader.scanner.pending ++ piece).drop k =
      (x.stream ++ piece).drop (n + k) := by
    rw [hview, List.drop_drop]
  have hunconsumed := unconsumed_of_handleAll htogether
  rw [← hrest] at hunconsumed
  have hholds : HoldsRest boundary { reader := out.reader, stream := x.stream ++ piece } <->
      out.reader.scanner.pending = (x.reader.scanner.pending ++ piece).drop k := by
    rw [HoldsRest, hunconsumed, Option.some_inj]
    exact eq_comm
  constructor
  · rw [hholds, hnext, nextPending_eq_iff hfits, Copies, hunconsumed]
    constructor
    · intro hcopied rest heq
      cases heq
      exact hcopied
    · intro hcopies
      exact hcopies _ rfl
  · intro hright
    refine ⟨placed_put h.placed hput hec, n + k, htogether, ?_, ?_⟩
    · have hlength := congrArg List.length hpending
      rw [List.length_drop] at hlength
      rw [List.length_append]
      omega
    · exact (hholds.mp hright).trans hrest

/-- Along a run of calls the bytes held back are the ones not let go, just when behind every
piece these are not longer than the piece, or start like it. -/
theorem everyState_holdsRest_iff (fs : FileSystem) (boundary : Str) (target : FormTarget)
    (pieces : List Str) :
    (feeding fs boundary target).EveryState (HoldsRest boundary)
        (feeding fs boundary target).init pieces <->
      (feeding fs boundary target).EveryStep (Copies boundary)
        (feeding fs boundary target).init pieces := by
  refine EventSystem.everyState_iff_everyStep ?_ ?_ (fun _ h => Right.holdsRest h)
    (right_initial fs boundary target)
  · intro x piece t hx hcopies hstep
    rcases right_iff_copies hx hstep with ⟨hiff, hright⟩
    exact hright (hiff.mpr hcopies)
  · intro x piece t hx hstep hholds
    exact (right_iff_copies hx hstep).left.mp hholds

/-- Three bytes of the first line, one at a time: the third is lost for a copy of the
first. -/
theorem everyState_holdsRest_not_everywhere :
    ¬ forall (fs : FileSystem) (boundary : Str) (target : FormTarget) (pieces : List Str),
      (feeding fs boundary target).EveryState (HoldsRest boundary)
        (feeding fs boundary target).init pieces := by
  intro h
  have hall := h emptyDisk (str "B") sampleTarget [str "-", str "-", str "B"]
  have hrun : exists x, (feeding emptyDisk (str "B") sampleTarget).runFrom
      (feeding emptyDisk (str "B") sampleTarget).init [str "-", str "-", str "B"] = some x ∧
        ¬ HoldsRest (str "B") x :=
    ⟨{ reader := ⟨⟨{ (StreamParser.init {} (str "B")) with
          state := StreamState.preamble
          kmp := { m := 0, i := 3, pattern := str "--B\r\n", table := [-1, 0, 1, 0, 0, 0] }
          lastMatched := 3 }, str "---"⟩, (initial (str "B") sampleTarget).collector⟩
       stream := str "--B" }, by decide +kernel, by decide +kernel⟩
  rcases hrun with ⟨x, hrun, hlost⟩
  exact hlost (EventSystem.everyState_last hall hrun)

end Reader

end Multipart
end CisWebui
