import CisWebui.Foundation.Transducer
import CisWebui.Multipart.Parsers

/-!
# Scanning for delimiters

The stream parser together with the bytes it holds back, as a transducer from
bytes to tokens: the bytes it lets go, and its events in between.

The bytes held back are the overlap the searcher has found.  So up to the first
delimiter all bytes are let go in order, and the delimiter itself comes out in
one piece.
-/

namespace CisWebui
namespace Multipart

open Cpp
open Foundation Foundation.PrefixMatching

/-- What the reader goes on with: a byte let go, or an event. -/
inductive Token where
  | byte (b : UInt8)
  | messageBegin
  | messageEnd
deriving DecidableEq, Repr

def bytes (text : Str) : List Token :=
  text.map Token.byte

/-- The order of `put`: a beginning comes after the bytes let go with it, an
end before them. -/
def StreamStep.tokens (step : StreamStep) (held : Str) : List Token :=
  match step.event with
  | StreamEvent.none => bytes (held.take step.advancement)
  | StreamEvent.messageBegin =>
      bytes (held.take step.advancement) ++ [Token.messageBegin]
  | StreamEvent.messageEnd =>
      Token.messageEnd :: bytes (held.take step.advancement)

structure Scanner where
  parser : StreamParser
  pending : Str := []
deriving DecidableEq, Repr

namespace Scanner

/-- The tokens of one byte, unless the parser reports an error. -/
def scan (x : Scanner) (c : UInt8) : Option (Scanner × List Token) :=
  let step := x.parser.handleChar c
  let held := x.pending ++ [c]
  if step.failed then
    none
  else
    some ({ parser := step.parser, pending := held.drop step.advancement },
      step.tokens held)

def start (boundary : Str) : Scanner where
  parser := StreamParser.init {} boundary

end Scanner

/-!
## Delimiters
-/

/-- The line that opens the first part. -/
def opening (boundary : Str) : Str :=
  str "--" ++ boundary ++ str "\r\n"

/-- What ends every part. -/
def delimiter (boundary : Str) : Str :=
  str "\r\n--" ++ boundary

theorem two_le_length_opening (boundary : Str) :
    2 <= (opening boundary).length := by
  simp [opening, str]

theorem two_le_length_delimiter (boundary : Str) :
    2 <= (delimiter boundary).length := by
  simp [delimiter, str]

theorem opening_ne_nil (boundary : Str) : ¬ opening boundary = [] := by
  simp [opening, str]

theorem delimiter_ne_nil (boundary : Str) : ¬ delimiter boundary = [] := by
  simp [delimiter, str]

/-- The parser has been set up for the boundary. -/
structure StreamParser.SetUp (p : StreamParser) (boundary : Str) : Prop where
  preambleDelim_eq : p.preambleDelim = opening boundary
  encapsulationDelim_eq : p.encapsulationDelim = delimiter boundary
  tableFits : p.kmp.TableFits

theorem setUp_init (boundary : Str) :
    (StreamParser.init {} boundary).SetUp boundary := by
  constructor
  · rfl
  · change ([] ++ str "\r\n" ++ str "--") ++ boundary = _
    rfl
  · intro hlen
    change 2 <= ([] : Str).length at hlen
    simp at hlen

namespace Scanner

/-- The parser searches for `delim`, has read `text` since it started to, and
holds back the overlap of the two. -/
structure Searches (x : Scanner) (delim text : Str) : Prop where
  tracks : x.parser.kmp.Tracks delim text
  lastMatched_eq : x.parser.lastMatched = x.parser.kmp.i
  pending_eq : x.pending = text.drop (text.length - x.parser.kmp.i)

/-- What has been let go of `text`. -/
def passed (x : Scanner) (text : Str) : Str :=
  text.take (text.length - x.parser.kmp.i)

variable {x : Scanner} {delim text : Str}

theorem length_pending (h : Searches x delim text) :
    x.pending.length = x.parser.kmp.i := by
  have hle := overlap_length_le h.tracks.matched.left
  rw [h.pending_eq, List.length_drop]
  omega

theorem held_eq (h : Searches x delim text) (c : UInt8) :
    x.pending ++ [c] =
      (text ++ [c]).drop (text.length - x.parser.kmp.i) := by
  rw [h.pending_eq, List.drop_append_of_le_length (Nat.sub_le _ _)]

/-- While the delimiter is not complete, the searcher lets go what the new
overlap does not cover. -/
theorem trCheck_of_not_suffix (h : Searches x delim text)
    (hdelim : x.parser.trDelim = delim) {c : UInt8}
    (hfree : ¬ delim <:+ text ++ [c]) :
    exists p advancement, x.parser.trCheck c = (p, advancement, false) ∧
      advancement <= x.pending.length + 1 ∧ p.state = x.parser.state ∧
      p.preambleDelim = x.parser.preambleDelim ∧
      p.encapsulationDelim = x.parser.encapsulationDelim ∧
      Searches ⟨p, (x.pending ++ [c]).drop advancement⟩ delim (text ++ [c]) ∧
      x.passed text ++ (x.pending ++ [c]).take advancement =
        (⟨p, (x.pending ++ [c]).drop advancement⟩ : Scanner).passed
          (text ++ [c]) := by
  have hfound := KmpSearcher.found_partialSearch h.tracks c
  have hle := overlap_length_le h.tracks.matched.left
  have hshort : (x.parser.kmp.partialSearch c).2 < delim.length := by
    refine lt_of_le_of_ne hfound.longest.left.left ?_
    intro heq
    have hlongest := hfound.longest
    rw [heq] at hlongest
    exact hfree (longestOverlap_length_iff.mp hlongest)
  have hgrow := overlap_le_succ h.tracks.matched hfound.longest.left
  rcases hfound.tracks hshort with ⟨htracks, hi⟩
  have hresult : ¬ (x.parser.kmp.partialSearch c).2 =
      x.parser.trDelim.length := by
    rw [hdelim]
    exact hshort.ne
  have hadvancement : (if x.parser.lastMatched + 1 =
      (x.parser.kmp.partialSearch c).2 then 0 else
      x.parser.lastMatched + 1 - (x.parser.kmp.partialSearch c).2) =
      x.parser.kmp.i + 1 - (x.parser.kmp.partialSearch c).2 := by
    rw [h.lastMatched_eq]
    split
    · omega
    · rfl
  refine ⟨{ x.parser with
      kmp := (x.parser.kmp.partialSearch c).1
      lastMatched := (x.parser.kmp.partialSearch c).2 },
    x.parser.kmp.i + 1 - (x.parser.kmp.partialSearch c).2, ?_, ?_, rfl, rfl,
    rfl, ⟨htracks, hi.symm, ?_⟩, ?_⟩
  · simp only [StreamParser.trCheck, hresult, decide_false, hadvancement]
    rfl
  · rw [length_pending h]
    exact Nat.sub_le _ _
  · rw [held_eq h, List.drop_drop, hi, List.length_append]
    simp only [List.length_singleton]
    congr 1
    omega
  · rw [held_eq h, passed, passed, hi, List.length_append,
      ← List.take_append_of_le_length (Nat.sub_le _ _), ← List.take_add]
    congr 1
    simp only [List.length_singleton]
    omega

/-- When the delimiter is complete, it is what is held back. -/
theorem trCheck_of_suffix (h : Searches x delim text)
    (hdelim : x.parser.trDelim = delim) {c : UInt8}
    (hsuffix : delim <:+ text ++ [c]) :
    exists p, x.parser.trCheck c = (p, delim.length, true) ∧
      p.state = x.parser.state ∧
      p.preambleDelim = x.parser.preambleDelim ∧
      p.encapsulationDelim = x.parser.encapsulationDelim ∧
      p.kmp.TableFits ∧ x.pending ++ [c] = delim ∧
      x.passed text ++ delim = text ++ [c] := by
  have hfound := KmpSearcher.found_partialSearch h.tracks c
  have hmatched : (x.parser.kmp.partialSearch c).2 = delim.length :=
    longestOverlap_unique hfound.longest
      (longestOverlap_length_iff.mpr hsuffix)
  have hgrow := overlap_le_succ h.tracks.matched hfound.longest.left
  have hlt := h.tracks.matched_lt
  have hlen := hsuffix.length_le
  have hheld : x.pending ++ [c] = delim := by
    rw [held_eq h, List.suffix_iff_eq_drop.mp hsuffix]
    congr 1
    simp only [List.length_append, List.length_singleton] at hlen ⊢
    omega
  refine ⟨{ x.parser with
      kmp := (x.parser.kmp.partialSearch c).1
      lastMatched := (x.parser.kmp.partialSearch c).2 },
    ?_, rfl, rfl, rfl, ?_, hheld, ?_⟩
  · simp only [StreamParser.trCheck, hmatched, hdelim, h.lastMatched_eq]
    have hnext : x.parser.kmp.i + 1 = delim.length := by omega
    simp [hnext]
  · intro _
    rw [hfound.pattern_eq, hfound.table_eq, h.tracks.pattern_eq]
    exact h.tracks.borders
  · rw [← hheld, ← List.append_assoc, h.pending_eq, passed,
      List.take_append_drop]

/-!
## Searching states
-/

/-- The delimiter a state searches for. -/
def delimOf (boundary : Str) : StreamState -> Str
  | StreamState.preamble => opening boundary
  | StreamState.firstMessage => delimiter boundary
  | StreamState.encapsulation => delimiter boundary
  | _ => []

/-- In a searching state, after `text` without the delimiter. -/
structure Inside (x : Scanner) (boundary : Str) (state : StreamState)
    (text : Str) : Prop where
  state_eq : x.parser.state = state
  setUp : x.parser.SetUp boundary
  searches : Searches x (delimOf boundary state) text

variable {boundary : Str} {state : StreamState}

theorem trDelim_eq {p : StreamParser} (h : p.SetUp boundary) :
    p.trDelim = delimOf boundary p.state := by
  unfold StreamParser.trDelim delimOf
  cases p.state <;> simp [h.preambleDelim_eq, h.encapsulationDelim_eq]

/-- The states that `tr_check` is called in. -/
def Searching (boundary : Str) (state : StreamState) : Prop :=
  2 <= (delimOf boundary state).length

theorem searching_preamble (boundary : Str) :
    Searching boundary StreamState.preamble :=
  two_le_length_opening boundary

theorem searching_firstMessage (boundary : Str) :
    Searching boundary StreamState.firstMessage :=
  two_le_length_delimiter boundary

theorem searching_encapsulation (boundary : Str) :
    Searching boundary StreamState.encapsulation :=
  two_le_length_delimiter boundary

theorem state_of_searching (h : Searching boundary state) :
    state = StreamState.preamble ∨ state = StreamState.firstMessage ∨
      state = StreamState.encapsulation := by
  unfold Searching delimOf at h
  cases state <;> simp_all

/-- `tr_init` starts a search with nothing held back. -/
theorem inside_trInit {p : StreamParser} (hs : Searching boundary state)
    (h : p.SetUp boundary) :
    Inside ⟨{ p with state := state }.trInit, []⟩ boundary state [] := by
  have hsetUp : ({ p with state := state } : StreamParser).SetUp boundary :=
    ⟨h.preambleDelim_eq, h.encapsulationDelim_eq, h.tableFits⟩
  have hdelim := trDelim_eq hsetUp
  have htracks := KmpSearcher.tracks_init h.tableFits hs
  constructor
  · rfl
  · exact ⟨h.preambleDelim_eq, h.encapsulationDelim_eq,
      KmpSearcher.tableFits_init h.tableFits _⟩
  · constructor
    · change KmpSearcher.Tracks (p.kmp.init _) _ []
      rw [hdelim]
      exact htracks
    · change 0 = (p.kmp.init _).i
      rw [KmpSearcher.i_init]
    · rw [List.drop_nil]

theorem handleChar_of_searching {p q : StreamParser} {c : UInt8}
    {advancement : Nat} (hs : Searching boundary p.state)
    (h : p.trCheck c = (q, advancement, false)) :
    p.handleChar c = { parser := q, advancement := advancement } := by
  unfold Searching delimOf at hs
  unfold StreamParser.handleChar
  cases hstate : p.state <;> rw [hstate] at hs <;>
    simp_all [StreamParser.inPreamble, StreamParser.inMessage]

/-- Before the delimiter is complete, a byte moves the bytes held back on. -/
theorem scan_free (hs : Searching boundary state)
    (h : Inside x boundary state text) {c : UInt8}
    (hfree : ¬ delimOf boundary state <:+ text ++ [c]) :
    exists y w, x.scan c = some (y, bytes w) ∧
      Inside y boundary state (text ++ [c]) ∧
      x.passed text ++ w = y.passed (text ++ [c]) := by
  rcases h with ⟨rfl, hsetUp, hsearches⟩
  rcases trCheck_of_not_suffix hsearches (trDelim_eq hsetUp) hfree with
    ⟨p, advancement, hcheck, -, hstate, hopening, hencapsulation, hnext,
      hpassed⟩
  refine ⟨⟨p, (x.pending ++ [c]).drop advancement⟩,
    (x.pending ++ [c]).take advancement, ?_, ⟨hstate, ⟨?_, ?_, ?_⟩, hnext⟩,
    hpassed⟩
  · simp [scan, handleChar_of_searching hs hcheck, StreamStep.tokens]
  · rw [hopening, hsetUp.preambleDelim_eq]
  · rw [hencapsulation, hsetUp.encapsulationDelim_eq]
  · exact hnext.tracks.tableFits

theorem scans_free (hs : Searching boundary state) (more : Str) :
    forall (x : Scanner) (text : Str), Inside x boundary state text ->
      ¬ delimOf boundary state <:+: text ++ more ->
      exists y w, Transducer.run scan x more = some (y, bytes w) ∧
        Inside y boundary state (text ++ more) ∧
        x.passed text ++ w = y.passed (text ++ more) := by
  induction more with
  | nil =>
      intro x text h _
      refine ⟨x, [], rfl, ?_, ?_⟩
      · rwa [List.append_nil]
      · rw [List.append_nil, List.append_nil]
  | cons c more ih =>
      intro x text h hfree
      rw [List.append_cons] at hfree ⊢
      have hstep : ¬ delimOf boundary state <:+ text ++ [c] := by
        intro hsuffix
        exact hfree (hsuffix.isInfix.trans (List.prefix_append _ _).isInfix)
      rcases scan_free hs h hstep with ⟨y, w, hscan, hy, hpassed⟩
      rcases ih y (text ++ [c]) hy hfree with ⟨z, v, hrest, hz, hlast⟩
      refine ⟨z, w ++ v, ?_, hz, ?_⟩
      · rw [Transducer.run_cons_of_step hscan, hrest, Option.map_some]
        simp [bytes]
      · rw [← List.append_assoc, hpassed, hlast]

theorem passed_nil (x : Scanner) : x.passed [] = [] := by
  simp [passed]

/-- Up to the byte before the end of the delimiter, exactly the text before it
has been let go. -/
theorem scans_delimits (hs : Searching boundary state)
    (h : Inside x boundary state []) {t : Str}
    (ht : Delimits (delimOf boundary state) t) :
    exists y, Transducer.run scan x (t ++ (delimOf boundary state).dropLast) =
        some (y, bytes t) ∧
      Inside y boundary state (t ++ (delimOf boundary state).dropLast) := by
  rcases scans_free hs (t ++ (delimOf boundary state).dropLast) x [] h ht with
    ⟨y, w, hscan, hy, hpassed⟩
  rw [List.nil_append] at hy hpassed
  have hi : y.parser.kmp.i = (delimOf boundary state).length - 1 :=
    longestOverlap_unique hy.searches.tracks.matched
      (longestOverlap_of_delimits ht)
  have hw : w = t := by
    rw [passed_nil, List.nil_append] at hpassed
    rw [hpassed, passed, hi, List.length_append, List.length_dropLast,
      Nat.add_sub_cancel, List.take_left]
  rw [hw] at hscan
  exact ⟨y, hscan, hy⟩

/-!
## Between the parts
-/

/-- Outside the searching states nothing but a count of bytes is held back. -/
structure Waits (x : Scanner) (boundary : Str) (state : StreamState)
    (held : Str) : Prop where
  state_eq : x.parser.state = state
  setUp : x.parser.SetUp boundary
  pending_eq : x.pending = held

/-- At the first byte the search for the opening line starts. -/
theorem handleChar_of_start {p : StreamParser} {c : UInt8}
    (h : p.state = StreamState.start) : p.handleChar c =
      ({ p with state := StreamState.preamble }.trInit).handleChar c := by
  rw [StreamParser.handleChar, h]
  rfl

theorem handleChar_of_opening {p q : StreamParser} {c : UInt8}
    {advancement : Nat} (hstate : p.state = StreamState.preamble)
    (h : p.trCheck c = (q, advancement, true)) :
    p.handleChar c =
      { parser := { q with state := StreamState.firstMessage }.trInit
        advancement := advancement
        event := StreamEvent.messageBegin } := by
  simp [StreamParser.handleChar, hstate, StreamParser.inPreamble, h]

theorem handleChar_of_end {p q : StreamParser} {c : UInt8} {advancement : Nat}
    (hstate : p.state = StreamState.firstMessage ∨
      p.state = StreamState.encapsulation)
    (h : p.trCheck c = (q, advancement, true)) :
    p.handleChar c =
      { parser := { q with state := StreamState.maybeEndOrEncapsulation }
        advancement := advancement
        event := StreamEvent.messageEnd } := by
  rcases hstate with hstate | hstate <;>
    simp [StreamParser.handleChar, hstate, StreamParser.inMessage, h]

theorem scan_opening {text : Str}
    (h : Inside x boundary StreamState.preamble text) {c : UInt8}
    (hsuffix : opening boundary <:+ text ++ [c]) :
    exists y, x.scan c = some (y, bytes (opening boundary) ++
        [Token.messageBegin]) ∧
      Inside y boundary StreamState.firstMessage [] := by
  rcases h with ⟨hstate, hsetUp, hsearches⟩
  have hdelim := trDelim_eq hsetUp
  rw [hstate] at hdelim
  rcases trCheck_of_suffix hsearches hdelim hsuffix with
    ⟨p, hcheck, -, hopening, hencapsulation, hfits, hheld, -⟩
  have hp : p.SetUp boundary :=
    ⟨hopening.trans hsetUp.preambleDelim_eq,
      hencapsulation.trans hsetUp.encapsulationDelim_eq, hfits⟩
  refine ⟨_, ?_, inside_trInit (searching_firstMessage boundary) hp⟩
  simp [scan, handleChar_of_opening hstate hcheck, StreamStep.tokens, hheld,
    delimOf]

theorem scan_end {text : Str} (hstate : state = StreamState.firstMessage ∨
      state = StreamState.encapsulation)
    (h : Inside x boundary state text) {c : UInt8}
    (hsuffix : delimiter boundary <:+ text ++ [c]) :
    exists y, x.scan c = some (y, Token.messageEnd ::
        bytes (delimiter boundary)) ∧
      Waits y boundary StreamState.maybeEndOrEncapsulation [] := by
  rcases h with ⟨rfl, hsetUp, hsearches⟩
  have hof : delimOf boundary x.parser.state = delimiter boundary := by
    rcases hstate with h | h <;> rw [h, delimOf]
  have hdelim := trDelim_eq hsetUp
  rw [hof] at hdelim hsearches
  rcases trCheck_of_suffix hsearches hdelim hsuffix with
    ⟨p, hcheck, -, hopening, hencapsulation, hfits, hheld, -⟩
  refine ⟨⟨{ p with state := StreamState.maybeEndOrEncapsulation }, []⟩, ?_,
    rfl, ⟨hopening.trans hsetUp.preambleDelim_eq,
      hencapsulation.trans hsetUp.encapsulationDelim_eq, hfits⟩, rfl⟩
  simp [scan, handleChar_of_end hstate hcheck, StreamStep.tokens, hheld]

/-- A part from its first byte to the end of its delimiter. -/
theorem scans_part (hstate : state = StreamState.firstMessage ∨
      state = StreamState.encapsulation)
    (h : Inside x boundary state []) {t : Str}
    (ht : Delimits (delimiter boundary) t) :
    exists y, Transducer.run scan x (t ++ delimiter boundary) =
        some (y, bytes t ++ Token.messageEnd :: bytes (delimiter boundary)) ∧
      Waits y boundary StreamState.maybeEndOrEncapsulation [] := by
  have hof : delimOf boundary state = delimiter boundary := by
    rcases hstate with h | h <;> rw [h, delimOf]
  have hs : Searching boundary state := by
    rw [Searching, hof]
    exact two_le_length_delimiter boundary
  rw [← hof] at ht
  rcases scans_delimits hs h ht with ⟨y, hscan, hy⟩
  have hne := delimiter_ne_nil boundary
  have hlast := List.dropLast_append_getLast hne
  have hsuffix : delimiter boundary <:+ t ++ (delimOf boundary state).dropLast
      ++ [(delimiter boundary).getLast hne] := by
    rw [hof, List.append_assoc, hlast]
    exact List.suffix_append t _
  rcases scan_end hstate hy hsuffix with ⟨z, hend, hz⟩
  refine ⟨z, ?_, hz⟩
  have hall := Transducer.run_append hscan (Transducer.run_singleton hend)
  rwa [hof, List.append_assoc, hlast] at hall

/-- The preamble and the line that opens the first part. -/
theorem scans_opening (h : Inside x boundary StreamState.preamble [])
    {t : Str} (ht : Delimits (opening boundary) t) :
    exists y, Transducer.run scan x (t ++ opening boundary) =
        some (y, bytes (t ++ opening boundary) ++ [Token.messageBegin]) ∧
      Inside y boundary StreamState.firstMessage [] := by
  rcases scans_delimits (searching_preamble boundary) h ht with
    ⟨y, hscan, hy⟩
  have hne := opening_ne_nil boundary
  have hlast := List.dropLast_append_getLast hne
  have hsuffix : opening boundary <:+ t ++ (opening boundary).dropLast
      ++ [(opening boundary).getLast hne] := by
    rw [List.append_assoc, hlast]
    exact List.suffix_append t _
  rcases scan_opening hy hsuffix with ⟨z, hend, hz⟩
  refine ⟨z, ?_, hz⟩
  have hall := Transducer.run_append hscan (Transducer.run_singleton hend)
  rw [delimOf, List.append_assoc, hlast] at hall
  rw [hall]
  simp [bytes]

theorem scans_next
    (h : Waits x boundary StreamState.maybeEndOrEncapsulation []) :
    exists y, Transducer.run scan x (str "\r\n") =
        some (y, bytes (str "\r\n") ++ [Token.messageBegin]) ∧
      Inside y boundary StreamState.encapsulation [] := by
  rcases x with ⟨p, pending⟩
  rcases h with ⟨hstate, hsetUp, hpending⟩
  change pending = [] at hpending
  change p.state = _ at hstate
  refine ⟨_, ?_, inside_trInit (searching_encapsulation boundary) hsetUp⟩
  have hcrlf : str "\r\n" = [chr '\r', chr '\n'] := rfl
  have hne : ¬ chr '\r' = chr '-' := by decide
  simp [hcrlf, hne, Transducer.run_cons, scan, StreamParser.handleChar, hstate, hpending,
    StreamStep.tokens, bytes]

theorem scans_close
    (h : Waits x boundary StreamState.maybeEndOrEncapsulation []) :
    exists y, Transducer.run scan x (str "--") = some (y, bytes (str "--")) ∧
      Waits y boundary StreamState.epilogue [] := by
  rcases x with ⟨p, pending⟩
  rcases h with ⟨hstate, hsetUp, hpending⟩
  change pending = [] at hpending
  change p.state = _ at hstate
  refine ⟨⟨{ p with state := StreamState.epilogue }, []⟩, ?_, rfl,
    ⟨hsetUp.preambleDelim_eq, hsetUp.encapsulationDelim_eq,
      hsetUp.tableFits⟩, rfl⟩
  have hdashes : str "--" = [chr '-', chr '-'] := rfl
  simp [hdashes, Transducer.run_cons, scan, StreamParser.handleChar, hstate, hpending,
    StreamStep.tokens, bytes]

theorem scans_epilogue (rest : Str)
    (h : Waits x boundary StreamState.epilogue []) :
    Transducer.run scan x rest = some (x, bytes rest) := by
  rcases x with ⟨p, pending⟩
  rcases h with ⟨hstate, -, hpending⟩
  change pending = [] at hpending
  change p.state = _ at hstate
  subst hpending
  induction rest with
  | nil => rfl
  | cons c rest ih =>
      rw [Transducer.run_cons]
      simp [scan, StreamParser.handleChar, hstate, StreamStep.tokens, ih, bytes]

/-!
## The bytes held back
-/

/-- The states a scan goes through, with how many bytes each holds back. -/
inductive Sound (boundary : Str) : Scanner -> Prop where
  | start {p : StreamParser} : p.state = StreamState.start ->
      p.SetUp boundary -> Sound boundary ⟨p, []⟩
  | inside {x : Scanner} {state : StreamState} {text : Str} :
      Searching boundary state -> Inside x boundary state text ->
      Sound boundary x
  | waits {x : Scanner} {state : StreamState} {held : Str} :
      Waits x boundary state held ->
      (state = StreamState.maybeEndOrEncapsulation ∧ held = []) ∨
        (state = StreamState.maybeEnd ∧ held.length = 1) ∨
        (state = StreamState.maybeEncapsulation ∧ held.length = 1) ∨
        (state = StreamState.epilogue ∧ held = []) ->
      Sound boundary x

theorem sound_start (boundary : Str) : Sound boundary (start boundary) :=
  Sound.start rfl (setUp_init boundary)

/-- The parser never lets go more than there is, and stays sound. -/
def Steps (boundary : Str) (x : Scanner) (c : UInt8) : Prop :=
  (x.parser.handleChar c).failed = false ->
    (x.parser.handleChar c).advancement <= x.pending.length + 1 ∧
      Sound boundary ⟨(x.parser.handleChar c).parser,
        (x.pending ++ [c]).drop (x.parser.handleChar c).advancement⟩

theorem steps_inside (hs : Searching boundary state) {text : Str}
    (h : Inside x boundary state text) (c : UInt8) : Steps boundary x c := by
  rcases h with ⟨rfl, hsetUp, hsearches⟩
  have hdelim := trDelim_eq hsetUp
  intro _
  by_cases hsuffix : delimOf boundary x.parser.state <:+ text ++ [c]
  · rcases trCheck_of_suffix hsearches hdelim hsuffix with
      ⟨p, hcheck, -, hopening, hencapsulation, hfits, hheld, -⟩
    have hp : p.SetUp boundary :=
      ⟨hopening.trans hsetUp.preambleDelim_eq,
        hencapsulation.trans hsetUp.encapsulationDelim_eq, hfits⟩
    have hlen : (delimOf boundary x.parser.state).length =
        x.pending.length + 1 := by
      rw [← hheld]
      simp
    have hdrop : (x.pending ++ [c]).drop
        (delimOf boundary x.parser.state).length = [] := by
      rw [hheld, List.drop_length]
    rcases state_of_searching hs with hstate | hstate
    · rw [handleChar_of_opening hstate hcheck]
      refine ⟨hlen.le, ?_⟩
      rw [hdrop]
      exact Sound.inside (searching_firstMessage boundary)
        (inside_trInit (searching_firstMessage boundary) hp)
    · rw [handleChar_of_end hstate hcheck]
      refine ⟨hlen.le, ?_⟩
      rw [hdrop]
      exact Sound.waits (Waits.mk rfl ⟨hp.preambleDelim_eq,
        hp.encapsulationDelim_eq, hp.tableFits⟩ rfl) (Or.inl ⟨rfl, rfl⟩)
  · rcases trCheck_of_not_suffix hsearches hdelim hsuffix with
      ⟨p, advancement, hcheck, hadv, hstate, hopening, hencapsulation, hnext, -⟩
    rw [handleChar_of_searching hs hcheck]
    refine ⟨hadv, ?_⟩
    refine Sound.inside hs (Inside.mk hstate ⟨?_, ?_, ?_⟩ hnext)
    · exact hopening.trans hsetUp.preambleDelim_eq
    · exact hencapsulation.trans hsetUp.encapsulationDelim_eq
    · exact hnext.tracks.tableFits

theorem steps_of_sound (h : Sound boundary x) (c : UInt8) :
    Steps boundary x c := by
  cases h with
  | @start p hstate hsetUp =>
      have hinside := inside_trInit (searching_preamble boundary) hsetUp
      have hsteps := steps_inside (searching_preamble boundary) hinside c
      rw [Steps, handleChar_of_start hstate]
      exact hsteps
  | inside hs hinside => exact steps_inside hs hinside c
  | @waits x state held hwaits hcases =>
      rcases x with ⟨p, pending⟩
      rcases hwaits with ⟨hstate, hsetUp, hpending⟩
      change p.state = state at hstate
      change pending = held at hpending
      subst hpending
      have hkept : forall s, StreamParser.SetUp { p with state := s } boundary :=
        fun s => ⟨hsetUp.preambleDelim_eq, hsetUp.encapsulationDelim_eq,
          hsetUp.tableFits⟩
      intro hok
      rcases hcases with ⟨rfl, rfl⟩ | ⟨rfl, hlen⟩ | ⟨rfl, hlen⟩ | ⟨rfl, rfl⟩
      · rw [StreamParser.handleChar] at hok ⊢
        simp only [hstate] at hok ⊢
        by_cases hdash : c = chr '-'
        · rw [if_pos hdash]
          exact ⟨Nat.zero_le _, Sound.waits (Waits.mk rfl (hkept _) rfl)
            (Or.inr (Or.inl ⟨rfl, rfl⟩))⟩
        · rw [if_neg hdash] at hok ⊢
          by_cases hcr : c = chr '\r'
          · rw [if_pos hcr]
            exact ⟨Nat.zero_le _, Sound.waits (Waits.mk rfl (hkept _) rfl)
              (Or.inr (Or.inr (Or.inl ⟨rfl, rfl⟩)))⟩
          · rw [if_neg hcr] at hok
            cases hok
      · rw [StreamParser.handleChar] at hok ⊢
        simp only [hstate] at hok ⊢
        by_cases hdash : c = chr '-'
        · rw [if_pos hdash]
          refine ⟨by change 2 <= pending.length + 1; omega, ?_⟩
          refine Sound.waits (Waits.mk rfl (hkept _) ?_)
            (Or.inr (Or.inr (Or.inr ⟨rfl, rfl⟩)))
          apply List.drop_eq_nil_of_le
          simp [hlen]
        · rw [if_neg hdash] at hok
          cases hok
      · rw [StreamParser.handleChar] at hok ⊢
        simp only [hstate] at hok ⊢
        by_cases hnl : c = chr '\n'
        · rw [if_pos hnl]
          refine ⟨by change 2 <= pending.length + 1; omega, ?_⟩
          have hdrop : (pending ++ [c]).drop 2 = [] := by
            apply List.drop_eq_nil_of_le
            simp [hlen]
          change Sound boundary ⟨_, (pending ++ [c]).drop 2⟩
          rw [hdrop]
          exact Sound.inside (searching_encapsulation boundary)
            (inside_trInit (searching_encapsulation boundary) hsetUp)
        · rw [if_neg hnl] at hok
          cases hok
      · rw [StreamParser.handleChar]
        simp only [hstate]
        exact ⟨le_rfl, Sound.waits (Waits.mk hstate hsetUp rfl)
          (Or.inr (Or.inr (Or.inr ⟨rfl, rfl⟩)))⟩

/-- As many bytes are held back as by a sound scanner with the same parser,
whatever they are. -/
def Sized (boundary : Str) (x : Scanner) : Prop :=
  exists y, Sound boundary y ∧ y.parser = x.parser ∧
    y.pending.length = x.pending.length

theorem sized_of_sound (h : Sound boundary x) : Sized boundary x :=
  ⟨x, h, rfl, rfl⟩

theorem steps_of_sized (h : Sized boundary x) (c : UInt8)
    (hok : (x.parser.handleChar c).failed = false) :
    (x.parser.handleChar c).advancement <= x.pending.length + 1 ∧
      Sized boundary ⟨(x.parser.handleChar c).parser,
        (x.pending ++ [c]).drop (x.parser.handleChar c).advancement⟩ := by
  rcases h with ⟨y, hsound, hparser, hlength⟩
  have hsteps := steps_of_sound hsound c
  rw [Steps, hparser] at hsteps
  rcases hsteps hok with ⟨hadv, hnext⟩
  constructor
  · rw [← hlength]
    exact hadv
  · refine ⟨_, hnext, rfl, ?_⟩
    simp only [List.length_drop, List.length_append, hlength]

end Scanner

end Multipart
end CisWebui
