import CisWebui.Multipart.Ledger
import CisWebui.Multipart.MachineSearcher

/-!
# The stream parser in machine words

`multipart_stream_parser` with the types it has: the advancement is the difference of two
`size_t`, and the searcher under it is the one in words.  A call is a relation, as the
searcher may not come back.

The parser in words follows the one in numbers, and so its ledger is the same.
-/

namespace CisWebui
namespace Multipart

open Cpp Foundation

structure MachineParser where
  state : StreamState := StreamState.start
  kmp : MachineSearcher
  preambleDelim : Str := []
  encapsulationDelim : Str := []
  lastMatched : UInt64 := 0
deriving DecidableEq, Repr

/-- What `handle_char` returns, and whether it has assigned an error. -/
structure MachineStep where
  parser : MachineParser
  advancement : UInt64 := 0
  event : StreamEvent := StreamEvent.none
  failed : Bool := false
deriving DecidableEq, Repr

namespace MachineParser

def init (p : MachineParser) (boundary : Str) : MachineParser :=
  { p with
    preambleDelim := p.preambleDelim ++ str "--" ++ boundary ++ str "\r\n"
    encapsulationDelim :=
      p.encapsulationDelim ++ str "\r\n" ++ str "--" ++ boundary }

/-- `tr_delim`, which is asked for in the three searching states only. -/
def trDelim (p : MachineParser) : Str :=
  match p.state with
  | StreamState.preamble => p.preambleDelim
  | StreamState.firstMessage => p.encapsulationDelim
  | StreamState.encapsulation => p.encapsulationDelim
  | _ => []

/-- `tr_init` comes back. -/
def TrInits (p next : MachineParser) : Prop :=
  exists kmp, p.kmp.Inits p.trDelim kmp ∧ next = { p with lastMatched := 0, kmp := kmp }

/-- `tr_check` behind the call of the searcher: the advancement, and whether the delimiter
is complete. -/
def trChecked (p : MachineParser) (found : MachineSearcher × UInt64) :
    MachineParser × UInt64 × Bool :=
  let matched := found.2
  let result := decide (matched = UInt64.ofNat p.trDelim.length)
  let passed := if p.lastMatched + 1 = matched then 0 else p.lastMatched + 1 - matched
  let advancement := passed + if result then UInt64.ofNat p.trDelim.length else 0
  ({ p with kmp := found.1, lastMatched := matched }, advancement, result)

/-- `tr_check` comes back. -/
def TrChecks (p : MachineParser) (c : UInt8) (checked : MachineParser × UInt64 × Bool) :
    Prop :=
  exists found, p.kmp.PartialSearches c found ∧ checked = p.trChecked found

/-- The case `preamble`, which the case `start` falls through to. -/
def InPreamble (p : MachineParser) (c : UInt8) (step : MachineStep) : Prop :=
  exists checked, p.TrChecks c checked ∧
    if checked.2.2 then
      exists next, ({ checked.1 with state := StreamState.firstMessage }).TrInits next ∧
        step =
          { parser := next
            advancement := checked.2.1
            event := StreamEvent.messageBegin }
    else
      step = { parser := checked.1, advancement := checked.2.1 }

/-- The cases `first_message` and `encapsulation`. -/
def InMessage (p : MachineParser) (c : UInt8) (step : MachineStep) : Prop :=
  exists checked, p.TrChecks c checked ∧
    if checked.2.2 then
      step =
        { parser := { checked.1 with state := StreamState.maybeEndOrEncapsulation }
          advancement := checked.2.1
          event := StreamEvent.messageEnd }
    else
      step = { parser := checked.1, advancement := checked.2.1 }

/-- `handle_char` comes back. -/
def HandlesChar (p : MachineParser) (c : UInt8) (step : MachineStep) : Prop :=
  match p.state with
  | StreamState.start =>
      exists next, ({ p with state := StreamState.preamble }).TrInits next ∧
        next.InPreamble c step
  | StreamState.preamble => p.InPreamble c step
  | StreamState.firstMessage => p.InMessage c step
  | StreamState.encapsulation => p.InMessage c step
  | StreamState.maybeEndOrEncapsulation =>
      step =
        if c = chr '-' then
          { parser := { p with state := StreamState.maybeEnd } }
        else if c = chr '\r' then
          { parser := { p with state := StreamState.maybeEncapsulation } }
        else
          { parser := p, failed := true }
  | StreamState.maybeEnd =>
      step =
        if c = chr '-' then
          { parser := { p with state := StreamState.epilogue }, advancement := 2 }
        else
          { parser := p, failed := true }
  | StreamState.maybeEncapsulation =>
      if c = chr '\n' then
        exists next, ({ p with state := StreamState.encapsulation }).TrInits next ∧
          step =
            { parser := next, advancement := 2, event := StreamEvent.messageBegin }
      else
        step = { parser := p, failed := true }
  | StreamState.epilogue => step = { parser := p, advancement := 1 }

/-- The parser that `tr_check` is called for. -/
def Asks (p asked : MachineParser) : Prop :=
  match p.state with
  | StreamState.start => ({ p with state := StreamState.preamble }).TrInits asked
  | StreamState.preamble => asked = p
  | StreamState.firstMessage => asked = p
  | StreamState.encapsulation => asked = p
  | _ => False

/-- The calls for the bytes of a text all come back without an error, with these
advancements. -/
def HandlesAll : MachineParser -> Str -> List UInt64 -> MachineParser -> Prop
  | p, [], advancements, last => advancements = [] ∧ last = p
  | p, c :: rest, advancements, last =>
      exists step more, p.HandlesChar c step ∧ step.failed = false ∧
        step.parser.HandlesAll rest more last ∧ advancements = step.advancement :: more

/-- A parser that has been constructed, with the searcher's numbers not initialized, and
set up for a boundary. -/
def fresh (m i : UInt64) (boundary : Str) : MachineParser :=
  ({ kmp := { m := m, i := i } } : MachineParser).init boundary

def total (advancements : List UInt64) : Nat :=
  (advancements.map UInt64.toNat).sum

/-- The ledger behind a text. -/
structure Balanced (boundary text : Str) (advancements : List UInt64) (p : MachineParser) :
    Prop where
  le : total advancements <= text.length
  held : text.length - total advancements = p.state.heldBack p.lastMatched.toNat
  noWrap : forall c asked found, p.Asks asked -> asked.kmp.PartialSearches c found ->
    found.2.toNat <= asked.lastMatched.toNat + 1 ∧ asked.lastMatched.toNat + 1 < 2 ^ 64
  ends : forall c step, p.HandlesChar c step -> step.event = StreamEvent.messageEnd ->
    step.advancement.toNat = (delimiter boundary).length ∧
      text ++ [c] = text.take (total advancements) ++ delimiter boundary

/-!
## The searcher
-/

section Searcher

variable {s s' : MachineSearcher} {t : KmpSearcher} {pattern : Str}

theorem refines_of_inits (hpattern : s.pattern = t.pattern) (htable : s.table = t.table)
    (h : s.Inits pattern s') : s'.Refines (t.init pattern) := by
  rcases h with ⟨hlen, h⟩
  by_cases heq : pattern = s.pattern
  · rw [if_pos heq] at h
    subst h
    rw [KmpSearcher.init, if_pos (heq.trans hpattern)]
    exact ⟨rfl, rfl, hpattern, htable⟩
  · rw [if_neg heq] at h
    rcases h with ⟨table, hbuilds, rfl⟩
    have hsize := MachineSearcher.lt_of_buildsTable hbuilds
    have htable := Loop.returns_unique hbuilds
      (MachineSearcher.buildsTable_of_lt hlen hsize)
    rw [hpattern] at heq
    rw [KmpSearcher.init, if_neg heq]
    exact ⟨rfl, rfl, rfl, Option.some.inj htable⟩

theorem exists_inits (s : MachineSearcher) (hlen : 2 <= pattern.length)
    (hsize : pattern.length < 2 ^ 31) : exists s', s.Inits pattern s' := by
  by_cases heq : pattern = s.pattern
  · refine ⟨s.reset, hlen, ?_⟩
    rw [if_pos heq]
  · refine ⟨({ s with
      pattern := pattern
      table := KmpSearcher.buildTable pattern } : MachineSearcher).reset, hlen, ?_⟩
    rw [if_neg heq]
    exact ⟨_, MachineSearcher.buildsTable_of_lt hlen hsize, rfl⟩

end Searcher

/-!
## Following the parser in numbers
-/

/-- The parser in words stands for the one in numbers.  Before the first byte the numbers
of its searcher are anything. -/
structure Follows (p : MachineParser) (q : StreamParser) : Prop where
  state_eq : p.state = q.state
  preambleDelim_eq : p.preambleDelim = q.preambleDelim
  encapsulationDelim_eq : p.encapsulationDelim = q.encapsulationDelim
  lastMatched_eq : p.lastMatched = UInt64.ofNat q.lastMatched
  pattern_eq : p.kmp.pattern = q.kmp.pattern
  table_eq : p.kmp.table = q.kmp.table
  reachable : p.kmp.Reachable
  refines : ¬ p.state = StreamState.start -> p.kmp.Refines q.kmp

theorem follows_fresh (m i : UInt64) (boundary : Str) :
    (fresh m i boundary).Follows (StreamParser.init {} boundary) where
  state_eq := rfl
  preambleDelim_eq := rfl
  encapsulationDelim_eq := rfl
  lastMatched_eq := rfl
  pattern_eq := rfl
  table_eq := rfl
  reachable := MachineSearcher.Reachable.constructed m i
  refines := fun hstate => absurd rfl hstate

section Follows

variable {p next : MachineParser} {q : StreamParser} {c : UInt8} {boundary : Str}

theorem Follows.trDelim_at (h : p.Follows q) (state : StreamState) :
    ({ p with state := state } : MachineParser).trDelim =
      ({ q with state := state } : StreamParser).trDelim := by
  unfold trDelim StreamParser.trDelim
  cases state with
  | preamble => exact h.preambleDelim_eq
  | firstMessage => exact h.encapsulationDelim_eq
  | encapsulation => exact h.encapsulationDelim_eq
  | _ => rfl

theorem Follows.trDelim_eq (h : p.Follows q) : p.trDelim = q.trDelim := by
  have hdelim := h.trDelim_at p.state
  rw [h.state_eq] at hdelim
  have hp : ({ p with state := q.state } : MachineParser) = p := by
    rw [← h.state_eq]
  rw [hp] at hdelim
  exact hdelim

theorem Follows.setState (h : p.Follows q) (hstart : ¬ p.state = StreamState.start)
    (state : StreamState) :
    Follows { p with state := state } { q with state := state } :=
  ⟨rfl, h.preambleDelim_eq, h.encapsulationDelim_eq, h.lastMatched_eq, h.pattern_eq,
    h.table_eq, h.reachable, fun _ => h.refines hstart⟩

/-- A search in words starts where the one in numbers does. -/
theorem follows_trInit (h : p.Follows q) (state : StreamState)
    (hinits : ({ p with state := state }).TrInits next) :
    next.Follows ({ q with state := state } : StreamParser).trInit := by
  rcases hinits with ⟨kmp, hkmp, rfl⟩
  rw [h.trDelim_at state] at hkmp
  have hrefines := refines_of_inits h.pattern_eq h.table_eq hkmp
  exact ⟨rfl, h.preambleDelim_eq, h.encapsulationDelim_eq, rfl, hrefines.pattern,
    hrefines.table, h.reachable.init hkmp, fun _ => hrefines⟩

/-- The unsigned difference of two overlaps is their difference. -/
theorem toNat_passed {matched : UInt64} {last k : Nat} (hlast : last + 1 < 2 ^ 64)
    (hmatched : matched.toNat = k) (hle : k <= last + 1) :
    (if UInt64.ofNat last + 1 = matched then 0 else UInt64.ofNat last + 1 - matched).toNat =
      if last + 1 = k then 0 else last + 1 - k := by
  have hsum : (UInt64.ofNat last + 1).toNat = last + 1 := by
    rw [UInt64.toNat_add, UInt64.toNat_ofNat_of_lt' (Nat.lt_of_succ_lt hlast),
      UInt64.toNat_one, Nat.mod_eq_of_lt hlast]
  have hiff : UInt64.ofNat last + 1 = matched <-> last + 1 = k := by
    rw [← UInt64.toNat_inj, hsum, hmatched]
  by_cases heq : last + 1 = k
  · rw [if_pos (hiff.mpr heq), if_pos heq]
    rfl
  · rw [if_neg (fun h => heq (hiff.mp h)), if_neg heq, UInt64.toNat_sub_of_le, hsum, hmatched]
    rw [UInt64.le_iff_toNat_le, hsum, hmatched]
    exact hle

end Follows

/-!
## In a search
-/

section Searches

open Scanner

variable {p next : MachineParser} {q : StreamParser} {c : UInt8} {boundary pending text : Str}
  {state : StreamState} {step : MachineStep}

theorem not_start_of_inside (hs : Searching boundary state) (h : p.Follows q)
    (hinside : Inside ⟨q, pending⟩ boundary state text) : ¬ p.state = StreamState.start := by
  have hstate : q.state = state := hinside.state_eq
  rw [h.state_eq, hstate]
  rcases state_of_searching hs with rfl | rfl | rfl <;> decide

/-- In a search, the delimiter and what has matched of it have their lengths in words. -/
theorem short_of_inside (hs : Searching boundary state) (h : p.Follows q)
    (hinside : Inside ⟨q, pending⟩ boundary state text) :
    (delimOf boundary state).length < 2 ^ 31 ∧
      q.lastMatched < (delimOf boundary state).length := by
  have htracks : q.kmp.Tracks (delimOf boundary state) text := hinside.searches.tracks
  have hlast : q.lastMatched = q.kmp.i := hinside.searches.lastMatched_eq
  have hpattern := h.pattern_eq.trans htracks.pattern_eq
  rw [hlast]
  refine ⟨?_, htracks.matched_lt⟩
  rw [← hpattern]
  exact (MachineSearcher.wellBuilt_of_reachable h.reachable (hpattern ▸ hs)).short

theorem toNat_lastMatched (hs : Searching boundary state) (h : p.Follows q)
    (hinside : Inside ⟨q, pending⟩ boundary state text) :
    p.lastMatched.toNat = q.lastMatched := by
  rcases short_of_inside hs h hinside with ⟨hsize, hlt⟩
  rw [h.lastMatched_eq, UInt64.toNat_ofNat_of_lt']
  exact Nat.lt_trans (Nat.lt_trans hlt hsize) (by decide)

/-- A call of the searcher comes back, and with what it gives in numbers. -/
theorem exists_partialSearches (hs : Searching boundary state) (h : p.Follows q)
    (hinside : Inside ⟨q, pending⟩ boundary state text) (c : UInt8) :
    exists found, p.kmp.PartialSearches c found ∧
      found.1.Refines (q.kmp.partialSearch c).1 ∧
        found.2.toNat = (q.kmp.partialSearch c).2 :=
  MachineSearcher.partialSearches_of_tracks (h.refines (not_start_of_inside hs h hinside))
    hinside.searches.tracks (short_of_inside hs h hinside).left c

/-- The subtraction of `tr_check` does not wrap around. -/
theorem le_of_inside (hs : Searching boundary state) (h : p.Follows q)
    (hinside : Inside ⟨q, pending⟩ boundary state text) {found : MachineSearcher × UInt64}
    (hfound : p.kmp.PartialSearches c found) :
    found.2.toNat <= p.lastMatched.toNat + 1 ∧ p.lastMatched.toNat + 1 < 2 ^ 64 := by
  rcases short_of_inside hs h hinside with ⟨hsize, hlt⟩
  rcases exists_partialSearches hs h hinside c with ⟨result, hresult, -, hnumber⟩
  rw [Loop.returns_unique hfound hresult, hnumber, toNat_lastMatched hs h hinside]
  refine ⟨matched_le hinside.searches c, ?_⟩
  omega

/-- What `tr_check` gives in words is what it gives in numbers. -/
theorem follows_trCheck (hs : Searching boundary state) (h : p.Follows q)
    (hinside : Inside ⟨q, pending⟩ boundary state text)
    {checked : MachineParser × UInt64 × Bool} (hchecks : p.TrChecks c checked) :
    checked.1.Follows (q.trCheck c).1 ∧ checked.2.1.toNat = (q.trCheck c).2.1 ∧
      checked.2.2 = (q.trCheck c).2.2 := by
  rcases hchecks with ⟨found, hfound, rfl⟩
  rcases short_of_inside hs h hinside with ⟨hsize, hlt⟩
  rcases exists_partialSearches hs h hinside c with ⟨result, hresult, hrefines, hnumber⟩
  have hsame : found = result := Loop.returns_unique hfound hresult
  subst hsame
  have hle := matched_le hinside.searches c
  change (q.kmp.partialSearch c).2 <= q.lastMatched + 1 at hle
  have hstate : q.state = state := hinside.state_eq
  have hdelim : q.trDelim = delimOf boundary state := by
    rw [← hstate]
    exact trDelim_eq hinside.setUp
  have hlength : (UInt64.ofNat q.trDelim.length).toNat = q.trDelim.length := by
    rw [hdelim]
    exact UInt64.toNat_ofNat_of_lt' (Nat.lt_trans hsize (by decide))
  have hpassed := toNat_passed (by omega) hnumber hle
  have hdone : decide (found.2 = UInt64.ofNat q.trDelim.length) =
      decide ((q.kmp.partialSearch c).2 = q.trDelim.length) := by
    rw [decide_eq_decide, ← UInt64.toNat_inj, hnumber, hlength]
  have htrDelim := h.trDelim_eq
  refine ⟨⟨h.state_eq, h.preambleDelim_eq, h.encapsulationDelim_eq, ?_, hrefines.pattern,
      hrefines.table, h.reachable.search hfound, fun _ => hrefines⟩, ?_, ?_⟩
  · change found.2 = UInt64.ofNat (q.kmp.partialSearch c).2
    rw [← hnumber, UInt64.ofNat_toNat]
  · unfold trChecked StreamParser.trCheck
    dsimp only
    rw [htrDelim, hdone, h.lastMatched_eq, UInt64.toNat_add, hpassed]
    have hbound : (if q.lastMatched + 1 = (q.kmp.partialSearch c).2 then 0
        else q.lastMatched + 1 - (q.kmp.partialSearch c).2) <= 2 ^ 31 := by
      split <;> omega
    by_cases hfull : (q.kmp.partialSearch c).2 = q.trDelim.length
    · rw [decide_eq_true hfull, if_pos rfl, if_pos rfl, hlength]
      exact Nat.mod_eq_of_lt (by rw [hdelim]; omega)
    · rw [decide_eq_false hfull, if_neg Bool.false_ne_true, if_neg Bool.false_ne_true,
        UInt64.toNat_zero]
      exact Nat.mod_eq_of_lt (by omega)
  · unfold trChecked
    dsimp only
    rw [htrDelim]
    exact hdone

/-!
## One call
-/

/-- A call gives in words what it gives in numbers. -/
structure SameStep (step : MachineStep) (step' : StreamStep) : Prop where
  parser : step.parser.Follows step'.parser
  advancement : step.advancement.toNat = step'.advancement
  event : step.event = step'.event
  failed : step.failed = step'.failed

theorem sameStep_inPreamble (h : p.Follows q)
    (hinside : Inside ⟨q, pending⟩ boundary StreamState.preamble text)
    (hstep : p.InPreamble c step) : SameStep step (q.inPreamble c) := by
  rcases hstep with ⟨checked, hchecks, hstep⟩
  rcases follows_trCheck (searching_preamble boundary) h hinside hchecks with
    ⟨hfollows, hadvancement, hdone⟩
  unfold StreamParser.inPreamble
  dsimp only
  rw [← hdone]
  cases hresult : checked.2.2 with
  | true =>
      rw [hresult, if_pos rfl] at hstep
      rcases hstep with ⟨next, hinits, rfl⟩
      exact ⟨follows_trInit hfollows _ hinits, hadvancement, rfl, rfl⟩
  | false =>
      rw [hresult, if_neg Bool.false_ne_true] at hstep
      subst hstep
      exact ⟨hfollows, hadvancement, rfl, rfl⟩

theorem sameStep_inMessage (hs : Searching boundary state) (h : p.Follows q)
    (hinside : Inside ⟨q, pending⟩ boundary state text) (hstep : p.InMessage c step) :
    SameStep step (q.inMessage c) := by
  rcases hstep with ⟨checked, hchecks, hstep⟩
  rcases follows_trCheck hs h hinside hchecks with ⟨hfollows, hadvancement, hdone⟩
  have hstart := not_start_of_inside hs h hinside
  have hafter : ¬ checked.1.state = StreamState.start := by
    rcases hchecks with ⟨found, -, rfl⟩
    exact hstart
  unfold StreamParser.inMessage
  dsimp only
  rw [← hdone]
  cases hresult : checked.2.2 with
  | true =>
      rw [hresult, if_pos rfl] at hstep
      subst hstep
      exact ⟨hfollows.setState hafter _, hadvancement, rfl, rfl⟩
  | false =>
      rw [hresult, if_neg Bool.false_ne_true] at hstep
      subst hstep
      exact ⟨hfollows, hadvancement, rfl, rfl⟩

/-- Without a search a call only sets the state. -/
theorem sameStep_handlesChar (h : p.Follows q) (hsound : Sound boundary ⟨q, pending⟩)
    (hstep : p.HandlesChar c step) : SameStep step (q.handleChar c) := by
  cases hsound with
  | start hstate hsetUp =>
      rw [HandlesChar, h.state_eq, hstate] at hstep
      rcases hstep with ⟨next, hinits, hstep⟩
      rw [StreamParser.handleChar, hstate]
      exact sameStep_inPreamble (follows_trInit h _ hinits)
        (inside_trInit (searching_preamble boundary) hsetUp) hstep
  | @inside x state text hs hinside =>
      have hstate : q.state = state := hinside.state_eq
      rw [HandlesChar, h.state_eq, hstate] at hstep
      rw [StreamParser.handleChar, hstate]
      rcases state_of_searching hs with rfl | rfl | rfl
      · exact sameStep_inPreamble h hinside hstep
      · exact sameStep_inMessage hs h hinside hstep
      · exact sameStep_inMessage hs h hinside hstep
  | @waits x state held hwaits hcases =>
      have hstate : q.state = state := hwaits.state_eq
      have hpstate : p.state = state := h.state_eq.trans hstate
      have hstart : ¬ p.state = StreamState.start := by
        rw [hpstate]
        rcases hcases with ⟨rfl, -⟩ | ⟨rfl, -⟩ | ⟨rfl, -⟩ | ⟨rfl, -⟩ <;> decide
      rw [HandlesChar, hpstate] at hstep
      rw [StreamParser.handleChar, hstate]
      rcases hcases with ⟨rfl, -⟩ | ⟨rfl, -⟩ | ⟨rfl, -⟩ | ⟨rfl, -⟩
      · dsimp only at hstep ⊢
        subst hstep
        by_cases hdash : c = chr '-'
        · rw [if_pos hdash, if_pos hdash]
          exact ⟨h.setState hstart _, rfl, rfl, rfl⟩
        · rw [if_neg hdash, if_neg hdash]
          by_cases hcr : c = chr '\r'
          · rw [if_pos hcr, if_pos hcr]
            exact ⟨h.setState hstart _, rfl, rfl, rfl⟩
          · rw [if_neg hcr, if_neg hcr]
            exact ⟨h, rfl, rfl, rfl⟩
      · dsimp only at hstep ⊢
        subst hstep
        by_cases hdash : c = chr '-'
        · rw [if_pos hdash, if_pos hdash]
          exact ⟨h.setState hstart _, rfl, rfl, rfl⟩
        · rw [if_neg hdash, if_neg hdash]
          exact ⟨h, rfl, rfl, rfl⟩
      · dsimp only at hstep ⊢
        by_cases hnl : c = chr '\n'
        · rw [if_pos hnl] at hstep ⊢
          rcases hstep with ⟨next, hinits, rfl⟩
          exact ⟨follows_trInit h _ hinits, rfl, rfl, rfl⟩
        · rw [if_neg hnl] at hstep ⊢
          subst hstep
          exact ⟨h, rfl, rfl, rfl⟩
      · dsimp only at hstep ⊢
        subst hstep
        exact ⟨h, rfl, rfl, rfl⟩

/-- `tr_check` is called in a search. -/
theorem exists_inside_of_asks (h : p.Follows q) (hsound : Sound boundary ⟨q, pending⟩)
    {asked : MachineParser} (hasks : p.Asks asked) :
    exists q' pending' state text, asked.Follows q' ∧ Searching boundary state ∧
      Inside ⟨q', pending'⟩ boundary state text := by
  cases hsound with
  | start hstate hsetUp =>
      rw [Asks, h.state_eq, hstate] at hasks
      exact ⟨_, [], _, [], follows_trInit h _ hasks, searching_preamble boundary,
        inside_trInit (searching_preamble boundary) hsetUp⟩
  | @inside x state text hs hinside =>
      have hstate : q.state = state := hinside.state_eq
      rw [Asks, h.state_eq, hstate] at hasks
      have hasked : asked = p := by
        rcases state_of_searching hs with rfl | rfl | rfl
        · exact hasks
        · exact hasks
        · exact hasks
      rw [hasked]
      exact ⟨q, pending, state, text, h, hs, hinside⟩
  | @waits x state held hwaits hcases =>
      have hstate : q.state = state := hwaits.state_eq
      rw [Asks, h.state_eq, hstate] at hasks
      rcases hcases with ⟨rfl, -⟩ | ⟨rfl, -⟩ | ⟨rfl, -⟩ | ⟨rfl, -⟩
      · exact hasks.elim
      · exact hasks.elim
      · exact hasks.elim
      · exact hasks.elim

/-- The words tell how much is held back, too. -/
theorem heldBack_of_follows (h : p.Follows q) (hsound : Sound boundary ⟨q, pending⟩) :
    p.state.heldBack p.lastMatched.toNat = pending.length := by
  have hheld := heldBack_of_sound hsound
  change q.state.heldBack q.lastMatched = pending.length at hheld
  rw [h.state_eq]
  cases hsound with
  | start hstate _ =>
      rw [hstate] at hheld ⊢
      exact hheld
  | inside hs hinside =>
      rw [toNat_lastMatched hs h hinside]
      exact hheld
  | @waits x state held hwaits hcases =>
      have hstate : q.state = state := hwaits.state_eq
      rw [hstate] at hheld ⊢
      rcases hcases with ⟨rfl, -⟩ | ⟨rfl, -⟩ | ⟨rfl, -⟩ | ⟨rfl, -⟩
      · exact hheld
      · exact hheld
      · exact hheld
      · exact hheld

/-!
## Calls that come back
-/

theorem exists_trInits (hpreamble : p.preambleDelim = opening boundary)
    (hencapsulation : p.encapsulationDelim = delimiter boundary)
    (hs : Searching boundary state) (hshort : boundary.length + 4 < 2 ^ 31) :
    exists next, ({ p with state := state }).TrInits next := by
  have hdelim : ({ p with state := state } : MachineParser).trDelim =
      delimOf boundary state := by
    unfold trDelim delimOf
    cases state with
    | preamble => exact hpreamble
    | firstMessage => exact hencapsulation
    | encapsulation => exact hencapsulation
    | _ => rfl
  have hopening : (opening boundary).length = boundary.length + 4 := by
    simp [opening, str]
  have hdelimiter : (delimiter boundary).length = boundary.length + 4 := by
    simp [delimiter, str]
  have hsize : (delimOf boundary state).length < 2 ^ 31 := by
    rcases state_of_searching hs with rfl | rfl | rfl <;> rw [delimOf] <;> omega
  rcases exists_inits p.kmp hs hsize with ⟨kmp, hkmp⟩
  refine ⟨_, kmp, ?_, rfl⟩
  rw [hdelim]
  exact hkmp

theorem exists_trChecks (hs : Searching boundary state) (h : p.Follows q)
    (hinside : Inside ⟨q, pending⟩ boundary state text) (c : UInt8) :
    exists checked, p.TrChecks c checked := by
  rcases exists_partialSearches hs h hinside c with ⟨found, hfound, -⟩
  exact ⟨_, found, hfound, rfl⟩

theorem exists_inPreamble (h : p.Follows q)
    (hinside : Inside ⟨q, pending⟩ boundary StreamState.preamble text)
    (hshort : boundary.length + 4 < 2 ^ 31) (c : UInt8) :
    exists step, p.InPreamble c step := by
  rcases exists_trChecks (searching_preamble boundary) h hinside c with ⟨checked, hchecks⟩
  cases hresult : checked.2.2 with
  | true =>
      have hpreamble : checked.1.preambleDelim = opening boundary := by
        rcases hchecks with ⟨found, -, rfl⟩
        exact h.preambleDelim_eq.trans hinside.setUp.preambleDelim_eq
      have hencapsulation : checked.1.encapsulationDelim = delimiter boundary := by
        rcases hchecks with ⟨found, -, rfl⟩
        exact h.encapsulationDelim_eq.trans hinside.setUp.encapsulationDelim_eq
      rcases exists_trInits hpreamble hencapsulation (searching_firstMessage boundary) hshort
        with ⟨next, hinits⟩
      refine ⟨{ parser := next, advancement := checked.2.1, event := StreamEvent.messageBegin },
        checked, hchecks, ?_⟩
      rw [hresult, if_pos rfl]
      exact ⟨next, hinits, rfl⟩
  | false =>
      refine ⟨{ parser := checked.1, advancement := checked.2.1 }, checked, hchecks, ?_⟩
      rw [hresult, if_neg Bool.false_ne_true]

theorem exists_inMessage (hs : Searching boundary state) (h : p.Follows q)
    (hinside : Inside ⟨q, pending⟩ boundary state text) (c : UInt8) :
    exists step, p.InMessage c step := by
  rcases exists_trChecks hs h hinside c with ⟨checked, hchecks⟩
  cases hresult : checked.2.2 with
  | true =>
      refine ⟨{ parser := { checked.1 with state := StreamState.maybeEndOrEncapsulation }
                advancement := checked.2.1
                event := StreamEvent.messageEnd }, checked, hchecks, ?_⟩
      rw [hresult, if_pos rfl]
  | false =>
      refine ⟨{ parser := checked.1, advancement := checked.2.1 }, checked, hchecks, ?_⟩
      rw [hresult, if_neg Bool.false_ne_true]

/-- With a short boundary every call comes back. -/
theorem exists_handlesChar (h : p.Follows q) (hsound : Sound boundary ⟨q, pending⟩)
    (hshort : boundary.length + 4 < 2 ^ 31) (c : UInt8) :
    exists step, p.HandlesChar c step := by
  cases hsound with
  | start hstate hsetUp =>
      rw [← h.state_eq] at hstate
      rcases exists_trInits (h.preambleDelim_eq.trans hsetUp.preambleDelim_eq)
        (h.encapsulationDelim_eq.trans hsetUp.encapsulationDelim_eq)
        (searching_preamble boundary) hshort with ⟨next, hinits⟩
      rcases exists_inPreamble (follows_trInit h _ hinits)
        (inside_trInit (searching_preamble boundary) hsetUp) hshort c with ⟨step, hstep⟩
      refine ⟨step, ?_⟩
      rw [HandlesChar, hstate]
      exact ⟨next, hinits, hstep⟩
  | @inside x state text hs hinside =>
      have hstate : p.state = state := h.state_eq.trans hinside.state_eq
      simp only [HandlesChar, hstate]
      rcases state_of_searching hs with rfl | rfl | rfl
      · exact exists_inPreamble h hinside hshort c
      · exact exists_inMessage hs h hinside c
      · exact exists_inMessage hs h hinside c
  | @waits x state held hwaits hcases =>
      have hstate : p.state = state := h.state_eq.trans hwaits.state_eq
      simp only [HandlesChar, hstate]
      rcases hcases with ⟨rfl, -⟩ | ⟨rfl, -⟩ | ⟨rfl, -⟩ | ⟨rfl, -⟩
      · exact ⟨_, rfl⟩
      · exact ⟨_, rfl⟩
      · by_cases hnl : c = chr '\n'
        · rcases exists_trInits (h.preambleDelim_eq.trans hwaits.setUp.preambleDelim_eq)
            (h.encapsulationDelim_eq.trans hwaits.setUp.encapsulationDelim_eq)
            (searching_encapsulation boundary) hshort with ⟨next, hinits⟩
          refine ⟨{ parser := next, advancement := 2, event := StreamEvent.messageBegin }, ?_⟩
          dsimp only
          rw [if_pos hnl]
          exact ⟨next, hinits, rfl⟩
        · refine ⟨{ parser := p, failed := true }, ?_⟩
          dsimp only
          rw [if_neg hnl]
      · exact ⟨_, rfl⟩

end Searches

/-!
## The ledger
-/

section Ledger

open Scanner

variable {p last : MachineParser} {boundary : Str}

theorem total_cons (a : UInt64) (advancements : List UInt64) :
    total (a :: advancements) = a.toNat + total advancements := by
  rw [total, List.map_cons, List.sum_cons]
  rfl

/-- A whole run in words is one in numbers, with the same sum. -/
theorem follows_handlesAll (text : Str) : forall (p : MachineParser) (x : Scanner)
    (advancements : List UInt64), p.Follows x.parser -> Sound boundary x ->
      p.HandlesAll text advancements last ->
        exists last', x.parser.handleAll text = some (last', total advancements) ∧
          last.Follows last' := by
  induction text with
  | nil =>
      intro p x advancements h _ hall
      rcases hall with ⟨rfl, rfl⟩
      exact ⟨x.parser, rfl, h⟩
  | cons c rest ih =>
      intro p x advancements h hsound hall
      rcases hall with ⟨step, more, hstep, hok, hrest, rfl⟩
      have hsame := sameStep_handlesChar h hsound hstep
      rw [hsame.failed] at hok
      rcases ih step.parser ⟨_, _⟩ more hsame.parser (steps_of_sound hsound c hok).right hrest
        with ⟨last', hlast, hfollows⟩
      refine ⟨last', ?_, hfollows⟩
      rw [StreamParser.handleAll_cons_of_not_failed hok, hlast, Option.map_some, total_cons,
        hsame.advancement]

/-- With a short boundary, a run in numbers is one in words. -/
theorem exists_handlesAll (hshort : boundary.length + 4 < 2 ^ 31) (text : Str) :
    forall (p : MachineParser) (x : Scanner), p.Follows x.parser -> Sound boundary x ->
      (x.parser.handleAll text).isSome ->
        exists advancements last, p.HandlesAll text advancements last := by
  induction text with
  | nil =>
      intro p x _ _ _
      exact ⟨[], p, rfl, rfl⟩
  | cons c rest ih =>
      intro p x h hsound hall
      rcases Option.isSome_iff_exists.mp hall with ⟨⟨q, n⟩, hall⟩
      rcases StreamParser.exists_of_handleAll_cons hall with ⟨hok, k, hrest, -⟩
      rcases exists_handlesChar h hsound hshort c with ⟨step, hstep⟩
      have hsame := sameStep_handlesChar h hsound hstep
      rcases ih step.parser ⟨_, _⟩ hsame.parser (steps_of_sound hsound c hok).right
        (by rw [hrest]; rfl) with ⟨more, last, hmore⟩
      exact ⟨_, last, step, more, hstep, hsame.failed.trans hok, hmore, rfl⟩

/-- For every boundary the ledger balances behind every text without an error. -/
theorem balanced_of_handlesAll (m i : UInt64) (boundary : Str) {text : Str}
    {advancements : List UInt64} (h : (fresh m i boundary).HandlesAll text advancements last) :
    Balanced boundary text advancements last := by
  rcases follows_handlesAll text _ (start boundary) advancements (follows_fresh m i boundary)
    (sound_start boundary) h with ⟨q, hall, hfollows⟩
  rcases sound_of_handleAll hall with ⟨hle, hsound⟩
  constructor
  · exact hle
  · rw [heldBack_of_follows hfollows hsound, List.length_drop]
  · intro c asked found hasks hfound
    rcases exists_inside_of_asks hfollows hsound hasks with
      ⟨q', pending', state, text', hasked, hs, hinside⟩
    exact le_of_inside hs hasked hinside hfound
  · intro c step hstep hend
    have hsame := sameStep_handlesChar hfollows hsound hstep
    rw [hsame.event] at hend
    rcases messageEnd_of_sound hsound hend with ⟨hadvancement, hdelim⟩
    refine ⟨hsame.advancement.trans hadvancement, ?_⟩
    dsimp only at hdelim
    rw [← hdelim, ← List.append_assoc, List.take_append_drop]

theorem balanced_of_handlesAll_sample :
    exists advancements last,
      (fresh 7 7 (str "B")).HandlesAll (str "x--B\r\ny\r\n-") advancements last ∧
        Balanced (str "B") (str "x--B\r\ny\r\n-") advancements last := by
  rcases exists_handlesAll (by decide) (str "x--B\r\ny\r\n-") _ _ (follows_fresh 7 7 (str "B"))
    (sound_start (str "B")) (by decide +kernel) with ⟨advancements, last, hall⟩
  exact ⟨advancements, last, hall, balanced_of_handlesAll 7 7 (str "B") hall⟩

end Ledger

end MachineParser
end Multipart
end CisWebui
