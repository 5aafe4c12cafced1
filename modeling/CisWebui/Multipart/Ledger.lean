import CisWebui.Multipart.Scanner

/-!
# What the stream parser has let go

`handle_char` answers every byte with how many bytes it lets go.  Whatever the text is,
these are a beginning of it; the rest is what a sound scanner holds back, and the state of
the parser tells how much that is.
-/

namespace CisWebui
namespace Multipart

open Cpp
open Foundation Foundation.PrefixMatching

/-- How many bytes are held back in a state. -/
def StreamState.heldBack (lastMatched : Nat) : StreamState -> Nat
  | StreamState.start => 0
  | StreamState.preamble => lastMatched
  | StreamState.firstMessage => lastMatched
  | StreamState.encapsulation => lastMatched
  | StreamState.maybeEndOrEncapsulation => 0
  | StreamState.maybeEnd => 1
  | StreamState.maybeEncapsulation => 1
  | StreamState.epilogue => 0

namespace StreamParser

/-- The parser behind a text and how many of its bytes it has let go, unless it has
reported an error. -/
def handleAll : StreamParser -> Str -> Option (StreamParser × Nat)
  | p, [] => some (p, 0)
  | p, c :: rest =>
      let step := p.handleChar c
      if step.failed then
        none
      else
        (handleAll step.parser rest).map fun last => (last.1, step.advancement + last.2)

variable {p q : StreamParser} {c : UInt8} {rest : Str} {n : Nat}

theorem handleAll_cons_of_not_failed (h : (p.handleChar c).failed = false) (rest : Str) :
    p.handleAll (c :: rest) = ((p.handleChar c).parser.handleAll rest).map fun last =>
      (last.1, (p.handleChar c).advancement + last.2) := by
  rw [handleAll, h]
  rfl

theorem exists_of_handleAll_cons (h : p.handleAll (c :: rest) = some (q, n)) :
    (p.handleChar c).failed = false ∧
      exists k, (p.handleChar c).parser.handleAll rest = some (q, k) ∧
        n = (p.handleChar c).advancement + k := by
  cases hfailed : (p.handleChar c).failed with
  | true =>
      rw [handleAll, hfailed] at h
      cases h
  | false =>
      rw [handleAll_cons_of_not_failed hfailed] at h
      rcases Option.map_eq_some_iff.mp h with ⟨⟨last, k⟩, hrest, hlast⟩
      cases hlast
      exact ⟨rfl, k, hrest, rfl⟩

theorem handleAll_append {a b : Str} {m k : Nat} {r : StreamParser}
    (ha : p.handleAll a = some (q, m)) (hb : q.handleAll b = some (r, k)) :
    p.handleAll (a ++ b) = some (r, m + k) := by
  induction a generalizing p m with
  | nil =>
      cases ha
      rw [List.nil_append, Nat.zero_add]
      exact hb
  | cons c a ih =>
      rcases exists_of_handleAll_cons ha with ⟨hok, j, hrest, rfl⟩
      rw [List.cons_append, handleAll_cons_of_not_failed hok, ih hrest, Option.map_some,
        Nat.add_assoc]

end StreamParser

namespace Scanner

variable {boundary : Str} {x : Scanner}

/-- The state of the parser tells how much is held back. -/
theorem heldBack_of_sound (h : Sound boundary x) :
    x.parser.state.heldBack x.parser.lastMatched = x.pending.length := by
  cases h with
  | start hstate _ =>
      rw [hstate]
      rfl
  | @inside x state text hs hinside =>
      rw [length_pending hinside.searches, ← hinside.searches.lastMatched_eq,
        hinside.state_eq]
      rcases state_of_searching hs with rfl | rfl | rfl
      · rfl
      · rfl
      · rfl
  | waits hwaits hcases =>
      rw [hwaits.state_eq, hwaits.pending_eq]
      rcases hcases with ⟨rfl, rfl⟩ | ⟨rfl, hlen⟩ | ⟨rfl, hlen⟩ | ⟨rfl, rfl⟩
      · rfl
      · exact hlen.symm
      · exact hlen.symm
      · rfl

/-- Behind a text, what has not been let go of it is held back. -/
theorem sound_handleAll (text : Str) : forall (x : Scanner) (p : StreamParser) (n : Nat),
    Sound boundary x -> x.parser.handleAll text = some (p, n) ->
      n <= x.pending.length + text.length ∧
        Sound boundary ⟨p, (x.pending ++ text).drop n⟩ := by
  induction text with
  | nil =>
      intro x p n h hall
      cases hall
      refine ⟨Nat.zero_le _, ?_⟩
      rw [List.append_nil]
      exact h
  | cons c rest ih =>
      intro x p n h hall
      rcases StreamParser.exists_of_handleAll_cons hall with ⟨hok, k, hrest, rfl⟩
      rcases steps_of_sound h c hok with ⟨hadv, hnext⟩
      rcases ih ⟨_, _⟩ p k hnext hrest with ⟨hle, hsound⟩
      have hfits : (x.parser.handleChar c).advancement <= (x.pending ++ [c]).length := by
        rw [List.length_append]
        exact hadv
      rw [List.length_drop] at hle
      rw [← List.drop_append_of_le_length hfits, List.drop_drop, List.append_assoc] at hsound
      rw [List.length_append] at hle hfits
      simp only [List.length_singleton] at hle hfits
      refine ⟨?_, hsound⟩
      rw [List.length_cons]
      omega

theorem sound_of_handleAll {text : Str} {p : StreamParser} {n : Nat}
    (h : (StreamParser.init {} boundary).handleAll text = some (p, n)) :
    n <= text.length ∧ Sound boundary ⟨p, text.drop n⟩ := by
  have hall := sound_handleAll text (start boundary) p n (sound_start boundary) h
  change n <= 0 + text.length ∧ Sound boundary ⟨p, text.drop n⟩ at hall
  rw [Nat.zero_add] at hall
  exact hall

/-- One byte makes the overlap longer by one at most. -/
theorem matched_le {delim text : Str} (h : Searches x delim text) (c : UInt8) :
    (x.parser.kmp.partialSearch c).2 <= x.parser.lastMatched + 1 := by
  rw [h.lastMatched_eq]
  exact overlap_le_succ h.tracks.matched (KmpSearcher.found_partialSearch h.tracks c).longest.left

/-- At the end of a part the delimiter is what is held back, and all of it is let go. -/
theorem messageEnd_of_inside {state : StreamState} {text : Str}
    (hs : Searching boundary state) (h : Inside x boundary state text) {c : UInt8}
    (hend : (x.parser.handleChar c).event = StreamEvent.messageEnd) :
    (x.parser.handleChar c).advancement = (delimiter boundary).length ∧
      x.pending ++ [c] = delimiter boundary := by
  rcases h with ⟨rfl, hsetUp, hsearches⟩
  have hdelim := trDelim_eq hsetUp
  by_cases hsuffix : delimOf boundary x.parser.state <:+ text ++ [c]
  · rcases trCheck_of_suffix hsearches hdelim hsuffix with
      ⟨p, hcheck, -, -, -, -, hheld, -⟩
    rcases state_of_searching hs with hstate | hstate
    · rw [handleChar_of_opening hstate hcheck] at hend
      cases hend
    · have hof : delimOf boundary x.parser.state = delimiter boundary := by
        rcases hstate with h | h <;> rw [h, delimOf]
      rw [handleChar_of_end hstate hcheck, ← hof]
      exact ⟨rfl, hheld⟩
  · rcases trCheck_of_not_suffix hsearches hdelim hsuffix with ⟨p, advancement, hcheck, -⟩
    rw [handleChar_of_searching hs hcheck] at hend
    cases hend

theorem messageEnd_of_sound (h : Sound boundary x) {c : UInt8}
    (hend : (x.parser.handleChar c).event = StreamEvent.messageEnd) :
    (x.parser.handleChar c).advancement = (delimiter boundary).length ∧
      x.pending ++ [c] = delimiter boundary := by
  cases h with
  | @start p hstate hsetUp =>
      have hinside := inside_trInit (searching_preamble boundary) hsetUp
      rw [handleChar_of_start hstate] at hend ⊢
      exact messageEnd_of_inside (searching_preamble boundary) hinside hend
  | inside hs hinside => exact messageEnd_of_inside hs hinside hend
  | waits hwaits hcases =>
      rw [StreamParser.handleChar, hwaits.state_eq] at hend
      rcases hcases with ⟨rfl, -⟩ | ⟨rfl, -⟩ | ⟨rfl, -⟩ | ⟨rfl, -⟩
      · dsimp only at hend
        split at hend
        · cases hend
        · split at hend <;> cases hend
      · dsimp only at hend
        split at hend <;> cases hend
      · dsimp only at hend
        split at hend <;> cases hend
      · cases hend

end Scanner

end Multipart
end CisWebui
