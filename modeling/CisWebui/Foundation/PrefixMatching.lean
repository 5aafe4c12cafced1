import Mathlib.Data.List.Infix
import Mathlib.Data.Nat.Find

/-!
# Prefix matching

The theory behind a searcher that reads a text symbol by symbol and knows, at
each point, how much of a pattern it has just seen.

The longest overlap of a pattern with a text is the most symbols of the pattern
that end the text.  A searcher keeps a candidate, which no longer overlap can
extend, and falls back along the borders of the pattern until the next symbol
fits.
-/

namespace CisWebui
namespace Foundation
namespace PrefixMatching

variable {α : Type}

/-- The first `k` symbols of the pattern end the text. -/
def Overlap (p s : List α) (k : Nat) : Prop :=
  k <= p.length ∧ p.take k <:+ s

def LongestOverlap (p s : List α) (k : Nat) : Prop :=
  Overlap p s k ∧ forall j, Overlap p s j -> j <= k

/-- The longest proper border of the first `i` symbols of the pattern. -/
def Border (p : List α) (i k : Nat) : Prop :=
  LongestOverlap p (p.take i).tail k

/-- An overlap such that no longer one goes on with `c`. -/
def Candidate (p s : List α) (c : α) (i : Nat) : Prop :=
  Overlap p s i ∧ forall j, i < j -> Overlap p s j -> ¬ p[j]? = some c

/-!
## Overlaps
-/

theorem overlap_zero (p s : List α) : Overlap p s 0 := by
  constructor
  · exact Nat.zero_le _
  · rw [List.take_zero]
    exact List.nil_suffix

theorem overlap_length_le {p s : List α} {k : Nat} (h : Overlap p s k) :
    k <= s.length := by
  have hlen := h.right.length_le
  rwa [List.length_take_of_le h.left] at hlen

theorem overlap_snoc_succ {p s : List α} {c : α} {k : Nat} :
    Overlap p (s ++ [c]) (k + 1) <-> Overlap p s k ∧ p[k]? = some c := by
  constructor
  · intro h
    have hk : k < p.length := h.left
    have hsuffix := h.right
    rw [List.take_add_one, List.getElem?_eq_getElem hk] at hsuffix
    rcases hsuffix with ⟨front, hfront⟩
    rw [Option.toList_some, ← List.append_assoc, List.append_singleton_inj]
      at hfront
    refine ⟨⟨hk.le, front, hfront.left⟩, ?_⟩
    rw [List.getElem?_eq_getElem hk, hfront.right]
  · intro h
    rcases h with ⟨⟨-, front, hfront⟩, hc⟩
    rcases List.getElem?_eq_some_iff.mp hc with ⟨hk, -⟩
    refine ⟨hk, front, ?_⟩
    rw [List.take_add_one, hc, ← List.append_assoc, hfront]
    rfl

/-- One more symbol of the text makes the overlap one symbol longer at most. -/
theorem overlap_le_succ {p s : List α} {c : α} {i k : Nat}
    (hi : LongestOverlap p s i) (hk : Overlap p (s ++ [c]) k) : k <= i + 1 := by
  cases k with
  | zero => exact Nat.zero_le _
  | succ k => exact Nat.succ_le_succ (hi.right k (overlap_snoc_succ.mp hk).left)

/-- Below an overlap, the text can be exchanged for the pattern itself. -/
theorem overlap_take_iff {p s : List α} {i k : Nat} (hi : Overlap p s i)
    (hk : k <= i) : Overlap p (p.take i) k <-> Overlap p s k := by
  constructor
  · intro h
    exact ⟨h.left, h.right.trans hi.right⟩
  · intro h
    refine ⟨h.left, List.suffix_of_suffix_length_le h.right hi.right ?_⟩
    rw [List.length_take_of_le h.left, List.length_take_of_le hi.left]
    exact hk

theorem longestOverlap_unique {p s : List α} {i k : Nat}
    (hi : LongestOverlap p s i) (hk : LongestOverlap p s k) : i = k :=
  Nat.le_antisymm (hk.right i hi.left) (hi.right k hk.left)

theorem longestOverlap_nil (p : List α) : LongestOverlap p [] 0 := by
  constructor
  · exact overlap_zero p []
  · intro j hj
    exact overlap_length_le hj

theorem longestOverlap_length_iff {p s : List α} :
    LongestOverlap p s p.length <-> p <:+ s := by
  constructor
  · intro h
    simpa using h.left.right
  · intro h
    constructor
    · exact ⟨le_rfl, by simpa using h⟩
    · intro j hj
      exact hj.left

/-!
## Borders
-/

theorem border_lt {p : List α} {i k : Nat} (hpos : 0 < i)
    (h : Border p i k) : k < i := by
  have hlen := overlap_length_le h.left
  have htake : (p.take i).length <= i := List.length_take_le i p
  rw [List.length_tail] at hlen
  omega

theorem tail_take_succ {p : List α} {i : Nat} {c : α} (hpos : 0 < i)
    (hc : p[i]? = some c) :
    (p.take (i + 1)).tail = (p.take i).tail ++ [c] := by
  have hne : ¬ p.take i = [] := by
    intro hnil
    have hlen := congrArg List.length hnil
    rcases List.getElem?_eq_some_iff.mp hc with ⟨hi, -⟩
    rw [List.length_take_of_le hi.le] at hlen
    exact absurd hlen hpos.ne'
  rw [List.take_add_one, hc, List.tail_append_of_ne_nil hne]
  rfl

/-- A shorter overlap of the first `i` symbols does not start where they do. -/
theorem overlap_tail_of_lt {p : List α} {i j : Nat} (hi : i <= p.length)
    (hlt : j < i) (h : Overlap p (p.take i) j) :
    Overlap p (p.take i).tail j := by
  refine ⟨h.left, List.suffix_of_suffix_length_le h.right
    (List.tail_suffix _) ?_⟩
  rw [List.length_take_of_le h.left, List.length_tail,
    List.length_take_of_le hi]
  omega

/-!
## Candidates
-/

theorem candidate_of_longestOverlap {p s : List α} {i : Nat}
    (h : LongestOverlap p s i) (c : α) : Candidate p s c i := by
  refine ⟨h.left, ?_⟩
  intro j hlt hj
  exact absurd (h.right j hj) (Nat.not_le.mpr hlt)

theorem longestOverlap_snoc_of_hit {p s : List α} {c : α} {i : Nat}
    (h : Candidate p s c i) (hit : p[i]? = some c) :
    LongestOverlap p (s ++ [c]) (i + 1) := by
  constructor
  · exact overlap_snoc_succ.mpr ⟨h.left, hit⟩
  · intro j hj
    cases j with
    | zero => exact Nat.zero_le _
    | succ k =>
        rcases overlap_snoc_succ.mp hj with ⟨hk, hc⟩
        have hle : ¬ i < k := fun hlt => h.right k hlt hk hc
        omega

theorem longestOverlap_snoc_of_miss {p s : List α} {c : α}
    (h : Candidate p s c 0) (miss : ¬ p[0]? = some c) :
    LongestOverlap p (s ++ [c]) 0 := by
  constructor
  · exact overlap_zero p _
  · intro j hj
    cases j with
    | zero => exact le_rfl
    | succ k =>
        rcases overlap_snoc_succ.mp hj with ⟨hk, hc⟩
        cases k with
        | zero => exact absurd hc miss
        | succ l => exact absurd hc (h.right (l + 1) (Nat.succ_pos l) hk)

/-- The border is the next candidate after a miss. -/
theorem candidate_border {p s : List α} {c : α} {i k : Nat}
    (h : Candidate p s c i) (miss : ¬ p[i]? = some c) (hk : Border p i k) :
    Candidate p s c k := by
  have hborder : p.take k <:+ s :=
    (hk.left.right.trans (List.tail_suffix _)).trans h.left.right
  refine ⟨⟨hk.left.left, hborder⟩, ?_⟩
  intro j hlt hj
  rcases Nat.lt_trichotomy j i with hji | hji | hji
  · have hself : Overlap p (p.take i) j :=
      (overlap_take_iff h.left hji.le).mpr hj
    have hproper := overlap_tail_of_lt h.left.left hji hself
    exact absurd (hk.right j hproper) (Nat.not_le.mpr hlt)
  · subst hji
    exact miss
  · exact h.right j hji hj

/-!
## First occurrences
-/

/-- The pattern occurs in `t ++ p` at its end and not before. -/
def Delimits (p t : List α) : Prop :=
  ¬ p <:+: t ++ p.dropLast

theorem longestOverlap_of_delimits {p t : List α} (h : Delimits p t) :
    LongestOverlap p (t ++ p.dropLast) (p.length - 1) := by
  constructor
  · refine ⟨Nat.sub_le _ _, ?_⟩
    rw [← List.dropLast_eq_take]
    exact List.suffix_append t _
  · intro j hj
    have hne : ¬ j = p.length := by
      intro heq
      rw [heq] at hj
      have hsuffix : p <:+ t ++ p.dropLast := by simpa using hj.right
      exact h hsuffix.isInfix
    have := hj.left
    omega

/-- A text contains the pattern nowhere, or there is a first place. -/
theorem free_or_delimits {p : List α} (hp : ¬ p = []) (w : List α) :
    ¬ p <:+: w ∨ exists t rest, w = t ++ p ++ rest ∧ Delimits p t := by
  induction w using List.reverseRecOn with
  | nil =>
      left
      intro h
      exact hp (List.infix_nil.mp h)
  | append_singleton w c ih =>
      rcases ih with hfree | ⟨t, rest, rfl, ht⟩
      · by_cases hsuffix : p <:+ w ++ [c]
        · right
          rcases hsuffix with ⟨t, ht⟩
          refine ⟨t, [], by rw [List.append_nil, ht], ?_⟩
          have hlast : (t ++ p).dropLast = w := by
            rw [ht, List.dropLast_concat]
          rw [List.dropLast_append_of_ne_nil hp] at hlast
          rw [Delimits, hlast]
          exact hfree
        · left
          intro h
          rcases List.infix_concat_iff.mp h with h | h
          · exact hsuffix h
          · exact hfree h
      · right
        exact ⟨t, rest ++ [c], by simp, ht⟩

/-- A pattern whose first symbol does not come again delimits every text it
does not occur in. -/
theorem delimits_of_not_infix {a : α} {q t : List α} (ha : ¬ a ∈ q)
    (h : ¬ (a :: q) <:+: t) : Delimits (a :: q) t := by
  intro hinfix
  rcases hinfix with ⟨front, back, heq⟩
  have hlen := congrArg List.length heq
  rw [List.append_assoc] at heq
  rcases List.append_eq_append_iff.mp heq with
    ⟨mid, rfl, hmid⟩ | ⟨mid, rfl, hmid⟩
  · rcases List.append_eq_append_iff.mp hmid with
      ⟨more, rfl, -⟩ | ⟨overlap, hoverlap, hlast⟩
    · exact h ⟨front, more, by rw [List.append_assoc]⟩
    · cases overlap with
      | nil =>
          rw [List.append_nil] at hoverlap
          exact h ⟨front, [], by rw [List.append_nil, hoverlap]⟩
      | cons x rest =>
          -- The overlap starts with the first symbol, and so inside the pattern.
          have hx : x = a := by
            cases q with
            | nil => cases hlast
            | cons b q => exact (List.cons.inj hlast).left.symm
          cases mid with
          | nil =>
              simp at hlen
              omega
          | cons y mid =>
              have hq : q = mid ++ x :: rest := (List.cons.inj hoverlap).right
              rw [hq, hx] at ha
              simp at ha
  · simp at hlen
    omega

end PrefixMatching
end Foundation
end CisWebui
