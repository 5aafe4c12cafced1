import CisWebui.Cpp.Bytes
import CisWebui.Foundation.PrefixMatching

/-!
# The delimiter searcher

`knuth_morris_pratt_searcher` reads a text byte by byte and answers how much of
its pattern the text ends with.

The table it builds holds the borders of the pattern, so by the theory of
prefix matching the answer is the longest overlap.  Both loops of the source
are given as many rounds as they can take; the results show that they end.
-/

namespace CisWebui
namespace Multipart

open Cpp
open Foundation.PrefixMatching

/-- `knuth_morris_pratt_searcher` -/
structure KmpSearcher where
  m : Nat := 0
  i : Nat := 0
  pattern : Str := []
  table : List Int := []
deriving DecidableEq, Repr

namespace KmpSearcher

/-- `table_[i]` -/
def tableAt (table : List Int) (i : Nat) : Int :=
  table.getD i 0

/-- The loop of `build_table`. -/
def buildLoop (pattern : Str) : Nat -> Nat -> Nat -> List Int -> List Int
  | 0, _, _, table => table
  | rounds + 1, pos, condition, table =>
      if pos < pattern.length then
        if pattern[pos - 1]? = pattern[condition]? then
          buildLoop pattern rounds (pos + 1) (condition + 1)
            (table.set pos (condition + 1 : Nat))
        else if condition > 0 then
          buildLoop pattern rounds pos (tableAt table condition).toNat table
        else
          buildLoop pattern rounds (pos + 1) condition (table.set pos 0)
      else
        table

/-- `build_table`, on a table that `resize` has filled with zeros. -/
def buildTable (pattern : Str) : List Int :=
  let table := List.replicate (pattern.length + 1) 0
  let table := table.set (if pattern.length > 2 then pattern.length else 2) 0
  let table := (table.set 0 (-1)).set 1 0
  buildLoop pattern (2 * pattern.length) 2 0 table

def reset (s : KmpSearcher) : KmpSearcher :=
  { s with m := 0, i := 0 }

/-- `init`, for a pattern of at least two bytes, as every delimiter is. -/
def init (s : KmpSearcher) (pattern : Str) : KmpSearcher :=
  if pattern = s.pattern then
    s.reset
  else
    { s with pattern := pattern, table := buildTable pattern }.reset

/-- The loop of `partial_search`, which ends when `m + i` has grown. -/
def searchLoop (offset : Nat) (c : UInt8) :
    Nat -> KmpSearcher -> KmpSearcher × Nat
  | 0, s => (s, s.i)
  | rounds + 1, s =>
      if s.m + s.i - offset < 1 then
        if s.pattern[s.i]? = some c then
          if s.i = s.pattern.length - 1 then
            (s, s.i + 1)
          else
            searchLoop offset c rounds { s with i := s.i + 1 }
        else
          searchLoop offset c rounds
            { s with
              m := (s.m + (s.i - tableAt s.table s.i)).toNat
              i := if tableAt s.table s.i > -1 then
                (tableAt s.table s.i).toNat else 0 }
      else
        (s, s.i)

/-- `partial_search` -/
def partialSearch (s : KmpSearcher) (c : UInt8) : KmpSearcher × Nat :=
  searchLoop (s.m + s.i) c (s.i + 2) s

example : buildTable (str "abacab") = [-1, 0, 0, 1, 0, 1, 0] := by decide

/-!
## The table
-/

/-- Up to `n`, the table holds the borders of the pattern. -/
def BordersBelow (pattern : Str) (table : List Int) (n : Nat) : Prop :=
  tableAt table 0 = -1 ∧ table.length = pattern.length + 1 ∧
    forall i, 0 < i -> i < n -> exists k : Nat,
      tableAt table i = k ∧ Border pattern i k

theorem tableAt_set_self {table : List Int} {i : Nat} (v : Int)
    (hi : i < table.length) : tableAt (table.set i v) i = v := by
  simp [tableAt, List.getD_eq_getElem?_getD, List.getElem?_set_self hi]

theorem tableAt_set_ne {table : List Int} {i j : Nat} (v : Int)
    (hne : ¬ i = j) : tableAt (table.set i v) j = tableAt table j := by
  simp [tableAt, List.getD_eq_getElem?_getD, List.getElem?_set_ne hne]

theorem bordersBelow_set {pattern : Str} {table : List Int} {pos k : Nat}
    (h : BordersBelow pattern table pos) (hpos : 0 < pos)
    (hlt : pos < pattern.length) (hk : Border pattern pos k) :
    BordersBelow pattern (table.set pos k) (pos + 1) := by
  rcases h with ⟨hzero, hlen, hborders⟩
  refine ⟨?_, by rw [List.length_set]; exact hlen, ?_⟩
  · rw [tableAt_set_ne _ hpos.ne']
    exact hzero
  · intro i hi hlast
    rcases Nat.lt_or_eq_of_le (Nat.le_of_lt_succ hlast) with hbelow | hself
    · rw [tableAt_set_ne _ hbelow.ne']
      exact hborders i hi hbelow
    · subst hself
      exact ⟨k, tableAt_set_self _ (by omega), hk⟩

/-- The loop reads the pattern without its first byte as a text; its condition
is a candidate for the next entry. -/
theorem bordersBelow_buildLoop {pattern : Str} (rounds : Nat) :
    forall (pos condition : Nat) (table : List Int),
      1 < pos -> condition < pos -> BordersBelow pattern table pos ->
      (forall c, pattern[pos - 1]? = some c ->
        Candidate pattern (pattern.take (pos - 1)).tail c condition) ->
      2 * (pattern.length - pos) + condition < rounds ->
      BordersBelow pattern (buildLoop pattern rounds pos condition table)
        pattern.length := by
  induction rounds with
  | zero =>
      intro pos condition table _ _ _ _ hrounds
      omega
  | succ rounds ih =>
      intro pos condition table hpos hcondition hborders hcandidate hrounds
      rw [buildLoop]
      by_cases hend : pos < pattern.length
      · rw [if_pos hend]
        have hlast : pos - 1 < pattern.length := by omega
        rcases List.getElem?_eq_some_iff.mpr ⟨hlast, rfl⟩ with hc
        generalize pattern[pos - 1] = c at hc
        have hcand := hcandidate c hc
        have htext : (pattern.take pos).tail =
            (pattern.take (pos - 1)).tail ++ [c] := by
          have hsucc := tail_take_succ (Nat.sub_pos_of_lt hpos) hc
          rwa [Nat.sub_add_cancel (Nat.le_of_lt hpos)] at hsucc
        rw [hc]
        by_cases hit : pattern[condition]? = some c
        · rw [if_pos hit.symm]
          have hborder : Border pattern pos (condition + 1) := by
            rw [Border, htext]
            exact longestOverlap_snoc_of_hit hcand hit
          have hlt := border_lt (by omega) hborder
          refine ih (pos + 1) (condition + 1) _ (by omega) (by omega)
            (bordersBelow_set hborders (by omega) hend hborder) ?_ (by omega)
          intro d _
          exact candidate_of_longestOverlap hborder d
        · rw [if_neg fun heq => hit heq.symm]
          by_cases hzero : condition > 0
          · rw [if_pos hzero]
            rcases hborders.right.right condition hzero hcondition with
              ⟨k, hk, hborder⟩
            have hlt := border_lt hzero hborder
            rw [hk, Int.toNat_natCast]
            refine ih pos k _ hpos (by omega) hborders ?_ (by omega)
            intro d hd
            rw [hc] at hd
            cases hd
            exact candidate_border hcand hit hborder
          · rw [if_neg hzero]
            have hcond : condition = 0 := Nat.eq_zero_of_not_pos hzero
            subst hcond
            have hborder : Border pattern pos 0 := by
              rw [Border, htext]
              exact longestOverlap_snoc_of_miss hcand hit
            refine ih (pos + 1) 0 _ (by omega) (by omega)
              (bordersBelow_set hborders (by omega) hend hborder) ?_ (by omega)
            intro d _
            exact candidate_of_longestOverlap hborder d
      · rw [if_neg hend]
        rcases hborders with ⟨hzero, hlen, hall⟩
        exact ⟨hzero, hlen, fun i hi hlt => hall i hi (by omega)⟩

theorem bordersBelow_buildTable {pattern : Str} (hlen : 2 <= pattern.length) :
    BordersBelow pattern (buildTable pattern) pattern.length := by
  have hnil : forall p : Str, (p.take 1).tail = [] := by
    intro p
    cases p with
    | nil => rfl
    | cons a p => simp
  have hstart : Border pattern 1 0 := by
    rw [Border, hnil]
    exact longestOverlap_nil pattern
  refine bordersBelow_buildLoop _ 2 0 _ (by omega) (by omega) ?_ ?_ (by omega)
  · refine ⟨?_, by simp, ?_⟩
    · rw [tableAt_set_ne _ (by omega), tableAt_set_self]
      simp
    · intro i hi hlt
      have hone : i = 1 := by omega
      subst hone
      exact ⟨0, by rw [tableAt_set_self]; rfl; simp; omega, hstart⟩
  · intro c _
    exact candidate_of_longestOverlap hstart c

/-!
## Searching
-/

/-- The searcher has read `text`, which does not end with the whole pattern. -/
structure Tracks (s : KmpSearcher) (pattern text : Str) : Prop where
  pattern_eq : s.pattern = pattern
  borders : BordersBelow pattern s.table pattern.length
  matched : LongestOverlap pattern text s.i
  matched_lt : s.i < pattern.length

theorem pattern_init (s : KmpSearcher) (pattern : Str) :
    (s.init pattern).pattern = pattern := by
  unfold init
  split
  · rename_i heq
    exact heq.symm
  · rfl

theorem i_init (s : KmpSearcher) (pattern : Str) :
    (s.init pattern).i = 0 := by
  unfold init
  split <;> rfl

/-- A table that is kept belongs to the pattern it was built for. -/
def TableFits (s : KmpSearcher) : Prop :=
  2 <= s.pattern.length -> BordersBelow s.pattern s.table s.pattern.length

theorem tableFits_init {s : KmpSearcher} (h : TableFits s) (pattern : Str) :
    TableFits (s.init pattern) := by
  intro hlen
  unfold init at hlen ⊢
  split at hlen
  · rename_i heq
    rw [if_pos heq]
    exact h hlen
  · rename_i hne
    rw [if_neg hne]
    exact bordersBelow_buildTable hlen

theorem tracks_init {s : KmpSearcher} (h : TableFits s) {pattern : Str}
    (hlen : 2 <= pattern.length) : Tracks (s.init pattern) pattern [] := by
  have hpattern := pattern_init s pattern
  have hfits := tableFits_init h pattern
  rw [TableFits, hpattern] at hfits
  constructor
  · exact hpattern
  · exact hfits hlen
  · rw [i_init]
    exact longestOverlap_nil pattern
  · rw [i_init]
    omega

theorem Tracks.tableFits {s : KmpSearcher} {pattern text : Str}
    (h : Tracks s pattern text) : TableFits s := by
  intro _
  rw [h.pattern_eq]
  exact h.borders

/-- What one call of the searcher gives, from a state that tracks `text`. -/
structure Found (s : KmpSearcher) (result : KmpSearcher × Nat)
    (pattern text : Str) (c : UInt8) : Prop where
  longest : LongestOverlap pattern (text ++ [c]) result.2
  tracks : result.2 < pattern.length ->
    Tracks result.1 pattern (text ++ [c]) ∧ result.1.i = result.2
  pattern_eq : result.1.pattern = s.pattern
  table_eq : result.1.table = s.table

theorem searchLoop_done {c : UInt8} {offset rounds : Nat} {s : KmpSearcher}
    (h : offset < s.m + s.i) : searchLoop offset c rounds s = (s, s.i) := by
  cases rounds with
  | zero => rfl
  | succ rounds =>
      have hdone : ¬ s.m + s.i - offset < 1 := by omega
      rw [searchLoop, if_neg hdone]

/-- The loop walks along the candidates; it leaves after the first hit, or after
a miss at the first byte, which moves `m`. -/
theorem found_searchLoop {text : Str} {c : UInt8} {offset : Nat}
    (rounds : Nat) : forall s : KmpSearcher,
      BordersBelow s.pattern s.table s.pattern.length ->
      Candidate s.pattern text c s.i -> s.i < s.pattern.length ->
      s.m + s.i = offset -> s.i + 1 < rounds ->
      Found s (searchLoop offset c rounds s) s.pattern text c := by
  induction rounds with
  | zero =>
      intro s _ _ _ _ hrounds
      omega
  | succ rounds ih =>
      intro s hborders hcandidate hlt hoffset hrounds
      have hmore : s.m + s.i - offset < 1 := by omega
      rw [searchLoop, if_pos hmore]
      by_cases hit : s.pattern[s.i]? = some c
      · rw [if_pos hit]
        have hlongest := longestOverlap_snoc_of_hit hcandidate hit
        by_cases hlast : s.i = s.pattern.length - 1
        · rw [if_pos hlast]
          refine ⟨hlongest, ?_, rfl, rfl⟩
          intro hshort
          change s.i + 1 < s.pattern.length at hshort
          omega
        · rw [if_neg hlast, searchLoop_done (by simp only; omega)]
          refine ⟨hlongest, ?_, rfl, rfl⟩
          intro hshort
          exact ⟨⟨rfl, hborders, hlongest, hshort⟩, rfl⟩
      · rw [if_neg hit]
        by_cases hzero : s.i = 0
        · have htable : tableAt s.table s.i = -1 := by
            rw [hzero]
            exact hborders.left
          have hneg : ¬ (-1 : Int) > -1 := by omega
          rw [hzero] at hcandidate hit
          have hlongest := longestOverlap_snoc_of_miss hcandidate hit
          rw [htable, if_neg hneg, searchLoop_done (by simp only; omega)]
          refine ⟨hlongest, ?_, rfl, rfl⟩
          intro hshort
          exact ⟨⟨rfl, hborders, hlongest, hshort⟩, rfl⟩
        · have hpos : 0 < s.i := Nat.pos_of_ne_zero hzero
          rcases hborders.right.right s.i hpos hlt with ⟨k, hk, hborder⟩
          have hklt := border_lt hpos hborder
          have hback : ((k : Nat) : Int) > -1 := by omega
          rw [hk, if_pos hback, Int.toNat_natCast]
          have hnext := ih
            { s with m := ((s.m : Int) + (s.i - k)).toNat, i := k }
            hborders (candidate_border hcandidate hit hborder)
            (by simp only; omega) (by simp only; omega) (by simp only; omega)
          exact ⟨hnext.longest, hnext.tracks, hnext.pattern_eq, hnext.table_eq⟩

theorem found_partialSearch {s : KmpSearcher} {pattern text : Str}
    (h : Tracks s pattern text) (c : UInt8) :
    Found s (s.partialSearch c) pattern text c := by
  rcases h with ⟨rfl, hborders, hmatched, hlt⟩
  exact found_searchLoop (s.i + 2) s hborders
    (candidate_of_longestOverlap hmatched c) hlt rfl (by omega)

end KmpSearcher
end Multipart
end CisWebui
