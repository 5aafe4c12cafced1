import Mathlib.Algebra.Group.Int.Defs
import CisWebui.Foundation.Loop
import CisWebui.Multipart.KmpSearcher

/-!
# The searcher in machine words

`knuth_morris_pratt_searcher` with the types it has: `m_` and `i_` are `size_t` and wrap
around, the table and the positions in it are `int` and must not overflow.  Its loops run
until they leave by themselves.

The searcher in words follows the one in numbers round by round, as long as the pattern
has its length in an `int`.
-/

namespace CisWebui
namespace Multipart

open Cpp Foundation
open Foundation.PrefixMatching

/-- The sum of two `int`s, which is undefined if it is none. -/
def intAdd (a b : Int) : Option Int :=
  if -2147483648 <= a + b ∧ a + b <= 2147483647 then some (a + b) else none

/-- An `int` where a `size_t` is needed. -/
def toSize (n : Int) : UInt64 :=
  UInt64.ofInt n

structure MachineSearcher where
  m : UInt64
  i : UInt64
  pattern : Str := []
  table : List Int := []
deriving DecidableEq, Repr

namespace MachineSearcher

open KmpSearcher (tableAt BordersBelow)

/-!
## build_table
-/

/-- The variables of the loop. -/
structure Building where
  pos : Int
  condition : Int
  table : List Int
deriving DecidableEq, Repr

/-- `pos += 1` -/
def nextPos (s : Building) : Turn Building (Option (List Int)) :=
  match intAdd s.pos 1 with
  | none => Turn.leave none
  | some pos => Turn.again { s with pos := pos }

/-- A round of the loop of `build_table`; no table is left by one that is undefined. -/
def buildRound (pattern : Str) (s : Building) : Turn Building (Option (List Int)) :=
  if (toSize s.pos).toNat < pattern.length then
    if pattern[(s.pos - 1).toNat]? = pattern[s.condition.toNat]? then
      match intAdd s.condition 1 with
      | none => Turn.leave none
      | some condition =>
          nextPos
            { s with
              condition := condition
              table := s.table.set (toSize s.pos).toNat condition }
    else if s.condition > 0 then
      Turn.again { s with condition := tableAt s.table s.condition.toNat }
    else
      nextPos { s with table := s.table.set (toSize s.pos).toNat 0 }
  else
    Turn.leave (some s.table)

def buildStart (pattern : Str) : Building :=
  let table := List.replicate (pattern.length + 1) 0
  let table := table.set (if pattern.length > 2 then pattern.length else 2) 0
  { pos := 2
    condition := 0
    table := (table.set 0 (-1)).set 1 0 }

/-- `build_table` leaves the table. -/
def BuildsTable (pattern : Str) (table : List Int) : Prop :=
  Loop.Returns (buildRound pattern) (buildStart pattern) (some table)

/-!
## init and partial_search
-/

def reset (s : MachineSearcher) : MachineSearcher :=
  { s with m := 0, i := 0 }

/-- `init`, which terminates the program for a shorter pattern. -/
def Inits (s : MachineSearcher) (pattern : Str) (s' : MachineSearcher) : Prop :=
  2 <= pattern.length ∧
    if pattern = s.pattern then
      s' = s.reset
    else
      exists table, BuildsTable pattern table ∧
        s' = { s with pattern := pattern, table := table }.reset

/-- A round of the loop of `partial_search`. -/
def searchRound (offset : UInt64) (c : UInt8) (s : MachineSearcher) :
    Turn MachineSearcher (MachineSearcher × UInt64) :=
  if s.m + s.i - offset < 1 then
    if s.pattern[s.i.toNat]? = some c then
      if s.i.toNat = s.pattern.length - 1 then
        Turn.leave (s, s.i + 1)
      else
        Turn.again { s with i := s.i + 1 }
    else
      Turn.again
        { s with
          m := s.m + (s.i - toSize (tableAt s.table s.i.toNat))
          i := if tableAt s.table s.i.toNat > -1 then toSize (tableAt s.table s.i.toNat) else 0 }
  else
    Turn.leave (s, s.i)

/-- `partial_search` comes back with the searcher and the number. -/
def PartialSearches (s : MachineSearcher) (c : UInt8) (result : MachineSearcher × UInt64) :
    Prop :=
  Loop.Returns (searchRound (s.m + s.i) c) s result

/-- The calls for the bytes of a text all come back. -/
def Feeds : MachineSearcher -> Str -> MachineSearcher -> Prop
  | s, [], s' => s' = s
  | s, c :: rest, s' => exists result, PartialSearches s c result ∧ Feeds result.1 rest s'

/-- The searchers there can be: their numbers are not initialized at first. -/
inductive Reachable : MachineSearcher -> Prop where
  | constructed (m i : UInt64) : Reachable { m := m, i := i }
  | init {s s' : MachineSearcher} {pattern : Str} (hs : Reachable s)
      (h : Inits s pattern s') : Reachable s'
  | search {s : MachineSearcher} {c : UInt8} {result : MachineSearcher × UInt64}
      (hs : Reachable s) (h : PartialSearches s c result) : Reachable result.1

/-- `init` comes back, and as long as the pattern has not been seen, every call behind it
comes back with the length of the longest overlap. -/
def Matches (s : MachineSearcher) (pattern : Str) : Prop :=
  exists s', Inits s pattern s' ∧
    forall text : Str, (forall front, front <+: text -> ¬ pattern <:+ front) ->
      exists fed, Feeds s' text fed ∧
        forall c, exists result, PartialSearches fed c result ∧
          LongestOverlap pattern (text ++ [c]) result.2.toNat

/-!
## Words
-/

theorem intAdd_cast {n : Nat} (h : n + 1 < 2 ^ 31) :
    intAdd (n : Int) 1 = some ((n + 1 : Nat) : Int) := by
  unfold intAdd
  rw [if_pos (by omega)]
  rfl

theorem intAdd_eq_some {a b n : Int} (h : intAdd a b = some n) :
    n = a + b ∧ n <= 2147483647 := by
  unfold intAdd at h
  split at h
  · rename_i hfits
    cases h
    exact ⟨rfl, hfits.right⟩
  · cases h

theorem toSize_cast (n : Nat) : toSize (n : Int) = UInt64.ofNat n := by
  have hmod : ((n : Int) % 2 ^ 64).toNat = n % 2 ^ 64 := by
    omega
  rw [toSize, UInt64.ofInt, hmod, ← UInt64.toNat_inj]
  simp

theorem toNat_toSize {n : Nat} (h : n < 2 ^ 64) : (toSize (n : Int)).toNat = n := by
  rw [toSize_cast, UInt64.toNat_ofNat_of_lt' h]

/-!
## The table
-/

/-- An entry leads further to the front. -/
def Falls (table : List Int) (n : Nat) : Prop :=
  forall i, 0 < i -> i < n -> exists k : Nat, tableAt table i = k ∧ k < i

theorem falls_set {table : List Int} {pos k : Nat} (h : Falls table pos)
    (hpos : pos < table.length) (hk : k < pos) :
    Falls (table.set pos (k : Int)) (pos + 1) := by
  intro i hi hlast
  rcases Nat.lt_or_eq_of_le (Nat.le_of_lt_succ hlast) with hbelow | hself
  · rw [KmpSearcher.tableAt_set_ne _ hbelow.ne']
    exact h i hi hbelow
  · subst hself
    exact ⟨k, KmpSearcher.tableAt_set_self _ hpos, hk⟩

theorem falls_of_bordersBelow {pattern : Str} {table : List Int} {n : Nat}
    (h : BordersBelow pattern table n) : Falls table n := by
  intro i hi hlt
  rcases h.right.right i hi hlt with ⟨k, hk, hborder⟩
  exact ⟨k, hk, border_lt hi hborder⟩

section Rounds

variable {pattern : Str} {pos condition : Nat} {table : List Int}

theorem nextPos_of_intAdd {s : Building} {next : Int} (h : intAdd s.pos 1 = some next) :
    nextPos s = Turn.again { s with pos := next } := by
  rw [nextPos, h]

theorem nextPos_cast {condition : Int} (h : pos + 1 < 2 ^ 31) :
    nextPos ⟨pos, condition, table⟩ = Turn.again ⟨(pos + 1 : Nat), condition, table⟩ :=
  nextPos_of_intAdd (intAdd_cast h)

theorem toNat_pred (hpos : 0 < pos) : ((pos : Int) - 1).toNat = pos - 1 := by
  omega

theorem buildRound_hit (hsize : pattern.length < 2 ^ 31) (hcondition : condition + 1 < pos)
    (hlt : pos < pattern.length) (hit : pattern[pos - 1]? = pattern[condition]?) :
    buildRound pattern ⟨pos, condition, table⟩ =
      Turn.again ⟨(pos + 1 : Nat), (condition + 1 : Nat),
        table.set pos (condition + 1 : Nat)⟩ := by
  have hword : (toSize (pos : Int)).toNat = pos := toNat_toSize (by omega)
  have hadd : intAdd (condition : Int) 1 = some ((condition + 1 : Nat) : Int) :=
    intAdd_cast (by omega)
  unfold buildRound
  rw [if_pos (by rw [hword]; exact hlt),
    if_pos (by rw [toNat_pred (by omega), Int.toNat_natCast]; exact hit), hadd, hword]
  exact nextPos_cast (by omega)

theorem buildRound_back (hsize : pattern.length < 2 ^ 31) (hcondition : condition + 1 < pos)
    (hlt : pos < pattern.length) (hmiss : ¬ pattern[pos - 1]? = pattern[condition]?)
    (hpositive : condition > 0) :
    buildRound pattern ⟨pos, condition, table⟩ =
      Turn.again ⟨pos, tableAt table condition, table⟩ := by
  have hword : (toSize (pos : Int)).toNat = pos := toNat_toSize (by omega)
  unfold buildRound
  rw [if_pos (by rw [hword]; exact hlt),
    if_neg (by rw [toNat_pred (by omega), Int.toNat_natCast]; exact hmiss),
    if_pos (Int.natCast_pos.mpr hpositive), Int.toNat_natCast]

theorem buildRound_miss (hsize : pattern.length < 2 ^ 31) (hpos : 0 < pos)
    (hlt : pos < pattern.length) (hmiss : ¬ pattern[pos - 1]? = pattern[0]?) :
    buildRound pattern ⟨pos, (0 : Nat), table⟩ =
      Turn.again ⟨(pos + 1 : Nat), (0 : Nat), table.set pos 0⟩ := by
  have hword : (toSize (pos : Int)).toNat = pos := toNat_toSize (by omega)
  unfold buildRound
  rw [if_pos (by rw [hword]; exact hlt),
    if_neg (by rw [toNat_pred hpos, Int.toNat_natCast]; exact hmiss),
    if_neg (by exact Int.lt_irrefl 0), hword]
  exact nextPos_cast (by omega)

theorem buildRound_end (hsize : pattern.length < 2 ^ 31) (hpos : pos = pattern.length) :
    buildRound pattern ⟨pos, condition, table⟩ = Turn.leave (some table) := by
  have hword : (toSize (pos : Int)).toNat = pos := toNat_toSize (by omega)
  unfold buildRound
  rw [if_neg]
  rw [hword]
  omega

/-- In `int`s the loop does what it does in numbers: a round goes on to the next
position, or takes the condition back. -/
theorem returns_buildRound (hsize : pattern.length < 2 ^ 31) (rounds : Nat) :
    forall (pos condition : Nat) (table : List Int),
      condition + 1 < pos -> pos <= pattern.length -> Falls table pos ->
      table.length = pattern.length + 1 ->
      2 * (pattern.length - pos) + condition < rounds ->
      Loop.Returns (buildRound pattern) ⟨pos, condition, table⟩
        (some (KmpSearcher.buildLoop pattern rounds pos condition table)) := by
  induction rounds with
  | zero =>
      intro pos condition table _ _ _ _ hrounds
      omega
  | succ rounds ih =>
      intro pos condition table hcondition hpos hfalls hlength hrounds
      rw [KmpSearcher.buildLoop]
      by_cases hend : pos < pattern.length
      · rw [if_pos hend]
        by_cases hit : pattern[pos - 1]? = pattern[condition]?
        · rw [if_pos hit, Loop.returns_iff_of_again (buildRound_hit hsize hcondition hend hit)]
          exact ih (pos + 1) (condition + 1) _ (by omega) (by omega)
            (falls_set hfalls (by omega) hcondition) (by rw [List.length_set, hlength])
            (by omega)
        · rw [if_neg hit]
          by_cases hpositive : condition > 0
          · rcases hfalls condition hpositive (by omega) with ⟨k, hk, hlt⟩
            rw [if_pos hpositive, hk, Int.toNat_natCast,
              Loop.returns_iff_of_again (buildRound_back hsize hcondition hend hit hpositive),
              hk]
            exact ih pos k table (by omega) hpos hfalls hlength (by omega)
          · have hzero : condition = 0 := Nat.eq_zero_of_not_pos hpositive
            subst hzero
            rw [if_neg hpositive,
              Loop.returns_iff_of_again (buildRound_miss hsize (by omega) hend hit)]
            exact ih (pos + 1) 0 _ (by omega) (by omega)
              (falls_set (k := 0) hfalls (by omega) (by omega))
              (by rw [List.length_set, hlength]) (by omega)
      · rw [if_neg hend]
        exact Loop.returns_of_leave (buildRound_end hsize (by omega))

theorem buildsTable_of_lt (hlen : 2 <= pattern.length) (hsize : pattern.length < 2 ^ 31) :
    BuildsTable pattern (KmpSearcher.buildTable pattern) := by
  refine returns_buildRound hsize (2 * pattern.length) 2 0 _ (by omega) hlen ?_ (by simp) (by omega)
  intro i hi hlt
  have hone : i = 1 := by omega
  subst hone
  refine ⟨0, ?_, Nat.zero_lt_one⟩
  rw [KmpSearcher.tableAt_set_self]
  · rfl
  · simp
    omega

/-- The positions that an `int` has. -/
def Building.Fits (s : Building) : Prop :=
  0 <= s.pos ∧ s.pos <= 2147483647

theorem keeps_nextPos {s : Building} (h : s.Fits) :
    Loop.Keeps nextPos Building.Fits (fun table => table = none) s := by
  unfold Loop.Keeps nextPos
  cases hadd : intAdd s.pos 1 with
  | none => rfl
  | some pos =>
      rcases intAdd_eq_some hadd with ⟨hpos, hle⟩
      have hpositive := h.left
      exact ⟨by simp only; omega, hle⟩

/-- A long pattern is not gone through: the position gets stuck below its length. -/
theorem keeps_buildRound (hlong : ¬ pattern.length < 2 ^ 31) {s : Building} (h : s.Fits) :
    Loop.Keeps (buildRound pattern) Building.Fits (fun table => table = none) s := by
  have hlt : (toSize s.pos).toNat < pattern.length := by
    have hle := h.right
    rw [← Int.toNat_of_nonneg h.left, toNat_toSize (by omega)]
    omega
  have hnext : forall s' : Building, buildRound pattern s = nextPos s' -> s'.Fits ->
      Loop.Keeps (buildRound pattern) Building.Fits (fun table => table = none) s := by
    intro s' heq hfits
    have hkeeps := keeps_nextPos hfits
    unfold Loop.Keeps at hkeeps ⊢
    rw [heq]
    exact hkeeps
  by_cases hit : pattern[(s.pos - 1).toNat]? = pattern[s.condition.toNat]?
  · cases hadd : intAdd s.condition 1 with
    | none =>
        unfold Loop.Keeps buildRound
        rw [if_pos hlt, if_pos hit, hadd]
    | some condition =>
        refine hnext ⟨s.pos, condition, s.table.set (toSize s.pos).toNat condition⟩ ?_ h
        rw [buildRound, if_pos hlt, if_pos hit, hadd]
  · by_cases hpositive : s.condition > 0
    · unfold Loop.Keeps buildRound
      rw [if_pos hlt, if_neg hit, if_pos hpositive]
      exact h
    · refine hnext ⟨s.pos, s.condition, s.table.set (toSize s.pos).toNat 0⟩ ?_ h
      rw [buildRound, if_pos hlt, if_neg hit, if_neg hpositive]

/-- The positions of a longer pattern are not all `int`s. -/
theorem lt_of_buildsTable (h : BuildsTable pattern table) : pattern.length < 2 ^ 31 := by
  by_contra hlong
  have hstart : (buildStart pattern).Fits := by
    show (0 : Int) <= 2 ∧ (2 : Int) <= 2147483647
    decide
  have hnone := Loop.of_returns (fun _ => keeps_buildRound hlong) hstart h
  cases hnone

end Rounds

/-!
## Searching
-/

/-- The searcher in words stands for the one in numbers: `m_` is the number up to its
wraps, everything else is the same. -/
structure Refines (s : MachineSearcher) (t : KmpSearcher) : Prop where
  m : s.m = UInt64.ofNat t.m
  i : s.i = UInt64.ofNat t.i
  pattern : s.pattern = t.pattern
  table : s.table = t.table

/-- The table is one of a pattern whose length is an `int`. -/
structure WellBuilt (s : MachineSearcher) : Prop where
  short : s.pattern.length < 2 ^ 31
  borders : BordersBelow s.pattern s.table s.pattern.length

section Searching

variable {s : MachineSearcher} {t : KmpSearcher} {c : UInt8} {offset : Nat}

theorem Refines.sum (h : Refines s t) : s.m + s.i = UInt64.ofNat (t.m + t.i) := by
  rw [UInt64.ofNat_add, h.m, h.i]

/-- What the unsigned difference says while nothing has been read. -/
theorem Refines.reading (h : Refines s t) (hoffset : t.m + t.i = offset) :
    s.m + s.i - UInt64.ofNat offset < 1 := by
  rw [h.sum, hoffset, UInt64.sub_self]
  decide

/-- What it says when one byte has been read. -/
theorem Refines.done (h : Refines s t) (hoffset : t.m + t.i = offset + 1) :
    ¬ s.m + s.i - UInt64.ofNat offset < 1 := by
  have hone : UInt64.ofNat offset + UInt64.ofNat 1 - UInt64.ofNat offset = 1 := by
    rw [UInt64.add_comm, UInt64.add_sub_cancel]
    rfl
  rw [h.sum, hoffset, UInt64.ofNat_add, hone]
  decide

theorem Refines.toNat_i (h : Refines s t) (hlt : t.i < 2 ^ 31) : s.i.toNat = t.i := by
  have hword : t.i < UInt64.size := Nat.lt_trans hlt (by decide)
  rw [h.i, UInt64.toNat_ofNat_of_lt' hword]

theorem Refines.reads (h : Refines s t) (hlt : t.i < 2 ^ 31) :
    s.pattern[s.i.toNat]? = t.pattern[t.i]? := by
  rw [h.pattern, h.toNat_i hlt]

theorem Refines.at_last_iff (h : Refines s t) (hlt : t.i < 2 ^ 31) :
    s.i.toNat = s.pattern.length - 1 <-> t.i = t.pattern.length - 1 := by
  rw [h.pattern, h.toNat_i hlt]

theorem Refines.next_i (h : Refines s t) : s.i + 1 = UInt64.ofNat (t.i + 1) := by
  rw [h.i, UInt64.ofNat_add]
  rfl

/-- Behind the first byte of the pattern nothing is tried again. -/
theorem Refines.front_m (h : Refines s t) (hfront : t.i = 0) :
    s.m + (s.i - toSize (-1)) = UInt64.ofNat ((t.m : Int) + (t.i - (-1))).toNat := by
  have hsum : ((t.m : Int) + (t.i - (-1))).toNat = t.m + 1 := by
    omega
  rw [hsum, UInt64.ofNat_add, h.m, h.i, hfront]
  rfl

theorem Refines.back_m (h : Refines s t) {k : Nat} (hk : k < t.i) :
    s.m + (s.i - toSize (k : Int)) =
      UInt64.ofNat ((t.m : Int) + (t.i - (k : Int))).toNat := by
  have hsum : ((t.m : Int) + (t.i - (k : Int))).toNat = t.m + (t.i - k) := by
    omega
  rw [hsum, UInt64.ofNat_add, UInt64.ofNat_sub (Nat.le_of_lt hk), h.m, h.i, toSize_cast]

/-- A call in words gives what it gives in numbers. -/
def SameResult (offset : UInt64) (c : UInt8) (s : MachineSearcher)
    (result : KmpSearcher × Nat) : Prop :=
  exists result', Loop.Returns (searchRound offset c) s result' ∧
    Refines result'.1 result.1 ∧ result'.2 = UInt64.ofNat result.2

theorem sameResult_done (h : Refines s t) (hoffset : t.m + t.i = offset + 1) :
    SameResult (UInt64.ofNat offset) c s (t, t.i) := by
  refine ⟨(s, s.i), Loop.returns_of_leave ?_, h, h.i⟩
  rw [searchRound, if_neg (h.done hoffset)]

theorem sameResult_again {word : UInt64} {s' : MachineSearcher} {result : KmpSearcher × Nat}
    (hround : searchRound word c s = Turn.again s') (h : SameResult word c s' result) :
    SameResult word c s result := by
  rcases h with ⟨result', hreturns, hsame⟩
  exact ⟨result', (Loop.returns_iff_of_again hround).mpr hreturns, hsame⟩

/-- In words the loop does what it does in numbers: it walks back along the table until a
byte fits, or there is nothing left in front of which to try. -/
theorem sameResult_searchLoop (rounds : Nat) : forall (s : MachineSearcher) (t : KmpSearcher),
    Refines s t -> Falls t.table t.pattern.length -> tableAt t.table 0 = -1 ->
      t.pattern.length < 2 ^ 31 -> t.i < t.pattern.length -> t.m + t.i = offset ->
        t.i + 1 < rounds ->
          SameResult (UInt64.ofNat offset) c s (KmpSearcher.searchLoop offset c rounds t) := by
  induction rounds with
  | zero =>
      intro s t _ _ _ _ _ _ hrounds
      omega
  | succ rounds ih =>
      intro s t h hfalls hzero hsize hlt hoffset hrounds
      have hreading := h.reading hoffset
      have hbelow := Nat.lt_trans hlt hsize
      have hmore : t.m + t.i - offset < 1 := by omega
      rw [KmpSearcher.searchLoop, if_pos hmore]
      by_cases hit : t.pattern[t.i]? = some c
      · have hit' := (h.reads hbelow).trans hit
        rw [if_pos hit]
        by_cases hlast : t.i = t.pattern.length - 1
        · have hlast' := (h.at_last_iff hbelow).mpr hlast
          rw [if_pos hlast]
          refine ⟨(s, s.i + 1), Loop.returns_of_leave ?_, h, h.next_i⟩
          rw [searchRound, if_pos hreading, if_pos hit', if_pos hlast']
        · have hlast' := fun heq => hlast ((h.at_last_iff hbelow).mp heq)
          have hround : searchRound (UInt64.ofNat offset) c s =
              Turn.again { s with i := s.i + 1 } := by
            rw [searchRound, if_pos hreading, if_pos hit', if_neg hlast']
          rw [if_neg hlast, KmpSearcher.searchLoop_done (by simp only; omega)]
          exact sameResult_again hround
            (sameResult_done ⟨h.m, h.next_i, h.pattern, h.table⟩ (by simp only; omega))
      · have hit' := fun heq => hit ((h.reads hbelow).symm.trans heq)
        have hround : searchRound (UInt64.ofNat offset) c s =
            Turn.again
              { s with
                m := s.m + (s.i - toSize (tableAt t.table t.i))
                i := if tableAt t.table t.i > -1 then toSize (tableAt t.table t.i) else 0 } := by
          rw [searchRound, if_pos hreading, if_neg hit', h.toNat_i hbelow, h.table]
        rw [if_neg hit]
        by_cases hfront : t.i = 0
        · have hentry : tableAt t.table t.i = -1 := by
            rw [hfront]
            exact hzero
          have hneg : ¬ (-1 : Int) > -1 := by omega
          rw [hentry, if_neg hneg] at hround
          rw [hentry, if_neg hneg, KmpSearcher.searchLoop_done (by simp only; omega)]
          exact sameResult_again hround
            (sameResult_done ⟨h.front_m hfront, rfl, h.pattern, h.table⟩ (by simp only; omega))
        · rcases hfalls t.i (Nat.pos_of_ne_zero hfront) hlt with ⟨k, hk, hklt⟩
          have hback : (k : Int) > -1 := by omega
          rw [hk, if_pos hback] at hround
          rw [hk, if_pos hback, Int.toNat_natCast]
          exact sameResult_again hround
            (ih _ _ ⟨h.back_m hklt, toSize_cast k, h.pattern, h.table⟩ hfalls hzero hsize
              (by simp only; omega) (by simp only; omega) (by simp only; omega))

/-- A call of `partial_search` in words, from where the one in numbers is known. -/
theorem partialSearches_of_tracks {pattern text : Str} (h : Refines s t)
    (htracks : t.Tracks pattern text) (hsize : pattern.length < 2 ^ 31) (c : UInt8) :
    exists result, PartialSearches s c result ∧ Refines result.1 (t.partialSearch c).1 ∧
      result.2.toNat = (t.partialSearch c).2 := by
  have hfound := KmpSearcher.found_partialSearch htracks c
  rcases htracks with ⟨rfl, hborders, _, hlt⟩
  have hsame := sameResult_searchLoop (c := c) (t.i + 2) s t h
    (falls_of_bordersBelow hborders) hborders.left hsize hlt rfl (by omega)
  rw [← h.sum] at hsame
  rcases hsame with ⟨result, hreturns, hrefines, hnumber⟩
  have hle : (t.partialSearch c).2 <= t.pattern.length := hfound.longest.left.left
  have hword : (t.partialSearch c).2 < UInt64.size :=
    Nat.lt_of_le_of_lt hle (Nat.lt_trans hsize (by decide))
  refine ⟨result, hreturns, hrefines, ?_⟩
  rw [hnumber]
  exact UInt64.toNat_ofNat_of_lt' hword

/-- As long as the pattern has not been seen the calls come back, and the searcher in
numbers has read the same text. -/
theorem feeds_of_tracks {pattern : Str} (hsize : pattern.length < 2 ^ 31) (rest : Str) :
    forall (s : MachineSearcher) (t : KmpSearcher) (text : Str), Refines s t ->
      t.Tracks pattern text ->
        (forall front, front <+: rest -> ¬ pattern <:+ text ++ front) ->
          exists s' t', Feeds s rest s' ∧ Refines s' t' ∧ t'.Tracks pattern (text ++ rest) := by
  induction rest with
  | nil =>
      intro s t text h htracks _
      refine ⟨s, t, rfl, h, ?_⟩
      rw [List.append_nil]
      exact htracks
  | cons c rest ih =>
      intro s t text h htracks hunseen
      rcases partialSearches_of_tracks h htracks hsize c with ⟨result, hresult, hrefines, _⟩
      have hfound := KmpSearcher.found_partialSearch htracks c
      have hshort : (t.partialSearch c).2 < pattern.length := by
        apply lt_of_le_of_ne hfound.longest.left.left
        intro heq
        have hlongest := hfound.longest
        rw [heq, longestOverlap_length_iff] at hlongest
        exact hunseen [c] ⟨rest, rfl⟩ hlongest
      have hrest : forall front, front <+: rest -> ¬ pattern <:+ (text ++ [c]) ++ front := by
        intro front hfront
        rw [List.append_assoc]
        exact hunseen (c :: front) (List.cons_prefix_cons.mpr ⟨rfl, hfront⟩)
      rcases ih result.1 (t.partialSearch c).1 (text ++ [c]) hrefines
        (hfound.tracks hshort).left hrest with ⟨s', t', hfeeds, hrefines', htracks'⟩
      refine ⟨s', t', ⟨result, hresult, hfeeds⟩, hrefines', ?_⟩
      rw [List.append_assoc] at htracks'
      exact htracks'

end Searching

/-!
## From init on
-/

theorem tracks_of_borders {pattern : Str} {table : List Int} (hlen : 2 <= pattern.length)
    (h : BordersBelow pattern table pattern.length) :
    KmpSearcher.Tracks { m := 0, i := 0, pattern := pattern, table := table } pattern [] where
  pattern_eq := rfl
  borders := h
  matched := longestOverlap_nil pattern
  matched_lt := Nat.lt_of_lt_of_le Nat.zero_lt_two hlen

theorem keeps_searchRound {offset : UInt64} {c : UInt8} {pattern : Str} {table : List Int}
    {s : MachineSearcher} (h : s.pattern = pattern ∧ s.table = table) :
    Loop.Keeps (searchRound offset c) (fun s => s.pattern = pattern ∧ s.table = table)
      (fun result => result.1.pattern = pattern ∧ result.1.table = table) s := by
  by_cases hreading : s.m + s.i - offset < 1
  · by_cases hit : s.pattern[s.i.toNat]? = some c
    · by_cases hlast : s.i.toNat = s.pattern.length - 1
      · simp only [Loop.Keeps, searchRound, if_pos hreading, if_pos hit, if_pos hlast]
        exact h
      · simp only [Loop.Keeps, searchRound, if_pos hreading, if_pos hit, if_neg hlast]
        exact h
    · simp only [Loop.Keeps, searchRound, if_pos hreading, if_neg hit]
      exact h
  · simp only [Loop.Keeps, searchRound, if_neg hreading]
    exact h

/-- A pattern that has a table has its borders there, and a length that is an `int`. -/
theorem wellBuilt_of_reachable {s : MachineSearcher} (h : s.Reachable)
    (hlen : 2 <= s.pattern.length) : s.WellBuilt := by
  induction h with
  | constructed m i =>
      have hnil : 2 <= ([] : Str).length := hlen
      exact absurd hnil (by decide)
  | @init s s' pattern hs hinit ih =>
      rcases hinit with ⟨hpattern, hinit⟩
      split at hinit
      · rw [hinit] at hlen ⊢
        exact ⟨(ih hlen).short, (ih hlen).borders⟩
      · rcases hinit with ⟨table, hbuilds, rfl⟩
        have hsize := lt_of_buildsTable hbuilds
        have htable := Loop.returns_unique hbuilds (buildsTable_of_lt hpattern hsize)
        refine ⟨hsize, ?_⟩
        show BordersBelow pattern table pattern.length
        rw [Option.some.inj htable]
        exact KmpSearcher.bordersBelow_buildTable hpattern
  | @search s c result hs hsearch ih =>
      have hsame := Loop.of_returns (fun _ => keeps_searchRound) ⟨rfl, rfl⟩ hsearch
      rw [hsame.left] at hlen
      have hwell := ih hlen
      constructor
      · rw [hsame.left]
        exact hwell.short
      · rw [hsame.left, hsame.right]
        exact hwell.borders

/-- A searcher that is given a pattern computes its longest overlaps, unless the length
of the pattern is no `int`. -/
theorem matches_iff {s : MachineSearcher} (hs : s.Reachable) {pattern : Str}
    (hlen : 2 <= pattern.length) : s.Matches pattern <-> pattern.length < 2 ^ 31 := by
  constructor
  · intro h
    rcases h with ⟨s', ⟨_, hinit⟩, _⟩
    split at hinit
    · rename_i heq
      rw [heq] at hlen ⊢
      exact (wellBuilt_of_reachable hs hlen).short
    · rcases hinit with ⟨table, hbuilds, _⟩
      exact lt_of_buildsTable hbuilds
  · intro hsize
    have hinit : exists table, BordersBelow pattern table pattern.length ∧
        s.Inits pattern { m := 0, i := 0, pattern := pattern, table := table } := by
      by_cases heq : pattern = s.pattern
      · rw [heq] at hlen ⊢
        refine ⟨s.table, (wellBuilt_of_reachable hs hlen).borders, hlen, ?_⟩
        rw [if_pos rfl]
        rfl
      · refine ⟨KmpSearcher.buildTable pattern, KmpSearcher.bordersBelow_buildTable hlen,
          hlen, ?_⟩
        rw [if_neg heq]
        exact ⟨_, buildsTable_of_lt hlen hsize, rfl⟩
    rcases hinit with ⟨table, hborders, hinit⟩
    refine ⟨_, hinit, ?_⟩
    intro text hunseen
    have hstart : Refines { m := 0, i := 0, pattern := pattern, table := table }
        { m := 0, i := 0, pattern := pattern, table := table } := ⟨rfl, rfl, rfl, rfl⟩
    rcases feeds_of_tracks hsize text _ _ [] hstart
      (tracks_of_borders hlen hborders) hunseen with ⟨fed, t, hfeeds, hrefines, htracks⟩
    refine ⟨fed, hfeeds, ?_⟩
    intro c
    rcases partialSearches_of_tracks hrefines htracks hsize c with
      ⟨result, hresult, _, hnumber⟩
    refine ⟨result, hresult, ?_⟩
    rw [hnumber]
    exact (KmpSearcher.found_partialSearch htracks c).longest

theorem matches_iff_sample :
    Matches { m := 7, i := 7 } (str "aab") <-> (str "aab").length < 2 ^ 31 :=
  matches_iff (Reachable.constructed 7 7) (by decide)

/-- The position runs over at a pattern of two gigabytes. -/
theorem matches_not_everywhere :
    ¬ forall (s : MachineSearcher) (pattern : Str), s.Reachable -> 2 <= pattern.length ->
      s.Matches pattern := by
  intro h
  have hlength : (List.replicate (2 ^ 31) (chr 'a')).length = 2 ^ 31 := List.length_replicate
  rcases h { m := 0, i := 0 } (List.replicate (2 ^ 31) (chr 'a')) (Reachable.constructed 0 0)
    (by rw [hlength]; omega) with ⟨s', ⟨_, hinit⟩, _⟩
  have hne : ¬ List.replicate (2 ^ 31) (chr 'a') = [] := by
    intro hnil
    rw [hnil] at hlength
    cases hlength
  rw [if_neg hne] at hinit
  rcases hinit with ⟨table, hbuilds, _⟩
  have hlt := lt_of_buildsTable hbuilds
  rw [hlength] at hlt
  exact Nat.lt_irrefl _ hlt

end MachineSearcher
end Multipart
end CisWebui
