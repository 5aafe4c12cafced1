import CisWebui.Http.RequestUtil

/-!
# Escaping

`escape_uri` and what its counterpart makes of the result.  The hexadecimal
digits are computed with `int` and cut to a byte, from a `char` that is signed.
-/

namespace CisWebui
namespace Http

open Cpp

/-!
## Digits
-/

def toHex (ch : UInt8) : UInt8 :=
  ch + if 9 < ch then chr 'A' - 10 else chr '0'

/-- `ch * 16`, as the byte that `to_hex` gets -/
def timesSixteen (ch : UInt8) : UInt8 :=
  UInt8.ofInt (ch.toInt8.toInt * 16)

/-- `ch % 16`; the remainder has the sign of the character. -/
def modSixteen (ch : UInt8) : UInt8 :=
  UInt8.ofInt (ch.toInt8.toInt.tmod 16)

/-!
## Escaping
-/

def isAllowed (ch : UInt8) : Bool :=
  (chr 'a' <= ch && ch <= chr 'z') || (chr 'A' <= ch && ch <= chr 'Z') ||
    (chr '0' <= ch && ch <= chr '9')

/-- What is appended for one character. -/
def escapeChar (ch : UInt8) : Str :=
  if isAllowed ch then
    [ch]
  else if ch = chr ' ' then
    [chr '+']
  else
    [chr '%', toHex (timesSixteen ch), toHex (modSixteen ch)]

def escapeUri (unescapedUri : Str) : Str :=
  unescapedUri.flatMap escapeChar

/-!
## And back
-/

/-- What a character becomes when it is escaped and unescaped. -/
def recovered (ch : UInt8) : UInt8 :=
  if isAllowed ch ∨ ch = chr ' ' then
    ch
  else
    fromHex (toHex (timesSixteen ch)) * 16 + fromHex (toHex (modSixteen ch))

/-- A character that comes back: a letter, a digit, a space, or a control
character below 16. -/
def ComesBack (ch : UInt8) : Prop :=
  isAllowed ch = true ∨ ch = chr ' ' ∨ ch < 16

instance (ch : UInt8) : Decidable (ComesBack ch) :=
  inferInstanceAs (Decidable (_ ∨ _ ∨ _))

theorem ne_of_isAllowed {ch : UInt8} (h : isAllowed ch = true) :
    ch ≠ chr '+' ∧ ch ≠ chr '%' := by
  constructor
  · intro heq
    subst heq
    exact absurd h (by decide)
  · intro heq
    subst heq
    exact absurd h (by decide)

theorem unescapeUri_escapeChar (ch : UInt8) (rest : Str) :
    unescapeUri (escapeChar ch ++ rest) = recovered ch :: unescapeUri rest := by
  unfold escapeChar recovered
  by_cases hallowed : isAllowed ch = true
  · rcases ne_of_isAllowed hallowed with ⟨hplus, hpercent⟩
    rw [if_pos hallowed, if_pos (Or.inl hallowed), List.singleton_append,
      unescapeUri_cons_of_ne hpercent, if_neg hplus]
  · rw [if_neg hallowed]
    by_cases hspace : ch = chr ' '
    · rw [if_pos hspace, if_pos (Or.inr hspace), List.singleton_append,
        unescapeUri_cons_of_ne (by decide), if_pos rfl, hspace]
    · rw [if_neg hspace, if_neg (not_or.mpr ⟨hallowed, hspace⟩)]
      change unescapeUri (chr '%' :: _ :: _ :: rest) = _
      rw [unescapeUri, if_neg (by decide), if_pos rfl]

theorem unescapeUri_escapeUri (text : Str) :
    unescapeUri (escapeUri text) = text.map recovered := by
  induction text with
  | nil => rfl
  | cons ch rest ih =>
      change unescapeUri (escapeChar ch ++ escapeUri rest) = _
      rw [unescapeUri_escapeChar, ih, List.map_cons]

/-- The first digit carries nothing: sixteen times a character is a multiple of
sixteen, and only that of zero gets to be a digit. -/
theorem fromHex_timesSixteen (ch : UInt8) :
    fromHex (toHex (timesSixteen ch)) = 0 := by
  revert ch
  refine forall_byte ?_
  decide +kernel

theorem fromHex_modSixteen_eq_iff (ch : UInt8) :
    fromHex (toHex (modSixteen ch)) = ch <-> ch < 16 := by
  revert ch
  refine forall_byte ?_
  decide +kernel

theorem recovered_eq_iff (ch : UInt8) : recovered ch = ch <-> ComesBack ch := by
  unfold recovered ComesBack
  rw [← or_assoc]
  split
  · rename_i hplain
    exact iff_of_true rfl (Or.inl hplain)
  · rename_i hcoded
    rw [fromHex_timesSixteen, UInt8.zero_mul, UInt8.zero_add,
      fromHex_modSixteen_eq_iff]
    exact (or_iff_right hcoded).symm

/-- A text comes back exactly when each of its characters does. -/
theorem unescapeUri_escapeUri_eq_iff (text : Str) :
    unescapeUri (escapeUri text) = text <-> forall ch, ch ∈ text -> ComesBack ch := by
  rw [unescapeUri_escapeUri]
  induction text with
  | nil => simp
  | cons ch rest ih =>
      rw [List.map_cons, List.cons.injEq, ih, recovered_eq_iff, List.forall_mem_cons]

/-- A hyphen comes back as a carriage return. -/
theorem unescapeUri_escapeUri_not_everywhere :
    ¬ forall text, unescapeUri (escapeUri text) = text := by
  intro h
  have hhyphen : unescapeUri (escapeUri (str "-")) = [13] := by
    decide
  rw [h] at hhyphen
  exact absurd hhyphen (by decide)

end Http
end CisWebui
