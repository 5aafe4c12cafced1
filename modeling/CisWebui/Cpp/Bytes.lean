import Mathlib.Algebra.GroupWithZero.Nat
import Mathlib.Data.Bool.AllAny
import Mathlib.Data.List.Lex
import Mathlib.Order.Defs.LinearOrder

/-!
# Byte strings

A `std::string` is a list of bytes.  Literals of the source are written through
`str`, so that they can be compared with the source by eye.
-/

namespace CisWebui
namespace Cpp

/-- A `std::string` or `std::string_view`: a sequence of bytes. -/
abbrev Str := List UInt8

/-- The bytes of a string literal of the source (all of them ASCII). -/
def str (literal : String) : Str :=
  literal.toList.map fun c => c.toUInt8

/-- Bytes compare as unsigned numbers, and strings by them. -/
instance linearOrderByte : LinearOrder UInt8 where
  le_refl := UInt8.le_refl
  le_trans := fun _ _ _ => UInt8.le_trans
  le_antisymm := fun _ _ => UInt8.le_antisymm
  lt_iff_le_not_ge := fun a b => by
    rw [UInt8.not_le]
    constructor
    · intro h
      exact ⟨UInt8.le_of_lt h, h⟩
    · intro h
      exact h.right
  le_total := UInt8.le_total
  toDecidableLE := inferInstance
  toDecidableEq := inferInstance
  toDecidableLT := inferInstance

instance lawfulBEqStr : LawfulBEq Str :=
  inferInstance

/-- A `uint32_t` has a zero. -/
instance neZeroUint32 : NeZero (2 ^ 32) :=
  ⟨by decide⟩

/-- The byte of a character literal of the source. -/
def chr (literal : Char) : UInt8 :=
  literal.toUInt8

/-- What holds of the 256 numbers holds of every byte. -/
theorem forall_byte {P : UInt8 -> Prop} (h : forall n : Fin 256, P (UInt8.ofFin n))
    (ch : UInt8) : P ch :=
  h ch.toFin

/-- No piece of a split has the byte that was split at. -/
theorem not_mem_of_mem_splitOn {c : UInt8} {text piece : Str}
    (h : piece ∈ text.splitOn c) : c ∉ piece := by
  induction text generalizing piece with
  | nil =>
      rw [List.splitOn_nil, List.mem_singleton] at h
      simp [h]
  | cons d rest ih =>
      rw [List.splitOn_cons_eq_if_modifyHead] at h
      split at h
      · rcases List.mem_cons.mp h with hnil | hrest
        · simp [hnil]
        · exact ih hrest
      · rename_i hd
        cases hsplit : rest.splitOn c with
        | nil => exact absurd hsplit (List.splitOn_ne_nil c rest)
        | cons head tail =>
            rw [hsplit, List.modifyHead_cons] at h
            rcases List.mem_cons.mp h with hfirst | htail
            · have hhead : c ∉ head := ih (by simp [hsplit])
              have hne : c ≠ d := by
                intro heq
                simp [heq] at hd
              simp [hfirst, hhead, hne]
            · exact ih (by simp [hsplit, htail])

end Cpp
end CisWebui
