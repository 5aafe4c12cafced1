import Mathlib.Data.List.GetD
import CisWebui.Cpp.Bytes

/-!
# Base 64

The encoder that tokens and keys are written with.
-/

namespace CisWebui

open Cpp

def base64Chars : Str :=
  str "ABCDEFGHIJKLMNOPQRSTUVWXYZ" ++ str "abcdefghijklmnopqrstuvwxyz" ++
    str "0123456789+/"

/-- `char_array_4` of the three bytes in `char_array_3`. -/
def base64Group (a b c : UInt8) : List UInt8 :=
  [(a &&& 0xfc) >>> 2, ((a &&& 0x03) <<< 4) + ((b &&& 0xf0) >>> 4),
    ((b &&& 0x0f) <<< 2) + ((c &&& 0xc0) >>> 6), c &&& 0x3f]

/-- The groups of six bits that are written, each as a number. -/
def base64Sextets : Str -> List UInt8
  | a :: b :: c :: rest => base64Group a b c ++ base64Sextets rest
  | [a, b] => (base64Group a b 0).take 3
  | [a] => (base64Group a 0 0).take 2
  | [] => []

/-- The padding of the last group. -/
def base64Padding : Str -> Str
  | _ :: _ :: _ :: rest => base64Padding rest
  | [_, _] => str "="
  | [_] => str "=="
  | [] => []

def base64Char (sextet : UInt8) : UInt8 :=
  base64Chars.getD sextet.toNat 0

/-- `base64_encode` -/
def base64Encode (data : Str) : Str :=
  (base64Sextets data).map base64Char ++ base64Padding data

example : base64Encode (str "Man") = str "TWFu" := by decide

example : base64Encode (str "Ma") = str "TWE=" := by decide

/-- The bytes that the encoder writes separate nothing in a header and start no
escape sequence. -/
def PlainByte (c : UInt8) : Prop :=
  c ≠ chr ';' ∧ c ≠ chr ',' ∧ c ≠ chr '\n' ∧ c ≠ chr '\r' ∧ c ≠ chr '%'

instance (c : UInt8) : Decidable (PlainByte c) :=
  inferInstanceAs (Decidable (_ ∧ _))

theorem plainByte_base64Char (sextet : UInt8) :
    PlainByte (base64Char sextet) := by
  have hall : forall c, c ∈ base64Chars -> PlainByte c :=
    List.all_iff_forall_prop.mp (by decide)
  rcases Nat.lt_or_ge sextet.toNat base64Chars.length with hlt | hge
  · rw [base64Char, List.getD_eq_getElem _ _ hlt]
    exact hall _ (List.getElem_mem hlt)
  · rw [base64Char, List.getD_eq_default _ _ hge]
    decide

theorem mem_base64Padding {data : Str} {c : UInt8}
    (hc : c ∈ base64Padding data) : c = chr '=' := by
  induction data using base64Padding.induct with
  | case1 a b d rest ih => exact ih hc
  | case2 a b => exact List.mem_singleton.mp hc
  | case3 a =>
      rcases List.mem_cons.mp hc with hfirst | hsecond
      · exact hfirst
      · exact List.mem_singleton.mp hsecond
  | case4 => cases hc

theorem plainByte_base64Encode {data : Str} {c : UInt8}
    (hc : c ∈ base64Encode data) : PlainByte c := by
  rcases List.mem_append.mp hc with hchar | hpadding
  · rcases List.mem_map.mp hchar with ⟨sextet, _, rfl⟩
    exact plainByte_base64Char sextet
  · rw [mem_base64Padding hpadding]
    decide

theorem base64Char_eq_plus_iff (sextet : UInt8) :
    base64Char sextet = chr '+' <-> sextet = 62 := by
  have hall : forall n, n < 64 ->
      (base64Chars.getD n 0 = chr '+' <-> n = 62) := by
    decide
  have hlength : base64Chars.length = 64 := by
    decide
  have heq : sextet = 62 <-> sextet.toNat = 62 := by
    rw [← UInt8.toNat_inj]
    rfl
  rw [heq]
  rcases Nat.lt_or_ge sextet.toNat 64 with hlt | hge
  · exact hall _ hlt
  · rw [base64Char, List.getD_eq_default _ _ (hlength ▸ hge)]
    apply iff_of_false
    · decide
    · omega

/-- A plus sign stands for six bits of value 62. -/
theorem plus_mem_base64Encode_iff (data : Str) :
    chr '+' ∈ base64Encode data <-> 62 ∈ base64Sextets data := by
  constructor
  · intro hplus
    rcases List.mem_append.mp hplus with hchar | hpadding
    · rcases List.mem_map.mp hchar with ⟨sextet, hsextet, hchar⟩
      rw [(base64Char_eq_plus_iff sextet).mp hchar] at hsextet
      exact hsextet
    · have heq : chr '+' = chr '=' := mem_base64Padding hpadding
      exact absurd heq (by decide)
  · intro hsextet
    exact List.mem_append_left _ (List.mem_map.mpr
      ⟨62, hsextet, (base64Char_eq_plus_iff 62).mpr rfl⟩)

end CisWebui
