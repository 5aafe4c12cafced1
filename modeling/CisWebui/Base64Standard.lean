import CisWebui.Base64

/-!
# Base 64 as the standard has it

`base64_encode` as its loop computes it, with the window of three bytes that keeps
what an earlier group left in it.  It is compared with RFC 4648, for which three
bytes are one number of 24 bits and four characters are the digits of that number
to the base 64.
-/

namespace CisWebui
namespace Base64Standard

open Cpp

/-!
## The loop
-/

/-- `char_array_3` -/
structure CharArray3 where
  at0 : UInt8
  at1 : UInt8
  at2 : UInt8
deriving DecidableEq, Repr

namespace CharArray3

def store (w : CharArray3) (i : Nat) (byte : UInt8) : CharArray3 :=
  match i with
  | 0 => { w with at0 := byte }
  | 1 => { w with at1 := byte }
  | _ => { w with at2 := byte }

/-- `char_array_4` -/
def charArray4 (w : CharArray3) : List UInt8 :=
  base64Group w.at0 w.at1 w.at2

end CharArray3

/-- The variables of the loop. -/
structure Encoder where
  result : Str := []
  i : Nat := 0
  char_array_3 : CharArray3
deriving DecidableEq, Repr

namespace Encoder

/-- A round of the loop, on the next byte. -/
def push (s : Encoder) (byte : UInt8) : Encoder :=
  let char_array_3 := s.char_array_3.store s.i byte
  if s.i + 1 = 3 then
    { result := s.result ++ char_array_3.charArray4.map base64Char
      i := 0
      char_array_3 := char_array_3 }
  else
    { s with
      i := s.i + 1
      char_array_3 := char_array_3 }

/-- What is behind the loop: the rest of the window is cleared, and of the last group
as much is written as the window had. -/
def finish (s : Encoder) : Str :=
  if s.i = 0 then
    s.result
  else
    let char_array_3 := (List.range' s.i (3 - s.i)).foldl (fun w j => w.store j 0) s.char_array_3
    s.result ++ (char_array_3.charArray4.take (s.i + 1)).map base64Char ++
      List.replicate (3 - s.i) (chr '=')

end Encoder

/-- `base64_encode`, whose window is not initialized. -/
def base64EncodeLoop (window : CharArray3) (data : Str) : Str :=
  (data.foldl Encoder.push { char_array_3 := window }).finish

/-- From the front of a group the loop appends the encoding of what is left. -/
theorem finish_foldl_push (data : Str) (result : Str) (window : CharArray3) :
    (data.foldl Encoder.push { result := result, char_array_3 := window }).finish =
      result ++ base64Encode data := by
  induction data using base64Sextets.induct generalizing result window with
  | case1 a b c rest ih =>
      have hthree : (a :: b :: c :: rest).foldl Encoder.push
            { result := result, char_array_3 := window } =
          rest.foldl Encoder.push
            { result := result ++ (base64Group a b c).map base64Char
              char_array_3 := ⟨a, b, c⟩ } := rfl
      rw [hthree, ih, base64Encode, base64Encode, base64Sextets, base64Padding, List.map_append]
      simp only [List.append_assoc]
  | case2 a b =>
      have htail : ([a, b].foldl Encoder.push
            { result := result, char_array_3 := window }).finish =
          result ++ ((base64Group a b 0).take 3).map base64Char ++ [chr '='] := rfl
      rw [htail, List.append_assoc]
      rfl
  | case3 a =>
      have htail : ([a].foldl Encoder.push
            { result := result, char_array_3 := window }).finish =
          result ++ ((base64Group a 0 0).take 2).map base64Char ++ [chr '=', chr '='] := rfl
      rw [htail, List.append_assoc]
      rfl
  | case4 =>
      have htail : (([] : Str).foldl Encoder.push
          { result := result, char_array_3 := window }).finish = result := rfl
      rw [htail]
      exact (List.append_nil result).symm

theorem base64EncodeLoop_eq (window : CharArray3) (data : Str) :
    base64EncodeLoop window data = base64Encode data :=
  finish_foldl_push data [] window

/-!
## The standard
-/

/-- The character for six bits. -/
def alphabet (value : Nat) : UInt8 :=
  if value < 26 then UInt8.ofNat ((chr 'A').toNat + value)
  else if value < 52 then UInt8.ofNat ((chr 'a').toNat + (value - 26))
  else if value < 62 then UInt8.ofNat ((chr '0').toNat + (value - 52))
  else if value = 62 then chr '+'
  else chr '/'

def alphabetValue (c : UInt8) : Option Nat :=
  if chr 'A' <= c ∧ c <= chr 'Z' then some (c.toNat - (chr 'A').toNat)
  else if chr 'a' <= c ∧ c <= chr 'z' then some (c.toNat - (chr 'a').toNat + 26)
  else if chr '0' <= c ∧ c <= chr '9' then some (c.toNat - (chr '0').toNat + 52)
  else if c = chr '+' then some 62
  else if c = chr '/' then some 63
  else none

/-- Three bytes as a number of 24 bits. -/
def ofOctets (a b c : UInt8) : Nat :=
  a.toNat * 65536 + b.toNat * 256 + c.toNat

def octets (n : Nat) : List UInt8 :=
  [UInt8.ofNat (n / 65536), UInt8.ofNat (n / 256 % 256), UInt8.ofNat (n % 256)]

/-- Four groups of six bits as a number of 24 bits. -/
def ofSextets (a b c d : Nat) : Nat :=
  a * 262144 + b * 4096 + c * 64 + d

def sextets (n : Nat) : List Nat :=
  [n / 262144, n / 4096 % 64, n / 64 % 64, n % 64]

/-- The encoding: a last group of one or two bytes is filled up with zeros, and for
every byte that was not there a padding character is written. -/
def encode : Str -> Str
  | a :: b :: c :: rest => (sextets (ofOctets a b c)).map alphabet ++ encode rest
  | [a, b] => ((sextets (ofOctets a b 0)).take 3).map alphabet ++ str "="
  | [a] => ((sextets (ofOctets a 0 0)).take 2).map alphabet ++ str "=="
  | [] => []

/-- The decoder that accepts nothing but encodings: padding is for the last group
alone, and the bits behind the bytes are zero. -/
def decode : Str -> Option Str
  | a :: b :: c :: d :: rest =>
      match alphabetValue a, alphabetValue b, alphabetValue c, alphabetValue d with
      | some a, some b, some c, some d =>
          (decode rest).map fun bytes => octets (ofSextets a b c d) ++ bytes
      | some a, some b, some c, none =>
          if d = chr '=' ∧ rest = [] ∧ c % 4 = 0 then
            some ((octets (ofSextets a b c 0)).take 2)
          else
            none
      | some a, some b, none, none =>
          if c = chr '=' ∧ d = chr '=' ∧ rest = [] ∧ b % 16 = 0 then
            some ((octets (ofSextets a b 0 0)).take 1)
          else
            none
      | _, _, _, _ => none
  | [] => some []
  | _ => none

/-!
## The code against the standard
-/

theorem alphabetValue_alphabet {value : Nat} (h : value < 64) :
    alphabetValue (alphabet value) = some value := by
  have hall : forall n, n < 64 -> alphabetValue (alphabet n) = some n := by
    decide
  exact hall value h

theorem base64Char_eq {sextet : UInt8} (h : sextet.toNat < 64) :
    base64Char sextet = alphabet sextet.toNat := by
  have hall : forall n, n < 64 -> base64Chars.getD n 0 = alphabet n := by
    decide
  exact hall sextet.toNat h

/-- The parts of a byte that go into different groups. -/
theorem toNat_high_low (byte : UInt8) :
    ((byte &&& 0xfc) >>> 2).toNat = byte.toNat / 4 ∧
      ((byte &&& 0x03) <<< 4).toNat = byte.toNat % 4 * 16 ∧
        ((byte &&& 0xf0) >>> 4).toNat = byte.toNat / 16 ∧
          ((byte &&& 0x0f) <<< 2).toNat = byte.toNat % 16 * 4 ∧
            ((byte &&& 0xc0) >>> 6).toNat = byte.toNat / 64 ∧
              (byte &&& 0x3f).toNat = byte.toNat % 64 := by
  revert byte
  refine forall_byte ?_
  decide +kernel

theorem toNat_base64Group (a b c : UInt8) :
    (base64Group a b c).map UInt8.toNat = sextets (ofOctets a b c) := by
  have ha := a.toNat_lt
  have hb := b.toNat_lt
  have hc := c.toNat_lt
  rcases toNat_high_low a with ⟨ha0, ha1, _, _, _, _⟩
  rcases toNat_high_low b with ⟨_, _, hb1, hb2, _, _⟩
  rcases toNat_high_low c with ⟨_, _, _, _, hc2, hc3⟩
  simp only [base64Group, List.map_cons, List.map_nil, UInt8.toNat_add, ha0, ha1, hb1, hb2, hc2,
    hc3, sextets, ofOctets, List.cons.injEq, and_true]
  omega

theorem ofOctets_lt (a b c : UInt8) : ofOctets a b c < 2 ^ 24 := by
  have ha := a.toNat_lt
  have hb := b.toNat_lt
  have hc := c.toNat_lt
  unfold ofOctets
  omega

theorem lt_of_mem_sextets {n value : Nat} (hn : n < 2 ^ 24) (h : value ∈ sextets n) :
    value < 64 := by
  simp only [sextets, List.mem_cons, List.not_mem_nil, or_false] at h
  omega

theorem map_base64Char_base64Group (a b c : UInt8) :
    (base64Group a b c).map base64Char = (sextets (ofOctets a b c)).map alphabet := by
  rw [← toNat_base64Group, List.map_map]
  apply List.map_congr_left
  intro sextet hsextet
  have hmem : sextet.toNat ∈ sextets (ofOctets a b c) := by
    rw [← toNat_base64Group]
    exact List.mem_map_of_mem hsextet
  exact base64Char_eq (lt_of_mem_sextets (ofOctets_lt a b c) hmem)

theorem base64Encode_eq_encode (data : Str) : base64Encode data = encode data := by
  induction data using encode.induct with
  | case1 a b c rest ih =>
      rw [encode, ← ih, ← map_base64Char_base64Group, base64Encode, base64Encode,
        base64Sextets, base64Padding, List.map_append, List.append_assoc]
  | case2 a b =>
      rw [encode, List.map_take, ← map_base64Char_base64Group, ← List.map_take]
      rfl
  | case3 a =>
      rw [encode, List.map_take, ← map_base64Char_base64Group, ← List.map_take]
      rfl
  | case4 => rfl

theorem length_encode (data : Str) : (encode data).length = 4 * ((data.length + 2) / 3) := by
  induction data using encode.induct with
  | case1 a b c rest ih =>
      rw [encode, List.length_append, ih, List.length_map]
      simp only [sextets, List.length_cons, List.length_nil]
      omega
  | case2 a b => simp [encode, sextets, str]
  | case3 a => simp [encode, sextets, str]
  | case4 => rfl

/-!
## Decoding
-/

theorem octets_ofOctets (a b c : UInt8) : octets (ofOctets a b c) = [a, b, c] := by
  have ha := a.toNat_lt
  have hb := b.toNat_lt
  have hc := c.toNat_lt
  have h0 : ofOctets a b c / 65536 = a.toNat := by
    unfold ofOctets
    omega
  have h1 : ofOctets a b c / 256 % 256 = b.toNat := by
    unfold ofOctets
    omega
  have h2 : ofOctets a b c % 256 = c.toNat := by
    unfold ofOctets
    omega
  rw [octets, h0, h1, h2, UInt8.ofNat_toNat, UInt8.ofNat_toNat, UInt8.ofNat_toNat]

theorem ofSextets_sextets (n : Nat) :
    ofSextets (n / 262144) (n / 4096 % 64) (n / 64 % 64) (n % 64) = n := by
  unfold ofSextets
  omega

theorem alphabetValue_of_sextet {n value : Nat} (hn : n < 2 ^ 24) (h : value ∈ sextets n) :
    alphabetValue (alphabet value) = some value :=
  alphabetValue_alphabet (lt_of_mem_sextets hn h)

theorem alphabetValue_padding : alphabetValue (chr '=') = none := by
  decide

theorem decode_sextets {n : Nat} (hn : n < 2 ^ 24) (rest : Str) :
    decode ((sextets n).map alphabet ++ rest) =
      (decode rest).map fun bytes => octets n ++ bytes := by
  simp only [sextets, List.map_cons, List.map_nil, List.cons_append, List.nil_append]
  rw [decode, alphabetValue_of_sextet hn (by simp [sextets]),
    alphabetValue_of_sextet hn (by simp [sextets]),
    alphabetValue_of_sextet hn (by simp [sextets]),
    alphabetValue_of_sextet hn (by simp [sextets])]
  simp only [ofSextets_sextets]

theorem decode_encode (data : Str) : decode (encode data) = some data := by
  induction data using encode.induct with
  | case1 a b c rest ih =>
      rw [encode, decode_sextets (ofOctets_lt a b c), ih, octets_ofOctets]
      rfl
  | case2 a b =>
      have hn : ofOctets a b 0 = a.toNat * 65536 + b.toNat * 256 := by
        simp [ofOctets]
      have hsextet : ofOctets a b 0 % 64 = 0 := by
        omega
      have hzero : ofOctets a b 0 / 64 % 64 % 4 = 0 := by
        omega
      have htext : encode [a, b] =
          [alphabet (ofOctets a b 0 / 262144), alphabet (ofOctets a b 0 / 4096 % 64),
            alphabet (ofOctets a b 0 / 64 % 64), chr '='] := rfl
      have hnumber := ofSextets_sextets (ofOctets a b 0)
      rw [hsextet] at hnumber
      rw [htext, decode, alphabetValue_of_sextet (ofOctets_lt a b 0) (by simp [sextets]),
        alphabetValue_of_sextet (ofOctets_lt a b 0) (by simp [sextets]),
        alphabetValue_of_sextet (ofOctets_lt a b 0) (by simp [sextets]), alphabetValue_padding]
      simp only [hzero, hnumber, octets_ofOctets]
      rfl
  | case3 a =>
      have hn : ofOctets a 0 0 = a.toNat * 65536 := by
        simp [ofOctets]
      have hthird : ofOctets a 0 0 / 64 % 64 = 0 := by
        omega
      have hfourth : ofOctets a 0 0 % 64 = 0 := by
        omega
      have hzero : ofOctets a 0 0 / 4096 % 64 % 16 = 0 := by
        omega
      have htext : encode [a] =
          [alphabet (ofOctets a 0 0 / 262144), alphabet (ofOctets a 0 0 / 4096 % 64),
            chr '=', chr '='] := rfl
      have hnumber := ofSextets_sextets (ofOctets a 0 0)
      rw [hthird, hfourth] at hnumber
      rw [htext, decode, alphabetValue_of_sextet (ofOctets_lt a 0 0) (by simp [sextets]),
        alphabetValue_of_sextet (ofOctets_lt a 0 0) (by simp [sextets]), alphabetValue_padding]
      simp only [hzero, hnumber, octets_ofOctets]
      rfl
  | case4 => rfl

/-- Whatever the window held, the code writes the standard's encoding, which is as long
as it is to be and gives the bytes back; so no other bytes have it. -/
theorem base64EncodeLoop_standard (window : CharArray3) (data : Str) :
    base64EncodeLoop window data = encode data ∧
      (base64EncodeLoop window data).length = 4 * ((data.length + 2) / 3) ∧
        decode (base64EncodeLoop window data) = some data ∧
          forall (window' : CharArray3) (data' : Str),
            base64EncodeLoop window' data' = base64EncodeLoop window data -> data' = data := by
  have hloop : forall (window : CharArray3) (data : Str),
      base64EncodeLoop window data = encode data := by
    intro window data
    rw [base64EncodeLoop_eq, base64Encode_eq_encode]
  rw [hloop window data]
  refine ⟨rfl, length_encode data, decode_encode data, ?_⟩
  intro window' data' heq
  rw [hloop window' data'] at heq
  have hdata := decode_encode data'
  rw [heq, decode_encode] at hdata
  exact (Option.some.inj hdata).symm

end Base64Standard
end CisWebui
