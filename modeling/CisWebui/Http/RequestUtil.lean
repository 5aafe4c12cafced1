import CisWebui.Cpp.Bytes

/-!
# Request utilities

The percent encoding of targets and the two regular expressions that take a
query string apart.

The source writes the expressions as raw strings, so `\\=` in them is a
backslash followed by an equals sign.
-/

namespace CisWebui
namespace Http

open Cpp

/-!
## Percent encoding
-/

def fromHex (ch : UInt8) : UInt8 :=
  if chr '0' <= ch ∧ ch <= chr '9' then ch - chr '0'
  else if chr 'a' <= ch ∧ ch <= chr 'f' then ch - (chr 'a' - 10)
  else if chr 'A' <= ch ∧ ch <= chr 'F' then ch - (chr 'A' - 10)
  else 0

def unescapeUri : Str -> Str
  | [] => []
  | c :: a :: b :: rest =>
      if c = chr '+' then
        chr ' ' :: unescapeUri (a :: b :: rest)
      else if c = chr '%' then
        (fromHex a * 16 + fromHex b) :: unescapeUri rest
      else
        c :: unescapeUri (a :: b :: rest)
  | c :: rest =>
      -- too close to the end for an escape sequence
      (if c = chr '+' then chr ' ' else c) :: unescapeUri rest

/-- A byte that starts no escape sequence is unescaped by itself. -/
theorem unescapeUri_cons_of_ne {c : UInt8} (hc : c ≠ chr '%') (rest : Str) :
    unescapeUri (c :: rest) =
      (if c = chr '+' then chr ' ' else c) :: unescapeUri rest := by
  match rest with
  | [] => rfl
  | [_] => rfl
  | a :: b :: rest =>
      rw [unescapeUri, if_neg hc]
      split
      · rfl
      · rfl

/-- Without a percent sign only the plus signs are unescaped. -/
theorem unescapeUri_eq_self_iff_of_forall {text : Str}
    (htext : forall c, c ∈ text -> c ≠ chr '%') :
    unescapeUri text = text <-> chr '+' ∉ text := by
  induction text with
  | nil =>
      apply iff_of_true
      · rfl
      · exact List.not_mem_nil
  | cons c rest ih =>
      have hrest := ih fun d hd => htext d (List.mem_cons_of_mem c hd)
      rw [unescapeUri_cons_of_ne (htext c List.mem_cons_self), List.cons.injEq,
        hrest, List.mem_cons, not_or]
      have hfirst : (if c = chr '+' then chr ' ' else c) = c <-> chr '+' ≠ c := by
        rcases eq_or_ne c (chr '+') with rfl | hne
        · decide
        · rw [if_neg hne]
          exact iff_of_true rfl hne.symm
      rw [hfirst]

theorem unescapeUri_append_of_forall {plain : Str}
    (hplain : forall c, c ∈ plain -> c ≠ chr '+' ∧ c ≠ chr '%') (text : Str) :
    unescapeUri (plain ++ text) = plain ++ unescapeUri text := by
  induction plain with
  | nil => rfl
  | cons c rest ih =>
      have hc := hplain c List.mem_cons_self
      rw [List.cons_append, unescapeUri_cons_of_ne hc.right, if_neg hc.left,
        ih fun d hd => hplain d (List.mem_cons_of_mem c hd)]
      rfl

/-- Somewhere a percent sign has two characters behind it. -/
def hasEscape : Str -> Bool
  | c :: a :: b :: rest => c = chr '%' || hasEscape (a :: b :: rest)
  | _ => false

theorem length_unescapeUri_le (text : Str) :
    (unescapeUri text).length <= text.length := by
  induction text using unescapeUri.induct with
  | case1 => exact Nat.le_refl 0
  | case2 a b rest ih =>
      rw [unescapeUri, if_pos rfl, List.length_cons, List.length_cons]
      exact Nat.succ_le_succ ih
  | case3 a b rest hplus ih =>
      rw [unescapeUri, if_neg hplus, if_pos rfl]
      simp only [List.length_cons]
      omega
  | case4 c a b rest hplus hpercent ih =>
      rw [unescapeUri, if_neg hplus, if_neg hpercent, List.length_cons,
        List.length_cons]
      exact Nat.succ_le_succ ih
  | case5 c rest hshort ih =>
      rw [unescapeUri.eq_3 c rest hshort, List.length_cons, List.length_cons]
      exact Nat.succ_le_succ ih

/-- An escape sequence gets shorter, so a text that is unescaped to itself has
none. -/
theorem unescapeUri_eq_self_iff (text : Str) :
    unescapeUri text = text <-> chr '+' ∉ text ∧ hasEscape text = false := by
  induction text using unescapeUri.induct with
  | case1 => simp [unescapeUri, hasEscape]
  | case2 a b rest ih =>
      apply iff_of_false
      · rw [unescapeUri, if_pos rfl]
        intro h
        exact absurd (List.cons.inj h).left (by decide)
      · simp
  | case3 a b rest hplus ih =>
      apply iff_of_false
      · intro h
        have hlength := congrArg List.length h
        have hle := length_unescapeUri_le rest
        rw [unescapeUri, if_neg hplus, if_pos rfl] at hlength
        simp only [List.length_cons] at hlength
        omega
      · simp [hasEscape]
  | case4 c a b rest hplus hpercent ih =>
      rw [unescapeUri, if_neg hplus, if_neg hpercent, List.cons.injEq, ih,
        hasEscape]
      simp [hpercent, Ne.symm hplus]
  | case5 c rest hshort ih =>
      have hescape : forall text : Str, text.length <= 2 -> hasEscape text = false := by
        intro text htext
        match text with
        | [] => rfl
        | [_] => rfl
        | [_, _] => rfl
        | _ :: _ :: _ :: _ => simp at htext
      have hrest : rest.length <= 1 := by
        match rest with
        | [] => simp
        | [_] => simp
        | a :: b :: tail => exact absurd rfl (hshort a b tail)
      rw [unescapeUri.eq_3 c rest hshort, List.cons.injEq, ih,
        hescape rest (by omega), hescape (c :: rest) (by simpa using hrest)]
      rcases eq_or_ne c (chr '+') with rfl | hplus
      · apply iff_of_false
        · intro h
          rw [if_pos rfl] at h
          exact absurd h.left (by decide)
        · simp
      · simp [hplus, Ne.symm hplus]

/-!
## Query strings
-/

/-- What the groups of an expression matched, and the text behind the match. -/
structure QueryMatch where
  key : Str
  value : Str
  suffix : Str
deriving DecidableEq, Repr

/--
`([^=]+)\\=([^&]+)` at the start of the text.  The first group is greedy and
gives back the backslash in front of the first equals sign.
-/
def matchPair (text : Str) : Option QueryMatch :=
  let run := text.takeWhile fun c => c ≠ chr '='
  match text.dropWhile fun c => c ≠ chr '=' with
  | [] => none
  | _ :: rest =>
      let value := rest.takeWhile fun c => c ≠ chr '&'
      if 2 <= run.length ∧ run.getLast? = some (chr '\\') ∧ value ≠ [] then
        some
          { key := run.dropLast
            value := value
            suffix := rest.dropWhile fun c => c ≠ chr '&' }
      else
        none

/-- `query_begin_regex`; its lazy optional backslash is never used, since the
first group could have taken it. -/
def searchQueryBegin (text : Str) : Option QueryMatch :=
  matchPair text

/-- `query_entry_regex` at the start of the text. -/
def matchEntry : Str -> Option QueryMatch
  | c :: d :: rest =>
      if c = chr '\\' ∧ d = chr '&' then matchPair rest else none
  | _ => none

/-- `query_entry_regex`, searched for from left to right. -/
def searchQueryEntry : Str -> Option QueryMatch
  | [] => none
  | c :: rest => (matchEntry (c :: rest)).orElse fun _ => searchQueryEntry rest

/-- `std::map::insert`: the first value of a key stays. -/
def insertParam (params : List (Str × Str)) (key value : Str) :
    List (Str × Str) :=
  if (params.lookup key).isSome then params else params ++ [(key, value)]

theorem suffix_length_of_matchPair {text : Str} {found : QueryMatch}
    (h : matchPair text = some found) :
    found.suffix.length < text.length := by
  have hdrop : (text.dropWhile fun c => c ≠ chr '=').length <= text.length :=
    (List.dropWhile_suffix _).length_le
  simp only [matchPair] at h
  split at h
  · cases h
  · rename_i c rest hrest
    rw [hrest, List.length_cons] at hdrop
    split at h
    · cases h
      have hsuffix : (rest.dropWhile fun c => c ≠ chr '&').length <= rest.length :=
        (List.dropWhile_suffix _).length_le
      show (rest.dropWhile fun c => c ≠ chr '&').length < text.length
      omega
    · cases h

theorem suffix_length_of_searchQueryEntry {text : Str} {found : QueryMatch}
    (h : searchQueryEntry text = some found) :
    found.suffix.length < text.length := by
  induction text with
  | nil => cases h
  | cons c rest ih =>
      cases hentry : matchEntry (c :: rest) with
      | none =>
          rw [searchQueryEntry, hentry] at h
          have hrest : found.suffix.length < rest.length := ih h
          simp only [List.length_cons]
          omega
      | some first =>
          rw [searchQueryEntry, hentry] at h
          cases h
          cases rest with
          | nil => cases hentry
          | cons d rest' =>
              simp only [matchEntry] at hentry
              split at hentry
              · have hpair := suffix_length_of_matchPair hentry
                simp only [List.length_cons]
                omega
              · cases hentry

/-- The loop of `parse_request_query` over the entries. -/
def parseQueryEntries (params : List (Str × Str)) (text : Str) :
    List (Str × Str) :=
  match h : searchQueryEntry text with
  | none => params
  | some found =>
      have := suffix_length_of_searchQueryEntry h
      parseQueryEntries (insertParam params found.key found.value) found.suffix
termination_by text.length

theorem parseQueryEntries_of_none {text : Str} (h : searchQueryEntry text = none)
    (params : List (Str × Str)) : parseQueryEntries params text = params := by
  rw [parseQueryEntries]
  split
  · rfl
  · rename_i found hfound
    rw [h] at hfound
    cases hfound

theorem parseQueryEntries_of_some {text : Str} {found : QueryMatch}
    (h : searchQueryEntry text = some found) (params : List (Str × Str)) :
    parseQueryEntries params text =
      parseQueryEntries (insertParam params found.key found.value) found.suffix := by
  rw [parseQueryEntries]
  split
  · rename_i hnone
    rw [h] at hnone
    cases hnone
  · rename_i other hother
    rw [h] at hother
    cases hother
    rfl

/-- `parse_request_query`; when the first search fails, its groups are empty
and its end is the end of the text. -/
def parseRequestQuery (body : Str) : List (Str × Str) :=
  match searchQueryBegin body with
  | none => insertParam [] [] []
  | some found =>
      parseQueryEntries (insertParam [] found.key found.value) found.suffix

end Http
end CisWebui
