import CisWebui.Http.RequestUtil

/-!
# Pairs in a query

What `parse_request_query` makes of a query that is written down as pairs.  Both
of its expressions ask for a backslash in front of the equals sign.
-/

namespace CisWebui
namespace Http

open Cpp

/-- A pair that is written as it is. -/
structure PlainPair (pair : Str × Str) : Prop where
  key_nonempty : pair.1 ≠ []
  key_plain : forall c, c ∈ pair.1 -> c ≠ chr '=' ∧ c ≠ chr '&' ∧ c ≠ chr '?'
  value_nonempty : pair.2 ≠ []
  value_plain : chr '&' ∉ pair.2

def writePair (pair : Str × Str) : Str :=
  pair.1 ++ chr '=' :: pair.2

def writeQuery (pairs : List (Str × Str)) : Str :=
  chr '?' :: (str "&").intercalate (pairs.map writePair)

/-- The parser returns the first value of every key that has been written, and
no other key. -/
def RecoversPairs (pairs : List (Str × Str)) : Prop :=
  forall key, (parseRequestQuery (writeQuery pairs)).lookup key = pairs.lookup key

/-!
## The first key
-/

/-- A key that is in the map. -/
def HasKey (params : List (Str × Str)) (key : Str) : Prop :=
  (params.lookup key).isSome = true

theorem hasKey_insertParam (params : List (Str × Str)) (key value : Str) :
    HasKey (insertParam params key value) key := by
  unfold HasKey insertParam
  split
  · rename_i hthere
    exact hthere
  · rw [List.lookup_append]
    simp

theorem HasKey.insertParam {params : List (Str × Str)} {key : Str}
    (h : HasKey params key) (other value : Str) :
    HasKey (insertParam params other value) key := by
  unfold HasKey Http.insertParam
  split
  · exact h
  · rw [List.lookup_append, Option.isSome_or, h, Bool.true_or]

/-- The loop over the entries keeps every key. -/
theorem HasKey.parseQueryEntries {key : Str} (text : Str) :
    forall {params : List (Str × Str)}, HasKey params key ->
      HasKey (parseQueryEntries params text) key := by
  induction hlength : text.length using Nat.strong_induction_on generalizing text with
  | _ n ih =>
      intro params h
      rw [Http.parseQueryEntries]
      split
      · exact h
      · rename_i found hfound
        have hshorter := suffix_length_of_searchQueryEntry hfound
        rw [hlength] at hshorter
        exact ih _ hshorter _ rfl (h.insertParam _ _)

/-- The first key of a text that begins with a question mark begins with it as
well, since the group takes it along. -/
theorem key_of_matchPair {rest : Str} {found : QueryMatch}
    (h : matchPair (chr '?' :: rest) = some found) : chr '?' ∈ found.key := by
  have hrun : (chr '?' :: rest).takeWhile (fun c => c ≠ chr '=') =
      chr '?' :: rest.takeWhile fun c => c ≠ chr '=' :=
    List.takeWhile_cons_of_pos (by decide)
  simp only [matchPair] at h
  rw [hrun] at h
  split at h
  · cases h
  · split at h
    · rename_i hmatch
      cases h
      cases htail : rest.takeWhile fun c => c ≠ chr '=' with
      | nil =>
          rw [htail] at hmatch
          exact absurd hmatch.left (by simp)
      | cons c tail =>
          rw [List.dropLast_cons_cons]
          exact List.mem_cons_self
    · cases h

/-- The map has a key that is empty or has a question mark in it. -/
theorem exists_key_parseRequestQuery (rest : Str) :
    exists key, HasKey (parseRequestQuery (chr '?' :: rest)) key ∧
      (key = [] ∨ chr '?' ∈ key) := by
  unfold parseRequestQuery
  cases hbegin : searchQueryBegin (chr '?' :: rest) with
  | none => exact ⟨[], hasKey_insertParam [] [] [], Or.inl rfl⟩
  | some found =>
      have hkey := hasKey_insertParam [] found.key found.value
      exact ⟨found.key, hkey.parseQueryEntries found.suffix,
        Or.inr (key_of_matchPair hbegin)⟩

theorem lookup_eq_none_of_plain {pairs : List (Str × Str)}
    (h : forall pair, pair ∈ pairs -> PlainPair pair) {key : Str}
    (hkey : key = [] ∨ chr '?' ∈ key) : pairs.lookup key = none := by
  rw [List.lookup_eq_none_iff]
  intro pair hpair
  have hne : key ≠ pair.1 := by
    intro heq
    subst heq
    rcases hkey with hnil | hquestion
    · exact (h pair hpair).key_nonempty hnil
    · exact ((h pair hpair).key_plain _ hquestion).right.right rfl
  simpa using hne

/-- No query gives its pairs back. -/
theorem not_recoversPairs {pairs : List (Str × Str)}
    (h : forall pair, pair ∈ pairs -> PlainPair pair) : ¬ RecoversPairs pairs := by
  intro hrecovers
  rcases exists_key_parseRequestQuery ((str "&").intercalate (pairs.map writePair)) with
    ⟨key, hthere, hkey⟩
  have hlookup : (parseRequestQuery (writeQuery pairs)).lookup key = none := by
    rw [hrecovers key]
    exact lookup_eq_none_of_plain h hkey
  rw [HasKey] at hthere
  rw [writeQuery] at hlookup
  rw [hlookup] at hthere
  cases hthere

theorem plainPair_sample : PlainPair (str "k", str "v") where
  key_nonempty := by decide
  key_plain := List.all_iff_forall_prop.mp (by decide)
  value_nonempty := by decide
  value_plain := by decide

/-- The query of a single pair is not taken apart. -/
theorem not_recoversPairs_sample : ¬ RecoversPairs [(str "k", str "v")] := by
  apply not_recoversPairs
  intro pair hpair
  rw [List.mem_singleton.mp hpair]
  exact plainPair_sample

theorem recoversPairs_not_everywhere :
    ¬ forall pairs : List (Str × Str), pairs ≠ [] ->
      (forall pair, pair ∈ pairs -> PlainPair pair) -> RecoversPairs pairs := by
  intro h
  have hrecovers := h [(str "k", str "v")] (List.cons_ne_nil _ _) (by
    intro pair hpair
    rw [List.mem_singleton.mp hpair]
    exact plainPair_sample)
  have hempty : parseRequestQuery (writeQuery [(str "k", str "v")]) = [([], [])] := by
    decide
  have hnone := hrecovers (str "k")
  rw [hempty] at hnone
  exact absurd hnone (by decide)

end Http
end CisWebui
