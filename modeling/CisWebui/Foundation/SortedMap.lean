import Mathlib.Data.Finset.Sort
import Mathlib.Data.List.Basic
import Mathlib.Order.Lattice

/-!
# Sorted maps

A finite map as the list of its entries in the order of their keys.  Adding an
entry leaves a map as it is when the key is there already.
-/

namespace CisWebui
namespace Foundation

structure SortedMap (Key Value : Type) [LinearOrder Key] where
  entries : List (Key × Value)
  sorted : entries.Pairwise fun a b => a.1 < b.1

namespace SortedMap

variable {Key Value : Type} [LinearOrder Key]

def empty : SortedMap Key Value where
  entries := []
  sorted := List.Pairwise.nil

def find? (m : SortedMap Key Value) (key : Key) : Option Value :=
  (m.entries.find? fun e => e.1 = key).map Prod.snd

/-- The key is in the map. -/
def Has (m : SortedMap Key Value) (key : Key) : Prop :=
  exists value, (key, value) ∈ m.entries

theorem has_iff_any {m : SortedMap Key Value} {key : Key} :
    m.Has key <-> (m.entries.any fun e => e.1 = key) = true := by
  rw [List.any_eq_true]
  constructor
  · rintro ⟨value, h⟩
    exact ⟨_, h, by simp⟩
  · rintro ⟨⟨k, value⟩, h, hkey⟩
    have hk : k = key := by simpa using hkey
    subst hk
    exact ⟨value, h⟩

instance (m : SortedMap Key Value) (key : Key) : Decidable (m.Has key) :=
  decidable_of_iff _ has_iff_any.symm

/-!
## Adding an entry
-/

def insertEntry (entry : Key × Value) : List (Key × Value) -> List (Key × Value)
  | [] => [entry]
  | e :: rest =>
      if entry.1 < e.1 then entry :: e :: rest else e :: insertEntry entry rest

theorem mem_insertEntry {entry e : Key × Value} {l : List (Key × Value)} :
    e ∈ insertEntry entry l <-> e = entry ∨ e ∈ l := by
  induction l with
  | nil => simp [insertEntry]
  | cons a rest ih =>
      rw [insertEntry]
      split
      · simp
      · rw [List.mem_cons, ih, List.mem_cons]
        exact or_left_comm

theorem sorted_insertEntry {entry : Key × Value} {l : List (Key × Value)}
    (hl : l.Pairwise fun a b => a.1 < b.1)
    (hnew : forall value, ¬ (entry.1, value) ∈ l) :
    (insertEntry entry l).Pairwise fun a b => a.1 < b.1 := by
  induction l with
  | nil => exact List.pairwise_singleton _ _
  | cons a rest ih =>
      rw [List.pairwise_cons] at hl
      rw [insertEntry]
      split
      · rename_i hlt
        rw [List.pairwise_cons]
        refine ⟨?_, List.pairwise_cons.mpr hl⟩
        intro b hb
        rcases List.mem_cons.mp hb with rfl | hb
        · exact hlt
        · exact lt_trans hlt (hl.left b hb)
      · rename_i hlt
        rw [List.pairwise_cons]
        refine ⟨?_, ih hl.right fun value h =>
          hnew value (List.mem_cons_of_mem _ h)⟩
        intro b hb
        rcases mem_insertEntry.mp hb with rfl | hb
        · refine lt_of_le_of_ne (not_lt.mp hlt) fun heq => hnew a.2 ?_
          rw [← heq]
          exact List.mem_cons_self ..
        · exact hl.left b hb

def emplace (m : SortedMap Key Value) (key : Key) (value : Value) :
    SortedMap Key Value :=
  if h : m.Has key then
    m
  else
    { entries := insertEntry (key, value) m.entries
      sorted := sorted_insertEntry m.sorted fun other hother => h ⟨other, hother⟩ }

theorem mem_emplace {m : SortedMap Key Value} {key : Key} {value : Value}
    {e : Key × Value} :
    e ∈ (m.emplace key value).entries <->
      e ∈ m.entries ∨ (¬ m.Has key ∧ e = (key, value)) := by
  unfold emplace
  split
  · rename_i h
    simp [h]
  · rename_i h
    simp only [mem_insertEntry, h, not_false_eq_true, true_and]
    exact or_comm

/-!
## Removing an entry
-/

def erase (m : SortedMap Key Value) (key : Key) : SortedMap Key Value where
  entries := m.entries.filter fun e => e.1 ≠ key
  sorted := m.sorted.filter _

theorem mem_erase {m : SortedMap Key Value} {key : Key} {e : Key × Value} :
    e ∈ (m.erase key).entries <-> e ∈ m.entries ∧ e.1 ≠ key := by
  simp [erase]

theorem erase_of_not_has {m : SortedMap Key Value} {key : Key}
    (h : ¬ m.Has key) : m.erase key = m := by
  have hentries : m.entries.filter (fun e => e.1 ≠ key) = m.entries := by
    rw [List.filter_eq_self]
    intro e he
    have hne : e.1 ≠ key := by
      rintro rfl
      exact h ⟨e.2, he⟩
    simpa using hne
  rcases m with ⟨entries, sorted⟩
  simp only [erase]
  congr

/-- The entry with the highest key. -/
def last? (m : SortedMap Key Value) : Option (Key × Value) :=
  m.entries.getLast?

theorem eq_nil_of_last? {m : SortedMap Key Value} (h : m.last? = none) :
    m.entries = [] :=
  List.getLast?_eq_none_iff.mp h

theorem mem_of_last? {m : SortedMap Key Value} {e : Key × Value}
    (h : m.last? = some e) : e ∈ m.entries :=
  List.mem_of_getLast? h

theorem le_of_last? {m : SortedMap Key Value} {e other : Key × Value}
    (h : m.last? = some e) (hother : other ∈ m.entries) : other.1 <= e.1 := by
  rcases List.getLast?_eq_some_iff.mp h with ⟨front, hfront⟩
  have hsorted := m.sorted
  rw [hfront] at hother hsorted
  rcases List.mem_append.mp hother with hmem | hlast
  · exact le_of_lt ((List.pairwise_append.mp hsorted).right.right other hmem e
      (List.mem_singleton_self e))
  · rw [List.mem_singleton.mp hlast]

/-!
## Keys
-/

theorem nodup_keys (m : SortedMap Key Value) : (m.entries.map Prod.fst).Nodup := by
  rw [List.Nodup, List.pairwise_map]
  exact m.sorted.imp ne_of_lt

theorem perm_insertEntry (entry : Key × Value) (l : List (Key × Value)) :
    (insertEntry entry l).Perm (entry :: l) := by
  induction l with
  | nil => exact List.Perm.refl _
  | cons e rest ih =>
      rw [insertEntry]
      split
      · exact List.Perm.refl _
      · exact (ih.cons e).trans (List.Perm.swap entry e rest)

theorem perm_emplace {m : SortedMap Key Value} {key : Key} (h : ¬ m.Has key)
    (value : Value) : (m.emplace key value).entries.Perm ((key, value) :: m.entries) := by
  unfold emplace
  rw [dif_neg h]
  exact perm_insertEntry (key, value) m.entries

theorem eq_of_mem {m : SortedMap Key Value} {key : Key} {a b : Value}
    (ha : (key, a) ∈ m.entries) (hb : (key, b) ∈ m.entries) : a = b := by
  have hsorted := m.sorted
  generalize m.entries = l at ha hb hsorted
  induction l with
  | nil => cases ha
  | cons e rest ih =>
      rw [List.pairwise_cons] at hsorted
      rcases List.mem_cons.mp ha with rfl | ha'
      · rcases List.mem_cons.mp hb with hb' | hb'
        · exact (Prod.mk.inj hb').right.symm
        · exact absurd (hsorted.left _ hb') (lt_irrefl _)
      · rcases List.mem_cons.mp hb with rfl | hb'
        · exact absurd (hsorted.left _ ha') (lt_irrefl _)
        · exact ih ha' hb' hsorted.right

theorem find?_eq_some_iff {m : SortedMap Key Value} {key : Key}
    {value : Value} : m.find? key = some value <-> (key, value) ∈ m.entries := by
  constructor
  · intro h
    rcases Option.map_eq_some_iff.mp h with ⟨⟨k, v⟩, hfind, rfl⟩
    have hk : k = key := by simpa using List.find?_some hfind
    subst hk
    exact List.mem_of_find?_eq_some hfind
  · intro h
    cases hfind : m.entries.find? (fun e => e.1 = key) with
    | none =>
        have hnone := List.find?_eq_none.mp hfind (key, value) h
        simp at hnone
    | some e =>
        rcases e with ⟨k, v⟩
        have hk : k = key := by simpa using List.find?_some hfind
        subst hk
        rw [find?, hfind, eq_of_mem h (List.mem_of_find?_eq_some hfind)]
        rfl

theorem find?_eq_none_iff {m : SortedMap Key Value} {key : Key} :
    m.find? key = none <-> ¬ m.Has key := by
  constructor
  · rintro h ⟨value, hvalue⟩
    rw [find?_eq_some_iff.mpr hvalue] at h
    cases h
  · intro h
    cases hfind : m.find? key with
    | none => rfl
    | some value => exact absurd ⟨value, find?_eq_some_iff.mp hfind⟩ h

theorem find?_emplace (m : SortedMap Key Value) (key k : Key) (value : Value) :
    (m.emplace key value).find? k =
      if k = key then some ((m.find? key).getD value) else m.find? k := by
  by_cases h : m.Has key
  · have hsame : m.emplace key value = m := by
      unfold emplace
      rw [dif_pos h]
    rcases h with ⟨old, hold⟩
    rw [hsame]
    split
    · rename_i heq
      rw [heq, find?_eq_some_iff.mpr hold]
      rfl
    · rfl
  · have hnone := find?_eq_none_iff.mpr h
    rw [hnone, Option.getD_none]
    split
    · rename_i heq
      rw [heq, find?_eq_some_iff, mem_emplace]
      exact Or.inr ⟨h, rfl⟩
    · rename_i hne
      apply Option.ext
      intro v
      rw [find?_eq_some_iff, find?_eq_some_iff, mem_emplace]
      constructor
      · intro hv
        rcases hv with hv | hv
        · exact hv
        · exact absurd (congrArg Prod.fst hv.right) hne
      · intro hv
        exact Or.inl hv

theorem find?_erase (m : SortedMap Key Value) (key k : Key) :
    (m.erase key).find? k = if k = key then none else m.find? k := by
  split
  · rename_i heq
    rw [heq, find?_eq_none_iff]
    intro h
    rcases h with ⟨value, hvalue⟩
    exact (mem_erase.mp hvalue).right rfl
  · rename_i hne
    apply Option.ext
    intro v
    rw [find?_eq_some_iff, find?_eq_some_iff, mem_erase]
    constructor
    · intro hv
      exact hv.left
    · intro hv
      exact ⟨hv, hne⟩

/-!
## Assignments
-/

/-- Put a value under a key, made from the one that was there. -/
def alter (m : SortedMap Key Value) (key : Key) (f : Option Value -> Value) :
    SortedMap Key Value :=
  (m.erase key).emplace key (f (m.find? key))

theorem find?_alter (m : SortedMap Key Value) (key k : Key)
    (f : Option Value -> Value) :
    (m.alter key f).find? k =
      if k = key then some (f (m.find? key)) else m.find? k := by
  unfold alter
  rw [find?_emplace, find?_erase, find?_erase, if_pos rfl, Option.getD_none]
  split
  · rfl
  · rfl

section Folds

variable {α : Type} {step : SortedMap Key Value -> α -> SortedMap Key Value}
  {key : α -> Key} {f : α -> Option Value -> Value}

/-- A loop that puts something under the key of each element it comes to. -/
def Assigns (step : SortedMap Key Value -> α -> SortedMap Key Value)
    (key : α -> Key) (f : α -> Option Value -> Value) : Prop :=
  forall m a k,
    (step m a).find? k = if k = key a then some (f a (m.find? k)) else m.find? k

theorem find?_foldl_of_not_mem (hstep : Assigns step key f) {l : List α}
    {k : Key} (h : forall a, a ∈ l -> key a ≠ k) (m : SortedMap Key Value) :
    (l.foldl step m).find? k = m.find? k := by
  induction l generalizing m with
  | nil => rfl
  | cons a rest ih =>
      rw [List.foldl_cons, ih fun b hb => h b (List.mem_cons_of_mem _ hb),
        hstep, if_neg fun heq => h a (List.mem_cons_self ..) heq.symm]

theorem find?_foldl_of_some (hstep : Assigns step key f) {l : List α} {k : Key}
    {value : Value} (h : forall a, a ∈ l -> key a = k -> f a (some value) = value)
    {m : SortedMap Key Value} (hm : m.find? k = some value) :
    (l.foldl step m).find? k = some value := by
  induction l generalizing m with
  | nil => exact hm
  | cons a rest ih =>
      rw [List.foldl_cons]
      apply ih fun b hb => h b (List.mem_cons_of_mem _ hb)
      rw [hstep]
      split
      · rename_i heq
        rw [hm, h a (List.mem_cons_self ..) heq.symm]
      · exact hm

/-- All elements under the key agree on the value, and there is one. -/
theorem find?_foldl_of_mem (hstep : Assigns step key f) {l : List α} {k : Key}
    {value : Value} {m : SortedMap Key Value}
    (hfirst : forall a, a ∈ l -> key a = k -> f a (m.find? k) = value)
    (hagain : forall a, a ∈ l -> key a = k -> f a (some value) = value)
    {a : α} (ha : a ∈ l) (hkey : key a = k) :
    (l.foldl step m).find? k = some value := by
  induction l generalizing m with
  | nil => cases ha
  | cons b rest ih =>
      rw [List.foldl_cons]
      have hrest := fun c (hc : c ∈ rest) => hagain c (List.mem_cons_of_mem _ hc)
      rcases eq_or_ne (key b) k with hb | hb
      · apply find?_foldl_of_some hstep hrest
        rw [hstep, if_pos hb.symm, hfirst b (List.mem_cons_self ..) hb]
      · have hsame : (step m b).find? k = m.find? k := by
          rw [hstep, if_neg hb.symm]
        rcases List.mem_cons.mp ha with hab | ha
        · rw [hab] at hkey
          exact absurd hkey hb
        · apply ih _ hrest ha
          intro c hc
          rw [hsame]
          exact hfirst c (List.mem_cons_of_mem _ hc)

end Folds

theorem nodup_entries (m : SortedMap Key Value) : m.entries.Nodup :=
  m.sorted.imp fun hlt heq => absurd (heq ▸ hlt) (lt_irrefl _)

/-- A map with the keys of a set is the list of the set in its order. -/
theorem entries_eq_sort {m : SortedMap Key Value} {s : Finset Key} {f : Key -> Value}
    (hmem : forall key, key ∈ s -> m.find? key = some (f key))
    (hnot : forall key, key ∉ s -> m.find? key = none) :
    m.entries = s.sort.map fun key => (key, f key) := by
  have hkeys : m.entries.map Prod.fst = s.sort := by
    apply List.SortedLT.eq_of_mem_iff
    · exact List.Pairwise.sortedLT (List.pairwise_map.mpr m.sorted)
    · exact s.sortedLT_sort
    · intro key
      rw [Finset.mem_sort, List.mem_map]
      constructor
      · rintro ⟨e, he, rfl⟩
        by_contra hout
        exact find?_eq_none_iff.mp (hnot e.1 hout) ⟨e.2, he⟩
      · intro hkey
        exact ⟨_, find?_eq_some_iff.mp (hmem key hkey), rfl⟩
  have hvalues : forall e, e ∈ m.entries -> (e.1, f e.1) = e := by
    rintro ⟨key, value⟩ he
    have hfound := find?_eq_some_iff.mpr he
    by_cases hkey : key ∈ s
    · rw [hmem key hkey] at hfound
      rw [Option.some.inj hfound]
    · rw [hnot key hkey] at hfound
      cases hfound
  have hsame : (m.entries.map fun e => (e.1, f e.1)) = m.entries := by
    rw [List.map_congr_left hvalues, List.map_id']
  rw [← hkeys, List.map_map]
  exact hsame.symm

end SortedMap

end Foundation
end CisWebui
