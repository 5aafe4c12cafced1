import Mathlib.Data.List.Basic
import Mathlib.Data.List.Nodup

/-!
# Tables

A table is a list of records under increasing numbers.  A new record gets a
number that no record of the table has ever had.

The module has the operations on one table, each with its members, and two
kinds of constraints with the operations that keep them: a key that no two
records share, and references into another table.
-/

namespace CisWebui
namespace Foundation

structure Record (Row : Type) where
  id : Nat
  row : Row
deriving DecidableEq, Repr

structure Table (Row : Type) where
  records : List (Record Row)
  /-- The highest number given out so far. -/
  last : Nat
  sorted : records.Pairwise fun r s => r.id < s.id
  bounded : forall r, r ∈ records -> r.id <= last

namespace Table

variable {Row Target Key : Type}

def empty : Table Row where
  records := []
  last := 0
  sorted := List.Pairwise.nil
  bounded := fun _ h => by cases h

def select (t : Table Row) (p : Record Row -> Bool) : List (Record Row) :=
  t.records.filter p

def insert (t : Table Row) (row : Row) : Table Row where
  records := t.records ++ [{ id := t.last + 1, row := row }]
  last := t.last + 1
  sorted := by
    rw [List.pairwise_append]
    refine ⟨t.sorted, List.pairwise_singleton _ _, ?_⟩
    intro r hr s hs
    cases List.mem_singleton.mp hs
    exact Nat.lt_succ_of_le (t.bounded r hr)
  bounded := by
    intro r hr
    rcases List.mem_append.mp hr with hr | hr
    · exact Nat.le_succ_of_le (t.bounded r hr)
    · cases List.mem_singleton.mp hr
      exact Nat.le_refl _

def remove (t : Table Row) (p : Record Row -> Bool) : Table Row where
  records := t.records.filter fun r => !p r
  last := t.last
  sorted := t.sorted.filter _
  bounded := fun r hr => t.bounded r (List.mem_of_mem_filter hr)

/-- Change a record, if it is one of those to be changed. -/
def changeIf (p : Record Row -> Bool) (f : Row -> Row) (r : Record Row) :
    Record Row :=
  if p r then { r with row := f r.row } else r

@[simp] theorem changeIf_id (p : Record Row -> Bool) (f : Row -> Row)
    (r : Record Row) : (changeIf p f r).id = r.id := by
  unfold changeIf
  split
  · rfl
  · rfl

def update (t : Table Row) (p : Record Row -> Bool) (f : Row -> Row) :
    Table Row where
  records := t.records.map (changeIf p f)
  last := t.last
  sorted := by
    rw [List.pairwise_map]
    exact t.sorted.imp fun h => by simpa using h
  bounded := by
    intro r hr
    rcases List.mem_map.mp hr with ⟨s, hs, rfl⟩
    simpa using t.bounded s hs

/-- The table has a record under the number. -/
def Has (t : Table Row) (id : Nat) : Prop :=
  exists r, r ∈ t.records ∧ r.id = id

instance (t : Table Row) (id : Nat) : Decidable (t.Has id) :=
  inferInstanceAs (Decidable (exists r, r ∈ t.records ∧ r.id = id))

/-!
## Members
-/

theorem mem_select {t : Table Row} {p : Record Row -> Bool} {r : Record Row} :
    r ∈ t.select p <-> r ∈ t.records ∧ p r = true :=
  List.mem_filter

theorem mem_insert {t : Table Row} {row : Row} {r : Record Row} :
    r ∈ (t.insert row).records <->
      r ∈ t.records ∨ r = { id := t.last + 1, row := row } := by
  simp [insert]

theorem mem_remove {t : Table Row} {p : Record Row -> Bool} {r : Record Row} :
    r ∈ (t.remove p).records <-> r ∈ t.records ∧ p r = false := by
  simp [remove]

theorem mem_update {t : Table Row} {p : Record Row -> Bool} {f : Row -> Row}
    {r : Record Row} :
    r ∈ (t.update p f).records <->
      exists s, s ∈ t.records ∧ changeIf p f s = r :=
  List.mem_map

theorem eq_of_id {t : Table Row} {r s : Record Row} (hr : r ∈ t.records)
    (hs : s ∈ t.records) (hid : r.id = s.id) : r = s := by
  have hsorted := t.sorted
  generalize t.records = records at hr hs hsorted
  induction records with
  | nil => cases hr
  | cons a rest ih =>
      rw [List.pairwise_cons] at hsorted
      rcases List.mem_cons.mp hr with hr | hr
      · rcases List.mem_cons.mp hs with hs | hs
        · rw [hr, hs]
        · have hlt := hsorted.left s hs
          rw [← hr, hid] at hlt
          exact absurd hlt (Nat.lt_irrefl _)
      · rcases List.mem_cons.mp hs with hs | hs
        · have hlt := hsorted.left r hr
          rw [← hs, hid] at hlt
          exact absurd hlt (Nat.lt_irrefl _)
        · exact ih hr hs hsorted.right

theorem nodup_records (t : Table Row) : t.records.Nodup :=
  t.sorted.imp fun hlt heq => absurd (heq ▸ hlt) (Nat.lt_irrefl _)

theorem mem_of_select {t : Table Row} {p : Record Row -> Bool} {r : Record Row}
    {rest : List (Record Row)} (h : t.select p = r :: rest) :
    r ∈ t.records ∧ p r = true := by
  rw [← mem_select, h]
  exact List.mem_cons_self ..

/-- A condition that one record alone meets selects this record. -/
theorem select_eq_singleton {t : Table Row} {p : Record Row -> Bool}
    {r : Record Row} (hr : r ∈ t.records) (hp : p r = true)
    (honly : forall s, s ∈ t.records -> p s = true -> s = r) :
    t.select p = [r] := by
  have hmem : r ∈ t.select p := mem_select.mpr ⟨hr, hp⟩
  have hnodup : (t.select p).Nodup := t.nodup_records.filter _
  cases hselect : t.select p with
  | nil =>
      rw [hselect] at hmem
      cases hmem
  | cons a rest =>
      have hall : forall s, s ∈ a :: rest -> s = r := by
        intro s hs
        rw [← hselect] at hs
        exact honly s (mem_select.mp hs).left (mem_select.mp hs).right
      rw [hselect, List.nodup_cons] at hnodup
      have ha : a = r := hall a (List.mem_cons_self ..)
      cases rest with
      | nil => rw [ha]
      | cons b rest =>
          have hb : b = r := hall b (by simp)
          rw [ha, hb] at hnodup
          exact absurd (List.mem_cons_self ..) hnodup.left

/-- A new record that does not meet the condition is not selected. -/
theorem select_insert {t : Table Row} {p : Record Row -> Bool} {row : Row}
    (h : p { id := t.last + 1, row := row } = false) :
    (t.insert row).select p = t.select p := by
  unfold select insert
  rw [List.filter_append, List.filter_cons_of_neg (by simp [h]), List.filter_nil,
    List.append_nil]

/-- Changing records that meet the condition neither before nor afterwards does
not change what is selected. -/
theorem select_update {t : Table Row} {p q : Record Row -> Bool} {f : Row -> Row}
    (h : forall r, r ∈ t.records -> q r = true ->
      p r = false ∧ p { r with row := f r.row } = false) :
    (t.update q f).select p = t.select p := by
  have hmap : forall records : List (Record Row),
      (forall r, r ∈ records -> q r = true ->
        p r = false ∧ p { r with row := f r.row } = false) ->
      (records.map (changeIf q f)).filter p = records.filter p := by
    intro records hrecords
    induction records with
    | nil => rfl
    | cons r rest ih =>
        have hrest := ih fun s hs => hrecords s (List.mem_cons_of_mem _ hs)
        cases hq : q r with
        | false =>
            have hsame : changeIf q f r = r := by
              simp [changeIf, hq]
            rw [List.map_cons, hsame, List.filter_cons, List.filter_cons, hrest]
        | true =>
            have hchanged : changeIf q f r = { r with row := f r.row } := by
              simp [changeIf, hq]
            rcases hrecords r List.mem_cons_self hq with ⟨hbefore, hafter⟩
            rw [List.map_cons, hchanged, List.filter_cons_of_neg (by simp [hafter]),
              List.filter_cons_of_neg (by simp [hbefore]), hrest]
  exact hmap t.records h

/-!
## Numbers
-/

theorem has_insert {t : Table Row} {row : Row} {id : Nat} (h : t.Has id) :
    (t.insert row).Has id := by
  rcases h with ⟨r, hr, hid⟩
  exact ⟨r, mem_insert.mpr (Or.inl hr), hid⟩

theorem has_update {t : Table Row} {p : Record Row -> Bool} {f : Row -> Row}
    {id : Nat} (h : t.Has id) : (t.update p f).Has id := by
  rcases h with ⟨r, hr, hid⟩
  exact ⟨changeIf p f r, mem_update.mpr ⟨r, hr, rfl⟩, by simpa using hid⟩

/-!
## Keys
-/

/-- No two records have the same key. -/
def Unique (key : Row -> Key) (t : Table Row) : Prop :=
  forall r s, r ∈ t.records -> s ∈ t.records -> key r.row = key s.row -> r = s

/-- No record has the key. -/
def Fresh (key : Row -> Key) (k : Key) (t : Table Row) : Prop :=
  forall r, r ∈ t.records -> key r.row ≠ k

instance [DecidableEq Key] (key : Row -> Key) (k : Key) (t : Table Row) :
    Decidable (t.Fresh key k) :=
  inferInstanceAs (Decidable (forall r, r ∈ t.records -> key r.row ≠ k))

theorem unique_empty (key : Row -> Key) : (empty : Table Row).Unique key := by
  intro r s hr
  cases hr

theorem unique_insert {key : Row -> Key} {t : Table Row} {row : Row}
    (h : t.Unique key) (hfresh : t.Fresh key (key row)) :
    (t.insert row).Unique key := by
  intro r s hr hs hkey
  rcases mem_insert.mp hr with hr | hr
  · rcases mem_insert.mp hs with hs | hs
    · exact h r s hr hs hkey
    · rw [hs] at hkey
      exact absurd hkey (hfresh r hr)
  · rcases mem_insert.mp hs with hs | hs
    · rw [hr] at hkey
      exact absurd hkey.symm (hfresh s hs)
    · rw [hr, hs]

theorem unique_remove {key : Row -> Key} {t : Table Row}
    (p : Record Row -> Bool) (h : t.Unique key) : (t.remove p).Unique key := by
  intro r s hr hs hkey
  exact h r s (mem_remove.mp hr).left (mem_remove.mp hs).left hkey

theorem key_changeIf {key : Row -> Key} {p : Record Row -> Bool}
    {f : Row -> Row} {r : Record Row}
    (hf : p r = true -> key (f r.row) = key r.row) :
    key (changeIf p f r).row = key r.row := by
  unfold changeIf
  split
  · rename_i h
    exact hf h
  · rfl

theorem unique_update {key : Row -> Key} {t : Table Row}
    {p : Record Row -> Bool} {f : Row -> Row} (h : t.Unique key)
    (hf : forall r, r ∈ t.records -> p r = true -> key (f r.row) = key r.row) :
    (t.update p f).Unique key := by
  intro r s hr hs hkey
  rcases mem_update.mp hr with ⟨r', hr', rfl⟩
  rcases mem_update.mp hs with ⟨s', hs', rfl⟩
  rw [key_changeIf (hf r' hr'), key_changeIf (hf s' hs')] at hkey
  rw [h r' s' hr' hs' hkey]

/-- A row may be replaced by another one under its key. -/
theorem unique_replace {key : Row -> Key} {t : Table Row} {found : Record Row}
    {row : Row} (h : t.Unique key) (hfound : found ∈ t.records)
    (hrow : key row = key found.row) :
    (t.update (fun r => r.id = found.id) fun _ => row).Unique key := by
  apply unique_update h
  intro r hr hid
  rw [decide_eq_true_eq] at hid
  rw [eq_of_id hr hfound hid, hrow]

theorem select_key [DecidableEq Key] {key : Row -> Key} {t : Table Row}
    (h : t.Unique key) {r : Record Row} (hr : r ∈ t.records) :
    t.select (fun s => key s.row = key r.row) = [r] := by
  apply select_eq_singleton hr
  · simp
  · intro s hs hkey
    exact h s r hs hr (by simpa using hkey)

/-- A key selects the one record that has it, or nothing. -/
theorem select_key_cases [DecidableEq Key] {key : Row -> Key} {t : Table Row}
    (h : t.Unique key) (k : Key) :
    (exists r, r ∈ t.records ∧ key r.row = k ∧ t.select (fun s => key s.row = k) = [r]) ∨
      (t.Fresh key k ∧ t.select (fun s => key s.row = k) = []) := by
  by_cases hfresh : t.Fresh key k
  · refine Or.inr ⟨hfresh, ?_⟩
    unfold select
    rw [List.filter_eq_nil_iff]
    intro r hr hkey
    exact hfresh r hr (of_decide_eq_true hkey)
  · unfold Fresh at hfresh
    push Not at hfresh
    rcases hfresh with ⟨r, hr, rfl⟩
    exact Or.inl ⟨r, hr, rfl, select_key h hr⟩

/-!
## References
-/

/-- Every record refers to a record of the other table. -/
def Refers (ref : Row -> Nat) (t : Table Row) (u : Table Target) : Prop :=
  forall r, r ∈ t.records -> u.Has (ref r.row)

/-- Remove the records that refer to nothing. -/
def cascade (ref : Row -> Nat) (t : Table Row) (u : Table Target) : Table Row :=
  t.remove fun r => !decide (u.Has (ref r.row))

theorem mem_cascade {ref : Row -> Nat} {t : Table Row} {u : Table Target}
    {r : Record Row} :
    r ∈ (t.cascade ref u).records <-> r ∈ t.records ∧ u.Has (ref r.row) := by
  simp [cascade, mem_remove]

variable {ref : Row -> Nat} {t : Table Row} {u : Table Target}

theorem refers_empty : (empty : Table Row).Refers ref u := by
  intro r hr
  cases hr

theorem refers_cascade : (t.cascade ref u).Refers ref u := by
  intro r hr
  exact (mem_cascade.mp hr).right

theorem refers_insert {row : Row} (h : t.Refers ref u)
    (hrow : u.Has (ref row)) : (t.insert row).Refers ref u := by
  intro r hr
  rcases mem_insert.mp hr with hr | rfl
  · exact h r hr
  · exact hrow

theorem refers_remove (p : Record Row -> Bool) (h : t.Refers ref u) :
    (t.remove p).Refers ref u := by
  intro r hr
  exact h r (mem_remove.mp hr).left

theorem refers_update {p : Record Row -> Bool} {f : Row -> Row}
    (h : t.Refers ref u)
    (hf : forall row, u.Has (ref (f row)) ∨ ref (f row) = ref row) :
    (t.update p f).Refers ref u := by
  intro r hr
  rcases mem_update.mp hr with ⟨s, hs, rfl⟩
  unfold changeIf
  split
  · rcases hf s.row with hrow | hrow
    · exact hrow
    · show u.Has (ref (f s.row))
      rw [hrow]
      exact h s hs
  · exact h s hs

/-- The pairs of records of which the first refers to the second. -/
def join (ref : Row -> Nat) (t : Table Row) (u : Table Target) :
    List (Record Row × Record Target) :=
  t.records.flatMap fun r =>
    (u.select fun s => s.id = ref r.row).map fun s => (r, s)

theorem mem_join {r : Record Row} {s : Record Target} :
    (r, s) ∈ t.join ref u <->
      r ∈ t.records ∧ s ∈ u.records ∧ s.id = ref r.row := by
  unfold join
  rw [List.mem_flatMap]
  constructor
  · intro h
    rcases h with ⟨r', hr', hs⟩
    rcases List.mem_map.mp hs with ⟨s', hs', heq⟩
    cases heq
    rw [mem_select, decide_eq_true_eq] at hs'
    exact ⟨hr', hs'⟩
  · intro h
    rcases h with ⟨hr, hs⟩
    refine ⟨r, hr, List.mem_map.mpr ⟨s, ?_, rfl⟩⟩
    rw [mem_select, decide_eq_true_eq]
    exact hs

/-- The records that are joined with one of which `p` holds. -/
theorem map_fst_join (h : t.Refers ref u) (p : Record Target -> Bool) :
    ((t.join ref u).filter fun e => p e.2).map Prod.fst =
      t.select fun r => u.records.any fun s => s.id = ref r.row && p s := by
  unfold join
  unfold Refers at h
  unfold select
  generalize t.records = records at h
  induction records with
  | nil => rfl
  | cons r rest ih =>
      rcases h r List.mem_cons_self with ⟨s, hs, hid⟩
      have hone : u.records.filter (fun s => s.id = ref r.row) = [s] := by
        apply select_eq_singleton hs (decide_eq_true hid)
        intro other hother hother'
        exact eq_of_id hother hs ((of_decide_eq_true hother').trans hid.symm)
      have hany : (u.records.any fun s => s.id = ref r.row && p s) = p s := by
        rw [← List.any_filter, hone, List.any_cons, List.any_nil, Bool.or_false]
      rw [List.flatMap_cons, List.filter_append, List.map_append,
        ih fun q hq => h q (List.mem_cons_of_mem r hq), hone, List.filter_cons, hany]
      cases hp : p s with
      | true => simp [hp]
      | false => simp [hp]

theorem refers_mono {u' : Table Target} (h : t.Refers ref u)
    (hu : forall id, u.Has id -> u'.Has id) : t.Refers ref u' := by
  intro r hr
  exact hu _ (h r hr)

end Table

end Foundation
end CisWebui
