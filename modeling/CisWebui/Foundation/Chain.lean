import Mathlib.Data.List.Basic

/-!
# Chains of steps

Steps that are taken one after the other until one of them fails.  Nothing is
taken back, and a step that fails may have done a part of its work.

Where steps only add to a state, in the sense of a relation that need not be
antisymmetric, a chain that has failed leaves the state as it was exactly if no
step in front of the failure had anything to add, and the failing one has added
nothing either.
-/

namespace CisWebui
namespace Foundation
namespace Chain

variable {Step State Error : Type} {perform : Step -> State -> Except Error Unit × State}

def run (perform : Step -> State -> Except Error Unit × State) :
    List Step -> State -> Except Error Unit × State
  | [], s => (Except.ok (), s)
  | step :: rest, s =>
      match perform step s with
      | (Except.ok (), s) => run perform rest s
      | (Except.error e, s) => (Except.error e, s)

/-- Where a chain fails: the steps in front, the one that fails, and the state it
finds. -/
inductive Breaks (perform : Step -> State -> Except Error Unit × State) :
    List Step -> State -> List Step -> Step -> State -> Prop where
  | here {step : Step} {rest : List Step} {s s' : State} {e : Error}
      (hfails : perform step s = (Except.error e, s')) :
      Breaks perform (step :: rest) s [] step s
  | later {step failing : Step} {rest before : List Step} {s s' found : State}
      (hdone : perform step s = (Except.ok (), s'))
      (hrest : Breaks perform rest s' before failing found) :
      Breaks perform (step :: rest) s (step :: before) failing found

/-- A chain that breaks ends as the failing step does. -/
theorem run_of_breaks {steps before : List Step} {failing : Step} {s found : State}
    (h : Breaks perform steps s before failing found) :
    run perform steps s = perform failing found := by
  induction h with
  | here hfails =>
      rw [run, hfails]
  | later hdone _ ih =>
      rw [run, hdone]
      exact ih

theorem breaks_of_error {steps : List Step} {e : Error} :
    forall {s s' : State}, run perform steps s = (Except.error e, s') ->
      exists before failing found, Breaks perform steps s before failing found ∧
        perform failing found = (Except.error e, s') := by
  induction steps with
  | nil =>
      intro s s' h
      cases h
  | cons step rest ih =>
      intro s s' h
      rcases hstep : perform step s with ⟨answer, next⟩
      rw [run, hstep] at h
      cases answer with
      | error e' =>
          cases h
          exact ⟨[], step, s, Breaks.here hstep, hstep⟩
      | ok _ =>
          rcases ih h with ⟨before, failing, found, hbreaks, hfails⟩
          exact ⟨step :: before, failing, found, Breaks.later hstep hbreaks, hfails⟩

/-!
## Steps that add
-/

/-- What the steps do to a state, up to `Adds` both ways: a step adds, one that is
done adds nothing just if it is idle, and one that fails if it fails harmlessly;
which steps are idle is the same in states that are the same. -/
structure Additive (perform : Step -> State -> Except Error Unit × State)
    (Adds : State -> State -> Prop) (Idle : Step -> State -> Prop)
    (Harmless : Error -> Step -> State -> Prop) : Prop where
  refl : forall s, Adds s s
  trans : forall {s t u}, Adds s t -> Adds t u -> Adds s u
  adds : forall step s, Adds s (perform step s).2
  idle_iff : forall {step s s'}, perform step s = (Except.ok (), s') ->
    (Adds s' s <-> Idle step s)
  harmless_iff : forall {step s s' e}, perform step s = (Except.error e, s') ->
    (Adds s' s <-> Harmless e step s)
  idle_congr : forall {step s t}, Adds s t -> Adds t s -> Idle step s -> Idle step t

section Additive

variable {Adds : State -> State -> Prop} {Idle : Step -> State -> Prop}
  {Harmless : Error -> Step -> State -> Prop}

theorem Additive.adds_run (h : Additive perform Adds Idle Harmless)
    (steps : List Step) (s : State) : Adds s (run perform steps s).2 := by
  induction steps generalizing s with
  | nil => exact h.refl s
  | cons step rest ih =>
      have hstep := h.adds step s
      rw [run]
      rcases hperform : perform step s with ⟨answer, next⟩
      rw [hperform] at hstep
      cases answer with
      | error e => exact hstep
      | ok _ => exact h.trans hstep (ih next)

theorem Additive.adds_of_done (h : Additive perform Adds Idle Harmless) {step : Step}
    {s s' : State} (hdone : perform step s = (Except.ok (), s')) : Adds s s' := by
  have hstep := h.adds step s
  rw [hdone] at hstep
  exact hstep

/-- One step more in front, of a chain that has added to what the step left. -/
theorem Additive.cons_iff (h : Additive perform Adds Idle Harmless) {step : Step}
    {steps : List Step} {s s' left : State} {P : Prop}
    (hdone : perform step s = (Except.ok (), s')) (hgrows : Adds s' left)
    (hrest : Adds left s' <-> (forall step, step ∈ steps -> Idle step s') ∧ P) :
    Adds left s <-> (forall other, other ∈ step :: steps -> Idle other s) ∧ P := by
  have hforth := h.adds_of_done hdone
  rw [List.forall_mem_cons, and_assoc]
  constructor
  · intro hback
    have hsame : Adds s' s := h.trans hgrows hback
    rcases hrest.mp (h.trans hback hforth) with ⟨hsteps, hP⟩
    refine ⟨(h.idle_iff hdone).mp hsame, ?_, hP⟩
    exact fun other hother => h.idle_congr hsame hforth (hsteps other hother)
  · intro hall
    rcases hall with ⟨hidle, hsteps, hP⟩
    have hsame : Adds s' s := (h.idle_iff hdone).mpr hidle
    refine h.trans (hrest.mpr ⟨?_, hP⟩) hsame
    exact fun other hother => h.idle_congr hforth hsame (hsteps other hother)

/-- A chain that has failed leaves a state as it was exactly if no step in front of
the failure had anything to do, and the failure was harmless. -/
theorem Additive.breaks_iff (h : Additive perform Adds Idle Harmless)
    {steps before : List Step} {failing : Step} {s found left : State} {e : Error}
    (hbreaks : Breaks perform steps s before failing found)
    (hfails : perform failing found = (Except.error e, left)) :
    Adds left s <->
      (forall step, step ∈ before -> Idle step s) ∧ Harmless e failing found := by
  induction hbreaks with
  | here _ =>
      rw [h.harmless_iff hfails]
      simp
  | @later step failing rest before s s' found hdone hrest ih =>
      have hgrows := h.adds_run rest s'
      rw [run_of_breaks hrest, hfails] at hgrows
      exact h.cons_iff hdone hgrows (ih hfails)

/-- The same of a chain that has come to its end. -/
theorem Additive.run_iff (h : Additive perform Adds Idle Harmless) {steps : List Step} :
    forall {s left : State}, run perform steps s = (Except.ok (), left) ->
      (Adds left s <-> forall step, step ∈ steps -> Idle step s) := by
  induction steps with
  | nil =>
      intro s left hrun
      cases hrun
      exact iff_of_true (h.refl s) fun _ hmem => by cases hmem
  | cons step rest ih =>
      intro s left hrun
      rcases hperform : perform step s with ⟨answer, next⟩
      rw [run, hperform] at hrun
      cases answer with
      | error e => cases hrun
      | ok _ =>
          have hrun : run perform rest next = (Except.ok (), left) := hrun
          have hgrows := h.adds_run rest next
          rw [hrun] at hgrows
          have hrest := (ih hrun).trans (and_iff_left trivial).symm
          exact (h.cons_iff hperform hgrows hrest).trans (and_iff_left trivial)

end Additive

end Chain
end Foundation
end CisWebui
