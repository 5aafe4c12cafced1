import Mathlib.Data.List.Basic

/-!
# Event systems

A reactive component is a state together with a partial step function: a step
is defined exactly when the event can occur in the state.  All choices the
environment makes are carried by the event, so a run is a list of events.

The module provides the two ways of speaking about a run, through the states
it visits and through the steps it takes, and the induction rules that connect
them.
-/

namespace CisWebui
namespace Foundation

/-- A component that reacts to events; `none` means the event cannot occur. -/
structure EventSystem (State Event : Type) where
  init : State
  step : State -> Event -> Option State

namespace EventSystem

variable {State Event : Type}

/-!
## Runs
-/

/-- The state a list of events leads to, if all of them can occur in turn. -/
def runFrom (M : EventSystem State Event) : State -> List Event -> Option State
  | s, [] => some s
  | s, e :: es => (M.step s e).bind fun t => M.runFrom t es

/-- A state that some run from the initial state leads to. -/
def Reachable (M : EventSystem State Event) (s : State) : Prop :=
  exists es, M.runFrom M.init es = some s

/-- Every state the run visits satisfies `P`, the first one included. -/
def EveryState (M : EventSystem State Event) (P : State -> Prop) :
    State -> List Event -> Prop
  | s, [] => P s
  | s, e :: es => P s ∧ forall t, M.step s e = some t -> M.EveryState P t es

/-- Every step the run takes satisfies `G` in the state before the step. -/
def EveryStep (M : EventSystem State Event) (G : State -> Event -> Prop) :
    State -> List Event -> Prop
  | _, [] => True
  | s, e :: es => forall t, M.step s e = some t -> G s e ∧ M.EveryStep G t es

@[simp] theorem runFrom_nil (M : EventSystem State Event) (s : State) :
    M.runFrom s [] = some s := rfl

theorem runFrom_cons (M : EventSystem State Event) (s : State) (e : Event)
    (es : List Event) :
    M.runFrom s (e :: es) = (M.step s e).bind fun t => M.runFrom t es := rfl

theorem runFrom_append (M : EventSystem State Event) (s : State)
    (es fs : List Event) :
    M.runFrom s (es ++ fs) = (M.runFrom s es).bind fun t => M.runFrom t fs := by
  induction es generalizing s with
  | nil => rfl
  | cons e rest ih =>
      rw [List.cons_append, runFrom_cons, runFrom_cons]
      cases hstep : M.step s e with
      | none => rfl
      | some t => exact ih t

theorem everyState_head {M : EventSystem State Event} {P : State -> Prop}
    {s : State} {es : List Event} (h : M.EveryState P s es) : P s := by
  cases es with
  | nil => exact h
  | cons e rest => exact h.left

theorem everyState_last {M : EventSystem State Event} {P : State -> Prop}
    {s t : State} {es : List Event} (h : M.EveryState P s es)
    (hrun : M.runFrom s es = some t) : P t := by
  induction es generalizing s with
  | nil =>
      cases hrun
      exact h
  | cons e rest ih =>
      rw [runFrom_cons] at hrun
      rcases Option.bind_eq_some_iff.mp hrun with ⟨q, hq, hrest⟩
      exact ih (h.right q hq) hrest

theorem everyStep_cons_iff {M : EventSystem State Event}
    {G : State -> Event -> Prop} {s t : State} {e : Event} {es : List Event}
    (hstep : M.step s e = some t) :
    M.EveryStep G s (e :: es) <-> G s e ∧ M.EveryStep G t es := by
  constructor
  · intro h
    exact h t hstep
  · intro h u hu
    rw [hstep] at hu
    cases hu
    exact h

instance decidableEveryStep (M : EventSystem State Event) (G : State -> Event -> Prop)
    [forall s e, Decidable (G s e)] :
    (s : State) -> (es : List Event) -> Decidable (M.EveryStep G s es)
  | _, [] => isTrue trivial
  | s, e :: es =>
      match hstep : M.step s e with
      | none => isTrue fun t ht => by rw [hstep] at ht; cases ht
      | some t =>
          have := decidableEveryStep M G t es
          decidable_of_iff (G s e ∧ M.EveryStep G t es) (everyStep_cons_iff hstep).symm

/-- What holds of each of the events in any state. -/
theorem everyStep_of_forall {M : EventSystem State Event}
    {G : State -> Event -> Prop} {es : List Event}
    (h : forall s e, e ∈ es -> G s e) (s : State) : M.EveryStep G s es := by
  induction es generalizing s with
  | nil => trivial
  | cons e rest ih =>
      intro t _
      refine ⟨h s e List.mem_cons_self, ih ?_ t⟩
      intro s e he
      exact h s e (List.mem_cons_of_mem _ he)

theorem everyStep_last {M : EventSystem State Event}
    {G : State -> Event -> Prop} {s t u : State} {es : List Event} {e : Event}
    (h : M.EveryStep G s (es ++ [e])) (hrun : M.runFrom s es = some t)
    (hstep : M.step t e = some u) : G t e := by
  induction es generalizing s with
  | nil =>
      cases hrun
      exact (h u hstep).left
  | cons a rest ih =>
      rw [runFrom_cons] at hrun
      rcases Option.bind_eq_some_iff.mp hrun with ⟨q, hq, hrest⟩
      exact ih (h q hq).right hrest

/-!
## Induction rules

`everyState_of_everyStep` is the invariant rule: an invariant that guarded
steps preserve holds wherever a guarded run goes.  When an unguarded step
leaves the safe states at once, the guard is exact.
-/

theorem everyState_of_everyStep {M : EventSystem State Event}
    {Inv : State -> Prop} {G : State -> Event -> Prop}
    (hstep : forall s e t, Inv s -> G s e -> M.step s e = some t -> Inv t)
    {s : State} {es : List Event} (hs : Inv s) (hG : M.EveryStep G s es) :
    M.EveryState Inv s es := by
  induction es generalizing s with
  | nil => exact hs
  | cons e rest ih =>
      refine ⟨hs, ?_⟩
      intro t ht
      rcases hG t ht with ⟨hguard, hrest⟩
      exact ih (hstep s e t hs hguard ht) hrest

/-- The invariant rule for a run whose states are known to satisfy `P`. -/
theorem last_of_everyState {M : EventSystem State Event}
    {Inv P : State -> Prop}
    (hstep : forall s e t, Inv s -> P s -> M.step s e = some t -> Inv t)
    {s t : State} {es : List Event} (hs : Inv s) (hP : M.EveryState P s es)
    (hrun : M.runFrom s es = some t) : Inv t := by
  induction es generalizing s with
  | nil =>
      cases hrun
      exact hs
  | cons e rest ih =>
      rw [runFrom_cons] at hrun
      rcases Option.bind_eq_some_iff.mp hrun with ⟨q, hq, hrest⟩
      exact ih (hstep s e q hs hP.left hq) (hP.right q hq) hrest

/-- The invariant rule for a run of events that satisfy `P`. -/
theorem last_of_forall_mem {M : EventSystem State Event}
    {Inv : State -> Prop} {P : Event -> Prop}
    (hstep : forall s e t, Inv s -> P e -> M.step s e = some t -> Inv t)
    {s t : State} {es : List Event} (hs : Inv s) (hP : forall e, e ∈ es -> P e)
    (hrun : M.runFrom s es = some t) : Inv t := by
  induction es generalizing s with
  | nil =>
      cases hrun
      exact hs
  | cons e rest ih =>
      rw [runFrom_cons] at hrun
      rcases Option.bind_eq_some_iff.mp hrun with ⟨q, hq, hrest⟩
      have hnext : Inv q := hstep s e q hs (hP e List.mem_cons_self) hq
      exact ih hnext (fun a ha => hP a (List.mem_cons_of_mem e ha)) hrest

/-- The invariant rule for what the steps themselves do. -/
theorem everyStep_of_everyStep {M : EventSystem State Event}
    {Inv : State -> Prop} {G P : State -> Event -> Prop}
    (hstep : forall s e t, Inv s -> G s e -> M.step s e = some t ->
      Inv t ∧ P s e)
    {s : State} {es : List Event} (hs : Inv s) (hG : M.EveryStep G s es) :
    M.EveryStep P s es := by
  induction es generalizing s with
  | nil => trivial
  | cons e rest ih =>
      intro t ht
      rcases hG t ht with ⟨hguard, hrest⟩
      rcases hstep s e t hs hguard ht with ⟨hnext, hdone⟩
      exact ⟨hdone, ih hnext hrest⟩

theorem everyState_mono {M : EventSystem State Event} {P Q : State -> Prop}
    (hPQ : forall s, P s -> Q s) {s : State} {es : List Event}
    (h : M.EveryState P s es) : M.EveryState Q s es := by
  induction es generalizing s with
  | nil => exact hPQ s h
  | cons e rest ih =>
      refine ⟨hPQ s h.left, ?_⟩
      intro t ht
      exact ih (h.right t ht)

/-- An invariant of all steps holds in every reachable state. -/
theorem invariant_of_reachable {M : EventSystem State Event}
    {Inv : State -> Prop} (hinit : Inv M.init)
    (hstep : forall s e t, Inv s -> M.step s e = some t -> Inv t)
    {s : State} (hs : M.Reachable s) : Inv s := by
  rcases hs with ⟨es, hrun⟩
  suffices h : forall (es : List Event) (q : State), Inv q ->
      M.runFrom q es = some s -> Inv s by
    exact h es M.init hinit hrun
  intro es
  induction es with
  | nil =>
      intro q hq hrun
      cases hrun
      exact hq
  | cons e rest ih =>
      intro q hq hrun
      rw [runFrom_cons] at hrun
      rcases Option.bind_eq_some_iff.mp hrun with ⟨t, ht, hrest⟩
      exact ih t (hstep q e t hq ht) hrest

theorem everyStep_of_everyState {M : EventSystem State Event}
    {Inv Safe : State -> Prop} {G : State -> Event -> Prop}
    (hstep : forall s e t, Inv s -> G s e -> M.step s e = some t -> Inv t)
    (hexact : forall s e t, Inv s -> M.step s e = some t -> Safe t -> G s e)
    {s : State} {es : List Event} (hs : Inv s)
    (hsafe : M.EveryState Safe s es) : M.EveryStep G s es := by
  induction es generalizing s with
  | nil => trivial
  | cons e rest ih =>
      intro t ht
      have hrest : M.EveryState Safe t rest := hsafe.right t ht
      have hguard : G s e := hexact s e t hs ht (everyState_head hrest)
      exact ⟨hguard, ih (hstep s e t hs hguard ht) hrest⟩

/-- The exact guard rule: the guard holds along a run just when the run stays
safe. -/
theorem everyState_iff_everyStep {M : EventSystem State Event}
    {Inv Safe : State -> Prop} {G : State -> Event -> Prop}
    (hstep : forall s e t, Inv s -> G s e -> M.step s e = some t -> Inv t)
    (hexact : forall s e t, Inv s -> M.step s e = some t -> Safe t -> G s e)
    (hInvSafe : forall s, Inv s -> Safe s)
    {s : State} {es : List Event} (hs : Inv s) :
    M.EveryState Safe s es <-> M.EveryStep G s es := by
  constructor
  · intro hsafe
    exact everyStep_of_everyState hstep hexact hs hsafe
  · intro hG
    exact everyState_mono hInvSafe (everyState_of_everyStep hstep hs hG)

end EventSystem

end Foundation
end CisWebui
