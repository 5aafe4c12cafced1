import CisWebui.Foundation.EventSystem
import Mathlib.Data.List.Induction

/-!
# Histories

A run from the initial state with the events behind it: invariants of both, what has
happened on the way, and the event that a value goes back to.
-/

namespace CisWebui
namespace Foundation
namespace EventSystem

variable {State Event : Type} {M : EventSystem State Event}

/-- The run without its last event, and the last step. -/
theorem runFrom_concat {s u : State} {es : List Event} {e : Event}
    (h : M.runFrom s (es ++ [e]) = some u) :
    exists t, M.runFrom s es = some t ∧ M.step t e = some u := by
  rw [runFrom_append] at h
  rcases Option.bind_eq_some_iff.mp h with ⟨t, ht, hlast⟩
  rw [runFrom_cons] at hlast
  rcases Option.bind_eq_some_iff.mp hlast with ⟨v, hv, hnil⟩
  cases hnil
  exact ⟨t, ht, hv⟩

/-- The invariant rule for a state together with its history. -/
theorem invariant_of_history {Inv : List Event -> State -> Prop} (hinit : Inv [] M.init)
    (hstep : forall es s e t, M.runFrom M.init es = some s -> Inv es s ->
      M.step s e = some t -> Inv (es ++ [e]) t)
    {es : List Event} {s : State} (hrun : M.runFrom M.init es = some s) : Inv es s := by
  induction es using List.reverseRecOn generalizing s with
  | nil =>
      cases hrun
      exact hinit
  | append_singleton rest e ih =>
      rcases runFrom_concat hrun with ⟨t, ht, hlast⟩
      exact hstep rest t e s ht (ih ht) hlast

/-- One of the events has met a state of which, with the event, `P` holds. -/
def Happened (M : EventSystem State Event) (P : State -> Event -> Prop)
    (es : List Event) : Prop :=
  exists before e after s, es = before ++ e :: after ∧
    M.runFrom M.init before = some s ∧ P s e

theorem Happened.append {P : State -> Event -> Prop} {es : List Event}
    (h : M.Happened P es) (fs : List Event) : M.Happened P (es ++ fs) := by
  rcases h with ⟨before, e, after, s, rfl, hrun, hP⟩
  refine ⟨before, e, after ++ fs, s, ?_, hrun, hP⟩
  rw [List.append_assoc, List.cons_append]

theorem happened_last {P : State -> Event -> Prop} {es : List Event} {s : State} {e : Event}
    (hrun : M.runFrom M.init es = some s) (hP : P s e) : M.Happened P (es ++ [e]) :=
  ⟨es, e, [], s, rfl, hrun, hP⟩

/-- One of the events, which with the state it met satisfies `P`, has changed the value
to `new`, and nothing has changed it since. -/
def Made {α : Type} (M : EventSystem State Event) (value : State -> α)
    (P : State -> Event -> Prop) (new : α) (es : List Event) : Prop :=
  exists before e after s t, es = before ++ e :: after ∧
    M.runFrom M.init before = some s ∧ M.step s e = some t ∧ P s e ∧
      value s ≠ new ∧ M.EveryState (fun u => value u = new) t after

theorem everyState_concat {P : State -> Prop} {s t u : State} {es : List Event} {e : Event}
    (h : M.EveryState P s es) (hrun : M.runFrom s es = some t) (hstep : M.step t e = some u)
    (hu : P u) : M.EveryState P s (es ++ [e]) := by
  induction es generalizing s with
  | nil =>
      cases hrun
      refine ⟨h, ?_⟩
      intro v hv
      rw [hstep] at hv
      cases hv
      exact hu
  | cons a rest ih =>
      rw [runFrom_cons] at hrun
      rcases Option.bind_eq_some_iff.mp hrun with ⟨q, hq, hrest⟩
      refine ⟨h.left, ?_⟩
      intro v hv
      rw [hq] at hv
      cases hv
      exact ih (h.right q hq) hrest

/-- A step that leaves the value alone. -/
theorem Made.concat {α : Type} {value : State -> α} {P : State -> Event -> Prop} {new : α}
    {es : List Event} {e : Event} {s t : State} (h : M.Made value P new es)
    (hrun : M.runFrom M.init es = some s) (hstep : M.step s e = some t)
    (ht : value t = new) : M.Made value P new (es ++ [e]) := by
  rcases h with ⟨before, a, after, u, v, rfl, hbefore, hv, hP, hne, hsince⟩
  refine ⟨before, a, after ++ [e], u, v, ?_, hbefore, hv, hP, hne, ?_⟩
  · rw [List.append_assoc, List.cons_append]
  · rw [runFrom_append, hbefore, Option.bind_some, runFrom_cons, hv, Option.bind_some] at hrun
    exact everyState_concat hsince hrun hstep ht

end EventSystem
end Foundation
end CisWebui
