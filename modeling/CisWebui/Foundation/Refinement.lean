import CisWebui.Foundation.EventSystem
import CisWebui.Foundation.Program

/-!
# Refinement

Two machines whose worlds are related, so that every operation gets the same
answer on both and leaves them related.  No program can tell them apart.

The same for event systems: what one of them can do the other one can do, and
they stay related.
-/

namespace CisWebui
namespace Foundation

variable {Op : Type} {Answer : Op -> Type} {Failure World World' α : Type}

/-- The operations have the same answers, and keep the worlds related. -/
def Machine.Refines (M : Machine Op Answer World) (N : Machine Op Answer World')
    (R : World -> World' -> Prop) : Prop :=
  forall op w v, R w v ->
    (M.perform op w).1 = (N.perform op v).1 ∧ R (M.perform op w).2 (N.perform op v).2

/-- A program ends in the same way on both machines. -/
theorem Program.run_refines {M : Machine Op Answer World} {N : Machine Op Answer World'}
    {R : World -> World' -> Prop} (h : M.Refines N R)
    (p : Program Op Answer Failure α) {w : World} {v : World'} (hwv : R w v) :
    (p.run M w).1 = (p.run N v).1 ∧ R (p.run M w).2 (p.run N v).2 := by
  induction p generalizing w v with
  | done a => exact ⟨rfl, hwv⟩
  | fail e => exact ⟨rfl, hwv⟩
  | perform op next ih =>
      rcases h op w v hwv with ⟨hanswer, hnext⟩
      rw [Program.run_perform, Program.run_perform, hanswer]
      exact ih _ hnext

namespace EventSystem

variable {State State' Event : Type}

/-- Every step of the one is a step of the other, and keeps the states related. -/
structure Refines (M : EventSystem State Event) (N : EventSystem State' Event)
    (R : State -> State' -> Prop) : Prop where
  init : R M.init N.init
  step : forall s t e, R s t -> Option.Rel R (M.step s e) (N.step t e)

theorem runFrom_refines {M : EventSystem State Event} {N : EventSystem State' Event}
    {R : State -> State' -> Prop} (h : M.Refines N R) {s : State} {t : State'}
    (hst : R s t) (es : List Event) : Option.Rel R (M.runFrom s es) (N.runFrom t es) := by
  induction es generalizing s t with
  | nil => exact Option.Rel.some hst
  | cons e rest ih =>
      rw [runFrom_cons, runFrom_cons]
      have hstep := h.step s t e hst
      cases hm : M.step s e with
      | none =>
          rw [hm] at hstep
          cases hn : N.step t e with
          | none => exact Option.Rel.none
          | some t' =>
              rw [hn] at hstep
              cases hstep
      | some s' =>
          rw [hm] at hstep
          cases hn : N.step t e with
          | none =>
              rw [hn] at hstep
              cases hstep
          | some t' =>
              rw [hn] at hstep
              cases hstep with
              | some hnext => exact ih hnext

end EventSystem

end Foundation
end CisWebui
