import Mathlib.Data.List.Basic

/-!
# Partial transducers

A machine that reads symbols one by one, writes some symbols for each and may
refuse to go on.
-/

namespace CisWebui
namespace Foundation
namespace Transducer

variable {State Input Output : Type}

/-- The last state and all the output, unless some symbol is refused. -/
def run (step : State -> Input -> Option (State × List Output)) :
    State -> List Input -> Option (State × List Output)
  | s, [] => some (s, [])
  | s, a :: rest =>
      (step s a).bind fun next =>
        (run step next.1 rest).map fun last => (last.1, next.2 ++ last.2)

variable {step : State -> Input -> Option (State × List Output)}

@[simp] theorem run_nil (s : State) : run step s [] = some (s, []) := rfl

theorem run_cons (s : State) (a : Input) (rest : List Input) :
    run step s (a :: rest) = (step s a).bind fun next =>
      (run step next.1 rest).map fun last => (last.1, next.2 ++ last.2) := rfl

theorem run_cons_of_step {s t : State} {a : Input} {u : List Output}
    (h : step s a = some (t, u)) (rest : List Input) :
    run step s (a :: rest) =
      (run step t rest).map fun last => (last.1, u ++ last.2) := by
  rw [run_cons, h, Option.bind_some]

theorem exists_of_run_cons {s t : State} {a : Input} {rest : List Input}
    {w : List Output} (h : run step s (a :: rest) = some (t, w)) :
    exists q u v, step s a = some (q, u) ∧ run step q rest = some (t, v) ∧
      w = u ++ v := by
  rw [run_cons] at h
  rcases Option.bind_eq_some_iff.mp h with ⟨⟨q, u⟩, hstep, hrest⟩
  rcases Option.map_eq_some_iff.mp hrest with ⟨⟨r, v⟩, hlast, hout⟩
  cases hout
  exact ⟨q, u, v, hstep, hlast, rfl⟩

theorem run_singleton {s t : State} {a : Input} {u : List Output}
    (h : step s a = some (t, u)) : run step s [a] = some (t, u) := by
  rw [run_cons_of_step h, run_nil, Option.map_some, List.append_nil]

theorem run_append {s t q : State} {a b : List Input} {u v : List Output}
    (ha : run step s a = some (t, u)) (hb : run step t b = some (q, v)) :
    run step s (a ++ b) = some (q, u ++ v) := by
  induction a generalizing s u with
  | nil =>
      cases ha
      exact hb
  | cons c rest ih =>
      rcases exists_of_run_cons ha with ⟨r, w, w', hstep, hrest, rfl⟩
      rw [List.cons_append, run_cons_of_step hstep, ih hrest, Option.map_some,
        List.append_assoc]

/-- A run over a text goes through the end of its beginning. -/
theorem exists_of_run_append {s q : State} {a b : List Input} {w : List Output}
    (h : run step s (a ++ b) = some (q, w)) :
    exists t u v, run step s a = some (t, u) ∧ run step t b = some (q, v) ∧
      w = u ++ v := by
  induction a generalizing s w with
  | nil => exact ⟨s, [], w, rfl, h, rfl⟩
  | cons c rest ih =>
      rw [List.cons_append] at h
      rcases exists_of_run_cons h with ⟨r, u, v, hstep, hrest, rfl⟩
      rcases ih hrest with ⟨t, u', v', ht, hq, rfl⟩
      refine ⟨t, u ++ u', v', ?_, hq, by rw [List.append_assoc]⟩
      rw [run_cons_of_step hstep, ht, Option.map_some]

end Transducer
end Foundation
end CisWebui
