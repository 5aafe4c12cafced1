import Mathlib.Order.Basic

/-!
# Loops

A loop whose body goes on with a new state or leaves with a result.  It is run for
a number of rounds; that it returns means that some number is enough.

The rules: what every round keeps until it leaves holds behind the loop, if it
returns; a loop whose rounds all go on from the states of an invariant to others
of them never ends.
-/

namespace CisWebui
namespace Foundation

inductive Turn (State Result : Type) where
  | again (s : State)
  | leave (r : Result)

namespace Loop

variable {State Result : Type}

def run (body : State -> Turn State Result) : Nat -> State -> Option Result
  | 0, _ => none
  | rounds + 1, s =>
      match body s with
      | Turn.again s => run body rounds s
      | Turn.leave r => some r

def Returns (body : State -> Turn State Result) (s : State) (r : Result) : Prop :=
  exists rounds, run body rounds s = some r

def Ends (body : State -> Turn State Result) (s : State) : Prop :=
  exists r, Returns body s r

variable {body : State -> Turn State Result} {s s' : State} {r r' : Result}

/-- More rounds than enough make no difference. -/
theorem run_add {rounds : Nat} (h : run body rounds s = some r) (more : Nat) :
    run body (rounds + more) s = some r := by
  induction rounds generalizing s with
  | zero => cases h
  | succ rounds ih =>
      rw [Nat.succ_add, run]
      rw [run] at h
      cases hbody : body s with
      | again s' =>
          rw [hbody] at h
          exact ih h
      | leave r' =>
          rw [hbody] at h
          exact h

theorem returns_unique (h : Returns body s r) (h' : Returns body s r') : r = r' := by
  rcases h with ⟨rounds, h⟩
  rcases h' with ⟨rounds', h'⟩
  have hboth := run_add h rounds'
  rw [Nat.add_comm, run_add h' rounds] at hboth
  exact (Option.some.inj hboth).symm

/-!
## Rounds
-/

theorem returns_of_leave (h : body s = Turn.leave r) : Returns body s r :=
  ⟨1, by rw [run, h]⟩

theorem returns_iff_of_again (h : body s = Turn.again s') :
    Returns body s r <-> Returns body s' r := by
  constructor
  · intro hreturns
    rcases hreturns with ⟨rounds, hrun⟩
    cases rounds with
    | zero => cases hrun
    | succ rounds =>
        rw [run, h] at hrun
        exact ⟨rounds, hrun⟩
  · intro hreturns
    rcases hreturns with ⟨rounds, hrun⟩
    refine ⟨rounds + 1, ?_⟩
    rw [run, h]
    exact hrun

theorem ends_of_leave (h : body s = Turn.leave r) : Ends body s :=
  ⟨r, returns_of_leave h⟩

theorem ends_iff_of_again (h : body s = Turn.again s') : Ends body s <-> Ends body s' := by
  unfold Ends
  constructor
  · intro hends
    rcases hends with ⟨r, hr⟩
    exact ⟨r, (returns_iff_of_again h).mp hr⟩
  · intro hends
    rcases hends with ⟨r, hr⟩
    exact ⟨r, (returns_iff_of_again h).mpr hr⟩

/-!
## Rules
-/

/-- A round keeps what is known of the state, or leaves with what is to hold. -/
def Keeps (body : State -> Turn State Result) (I : State -> Prop) (Q : Result -> Prop)
    (s : State) : Prop :=
  match body s with
  | Turn.again s' => I s'
  | Turn.leave r => Q r

/-- The rule for what a loop returns, if it does. -/
theorem of_returns {I : State -> Prop} {Q : Result -> Prop}
    (hround : forall s, I s -> Keeps body I Q s) (hs : I s) (h : Returns body s r) : Q r := by
  rcases h with ⟨rounds, hrun⟩
  induction rounds generalizing s with
  | zero => cases hrun
  | succ rounds ih =>
      have hkeeps := hround s hs
      unfold Keeps at hkeeps
      rw [run] at hrun
      cases hbody : body s with
      | again s' =>
          rw [hbody] at hkeeps hrun
          exact ih hkeeps hrun
      | leave r' =>
          rw [hbody] at hkeeps hrun
          cases hrun
          exact hkeeps

/-- The rule for loops without an end. -/
theorem not_ends_of_invariant {I : State -> Prop}
    (hround : forall s, I s -> exists s', body s = Turn.again s' ∧ I s') (hs : I s) :
    ¬ Ends body s := by
  intro hends
  rcases hends with ⟨r, rounds, hrun⟩
  induction rounds generalizing s with
  | zero => cases hrun
  | succ rounds ih =>
      rcases hround s hs with ⟨s', hbody, hs'⟩
      rw [run, hbody] at hrun
      exact ih hs' hrun

end Loop
end Foundation
end CisWebui
