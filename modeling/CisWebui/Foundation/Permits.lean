import Mathlib.Data.Set.Insert
import CisWebui.Foundation.Program

/-!
# Permits

What a program has been answered so far permits what it asks for next.  A
program is guarded when it never asks for more than that, whatever is answered,
and when what it returns fits the answers it got.

The rules: programs are composed along what the first one returns; answers are
never lost; and in every run, each operation is permitted by the answers in
front of it.
-/

namespace CisWebui
namespace Foundation
namespace Program

variable {Op : Type} {Answer : Op -> Type} {Failure World α β : Type}

/-- Every operation the program asks for is permitted by the answers held and by
those it has got since; if it returns, then with a value that satisfies `post`. -/
def Guarded (permits : Set (Sigma Answer) -> Op -> Prop)
    (post : Set (Sigma Answer) -> α -> Prop) :
    Set (Sigma Answer) -> Program Op Answer Failure α -> Prop
  | held, done a => post held a
  | _, fail _ => True
  | held, perform op next =>
      permits held op ∧
        forall answer, Guarded permits post (insert ⟨op, answer⟩ held) (next answer)

variable {permits : Set (Sigma Answer) -> Op -> Prop} {held : Set (Sigma Answer)}
  {post post' : Set (Sigma Answer) -> α -> Prop}
  {p : Program Op Answer Failure α}

/-- A program returns with what it held, and with what it was answered. -/
theorem guarded_weaken (hp : Guarded permits post held p)
    (hpost : forall held' a, held ⊆ held' -> post held' a -> post' held' a) :
    Guarded permits post' held p := by
  induction p generalizing held with
  | done a => exact hpost held a (Set.Subset.refl held) hp
  | fail e => trivial
  | perform op next ih =>
      constructor
      · exact hp.left
      · intro answer
        apply ih answer (hp.right answer)
        intro held' a hle
        exact hpost held' a ((Set.subset_insert _ _).trans hle)

theorem guarded_bind {f : α -> Program Op Answer Failure β}
    {after : Set (Sigma Answer) -> β -> Prop} (hp : Guarded permits post held p)
    (hf : forall held' a, held ⊆ held' -> post held' a ->
      Guarded permits after held' (f a)) :
    Guarded permits after held (p >>= f) := by
  induction p generalizing held with
  | done a => exact hf held a (Set.Subset.refl held) hp
  | fail e => trivial
  | perform op next ih =>
      constructor
      · exact hp.left
      · intro answer
        apply ih answer (hp.right answer)
        intro held' a hle
        exact hf held' a ((Set.subset_insert _ _).trans hle)

/-- A single operation leaves its answer behind. -/
theorem guarded_ask {op : Op} (h : permits held op) :
    Guarded permits (fun held' answer => (⟨op, answer⟩ : Sigma Answer) ∈ held') held
      (ask op : Program Op Answer Failure (Answer op)) :=
  ⟨h, fun _ => Set.mem_insert _ _⟩

/-- In a run, every operation is permitted by the answers in front of it. -/
theorem permits_of_guarded (M : Machine Op Answer World) (hp : Guarded permits post held p)
    (w : World) {before after : List (Sigma Answer)} {e : Sigma Answer}
    (htrace : trace M p w = before ++ e :: after) :
    permits (held ∪ {x | x ∈ before}) e.1 := by
  induction p generalizing held w before with
  | done a => exact absurd htrace (by simp [trace])
  | fail f => exact absurd htrace (by simp [trace])
  | perform op next ih =>
      rw [trace] at htrace
      cases before with
      | nil =>
          rw [List.nil_append, List.cons.injEq] at htrace
          have hnone : held ∪ {x : Sigma Answer | x ∈ []} = held := by
            simp
          rw [← htrace.left, hnone]
          exact hp.left
      | cons first rest =>
          rw [List.cons_append, List.cons.injEq] at htrace
          have hrest := ih _ (hp.right _) _ htrace.right
          have hsame : insert first held ∪ {x | x ∈ rest} =
              held ∪ {x : Sigma Answer | x ∈ first :: rest} := by
            ext x
            simp only [Set.mem_union, Set.mem_insert_iff, Set.mem_ofPred_eq, List.mem_cons]
            grind
          rw [htrace.left, hsame] at hrest
          exact hrest

/-- What the permitted operations keep true of the answers and the world, a guarded
program leaves true behind. -/
theorem keeps_of_guarded (M : Machine Op Answer World)
    {Inv : Set (Sigma Answer) -> World -> Prop}
    (hstep : forall held w op, Inv held w -> permits held op ->
      Inv (insert ⟨op, (M.perform op w).1⟩ held) (M.perform op w).2)
    (hp : Guarded permits post held p) {w : World} (hw : Inv held w) :
    exists held', Inv held' (p.run M w).2 := by
  induction p generalizing held w with
  | done a => exact ⟨held, hw⟩
  | fail e => exact ⟨held, hw⟩
  | perform op next ih =>
      rw [run_perform]
      exact ih _ (hp.right _) (hstep held w op hw hp.left)

end Program
end Foundation
end CisWebui
