import Mathlib.Data.List.Basic

/-!
# Programs over operations

A program asks for operations one after the other and goes on with what each
of them answers; it returns a value or fails.  What the operations do is left
to a machine.

The module gives programs their meaning on a machine and two rules for runs:
the composition rule, and the invariant rule, by which a program that only asks
for harmless operations keeps what those operations keep.
-/

namespace CisWebui
namespace Foundation

inductive Program (Op : Type) (Answer : Op -> Type) (Failure α : Type) : Type where
  | done (a : α)
  | fail (f : Failure)
  | perform (op : Op) (next : Answer op -> Program Op Answer Failure α)

/-- What every operation answers and does to the world. -/
structure Machine (Op : Type) (Answer : Op -> Type) (World : Type) where
  perform : (op : Op) -> World -> Answer op × World

namespace Program

variable {Op : Type} {Answer : Op -> Type} {Failure World α β : Type}

def bind (p : Program Op Answer Failure α)
    (f : α -> Program Op Answer Failure β) : Program Op Answer Failure β :=
  match p with
  | done a => f a
  | fail e => fail e
  | perform op next => perform op fun answer => (next answer).bind f

instance : Monad (Program Op Answer Failure) where
  pure := done
  bind := bind

/-- The program that asks for one operation and returns its answer. -/
def ask (op : Op) : Program Op Answer Failure (Answer op) :=
  perform op done

@[simp] theorem pure_eq (a : α) :
    (pure a : Program Op Answer Failure α) = done a := rfl

@[simp] theorem done_bind (a : α) (f : α -> Program Op Answer Failure β) :
    done a >>= f = f a := rfl

@[simp] theorem fail_bind (e : Failure)
    (f : α -> Program Op Answer Failure β) :
    (fail e : Program Op Answer Failure α) >>= f = fail e := rfl

@[simp] theorem perform_bind (op : Op)
    (next : Answer op -> Program Op Answer Failure α)
    (f : α -> Program Op Answer Failure β) :
    perform op next >>= f = perform op fun answer => next answer >>= f := rfl

/-!
## Runs
-/

/-- How a program ends on a machine, and the world it leaves. -/
def run (M : Machine Op Answer World) :
    Program Op Answer Failure α -> World -> Except Failure α × World
  | done a, w => (Except.ok a, w)
  | fail e, w => (Except.error e, w)
  | perform op next, w =>
      run M (next (M.perform op w).1) (M.perform op w).2

@[simp] theorem run_done (M : Machine Op Answer World) (a : α) (w : World) :
    run M (done a : Program Op Answer Failure α) w = (Except.ok a, w) := rfl

@[simp] theorem run_fail (M : Machine Op Answer World) (e : Failure)
    (w : World) :
    run M (fail e : Program Op Answer Failure α) w = (Except.error e, w) := rfl

theorem run_perform (M : Machine Op Answer World) (op : Op)
    (next : Answer op -> Program Op Answer Failure α) (w : World) :
    run M (perform op next) w =
      run M (next (M.perform op w).1) (M.perform op w).2 := rfl

theorem run_bind (M : Machine Op Answer World)
    (p : Program Op Answer Failure α) (f : α -> Program Op Answer Failure β)
    (w : World) :
    run M (p >>= f) w =
      match run M p w with
      | (Except.ok a, w') => run M (f a) w'
      | (Except.error e, w') => (Except.error e, w') := by
  induction p generalizing w with
  | done a => rfl
  | fail e => rfl
  | perform op next ih => exact ih _ _

/-!
## Invariants
-/

/-- Every operation the program may ask for, whatever the answers before it,
satisfies `P`. -/
def Only (P : Op -> Prop) : Program Op Answer Failure α -> Prop
  | done _ => True
  | fail _ => True
  | perform op next => P op ∧ forall answer, (next answer).Only P

theorem only_bind {P : Op -> Prop} {p : Program Op Answer Failure α}
    {f : α -> Program Op Answer Failure β} (hp : p.Only P)
    (hf : forall a, (f a).Only P) : (p >>= f).Only P := by
  induction p with
  | done a => exact hf a
  | fail e => trivial
  | perform op next ih =>
      constructor
      · exact hp.left
      · intro answer
        exact ih answer (hp.right answer)

theorem only_of_forall {P : Op -> Prop} (h : forall op, P op)
    (p : Program Op Answer Failure α) : p.Only P := by
  induction p with
  | done a => trivial
  | fail e => trivial
  | perform op next ih => exact ⟨h op, ih⟩

/-- What the operations of the program keep, the program keeps. -/
theorem run_invariant {M : Machine Op Answer World} {P : Op -> Prop}
    {I : World -> Prop}
    (hkeep : forall op w, P op -> I w -> I (M.perform op w).2)
    {p : Program Op Answer Failure α} (hp : p.Only P) {w : World} (hw : I w) :
    I (run M p w).2 := by
  induction p generalizing w with
  | done a => exact hw
  | fail e => exact hw
  | perform op next ih =>
      exact ih _ (hp.right _) (hkeep op w hp.left hw)

/-!
## Answers

A program may ask for less when its machine does not give every answer.
-/

/-- Every operation the program may ask for, if the answers before it satisfy
`A`, satisfies `P`. -/
def OnlyGiven (P : Op -> Prop) (A : (op : Op) -> Answer op -> Prop) :
    Program Op Answer Failure α -> Prop
  | done _ => True
  | fail _ => True
  | perform op next =>
      P op ∧ forall answer, A op answer -> (next answer).OnlyGiven P A

variable {P : Op -> Prop} {A : (op : Op) -> Answer op -> Prop}

theorem onlyGiven_bind {p : Program Op Answer Failure α}
    {f : α -> Program Op Answer Failure β} (hp : p.OnlyGiven P A)
    (hf : forall a, (f a).OnlyGiven P A) : (p >>= f).OnlyGiven P A := by
  induction p with
  | done a => exact hf a
  | fail e => trivial
  | perform op next ih =>
      constructor
      · exact hp.left
      · intro answer hanswer
        exact ih answer (hp.right answer hanswer)

theorem run_invariant_given {M : Machine Op Answer World} {I : World -> Prop}
    (hkeep : forall op w, P op -> I w -> I (M.perform op w).2)
    (hanswer : forall op w, I w -> A op (M.perform op w).1)
    {p : Program Op Answer Failure α} (hp : p.OnlyGiven P A) {w : World}
    (hw : I w) : I (run M p w).2 := by
  induction p generalizing w with
  | done a => exact hw
  | fail e => exact hw
  | perform op next ih =>
      exact ih _ (hp.right _ (hanswer op w hw)) (hkeep op w hp.left hw)

/-!
## Traces

What a run has asked for, with the answers, and the rule for what holds of
every trace that answers in `A` make possible.
-/

/-- The operations of a run and their answers, in order. -/
def trace (M : Machine Op Answer World) :
    Program Op Answer Failure α -> World -> List (Sigma Answer)
  | done _, _ => []
  | fail _, _ => []
  | perform op next, w =>
      ⟨op, (M.perform op w).1⟩ ::
        trace M (next (M.perform op w).1) (M.perform op w).2

/-- Whatever is answered, as long as it satisfies `A`, the ending and the trace
satisfy `Q`. -/
def Every (A : (op : Op) -> Answer op -> Prop)
    (Q : Except Failure α -> List (Sigma Answer) -> Prop) :
    Program Op Answer Failure α -> Prop
  | done a => Q (Except.ok a) []
  | fail e => Q (Except.error e) []
  | perform op next =>
      forall answer, A op answer ->
        (next answer).Every A fun ending rest => Q ending (⟨op, answer⟩ :: rest)

theorem every_mono {Q R : Except Failure α -> List (Sigma Answer) -> Prop}
    {p : Program Op Answer Failure α} (hQR : forall e t, Q e t -> R e t)
    (hp : p.Every A Q) : p.Every A R := by
  induction p generalizing Q R with
  | done a => exact hQR _ _ hp
  | fail e => exact hQR _ _ hp
  | perform op next ih =>
      intro answer hanswer
      exact ih answer (fun e t h => hQR e _ h) (hp answer hanswer)

/-- Of what is asked for in a trace, every operation is one that may be asked for. -/
theorem every_of_onlyGiven {p : Program Op Answer Failure α} (hp : p.OnlyGiven P A) :
    p.Every A fun _ t => forall e, e ∈ t -> P e.1 := by
  induction p with
  | done a => exact fun e he => absurd he List.not_mem_nil
  | fail f => exact fun e he => absurd he List.not_mem_nil
  | perform op next ih =>
      intro answer hanswer
      refine every_mono ?_ (ih answer (hp.right answer hanswer))
      intro ending t ht e he
      rcases List.mem_cons.mp he with rfl | hrest
      · exact hp.left
      · exact ht e hrest

/-!
## One change

A program that asks for quiet operations, and for a single other one at most.
-/

/-- The program asks for quiet operations only, up to one operation that
satisfies `C`. -/
def OneChange (Q C : Op -> Prop) : Program Op Answer Failure α -> Prop
  | done _ => True
  | fail _ => True
  | perform op next =>
      (Q op ∧ forall answer, (next answer).OneChange Q C) ∨
        (C op ∧ forall answer, (next answer).Only Q)

variable {Q C : Op -> Prop}

theorem oneChange_of_only {p : Program Op Answer Failure α} (hp : p.Only Q) :
    p.OneChange Q C := by
  induction p with
  | done a => trivial
  | fail e => trivial
  | perform op next ih =>
      exact Or.inl ⟨hp.left, fun answer => ih answer (hp.right answer)⟩

theorem oneChange_bind {p : Program Op Answer Failure α}
    {f : α -> Program Op Answer Failure β} (hp : p.Only Q)
    (hf : forall a, (f a).OneChange Q C) : (p >>= f).OneChange Q C := by
  induction p with
  | done a => exact hf a
  | fail e => trivial
  | perform op next ih =>
      exact Or.inl ⟨hp.left, fun answer => ih answer (hp.right answer)⟩

theorem oneChange_ask {op : Op} (h : C op) :
    (ask op : Program Op Answer Failure (Answer op)).OneChange Q C :=
  Or.inr ⟨h, fun _ => trivial⟩

theorem oneChange_then {p : Program Op Answer Failure α}
    {f : α -> Program Op Answer Failure β} (hp : p.OneChange Q C)
    (hf : forall a, (f a).Only Q) : (p >>= f).OneChange Q C := by
  induction p with
  | done a => exact oneChange_of_only (hf a)
  | fail e => trivial
  | perform op next ih =>
      rcases hp with ⟨hop, hnext⟩ | ⟨hop, hnext⟩
      · exact Or.inl ⟨hop, fun answer => ih answer (hnext answer)⟩
      · exact Or.inr ⟨hop, fun answer => only_bind (hnext answer) hf⟩

/-- What quiet operations keep is kept, or the change has led to what they keep
from then on. -/
theorem run_oneChange {M : Machine Op Answer World} {I J : World -> Prop}
    (hquiet : forall op w, Q op -> I w -> I (M.perform op w).2)
    (hchange : forall op w, C op -> I w -> J (M.perform op w).2)
    (hafter : forall op w, Q op -> J w -> J (M.perform op w).2)
    {p : Program Op Answer Failure α} (hp : p.OneChange Q C) {w : World}
    (hw : I w) : I (run M p w).2 ∨ J (run M p w).2 := by
  induction p generalizing w with
  | done a => exact Or.inl hw
  | fail e => exact Or.inl hw
  | perform op next ih =>
      rcases hp with ⟨hop, hnext⟩ | ⟨hop, hnext⟩
      · exact ih _ (hnext _) (hquiet op w hop hw)
      · exact Or.inr (run_invariant hafter (hnext _) (hchange op w hop hw))

end Program

end Foundation
end CisWebui
