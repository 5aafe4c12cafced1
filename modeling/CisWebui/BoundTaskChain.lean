import CisWebui.Foundation.EventSystem
import Mathlib.Data.List.Induction
import Mathlib.Data.List.Perm.Basic

/-!
# Task chains

`bound_task_chain` is built by `then` and `on_error`.  Once it runs, every task is posted
with what the task in front of it has passed on, and a `std::error_code` that a task throws
is given to the error handler.

The tasks do what they like: what becomes of a call is part of the event.  So is the choice
of the posted call that comes next, whatever executor it has been posted to, and the moment
an asynchronous task calls back.
-/

namespace CisWebui
namespace BoundTaskChain

open Foundation

/-!
## Building a chain
-/

/-- What a task goes on with: the value it returns, nothing, or what its callback is
given. -/
inductive TaskKind where
  | value
  | void
  | async
deriving DecidableEq, Repr

structure Task (Fn : Type) where
  fn : Fn
  kind : TaskKind
deriving DecidableEq, Repr

/-- `error_handler_`, which throws the code on by default. -/
inductive ErrorHandler (Handler : Type) where
  | rethrow
  | given (handler : Handler)
deriving DecidableEq, Repr

/-- `bound_task_chain`, with the newest function in front. -/
structure Chain (Fn Handler : Type) where
  fnChain : List (Task Fn) := []
  errorHandler : ErrorHandler Handler := ErrorHandler.rethrow
deriving DecidableEq, Repr

/-- The calls a chain is built by; `then` is a word of Lean. -/
inductive Building (Fn Handler : Type) where
  | andThen (task : Task Fn)
  | onError (handler : Handler)
deriving DecidableEq, Repr

variable {Fn Handler Value Code : Type}

/-- `then`, by `then_impl`: a new chain, of the executor and the functions. -/
def Chain.andThen (chain : Chain Fn Handler) (task : Task Fn) : Chain Fn Handler :=
  { fnChain := task :: chain.fnChain }

/-- `on_error` -/
def Chain.onError (chain : Chain Fn Handler) (handler : Handler) : Chain Fn Handler :=
  { chain with errorHandler := ErrorHandler.given handler }

def Chain.build (chain : Chain Fn Handler) : Building Fn Handler -> Chain Fn Handler
  | Building.andThen task => chain.andThen task
  | Building.onError handler => chain.onError handler

/-- `make_async_chain` -/
def makeAsyncChain : Chain Fn Handler :=
  {}

def built (building : List (Building Fn Handler)) : Chain Fn Handler :=
  building.foldl Chain.build makeAsyncChain

/-!
## Running a chain
-/

inductive Thrown (Code : Type) where
  | errorCode (ec : Code)
  | other
deriving DecidableEq, Repr

/-- What becomes of the call of a task.  The calls of its callback are those it makes before
it returns or throws. -/
inductive Outcome (Value Code : Type) where
  | returns (value : Value)
  | finishes
  | callsBack (calls : List (List Value))
  | throws (calls : List (List Value)) (thrown : Thrown Code)
deriving DecidableEq, Repr

/-- What can become of the `n`-th function.  The callback of the last one is empty, and to
call it throws in the task: that is no call. -/
def Outcome.fits (n : Nat) (kind : TaskKind) : Outcome Value Code -> Bool
  | Outcome.returns _ => kind = TaskKind.value
  | Outcome.finishes => kind = TaskKind.void
  | Outcome.callsBack calls => kind = TaskKind.async && (calls.isEmpty || n > 0)
  | Outcome.throws calls _ => calls.isEmpty || (kind = TaskKind.async && n > 0)

/-- The arguments of `call<N - 1>`, one by one. -/
def Outcome.continued (n : Nat) : Outcome Value Code -> List (List Value)
  | Outcome.returns value => if n > 0 then [[value]] else []
  | Outcome.finishes => if n > 0 then [[]] else []
  | Outcome.callsBack calls => calls
  | Outcome.throws calls _ => calls

/-- The `std::error_code` that is caught. -/
def Outcome.caught : Outcome Value Code -> Option Code
  | Outcome.throws _ (Thrown.errorCode ec) => some ec
  | _ => none

/-- A posted `call<N>`, and the execution it goes back to. -/
structure Call (Value : Type) where
  n : Nat
  args : List Value
  parent : Option Nat := none
deriving DecidableEq, Repr

/-- A call that has been run, and the calls of `error_handler_` it has led to. -/
structure Execution (Fn Handler Value Code : Type) where
  call : Call Value
  task : Task Fn
  outcome : Outcome Value Code
  handled : List (ErrorHandler Handler × Code) := []
deriving DecidableEq, Repr

/-- `bound_task_chain_impl` with the calls that wait, those that have been run, and the
calls of callbacks since. -/
structure Impl (Fn Handler Value Code : Type) where
  fnChain : List (Task Fn)
  errorHandler : ErrorHandler Handler
  posted : List (Call Value) := []
  log : List (Execution Fn Handler Value Code) := []
  calledBack : List (Nat × List Value) := []
deriving DecidableEq, Repr

inductive Event (Value Code : Type) where
  | runs (i : Nat) (outcome : Outcome Value Code)
  | callsBack (i : Nat) (args : List Value)
deriving DecidableEq, Repr

namespace Impl

/-- `run`, of a chain that has a function. -/
def run (chain : Chain Fn Handler) (args : List Value) : Impl Fn Handler Value Code where
  fnChain := chain.fnChain
  errorHandler := chain.errorHandler
  posted := [{ n := chain.fnChain.length - 1, args := args }]

/-- What `catch` does with an outcome. -/
def handle (errorHandler : ErrorHandler Handler) (outcome : Outcome Value Code) :
    List (ErrorHandler Handler × Code) :=
  match outcome.caught with
  | some ec => [(errorHandler, ec)]
  | none => []

/-- A posted call runs: what its task passes on is posted for the next function. -/
def ran (s : Impl Fn Handler Value Code) (i : Nat) (call : Call Value) (task : Task Fn)
    (outcome : Outcome Value Code) : Impl Fn Handler Value Code :=
  { s with
    posted := s.posted.eraseIdx i ++ (outcome.continued call.n).map fun args =>
      { n := call.n - 1, args := args, parent := some s.log.length }
    log := s.log ++ [{ call := call, task := task, outcome := outcome
                       handled := handle s.errorHandler outcome }] }

/-- The callback of an execution of the `n`-th function is called later on. -/
def calledLater (s : Impl Fn Handler Value Code) (i n : Nat) (args : List Value) :
    Impl Fn Handler Value Code :=
  { s with
    posted := s.posted ++ [{ n := n - 1, args := args, parent := some i }]
    calledBack := s.calledBack ++ [(i, args)] }

def step (s : Impl Fn Handler Value Code) :
    Event Value Code -> Option (Impl Fn Handler Value Code)
  | Event.runs i outcome =>
      s.posted[i]?.bind fun call =>
        s.fnChain[call.n]?.bind fun task =>
          if outcome.fits call.n task.kind then
            some (s.ran i call task outcome)
          else
            none
  | Event.callsBack i args =>
      s.log[i]?.bind fun execution =>
        if execution.task.kind = TaskKind.async ∧ execution.call.n > 0 then
          some (s.calledLater i execution.call.n args)
        else
          none

end Impl

/-- A chain that is built and then run. -/
def system (building : List (Building Fn Handler)) (args : List Value) :
    EventSystem (Impl Fn Handler Value Code) (Event Value Code) where
  init := Impl.run (built building) args
  step := Impl.step

/-!
## What a chain is for
-/

def Building.task? : Building Fn Handler -> Option (Task Fn)
  | Building.andThen task => some task
  | Building.onError _ => none

def Building.handler? : Building Fn Handler -> Option Handler
  | Building.andThen _ => none
  | Building.onError handler => some handler

/-- The tasks in the order in which they have been added. -/
def tasks (building : List (Building Fn Handler)) : List (Task Fn) :=
  building.filterMap Building.task?

/-- The handler of the most recent call of `on_error`. -/
def recentHandler (building : List (Building Fn Handler)) : Option Handler :=
  (building.filterMap Building.handler?).getLast?

section Law

variable (building : List (Building Fn Handler)) (s : Impl Fn Handler Value Code)

/-- The place in the order of the tasks. -/
def placeOf (call : Call Value) : Nat :=
  (tasks building).length - 1 - call.n

def Impl.calls : List (Call Value) :=
  s.log.map Execution.call ++ s.posted

/-- Those of some calls that go back to an execution, or to none: which task, and its
arguments. -/
def viewed (parent : Option Nat) (calls : List (Call Value)) : List (Nat × List Value) :=
  (calls.filter fun call => call.parent = parent).map fun call =>
    (placeOf building call, call.args)

def callsFrom (parent : Option Nat) : List (Nat × List Value) :=
  viewed building parent s.calls

/-- What a task has passed on when it was called. -/
def Outcome.results : Outcome Value Code -> List (List Value)
  | Outcome.returns value => [[value]]
  | Outcome.finishes => [[]]
  | Outcome.callsBack calls => calls
  | Outcome.throws calls _ => calls

/-- The continuations of an execution up to now. -/
def continuations (i : Nat) (execution : Execution Fn Handler Value Code) :
    List (List Value) :=
  execution.outcome.results ++ (s.calledBack.filter fun later => later.1 = i).map Prod.snd

/-- The calls of the next task that an execution has to lead to. -/
def nextCalls (i : Nat) (execution : Execution Fn Handler Value Code) :
    List (Nat × List Value) :=
  if placeOf building execution.call + 1 < (tasks building).length then
    (continuations s i execution).map fun args => (placeOf building execution.call + 1, args)
  else
    []

/-- The tasks come in the order in which they were added, each once for every continuation
of its predecessor and with what it has passed on. -/
structure InOrder (args : List Value) : Prop where
  called : forall execution, execution ∈ s.log ->
    (tasks building)[placeOf building execution.call]? = some execution.task
  first : callsFrom building s none = [(0, args)]
  next : forall i execution, s.log[i]? = some execution ->
    (callsFrom building s (some i)).Perm (nextCalls building s i execution)
  before : forall (k i : Nat) (execution : Execution Fn Handler Value Code),
    s.log[k]? = some execution -> execution.call.parent = some i -> i < k

/-- A task that throws a code is not gone on from, and the code goes to the most recent
handler, once. -/
structure HonoursHandler : Prop where
  stops : forall i execution, s.log[i]? = some execution ->
    ¬ execution.outcome.caught = none -> callsFrom building s (some i) = []
  once : forall execution, execution ∈ s.log -> forall ec, execution.outcome.caught = some ec ->
    forall handler, recentHandler building = some handler ->
      execution.handled = [(ErrorHandler.given handler, ec)]
  only : forall execution, execution ∈ s.log -> execution.outcome.caught = none ->
    execution.handled = []

structure Law (args : List Value) : Prop where
  inOrder : InOrder building s args
  honoursHandler : HonoursHandler building s

/-- Nothing has been added behind the most recent handler. -/
def HandlerKept : Prop :=
  forall handler, recentHandler building = some handler ->
    building.getLast? = some (Building.onError handler)

/-- Where a code is thrown, the handler has been kept, and the task neither has called back
nor does so later. -/
def Orderly (s : Impl Fn Handler Value Code) : Event Value Code -> Prop
  | Event.runs _ outcome =>
      ¬ outcome.caught = none -> outcome.results = [] ∧ HandlerKept building
  | Event.callsBack i _ =>
      forall execution, s.log[i]? = some execution -> execution.outcome.caught = none

end Law

/-!
## What has been built
-/

section Built

variable {building : List (Building Fn Handler)}

theorem built_append (building : List (Building Fn Handler)) (b : Building Fn Handler) :
    built (building ++ [b]) = (built building).build b := by
  rw [built, List.foldl_append]
  rfl

/-- The functions are stored in reverse. -/
theorem fnChain_built (building : List (Building Fn Handler)) :
    (built building).fnChain = (tasks building).reverse := by
  induction building using List.reverseRecOn with
  | nil => rfl
  | append_singleton building b ih =>
      rw [built_append, tasks, List.filterMap_append, List.reverse_append]
      cases b with
      | andThen task =>
          rw [tasks] at ih
          rw [← ih]
          rfl
      | onError handler =>
          rw [tasks] at ih
          rw [← ih]
          rfl

/-- Only a handler that nothing has been added behind is still there. -/
theorem errorHandler_built (building : List (Building Fn Handler)) (handler : Handler) :
    (built building).errorHandler = ErrorHandler.given handler <->
      building.getLast? = some (Building.onError handler) := by
  induction building using List.reverseRecOn with
  | nil =>
      constructor
      · intro h
        cases h
      · intro h
        cases h
  | append_singleton building b _ =>
      rw [built_append, List.getLast?_concat, Option.some_inj]
      cases b with
      | andThen task =>
          constructor
          · intro h
            cases h
          · intro h
            cases h
      | onError handler' =>
          constructor
          · intro h
            cases h
            rfl
          · intro h
            cases h
            rfl

/-- The `n`-th function is the task at its place from the end. -/
theorem getElem?_fnChain_built (n : Nat) (h : n < (tasks building).length) :
    (built building).fnChain[n]? = (tasks building)[(tasks building).length - 1 - n]? := by
  rw [fnChain_built, List.getElem?_reverse h]

end Built

/-!
## One step
-/

section Steps

variable {building : List (Building Fn Handler)} {s t : Impl Fn Handler Value Code}
  {args : List Value}

theorem viewed_append (parent : Option Nat) (a b : List (Call Value)) :
    viewed building parent (a ++ b) = viewed building parent a ++ viewed building parent b := by
  rw [viewed, List.filter_append, List.map_append]
  rfl

theorem viewed_perm (building : List (Building Fn Handler)) (parent : Option Nat)
    {a b : List (Call Value)} (h : a.Perm b) :
    (viewed building parent a).Perm (viewed building parent b) :=
  (h.filter _).map _

theorem viewed_eq_nil {parent : Option Nat} {calls : List (Call Value)}
    (h : forall call, call ∈ calls -> ¬ call.parent = parent) :
    viewed building parent calls = [] := by
  rw [viewed, List.filter_eq_nil_iff.mpr, List.map_nil]
  intro call hcall
  rw [decide_eq_true_eq]
  exact h call hcall

/-- Calls that all go back to one execution. -/
theorem viewed_posts (building : List (Building Fn Handler)) (n i : Nat)
    (passed : List (List Value)) :
    viewed building (some i) (passed.map fun args => { n := n, args := args, parent := some i }) =
      passed.map fun args => ((tasks building).length - 1 - n, args) := by
  rw [viewed, List.filter_eq_self.mpr, List.map_map]
  · rfl
  · intro call hcall
    rcases List.mem_map.mp hcall with ⟨args, -, rfl⟩
    exact decide_eq_true rfl

theorem Outcome.continued_of_pos {n : Nat} (h : n > 0) (outcome : Outcome Value Code) :
    outcome.continued n = outcome.results := by
  cases outcome with
  | returns value => exact if_pos h
  | finishes => exact if_pos h
  | callsBack calls => rfl
  | throws calls thrown => rfl

/-- Nothing comes behind the last function. -/
theorem Outcome.continued_zero {outcome : Outcome Value Code} {kind : TaskKind}
    (h : outcome.fits 0 kind = true) : outcome.continued 0 = [] := by
  cases outcome with
  | returns value => rfl
  | finishes => rfl
  | callsBack calls =>
      simp [Outcome.fits] at h
      exact h.right
  | throws calls thrown =>
      simp [Outcome.fits] at h
      exact h

theorem exists_of_runs {i : Nat} {outcome : Outcome Value Code}
    (h : s.step (Event.runs i outcome) = some t) :
    exists call task, s.posted[i]? = some call ∧ s.fnChain[call.n]? = some task ∧
      outcome.fits call.n task.kind = true ∧ t = s.ran i call task outcome := by
  rw [Impl.step] at h
  rcases Option.bind_eq_some_iff.mp h with ⟨call, hcall, h⟩
  rcases Option.bind_eq_some_iff.mp h with ⟨task, htask, h⟩
  by_cases hfits : outcome.fits call.n task.kind = true
  · rw [if_pos hfits] at h
    exact ⟨call, task, hcall, htask, hfits, (Option.some.inj h).symm⟩
  · rw [if_neg hfits] at h
    cases h

theorem exists_of_callsBack {i : Nat} {args : List Value}
    (h : s.step (Event.callsBack i args) = some t) :
    exists execution, s.log[i]? = some execution ∧ execution.call.n > 0 ∧
      t = s.calledLater i execution.call.n args := by
  rw [Impl.step] at h
  rcases Option.bind_eq_some_iff.mp h with ⟨execution, hexecution, h⟩
  by_cases hasync : execution.task.kind = TaskKind.async ∧ execution.call.n > 0
  · rw [if_pos hasync] at h
    exact ⟨execution, hexecution, hasync.right, (Option.some.inj h).symm⟩
  · rw [if_neg hasync] at h
    cases h

theorem calls_ran {i : Nat} {call : Call Value} (hcall : s.posted[i]? = some call)
    (task : Task Fn) (outcome : Outcome Value Code) :
    (s.ran i call task outcome).calls.Perm (s.calls ++
      (outcome.continued call.n).map fun args =>
        { n := call.n - 1, args := args, parent := some s.log.length }) := by
  rcases List.getElem?_eq_some_iff.mp hcall with ⟨hlt, rfl⟩
  have herase := List.getElem_cons_eraseIdx_perm hlt
  rw [Impl.calls, Impl.ran, List.map_append, ← List.append_assoc, Impl.calls]
  apply List.Perm.append_right
  rw [List.append_assoc]
  exact herase.append_left _

theorem old_ne_new {j : Nat} {execution : Execution Fn Handler Value Code}
    (hold : s.log[j]? = some execution) : ¬ (some j : Option Nat) = some s.log.length := by
  intro heq
  have hlt := (List.getElem?_eq_some_iff.mp hold).fst
  rw [Option.some.inj heq] at hlt
  exact Nat.lt_irrefl _ hlt

theorem old_or_new_of_ran {i j : Nat} {call : Call Value} {task : Task Fn}
    {outcome : Outcome Value Code} {execution : Execution Fn Handler Value Code}
    (h : (s.ran i call task outcome).log[j]? = some execution) :
    s.log[j]? = some execution ∨ (j = s.log.length ∧ execution =
      { call := call, task := task, outcome := outcome
        handled := Impl.handle s.errorHandler outcome }) := by
  rcases Nat.lt_or_ge j s.log.length with hold | hnew
  · rw [Impl.ran, List.getElem?_append_left hold] at h
    exact Or.inl h
  · rw [Impl.ran, List.getElem?_append_right hnew, List.getElem?_singleton] at h
    by_cases hj : j - s.log.length = 0
    · rw [if_pos hj] at h
      exact Or.inr ⟨by omega, (Option.some.inj h).symm⟩
    · rw [if_neg hj] at h
      cases h

theorem calls_calledLater (i n : Nat) (args : List Value) :
    (s.calledLater i n args).calls =
      s.calls ++ [{ n := n - 1, args := args, parent := some i }] := by
  rw [Impl.calls, Impl.calledLater, ← List.append_assoc]
  rfl

/-!
## What every step keeps
-/

/-- What holds whatever the tasks do and whoever handles their errors. -/
structure Kept (building : List (Building Fn Handler)) (args : List Value)
    (s : Impl Fn Handler Value Code) : Prop where
  fnChain_eq : s.fnChain = (built building).fnChain
  errorHandler_eq : s.errorHandler = (built building).errorHandler
  below : forall call, call ∈ s.calls -> call.n < (tasks building).length
  parents : forall call, call ∈ s.calls -> forall i, call.parent = some i -> i < s.log.length
  laters : forall later, later ∈ s.calledBack -> later.1 < s.log.length
  handled : forall execution, execution ∈ s.log ->
    execution.handled = Impl.handle s.errorHandler execution.outcome
  inOrder : InOrder building s args

theorem viewed_others (building : List (Building Fn Handler)) {parent : Option Nat} {i : Nat}
    (hne : ¬ parent = some i) (n : Nat) (passed : List (List Value)) :
    viewed building parent (passed.map fun args =>
      { n := n, args := args, parent := some i }) = [] := by
  apply viewed_eq_nil
  intro call hcall
  rcases List.mem_map.mp hcall with ⟨args, -, rfl⟩
  exact fun heq => hne heq.symm

/-- A run leaves what goes back to other executions. -/
theorem callsFrom_ran_of_ne (building : List (Building Fn Handler)) {i : Nat}
    {call : Call Value} (hcall : s.posted[i]? = some call)
    (task : Task Fn) (outcome : Outcome Value Code) {parent : Option Nat}
    (hne : ¬ parent = some s.log.length) :
    (callsFrom building (s.ran i call task outcome) parent).Perm
      (callsFrom building s parent) := by
  have hperm := viewed_perm building parent (calls_ran hcall task outcome)
  rw [viewed_append, viewed_others building hne, List.append_nil] at hperm
  exact hperm

theorem callsFrom_ran_self (h : Kept building args s) {i : Nat} {call : Call Value}
    (hcall : s.posted[i]? = some call) (task : Task Fn) (outcome : Outcome Value Code) :
    (callsFrom building (s.ran i call task outcome) (some s.log.length)).Perm
      ((outcome.continued call.n).map fun args =>
        ((tasks building).length - 1 - (call.n - 1), args)) := by
  have hperm := viewed_perm building (some s.log.length)
    (calls_ran hcall task outcome)
  have hnone : viewed building (some s.log.length) s.calls = [] := by
    apply viewed_eq_nil
    intro c hc hparent
    exact Nat.lt_irrefl _ (h.parents c hc _ hparent)
  rw [viewed_append, viewed_posts, hnone, List.nil_append] at hperm
  exact hperm

theorem callsFrom_calledLater_of_ne {i : Nat} {parent : Option Nat} (hne : ¬ parent = some i)
    (n : Nat) (args : List Value) :
    callsFrom building (s.calledLater i n args) parent = callsFrom building s parent := by
  have hnone := viewed_others building hne (n - 1) [args]
  rw [List.map_singleton] at hnone
  rw [callsFrom, calls_calledLater, viewed_append, hnone, List.append_nil]
  rfl

theorem callsFrom_calledLater_self (i n : Nat) (args : List Value) :
    callsFrom building (s.calledLater i n args) (some i) =
      callsFrom building s (some i) ++ [((tasks building).length - 1 - (n - 1), args)] := by
  have hone := viewed_posts building (n - 1) i [args]
  rw [List.map_singleton, List.map_singleton] at hone
  rw [callsFrom, calls_calledLater, viewed_append, hone]
  rfl

/-- What a run passes on is what the next task has to be called with. -/
theorem nextCalls_ran (h : Kept building args s) {i : Nat} {call : Call Value}
    {task : Task Fn} {outcome : Outcome Value Code} (hmem : call ∈ s.calls)
    (hfits : outcome.fits call.n task.kind = true) :
    nextCalls building (s.ran i call task outcome) s.log.length
        { call := call, task := task, outcome := outcome
          handled := Impl.handle s.errorHandler outcome } =
      (outcome.continued call.n).map fun args =>
        ((tasks building).length - 1 - (call.n - 1), args) := by
  have hn := h.below call hmem
  have hnone : s.calledBack.filter (fun later => later.1 = s.log.length) = [] := by
    rw [List.filter_eq_nil_iff]
    intro later hlater
    have hlt := h.laters later hlater
    rw [decide_eq_true_eq]
    omega
  have hresults : continuations (s.ran i call task outcome) s.log.length
      { call := call, task := task, outcome := outcome
        handled := Impl.handle s.errorHandler outcome } = outcome.results := by
    change outcome.results ++
      (s.calledBack.filter fun later => later.1 = s.log.length).map Prod.snd = _
    rw [hnone, List.map_nil, List.append_nil]
  unfold nextCalls
  rw [hresults, placeOf]
  dsimp only
  by_cases hpos : call.n > 0
  · have hplace : (tasks building).length - 1 - (call.n - 1) =
        (tasks building).length - 1 - call.n + 1 := by
      omega
    rw [if_pos (by omega), Outcome.continued_of_pos hpos, hplace]
  · have hzero : call.n = 0 := Nat.eq_zero_of_not_pos hpos
    rw [hzero] at hfits ⊢
    rw [if_neg (by omega), Outcome.continued_zero hfits]
    rfl

theorem inOrder_ran (h : Kept building args s) {i : Nat} {call : Call Value} {task : Task Fn}
    {outcome : Outcome Value Code} (hcall : s.posted[i]? = some call)
    (htask : s.fnChain[call.n]? = some task) (hfits : outcome.fits call.n task.kind = true) :
    InOrder building (s.ran i call task outcome) args := by
  have hmem : call ∈ s.calls := List.mem_append_right _ (List.mem_of_getElem? hcall)
  have hn := h.below call hmem
  constructor
  · intro execution hexecution
    rcases List.mem_append.mp hexecution with hold | hnew
    · exact h.inOrder.called execution hold
    · rw [List.mem_singleton.mp hnew, placeOf, ← getElem?_fnChain_built _ hn, ← h.fnChain_eq]
      exact htask
  · have hnone : ¬ (none : Option Nat) = some s.log.length := by simp
    have hfirst := callsFrom_ran_of_ne building hcall task outcome hnone
    rw [h.inOrder.first] at hfirst
    exact List.perm_singleton.mp hfirst
  · intro j execution hexecution
    rcases old_or_new_of_ran hexecution with hold | ⟨rfl, rfl⟩
    · exact (callsFrom_ran_of_ne building hcall task outcome (old_ne_new hold)).trans
        (h.inOrder.next j execution hold)
    · rw [nextCalls_ran h hmem hfits]
      exact callsFrom_ran_self h hcall task outcome
  · intro k j execution hexecution hparent
    rcases old_or_new_of_ran hexecution with hold | ⟨rfl, rfl⟩
    · exact h.inOrder.before k j execution hold hparent
    · exact h.parents call hmem j hparent

theorem kept_ran (h : Kept building args s) {i : Nat} {call : Call Value} {task : Task Fn}
    {outcome : Outcome Value Code} (hcall : s.posted[i]? = some call)
    (htask : s.fnChain[call.n]? = some task) (hfits : outcome.fits call.n task.kind = true) :
    Kept building args (s.ran i call task outcome) := by
  have hcalls := calls_ran hcall task outcome
  have hmem : call ∈ s.calls :=
    List.mem_append_right _ (List.mem_of_getElem? hcall)
  have hn := h.below call hmem
  have hlength : (s.ran i call task outcome).log.length = s.log.length + 1 := by
    rw [Impl.ran, List.length_append]
    rfl
  constructor
  · exact h.fnChain_eq
  · exact h.errorHandler_eq
  · intro c hc
    rcases List.mem_append.mp (hcalls.mem_iff.mp hc) with hold | hnew
    · exact h.below c hold
    · rcases List.mem_map.mp hnew with ⟨a, -, rfl⟩
      exact Nat.lt_of_le_of_lt (Nat.sub_le _ _) hn
  · intro c hc j hj
    rw [hlength]
    rcases List.mem_append.mp (hcalls.mem_iff.mp hc) with hold | hnew
    · exact Nat.lt_succ_of_lt (h.parents c hold j hj)
    · rcases List.mem_map.mp hnew with ⟨a, -, rfl⟩
      cases hj
      exact Nat.lt_succ_self _
  · intro later hlater
    rw [hlength]
    exact Nat.lt_succ_of_lt (h.laters later hlater)
  · intro execution hexecution
    rcases List.mem_append.mp hexecution with hold | hnew
    · exact h.handled execution hold
    · rw [List.mem_singleton.mp hnew]
      rfl
  · exact inOrder_ran h hcall htask hfits

theorem nextCalls_calledLater_of_ne {i j : Nat} (hne : ¬ j = i) (n : Nat) (args : List Value)
    (execution : Execution Fn Handler Value Code) :
    nextCalls building (s.calledLater i n args) j execution =
      nextCalls building s j execution := by
  have hsame : continuations (s.calledLater i n args) j execution =
      continuations s j execution := by
    change execution.outcome.results ++ ((s.calledBack ++ [(i, args)]).filter fun later =>
      later.1 = j).map Prod.snd = _
    have hfilter : ([(i, args)] : List (Nat × List Value)).filter
        (fun later => later.1 = j) = [] := by
      rw [List.filter_singleton, decide_eq_false (fun heq => hne heq.symm)]
      rfl
    rw [List.filter_append, hfilter, List.append_nil]
    rfl
  rw [nextCalls, hsame]
  rfl

theorem nextCalls_calledLater_self {i : Nat} {execution : Execution Fn Handler Value Code}
    (hn : execution.call.n < (tasks building).length) (hpos : execution.call.n > 0)
    (args : List Value) :
    nextCalls building (s.calledLater i execution.call.n args) i execution =
      nextCalls building s i execution ++
        [((tasks building).length - 1 - (execution.call.n - 1), args)] := by
  have hmore : continuations (s.calledLater i execution.call.n args) i execution =
      continuations s i execution ++ [args] := by
    change execution.outcome.results ++ ((s.calledBack ++ [(i, args)]).filter fun later =>
      later.1 = i).map Prod.snd = _
    have hfilter : ([(i, args)] : List (Nat × List Value)).filter
        (fun later => later.1 = i) = [(i, args)] := by
      rw [List.filter_singleton, decide_eq_true rfl]
      rfl
    rw [List.filter_append, hfilter, List.map_append, ← List.append_assoc]
    rfl
  have hplace : (tasks building).length - 1 - (execution.call.n - 1) =
      (tasks building).length - 1 - execution.call.n + 1 := by
    omega
  have hinside : (tasks building).length - 1 - execution.call.n + 1 <
      (tasks building).length := by
    omega
  rw [nextCalls, nextCalls, hmore, placeOf, if_pos hinside, if_pos hinside, List.map_append,
    hplace]
  rfl

theorem kept_calledLater (h : Kept building args s) {i : Nat}
    {execution : Execution Fn Handler Value Code} (hexecution : s.log[i]? = some execution)
    (hpos : execution.call.n > 0) (later : List Value) :
    Kept building args (s.calledLater i execution.call.n later) := by
  have hcalls := calls_calledLater (s := s) i execution.call.n later
  have hi : i < s.log.length := (List.getElem?_eq_some_iff.mp hexecution).fst
  have hn : execution.call.n < (tasks building).length :=
    h.below _ (List.mem_append_left _ (List.mem_map_of_mem (List.mem_of_getElem? hexecution)))
  constructor
  · exact h.fnChain_eq
  · exact h.errorHandler_eq
  · intro c hc
    rw [hcalls] at hc
    rcases List.mem_append.mp hc with hold | hnew
    · exact h.below c hold
    · rw [List.mem_singleton.mp hnew]
      exact Nat.lt_of_le_of_lt (Nat.sub_le _ _) hn
  · intro c hc j hj
    rw [hcalls] at hc
    rcases List.mem_append.mp hc with hold | hnew
    · exact h.parents c hold j hj
    · rw [List.mem_singleton.mp hnew] at hj
      cases hj
      exact hi
  · intro l hl
    rcases List.mem_append.mp hl with hold | hnew
    · exact h.laters l hold
    · rw [List.mem_singleton.mp hnew]
      exact hi
  · exact h.handled
  · constructor
    · exact h.inOrder.called
    · rw [callsFrom_calledLater_of_ne (by simp)]
      exact h.inOrder.first
    · intro j e he
      by_cases heq : j = i
      · subst heq
        have hsame : e = execution := by
          rw [← Option.some_inj, ← hexecution]
          exact he.symm
        subst hsame
        rw [callsFrom_calledLater_self, nextCalls_calledLater_self hn hpos]
        exact (h.inOrder.next j e he).append_right _
      · have hne : ¬ (some j : Option Nat) = some i := fun hsome => heq (Option.some.inj hsome)
        rw [callsFrom_calledLater_of_ne hne, nextCalls_calledLater_of_ne heq]
        exact h.inOrder.next j e he
    · exact h.inOrder.before

theorem kept_step (h : Kept building args s) {event : Event Value Code}
    (hstep : s.step event = some t) : Kept building args t := by
  cases event with
  | runs i outcome =>
      rcases exists_of_runs hstep with ⟨call, task, hcall, htask, hfits, rfl⟩
      exact kept_ran h hcall htask hfits
  | callsBack i later =>
      rcases exists_of_callsBack hstep with ⟨execution, hexecution, hpos, rfl⟩
      exact kept_calledLater h hexecution hpos later

theorem kept_run (hsome : ¬ tasks building = []) (args : List Value) :
    Kept building args (system building args : EventSystem _ (Event Value Code)).init := by
  have hlength : (built building).fnChain.length = (tasks building).length := by
    rw [fnChain_built, List.length_reverse]
  have hpos : 0 < (tasks building).length := List.length_pos_iff.mpr hsome
  have hcalls : (system building args : EventSystem _ (Event Value Code)).init.calls =
      [{ n := (tasks building).length - 1, args := args }] := by
    rw [← hlength]
    rfl
  constructor
  · rfl
  · rfl
  · intro call hcall
    rw [hcalls] at hcall
    rw [List.mem_singleton.mp hcall]
    exact Nat.sub_lt hpos Nat.zero_lt_one
  · intro call hcall i hi
    rw [hcalls] at hcall
    rw [List.mem_singleton.mp hcall] at hi
    cases hi
  · intro later hlater
    cases hlater
  · intro execution hexecution
    cases hexecution
  · constructor
    · intro execution hexecution
      cases hexecution
    · rw [callsFrom, hcalls, viewed, List.filter_singleton, decide_eq_true rfl]
      change [((tasks building).length - 1 - ((tasks building).length - 1), args)] = [(0, args)]
      rw [Nat.sub_self]
    · intro i execution hexecution
      cases hexecution
    · intro k i execution hexecution
      cases hexecution

/-- A posted call does not get stuck: whatever can become of its task is a step. -/
theorem exists_step_of_posted (h : Kept building args s) {i : Nat} {call : Call Value}
    (hcall : s.posted[i]? = some call) :
    exists task, (tasks building)[placeOf building call]? = some task ∧
      forall outcome : Outcome Value Code, outcome.fits call.n task.kind = true ->
        s.step (Event.runs i outcome) = some (s.ran i call task outcome) := by
  have hn := h.below call (List.mem_append_right _ (List.mem_of_getElem? hcall))
  have hplace : placeOf building call < (tasks building).length := by
    rw [placeOf]
    omega
  have htask := List.getElem?_eq_getElem hplace
  refine ⟨_, htask, ?_⟩
  intro outcome hfits
  have hget : s.fnChain[call.n]? = (tasks building)[placeOf building call]? := by
    rw [h.fnChain_eq]
    exact getElem?_fnChain_built _ hn
  rw [Impl.step, hcall, Option.bind_some, hget, htask, Option.bind_some, if_pos hfits]

/-!
## What depends on the errors
-/

/-- An execution that throws a code is the end of its line, and the handler is there. -/
def Obeys (building : List (Building Fn Handler)) (s : Impl Fn Handler Value Code) : Prop :=
  forall i execution, s.log[i]? = some execution -> ¬ execution.outcome.caught = none ->
    callsFrom building s (some i) = [] ∧ HandlerKept building

theorem handlerKept_iff (h : Kept building args s) : HandlerKept building <->
    forall handler, recentHandler building = some handler ->
      s.errorHandler = ErrorHandler.given handler := by
  rw [HandlerKept, h.errorHandler_eq]
  constructor
  · intro hkept handler hrecent
    exact (errorHandler_built building handler).mpr (hkept handler hrecent)
  · intro hkept handler hrecent
    exact (errorHandler_built building handler).mp (hkept handler hrecent)

theorem law_iff_obeys (h : Kept building args s) : Law building s args <-> Obeys building s := by
  constructor
  · intro hlaw i execution hexecution hcaught
    refine ⟨hlaw.honoursHandler.stops i execution hexecution hcaught, ?_⟩
    rw [handlerKept_iff h]
    intro handler hrecent
    rcases Option.ne_none_iff_exists'.mp hcaught with ⟨ec, hec⟩
    have hmem := List.mem_of_getElem? hexecution
    have honce := hlaw.honoursHandler.once execution hmem ec hec handler hrecent
    rw [h.handled execution hmem, Impl.handle, hec] at honce
    exact (Prod.mk.inj (List.singleton_inj.mp honce)).left
  · intro hobeys
    refine ⟨h.inOrder, ?_, ?_, ?_⟩
    · intro i execution hexecution hcaught
      exact (hobeys i execution hexecution hcaught).left
    · intro execution hmem ec hec handler hrecent
      rcases List.mem_iff_getElem?.mp hmem with ⟨i, hexecution⟩
      have hcaught : ¬ execution.outcome.caught = none := by
        rw [hec]
        simp
      have hkept := (handlerKept_iff h).mp (hobeys i execution hexecution hcaught).right
      rw [h.handled execution hmem, Impl.handle, hec, hkept handler hrecent]
    · intro execution hmem hnone
      rw [h.handled execution hmem, Impl.handle, hnone]

/-- A code that is caught has been thrown, behind calls that are all there is to go on
with. -/
theorem continued_of_caught {outcome : Outcome Value Code}
    (h : ¬ outcome.caught = none) (n : Nat) : outcome.continued n = outcome.results := by
  cases outcome with
  | throws calls thrown => rfl
  | returns value => exact absurd rfl h
  | finishes => exact absurd rfl h
  | callsBack calls => exact absurd rfl h

theorem obeys_step_iff (h : Kept building args s) (hobeys : Obeys building s)
    {event : Event Value Code} (hstep : s.step event = some t) :
    Obeys building t <-> Orderly building s event := by
  cases event with
  | runs i outcome =>
      rcases exists_of_runs hstep with ⟨call, task, hcall, htask, hfits, rfl⟩
      have hself := callsFrom_ran_self h hcall task outcome
      constructor
      · intro hnext hcaught
        have hnew : (s.ran i call task outcome).log[s.log.length]? =
            some { call := call, task := task, outcome := outcome
                   handled := Impl.handle s.errorHandler outcome } := by
          rw [Impl.ran, List.getElem?_concat_length]
        rcases hnext _ _ hnew hcaught with ⟨hnone, hkept⟩
        rw [hnone, continued_of_caught hcaught] at hself
        exact ⟨List.map_eq_nil_iff.mp (List.nil_perm.mp hself), hkept⟩
      · intro horderly j execution hexecution hcaught
        rcases old_or_new_of_ran hexecution with hold | ⟨rfl, rfl⟩
        · rcases hobeys j execution hold hcaught with ⟨hnone, hkept⟩
          have hsame := callsFrom_ran_of_ne building hcall task outcome (old_ne_new hold)
          rw [hnone] at hsame
          exact ⟨List.perm_nil.mp hsame, hkept⟩
        · rcases horderly hcaught with ⟨hresults, hkept⟩
          rw [continued_of_caught hcaught, hresults, List.map_nil] at hself
          exact ⟨List.perm_nil.mp hself, hkept⟩
  | callsBack i later =>
      rcases exists_of_callsBack hstep with ⟨execution, hexecution, hpos, rfl⟩
      constructor
      · intro hnext e he
        by_contra hcaught
        rcases hnext i e he hcaught with ⟨hnone, -⟩
        rw [callsFrom_calledLater_self] at hnone
        simp at hnone
      · intro horderly j e he hcaught
        rcases hobeys j e he hcaught with ⟨hnone, hkept⟩
        have hne : ¬ (some j : Option Nat) = some i := by
          intro heq
          rw [Option.some.inj heq] at he
          exact hcaught (horderly e he)
        rw [callsFrom_calledLater_of_ne hne]
        exact ⟨hnone, hkept⟩

end Steps

/-- A run obeys the law in every state just when every step of it is orderly. -/
theorem everyState_law_iff (building : List (Building Fn Handler)) (args : List Value)
    (hsome : ¬ tasks building = []) (events : List (Event Value Code)) :
    (system building args).EveryState (fun s => Law building s args)
        (system building args).init events <->
      (system building args).EveryStep (Orderly building)
        (system building args).init events := by
  have hsafe : forall s : Impl Fn Handler Value Code,
      Kept building args s ∧ Obeys building s -> Law building s args :=
    fun s hs => (law_iff_obeys hs.left).mpr hs.right
  refine EventSystem.everyState_iff_everyStep ?_ ?_ hsafe ⟨kept_run hsome args, ?_⟩
  · intro s event t hs horderly hstep
    exact ⟨kept_step hs.left hstep, (obeys_step_iff hs.left hs.right hstep).mpr horderly⟩
  · intro s event t hs hstep hlaw
    have hobeys := (law_iff_obeys (kept_step hs.left hstep)).mp hlaw
    exact (obeys_step_iff hs.left hs.right hstep).mp hobeys
  · intro i execution hexecution _
    cases hexecution

/-- An asynchronous task, a task behind it, and a handler. -/
def sampleBuilding : List (Building Nat Nat) :=
  [Building.andThen ⟨0, TaskKind.async⟩, Building.andThen ⟨1, TaskKind.void⟩,
    Building.onError 7]

/-- The first task calls back twice, and the first of the two calls throws. -/
def sampleEvents : List (Event Nat Nat) :=
  [Event.runs 0 (Outcome.callsBack [[8], [9]]),
    Event.runs 0 (Outcome.throws [] (Thrown.errorCode 5)), Event.runs 0 Outcome.finishes]

theorem everyState_law_iff_sample :
    (system sampleBuilding [4]).EveryState (fun s => Law sampleBuilding s [4])
        (system sampleBuilding [4]).init sampleEvents <->
      (system sampleBuilding [4]).EveryStep (Orderly sampleBuilding)
        (system sampleBuilding [4]).init sampleEvents :=
  everyState_law_iff sampleBuilding [4] (by decide) sampleEvents

/-- A handler that a task is added behind is forgotten: the code is thrown on. -/
theorem everyState_law_not_everywhere :
    ¬ forall (building : List (Building Nat Nat)) (args : List Nat)
      (events : List (Event Nat Nat)), ¬ tasks building = [] ->
        (system building args).EveryState (fun s => Law building s args)
          (system building args).init events := by
  intro h
  have hall := h [Building.onError 7, Building.andThen ⟨0, TaskKind.void⟩] []
    [Event.runs 0 (Outcome.throws [] (Thrown.errorCode 5))] (by decide)
  have hlaw := EventSystem.everyState_last hall rfl
  have honce := hlaw.honoursHandler.once _ List.mem_cons_self 5 rfl 7 rfl
  have hhandled : ([(ErrorHandler.rethrow, 5)] : List (ErrorHandler Nat × Nat)) =
      [(ErrorHandler.given 7, 5)] := honce
  exact absurd hhandled (by decide)

end BoundTaskChain
end CisWebui
