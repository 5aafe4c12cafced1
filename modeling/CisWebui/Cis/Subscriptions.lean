import Mathlib.Data.List.Nodup
import CisWebui.Cis.Registry

/-!
# Subscribers and the maps that refer to them

A close handler belongs to the subscriber it holds: the two agree on the
connection and on the id.  An entry of a session belongs to the subscriber it
points to.  As long as that is so, a subscriber that is unsubscribed removes
its own close handler, and with it the last pointer to itself.
-/

namespace CisWebui
namespace Cis

open Cpp
open Foundation

/-- A subscriber that has been told something and then unsubscribed. -/
def Subscriber.left (subscriber : Subscriber)
    (notifications : List Notification) : Subscriber :=
  { subscriber with
    session := none
    received := subscriber.received ++ notifications
    history := { subscriber.history with ended := true } }

namespace State

/-- The session has an entry for the subscriber. -/
def Registered (s : State) (o number : Nat) : Prop :=
  ((s.subscribers number).connection, number) ∈
    (s.objects o).subscribers.entries

instance (s : State) (o number : Nat) : Decidable (s.Registered o number) :=
  inferInstanceAs (Decidable (_ ∈ _))

/-- The maps and the subscribers agree, and no call is running. -/
structure Wired (s : State) : Prop where
  handler : forall {c e}, e ∈ (s.closeHandlers c).entries ->
    e.2 < s.nextSubscriber ∧ (s.subscribers e.2).connection = c ∧
      (s.subscribers e.2).subscribeId = e.1 ∧
      (s.subscribers e.2).history.givenId = some e.1
  handlers_of_closed : forall {c}, s.closed c = true ->
    (s.closeHandlers c).entries = []
  entry : forall {o e}, e ∈ (s.objects o).subscribers.entries ->
    e.2 < s.nextSubscriber ∧ (s.subscribers e.2).connection = e.1 ∧
      (s.subscribers e.2).history.object = some o
  object_lt : forall {number o}, number < s.nextSubscriber ->
    (s.subscribers number).history.object = some o -> o < s.nextObject
  calls_eq : s.calls = []

theorem wired_initial : initial.Wired := by
  constructor
  · intro c e h
    cases h
  · intro c h
    cases h
  · intro o e h
    cases h
  · intro number o h
    exact absurd h (Nat.not_lt_zero _)
  · rfl

namespace Wired

variable {s : State} {number : Nat}

theorem attached_iff (h : s.Wired) : s.Attached number <->
    ((s.subscribers number).subscribeId, number) ∈
      (s.closeHandlers (s.subscribers number).connection).entries := by
  constructor
  · rintro ⟨e, he, rfl⟩
    rw [(h.handler he).right.right.left]
    exact he
  · intro hmem
    exact ⟨_, hmem, rfl⟩

theorem lockable_iff (h : s.Wired) :
    s.Lockable number <-> s.Attached number := by
  rw [Lockable, h.calls_eq]
  simp

theorem not_closed (h : s.Wired) (hn : s.Attached number) :
    s.closed (s.subscribers number).connection = false := by
  rcases hn with ⟨e, he, rfl⟩
  cases hclosed : s.closed (s.subscribers e.2).connection with
  | false => rfl
  | true =>
      rw [h.handlers_of_closed hclosed] at he
      cases he

theorem with_pointers (h : s.Wired) (owners : Nat -> List Owner)
    (sessions : Str -> Option Nat) :
    ({ s with owners := owners, sessions := sessions } : State).Wired :=
  ⟨h.handler, h.handlers_of_closed, h.entry, h.object_lt, h.calls_eq⟩

theorem registered_of_mem (h : s.Wired) {o : Nat} {e : Nat × Nat}
    (he : e ∈ (s.objects o).subscribers.entries) : s.Registered o e.2 := by
  rw [Registered, (h.entry he).right.left]
  exact he

end Wired

theorem attached_congr {s t : State} {number : Nat}
    (hhandlers : t.closeHandlers = s.closeHandlers)
    (hconnection : (t.subscribers number).connection =
      (s.subscribers number).connection) :
    t.Attached number <-> s.Attached number := by
  rw [Attached, Attached, hhandlers, hconnection]

/-!
## What the calls change besides the pointers to sessions
-/

theorem exists_release (s : State) (o : Nat) (owner : Owner) :
    exists owners sessions,
      s.release o owner = { s with owners := owners, sessions := sessions } := by
  unfold release
  split
  · exact ⟨_, _, rfl⟩
  · exact ⟨s.owners, s.sessions, rfl⟩

theorem exists_resetSession (s : State) (number : Nat) :
    exists owners sessions, s.resetSession number =
      { s with
        subscribers := Function.update s.subscribers number
          { s.subscribers number with session := none }
        owners := owners
        sessions := sessions } := by
  unfold resetSession
  cases hsession : (s.subscribers number).session with
  | none =>
      refine ⟨s.owners, s.sessions, ?_⟩
      have hsame : ({ s.subscribers number with session := none } : Subscriber) =
          s.subscribers number := by
        rw [← hsession]
      rw [hsame, Function.update_eq_self]
  | some o => exact exists_release _ o _

/-- A removal by a subscriber of its own handler. -/
def ownRemoval (s : State) (number : Nat) : Removal where
  subscriber := number
  id := (s.subscribers number).subscribeId
  givenId := (s.subscribers number).history.givenId
  removed := some number

/-- The subscriber left, its handler removed. -/
def detach (s : State) (number : Nat) (notifications : List Notification) :
    State :=
  let subscriber := s.subscribers number
  { s with
    subscribers := Function.update s.subscribers number
      (subscriber.left notifications)
    closeHandlers := Function.update s.closeHandlers subscriber.connection
      ((s.closeHandlers subscriber.connection).erase subscriber.subscribeId)
    removals := s.removals ++ [s.ownRemoval number] }

theorem dropSubscriber_of_call {s : State} {number : Nat}
    (h : number ∈ s.calls) : s.dropSubscriber number = s :=
  if_pos (Or.inr h)

theorem exists_unsubscribe {s : State} {number : Nat} (hcall : number ∈ s.calls)
    (hclosed : s.closed (s.subscribers number).connection = false)
    (hfind : (s.closeHandlers (s.subscribers number).connection).find?
      (s.subscribers number).subscribeId = some number) :
    exists owners sessions, s.unsubscribe number =
      { s.detach number [] with owners := owners, sessions := sessions } := by
  rcases exists_resetSession s number with ⟨owners, sessions, hreset⟩
  refine ⟨owners, sessions, ?_⟩
  rw [unsubscribe, hreset]
  simp only [markEnded, setSubscriber, Function.update_self,
    Function.update_idem, hclosed, Bool.false_eq_true, if_false, noteRemoval,
    removeCloseHandler, hfind]
  refine (dropSubscriber_of_call ?_).trans ?_
  · exact hcall
  · simp only [setHandlers, detach, ownRemoval, Subscriber.left,
      List.append_nil]

theorem leaveCall_of_attached {s : State} {number : Nat}
    (hattached : s.Attached number) :
    (s.holdInCall number).leaveCall number = s := by
  rw [leaveCall, holdInCall, dropSubscriber]
  dsimp only
  rw [List.erase_cons_head, if_pos]
  exact Or.inl hattached

/-- The last pointer goes. -/
theorem leaveCall_of_detached {s : State} {number : Nat}
    (hcalls : s.calls = [number]) (hattached : ¬ s.Attached number)
    (hsession : (s.subscribers number).session = none) :
    s.leaveCall number = { s with calls := [] } := by
  rw [leaveCall, hcalls, List.erase_cons_head, dropSubscriber, if_neg]
  · rw [resetSession]
    dsimp only
    rw [hsession]
  · rintro (h | h)
    · exact hattached h
    · cases h

theorem not_attached_detach {s : State} (hw : s.Wired) {number : Nat}
    (notifications : List Notification) :
    ¬ (s.detach number notifications).Attached number := by
  rintro ⟨e, he, rfl⟩
  have hconnection : ((s.detach e.2 notifications).subscribers e.2).connection =
      (s.subscribers e.2).connection := by
    simp [detach, Subscriber.left]
  rw [hconnection, detach] at he
  dsimp only at he
  rw [Function.update_self, SortedMap.mem_erase] at he
  exact he.right (hw.handler he.left).right.right.left.symm

/-- A subscriber that a call holds and unsubscribes has gone afterwards. -/
theorem exists_left {s : State} (hw : s.Wired) {number : Nat}
    (hattached : s.Attached number) (notifications : List Notification)
    {told : State} (htold : told = (s.holdInCall number).setSubscriber number
      { s.subscribers number with
        received := (s.subscribers number).received ++ notifications }) :
    exists owners sessions, (told.unsubscribe number).leaveCall number =
      { s.detach number notifications with
        owners := owners, sessions := sessions } := by
  have hfind := SortedMap.find?_eq_some_iff.mpr (hw.attached_iff.mp hattached)
  have hcall : number ∈ told.calls := by
    rw [htold]
    exact List.mem_cons_self ..
  have hsubscriber : told.subscribers number =
      { s.subscribers number with
        received := (s.subscribers number).received ++ notifications } := by
    rw [htold, setSubscriber]
    exact Function.update_self ..
  have hclosed := hw.not_closed hattached
  rcases exists_unsubscribe hcall (by rw [hsubscriber, htold]; exact hclosed)
    (by rw [hsubscriber, htold]; exact hfind) with ⟨owners, sessions, hleft⟩
  refine ⟨owners, sessions, ?_⟩
  have hstate : told.unsubscribe number =
      ({ s.detach number notifications with
        owners := owners
        sessions := sessions
        calls := [number] } : State) := by
    rw [hleft, htold]
    simp only [detach, setSubscriber, holdInCall, ownRemoval, Subscriber.left,
      Function.update_self, Function.update_idem, List.append_nil, hw.calls_eq]
  rw [hstate]
  refine (leaveCall_of_detached rfl (fun h => ?_) ?_).trans ?_
  · exact not_attached_detach hw notifications h
  · simp [detach, Subscriber.left]
  · have hcalls : (s.detach number notifications).calls = [] := hw.calls_eq
    rw [← hcalls]

/-!
## Leaving one by one
-/

theorem mem_closeHandlers_detach {s : State} (hw : s.Wired) {number : Nat}
    (hattached : s.Attached number) (notifications : List Notification) (c : Nat)
    (e : HandlerId × Nat) :
    e ∈ ((s.detach number notifications).closeHandlers c).entries <->
      e ∈ (s.closeHandlers c).entries ∧ e.2 ≠ number := by
  rw [detach]
  dsimp only
  by_cases hc : c = (s.subscribers number).connection
  · subst hc
    rw [Function.update_self, SortedMap.mem_erase]
    refine and_congr_right fun he => not_congr ?_
    constructor
    · intro hid
      have hown := hw.attached_iff.mp hattached
      rw [← hid] at hown
      exact SortedMap.eq_of_mem he hown
    · rintro rfl
      exact (hw.handler he).right.right.left.symm
  · rw [Function.update_of_ne hc]
    refine ⟨fun he => ⟨he, ?_⟩, fun he => he.left⟩
    rintro rfl
    exact hc (hw.handler he).right.left.symm

theorem wired_detach {s : State} (hw : s.Wired) {number : Nat}
    (hattached : s.Attached number) (notifications : List Notification) :
    (s.detach number notifications).Wired := by
  have hsubscriber : forall n,
      ((s.detach number notifications).subscribers n).connection =
        (s.subscribers n).connection ∧
      ((s.detach number notifications).subscribers n).subscribeId =
        (s.subscribers n).subscribeId ∧
      ((s.detach number notifications).subscribers n).history.givenId =
        (s.subscribers n).history.givenId ∧
      ((s.detach number notifications).subscribers n).history.object =
        (s.subscribers n).history.object := by
    intro n
    rw [detach]
    dsimp only
    by_cases hn : n = number
    · subst hn
      rw [Function.update_self]
      exact ⟨rfl, rfl, rfl, rfl⟩
    · rw [Function.update_of_ne hn]
      exact ⟨rfl, rfl, rfl, rfl⟩
  constructor
  · intro c e he
    rcases hsubscriber e.2 with ⟨hconnection, hid, hgiven, -⟩
    rw [hconnection, hid, hgiven]
    exact hw.handler ((mem_closeHandlers_detach hw hattached _ c e).mp he).left
  · intro c hc
    rw [List.eq_nil_iff_forall_not_mem]
    intro e he
    have hmem := ((mem_closeHandlers_detach hw hattached _ c e).mp he).left
    rw [hw.handlers_of_closed hc] at hmem
    cases hmem
  · intro o e he
    rcases hsubscriber e.2 with ⟨hconnection, -, -, hobject⟩
    rw [hconnection, hobject]
    exact hw.entry he
  · intro n o hn ho
    rw [(hsubscriber n).right.right.right] at ho
    exact hw.object_lt hn ho
  · exact hw.calls_eq

/-- The parts of two states that only the numbering, the connections and the
sessions are in. -/
structure SameRest (s t : State) : Prop where
  objects_eq : t.objects = s.objects
  nextObject_eq : t.nextObject = s.nextObject
  nextSubscriber_eq : t.nextSubscriber = s.nextSubscriber
  closed_eq : t.closed = s.closed
  finishCalled_eq : t.finishCalled = s.finishCalled

/-- From `s` to `t` those of the subscribers that were attached have left. -/
structure AllLeft (s : State) (numbers : List Nat)
    (notifications : List Notification) (t : State) : Prop extends
    SameRest s t where
  left_of_mem : forall {n}, n ∈ numbers -> s.Attached n ->
    t.subscribers n = (s.subscribers n).left notifications
  stays : forall {n}, ¬ (n ∈ numbers ∧ s.Attached n) ->
    t.subscribers n = s.subscribers n
  mem_closeHandlers : forall c e, e ∈ (t.closeHandlers c).entries <->
    e ∈ (s.closeHandlers c).entries ∧ ¬ e.2 ∈ numbers
  removals : forall r, r ∈ t.removals ->
    r ∈ s.removals ∨ exists n, s.Attached n ∧ r = s.ownRemoval n
  wired : t.Wired

theorem allLeft_detach {s : State} (hw : s.Wired) {number : Nat}
    (hattached : s.Attached number) (notifications : List Notification)
    (owners : Nat -> List Owner) (sessions : Str -> Option Nat) :
    AllLeft s [number] notifications { s.detach number notifications with
      owners := owners, sessions := sessions } := by
  have hdetach := wired_detach hw hattached notifications
  refine { objects_eq := rfl, nextObject_eq := rfl, nextSubscriber_eq := rfl,
           closed_eq := rfl, finishCalled_eq := rfl, left_of_mem := ?_,
           stays := ?_, mem_closeHandlers := ?_, removals := ?_,
           wired := hdetach.with_pointers owners sessions }
  · intro n hn _
    rw [List.mem_singleton] at hn
    subst hn
    exact Function.update_self ..
  · intro n hn
    refine Function.update_of_ne ?_ _ _
    rintro rfl
    exact hn ⟨List.mem_singleton.mpr rfl, hattached⟩
  · intro c e
    rw [List.mem_singleton]
    exact mem_closeHandlers_detach hw hattached notifications c e
  · intro r hr
    rcases List.mem_append.mp hr with hold | hnew
    · exact Or.inl hold
    · exact Or.inr ⟨number, hattached, List.mem_singleton.mp hnew⟩

/-- One round of a loop that tells a subscriber the end of its session. -/
theorem withLocked_left {s : State} (hw : s.Wired) (number : Nat)
    (notification : Notification) :
    AllLeft s [number] [notification] (s.withLocked number
      fun s => (s.send number notification).unsubscribe number) := by
  by_cases hattached : s.Attached number
  · have hlockable : s.Lockable number := Or.inl hattached
    rw [withLocked, if_pos hlockable]
    rcases exists_left hw hattached [notification] rfl with
      ⟨owners, sessions, hleft⟩
    have hstate : (((s.holdInCall number).send number notification).unsubscribe
        number).leaveCall number = _ := hleft
    rw [hstate]
    exact allLeft_detach hw hattached [notification] owners sessions
  · rw [withLocked, if_neg (fun h => hattached (hw.lockable_iff.mp h))]
    refine { objects_eq := rfl, nextObject_eq := rfl, nextSubscriber_eq := rfl,
             closed_eq := rfl, finishCalled_eq := rfl, left_of_mem := ?_,
             stays := fun _ => rfl, mem_closeHandlers := ?_,
             removals := fun r => Or.inl, wired := hw }
    · intro n hn h
      rw [List.mem_singleton] at hn
      subst hn
      exact absurd h hattached
    · intro c e
      refine ⟨fun he => ⟨he, ?_⟩, fun h => h.left⟩
      rw [List.mem_singleton]
      rintro rfl
      have hconnection := (hw.handler he).right.left
      subst hconnection
      exact hattached ⟨e, he, rfl⟩

theorem AllLeft.attached_iff {s t : State} {numbers : List Nat}
    {notifications : List Notification}
    (h : AllLeft s numbers notifications t) (n : Nat) :
    t.Attached n <-> s.Attached n ∧ ¬ n ∈ numbers := by
  have hconnection : (t.subscribers n).connection =
      (s.subscribers n).connection := by
    by_cases hn : n ∈ numbers ∧ s.Attached n
    · rw [h.left_of_mem hn.left hn.right]
      rfl
    · rw [h.stays hn]
  constructor
  · rintro ⟨e, he, rfl⟩
    rw [hconnection, h.mem_closeHandlers] at he
    exact ⟨⟨e, he.left, rfl⟩, he.right⟩
  · rintro ⟨⟨e, he, rfl⟩, hn⟩
    refine ⟨e, ?_, rfl⟩
    rw [hconnection, h.mem_closeHandlers]
    exact ⟨he, hn⟩

theorem AllLeft.cons {s t u : State} {number : Nat} {numbers : List Nat}
    {notifications : List Notification}
    (hfirst : AllLeft s [number] notifications t)
    (hrest : AllLeft t numbers notifications u) :
    AllLeft s (number :: numbers) notifications u where
  objects_eq := hrest.objects_eq.trans hfirst.objects_eq
  nextObject_eq := hrest.nextObject_eq.trans hfirst.nextObject_eq
  nextSubscriber_eq := hrest.nextSubscriber_eq.trans hfirst.nextSubscriber_eq
  closed_eq := hrest.closed_eq.trans hfirst.closed_eq
  finishCalled_eq := hrest.finishCalled_eq.trans hfirst.finishCalled_eq
  left_of_mem := by
    intro n hn hattached
    by_cases hne : n = number
    · subst hne
      have hgone : ¬ t.Attached n := fun h =>
        ((hfirst.attached_iff n).mp h).right (List.mem_singleton.mpr rfl)
      rw [hrest.stays fun h => hgone h.right,
        hfirst.left_of_mem (List.mem_singleton.mpr rfl) hattached]
    · have hother : ¬ n ∈ [number] := fun h => hne (List.mem_singleton.mp h)
      have hstill : t.Attached n := (hfirst.attached_iff n).mpr ⟨hattached, hother⟩
      rw [hrest.left_of_mem ((List.mem_cons.mp hn).resolve_left hne) hstill,
        hfirst.stays fun h => hother h.left]
  stays := by
    intro n hn
    have hrestNot : ¬ (n ∈ numbers ∧ t.Attached n) := fun h =>
      hn ⟨List.mem_cons_of_mem _ h.left, ((hfirst.attached_iff n).mp h.right).left⟩
    have hfirstNot : ¬ (n ∈ [number] ∧ s.Attached n) := fun h =>
      hn ⟨List.mem_cons.mpr (Or.inl (List.mem_singleton.mp h.left)), h.right⟩
    rw [hrest.stays hrestNot, hfirst.stays hfirstNot]
  mem_closeHandlers := by
    intro c e
    rw [hrest.mem_closeHandlers, hfirst.mem_closeHandlers, List.mem_singleton,
      List.mem_cons, not_or, and_assoc]
  removals := by
    intro r hr
    rcases hrest.removals r hr with hold | ⟨n, hattached, rfl⟩
    · exact hfirst.removals r hold
    · rcases (hfirst.attached_iff n).mp hattached with ⟨hn, hne⟩
      refine Or.inr ⟨n, hn, ?_⟩
      rw [ownRemoval, ownRemoval, hfirst.stays fun h => hne h.left]
  wired := hrest.wired

/-- The loop over `subscribers_` that tells all of them the end. -/
theorem foldl_left {s : State} (hw : s.Wired) (notification : Notification)
    (entries : List (Nat × Nat)) :
    AllLeft s (entries.map Prod.snd) [notification]
      (entries.foldl (fun s entry => s.withLocked entry.2
        fun s => (s.send entry.2 notification).unsubscribe entry.2) s) := by
  induction entries generalizing s with
  | nil =>
      refine { objects_eq := rfl, nextObject_eq := rfl,
               nextSubscriber_eq := rfl, closed_eq := rfl,
               finishCalled_eq := rfl, left_of_mem := ?_,
               stays := fun _ => rfl, mem_closeHandlers := ?_,
               removals := fun r => Or.inl, wired := hw }
      · intro n hn
        cases hn
      · intro c e
        simp
  | cons entry entries ih =>
      have hfirst := withLocked_left hw entry.2 notification
      exact hfirst.cons (ih hfirst.wired)

/-!
## Telling them one by one
-/

/-- The subscriber with one more notification. -/
def tell (s : State) (number : Nat) (notification : Notification) : Subscriber :=
  { s.subscribers number with
    received := (s.subscribers number).received ++ [notification] }

/-- From `s` to `t` those of the subscribers that were attached have been told
something. -/
structure AllTold (s : State) (numbers : List Nat) (notification : Notification)
    (t : State) : Prop where
  eq_of_subscribers : t = { s with subscribers := t.subscribers }
  told_of_mem : forall {n}, n ∈ numbers -> s.Attached n ->
    t.subscribers n = s.tell n notification
  stays : forall {n}, ¬ (n ∈ numbers ∧ s.Attached n) ->
    t.subscribers n = s.subscribers n

theorem wired_setSubscriber {s : State} (hw : s.Wired) {number : Nat}
    {subscriber : Subscriber}
    (hconnection : subscriber.connection = (s.subscribers number).connection)
    (hid : subscriber.subscribeId = (s.subscribers number).subscribeId)
    (hgiven : subscriber.history.givenId =
      (s.subscribers number).history.givenId)
    (hobject : subscriber.history.object =
      (s.subscribers number).history.object) :
    (s.setSubscriber number subscriber).Wired := by
  have hsubscriber : forall n,
      ((s.setSubscriber number subscriber).subscribers n).connection =
        (s.subscribers n).connection ∧
      ((s.setSubscriber number subscriber).subscribers n).subscribeId =
        (s.subscribers n).subscribeId ∧
      ((s.setSubscriber number subscriber).subscribers n).history.givenId =
        (s.subscribers n).history.givenId ∧
      ((s.setSubscriber number subscriber).subscribers n).history.object =
        (s.subscribers n).history.object := by
    intro n
    rw [setSubscriber]
    dsimp only
    by_cases hn : n = number
    · subst hn
      rw [Function.update_self]
      exact ⟨hconnection, hid, hgiven, hobject⟩
    · rw [Function.update_of_ne hn]
      exact ⟨rfl, rfl, rfl, rfl⟩
  constructor
  · intro c e he
    rcases hsubscriber e.2 with ⟨hc, hi, hg, -⟩
    rw [hc, hi, hg]
    exact hw.handler he
  · exact hw.handlers_of_closed
  · intro o e he
    rcases hsubscriber e.2 with ⟨hc, -, -, ho⟩
    rw [hc, ho]
    exact hw.entry he
  · intro n o hn ho
    rw [(hsubscriber n).right.right.right] at ho
    exact hw.object_lt hn ho
  · exact hw.calls_eq

theorem withLocked_told {s : State} (hw : s.Wired) (number : Nat)
    (notification : Notification) :
    AllTold s [number] notification
        (s.withLocked number fun s => s.send number notification) ∧
      (s.withLocked number fun s => s.send number notification).Wired := by
  by_cases hattached : s.Attached number
  · have hlockable : s.Lockable number := Or.inl hattached
    have hwired : (s.setSubscriber number (s.tell number notification)).Wired :=
      wired_setSubscriber hw rfl rfl rfl rfl
    have hstill :
        (s.setSubscriber number (s.tell number notification)).Attached number := by
      refine (attached_congr (s := s)
        (t := s.setSubscriber number (s.tell number notification)) rfl ?_).mpr
          hattached
      simp [setSubscriber, tell]
    have hstate : s.withLocked number (fun s => s.send number notification) =
        s.setSubscriber number (s.tell number notification) := by
      rw [withLocked, if_pos hlockable]
      exact leaveCall_of_attached hstill
    rw [hstate]
    refine ⟨⟨rfl, ?_, ?_⟩, hwired⟩
    · intro n hn _
      rw [List.mem_singleton] at hn
      subst hn
      exact Function.update_self ..
    · intro n hn
      refine Function.update_of_ne ?_ _ _
      rintro rfl
      exact hn ⟨List.mem_singleton.mpr rfl, hattached⟩
  · rw [withLocked, if_neg (fun h => hattached (hw.lockable_iff.mp h))]
    refine ⟨⟨rfl, ?_, fun _ => rfl⟩, hw⟩
    intro n hn h
    rw [List.mem_singleton] at hn
    subst hn
    exact absurd h hattached

theorem AllTold.attached_iff {s t : State} {numbers : List Nat}
    {notification : Notification} (h : AllTold s numbers notification t)
    (n : Nat) : t.Attached n <-> s.Attached n := by
  refine attached_congr ?_ ?_
  · rw [h.eq_of_subscribers]
  · by_cases hn : n ∈ numbers ∧ s.Attached n
    · rw [h.told_of_mem hn.left hn.right]
      rfl
    · rw [h.stays hn]

theorem AllTold.cons {s t u : State} {number : Nat} {numbers : List Nat}
    {notification : Notification} (hnew : ¬ number ∈ numbers)
    (hfirst : AllTold s [number] notification t)
    (hrest : AllTold t numbers notification u) :
    AllTold s (number :: numbers) notification u where
  eq_of_subscribers := by
    rw [hrest.eq_of_subscribers, hfirst.eq_of_subscribers]
  told_of_mem := by
    intro n hn hattached
    have hstill : t.Attached n := (hfirst.attached_iff n).mpr hattached
    by_cases hne : n = number
    · subst hne
      rw [hrest.stays fun h => hnew h.left,
        hfirst.told_of_mem (List.mem_singleton.mpr rfl) hattached]
    · have hother : ¬ (n ∈ [number] ∧ s.Attached n) := fun h =>
        hne (List.mem_singleton.mp h.left)
      rw [hrest.told_of_mem ((List.mem_cons.mp hn).resolve_left hne) hstill,
        tell, tell, hfirst.stays hother]
  stays := by
    intro n hn
    have hrestNot : ¬ (n ∈ numbers ∧ t.Attached n) := fun h =>
      hn ⟨List.mem_cons_of_mem _ h.left, (hfirst.attached_iff n).mp h.right⟩
    have hfirstNot : ¬ (n ∈ [number] ∧ s.Attached n) := fun h =>
      hn ⟨List.mem_cons.mpr (Or.inl (List.mem_singleton.mp h.left)), h.right⟩
    rw [hrest.stays hrestNot, hfirst.stays hfirstNot]

/-- The loop over `subscribers_` that passes an entry on. -/
theorem foldl_told {s : State} (hw : s.Wired) (notification : Notification)
    (entries : List (Nat × Nat)) (hnodup : (entries.map Prod.snd).Nodup) :
    AllTold s (entries.map Prod.snd) notification
        (entries.foldl (fun s entry => s.withLocked entry.2
          fun s => s.send entry.2 notification) s) ∧
      (entries.foldl (fun s entry => s.withLocked entry.2
          fun s => s.send entry.2 notification) s).Wired := by
  induction entries generalizing s with
  | nil =>
      refine ⟨⟨rfl, ?_, fun _ => rfl⟩, hw⟩
      intro n hn
      cases hn
  | cons entry entries ih =>
      rw [List.map_cons, List.nodup_cons] at hnodup
      rcases withLocked_told hw entry.2 notification with ⟨hfirst, hwired⟩
      rcases ih hwired hnodup.right with ⟨hrest, hlast⟩
      exact ⟨hfirst.cons hnodup.left hrest, hlast⟩

/-- A subscriber has one entry in a session at most. -/
theorem Wired.nodup_numbers {s : State} (hw : s.Wired) (o : Nat) :
    ((s.objects o).subscribers.entries.map Prod.snd).Nodup := by
  refine List.Nodup.map_on ?_ (SortedMap.nodup_entries _)
  intro a ha b hb heq
  refine Prod.ext ?_ heq
  rw [← (hw.entry ha).right.left, ← (hw.entry hb).right.left, heq]

end State

end Cis
end CisWebui
