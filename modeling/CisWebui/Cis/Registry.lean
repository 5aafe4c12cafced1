import CisWebui.Cis.SessionManager

/-!
# The registry of sessions

The manager's map has an id exactly as long as a session with that id is alive.
What runs between the creation of a session and its registration, and between
a lock and the end of the call, only lets go of pointers that subscribers held:
it neither ends the session of the call nor makes another one.
-/

namespace CisWebui
namespace Cis

open Cpp
open Foundation

namespace State

/-- The entries of the map are the sessions alive. -/
structure Registry (s : State) : Prop where
  alive_of_sessions : forall {sessionId o}, s.sessions sessionId = some o ->
    s.Alive o ∧ (s.objects o).id = sessionId
  sessions_of_alive : forall {o}, s.Alive o ->
    s.sessions (s.objects o).id = some o
  owners_of_le : forall {o}, s.nextObject <= o -> s.owners o = []

theorem registry_congr {s t : State} (h : s.Registry)
    (hsessions : t.sessions = s.sessions) (howners : t.owners = s.owners)
    (hid : forall o, (t.objects o).id = (s.objects o).id)
    (hnext : t.nextObject = s.nextObject) : t.Registry := by
  constructor
  · intro sessionId o ho
    rw [hsessions] at ho
    rw [Alive, howners, hid]
    exact h.alive_of_sessions ho
  · intro o ho
    rw [Alive, howners] at ho
    rw [hid, hsessions]
    exact h.sessions_of_alive ho
  · intro o ho
    rw [hnext] at ho
    rw [howners]
    exact h.owners_of_le ho

theorem registry_initial : initial.Registry := by
  constructor
  · intro sessionId o h
    cases h
  · intro o h
    exact absurd rfl h
  · intro o _
    rfl

/-!
## Letting go of pointers
-/

theorem registry_acquire {s : State} (h : s.Registry) {o : Nat}
    (ho : s.Alive o) (owner : Owner) : (s.acquire o owner).Registry := by
  have halive : forall p, (s.acquire o owner).Alive p <-> s.Alive p := by
    intro p
    by_cases hp : p = o
    · subst hp
      simp [Alive, acquire] at ho ⊢
      exact ho
    · simp [Alive, acquire, Function.update_of_ne hp]
  constructor
  · intro sessionId p hp
    rw [halive]
    exact h.alive_of_sessions hp
  · intro p hp
    exact h.sessions_of_alive ((halive p).mp hp)
  · intro p hp
    have hne : p ≠ o := by
      rintro rfl
      exact ho (h.owners_of_le hp)
    rw [acquire]
    dsimp only
    rw [Function.update_of_ne hne]
    exact h.owners_of_le hp

theorem registry_release {s : State} (h : s.Registry) (o : Nat)
    (owner : Owner) : (s.release o owner).Registry := by
  unfold release
  split
  · rename_i howner
    have ho : s.Alive o := List.ne_nil_of_mem howner
    constructor
    · intro sessionId p hp
      dsimp only at hp ⊢
      by_cases hleft : (s.owners o).erase owner = []
      · rw [if_pos hleft] at hp
        by_cases hid : sessionId = (s.objects o).id
        · subst hid
          rw [Function.update_self] at hp
          cases hp
        · rw [Function.update_of_ne hid] at hp
          rcases h.alive_of_sessions hp with ⟨halive, hpid⟩
          have hne : p ≠ o := by
            rintro rfl
            exact hid hpid.symm
          refine ⟨?_, hpid⟩
          rw [Alive]
          dsimp only
          rw [Function.update_of_ne hne]
          exact halive
      · rw [if_neg hleft] at hp
        rcases h.alive_of_sessions hp with ⟨halive, hpid⟩
        refine ⟨?_, hpid⟩
        rw [Alive]
        by_cases hpo : p = o
        · subst hpo
          simpa using hleft
        · dsimp only
          rw [Function.update_of_ne hpo]
          exact halive
    · intro p hp
      rw [Alive] at hp
      dsimp only at hp ⊢
      by_cases hpo : p = o
      · subst hpo
        rw [Function.update_self] at hp
        rw [if_neg hp]
        exact h.sessions_of_alive ho
      · rw [Function.update_of_ne hpo] at hp
        have hreg := h.sessions_of_alive hp
        split
        · have hid : (s.objects p).id ≠ (s.objects o).id := by
            intro heq
            rw [heq, h.sessions_of_alive ho] at hreg
            exact hpo (Option.some.inj hreg).symm
          rw [Function.update_of_ne hid]
          exact hreg
        · exact hreg
    · intro p hp
      have hne : p ≠ o := by
        rintro rfl
        exact ho (h.owners_of_le hp)
      dsimp only
      rw [Function.update_of_ne hne]
      exact h.owners_of_le hp
  · exact h

/-- From `s` to `t` no session has come, and pointers have only gone that
subscribers held. -/
structure LetsGo (s t : State) : Prop where
  nextObject_eq : t.nextObject = s.nextObject
  id_eq : forall o, (t.objects o).id = (s.objects o).id
  finishCalled_eq : t.finishCalled = s.finishCalled
  registry : s.Registry -> t.Registry
  mem_of_mem : forall {o owner}, owner ∈ t.owners o -> owner ∈ s.owners o
  kept : forall {o owner}, owner ∈ s.owners o ->
    (forall number, owner ≠ Owner.subscriber number) -> owner ∈ t.owners o

namespace LetsGo

variable {s t u : State}

theorem refl (s : State) : LetsGo s s :=
  ⟨rfl, fun _ => rfl, rfl, fun h => h, fun h => h, fun h _ => h⟩

theorem trans (hst : LetsGo s t) (htu : LetsGo t u) : LetsGo s u where
  nextObject_eq := htu.nextObject_eq.trans hst.nextObject_eq
  id_eq := fun o => (htu.id_eq o).trans (hst.id_eq o)
  finishCalled_eq := htu.finishCalled_eq.trans hst.finishCalled_eq
  registry := fun h => htu.registry (hst.registry h)
  mem_of_mem := fun h => hst.mem_of_mem (htu.mem_of_mem h)
  kept := fun h hne => htu.kept (hst.kept h hne) hne

/-- A step that leaves the pointers to sessions alone. -/
theorem of_eq (hsessions : t.sessions = s.sessions)
    (howners : t.owners = s.owners)
    (hid : forall o, (t.objects o).id = (s.objects o).id)
    (hnext : t.nextObject = s.nextObject)
    (hfinish : t.finishCalled = s.finishCalled) : LetsGo s t where
  nextObject_eq := hnext
  id_eq := hid
  finishCalled_eq := hfinish
  registry := fun h => registry_congr h hsessions howners hid hnext
  mem_of_mem := fun h => howners ▸ h
  kept := fun h _ => howners.symm ▸ h

theorem alive (h : LetsGo s t) {o : Nat} (ho : t.Alive o) : s.Alive o := by
  rcases List.exists_mem_of_ne_nil _ ho with ⟨owner, howner⟩
  exact List.ne_nil_of_mem (h.mem_of_mem howner)

theorem alive_of_mem (h : LetsGo s t) {o : Nat} {owner : Owner}
    (howner : owner ∈ s.owners o)
    (hne : forall number, owner ≠ Owner.subscriber number) : t.Alive o :=
  List.ne_nil_of_mem (h.kept howner hne)

end LetsGo

theorem letsGo_setSubscriber (s : State) (number : Nat)
    (subscriber : Subscriber) : LetsGo s (s.setSubscriber number subscriber) :=
  LetsGo.of_eq rfl rfl (fun _ => rfl) rfl rfl

theorem letsGo_setHandlers (s : State) (connection : Nat)
    (handlers : SortedMap HandlerId Nat) :
    LetsGo s (s.setHandlers connection handlers) :=
  LetsGo.of_eq rfl rfl (fun _ => rfl) rfl rfl

theorem letsGo_setObject (s : State) (o : Nat) {object : SessionObject}
    (hid : object.id = (s.objects o).id) : LetsGo s (s.setObject o object) := by
  refine LetsGo.of_eq rfl rfl ?_ rfl rfl
  intro p
  rw [setObject]
  dsimp only
  by_cases hp : p = o
  · subst hp
    rw [Function.update_self, hid]
  · rw [Function.update_of_ne hp]

theorem letsGo_release (s : State) (o number : Nat) :
    LetsGo s (s.release o (Owner.subscriber number)) where
  nextObject_eq := by
    unfold release
    split <;> rfl
  id_eq := by
    intro p
    unfold release
    split <;> rfl
  finishCalled_eq := by
    unfold release
    split <;> rfl
  registry := fun h => registry_release h o _
  mem_of_mem := by
    intro p owner h
    unfold release at h
    split at h
    · by_cases hp : p = o
      · subst hp
        dsimp only at h
        rw [Function.update_self] at h
        exact List.mem_of_mem_erase h
      · dsimp only at h
        rw [Function.update_of_ne hp] at h
        exact h
    · exact h
  kept := by
    intro p owner h hne
    unfold release
    split
    · dsimp only
      by_cases hp : p = o
      · subst hp
        rw [Function.update_self]
        exact (List.mem_erase_of_ne (hne number)).mpr h
      · rw [Function.update_of_ne hp]
        exact h
    · exact h

theorem letsGo_resetSession (s : State) (number : Nat) :
    LetsGo s (s.resetSession number) := by
  unfold resetSession
  split
  · exact LetsGo.refl s
  · exact (letsGo_setSubscriber s number _).trans (letsGo_release _ _ _)

theorem letsGo_dropSubscriber (s : State) (number : Nat) :
    LetsGo s (s.dropSubscriber number) := by
  unfold dropSubscriber
  split
  · exact LetsGo.refl s
  · exact letsGo_resetSession s number

theorem letsGo_holdInCall (s : State) (number : Nat) :
    LetsGo s (s.holdInCall number) :=
  LetsGo.of_eq rfl rfl (fun _ => rfl) rfl rfl

theorem letsGo_leaveCall (s : State) (number : Nat) :
    LetsGo s (s.leaveCall number) := by
  have hcalls : LetsGo s { s with calls := s.calls.erase number } :=
    LetsGo.of_eq rfl rfl (fun _ => rfl) rfl rfl
  exact hcalls.trans (letsGo_dropSubscriber _ number)

theorem letsGo_withLocked (s : State) (number : Nat) {f : State -> State}
    (hf : forall s, LetsGo s (f s)) : LetsGo s (s.withLocked number f) := by
  unfold withLocked
  split
  · exact (letsGo_holdInCall s number).trans
      ((hf _).trans (letsGo_leaveCall _ number))
  · exact LetsGo.refl s

theorem letsGo_removeCloseHandler (s : State) (connection : Nat)
    (id : HandlerId) : LetsGo s (s.removeCloseHandler connection id) := by
  unfold removeCloseHandler
  split
  · exact LetsGo.refl s
  · exact (letsGo_setHandlers s connection _).trans (letsGo_dropSubscriber _ _)

theorem letsGo_send (s : State) (number : Nat) (notification : Notification) :
    LetsGo s (s.send number notification) :=
  letsGo_setSubscriber s number _

theorem letsGo_unsubscribe (s : State) (number : Nat) :
    LetsGo s (s.unsubscribe number) := by
  have hreset : LetsGo s ((s.resetSession number).markEnded number) :=
    (letsGo_resetSession s number).trans (letsGo_setSubscriber _ number _)
  unfold unsubscribe
  dsimp only
  split
  · exact hreset
  · refine hreset.trans (LetsGo.trans ?_ (letsGo_removeCloseHandler _ _ _))
    exact LetsGo.of_eq rfl rfl (fun _ => rfl) rfl rfl

theorem letsGo_sessionNotEstablished (s : State) (number : Nat) :
    LetsGo s (s.sessionNotEstablished number) :=
  (letsGo_send s number _).trans (letsGo_unsubscribe _ number)

theorem letsGo_sessionClosed (s : State) (number : Nat) :
    LetsGo s (s.sessionClosed number) :=
  (letsGo_send s number _).trans (letsGo_unsubscribe _ number)

theorem letsGo_foldl {α : Type} {f : State -> α -> State}
    (hf : forall s a, LetsGo s (f s a)) (l : List α) :
    forall s : State, LetsGo s (l.foldl f s) := by
  induction l with
  | nil => exact LetsGo.refl
  | cons a l ih =>
      intro s
      exact (hf s a).trans (ih (f s a))

theorem letsGo_forEach (s : State) (o : Nat) {f : Nat -> State -> State}
    (hf : forall number s, LetsGo s (f number s)) : LetsGo s (s.forEach o f) := by
  unfold forEach
  apply letsGo_foldl
  intro s entry
  exact letsGo_withLocked s entry.2 (hf entry.2)

theorem letsGo_establish (s : State) (o : Nat) : LetsGo s (s.establish o) := by
  unfold establish
  split
  · exact LetsGo.refl s
  · exact letsGo_setObject s o rfl

theorem letsGo_log (s : State) (o : Nat) (entry : LogEntry) :
    LetsGo s (s.log o entry) :=
  (letsGo_setObject s o (by rfl)).trans
    (letsGo_forEach _ o fun number s => letsGo_send s number _)

theorem letsGo_replay (s : State) (o number : Nat) :
    LetsGo s (s.replay o number) :=
  letsGo_foldl (fun s _ => letsGo_send s number _) _ s

theorem letsGo_sessionSubscribe (s : State) (o wsSessionId number : Nat) :
    LetsGo s (s.sessionSubscribe o wsSessionId number) := by
  have hnote : LetsGo s (s.note o number) := letsGo_setSubscriber s number _
  have hregister : LetsGo s
      (((s.note o number).replay o number).register o wsSessionId number) :=
    hnote.trans ((letsGo_replay _ o number).trans (letsGo_setObject _ o (by rfl)))
  unfold sessionSubscribe
  dsimp only
  split
  · exact hnote.trans (letsGo_sessionNotEstablished _ number)
  · exact hregister.trans (letsGo_sessionClosed _ number)
  · exact hregister
  · exact hregister.trans (letsGo_sessionClosed _ number)

theorem letsGo_finish (s : State) (o : Nat) : LetsGo s (s.finish o) := by
  unfold finish
  split
  · exact LetsGo.refl s
  · exact (letsGo_setObject s o (by rfl)).trans
      (letsGo_forEach _ o fun number s => letsGo_sessionClosed s number)

theorem letsGo_onTimer (s : State) (o : Nat) (aborted : Bool) :
    LetsGo s (s.onTimer o aborted) := by
  unfold onTimer
  split
  · exact LetsGo.refl s
  · split
    · exact (letsGo_setObject s o (by rfl)).trans
        (letsGo_forEach _ o fun number s =>
          letsGo_sessionNotEstablished s number)
    · exact LetsGo.refl s

/-!
## New sessions
-/

/-- From `s` to `t` sessions have come and gone, and none has come back. -/
structure Grows (s t : State) : Prop where
  nextObject_le : s.nextObject <= t.nextObject
  id_eq : forall {o}, o < s.nextObject -> (t.objects o).id = (s.objects o).id
  alive : forall {o}, o < s.nextObject -> t.Alive o -> s.Alive o
  finishCalled_eq : t.finishCalled = s.finishCalled

namespace Grows

variable {s t u : State}

theorem trans (hst : Grows s t) (htu : Grows t u) : Grows s u where
  nextObject_le := le_trans hst.nextObject_le htu.nextObject_le
  id_eq := fun ho => (htu.id_eq (lt_of_lt_of_le ho hst.nextObject_le)).trans
    (hst.id_eq ho)
  alive := fun ho h =>
    hst.alive ho (htu.alive (lt_of_lt_of_le ho hst.nextObject_le) h)
  finishCalled_eq := htu.finishCalled_eq.trans hst.finishCalled_eq

/-- A step that leaves the pointers to sessions alone. -/
theorem of_eq (howners : t.owners = s.owners)
    (hobjects : t.objects = s.objects) (hnext : t.nextObject = s.nextObject)
    (hfinish : t.finishCalled = s.finishCalled) : Grows s t where
  nextObject_le := hnext.ge
  id_eq := fun _ => by rw [hobjects]
  alive := fun _ h => by
    rw [Alive, howners] at h
    exact h
  finishCalled_eq := hfinish

theorem acquire {o : Nat} (ho : s.Alive o) (owner : Owner) :
    Grows s (s.acquire o owner) where
  nextObject_le := le_rfl
  id_eq := fun _ => rfl
  alive := by
    intro p _ hp
    by_cases hpo : p = o
    · subst hpo
      exact ho
    · rw [Alive, State.acquire] at hp
      dsimp only at hp
      rw [Function.update_of_ne hpo] at hp
      exact hp
  finishCalled_eq := rfl

theorem release (s : State) (o : Nat) (owner : Owner) :
    Grows s (s.release o owner) := by
  unfold State.release
  split
  · rename_i howner
    refine ⟨le_rfl, fun _ => rfl, ?_, rfl⟩
    intro p _ hp
    rw [Alive] at hp
    dsimp only at hp
    by_cases hpo : p = o
    · subst hpo
      exact List.ne_nil_of_mem howner
    · rw [Function.update_of_ne hpo] at hp
      exact hp
  · exact of_eq rfl rfl rfl rfl

theorem create (s : State) (object : SessionObject) (owners : List Owner)
    (sessions : Str -> Option Nat) :
    Grows s { s.create object owners with sessions := sessions } := by
  refine ⟨Nat.le_succ _, ?_, ?_, rfl⟩
  · intro o ho
    rw [State.create]
    dsimp only
    rw [Function.update_of_ne ho.ne]
  · intro o ho halive
    rw [Alive, State.create] at halive
    dsimp only at halive
    rw [Function.update_of_ne ho.ne] at halive
    exact halive

end Grows

theorem LetsGo.grows {s t : State} (h : LetsGo s t) : Grows s t where
  nextObject_le := h.nextObject_eq.ge
  id_eq := fun _ => h.id_eq _
  alive := fun _ => h.alive
  finishCalled_eq := h.finishCalled_eq

/-- A new session and its entry in the map. -/
theorem registry_create {s : State} (h : s.Registry) {object : SessionObject}
    (hnone : s.sessions object.id = none) (owners : List Owner) :
    ({ s.create object owners with
      sessions := Function.update s.sessions object.id (some s.nextObject) } :
        State).Registry := by
  have hobject : forall o, o ≠ s.nextObject ->
      (s.create object owners).objects o = s.objects o :=
    fun o ho => Function.update_of_ne ho _ _
  have howners : forall o, o ≠ s.nextObject ->
      (s.create object owners).owners o = s.owners o :=
    fun o ho => Function.update_of_ne ho _ _
  have hnewObject : (s.create object owners).objects s.nextObject = object :=
    Function.update_self ..
  have hnewOwners : (s.create object owners).owners s.nextObject =
      Owner.call :: owners :=
    Function.update_self ..
  constructor
  · intro sessionId o ho
    rw [Alive]
    dsimp only at ho ⊢
    by_cases hid : sessionId = object.id
    · subst hid
      rw [Function.update_self] at ho
      cases ho
      rw [hnewObject, hnewOwners]
      exact ⟨List.cons_ne_nil _ _, rfl⟩
    · rw [Function.update_of_ne hid] at ho
      have hne : o ≠ s.nextObject := by
        rintro rfl
        exact (h.alive_of_sessions ho).left (h.owners_of_le le_rfl)
      rw [hobject o hne, howners o hne]
      exact h.alive_of_sessions ho
  · intro o ho
    rw [Alive] at ho
    dsimp only at ho ⊢
    by_cases hne : o = s.nextObject
    · subst hne
      rw [hnewObject, Function.update_self]
    · rw [howners o hne] at ho
      rw [hobject o hne]
      have hreg := h.sessions_of_alive ho
      have hid : (s.objects o).id ≠ object.id := by
        intro heq
        rw [heq, hnone] at hreg
        cases hreg
      rw [Function.update_of_ne hid]
      exact hreg
  · intro o ho
    have hlt : s.nextObject + 1 <= o := ho
    dsimp only
    rw [howners o (by omega)]
    exact h.owners_of_le (by omega)

theorem emplaceSession_create {s : State} {object : SessionObject}
    (hnone : s.sessions object.id = none) (owners : List Owner) :
    (s.create object owners).emplaceSession object.id s.nextObject =
      ({ s.create object owners with
        sessions := Function.update s.sessions object.id (some s.nextObject) },
        true) := by
  have hcreate : (s.create object owners).sessions object.id = none := hnone
  rw [emplaceSession, hcreate]
  rfl

/-!
## The calls of the manager
-/

theorem registry_setSession {s : State} (h : s.Registry) (number : Nat) {o : Nat}
    (ho : s.Alive o) : (s.setSession number o).Registry :=
  ((letsGo_resetSession _ number).trans
    (letsGo_setSubscriber _ number _)).registry (registry_acquire h ho _)

theorem connect_spec {s : State} (h : s.Registry) (sessionId : Str) :
    exists t o, s.connect sessionId = Except.ok (t, o) ∧ t.Registry ∧
      Grows s t ∧ Owner.call ∈ t.owners o := by
  unfold connect
  cases hfind : s.sessions sessionId with
  | some o =>
      have halive := (h.alive_of_sessions hfind).left
      dsimp only
      rw [if_pos halive]
      have hacquire : Owner.call ∈ (s.acquire o Owner.call).owners o := by
        simp [acquire]
      have hestablish := letsGo_establish (s.acquire o Owner.call) o
      exact ⟨_, o, rfl, hestablish.registry (registry_acquire h halive _),
        (Grows.acquire halive _).trans hestablish.grows,
        hestablish.kept hacquire (fun _ heq => nomatch heq)⟩
  | none =>
      dsimp only
      rw [newSession, emplaceSession_create hfind]
      refine ⟨_, s.nextObject, rfl, ?_, ?_, ?_⟩
      · apply (letsGo_establish _ _).registry
        exact registry_create h hfind [Owner.timer]
      · exact (Grows.create s _ _ _).trans (letsGo_establish _ _).grows
      · refine (letsGo_establish _ _).kept ?_ (fun _ heq => nomatch heq)
        simp [create]

/-- The common end of `session_manager::subscribe`. -/
theorem subscribeTo_spec {s : State} (h : s.Registry) {o : Nat}
    (ho : Owner.call ∈ s.owners o) (wsSessionId number : Nat) {t : State}
    (ht : t = ((s.sessionSubscribe o wsSessionId number).setSession number
      o).release o Owner.call) : t.Registry ∧ Grows s t := by
  have hsubscribe := letsGo_sessionSubscribe s o wsSessionId number
  have halive : (s.sessionSubscribe o wsSessionId number).Alive o :=
    hsubscribe.alive_of_mem ho (fun _ heq => nomatch heq)
  have hset : Grows (s.sessionSubscribe o wsSessionId number)
      ((s.sessionSubscribe o wsSessionId number).setSession number o) :=
    (Grows.acquire halive _).trans ((letsGo_resetSession _ number).trans
      (letsGo_setSubscriber _ number _)).grows
  rw [ht]
  constructor
  · exact registry_release
      (registry_setSession (hsubscribe.registry h) number halive) o _
  · exact hsubscribe.grows.trans (hset.trans (Grows.release _ o _))

theorem subscribe_spec {s : State} (h : s.Registry) (sessionId : Str)
    (wsSessionId number : Nat) (combinedLog : Option (List LogEntry)) :
    exists t, s.subscribe sessionId wsSessionId number combinedLog =
      Except.ok t ∧ t.Registry ∧ Grows s t := by
  have hnew : forall {object : SessionObject} (owners : List Owner),
      object.id = sessionId -> s.sessions object.id = none ->
      exists t, (s.create object owners).subscribeToNew sessionId s.nextObject
        wsSessionId number = Except.ok t ∧ t.Registry ∧ Grows s t := by
    rintro object owners rfl hnone
    rw [subscribeToNew, emplaceSession_create hnone]
    have hcall : Owner.call ∈ (s.create object owners).owners s.nextObject := by
      simp [create]
    rcases subscribeTo_spec (registry_create h hnone owners) hcall wsSessionId
      number rfl with ⟨hreg, hgrows⟩
    exact ⟨_, rfl, hreg, (Grows.create s object owners _).trans hgrows⟩
  unfold subscribe
  cases hfind : s.sessions sessionId with
  | some o =>
      have halive := (h.alive_of_sessions hfind).left
      dsimp only
      rw [if_pos halive]
      have hcall : Owner.call ∈ (s.acquire o Owner.call).owners o := by
        simp [acquire]
      rcases subscribeTo_spec (registry_acquire h halive _) hcall wsSessionId
        number rfl with ⟨hreg, hgrows⟩
      exact ⟨_, rfl, hreg, (Grows.acquire halive _).trans hgrows⟩
  | none =>
      cases combinedLog with
      | some logs => exact hnew [] rfl hfind
      | none => exact hnew [Owner.timer] rfl hfind

/-- The state once it is recorded that `finish_session` has been called. -/
def called (s : State) : Event -> State
  | Event.finish sessionId =>
      { s with finishCalled := Function.update s.finishCalled sessionId true }
  | _ => s

theorem finishSession_spec {s : State} (h : s.Registry) (sessionId : Str) :
    (s.finishSession sessionId).Registry ∧
      Grows (s.called (Event.finish sessionId)) (s.finishSession sessionId) := by
  have hcall : (s.called (Event.finish sessionId)).Registry :=
    registry_congr h rfl rfl (fun _ => rfl) rfl
  unfold finishSession
  dsimp only
  cases hfind : s.sessions sessionId with
  | none => exact ⟨hcall, Grows.of_eq rfl rfl rfl rfl⟩
  | some o =>
      have halive : ({ s with
          finishCalled := Function.update s.finishCalled sessionId true } :
            State).Alive o := (h.alive_of_sessions hfind).left
      have hfinish := letsGo_finish
        ((s.called (Event.finish sessionId)).acquire o Owner.call) o
      dsimp only
      rw [if_pos halive]
      exact ⟨registry_release
          (hfinish.registry (registry_acquire hcall halive _)) _ _,
        (Grows.acquire halive _).trans
          (hfinish.grows.trans (Grows.release _ _ _))⟩

/-!
## The events
-/

theorem handleSubscribe_spec {s : State} (h : s.Registry)
    (connection : Nat) (sessionId : Str)
    (combinedLog : Option (List LogEntry)) (memory : HandlerId) :
    exists t, s.handleSubscribe connection sessionId combinedLog memory =
      Except.ok t ∧ t.Registry ∧ Grows s t := by
  have hnew : LetsGo s (s.newSubscriber sessionId connection memory) :=
    LetsGo.of_eq rfl rfl (fun _ => rfl) rfl rfl
  rcases subscribe_spec (hnew.registry h) sessionId connection s.nextSubscriber
    combinedLog with ⟨t, ht, hreg, hgrows⟩
  unfold handleSubscribe
  dsimp only
  rw [ht]
  have hkeep : LetsGo t ((t.keepUntilClosed connection
      s.nextSubscriber).leaveCall s.nextSubscriber) :=
    (letsGo_setHandlers t connection _).trans
      ((letsGo_setSubscriber _ _ _).trans (letsGo_leaveCall _ _))
  exact ⟨_, rfl, hkeep.registry hreg,
    hnew.grows.trans (hgrows.trans hkeep.grows)⟩

theorem letsGo_handleUnsubscribe (s : State) (connection : Nat)
    (sessionId : Str) : LetsGo s (s.handleUnsubscribe connection sessionId) := by
  unfold handleUnsubscribe
  split
  · exact LetsGo.refl s
  · exact (letsGo_holdInCall s _).trans ((letsGo_unsubscribe _ _).trans
      (letsGo_leaveCall _ _))

theorem letsGo_closeConnection (s : State) (connection : Nat) :
    LetsGo s (s.closeConnection connection) := by
  have hclosed : LetsGo s { s.setHandlers connection SortedMap.empty with
      closed := Function.update s.closed connection true } :=
    LetsGo.of_eq rfl rfl (fun _ => rfl) rfl rfl
  have hdrop := letsGo_foldl
    (fun s (entry : HandlerId × Nat) => letsGo_dropSubscriber s entry.2)
  exact hclosed.trans (hdrop _ _)

theorem releaseCore_spec {s : State} (h : s.Registry) (core : Nat) :
    (s.releaseCore core).Registry ∧ Grows s (s.releaseCore core) := by
  unfold releaseCore
  split
  · exact ⟨h, Grows.of_eq rfl rfl rfl rfl⟩
  · have hcores : LetsGo s
        { s with cores := Function.update s.cores core none } :=
      LetsGo.of_eq rfl rfl (fun _ => rfl) rfl rfl
    exact ⟨registry_release (hcores.registry h) _ _,
      hcores.grows.trans (Grows.release _ _ _)⟩

theorem mem_call_releaseCore {s : State} {o : Nat} (core : Nat)
    (h : Owner.call ∈ s.owners o) :
    Owner.call ∈ (s.releaseCore core).owners o := by
  unfold releaseCore
  split
  · exact h
  · rename_i p hp
    unfold release
    split
    · dsimp only
      by_cases hpo : o = p
      · subst hpo
        rw [Function.update_self]
        exact (List.mem_erase_of_ne (by simp)).mpr h
      · rw [Function.update_of_ne hpo]
        exact h
    · exact h

theorem handleAuth_spec {s : State} (h : s.Registry) (core : Nat)
    (sessionId : Str) :
    exists t, s.handleAuth core sessionId = Except.ok t ∧ t.Registry ∧
      Grows s t := by
  rcases connect_spec h sessionId with ⟨t, o, ht, hreg, hgrows, hcall⟩
  rcases releaseCore_spec hreg core with ⟨hcore, hcoreGrows⟩
  unfold handleAuth
  rw [ht]
  have halive : (t.releaseCore core).Alive o :=
    List.ne_nil_of_mem (mem_call_releaseCore core hcall)
  have hassign : LetsGo ((t.releaseCore core).acquire o (Owner.core core))
      { (t.releaseCore core).acquire o (Owner.core core) with
        cores := Function.update (t.releaseCore core).cores core (some o) } :=
    LetsGo.of_eq rfl rfl (fun _ => rfl) rfl rfl
  refine ⟨_, rfl, registry_release ?_ _ _, ?_⟩
  · exact hassign.registry (registry_acquire hcore halive _)
  · exact hgrows.trans (hcoreGrows.trans ((Grows.acquire halive _).trans
      (hassign.grows.trans (Grows.release _ o Owner.call))))

/-- An event keeps the registry, or it is an entry for a connection of the core
without a session. -/
theorem handle_cases {s : State} (h : s.Registry) (event : Event) :
    (exists t, s.handle event = Except.ok t ∧ t.Registry ∧
        Grows (s.called event) t) ∨
      s.handle event = Except.error Fault.nullSession := by
  cases event with
  | subscribe connection sessionId combinedLog memory =>
      exact Or.inl (handleSubscribe_spec h connection sessionId combinedLog
        memory)
  | unsubscribe connection sessionId =>
      have hgo := letsGo_handleUnsubscribe s connection sessionId
      exact Or.inl ⟨_, rfl, hgo.registry h, hgo.grows⟩
  | close connection =>
      have hgo := letsGo_closeConnection s connection
      exact Or.inl ⟨_, rfl, hgo.registry h, hgo.grows⟩
  | auth core sessionId => exact Or.inl (handleAuth_spec h core sessionId)
  | logEntry core entry =>
      unfold handle handleLogEntry
      dsimp only
      cases s.cores core with
      | none => exact Or.inr rfl
      | some o =>
          have hgo := letsGo_log s o entry
          exact Or.inl ⟨_, rfl, hgo.registry h, hgo.grows⟩
  | disconnect core => exact Or.inl ⟨_, rfl, releaseCore_spec h core⟩
  | finish sessionId => exact Or.inl ⟨_, rfl, finishSession_spec h sessionId⟩
  | timer o aborted =>
      have hgo := letsGo_onTimer s o aborted
      exact Or.inl ⟨_, rfl, registry_release (hgo.registry h) o _,
        hgo.grows.trans (Grows.release _ o _)⟩

theorem handle_of_step {s t : State} {event : Event}
    (h : sessionSystem.step s event = some t) :
    event.Enabled s ∧ s.handle event = Except.ok t := by
  change (if event.Enabled s then (s.handle event).toOption else none) = _ at h
  split at h
  · rename_i henabled
    refine ⟨henabled, ?_⟩
    cases hhandle : s.handle event with
    | error fault =>
        rw [hhandle] at h
        cases h
    | ok u =>
        rw [hhandle] at h
        cases h
        rfl
  · cases h

theorem registry_step {s t : State} {event : Event} (h : s.Registry)
    (hstep : sessionSystem.step s event = some t) :
    t.Registry ∧ Grows (s.called event) t := by
  have hhandle := (handle_of_step hstep).right
  rcases handle_cases h event with ⟨u, hu, hreg⟩ | hfault
  · rw [hu] at hhandle
    cases hhandle
    exact hreg
  · rw [hfault] at hhandle
    cases hhandle

theorem registry_of_reachable {s : State} (hs : sessionSystem.Reachable s) :
    s.Registry :=
  EventSystem.invariant_of_reachable registry_initial
    (fun _ _ _ h hstep => (registry_step h hstep).left) hs

/-- In every reachable state the map has an id exactly when a session with that
id is alive, there is at most one such session, and no event finds an entry
whose session is gone, or one where it adds its own. -/
theorem registry_reachable (s : State) (hs : sessionSystem.Reachable s) :
    (forall sessionId, (exists o, s.sessions sessionId = some o) <->
      exists o, s.Alive o ∧ (s.objects o).id = sessionId) ∧
    (forall sessionId o, s.sessions sessionId = some o -> s.Alive o ∧
      (s.objects o).id = sessionId) ∧
    (forall o p, s.Alive o -> s.Alive p ->
      (s.objects o).id = (s.objects p).id -> o = p) ∧
    forall event, s.handle event ≠ Except.error Fault.expiredSession ∧
      s.handle event ≠ Except.error Fault.notEmplaced := by
  have h := registry_of_reachable hs
  refine ⟨?_, fun sessionId o ho => h.alive_of_sessions ho, ?_, ?_⟩
  · intro sessionId
    constructor
    · rintro ⟨o, ho⟩
      exact ⟨o, h.alive_of_sessions ho⟩
    · rintro ⟨o, ho, rfl⟩
      exact ⟨o, h.sessions_of_alive ho⟩
  · intro o p ho hp hid
    have hreg := h.sessions_of_alive ho
    rw [hid, h.sessions_of_alive hp] at hreg
    exact (Option.some.inj hreg).symm
  · intro event
    rcases handle_cases h event with ⟨t, ht, -⟩ | hfault
    · rw [ht]
      simp
    · rw [hfault]
      simp

/-- A client subscribes to a session before the core connects for it. -/
def earlyRun : List Event :=
  [Event.subscribe 0 [83] none 0, Event.auth 0 [83]]

def earlyState : State :=
  (sessionSystem.runFrom initial earlyRun).get (by decide)

theorem registry_reachable_sample :
    (forall sessionId, (exists o, earlyState.sessions sessionId = some o) <->
      exists o, earlyState.Alive o ∧ (earlyState.objects o).id = sessionId) ∧
    (forall sessionId o, earlyState.sessions sessionId = some o ->
      earlyState.Alive o ∧ (earlyState.objects o).id = sessionId) ∧
    (forall o p, earlyState.Alive o -> earlyState.Alive p ->
      (earlyState.objects o).id = (earlyState.objects p).id -> o = p) ∧
    forall event,
      earlyState.handle event ≠ Except.error Fault.expiredSession ∧
        earlyState.handle event ≠ Except.error Fault.notEmplaced :=
  registry_reachable earlyState ⟨earlyRun, (Option.some_get _).symm⟩

end State

end Cis
end CisWebui
