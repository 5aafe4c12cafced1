import CisWebui.Cis.SubscribeRequest

/-!
# What a step does

Every event is one of four things to subscribers: some of them leave, some are
told an entry of their session, those of a connection go with it, or there is a
new one.  The events that leave them alone are of the first kind.
-/

namespace CisWebui
namespace Cis

open Cpp
open Foundation

/-- The events with which no subscriber is told anything. -/
def Event.Silent : Event -> Prop
  | Event.unsubscribe _ _ => True
  | Event.auth _ _ => True
  | Event.disconnect _ => True
  | _ => False

namespace State

/-- From `s` to `t` nothing has changed but what sessions are in, who holds
them, and which of them are new. -/
structure Alike (s t : State) : Prop where
  subscribers_eq : t.subscribers = s.subscribers
  nextSubscriber_eq : t.nextSubscriber = s.nextSubscriber
  closeHandlers_eq : t.closeHandlers = s.closeHandlers
  closed_eq : t.closed = s.closed
  removals_eq : t.removals = s.removals
  calls_eq : t.calls = s.calls
  nextObject_le : s.nextObject <= t.nextObject
  entries_eq : forall o,
    (t.objects o).subscribers.entries = (s.objects o).subscribers.entries
  logs_eq : forall {o}, o < s.nextObject ->
    (t.objects o).receivedLogs = (s.objects o).receivedLogs

namespace Alike

variable {s t u : State}

/-- A change of what does not concern subscribers. -/
theorem of_objects (hsubscribers : t.subscribers = s.subscribers)
    (hnext : t.nextSubscriber = s.nextSubscriber)
    (hhandlers : t.closeHandlers = s.closeHandlers)
    (hclosed : t.closed = s.closed) (hremovals : t.removals = s.removals)
    (hcalls : t.calls = s.calls) (hobjects : t.objects = s.objects)
    (hnextObject : t.nextObject = s.nextObject) : Alike s t where
  subscribers_eq := hsubscribers
  nextSubscriber_eq := hnext
  closeHandlers_eq := hhandlers
  closed_eq := hclosed
  removals_eq := hremovals
  calls_eq := hcalls
  nextObject_le := hnextObject.ge
  entries_eq := by
    intro o
    rw [hobjects]
  logs_eq := by
    intro o _
    rw [hobjects]

theorem refl (s : State) : Alike s s :=
  of_objects rfl rfl rfl rfl rfl rfl rfl rfl

theorem trans (hst : Alike s t) (htu : Alike t u) : Alike s u where
  subscribers_eq := htu.subscribers_eq.trans hst.subscribers_eq
  nextSubscriber_eq := htu.nextSubscriber_eq.trans hst.nextSubscriber_eq
  closeHandlers_eq := htu.closeHandlers_eq.trans hst.closeHandlers_eq
  closed_eq := htu.closed_eq.trans hst.closed_eq
  removals_eq := htu.removals_eq.trans hst.removals_eq
  calls_eq := htu.calls_eq.trans hst.calls_eq
  nextObject_le := le_trans hst.nextObject_le htu.nextObject_le
  entries_eq := fun o => (htu.entries_eq o).trans (hst.entries_eq o)
  logs_eq := fun ho => (htu.logs_eq (lt_of_lt_of_le ho hst.nextObject_le)).trans
    (hst.logs_eq ho)

theorem release (s : State) (o : Nat) (owner : Owner) :
    Alike s (s.release o owner) := by
  rcases exists_release s o owner with ⟨owners, sessions, h⟩
  rw [h]
  exact of_objects rfl rfl rfl rfl rfl rfl rfl rfl

theorem setObject (s : State) (o : Nat) {object : SessionObject}
    (hentries : object.subscribers = (s.objects o).subscribers)
    (hlogs : object.receivedLogs = (s.objects o).receivedLogs) :
    Alike s (s.setObject o object) := by
  have hobject : forall p,
      ((s.setObject o object).objects p).subscribers =
        (s.objects p).subscribers ∧
      ((s.setObject o object).objects p).receivedLogs =
        (s.objects p).receivedLogs := by
    intro p
    rw [State.setObject]
    dsimp only
    by_cases hp : p = o
    · subst hp
      rw [Function.update_self]
      exact ⟨hentries, hlogs⟩
    · rw [Function.update_of_ne hp]
      exact ⟨rfl, rfl⟩
  exact
    { subscribers_eq := rfl, nextSubscriber_eq := rfl, closeHandlers_eq := rfl,
      closed_eq := rfl, removals_eq := rfl, calls_eq := rfl,
      nextObject_le := le_rfl,
      entries_eq := fun p => congrArg _ (hobject p).left,
      logs_eq := fun _ => (hobject _).right }

theorem wired (h : Alike s t) (hw : s.Wired) : t.Wired where
  handler := by
    intro c e he
    rw [h.closeHandlers_eq] at he
    rw [h.subscribers_eq, h.nextSubscriber_eq]
    exact hw.handler he
  handlers_of_closed := by
    intro c hc
    rw [h.closed_eq] at hc
    rw [h.closeHandlers_eq]
    exact hw.handlers_of_closed hc
  entry := by
    intro o e he
    rw [h.entries_eq] at he
    rw [h.subscribers_eq, h.nextSubscriber_eq]
    exact hw.entry he
  object_lt := by
    intro n o hn ho
    rw [h.nextSubscriber_eq] at hn
    rw [h.subscribers_eq] at ho
    exact lt_of_lt_of_le (hw.object_lt hn ho) h.nextObject_le
  calls_eq := h.calls_eq.trans hw.calls_eq

theorem attached_iff (h : Alike s t) (n : Nat) :
    t.Attached n <-> s.Attached n :=
  attached_congr h.closeHandlers_eq (by rw [h.subscribers_eq])

end Alike

/-- From `s` to `t` those of the subscribers that were attached have left, and
no session has been logged to. -/
structure Ends (s : State) (numbers : List Nat)
    (notifications : List Notification) (t : State) : Prop where
  nextSubscriber_eq : t.nextSubscriber = s.nextSubscriber
  closed_eq : t.closed = s.closed
  left_of_mem : forall {n}, n ∈ numbers -> s.Attached n ->
    t.subscribers n = (s.subscribers n).left notifications
  stays : forall {n}, ¬ (n ∈ numbers ∧ s.Attached n) ->
    t.subscribers n = s.subscribers n
  attached_iff : forall n, t.Attached n <-> s.Attached n ∧ ¬ n ∈ numbers
  removals : forall r, r ∈ t.removals ->
    r ∈ s.removals ∨ exists n, s.Attached n ∧ r = s.ownRemoval n
  nextObject_le : s.nextObject <= t.nextObject
  entries_eq : forall o,
    (t.objects o).subscribers.entries = (s.objects o).subscribers.entries
  logs_eq : forall {o}, o < s.nextObject ->
    (t.objects o).receivedLogs = (s.objects o).receivedLogs
  over_of : forall {o n}, s.Registered o n -> (t.objects o).kind.over = true ->
    (s.objects o).kind.over = true ∨ n ∈ numbers
  pending : forall {o n}, s.Registered o n ->
    (t.objects o).kind = Kind.online Phase.pending ->
    (s.objects o).kind = Kind.online Phase.pending
  wired : t.Wired

theorem AllLeft.ends {s s' t' t : State} {numbers : List Nat}
    {notifications : List Notification} (hbefore : Alike s s')
    (h : AllLeft s' numbers notifications t') (hafter : Alike t' t)
    (hover : forall {o n}, s.Registered o n ->
      (t.objects o).kind.over = true ->
      (s.objects o).kind.over = true ∨ n ∈ numbers)
    (hpending : forall {o n}, s.Registered o n ->
      (t.objects o).kind = Kind.online Phase.pending ->
      (s.objects o).kind = Kind.online Phase.pending) :
    Ends s numbers notifications t where
  nextSubscriber_eq := by
    rw [hafter.nextSubscriber_eq, h.nextSubscriber_eq, hbefore.nextSubscriber_eq]
  closed_eq := by
    rw [hafter.closed_eq, h.closed_eq, hbefore.closed_eq]
  left_of_mem := by
    intro n hn hattached
    rw [hafter.subscribers_eq,
      h.left_of_mem hn ((hbefore.attached_iff n).mpr hattached),
      hbefore.subscribers_eq]
  stays := by
    intro n hn
    rw [hafter.subscribers_eq, h.stays, hbefore.subscribers_eq]
    rw [hbefore.attached_iff]
    exact hn
  attached_iff := by
    intro n
    rw [hafter.attached_iff, h.attached_iff, hbefore.attached_iff]
  removals := by
    intro r hr
    rw [hafter.removals_eq] at hr
    rcases h.removals r hr with hold | ⟨n, hattached, rfl⟩
    · rw [hbefore.removals_eq] at hold
      exact Or.inl hold
    · refine Or.inr ⟨n, (hbefore.attached_iff n).mp hattached, ?_⟩
      rw [ownRemoval, ownRemoval, hbefore.subscribers_eq]
  nextObject_le := by
    refine le_trans hbefore.nextObject_le (le_trans ?_ hafter.nextObject_le)
    rw [h.nextObject_eq]
  entries_eq := by
    intro o
    rw [hafter.entries_eq, h.objects_eq, hbefore.entries_eq]
  logs_eq := by
    intro o ho
    have hlt : o < t'.nextObject := by
      rw [h.nextObject_eq]
      exact lt_of_lt_of_le ho hbefore.nextObject_le
    rw [hafter.logs_eq hlt, h.objects_eq, hbefore.logs_eq ho]
  over_of := hover
  pending := hpending
  wired := hafter.wired h.wired

/-- Sessions have at most been established. -/
def OnlyEstablishes (s t : State) : Prop :=
  forall {o}, o < s.nextObject -> (t.objects o).kind = (s.objects o).kind ∨
    (t.objects o).kind = Kind.online Phase.inProgress

theorem Wired.lt_of_registered {s : State} (hw : s.Wired) {o n : Nat}
    (hn : s.Registered o n) : o < s.nextObject := by
  rcases hw.entry hn with ⟨hlt, -, hobject⟩
  exact hw.object_lt hlt hobject

theorem Alike.ends {s t : State} (h : Alike s t) (hw : s.Wired)
    (hkind : OnlyEstablishes s t) (notifications : List Notification) :
    Ends s [] notifications t := by
  refine AllLeft.ends (Alike.refl s)
    { objects_eq := rfl, nextObject_eq := rfl, nextSubscriber_eq := rfl,
      closed_eq := rfl, finishCalled_eq := rfl,
      left_of_mem := fun hn => (nomatch hn), stays := fun _ => rfl,
      mem_closeHandlers := fun c e => by simp,
      removals := fun _ => Or.inl, wired := hw } h ?_ ?_
  · intro o n hn hover
    rcases hkind (hw.lt_of_registered hn) with heq | hnew
    · rw [heq] at hover
      exact Or.inl hover
    · rw [hnew] at hover
      cases hover
  · intro o n hn hpending
    rcases hkind (hw.lt_of_registered hn) with heq | hnew
    · rw [← heq]
      exact hpending
    · rw [hnew] at hpending
      cases hpending

/-!
## The core connects and disconnects
-/

theorem alike_create {s : State} (hw : s.Wired) {object : SessionObject}
    (hentries : object.subscribers.entries = []) (owners : List Owner)
    (sessions : Str -> Option Nat) :
    Alike s { s.create object owners with sessions := sessions } where
  subscribers_eq := rfl
  nextSubscriber_eq := rfl
  closeHandlers_eq := rfl
  closed_eq := rfl
  removals_eq := rfl
  calls_eq := rfl
  nextObject_le := Nat.le_succ _
  entries_eq := by
    intro o
    rw [create]
    dsimp only
    by_cases ho : o = s.nextObject
    · subst ho
      rw [Function.update_self, hentries, hw.empty_of_le le_rfl]
    · rw [Function.update_of_ne ho]
  logs_eq := by
    intro o ho
    rw [create]
    dsimp only
    rw [Function.update_of_ne ho.ne]

theorem alike_establish (s : State) (o : Nat) : Alike s (s.establish o) := by
  unfold establish
  split
  · exact Alike.refl s
  · exact Alike.setObject s o rfl rfl

theorem onlyEstablishes_establish (s : State) (o : Nat) :
    OnlyEstablishes s (s.establish o) := by
  intro p _
  unfold establish
  split
  · exact Or.inl rfl
  · rw [setObject]
    dsimp only
    by_cases hp : p = o
    · subst hp
      rw [Function.update_self]
      exact Or.inr rfl
    · rw [Function.update_of_ne hp]
      exact Or.inl rfl

theorem onlyEstablishes_create (s : State) (object : SessionObject)
    (owners : List Owner) (sessions : Str -> Option Nat) :
    OnlyEstablishes s { s.create object owners with sessions := sessions } := by
  intro o ho
  rw [create]
  dsimp only
  rw [Function.update_of_ne ho.ne]
  exact Or.inl rfl

theorem OnlyEstablishes.trans {s t u : State} (hst : OnlyEstablishes s t)
    (hle : s.nextObject <= t.nextObject) (htu : OnlyEstablishes t u) :
    OnlyEstablishes s u := by
  intro o ho
  rcases htu (lt_of_lt_of_le ho hle) with heq | hnew
  · rw [heq]
    exact hst ho
  · exact Or.inr hnew

theorem connect_alike {s : State} (hw : s.Wired) (hr : s.Registry)
    (sessionId : Str) :
    exists t o, s.connect sessionId = Except.ok (t, o) ∧ Alike s t ∧
      OnlyEstablishes s t := by
  unfold connect
  cases hfind : s.sessions sessionId with
  | some o =>
      dsimp only
      rw [if_pos (hr.alive_of_sessions hfind).left]
      refine ⟨_, o, rfl, ?_, ?_⟩
      · have hacquire : Alike s (s.acquire o Owner.call) :=
          Alike.of_objects rfl rfl rfl rfl rfl rfl rfl rfl
        exact hacquire.trans (alike_establish _ o)
      · exact onlyEstablishes_establish (s.acquire o Owner.call) o
  | none =>
      dsimp only
      rw [newSession, emplaceSession_create hfind]
      refine ⟨_, s.nextObject, rfl, ?_, ?_⟩
      · exact (alike_create hw (by rfl) [Owner.timer] _).trans
          (alike_establish _ _)
      · exact OnlyEstablishes.trans (onlyEstablishes_create s _ [Owner.timer] _)
          (Nat.le_succ _) (onlyEstablishes_establish _ _)

theorem releaseCore_alike (s : State) (core : Nat) :
    Alike s (s.releaseCore core) ∧
      (s.releaseCore core).objects = s.objects := by
  unfold releaseCore
  split
  · exact ⟨Alike.refl s, rfl⟩
  · rename_i o _
    rcases exists_release { s with cores := Function.update s.cores core none } o
      (Owner.core core) with ⟨owners, sessions, h⟩
    rw [h]
    exact ⟨Alike.of_objects rfl rfl rfl rfl rfl rfl rfl rfl, rfl⟩

theorem ends_handleAuth {s t : State} (hw : s.Wired) (hr : s.Registry)
    {core : Nat} {sessionId : Str}
    (h : s.handleAuth core sessionId = Except.ok t) : Ends s [] [] t := by
  rcases connect_alike hw hr sessionId with ⟨u, o, hconnect, hlike, hkind⟩
  rw [handleAuth, hconnect] at h
  cases h
  rcases releaseCore_alike u core with ⟨hcore, hobjects⟩
  have hassign : Alike (u.releaseCore core)
      { (u.releaseCore core).acquire o (Owner.core core) with
        cores := Function.update (u.releaseCore core).cores core (some o) } :=
    Alike.of_objects rfl rfl rfl rfl rfl rfl rfl rfl
  refine (hlike.trans (hcore.trans (hassign.trans
    (Alike.release _ o Owner.call)))).ends hw ?_ []
  intro p hp
  rcases exists_release ({ (u.releaseCore core).acquire o (Owner.core core) with
    cores := Function.update (u.releaseCore core).cores core (some o) }) o
    Owner.call with ⟨owners, sessions, hrelease⟩
  dsimp only
  rw [hrelease, acquire]
  dsimp only
  rw [hobjects]
  exact hkind hp

theorem ends_releaseCore {s : State} (hw : s.Wired) (core : Nat) :
    Ends s [] [] (s.releaseCore core) := by
  rcases releaseCore_alike s core with ⟨hlike, hobjects⟩
  refine hlike.ends hw ?_ []
  intro o _
  rw [hobjects]
  exact Or.inl rfl

/-!
## Subscribers leave
-/

theorem mem_numbers {s : State} {o n : Nat} (hn : s.Registered o n) :
    n ∈ (s.objects o).subscribers.entries.map Prod.snd :=
  List.mem_map_of_mem hn

/-- A session turns to an end and tells it to its subscribers. -/
theorem ends_forEach {s s' t : State} (hw : s.Wired) (hbefore : Alike s s')
    (hsame : s'.objects = s.objects) (o : Nat) {phase : Phase}
    (hphase : phase ≠ Phase.pending) (notification : Notification)
    (hafter : Alike ((s'.setObject o
      { s'.objects o with kind := Kind.online phase }).forEach o
        fun number s => (s.send number notification).unsubscribe number) t)
    (hobjects : t.objects = (s'.setObject o
      { s'.objects o with kind := Kind.online phase }).objects) :
    Ends s ((s.objects o).subscribers.entries.map Prod.snd) [notification]
      t := by
  have hturn : Alike s (s'.setObject o
      { s'.objects o with kind := Kind.online phase }) :=
    hbefore.trans (Alike.setObject s' o rfl rfl)
  have hloop := foldl_left (hturn.wired hw) notification
    ((s.objects o).subscribers.entries)
  have hentries : ((s'.setObject o
      { s'.objects o with kind := Kind.online phase }).objects
        o).subscribers.entries = (s.objects o).subscribers.entries :=
    hturn.entries_eq o
  rw [forEach, hentries] at hafter
  have hother : forall {p}, p ≠ o -> t.objects p = s.objects p := by
    intro p hp
    rw [hobjects, setObject, hsame]
    exact Function.update_of_ne hp _ _
  have hkind : (t.objects o).kind = Kind.online phase := by
    rw [hobjects, setObject]
    dsimp only
    rw [Function.update_self]
  refine AllLeft.ends hturn hloop hafter ?_ ?_
  · intro p n hn hover
    by_cases hp : p = o
    · subst hp
      exact Or.inr (mem_numbers hn)
    · rw [hother hp] at hover
      exact Or.inl hover
  · intro p n hn hpending
    by_cases hp : p = o
    · subst hp
      rw [hkind] at hpending
      cases hpending
      exact absurd rfl hphase
    · rw [hother hp] at hpending
      exact hpending

theorem forEach_objects {s : State} (hw : s.Wired) (o : Nat)
    (notification : Notification) :
    (s.forEach o fun number s =>
      (s.send number notification).unsubscribe number).objects = s.objects :=
  (foldl_left hw notification _).objects_eq

theorem alike_ends {s t : State} (h : Alike s t) (hw : s.Wired)
    (hobjects : t.objects = s.objects) (notifications : List Notification) :
    Ends s [] notifications t := by
  refine h.ends hw ?_ notifications
  intro o _
  rw [hobjects]
  exact Or.inl rfl

theorem ends_finishSession {s : State} (hw : s.Wired) (hr : s.Registry)
    (sessionId : Str) :
    exists numbers, Ends s numbers [Notification.sessionClosed]
        (s.finishSession sessionId) ∧
      (forall n, n ∈ numbers -> exists o, s.sessions sessionId = some o ∧
        (s.objects o).kind ≠ Kind.offline ∧ s.Registered o n) ∧
      forall o n, s.sessions sessionId = some o -> s.Registered o n ->
        (s.objects o).kind ≠ Kind.offline -> n ∈ numbers := by
  have hcall : Alike s { s with
      finishCalled := Function.update s.finishCalled sessionId true } :=
    Alike.of_objects rfl rfl rfl rfl rfl rfl rfl rfl
  unfold finishSession
  dsimp only
  cases hfind : s.sessions sessionId with
  | none =>
      refine ⟨[], alike_ends hcall hw rfl _, fun n hn => (nomatch hn), ?_⟩
      intro o n ho
      cases ho
  | some o =>
      have halive : ({ s with
          finishCalled := Function.update s.finishCalled sessionId true } :
            State).Alive o := (hr.alive_of_sessions hfind).left
      have hacquire : Alike s (State.acquire { s with
          finishCalled := Function.update s.finishCalled sessionId true } o
            Owner.call) :=
        Alike.of_objects rfl rfl rfl rfl rfl rfl rfl rfl
      have hsame : (State.acquire { s with
          finishCalled := Function.update s.finishCalled sessionId true } o
            Owner.call).objects = s.objects := rfl
      dsimp only
      rw [if_pos halive]
      generalize State.acquire { s with
        finishCalled := Function.update s.finishCalled sessionId true } o
          Owner.call = u at hacquire hsame
      rcases exists_release (u.finish o) o Owner.call with
        ⟨owners, sessions, hrelease⟩
      rw [finish, hsame] at hrelease ⊢
      cases hkind : (s.objects o).kind with
      | offline =>
          rw [hkind] at hrelease
          dsimp only at hrelease ⊢
          refine ⟨[], alike_ends (hacquire.trans (Alike.release u o Owner.call))
            hw ?_ _, fun n hn => (nomatch hn), ?_⟩
          · rw [hrelease]
            exact hsame
          · intro p n hp _ hne
            cases hp
            exact absurd hkind hne
      | online phase =>
          rw [hkind] at hrelease
          dsimp only at hrelease ⊢
          have hphase : Phase.finished ≠ Phase.pending := fun h => nomatch h
          have hturn : Alike s (u.setObject o
              { u.objects o with kind := Kind.online Phase.finished }) :=
            hacquire.trans (Alike.setObject u o rfl rfl)
          refine ⟨_, ends_forEach hw hacquire hsame o hphase
            Notification.sessionClosed ?_ ?_, ?_, ?_⟩
          · rw [← hsame]
            exact Alike.release _ o Owner.call
          · rw [← hsame] at hrelease
            rw [← hsame, hrelease]
            exact forEach_objects (hturn.wired hw) o Notification.sessionClosed
          · intro n hn
            rcases List.mem_map.mp hn with ⟨e, he, rfl⟩
            exact ⟨o, rfl, by rw [hkind]; simp, hw.registered_of_mem he⟩
          · intro p n hp hn _
            cases hp
            exact mem_numbers hn

theorem ends_timerCompletes {s : State} (hw : s.Wired) (o : Nat)
    (aborted : Bool) :
    exists numbers, Ends s numbers [Notification.sessionNotEstablished]
        (s.timerCompletes o aborted) ∧
      forall n, n ∈ numbers -> s.Registered o n ∧
        (s.objects o).kind = Kind.online Phase.pending := by
  have hnothing : exists numbers, Ends s numbers
      [Notification.sessionNotEstablished] (s.release o Owner.timer) ∧
      forall n, n ∈ numbers -> s.Registered o n ∧
        (s.objects o).kind = Kind.online Phase.pending := by
    refine ⟨[], alike_ends (Alike.release s o Owner.timer) hw ?_ _,
      fun n hn => (nomatch hn)⟩
    rcases exists_release s o Owner.timer with ⟨owners, sessions, hrelease⟩
    rw [hrelease]
  unfold timerCompletes onTimer
  split
  · exact hnothing
  · split
    · rename_i hkind
      have hphase : Phase.notEstablished ≠ Phase.pending := fun h => nomatch h
      refine ⟨_, ends_forEach hw (Alike.refl s) rfl o hphase
        Notification.sessionNotEstablished (Alike.release _ o Owner.timer) ?_,
        ?_⟩
      · rcases exists_release ((s.setObject o { s.objects o with
          kind := Kind.online Phase.notEstablished }).forEach o
            fun number s => s.sessionNotEstablished number) o Owner.timer with
          ⟨owners, sessions, hrelease⟩
        have hturn : Alike s (s.setObject o { s.objects o with
            kind := Kind.online Phase.notEstablished }) :=
          Alike.setObject s o rfl rfl
        refine (congrArg State.objects hrelease).trans ?_
        exact forEach_objects (hturn.wired hw) o
          Notification.sessionNotEstablished
      · intro n hn
        rcases List.mem_map.mp hn with ⟨e, he, rfl⟩
        exact ⟨hw.registered_of_mem he, hkind⟩
    · exact hnothing

theorem lockable_of_getSubscriber {s : State} {sessionId : Str}
    {wsSessionId number : Nat}
    (h : s.getSubscriber sessionId wsSessionId = some number) :
    s.Lockable number := by
  rcases Option.bind_eq_some_iff.mp h with ⟨o, -, hfound⟩
  split at hfound
  · rcases Option.bind_eq_some_iff.mp hfound with ⟨n, -, hlock⟩
    split at hlock
    · rename_i hlockable
      cases hlock
      exact hlockable
    · cases hlock
  · cases hfound

/-- A request to unsubscribe ends the subscription it finds. -/
theorem ends_handleUnsubscribe {s : State} (hw : s.Wired) (connection : Nat)
    (sessionId : Str) :
    exists numbers, Ends s numbers [] (s.handleUnsubscribe connection sessionId)
    := by
  unfold handleUnsubscribe
  cases hfind : s.getSubscriber sessionId connection with
  | none => exact ⟨[], alike_ends (Alike.refl s) hw rfl []⟩
  | some number =>
      have hattached : s.Attached number :=
        hw.lockable_iff.mp (lockable_of_getSubscriber hfind)
      have htold : s.holdInCall number = (s.holdInCall number).setSubscriber
          number { s.subscribers number with
            received := (s.subscribers number).received ++ [] } := by
        simp [holdInCall, setSubscriber]
      rcases exists_left hw hattached [] htold with ⟨owners, sessions, hleft⟩
      dsimp only
      rw [hleft]
      refine ⟨[number], AllLeft.ends (Alike.refl s)
        (allLeft_detach hw hattached [] owners sessions) (Alike.refl _) ?_ ?_⟩
      · intro o n _ hover
        exact Or.inl hover
      · intro o n _ hpending
        exact hpending

/-!
## Subscribers are told an entry
-/

/-- From `s` to `t` an entry has been logged to a session. -/
structure Logs (s : State) (o : Nat) (entry : LogEntry) (t : State) : Prop where
  nextSubscriber_eq : t.nextSubscriber = s.nextSubscriber
  nextObject_eq : t.nextObject = s.nextObject
  closed_eq : t.closed = s.closed
  removals_eq : t.removals = s.removals
  finishCalled_eq : t.finishCalled = s.finishCalled
  told : forall {n}, s.Registered o n -> s.Attached n ->
    t.subscribers n = s.tell n (Notification.logEntry entry)
  stays : forall {n}, ¬ (s.Registered o n ∧ s.Attached n) ->
    t.subscribers n = s.subscribers n
  attached_iff : forall n, t.Attached n <-> s.Attached n
  object_eq : t.objects = Function.update s.objects o
    { s.objects o with
      receivedLogs := (s.objects o).receivedLogs ++ [entry] }
  wired : t.Wired

namespace Logs

variable {s t : State} {o : Nat} {entry : LogEntry}

theorem entries_eq (h : Logs s o entry t) (p : Nat) :
    (t.objects p).subscribers.entries = (s.objects p).subscribers.entries := by
  rw [h.object_eq]
  by_cases hp : p = o
  · subst hp
    rw [Function.update_self]
  · rw [Function.update_of_ne hp]

theorem kind_eq (h : Logs s o entry t) (p : Nat) :
    (t.objects p).kind = (s.objects p).kind := by
  rw [h.object_eq]
  by_cases hp : p = o
  · subst hp
    rw [Function.update_self]
  · rw [Function.update_of_ne hp]

end Logs

theorem wired_setLogs {s : State} (hw : s.Wired) (o : Nat)
    (logs : List LogEntry) :
    (s.setObject o { s.objects o with receivedLogs := logs }).Wired := by
  refine ⟨hw.handler, hw.handlers_of_closed, ?_, hw.object_lt, hw.calls_eq⟩
  intro p e he
  apply hw.entry
  rw [setObject] at he
  dsimp only at he
  by_cases hp : p = o
  · subst hp
    rw [Function.update_self] at he
    exact he
  · rw [Function.update_of_ne hp] at he
    exact he

theorem logs_log {s : State} (hw : s.Wired) (o : Nat) (entry : LogEntry) :
    Logs s o entry (s.log o entry) := by
  have hset := wired_setLogs hw o ((s.objects o).receivedLogs ++ [entry])
  rcases foldl_told hset (Notification.logEntry entry) _ (hset.nodup_numbers o)
    with ⟨htold, hwired⟩
  have hentries : ((s.setObject o { s.objects o with
      receivedLogs := (s.objects o).receivedLogs ++ [entry] }).objects
        o).subscribers.entries = (s.objects o).subscribers.entries := by
    rw [setObject]
    dsimp only
    rw [Function.update_self]
  have hmem : forall {n}, s.Registered o n <->
      n ∈ ((s.setObject o { s.objects o with
        receivedLogs := (s.objects o).receivedLogs ++ [entry] }).objects
          o).subscribers.entries.map Prod.snd := by
    intro n
    rw [hentries]
    constructor
    · exact mem_numbers
    · intro hn
      rcases List.mem_map.mp hn with ⟨e, he, rfl⟩
      exact hw.registered_of_mem he
  have heq := htold.eq_of_subscribers
  refine { nextSubscriber_eq := (congrArg State.nextSubscriber heq :),
           nextObject_eq := (congrArg State.nextObject heq :),
           closed_eq := (congrArg State.closed heq :),
           removals_eq := (congrArg State.removals heq :),
           finishCalled_eq := (congrArg State.finishCalled heq :),
           told := fun hn ha => htold.told_of_mem (hmem.mp hn) ha,
           stays := fun hn => htold.stays fun h => hn ⟨hmem.mpr h.left, h.right⟩,
           attached_iff := htold.attached_iff,
           object_eq := (congrArg State.objects heq :),
           wired := hwired }

/-!
## Subscribers go with their connection
-/

/-- From `s` to `t` a connection has been closed. -/
structure Closes (s : State) (connection : Nat) (t : State) : Prop where
  nextSubscriber_eq : t.nextSubscriber = s.nextSubscriber
  nextObject_eq : t.nextObject = s.nextObject
  objects_eq : t.objects = s.objects
  removals_eq : t.removals = s.removals
  finishCalled_eq : t.finishCalled = s.finishCalled
  closed_eq : t.closed = Function.update s.closed connection true
  subscriber : forall n, t.subscribers n = s.subscribers n ∨
    t.subscribers n = { s.subscribers n with session := none }
  attached_iff : forall n, t.Attached n <->
    s.Attached n ∧ (s.subscribers n).connection ≠ connection
  wired : t.Wired

theorem exists_dropAll (entries : List (HandlerId × Nat)) (s : State) :
    exists subscribers owners sessions,
      entries.foldl (fun s entry => s.dropSubscriber entry.2) s =
        { s with
          subscribers := subscribers, owners := owners, sessions := sessions } ∧
      forall n, subscribers n = s.subscribers n ∨
        subscribers n = { s.subscribers n with session := none } := by
  induction entries generalizing s with
  | nil => exact ⟨_, _, _, rfl, fun _ => Or.inl rfl⟩
  | cons entry entries ih =>
      rw [List.foldl_cons, dropSubscriber]
      split
      · exact ih s
      · rcases exists_resetSession s entry.2 with ⟨owners, sessions, hreset⟩
        rcases ih (s.resetSession entry.2) with
          ⟨subscribers, owners', sessions', hrest, hnone⟩
        refine ⟨subscribers, owners', sessions', ?_, ?_⟩
        · rw [hrest, hreset]
        · intro n
          rw [hreset] at hnone
          by_cases hn : n = entry.2
          · subst hn
            have h := hnone entry.2
            dsimp only at h
            rw [Function.update_self, or_self] at h
            exact Or.inr h
          · have h := hnone n
            dsimp only at h
            rw [Function.update_of_ne hn] at h
            exact h

theorem closes_closeConnection {s : State} (hw : s.Wired) (connection : Nat) :
    Closes s connection (s.closeConnection connection) := by
  rcases exists_dropAll (s.closeHandlers connection).entries
    { s.setHandlers connection SortedMap.empty with
      closed := Function.update s.closed connection true } with
    ⟨subscribers, owners, sessions, hdrop, hsubscriber⟩
  have hconnection : forall n,
      (subscribers n).connection = (s.subscribers n).connection ∧
      (subscribers n).subscribeId = (s.subscribers n).subscribeId ∧
      (subscribers n).history = (s.subscribers n).history := by
    intro n
    rcases hsubscriber n with h | h <;>
    · rw [h]
      exact ⟨rfl, rfl, rfl⟩
  have hmem : forall {c e},
      e ∈ (Function.update s.closeHandlers connection SortedMap.empty
        c).entries -> c ≠ connection ∧ e ∈ (s.closeHandlers c).entries := by
    intro c e he
    by_cases hc : c = connection
    · subst hc
      rw [Function.update_self] at he
      cases he
    · rw [Function.update_of_ne hc] at he
      exact ⟨hc, he⟩
  rw [closeConnection, hdrop]
  refine { nextSubscriber_eq := rfl, nextObject_eq := rfl, objects_eq := rfl,
           removals_eq := rfl, finishCalled_eq := rfl, closed_eq := rfl,
           subscriber := hsubscriber, attached_iff := ?_, wired := ?_ }
  · intro n
    constructor
    · rintro ⟨e, he, rfl⟩
      dsimp only at he
      rw [(hconnection e.2).left] at he
      exact ⟨⟨e, (hmem he).right, rfl⟩, (hmem he).left⟩
    · rintro ⟨⟨e, he, rfl⟩, hne⟩
      refine ⟨e, ?_, rfl⟩
      dsimp only [setHandlers]
      rw [(hconnection e.2).left, Function.update_of_ne hne]
      exact he
  · constructor
    · intro c e he
      dsimp only
      rw [(hconnection e.2).left, (hconnection e.2).right.left,
        (hconnection e.2).right.right]
      exact hw.handler (hmem he).right
    · intro c hc
      rw [List.eq_nil_iff_forall_not_mem]
      intro e he
      rcases hmem he with ⟨hne, hold⟩
      dsimp only at hc
      rw [Function.update_of_ne hne] at hc
      rw [hw.handlers_of_closed hc] at hold
      cases hold
    · intro o e he
      dsimp only
      rw [(hconnection e.2).left, (hconnection e.2).right.right]
      exact hw.entry he
    · intro n o hn ho
      dsimp only at ho
      rw [(hconnection n).right.right] at ho
      exact hw.object_lt hn ho
    · exact hw.calls_eq

/-!
## There is a new subscriber
-/

theorem without_cases (s : State) (number : Option Nat) (n : Nat) :
    s.without number n = s.subscribers n ∨
      s.without number n = { s.subscribers n with session := none } := by
  cases number with
  | none => exact Or.inl rfl
  | some other =>
      rw [without]
      by_cases hn : n = other
      · subst hn
        exact Or.inr (Function.update_self ..)
      · exact Or.inl (Function.update_of_ne hn _ _)

theorem sought_entries {s : State} (hw : s.Wired) (sessionId : Str)
    (combinedLog : Option (List LogEntry)) :
    (s.sought sessionId combinedLog).2.subscribers.entries =
      (s.objects (s.sought sessionId combinedLog).1).subscribers.entries := by
  rw [sought]
  cases s.sessions sessionId with
  | some o => rfl
  | none => exact (hw.empty_of_le le_rfl).symm

theorem sought_id {s : State} (hr : s.Registry) (sessionId : Str)
    (combinedLog : Option (List LogEntry)) :
    (s.sought sessionId combinedLog).2.id = sessionId := by
  rw [sought]
  cases hfind : s.sessions sessionId with
  | some o => exact (hr.alive_of_sessions hfind).right
  | none => rfl

theorem mem_entered {object : SessionObject} {wsSessionId number : Nat}
    {e : Nat × Nat} :
    e ∈ (entered object wsSessionId number).entries <->
      e ∈ object.subscribers.entries ∨
        (object.kind ≠ Kind.online Phase.notEstablished ∧
          ¬ object.subscribers.Has wsSessionId ∧ e = (wsSessionId, number)) := by
  rw [entered]
  split
  · rename_i hkind
    simp [hkind]
  · rename_i hkind
    rw [SortedMap.mem_emplace]
    simp [hkind]

namespace Subscribes

variable {s t : State} {connection : Nat} {sessionId : Str}
  {combinedLog : Option (List LogEntry)} {memory : HandlerId}
  (h : Subscribes s connection sessionId combinedLog memory t)

include h

theorem old {n : Nat} (hn : n < s.nextSubscriber) :
    t.subscribers n = s.subscribers n ∨
      t.subscribers n = { s.subscribers n with session := none } := by
  rw [h.old_eq hn]
  exact without_cases s _ n

theorem old_history {n : Nat} (hn : n < s.nextSubscriber) :
    (t.subscribers n).connection = (s.subscribers n).connection ∧
      (t.subscribers n).subscribeId = (s.subscribers n).subscribeId ∧
      (t.subscribers n).received = (s.subscribers n).received ∧
      (t.subscribers n).history = (s.subscribers n).history := by
  rcases h.old hn with heq | heq <;>
  · rw [heq]
    exact ⟨rfl, rfl, rfl, rfl⟩

theorem mem_objects {o : Nat} {e : Nat × Nat} (hw : s.Wired) :
    e ∈ (t.objects o).subscribers.entries <->
      e ∈ (s.objects o).subscribers.entries ∨
        (o = (s.sought sessionId combinedLog).1 ∧
          (s.sought sessionId combinedLog).2.kind ≠
            Kind.online Phase.notEstablished ∧
          ¬ (s.sought sessionId combinedLog).2.subscribers.Has connection ∧
          e = (connection, s.nextSubscriber)) := by
  rw [h.objects_eq]
  by_cases ho : o = (s.sought sessionId combinedLog).1
  · subst ho
    rw [Function.update_self, mem_entered, sought_entries hw]
    simp
  · rw [Function.update_of_ne ho]
    simp [ho]

theorem wired (hw : s.Wired) (hr : s.Registry)
    (hclosed : s.closed connection = false) : t.Wired := by
  rcases h.new_eq with ⟨session, hnew, -⟩
  have hlt : forall {n}, n < s.nextSubscriber -> n < t.nextSubscriber := by
    intro n hn
    rw [h.nextSubscriber_eq]
    omega
  have hle : s.nextObject <= t.nextObject := by
    rw [h.nextObject_eq]
    split <;> omega
  have hold : forall {c e}, e ∈ (s.closeHandlers c).entries ->
      e.2 < t.nextSubscriber ∧ (t.subscribers e.2).connection = c ∧
        (t.subscribers e.2).subscribeId = e.1 ∧
        (t.subscribers e.2).history.givenId = some e.1 := by
    intro c e he
    rcases hw.handler he with ⟨hn, hrest⟩
    rcases h.old_history hn with ⟨hconnection, hid, -, hhistory⟩
    rw [hconnection, hid, hhistory]
    exact ⟨hlt hn, hrest⟩
  constructor
  · intro c e he
    rw [h.closeHandlers_eq] at he
    by_cases hc : c = connection
    · subst hc
      rw [Function.update_self, SortedMap.mem_emplace] at he
      rcases he with hmem | ⟨-, rfl⟩
      · exact hold (mem_of_mem_handlersLeft hmem)
      · dsimp only
        rw [hnew, h.nextSubscriber_eq]
        exact ⟨Nat.lt_succ_self _, rfl, rfl, rfl⟩
    · rw [Function.update_of_ne hc] at he
      exact hold he
  · intro c hc
    rw [h.closed_eq] at hc
    have hne : c ≠ connection := by
      rintro rfl
      rw [hclosed] at hc
      cases hc
    rw [h.closeHandlers_eq, Function.update_of_ne hne]
    exact hw.handlers_of_closed hc
  · intro o e he
    rcases (h.mem_objects hw).mp he with hmem | ⟨rfl, -, -, rfl⟩
    · rcases hw.entry hmem with ⟨hn, hrest⟩
      rcases h.old_history hn with ⟨hconnection, -, -, hhistory⟩
      rw [hconnection, hhistory]
      exact ⟨hlt hn, hrest⟩
    · dsimp only
      rw [hnew, h.nextSubscriber_eq]
      exact ⟨Nat.lt_succ_self _, rfl, rfl⟩
  · intro n o hn ho
    by_cases hlast : n = s.nextSubscriber
    · subst hlast
      rw [hnew] at ho
      cases ho
      rw [h.nextObject_eq]
      exact (sought_lt hr sessionId combinedLog memory :
        _ < (s.hosting connection sessionId combinedLog memory).nextObject)
    · rw [h.nextSubscriber_eq] at hn
      have hn' : n < s.nextSubscriber := by omega
      rw [(h.old_history hn').right.right.right] at ho
      exact lt_of_lt_of_le (hw.object_lt hn' ho) hle
  · exact h.calls_eq

theorem attached_old_iff (hw : s.Wired) {n : Nat} (hn : n < s.nextSubscriber) :
    t.Attached n <-> s.Attached n ∧
      s.victim connection (s.sought sessionId combinedLog).2.kind memory ≠
        some n := by
  have hconnection := (h.old_history hn).left
  rw [Attached, hconnection, h.closeHandlers_eq]
  rcases eq_or_ne (s.subscribers n).connection connection with hc | hc
  · rw [hc, Function.update_self]
    constructor
    · rintro ⟨e, he, rfl⟩
      rcases SortedMap.mem_emplace.mp he with hmem | ⟨-, rfl⟩
      · have hhandler := mem_of_mem_handlersLeft hmem
        refine ⟨⟨e, by rw [hc]; exact hhandler, rfl⟩, ?_⟩
        intro hvictim
        rw [victim] at hvictim
        split at hvictim
        · rename_i hover
          have hkey := SortedMap.find?_eq_some_iff.mp hvictim
          rw [handlersLeft, if_pos hover, SortedMap.mem_erase] at hmem
          apply hmem.right
          rw [← (hw.handler hhandler).right.right.left,
            (hw.handler hkey).right.right.left]
        · cases hvictim
      · exact absurd hn (Nat.lt_irrefl _)
    · rintro ⟨⟨e, he, rfl⟩, hvictim⟩
      rw [hc] at he
      refine ⟨e, SortedMap.mem_emplace.mpr (Or.inl ?_), rfl⟩
      rw [handlersLeft]
      split
      · rename_i hover
        rw [SortedMap.mem_erase]
        refine ⟨he, ?_⟩
        intro hkey
        apply hvictim
        rw [victim, if_pos hover, ← hkey]
        exact SortedMap.find?_eq_some_iff.mpr he
      · exact he
  · rw [Function.update_of_ne hc]
    constructor
    · intro hattached
      refine ⟨hattached, ?_⟩
      intro hvictim
      rw [victim] at hvictim
      split at hvictim
      · exact hc (hw.handler (SortedMap.find?_eq_some_iff.mp
          hvictim)).right.left
      · cases hvictim
    · exact And.left

theorem attached_new_iff (hw : s.Wired) : t.Attached s.nextSubscriber <->
    ¬ (s.handlersLeft connection (s.sought sessionId combinedLog).2.kind
      memory).Has (newKey (s.handlersLeft connection
        (s.sought sessionId combinedLog).2.kind memory)) := by
  rcases h.new_eq with ⟨session, hnew, -⟩
  rw [Attached, hnew, h.closeHandlers_eq, newcomer]
  dsimp only
  rw [Function.update_self]
  constructor
  · rintro ⟨e, he, heq⟩
    rcases SortedMap.mem_emplace.mp he with hmem | ⟨hfree, -⟩
    · have hlt := (hw.handler (mem_of_mem_handlersLeft hmem)).left
      exact absurd heq hlt.ne
    · exact hfree
  · intro hfree
    exact ⟨_, SortedMap.mem_emplace.mpr (Or.inr ⟨hfree, rfl⟩), rfl⟩

theorem registered_old_iff (hw : s.Wired) {o n : Nat}
    (hn : n < s.nextSubscriber) : t.Registered o n <-> s.Registered o n := by
  rw [Registered, (h.old_history hn).left, h.mem_objects hw, Registered]
  constructor
  · rintro (hold | ⟨-, -, -, heq⟩)
    · exact hold
    · exact absurd (Prod.mk.inj heq).right hn.ne
  · exact Or.inl

theorem registered_new_iff (hw : s.Wired) {o : Nat} :
    t.Registered o s.nextSubscriber <->
      o = (s.sought sessionId combinedLog).1 ∧
        (s.sought sessionId combinedLog).2.kind ≠
          Kind.online Phase.notEstablished ∧
        ¬ (s.sought sessionId combinedLog).2.subscribers.Has connection := by
  rcases h.new_eq with ⟨session, hnew, -⟩
  rw [Registered, hnew, h.mem_objects hw]
  constructor
  · rintro (hold | ⟨ho, hkind, hkey, -⟩)
    · exact absurd (hw.entry hold).left (Nat.lt_irrefl _)
    · exact ⟨ho, hkind, hkey⟩
  · rintro ⟨ho, hkind, hkey⟩
    exact Or.inr ⟨ho, hkind, hkey, rfl⟩

/-- The session found stays what it is, but for the new entry. -/
theorem object_sought : (t.objects (s.sought sessionId combinedLog).1).kind =
      (s.sought sessionId combinedLog).2.kind ∧
    (t.objects (s.sought sessionId combinedLog).1).receivedLogs =
      (s.sought sessionId combinedLog).2.receivedLogs := by
  rw [h.objects_eq, Function.update_self]
  exact ⟨rfl, rfl⟩

theorem object_old {o : Nat} (ho : o < s.nextObject) :
    (t.objects o).kind = (s.objects o).kind ∧
      (t.objects o).receivedLogs = (s.objects o).receivedLogs := by
  rcases eq_or_ne o (s.sought sessionId combinedLog).1 with rfl | hne
  · rcases h.object_sought with ⟨hkind, hlogs⟩
    rw [hkind, hlogs]
    revert ho
    rw [sought]
    cases s.sessions sessionId with
    | some o => exact fun _ => ⟨rfl, rfl⟩
    | none => exact fun ho => absurd ho (Nat.lt_irrefl _)
  · rw [h.objects_eq, Function.update_of_ne hne]
    exact ⟨rfl, rfl⟩

end Subscribes

/-!
## The step
-/

/-- What an event has done. -/
inductive Outcome (s t : State) : Event -> Prop where
  | leaves {event : Event} {numbers : List Nat}
      (silent : event.Silent)
      (ends : Ends s numbers [] t) : Outcome s t event
  | finishes {sessionId : Str} {numbers : List Nat}
      (ends : Ends s numbers [Notification.sessionClosed] t)
      (found : forall n, n ∈ numbers -> exists o,
        s.sessions sessionId = some o ∧ (s.objects o).kind ≠ Kind.offline ∧
          s.Registered o n)
      (all : forall o n, s.sessions sessionId = some o -> s.Registered o n ->
        (s.objects o).kind ≠ Kind.offline -> n ∈ numbers) :
      Outcome s t (Event.finish sessionId)
  | expires {o : Nat} {aborted : Bool} {numbers : List Nat}
      (ends : Ends s numbers [Notification.sessionNotEstablished] t)
      (found : forall n, n ∈ numbers -> s.Registered o n ∧
        (s.objects o).kind = Kind.online Phase.pending) :
      Outcome s t (Event.timer o aborted)
  | logs {core o : Nat} {entry : LogEntry} (session : s.cores core = some o)
      (logs : Logs s o entry t) : Outcome s t (Event.logEntry core entry)
  | closes {connection : Nat} (closes : Closes s connection t) :
      Outcome s t (Event.close connection)
  | subscribes {connection : Nat} {sessionId : Str}
      {combinedLog : Option (List LogEntry)} {memory : HandlerId}
      (isOpen : s.closed connection = false)
      (subscribes : Subscribes s connection sessionId combinedLog memory t) :
      Outcome s t (Event.subscribe connection sessionId combinedLog memory)

theorem outcome_of_step {s t : State} {event : Event} (hw : s.Wired)
    (hr : s.Registry) (hstep : sessionSystem.step s event = some t) :
    Outcome s t event := by
  rcases handle_of_step hstep with ⟨henabled, hhandle⟩
  cases event with
  | subscribe connection sessionId combinedLog memory =>
      rcases subscribes_handleSubscribe hw hr henabled sessionId combinedLog
        memory with ⟨u, hu, hsubscribes⟩
      have heq : Except.ok u = Except.ok t := hu.symm.trans hhandle
      cases heq
      exact Outcome.subscribes henabled hsubscribes
  | unsubscribe connection sessionId =>
      cases hhandle
      rcases ends_handleUnsubscribe hw connection sessionId with ⟨numbers, h⟩
      exact Outcome.leaves trivial h
  | close connection =>
      cases hhandle
      exact Outcome.closes (closes_closeConnection hw connection)
  | auth core sessionId =>
      exact Outcome.leaves trivial
        (ends_handleAuth hw hr hhandle)
  | logEntry core entry =>
      change s.handleLogEntry core entry = _ at hhandle
      unfold handleLogEntry at hhandle
      split at hhandle
      · cases hhandle
      · rename_i o hcore
        cases hhandle
        exact Outcome.logs hcore (logs_log hw o entry)
  | disconnect core =>
      cases hhandle
      exact Outcome.leaves trivial
        (ends_releaseCore hw core)
  | finish sessionId =>
      cases hhandle
      rcases ends_finishSession hw hr sessionId with ⟨numbers, h, hfound, hall⟩
      exact Outcome.finishes h hfound hall
  | timer o aborted =>
      cases hhandle
      rcases ends_timerCompletes hw o aborted with ⟨numbers, h, hfound⟩
      exact Outcome.expires h hfound

theorem Outcome.wired {s t : State} {event : Event} (h : Outcome s t event)
    (hw : s.Wired) (hr : s.Registry) : t.Wired := by
  cases h with
  | leaves _ ends => exact ends.wired
  | finishes ends _ _ => exact ends.wired
  | expires ends _ => exact ends.wired
  | logs _ logs => exact logs.wired
  | closes closes => exact closes.wired
  | subscribes isOpen subscribes => exact subscribes.wired hw hr isOpen

/-- What a subscriber keeps for good. -/
structure SameOrigin (a b : Subscriber) : Prop where
  sessionId_eq : b.sessionId = a.sessionId
  connection_eq : b.connection = a.connection
  givenId_eq : b.history.givenId = a.history.givenId
  object_eq : b.history.object = a.history.object
  found_eq : b.history.found = a.history.found

theorem Ends.origin {s t : State} {numbers : List Nat}
    {notifications : List Notification} (h : Ends s numbers notifications t)
    (n : Nat) : SameOrigin (s.subscribers n) (t.subscribers n) := by
  by_cases hn : n ∈ numbers ∧ s.Attached n
  · rw [h.left_of_mem hn.left hn.right]
    exact ⟨rfl, rfl, rfl, rfl, rfl⟩
  · rw [h.stays hn]
    exact ⟨rfl, rfl, rfl, rfl, rfl⟩

theorem Logs.origin {s t : State} {o : Nat} {entry : LogEntry}
    (h : Logs s o entry t) (n : Nat) :
    SameOrigin (s.subscribers n) (t.subscribers n) := by
  by_cases hn : s.Registered o n ∧ s.Attached n
  · rw [h.told hn.left hn.right]
    exact ⟨rfl, rfl, rfl, rfl, rfl⟩
  · rw [h.stays hn]
    exact ⟨rfl, rfl, rfl, rfl, rfl⟩

theorem Outcome.origin {s t : State} {event : Event} (h : Outcome s t event)
    {n : Nat} (hn : n < s.nextSubscriber) :
    SameOrigin (s.subscribers n) (t.subscribers n) := by
  cases h with
  | leaves _ ends => exact ends.origin n
  | finishes ends _ _ => exact ends.origin n
  | expires ends _ => exact ends.origin n
  | logs _ logs => exact logs.origin n
  | closes closes =>
      rcases closes.subscriber n with heq | heq <;>
      · rw [heq]
        exact ⟨rfl, rfl, rfl, rfl, rfl⟩
  | subscribes _ subscribes =>
      rcases subscribes.old hn with heq | heq <;>
      · rw [heq]
        exact ⟨rfl, rfl, rfl, rfl, rfl⟩

/-!
## What becomes of a subscriber
-/

/-- A subscriber is there already, or the event has made it. -/
theorem Outcome.old_or_new {s t : State} {event : Event}
    (h : Outcome s t event) {n : Nat} (hn : n < t.nextSubscriber) :
    n < s.nextSubscriber ∨
      exists connection sessionId combinedLog memory,
        event = Event.subscribe connection sessionId combinedLog memory ∧
          Subscribes s connection sessionId combinedLog memory t ∧
          n = s.nextSubscriber := by
  cases h with
  | leaves _ ends => exact Or.inl (ends.nextSubscriber_eq ▸ hn)
  | finishes ends _ _ => exact Or.inl (ends.nextSubscriber_eq ▸ hn)
  | expires ends _ => exact Or.inl (ends.nextSubscriber_eq ▸ hn)
  | logs _ logs => exact Or.inl (logs.nextSubscriber_eq ▸ hn)
  | closes closes => exact Or.inl (closes.nextSubscriber_eq ▸ hn)
  | subscribes _ subscribes =>
      rw [subscribes.nextSubscriber_eq] at hn
      rcases Nat.lt_succ_iff_lt_or_eq.mp hn with hlt | heq
      · exact Or.inl hlt
      · exact Or.inr ⟨_, _, _, _, rfl, subscribes, heq⟩

theorem Outcome.registered_iff {s t : State} {event : Event}
    (h : Outcome s t event) (hw : s.Wired) {o n : Nat}
    (hn : n < s.nextSubscriber) : t.Registered o n <-> s.Registered o n := by
  have hconnection := (h.origin hn).connection_eq
  cases h with
  | leaves _ ends => rw [Registered, hconnection, ends.entries_eq, Registered]
  | finishes ends _ _ =>
      rw [Registered, hconnection, ends.entries_eq, Registered]
  | expires ends _ => rw [Registered, hconnection, ends.entries_eq, Registered]
  | logs _ logs => rw [Registered, hconnection, logs.entries_eq, Registered]
  | closes closes => rw [Registered, hconnection, closes.objects_eq, Registered]
  | subscribes _ subscribes => exact subscribes.registered_old_iff hw hn

theorem Ends.stays_of_attached {s t : State} {numbers : List Nat}
    {notifications : List Notification} (h : Ends s numbers notifications t)
    {n : Nat} (hn : t.Attached n) :
    s.Attached n ∧ t.subscribers n = s.subscribers n := by
  rcases (h.attached_iff n).mp hn with ⟨hattached, hmem⟩
  exact ⟨hattached, h.stays fun hleft => hmem hleft.left⟩

/-- A subscriber that is attached afterwards was attached before, and it has at
most been told an entry. -/
theorem Outcome.of_attached {s t : State} {event : Event}
    (h : Outcome s t event) (hw : s.Wired) {n : Nat}
    (hn : n < s.nextSubscriber) (hattached : t.Attached n) :
    s.Attached n ∧ exists logs, (t.subscribers n).received =
      (s.subscribers n).received ++ List.map Notification.logEntry logs := by
  have hsame : forall {a b : Subscriber}, a.received = b.received ->
      exists logs, a.received =
        b.received ++ List.map Notification.logEntry logs := by
    intro a b heq
    refine ⟨[], ?_⟩
    rw [heq, List.map_nil, List.append_nil]
  cases h with
  | leaves _ ends =>
      rcases ends.stays_of_attached hattached with ⟨hold, heq⟩
      exact ⟨hold, hsame (by rw [heq])⟩
  | finishes ends _ _ =>
      rcases ends.stays_of_attached hattached with ⟨hold, heq⟩
      exact ⟨hold, hsame (by rw [heq])⟩
  | expires ends _ =>
      rcases ends.stays_of_attached hattached with ⟨hold, heq⟩
      exact ⟨hold, hsame (by rw [heq])⟩
  | @logs _ o entry _ logs =>
      have hold := (logs.attached_iff n).mp hattached
      refine ⟨hold, ?_⟩
      by_cases hmem : s.Registered o n ∧ s.Attached n
      · exact ⟨[entry], congrArg _ (logs.told hmem.left hmem.right)⟩
      · exact hsame (by rw [logs.stays hmem])
  | closes closes =>
      refine ⟨((closes.attached_iff n).mp hattached).left, hsame ?_⟩
      rcases closes.subscriber n with heq | heq <;> rw [heq]
  | subscribes _ subscribes =>
      exact ⟨((subscribes.attached_old_iff hw hn).mp hattached).left,
        hsame (subscribes.old_history hn).right.right.left⟩

/-- A session ends only if it lets its subscribers go. -/
theorem Outcome.over {s t : State} {event : Event} (h : Outcome s t event)
    (hw : s.Wired) {o n : Nat} (hn : s.Registered o n) (hattached : t.Attached n)
    (hover : (t.objects o).kind.over = true) :
    (s.objects o).kind.over = true := by
  have hends : forall {numbers notifications},
      Ends s numbers notifications t -> (s.objects o).kind.over = true := by
    intro numbers notifications ends
    rcases ends.over_of hn hover with hold | hmem
    · exact hold
    · exact absurd hmem ((ends.attached_iff n).mp hattached).right
  cases h with
  | leaves _ ends => exact hends ends
  | finishes ends _ _ => exact hends ends
  | expires ends _ => exact hends ends
  | logs _ logs =>
      rw [logs.kind_eq] at hover
      exact hover
  | closes closes =>
      rw [closes.objects_eq] at hover
      exact hover
  | subscribes _ subscribes =>
      rw [(subscribes.object_old (hw.lt_of_registered hn)).left] at hover
      exact hover

/-- No session is pending again. -/
theorem Outcome.pending {s t : State} {event : Event} (h : Outcome s t event)
    (hw : s.Wired) {o n : Nat} (hn : s.Registered o n)
    (hpending : (t.objects o).kind = Kind.online Phase.pending) :
    (s.objects o).kind = Kind.online Phase.pending := by
  cases h with
  | leaves _ ends => exact ends.pending hn hpending
  | finishes ends _ _ => exact ends.pending hn hpending
  | expires ends _ => exact ends.pending hn hpending
  | logs _ logs => rw [← logs.kind_eq, hpending]
  | closes closes => rw [← closes.objects_eq, hpending]
  | subscribes _ subscribes =>
      rw [← (subscribes.object_old (hw.lt_of_registered hn)).left, hpending]

/-- What every reachable state satisfies. -/
structure Sound (s : State) : Prop where
  registry : s.Registry
  wired : s.Wired

theorem sound_initial : initial.Sound :=
  ⟨registry_initial, wired_initial⟩

theorem sound_step {s t : State} {event : Event} (h : s.Sound)
    (hstep : sessionSystem.step s event = some t) :
    t.Sound ∧ Outcome s t event ∧ Grows (s.called event) t := by
  have houtcome := outcome_of_step h.wired h.registry hstep
  rcases registry_step h.registry hstep with ⟨hregistry, hgrows⟩
  exact ⟨⟨hregistry, houtcome.wired h.wired h.registry⟩, houtcome, hgrows⟩

@[simp] theorem called_objects (s : State) (event : Event) :
    (s.called event).objects = s.objects := by
  cases event <;> rfl

@[simp] theorem called_owners (s : State) (event : Event) :
    (s.called event).owners = s.owners := by
  cases event <;> rfl

@[simp] theorem called_nextObject (s : State) (event : Event) :
    (s.called event).nextObject = s.nextObject := by
  cases event <;> rfl

end State

end Cis
end CisWebui
