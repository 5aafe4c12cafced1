import CisWebui.Cis.SessionSteps

/-!
# The end of a session

What a subscriber is told about the end of its session, and what is left of it
then.  A session that is over tells it to every new subscriber at once, while
that is still being subscribed.
-/

namespace CisWebui
namespace Cis

open Cpp
open Foundation

/-- The subscriber has been told the end of its session. -/
def Subscriber.Told (subscriber : Subscriber) : Prop :=
  exists notification, notification ∈ subscriber.received ∧
    notification.terminal = true

instance (subscriber : Subscriber) : Decidable subscriber.Told :=
  inferInstanceAs (Decidable (exists notification, notification ∈ _ ∧ _))

/-- The session was over when the subscriber was passed to it. -/
def Subscriber.late (subscriber : Subscriber) : Bool :=
  subscriber.history.found.any Kind.over

/-- Nothing comes after the end. -/
def Final (received : List Notification) : Prop :=
  forall before notification after,
    received = before ++ notification :: after ->
    notification.terminal = true -> after = []

theorem final_append {received : List Notification}
    (hnone : forall notification, notification ∈ received ->
      notification.terminal = false) (last : Notification) :
    Final (received ++ [last]) := by
  intro before notification after heq hterminal
  rcases List.append_eq_append_iff.mp heq with ⟨rest, hbefore, hrest⟩ |
    ⟨rest, hreceived, hrest⟩
  · cases rest with
    | nil =>
        cases hrest
        rfl
    | cons head tail =>
        have hlength := congrArg List.length hrest
        simp at hlength
  · cases rest with
    | nil =>
        cases hrest
        rfl
    | cons head tail =>
        cases hrest
        have hmem : notification ∈ received := by
          rw [hreceived]
          simp
        rw [hnone notification hmem] at hterminal
        cases hterminal

theorem final_of_none {received : List Notification}
    (hnone : forall notification, notification ∈ received ->
      notification.terminal = false) : Final received := by
  intro before notification after heq hterminal
  have hmem : notification ∈ received := by
    rw [heq]
    simp
  rw [hnone notification hmem] at hterminal
  cases hterminal

theorem not_final_append {received : List Notification}
    {notification : Notification} (hmem : notification ∈ received)
    (hterminal : notification.terminal = true) (last : Notification) :
    ¬ Final (received ++ [last]) := by
  intro hfinal
  rcases List.append_of_mem hmem with ⟨before, after, heq⟩
  have hafter : after ++ [last] = [] := by
    refine hfinal before notification (after ++ [last]) ?_ hterminal
    rw [heq]
    simp
  simp at hafter

namespace State

theorem not_terminal_replayed {object : SessionObject}
    {notification : Notification} (h : notification ∈ replayed object) :
    notification.terminal = false := by
  rw [replayed] at h
  split at h
  · cases h
  · rcases List.mem_map.mp h with ⟨entry, -, heq⟩
    rw [← heq]
    rfl

theorem mem_ending {kind : Kind}
    (hestablished : kind ≠ Kind.online Phase.notEstablished)
    (hover : kind.over = true) : Notification.sessionClosed ∈ ending kind := by
  cases kind with
  | offline => decide
  | online phase =>
      cases phase with
      | finished => decide
      | notEstablished => exact absurd rfl hestablished
      | pending => cases hover
      | inProgress => cases hover

theorem online_of_not_over {kind : Kind} (h : kind.over = false) :
    exists phase, kind = Kind.online phase ∧ phase ≠ Phase.finished := by
  cases kind with
  | offline => cases h
  | online phase =>
      refine ⟨phase, rfl, ?_⟩
      intro heq
      subst heq
      cases h

theorem told_new_iff {object : SessionObject} {subscriber : Subscriber}
    (hreceived : subscriber.received = replayed object ++ ending object.kind) :
    subscriber.Told <-> object.kind.over = true := by
  have hending : (exists notification, notification ∈ ending object.kind ∧
      notification.terminal = true) <-> object.kind.over = true := by
    cases object.kind with
    | offline => decide
    | online phase => cases phase <;> decide
  rw [← hending, Subscriber.Told, hreceived]
  constructor
  · intro h
    rcases h with ⟨notification, hmem, hterminal⟩
    rcases List.mem_append.mp hmem with hlog | hend
    · rw [not_terminal_replayed hlog] at hterminal
      cases hterminal
    · exact ⟨notification, hend, hterminal⟩
  · intro h
    rcases h with ⟨notification, hmem, hterminal⟩
    exact ⟨notification, List.mem_append_right _ hmem, hterminal⟩

theorem told_logs_iff {a b : Subscriber} {logs : List LogEntry}
    (h : b.received = a.received ++ List.map Notification.logEntry logs) :
    b.Told <-> a.Told := by
  rw [Subscriber.Told, Subscriber.Told, h]
  constructor
  · intro htold
    rcases htold with ⟨notification, hmem, hterminal⟩
    rcases List.mem_append.mp hmem with hold | hnew
    · exact ⟨notification, hold, hterminal⟩
    · rcases List.mem_map.mp hnew with ⟨entry, -, heq⟩
      rw [← heq] at hterminal
      cases hterminal
  · intro htold
    rcases htold with ⟨notification, hmem, hterminal⟩
    exact ⟨notification, List.mem_append_left _ hmem, hterminal⟩

theorem SameOrigin.late_eq {a b : Subscriber} (h : SameOrigin a b) :
    b.late = a.late := by
  rw [Subscriber.late, Subscriber.late, h.found_eq]

/-- The subscribers that are attached know when their session is over: those
that have found it so, and nobody else. -/
structure Informed (s : State) : Prop where
  told_iff : forall {n}, n < s.nextSubscriber -> s.Attached n ->
    ((s.subscribers n).Told <-> (s.subscribers n).late = true)
  pending : forall {o n}, s.Registered o n ->
    (s.objects o).kind = Kind.online Phase.pending ->
    (s.subscribers n).late = false
  over_of : forall {o n}, s.Registered o n -> s.Attached n ->
    (s.objects o).kind.over = true ->
    Notification.sessionClosed ∈ (s.subscribers n).received

theorem informed_initial : initial.Informed := by
  constructor
  · intro n hn
    exact absurd hn (Nat.not_lt_zero _)
  · intro o n hn
    cases hn
  · intro o n hn
    cases hn

theorem informed_step {s t : State} {event : Event} (hw : s.Wired)
    (hwt : t.Wired) (hs : s.Informed) (h : Outcome s t event) :
    t.Informed := by
  constructor
  · intro n hn hattached
    rcases h.old_or_new hn with hold | ⟨connection, sessionId, combinedLog,
      memory, -, hsubscribes, rfl⟩
    · rcases h.of_attached hw hold hattached with ⟨hbefore, logs, hlogs⟩
      rw [told_logs_iff hlogs, (h.origin hold).late_eq]
      exact hs.told_iff hold hbefore
    · rcases hsubscribes.new_eq with ⟨session, hnew, -⟩
      rw [hnew]
      exact told_new_iff rfl
  · intro o n hregistered hkind
    rcases h.old_or_new (hwt.entry hregistered).left with hold | ⟨connection,
      sessionId, combinedLog, memory, -, hsubscribes, rfl⟩
    · rw [h.registered_iff hw hold] at hregistered
      rw [(h.origin hold).late_eq]
      exact hs.pending hregistered (h.pending hw hregistered hkind)
    · rcases hsubscribes.new_eq with ⟨session, hnew, -⟩
      rcases (hsubscribes.registered_new_iff hw).mp hregistered with ⟨rfl, -⟩
      rw [hsubscribes.object_sought.left] at hkind
      rw [hnew, newcomer, Subscriber.late, hkind]
      rfl
  · intro o n hregistered hattached hover
    rcases h.old_or_new (hwt.entry hregistered).left with hold | ⟨connection,
      sessionId, combinedLog, memory, -, hsubscribes, rfl⟩
    · rw [h.registered_iff hw hold] at hregistered
      rcases h.of_attached hw hold hattached with ⟨hbefore, logs, hlogs⟩
      rw [hlogs]
      exact List.mem_append_left _ (hs.over_of hregistered hbefore
        (h.over hw hregistered hattached hover))
    · rcases hsubscribes.new_eq with ⟨session, hnew, -⟩
      rcases (hsubscribes.registered_new_iff hw).mp hregistered with
        ⟨rfl, hestablished, -⟩
      rw [hsubscribes.object_sought.left] at hover
      rw [hnew, newcomer]
      dsimp only
      exact List.mem_append_right _ (mem_ending hestablished hover)

/-!
## Nothing after the end
-/

/-- Every subscriber has received at most one notification of the end, and
nothing after it. -/
def AllFinal (s : State) : Prop :=
  forall number, number < s.nextSubscriber ->
    Final (s.subscribers number).received

/-- A session that is about to pass something on holds no subscriber that has
found it over. -/
def NoneLate (s : State) : Event -> Prop
  | Event.logEntry core _ =>
      forall o number, s.cores core = some o -> s.Registered o number ->
        s.Attached number -> (s.subscribers number).late = false
  | Event.finish sessionId =>
      forall o number, s.sessions sessionId = some o ->
        (s.objects o).kind ≠ Kind.offline -> s.Registered o number ->
        s.Attached number -> (s.subscribers number).late = false
  | _ => True

theorem Informed.final_append {s : State} (hs : s.Informed) {n : Nat}
    (hn : n < s.nextSubscriber) (hattached : s.Attached n)
    (hlate : (s.subscribers n).late = false) (last : Notification) :
    Final ((s.subscribers n).received ++ [last]) := by
  apply Cis.final_append
  intro notification hmem
  cases hterminal : notification.terminal with
  | false => rfl
  | true =>
      have htold := (hs.told_iff hn hattached).mp ⟨notification, hmem, hterminal⟩
      rw [hlate] at htold
      cases htold

theorem Informed.late_of_final {s : State} (hs : s.Informed) {n : Nat}
    (hn : n < s.nextSubscriber) (hattached : s.Attached n) {last : Notification}
    (hfinal : Final ((s.subscribers n).received ++ [last])) :
    (s.subscribers n).late = false := by
  cases hlate : (s.subscribers n).late with
  | false => rfl
  | true =>
      rcases (hs.told_iff hn hattached).mpr hlate with
        ⟨notification, hmem, hterminal⟩
      exact absurd hfinal (not_final_append hmem hterminal last)

theorem allFinal_ends {s t : State} (hs : s.Informed) (hfinal : s.AllFinal)
    {numbers : List Nat} {last : Notification} (h : Ends s numbers [last] t)
    (hlate : forall n, n ∈ numbers -> s.Attached n ->
      (s.subscribers n).late = false) : t.AllFinal := by
  intro n hn
  rw [h.nextSubscriber_eq] at hn
  by_cases hleft : n ∈ numbers ∧ s.Attached n
  · rw [h.left_of_mem hleft.left hleft.right]
    exact hs.final_append hn hleft.right (hlate n hleft.left hleft.right) last
  · rw [h.stays hleft]
    exact hfinal n hn

theorem final_new (object : SessionObject) :
    Final (replayed object ++ ending object.kind) := by
  have hnone : Final (replayed object) :=
    final_of_none fun _ hmem => not_terminal_replayed hmem
  have hone : forall last, Final (replayed object ++ [last]) :=
    Cis.final_append fun _ hmem => not_terminal_replayed hmem
  cases object.kind with
  | offline => exact hone _
  | online phase =>
      cases phase with
      | notEstablished => exact hone _
      | finished => exact hone _
      | pending =>
          rw [ending, List.append_nil]
          · exact hnone
          all_goals
            intro heq
            cases heq
      | inProgress =>
          rw [ending, List.append_nil]
          · exact hnone
          all_goals
            intro heq
            cases heq

theorem allFinal_step {s t : State} {event : Event} (hs : s.Informed)
    (hfinal : s.AllFinal) (hnone : s.NoneLate event) (h : Outcome s t event) :
    t.AllFinal := by
  cases h with
  | @leaves _ numbers _ ends =>
      intro n hn
      rw [ends.nextSubscriber_eq] at hn
      have hsame : (t.subscribers n).received = (s.subscribers n).received := by
        by_cases hleft : n ∈ numbers ∧ s.Attached n
        · rw [ends.left_of_mem hleft.left hleft.right]
          exact List.append_nil _
        · rw [ends.stays hleft]
      rw [hsame]
      exact hfinal n hn
  | finishes ends found _ =>
      refine allFinal_ends hs hfinal ends ?_
      intro n hn hattached
      rcases found n hn with ⟨o, ho, hkind, hregistered⟩
      exact hnone o n ho hkind hregistered hattached
  | expires ends found =>
      refine allFinal_ends hs hfinal ends ?_
      intro n hn _
      rcases found n hn with ⟨hregistered, hkind⟩
      exact hs.pending hregistered hkind
  | @logs core o entry session logs =>
      intro n hn
      rw [logs.nextSubscriber_eq] at hn
      by_cases hmem : s.Registered o n ∧ s.Attached n
      · rw [logs.told hmem.left hmem.right]
        exact hs.final_append hn hmem.right
          (hnone o n session hmem.left hmem.right) _
      · rw [logs.stays hmem]
        exact hfinal n hn
  | closes closes =>
      intro n hn
      rw [closes.nextSubscriber_eq] at hn
      have hsame : (t.subscribers n).received = (s.subscribers n).received := by
        rcases closes.subscriber n with heq | heq <;> rw [heq]
      rw [hsame]
      exact hfinal n hn
  | subscribes isOpen subscribes =>
      intro n hn
      rcases (Outcome.subscribes isOpen subscribes).old_or_new hn with hold |
        ⟨_, _, _, _, -, -, rfl⟩
      · rw [(subscribes.old_history hold).right.right.left]
        exact hfinal n hold
      · rcases subscribes.new_eq with ⟨session, hnew, -⟩
        rw [hnew]
        exact final_new _

theorem noneLate_of_allFinal {s t : State} {event : Event} (hw : s.Wired)
    (hs : s.Informed) (h : Outcome s t event) (hfinal : t.AllFinal) :
    s.NoneLate event := by
  cases h with
  | leaves silent _ =>
      cases event with
      | finish _ => cases silent
      | logEntry _ _ => cases silent
      | _ => trivial
  | finishes ends _ all =>
      intro o n ho hkind hregistered hattached
      have hmem := all o n ho hregistered hkind
      have hn := (hw.entry hregistered).left
      have hlast := hfinal n (by rw [ends.nextSubscriber_eq]; exact hn)
      rw [ends.left_of_mem hmem hattached] at hlast
      exact hs.late_of_final hn hattached hlast
  | logs session logs =>
      intro o n ho hregistered hattached
      rw [session] at ho
      cases ho
      have hn := (hw.entry hregistered).left
      have hlast := hfinal n (by rw [logs.nextSubscriber_eq]; exact hn)
      rw [logs.told hregistered hattached] at hlast
      exact hs.late_of_final hn hattached hlast
  | expires _ _ => trivial
  | closes _ => trivial
  | subscribes _ _ => trivial

/-- In a run every state leaves the end final just when, before each entry and
each end that is passed on, no subscriber of the session has found it over. -/
theorem everyState_allFinal_iff (es : List Event) :
    sessionSystem.EveryState AllFinal initial es <->
      sessionSystem.EveryStep NoneLate initial es := by
  have hinitial : initial.Sound ∧ initial.Informed ∧ initial.AllFinal := by
    refine ⟨sound_initial, informed_initial, ?_⟩
    intro n hn
    exact absurd hn (Nat.not_lt_zero _)
  refine @EventSystem.everyState_iff_everyStep _ _ sessionSystem
    (fun s => s.Sound ∧ s.Informed ∧ s.AllFinal) AllFinal NoneLate ?_ ?_ ?_ _ _
    hinitial
  · intro s event t hs hnone hstep
    rcases hs with ⟨hsound, hinformed, hfinal⟩
    rcases sound_step hsound hstep with ⟨hnext, houtcome, -⟩
    exact ⟨hnext, informed_step hsound.wired hnext.wired hinformed houtcome,
      allFinal_step hinformed hfinal hnone houtcome⟩
  · intro s event t hs hstep hfinal
    rcases hs with ⟨hsound, hinformed, -⟩
    rcases sound_step hsound hstep with ⟨-, houtcome, -⟩
    exact noneLate_of_allFinal hsound.wired hinformed houtcome hfinal
  · intro s hs
    exact hs.right.right

/-- A client subscribes to a session that has finished, and then an entry is
logged. -/
def lateRun : List Event :=
  [Event.auth 0 [83], Event.finish [83], Event.subscribe 0 [83] none 0,
    Event.logEntry 0 { time := 0, action := [97], message := [109] }]

theorem everyState_allFinal_not_everywhere :
    ¬ forall es, sessionSystem.EveryState AllFinal initial es := by
  intro h
  let s := (sessionSystem.runFrom initial lateRun).get (by decide)
  have hrun : sessionSystem.runFrom initial lateRun = some s :=
    (Option.some_get _).symm
  have hfinal : s.AllFinal := EventSystem.everyState_last (h lateRun) hrun
  have hafter := hfinal 0 (by decide) [] Notification.sessionClosed
    [Notification.logEntry { time := 0, action := [97], message := [109] }]
    (by decide) rfl
  cases hafter

/-!
## A session whose end has been reported
-/

/-- The subscriber is in the list of a live session that has not finished, and
it has not been sent `session_closed`. -/
def Waits (s : State) (o number : Nat) : Prop :=
  s.Alive o ∧ s.Registered o number ∧ s.Attached number ∧
    (exists phase, (s.objects o).kind = Kind.online phase ∧
      phase ≠ Phase.finished) ∧
    ¬ Notification.sessionClosed ∈ (s.subscribers number).received

/-- Nobody waits for a session for which `finish_session` has been called. -/
def NoneWaits (s : State) : Prop :=
  forall o number, s.finishCalled (s.objects o).id = true -> ¬ s.Waits o number

/-- A request to subscribe after `finish_session` does not find the session
pending or in progress, or it leaves no subscriber behind. -/
def FindsEnd (s : State) : Event -> Prop
  | Event.subscribe connection sessionId combinedLog _ =>
      s.finishCalled sessionId = true ->
      (s.sought sessionId combinedLog).2.kind.over = false ->
      (s.sought sessionId combinedLog).2.subscribers.Has connection ∨
        (s.closeHandlers connection).Has (newKey (s.closeHandlers connection))
  | _ => True

/-- Whoever is attached to such a session has been sent `session_closed`. -/
def AllClosed (s : State) : Prop :=
  forall {o n}, s.finishCalled (s.objects o).id = true -> s.Alive o ->
    s.Registered o n -> s.Attached n ->
    Notification.sessionClosed ∈ (s.subscribers n).received

theorem called_finishCalled (s : State) (event : Event) {sessionId : Str}
    (h : (s.called event).finishCalled sessionId = true) :
    s.finishCalled sessionId = true ∨ event = Event.finish sessionId := by
  cases event with
  | finish other =>
      rw [called] at h
      dsimp only at h
      rcases eq_or_ne sessionId other with heq | hne
      · rw [heq]
        exact Or.inr rfl
      · rw [Function.update_of_ne hne] at h
        exact Or.inl h
  | _ => exact Or.inl h

theorem allClosed_step {s t : State} {event : Event} (hsound : s.Sound)
    (hwt : t.Wired) (hs : s.Informed) (hclosed : s.AllClosed)
    (hfinds : s.FindsEnd event) (h : Outcome s t event)
    (hgrows : Grows (s.called event) t) : t.AllClosed := by
  intro o n hfinish halive hregistered hattached
  have hw := hsound.wired
  rcases h.old_or_new (hwt.entry hregistered).left with hold | ⟨connection,
    sessionId, combinedLog, memory, rfl, hsubscribes, rfl⟩
  · rw [h.registered_iff hw hold] at hregistered
    have ho : o < (s.called event).nextObject := by
      rw [called_nextObject]
      exact hw.lt_of_registered hregistered
    have hid : (t.objects o).id = (s.objects o).id := by
      rw [hgrows.id_eq ho, called_objects]
    have halive' : s.Alive o := by
      have hcalled := hgrows.alive ho halive
      rw [Alive, called_owners] at hcalled
      exact hcalled
    rcases h.of_attached hw hold hattached with ⟨hbefore, logs, hlogs⟩
    rw [hlogs]
    apply List.mem_append_left
    rw [hgrows.finishCalled_eq, hid] at hfinish
    rcases called_finishCalled s event hfinish with hcalled | heq
    · exact hclosed hcalled halive' hregistered hbefore
    · subst heq
      cases h with
      | leaves silent _ => cases silent
      | finishes ends _ all =>
          have hfound := hsound.registry.sessions_of_alive halive'
          by_cases hkind : (s.objects o).kind = Kind.offline
          · apply hs.over_of hregistered hbefore
            rw [hkind]
            rfl
          · exact absurd (all o n hfound hregistered hkind)
              ((ends.attached_iff n).mp hattached).right
  · rcases (hsubscribes.registered_new_iff hw).mp hregistered with
      ⟨rfl, hestablished, hentry⟩
    rw [hsubscribes.attached_new_iff hw] at hattached
    rw [hsubscribes.objects_eq, Function.update_self] at hfinish
    dsimp only at hfinish
    rw [sought_id hsound.registry, hgrows.finishCalled_eq] at hfinish
    cases hover : (s.sought sessionId combinedLog).2.kind.over with
    | true =>
        rcases hsubscribes.new_eq with ⟨session, hnew, -⟩
        rw [hnew, newcomer]
        exact List.mem_append_right _ (mem_ending hestablished hover)
    | false =>
        rw [handlersLeft, hover, if_neg (by simp)] at hattached
        rcases hfinds hfinish hover with hhas | hkey
        · exact absurd hhas hentry
        · exact absurd hkey hattached

theorem findsEnd_of_noneWaits {s t : State} {event : Event} (hsound : s.Sound)
    (h : Outcome s t event) (hgrows : Grows (s.called event) t)
    (hnone : t.NoneWaits) : s.FindsEnd event := by
  cases h with
  | leaves silent _ =>
      cases event with
      | subscribe _ _ _ _ => cases silent
      | _ => trivial
  | @subscribes connection sessionId combinedLog memory _ subscribes =>
      intro hfinish hover
      by_contra hfree
      rw [not_or] at hfree
      have hw := hsound.wired
      have hleft : s.handlersLeft connection
          (s.sought sessionId combinedLog).2.kind memory =
            s.closeHandlers connection := by
        rw [handlersLeft, hover, if_neg (by simp)]
      have hkey := hfree.right
      rw [← hleft] at hkey
      rcases subscribes.new_eq with ⟨session, hnew, -⟩
      refine hnone (s.sought sessionId combinedLog).1 s.nextSubscriber ?_
        ⟨subscribes.alive hkey, ?_, ?_, ?_, ?_⟩
      · rw [subscribes.objects_eq, Function.update_self,
          hgrows.finishCalled_eq]
        dsimp only
        rw [sought_id hsound.registry]
        exact hfinish
      · rw [subscribes.registered_new_iff hw]
        refine ⟨rfl, ?_, hfree.left⟩
        intro hkind
        rw [hkind] at hover
        cases hover
      · exact (subscribes.attached_new_iff hw).mpr hkey
      · rw [subscribes.object_sought.left]
        exact online_of_not_over hover
      · intro hmem
        rw [hnew] at hmem
        have htold : (s.newcomer connection sessionId combinedLog memory
            session).Told := ⟨_, hmem, rfl⟩
        rw [told_new_iff rfl, hover] at htold
        cases htold
  | finishes _ _ _ => trivial
  | expires _ _ => trivial
  | logs _ _ => trivial
  | closes _ => trivial

/-- In a run nobody ever waits for a session after `finish_session` has been
called for it just when no request to subscribe finds such a session pending or
in progress. -/
theorem everyState_noneWaits_iff (es : List Event) :
    sessionSystem.EveryState NoneWaits initial es <->
      sessionSystem.EveryStep FindsEnd initial es := by
  have hinitial : initial.Sound ∧ initial.Informed ∧ initial.AllClosed := by
    refine ⟨sound_initial, informed_initial, ?_⟩
    intro o n hfinish
    cases hfinish
  refine @EventSystem.everyState_iff_everyStep _ _ sessionSystem
    (fun s => s.Sound ∧ s.Informed ∧ s.AllClosed) NoneWaits FindsEnd ?_ ?_ ?_
    _ _ hinitial
  · intro s event t hs hfinds hstep
    rcases hs with ⟨hsound, hinformed, hclosed⟩
    rcases sound_step hsound hstep with ⟨hnext, houtcome, hgrows⟩
    exact ⟨hnext, informed_step hsound.wired hnext.wired hinformed houtcome,
      allClosed_step hsound hnext.wired hinformed hclosed hfinds houtcome hgrows⟩
  · intro s event t hs hstep hnone
    rcases sound_step hs.left hstep with ⟨-, houtcome, hgrows⟩
    exact findsEnd_of_noneWaits hs.left houtcome hgrows hnone
  · intro s hs o n hfinish hwaits
    rcases hwaits with ⟨halive, hregistered, hattached, -, hmissing⟩
    exact hmissing (hs.right.right hfinish halive hregistered hattached)

/-- The job ends before the core connects for its session, and a client
subscribes after both. -/
def shortJobRun : List Event :=
  [Event.finish [83], Event.auth 0 [83], Event.subscribe 0 [83] none 0]

theorem everyState_noneWaits_not_everywhere :
    ¬ forall es, sessionSystem.EveryState NoneWaits initial es := by
  intro h
  let s := (sessionSystem.runFrom initial shortJobRun).get (by decide)
  have hrun : sessionSystem.runFrom initial shortJobRun = some s :=
    (Option.some_get _).symm
  have hnone : s.NoneWaits := EventSystem.everyState_last (h shortJobRun) hrun
  exact hnone 0 0 (by decide) ⟨by decide, by decide, by decide,
    ⟨Phase.inProgress, by decide, by decide⟩, by decide⟩

/-!
## What is left of a subscription
-/

/-- A call of `remove_close_handler` with the id that its caller was given, by
which nobody else's handler has gone. -/
def Removal.Own (removal : Removal) : Prop :=
  removal.givenId = some removal.id ∧
    (removal.removed = none ∨ removal.removed = some removal.subscriber)

/-- A subscriber that has been told the end or has been unsubscribed has neither
a close handler nor a session, and all handlers were removed by their owners. -/
def TornDown (s : State) : Prop :=
  (forall number, number < s.nextSubscriber ->
    (s.subscribers number).Told ∨
      (s.subscribers number).history.ended = true ->
    ¬ s.Attached number ∧ (s.subscribers number).session = none) ∧
  forall removal, removal ∈ s.removals -> Removal.Own removal

/-- A request to subscribe does not find its session over. -/
def FindsLive (s : State) : Event -> Prop
  | Event.subscribe _ sessionId combinedLog _ =>
      (s.sought sessionId combinedLog).2.kind.over = false
  | _ => True

theorem own_ownRemoval {s : State} (hw : s.Wired) {n : Nat}
    (hattached : s.Attached n) : Removal.Own (s.ownRemoval n) :=
  ⟨(hw.handler (hw.attached_iff.mp hattached)).right.right.right, Or.inr rfl⟩

theorem tornDown_ends {s t : State} (hw : s.Wired) (hs : s.TornDown)
    {numbers : List Nat} {notifications : List Notification}
    (h : Ends s numbers notifications t) : t.TornDown := by
  constructor
  · intro n hn hgone
    rw [h.nextSubscriber_eq] at hn
    rw [h.attached_iff]
    by_cases hleft : n ∈ numbers ∧ s.Attached n
    · refine ⟨fun hattached => hattached.right hleft.left, ?_⟩
      rw [h.left_of_mem hleft.left hleft.right]
      rfl
    · rw [h.stays hleft] at hgone ⊢
      rcases hs.left n hn hgone with ⟨hattached, hsession⟩
      exact ⟨fun hboth => hattached hboth.left, hsession⟩
  · intro removal hmem
    rcases h.removals removal hmem with hold | ⟨n, hattached, heq⟩
    · exact hs.right removal hold
    · rw [heq]
      exact own_ownRemoval hw hattached

theorem tornDown_logs {s t : State} (hs : s.TornDown) {o : Nat}
    {entry : LogEntry} (h : Logs s o entry t) : t.TornDown := by
  constructor
  · intro n hn hgone
    rw [h.nextSubscriber_eq] at hn
    rw [h.attached_iff]
    by_cases hmem : s.Registered o n ∧ s.Attached n
    · rw [h.told hmem.left hmem.right] at hgone ⊢
      have hlogs : (s.tell n (Notification.logEntry entry)).received =
          (s.subscribers n).received ++
            List.map Notification.logEntry [entry] := rfl
      rw [told_logs_iff hlogs] at hgone
      exact hs.left n hn hgone
    · rw [h.stays hmem] at hgone ⊢
      exact hs.left n hn hgone
  · rw [h.removals_eq]
    exact hs.right

theorem tornDown_closes {s t : State} (hs : s.TornDown) {connection : Nat}
    (h : Closes s connection t) : t.TornDown := by
  constructor
  · intro n hn hgone
    rw [h.nextSubscriber_eq] at hn
    rw [h.attached_iff]
    rcases h.subscriber n with heq | heq
    · rw [heq] at hgone ⊢
      rcases hs.left n hn hgone with ⟨hattached, hsession⟩
      exact ⟨fun hboth => hattached hboth.left, hsession⟩
    · rw [heq] at hgone ⊢
      exact ⟨fun hboth => (hs.left n hn hgone).left hboth.left, rfl⟩
  · rw [h.removals_eq]
    exact hs.right

theorem tornDown_subscribes {s t : State} (hw : s.Wired) (hs : s.TornDown)
    {connection : Nat} {sessionId : Str} {combinedLog : Option (List LogEntry)}
    {memory : HandlerId}
    (h : Subscribes s connection sessionId combinedLog memory t)
    (hlive : (s.sought sessionId combinedLog).2.kind.over = false) :
    t.TornDown := by
  constructor
  · intro n hn hgone
    rw [h.nextSubscriber_eq] at hn
    rcases Nat.lt_succ_iff_lt_or_eq.mp hn with hlt | rfl
    · rw [h.attached_old_iff hw hlt]
      rcases h.old hlt with heq | heq
      · rw [heq] at hgone ⊢
        rcases hs.left n hlt hgone with ⟨hattached, hsession⟩
        exact ⟨fun hboth => hattached hboth.left, hsession⟩
      · rw [heq] at hgone ⊢
        exact ⟨fun hboth => (hs.left n hlt hgone).left hboth.left, rfl⟩
    · rcases h.new_eq with ⟨session, hnew, -⟩
      rw [hnew] at hgone
      rcases hgone with htold | hended
      · rw [told_new_iff rfl, hlive] at htold
        cases htold
      · have hover : (s.sought sessionId combinedLog).2.kind.over = true := hended
        rw [hlive] at hover
        cases hover
  · rw [h.removals_eq, hlive, if_neg (by simp), List.append_nil]
    exact hs.right

theorem tornDown_step {s t : State} {event : Event} (hw : s.Wired)
    (hs : s.TornDown) (hlive : s.FindsLive event) (h : Outcome s t event) :
    t.TornDown := by
  cases h with
  | leaves _ ends => exact tornDown_ends hw hs ends
  | finishes ends _ _ => exact tornDown_ends hw hs ends
  | expires ends _ => exact tornDown_ends hw hs ends
  | logs _ logs => exact tornDown_logs hs logs
  | closes closes => exact tornDown_closes hs closes
  | subscribes _ subscribes => exact tornDown_subscribes hw hs subscribes hlive

theorem findsLive_of_tornDown {s t : State} {event : Event}
    (h : Outcome s t event) (hs : t.TornDown) : s.FindsLive event := by
  cases h with
  | leaves silent _ =>
      cases event with
      | subscribe _ _ _ _ => cases silent
      | _ => trivial
  | @subscribes connection sessionId combinedLog memory _ subscribes =>
      change (s.sought sessionId combinedLog).2.kind.over = false
      cases hover : (s.sought sessionId combinedLog).2.kind.over with
      | false => rfl
      | true =>
          -- the subscriber is unsubscribed before it is given an id
          have hremovals := subscribes.removals_eq
          rw [hover, if_pos rfl] at hremovals
          have howns := hs.right _ (by
            rw [hremovals]
            exact List.mem_append_right _ (List.mem_singleton.mpr rfl))
          cases howns.left
  | finishes _ _ _ => trivial
  | expires _ _ => trivial
  | logs _ _ => trivial
  | closes _ => trivial

/-- In a run every subscription is torn down in full, and by its owner, just
when no request to subscribe finds its session over. -/
theorem everyState_tornDown_iff (es : List Event) :
    sessionSystem.EveryState TornDown initial es <->
      sessionSystem.EveryStep FindsLive initial es := by
  have hinitial : initial.Sound ∧ initial.TornDown := by
    refine ⟨sound_initial, ?_, ?_⟩
    · intro n hn
      exact absurd hn (Nat.not_lt_zero _)
    · intro removal hmem
      cases hmem
  refine @EventSystem.everyState_iff_everyStep _ _ sessionSystem
    (fun s => s.Sound ∧ s.TornDown) TornDown FindsLive ?_ ?_ ?_ _ _ hinitial
  · intro s event t hs hlive hstep
    rcases sound_step hs.left hstep with ⟨hnext, houtcome, -⟩
    exact ⟨hnext, tornDown_step hs.left.wired hs.right hlive houtcome⟩
  · intro s event t hs hstep htorn
    rcases sound_step hs.left hstep with ⟨-, houtcome, -⟩
    exact findsLive_of_tornDown houtcome htorn
  · intro s hs
    exact hs.right

/-- A client subscribes to a session that is only in the logs. -/
theorem everyState_tornDown_not_everywhere :
    ¬ forall es, sessionSystem.EveryState TornDown initial es := by
  intro h
  let s := (sessionSystem.runFrom initial
    [Event.subscribe 0 [83] (some []) 0]).get (by decide)
  have hrun : sessionSystem.runFrom initial
      [Event.subscribe 0 [83] (some []) 0] = some s := (Option.some_get _).symm
  have htorn : s.TornDown := EventSystem.everyState_last (h _) hrun
  have hgone := htorn.left 0 (by decide) (Or.inr (by decide))
  exact hgone.left (by decide)

end State

end Cis
end CisWebui
