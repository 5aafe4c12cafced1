import CisWebui.Cis.SessionSteps

/-!
# What subscribers receive of the log

The history a subscriber is sent when it subscribes is what the session has
received so far, and an entry it is told later comes right after that.
-/

namespace CisWebui
namespace Cis

open Cpp
open Foundation

/-- The entries among the messages. -/
def logged (received : List Notification) : List LogEntry :=
  received.filterMap fun notification =>
    match notification with
    | Notification.logEntry entry => some entry
    | _ => none

@[simp] theorem logged_append (a b : List Notification) :
    logged (a ++ b) = logged a ++ logged b :=
  List.filterMap_append

@[simp] theorem logged_map (logs : List LogEntry) :
    logged (logs.map Notification.logEntry) = logs := by
  induction logs with
  | nil => rfl
  | cons entry logs ih =>
      change entry :: logged (logs.map Notification.logEntry) = _
      rw [ih]

@[simp] theorem logged_ending (kind : Kind) :
    logged (State.ending kind) = [] := by
  cases kind with
  | offline => rfl
  | online phase => cases phase <;> rfl

theorem logged_replayed (object : SessionObject) :
    logged (State.replayed object) <+: object.receivedLogs := by
  rw [State.replayed]
  split
  · exact List.nil_prefix
  · simp

namespace State

/-- What a subscriber has received of the log of its session: a part from its
beginning, and all of it as long as it is to be told more. -/
structure Delivers (s : State) : Prop where
  session : forall {n}, n < s.nextSubscriber -> exists o,
    (s.subscribers n).history.object = some o ∧
      (s.objects o).id = (s.subscribers n).sessionId
  prefix_of : forall {n o}, n < s.nextSubscriber ->
    (s.subscribers n).history.object = some o ->
    logged (s.subscribers n).received <+: (s.objects o).receivedLogs
  eq_of : forall {n o}, s.Registered o n -> s.Attached n ->
    logged (s.subscribers n).received = (s.objects o).receivedLogs

/-- The part of it that is about the entries, which every step keeps for a
reason of its own. -/
structure Follows (s : State) : Prop where
  prefix_of : forall {n o}, n < s.nextSubscriber ->
    (s.subscribers n).history.object = some o ->
    logged (s.subscribers n).received <+: (s.objects o).receivedLogs
  eq_of : forall {n o}, s.Registered o n -> s.Attached n ->
    logged (s.subscribers n).received = (s.objects o).receivedLogs

theorem delivers_initial : initial.Delivers := by
  constructor
  · intro n hn
    exact absurd hn (Nat.not_lt_zero _)
  · intro n o hn
    exact absurd hn (Nat.not_lt_zero _)
  · intro n o hn
    cases hn

theorem Ends.logged_eq {s t : State} {numbers : List Nat}
    {notifications : List Notification} (h : Ends s numbers notifications t)
    (hnone : logged notifications = []) (n : Nat) :
    logged (t.subscribers n).received = logged (s.subscribers n).received := by
  by_cases hn : n ∈ numbers ∧ s.Attached n
  · rw [h.left_of_mem hn.left hn.right, Subscriber.left, logged_append, hnone,
      List.append_nil]
  · rw [h.stays hn]

theorem follows_ends {s t : State} (hw : s.Wired) (hs : s.Delivers)
    {numbers : List Nat} {notifications : List Notification}
    (h : Ends s numbers notifications t) (hnone : logged notifications = []) :
    t.Follows := by
  constructor
  · intro n o hn ho
    rw [h.nextSubscriber_eq] at hn
    rw [(h.origin n).object_eq] at ho
    rw [h.logged_eq hnone, h.logs_eq (hw.object_lt hn ho)]
    exact hs.prefix_of hn ho
  · intro n o hregistered hattached
    rw [Registered, (h.origin n).connection_eq, h.entries_eq] at hregistered
    rw [h.logged_eq hnone, h.logs_eq (hw.lt_of_registered hregistered)]
    exact hs.eq_of hregistered ((h.attached_iff n).mp hattached).left

theorem follows_logs {s t : State} (hw : s.Wired) (hs : s.Delivers) {o : Nat}
    {entry : LogEntry} (h : Logs s o entry t) :
    t.Follows := by
  have hlogs : (t.objects o).receivedLogs =
      (s.objects o).receivedLogs ++ [entry] := by
    rw [h.object_eq, Function.update_self]
  have hother : forall {p}, p ≠ o ->
      (t.objects p).receivedLogs = (s.objects p).receivedLogs := by
    intro p hp
    rw [h.object_eq, Function.update_of_ne hp]
  have htold : forall {n}, s.Registered o n -> s.Attached n ->
      logged (t.subscribers n).received = (t.objects o).receivedLogs := by
    intro n hregistered hattached
    rw [h.told hregistered hattached, tell, logged_append,
      hs.eq_of hregistered hattached, hlogs]
    rfl
  constructor
  · intro n p hn hp
    rw [h.nextSubscriber_eq] at hn
    rw [(h.origin n).object_eq] at hp
    by_cases hmem : s.Registered o n ∧ s.Attached n
    · have heq : p = o := by
        have hobject := (hw.entry hmem.left).right.right
        rw [hp] at hobject
        exact Option.some.inj hobject
      rw [heq]
      exact ⟨[], (List.append_nil _).trans (htold hmem.left hmem.right)⟩
    · rw [h.stays hmem]
      refine (hs.prefix_of hn hp).trans ?_
      rcases eq_or_ne p o with rfl | hne
      · rw [hlogs]
        exact List.prefix_append _ _
      · exact ⟨[], (List.append_nil _).trans (hother hne).symm⟩
  · intro n p hregistered hattached
    rw [Registered, (h.origin n).connection_eq, h.entries_eq] at hregistered
    rw [h.attached_iff] at hattached
    rcases eq_or_ne p o with rfl | hne
    · exact htold hregistered hattached
    · have hmem : ¬ (s.Registered o n ∧ s.Attached n) := by
        rintro ⟨hown, -⟩
        have hobject := (hw.entry hown).right.right
        rw [(hw.entry hregistered).right.right] at hobject
        exact hne (Option.some.inj hobject)
      rw [h.stays hmem, hother hne]
      exact hs.eq_of hregistered hattached

theorem follows_subscribes {s t : State} (hw : s.Wired) (hs : s.Delivers)
    {connection : Nat} {sessionId : Str} {combinedLog : Option (List LogEntry)}
    {memory : HandlerId}
    (h : Subscribes s connection sessionId combinedLog memory t) :
    t.Follows := by
  rcases h.new_eq with ⟨session, hnew, -⟩
  have hreceived : logged (t.subscribers s.nextSubscriber).received =
      logged (replayed (s.sought sessionId combinedLog).2) := by
    rw [hnew, newcomer]
    simp
  rcases h.object_sought with ⟨hkind, hlogs⟩
  constructor
  · intro n p hn hp
    rw [h.nextSubscriber_eq] at hn
    rcases Nat.lt_succ_iff_lt_or_eq.mp hn with hlt | rfl
    · rcases h.old_history hlt with ⟨-, -, hsame, hhistory⟩
      rw [hhistory] at hp
      rw [hsame, (h.object_old (hw.object_lt hlt hp)).right]
      exact hs.prefix_of hlt hp
    · rw [hnew] at hp
      cases hp
      rw [hreceived, hlogs]
      exact logged_replayed _
  · intro n p hregistered hattached
    have hn : n < s.nextSubscriber ∨ n = s.nextSubscriber := by
      rcases (h.mem_objects hw).mp hregistered with hmem | ⟨-, -, -, heq⟩
      · exact Or.inl (hw.entry hmem).left
      · exact Or.inr (Prod.mk.inj heq).right
    rcases hn with hlt | rfl
    · rw [h.registered_old_iff hw hlt] at hregistered
      rw [h.attached_old_iff hw hlt] at hattached
      rcases h.old_history hlt with ⟨-, -, hsame, -⟩
      rw [hsame, (h.object_old (hw.lt_of_registered hregistered)).right]
      exact hs.eq_of hregistered hattached.left
    · rcases (h.registered_new_iff hw).mp hregistered with ⟨rfl, hestablished, -⟩
      rw [hreceived, hlogs, replayed, if_neg hestablished, logged_map]

theorem follows_closes {s t : State} (hs : s.Delivers) {connection : Nat}
    (h : Closes s connection t) :
    t.Follows := by
  have hsame : forall n, (t.subscribers n).connection =
        (s.subscribers n).connection ∧
      (t.subscribers n).received = (s.subscribers n).received ∧
      (t.subscribers n).history = (s.subscribers n).history := by
    intro n
    rcases h.subscriber n with heq | heq <;>
    · rw [heq]
      exact ⟨rfl, rfl, rfl⟩
  constructor
  · intro n p hn hp
    rcases hsame n with ⟨-, hreceived, hhistory⟩
    rw [h.nextSubscriber_eq] at hn
    rw [hhistory] at hp
    rw [hreceived, h.objects_eq]
    exact hs.prefix_of hn hp
  · intro n p hregistered hattached
    rcases hsame n with ⟨hconnection, hreceived, -⟩
    rw [Registered, hconnection, h.objects_eq] at hregistered
    rw [hreceived, h.objects_eq]
    exact hs.eq_of hregistered ((h.attached_iff n).mp hattached).left

/-- A subscriber belongs to a session with its id. -/
theorem session_step {s t : State} {event : Event} (hw : s.Wired)
    (hr : s.Registry) (hs : s.Delivers) (h : Outcome s t event)
    (hgrows : Grows (s.called event) t) {n : Nat} (hn : n < t.nextSubscriber) :
    exists o, (t.subscribers n).history.object = some o ∧
      (t.objects o).id = (t.subscribers n).sessionId := by
  have hold : n < s.nextSubscriber -> exists o,
      (t.subscribers n).history.object = some o ∧
        (t.objects o).id = (t.subscribers n).sessionId := by
    intro hlt
    rcases hs.session hlt with ⟨o, ho, hid⟩
    have horigin := h.origin hlt
    have hbound : o < (s.called event).nextObject := by
      rw [called_nextObject]
      exact hw.object_lt hlt ho
    refine ⟨o, horigin.object_eq.trans ho, ?_⟩
    rw [hgrows.id_eq hbound, called_objects, hid, horigin.sessionId_eq]
  cases h with
  | leaves _ ends =>
      rw [ends.nextSubscriber_eq] at hn
      exact hold hn
  | finishes ends _ _ =>
      rw [ends.nextSubscriber_eq] at hn
      exact hold hn
  | expires ends _ =>
      rw [ends.nextSubscriber_eq] at hn
      exact hold hn
  | logs _ logs =>
      rw [logs.nextSubscriber_eq] at hn
      exact hold hn
  | closes closes =>
      rw [closes.nextSubscriber_eq] at hn
      exact hold hn
  | @subscribes connection sessionId combinedLog memory _ subscribes =>
      rw [subscribes.nextSubscriber_eq] at hn
      rcases Nat.lt_succ_iff_lt_or_eq.mp hn with hlt | rfl
      · exact hold hlt
      · rcases subscribes.new_eq with ⟨session, hnew, -⟩
        refine ⟨(s.sought sessionId combinedLog).1, ?_, ?_⟩
        · rw [hnew]
          rfl
        · rw [hnew, subscribes.objects_eq, Function.update_self]
          exact sought_id hr sessionId combinedLog

theorem delivers_step {s t : State} {event : Event} (hsound : s.Sound)
    (hs : s.Delivers) (h : Outcome s t event)
    (hgrows : Grows (s.called event) t) : t.Delivers := by
  have hw := hsound.wired
  have hlogs : t.Follows := by
    cases h with
    | leaves _ ends => exact follows_ends hw hs ends rfl
    | finishes ends _ _ => exact follows_ends hw hs ends rfl
    | expires ends _ => exact follows_ends hw hs ends rfl
    | logs _ logs => exact follows_logs hw hs logs
    | closes closes => exact follows_closes hs closes
    | subscribes _ subscribes => exact follows_subscribes hw hs subscribes
  exact ⟨session_step hw hsound.registry hs h hgrows, hlogs.prefix_of, hlogs.eq_of⟩

/-- In every reachable state the entries a subscriber has received are the first
ones that its session has, in their order. -/
theorem received_prefix_reachable (s : State) (hs : sessionSystem.Reachable s)
    (number : Nat) (hnumber : number < s.nextSubscriber) :
    exists o, (s.subscribers number).history.object = some o ∧
      (s.objects o).id = (s.subscribers number).sessionId ∧
      logged (s.subscribers number).received <+: (s.objects o).receivedLogs := by
  have hstep : forall q event t, (q.Sound ∧ q.Delivers) ->
      sessionSystem.step q event = some t -> t.Sound ∧ t.Delivers := by
    rintro q event t ⟨hsound, hdelivers⟩ hstep
    rcases sound_step hsound hstep with ⟨hnext, houtcome, hgrows⟩
    exact ⟨hnext, delivers_step hsound hdelivers houtcome hgrows⟩
  have h := @EventSystem.invariant_of_reachable _ _ sessionSystem
    (fun q => q.Sound ∧ q.Delivers) ⟨sound_initial, delivers_initial⟩ hstep s hs
  rcases h.right.session hnumber with ⟨o, ho, hid⟩
  exact ⟨o, ho, hid, h.right.prefix_of hnumber ho⟩

def sampleEntry : LogEntry where
  time := 0
  action := [97]
  message := [109]

def entryOf (message : UInt8) : LogEntry :=
  { sampleEntry with message := [message] }

/-- An entry is logged before a client subscribes, and two more after that. -/
def replayRun : List Event :=
  [Event.auth 0 [83], Event.logEntry 0 (entryOf 97), Event.subscribe 0 [83] none 0,
    Event.logEntry 0 (entryOf 98), Event.logEntry 0 (entryOf 99)]

def replayState : State :=
  (sessionSystem.runFrom initial replayRun).get (by decide)

theorem reachable_replayState : sessionSystem.Reachable replayState :=
  ⟨replayRun, (Option.some_get _).symm⟩

theorem received_prefix_reachable_sample :
    (exists o, (replayState.subscribers 0).history.object = some o ∧
      (replayState.objects o).id = (replayState.subscribers 0).sessionId ∧
      logged (replayState.subscribers 0).received <+:
        (replayState.objects o).receivedLogs) ∧
    logged (replayState.subscribers 0).received = [97, 98, 99].map entryOf :=
  ⟨received_prefix_reachable replayState reachable_replayState 0 (by decide), by decide⟩

/-!
## Entries logged while a subscriber watches
-/

/-- The subscriber has been passed to an established session, and since then it
has not been unsubscribed and its connection has not been closed. -/
def Watching (s : State) (number : Nat) : Prop :=
  number < s.nextSubscriber ∧
    (s.subscribers number).history.found = some (Kind.online Phase.inProgress) ∧
    (s.subscribers number).history.ended = false ∧
    s.closed (s.subscribers number).connection = false

instance (s : State) (number : Nat) : Decidable (s.Watching number) :=
  inferInstanceAs (Decidable (_ ∧ _))

/-- An entry that is logged is sent to every subscriber that watches. -/
def Reaches (s : State) : Event -> Prop
  | Event.logEntry core entry =>
      forall t o number,
        sessionSystem.step s (Event.logEntry core entry) = some t ->
        s.cores core = some o -> s.Watching number ->
        (s.subscribers number).history.object = some o ->
        (t.subscribers number).received =
          (s.subscribers number).received ++ [Notification.logEntry entry]
  | _ => True

/-- A request to subscribe does not lose anything: with an established session
neither the connection nor the new key of its handler is in use, and with a
session that is over the id in memory is not that of a subscriber that
watches. -/
def Joins (s : State) : Event -> Prop
  | Event.subscribe connection sessionId combinedLog memory =>
      ((s.sought sessionId combinedLog).2.kind =
          Kind.online Phase.inProgress ->
        ¬ (s.sought sessionId combinedLog).2.subscribers.Has connection ∧
          ¬ (s.closeHandlers connection).Has
            (newKey (s.closeHandlers connection))) ∧
      ((s.sought sessionId combinedLog).2.kind.over = true ->
        forall number, (s.closeHandlers connection).find? memory = some number ->
          ¬ s.Watching number)
  | _ => True

/-- Whoever watches has an entry in its session and a handler that holds it. -/
def Watched (s : State) : Prop :=
  forall number o, s.Watching number ->
    (s.subscribers number).history.object = some o ->
    s.Registered o number ∧ s.Attached number

theorem watched_ends {s t : State} (hs : s.Watched) {numbers : List Nat}
    {notifications : List Notification} (h : Ends s numbers notifications t) :
    t.Watched := by
  rintro n o ⟨hn, hfound, hended, hclosed⟩ ho
  have horigin := h.origin n
  have hstays : ¬ (n ∈ numbers ∧ s.Attached n) := by
    intro hleft
    rw [h.left_of_mem hleft.left hleft.right] at hended
    cases hended
  rw [h.nextSubscriber_eq] at hn
  rw [h.closed_eq] at hclosed
  rw [h.stays hstays] at hfound hended hclosed ho
  rcases hs n o ⟨hn, hfound, hended, hclosed⟩ ho with ⟨hregistered, hattached⟩
  constructor
  · rw [Registered, horigin.connection_eq, h.entries_eq]
    exact hregistered
  · rw [h.attached_iff]
    exact ⟨hattached, fun hmem => hstays ⟨hmem, hattached⟩⟩

theorem watched_logs {s t : State} (hs : s.Watched) {p : Nat} {entry : LogEntry}
    (h : Logs s p entry t) : t.Watched := by
  rintro n o ⟨hn, hfound, hended, hclosed⟩ ho
  have horigin := h.origin n
  have hsame : (t.subscribers n).history.ended =
      (s.subscribers n).history.ended := by
    by_cases hn : s.Registered p n ∧ s.Attached n
    · rw [h.told hn.left hn.right, tell]
    · rw [h.stays hn]
  rw [h.nextSubscriber_eq] at hn
  rw [horigin.found_eq] at hfound
  rw [hsame] at hended
  rw [h.closed_eq, horigin.connection_eq] at hclosed
  rw [horigin.object_eq] at ho
  rw [Registered, horigin.connection_eq, h.entries_eq, h.attached_iff]
  exact hs n o ⟨hn, hfound, hended, hclosed⟩ ho

theorem watched_closes {s t : State} (hs : s.Watched) {connection : Nat}
    (h : Closes s connection t) : t.Watched := by
  rintro n o ⟨hn, hfound, hended, hclosed⟩ ho
  have hsame : (t.subscribers n).connection = (s.subscribers n).connection ∧
      (t.subscribers n).history = (s.subscribers n).history := by
    rcases h.subscriber n with heq | heq <;>
    · rw [heq]
      exact ⟨rfl, rfl⟩
  rcases hsame with ⟨hconnection, hhistory⟩
  rw [h.nextSubscriber_eq] at hn
  rw [hhistory] at hfound hended ho
  have hne : (s.subscribers n).connection ≠ connection := by
    rintro rfl
    rw [h.closed_eq, hconnection, Function.update_self] at hclosed
    cases hclosed
  rw [h.closed_eq, hconnection, Function.update_of_ne hne] at hclosed
  rcases hs n o ⟨hn, hfound, hended, hclosed⟩ ho with ⟨hregistered, hattached⟩
  constructor
  · rw [Registered, hconnection, h.objects_eq]
    exact hregistered
  · rw [h.attached_iff]
    exact ⟨hattached, hne⟩

theorem watched_subscribes {s t : State} (hw : s.Wired) (hs : s.Watched)
    {connection : Nat} {sessionId : Str} {combinedLog : Option (List LogEntry)}
    {memory : HandlerId}
    (h : Subscribes s connection sessionId combinedLog memory t)
    (hjoins : s.Joins
      (Event.subscribe connection sessionId combinedLog memory)) :
    t.Watched := by
  rintro n o ⟨hn, hfound, hended, hclosed⟩ ho
  rw [h.nextSubscriber_eq] at hn
  rw [h.closed_eq] at hclosed
  rcases Nat.lt_succ_iff_lt_or_eq.mp hn with hlt | rfl
  · rcases h.old_history hlt with ⟨hconnection, -, -, hhistory⟩
    rw [hconnection] at hclosed
    rw [hhistory] at hfound hended ho
    have hwatching : s.Watching n := ⟨hlt, hfound, hended, hclosed⟩
    rcases hs n o hwatching ho with ⟨hregistered, hattached⟩
    constructor
    · rw [h.registered_old_iff hw hlt]
      exact hregistered
    · rw [h.attached_old_iff hw hlt]
      refine ⟨hattached, ?_⟩
      intro hvictim
      rw [victim] at hvictim
      split at hvictim
      · rename_i hover
        exact hjoins.right hover n hvictim hwatching
      · cases hvictim
  · rcases h.new_eq with ⟨session, hnew, -⟩
    rw [hnew] at hfound ho
    have hkind : (s.sought sessionId combinedLog).2.kind =
        Kind.online Phase.inProgress := Option.some.inj hfound
    cases ho
    rcases hjoins.left hkind with ⟨hentry, hkey⟩
    rw [h.registered_new_iff hw, h.attached_new_iff hw, handlersLeft, hkind]
    refine ⟨⟨rfl, ?_, hentry⟩, hkey⟩
    intro hne
    cases hne

theorem watched_step {s t : State} {event : Event} (hw : s.Wired)
    (hs : s.Watched) (hjoins : s.Joins event) (h : Outcome s t event) :
    t.Watched := by
  cases h with
  | leaves _ ends => exact watched_ends hs ends
  | finishes ends _ _ => exact watched_ends hs ends
  | expires ends _ => exact watched_ends hs ends
  | logs _ logs => exact watched_logs hs logs
  | closes closes => exact watched_closes hs closes
  | subscribes _ subscribes => exact watched_subscribes hw hs subscribes hjoins

theorem reaches_of_watched {s : State} (hsound : s.Sound) (hs : s.Watched)
    (event : Event) : s.Reaches event := by
  cases event with
  | logEntry core entry =>
      intro t o n hstep hcore hwatching ho
      rcases hs n o hwatching ho with ⟨hregistered, hattached⟩
      rcases sound_step hsound hstep with ⟨-, houtcome, -⟩
      cases houtcome with
      | leaves silent _ => cases silent
      | logs session logs =>
          rw [hcore] at session
          cases session
          rw [logs.told hregistered hattached, tell]
  | _ => trivial

/-- In every run whose requests to subscribe lose nothing, every entry that is
logged reaches every subscriber that watches. -/
theorem everyStep_reaches_of_joins (es : List Event)
    (hjoins : sessionSystem.EveryStep Joins initial es) :
    sessionSystem.EveryStep Reaches initial es := by
  have hinitial : initial.Sound ∧ initial.Watched := by
    refine ⟨sound_initial, ?_⟩
    rintro n o ⟨hn, -⟩
    exact absurd hn (Nat.not_lt_zero _)
  have hstep : forall s event t, (s.Sound ∧ s.Watched) -> s.Joins event ->
      sessionSystem.step s event = some t ->
        (t.Sound ∧ t.Watched) ∧ s.Reaches event := by
    rintro s event t ⟨hsound, hwatched⟩ hjoins hstep
    rcases sound_step hsound hstep with ⟨hnext, houtcome, -⟩
    exact ⟨⟨hnext, watched_step hsound.wired hwatched hjoins houtcome⟩,
      reaches_of_watched hsound hwatched event⟩
  exact @EventSystem.everyStep_of_everyStep _ _ sessionSystem
    (fun s => s.Sound ∧ s.Watched) Joins Reaches hstep _ _ hinitial hjoins

/-- The core connects for a session, and a client subscribes, unsubscribes and
subscribes again. -/
def resubscribed : List Event :=
  [Event.auth 0 [83], Event.subscribe 0 [83] none 0, Event.unsubscribe 0 [83],
    Event.subscribe 0 [83] none 0]

theorem everyStep_reaches_not_everywhere :
    ¬ forall es, sessionSystem.EveryStep Reaches initial es := by
  intro h
  let s := (sessionSystem.runFrom initial resubscribed).get (by decide)
  let t := (sessionSystem.step s (Event.logEntry 0 sampleEntry)).get (by decide)
  have hrun : sessionSystem.runFrom initial resubscribed = some s :=
    (Option.some_get _).symm
  have hstep : sessionSystem.step s (Event.logEntry 0 sampleEntry) = some t :=
    (Option.some_get _).symm
  have hreaches : s.Reaches (Event.logEntry 0 sampleEntry) :=
    EventSystem.everyStep_last (h _) hrun hstep
  have hreceived := hreaches t 0 1 hstep (by decide) (by decide) (by decide)
  exact absurd hreceived (by decide)

/-- The core connects, a client subscribes, and an entry is logged. -/
def liveRun : List Event :=
  [Event.auth 0 [83], Event.subscribe 0 [83] none 0,
    Event.logEntry 0 sampleEntry]

/-- A run in which nothing is lost. -/
theorem everyStep_reaches_of_joins_sample :
    sessionSystem.EveryStep Reaches initial liveRun := by
  apply everyStep_reaches_of_joins
  let s := (sessionSystem.step initial (Event.auth 0 [83])).get (by decide)
  let t := (sessionSystem.step s (Event.subscribe 0 [83] none 0)).get
    (by decide)
  let u := (sessionSystem.step t (Event.logEntry 0 sampleEntry)).get (by decide)
  have hs : sessionSystem.step initial (Event.auth 0 [83]) = some s :=
    (Option.some_get _).symm
  have ht : sessionSystem.step s (Event.subscribe 0 [83] none 0) = some t :=
    (Option.some_get _).symm
  have hu : sessionSystem.step t (Event.logEntry 0 sampleEntry) = some u :=
    (Option.some_get _).symm
  rw [liveRun, EventSystem.everyStep_cons_iff hs, EventSystem.everyStep_cons_iff ht,
    EventSystem.everyStep_cons_iff hu]
  refine ⟨trivial, ⟨fun _ => ⟨by decide, by decide⟩, ?_⟩, trivial, trivial⟩
  intro hover
  exact absurd hover (by decide)

end State

end Cis
end CisWebui
