import CisWebui.Cis.Subscriptions

/-!
# A request to subscribe

What `session_subscribe` does, told in one piece: the session is found or made,
the new subscriber is passed to it, and then it gets its session and its close
handler.  A session that is over unsubscribes it before that, by the id its
memory happens to hold.
-/

namespace CisWebui
namespace Cis

open Cpp
open Foundation

namespace State

/-!
## A subscriber is passed to a session
-/

theorem replay_eq (s : State) (o number : Nat) :
    s.replay o number = s.setSubscriber number
      { s.subscribers number with
        received := (s.subscribers number).received ++
          (s.objects o).receivedLogs.map Notification.logEntry } := by
  have hloop : forall (logs : List LogEntry) (s : State),
      logs.foldl (fun s entry => s.logEntry number entry) s =
        s.setSubscriber number
          { s.subscribers number with
            received := (s.subscribers number).received ++
              logs.map Notification.logEntry } := by
    intro logs
    induction logs with
    | nil =>
        intro s
        simp [setSubscriber]
    | cons entry logs ih =>
        intro s
        rw [List.foldl_cons, ih]
        simp [logEntry, send, setSubscriber]
  exact hloop _ s

/-- The subscribers after one of them has gone, if one has. -/
def without (s : State) : Option Nat -> Nat -> Subscriber
  | none => s.subscribers
  | some number =>
      Function.update s.subscribers number
        { s.subscribers number with session := none }

theorem without_congr {s t : State} {n : Nat}
    (h : t.subscribers n = s.subscribers n) (number : Option Nat) :
    t.without number n = s.without number n := by
  cases number with
  | none => exact h
  | some other =>
      rw [without, without]
      by_cases hn : n = other
      · subst hn
        rw [Function.update_self, Function.update_self, h]
      · rw [Function.update_of_ne hn, Function.update_of_ne hn, h]

/-- The subscriber of the call is told the end before it has a handler: it
takes away whatever handler the id in its memory is the key of. -/
theorem exists_refused {s : State} {number : Nat}
    (hw : ({ s with calls := [] } : State).Wired) (hcalls : s.calls = [number])
    (hsession : (s.subscribers number).session = none)
    (hclosed : s.closed (s.subscribers number).connection = false)
    (hattached : ¬ s.Attached number) (notification : Notification) :
    exists owners sessions,
      (s.send number notification).unsubscribe number =
        { s with
          subscribers := Function.update
            (s.without ((s.closeHandlers
              (s.subscribers number).connection).find?
                (s.subscribers number).subscribeId)) number
            ((s.subscribers number).left [notification])
          closeHandlers := Function.update s.closeHandlers
            (s.subscribers number).connection
            ((s.closeHandlers (s.subscribers number).connection).erase
              (s.subscribers number).subscribeId)
          removals := s.removals ++
            [{ subscriber := number
               id := (s.subscribers number).subscribeId
               givenId := (s.subscribers number).history.givenId
               removed := (s.closeHandlers
                 (s.subscribers number).connection).find?
                   (s.subscribers number).subscribeId }]
          owners := owners
          sessions := sessions } := by
  have hreset : (s.send number notification).resetSession number =
      s.send number notification := by
    rw [resetSession]
    simp [send, setSubscriber, hsession]
  have hold : ({ s.subscribers number with session := none } : Subscriber) =
      s.subscribers number := by
    rw [← hsession]
  rw [unsubscribe, hreset]
  simp only [send, markEnded, setSubscriber, Function.update_self,
    Function.update_idem, hclosed, Bool.false_eq_true, if_false, noteRemoval,
    removeCloseHandler]
  cases hfind : (s.closeHandlers (s.subscribers number).connection).find?
      (s.subscribers number).subscribeId with
  | none =>
      refine ⟨s.owners, s.sessions, ?_⟩
      have herase := SortedMap.erase_of_not_has
        (SortedMap.find?_eq_none_iff.mp hfind)
      simp only [herase, Function.update_eq_self, without, Subscriber.left, hsession]
  | some other =>
      have hmem := SortedMap.find?_eq_some_iff.mp hfind
      have hother : (s.subscribers other).connection =
          (s.subscribers number).connection := (hw.handler hmem).right.left
      have hne : other ≠ number := by
        rintro rfl
        exact hattached ⟨_, hmem, rfl⟩
      have hgone : forall e, e ∈ ((s.closeHandlers
          (s.subscribers number).connection).erase
            (s.subscribers number).subscribeId).entries -> e.2 ≠ other := by
        rintro e he rfl
        rw [SortedMap.mem_erase] at he
        apply he.right
        rw [← (hw.handler he.left).right.right.left,
          (hw.handler hmem).right.right.left]
      dsimp only
      rw [dropSubscriber, if_neg]
      · refine (exists_resetSession _ other).imp fun owners h =>
          h.imp fun sessions h => h.trans ?_
        simp only [setHandlers, without, Subscriber.left, hsession,
          Function.update_of_ne hne]
        rw [Function.update_comm hne]
      · rintro (⟨e, he, heq⟩ | hcall)
        · simp only [setHandlers, Function.update_of_ne hne, hother,
            Function.update_self] at he
          exact hgone e he heq
        · have hmemCall : other ∈ s.calls := hcall
          rw [hcalls, List.mem_singleton] at hmemCall
          exact hne hmemCall

/-- The notification of the end that comes with a subscription. -/
def ending : Kind -> List Notification
  | Kind.online Phase.notEstablished => [Notification.sessionNotEstablished]
  | Kind.online Phase.finished => [Notification.sessionClosed]
  | Kind.offline => [Notification.sessionClosed]
  | Kind.online _ => []

/-- The history and the entry that come with a subscription, which a session
that is not established leaves out. -/
def replayed (object : SessionObject) : List Notification :=
  if object.kind = Kind.online Phase.notEstablished then []
  else object.receivedLogs.map Notification.logEntry

def entered (object : SessionObject) (wsSessionId number : Nat) :
    SortedMap Nat Nat :=
  if object.kind = Kind.online Phase.notEstablished then object.subscribers
  else object.subscribers.emplace wsSessionId number

/-- The subscriber of the call before its session is looked up. -/
structure Arriving (s : State) (number : Nat) : Prop where
  wired : ({ s with calls := [] } : State).Wired
  calls_eq : s.calls = [number]
  lt : number < s.nextSubscriber
  session_eq : (s.subscribers number).session = none
  received_eq : (s.subscribers number).received = []
  history_eq : (s.subscribers number).history = {}
  not_closed : s.closed (s.subscribers number).connection = false

namespace Arriving

variable {s : State} {number : Nat}

theorem ne_of_mem (h : s.Arriving number) {c : Nat} {e : HandlerId × Nat}
    (he : e ∈ (s.closeHandlers c).entries) : e.2 ≠ number := by
  rintro rfl
  have hgiven := (h.wired.handler he).right.right.right
  change (s.subscribers e.2).history.givenId = _ at hgiven
  rw [h.history_eq] at hgiven
  cases hgiven

theorem with_pointers (h : s.Arriving number) (owners : Nat -> List Owner)
    (sessions : Str -> Option Nat) :
    ({ s with owners := owners, sessions := sessions } : State).Arriving
      number :=
  ⟨h.wired.with_pointers owners sessions, h.calls_eq, h.lt, h.session_eq,
    h.received_eq, h.history_eq, h.not_closed⟩

theorem ne_of_entry (h : s.Arriving number) {o : Nat} {e : Nat × Nat}
    (he : e ∈ (s.objects o).subscribers.entries) : e.2 ≠ number := by
  rintro rfl
  have hobject := (h.wired.entry he).right.right
  change (s.subscribers e.2).history.object = _ at hobject
  rw [h.history_eq] at hobject
  cases hobject

end Arriving

/-- The subscriber of the call once it has been passed to the session. -/
def passed (s : State) (o number : Nat) (received : List Notification) :
    Subscriber :=
  { s.subscribers number with
    received := received
    history :=
      { (s.subscribers number).history with
        object := some o
        found := some (s.objects o).kind } }

/-- The state once it has been. -/
def pass (s : State) (o number : Nat) (received : List Notification)
    (entries : SortedMap Nat Nat) : State :=
  { s with
    subscribers := Function.update s.subscribers number
      (s.passed o number received)
    objects := Function.update s.objects o
      { s.objects o with subscribers := entries } }

theorem register_eq (s : State) (o wsSessionId number : Nat) :
    ((s.note o number).replay o number).register o wsSessionId number =
      s.pass o number ((s.subscribers number).received ++
          (s.objects o).receivedLogs.map Notification.logEntry)
        ((s.objects o).subscribers.emplace wsSessionId number) := by
  rw [replay_eq]
  simp [note, register, setObject, setSubscriber, pass, passed]

theorem note_eq (s : State) (o number : Nat) :
    s.note o number = s.pass o number (s.subscribers number).received
      (s.objects o).subscribers := by
  simp [note, setSubscriber, pass, passed]

theorem arriving_pass {s : State} {number : Nat} (h : s.Arriving number)
    {o : Nat} (ho : o < s.nextObject) (received : List Notification)
    {entries : SortedMap Nat Nat}
    (hentries : forall e, e ∈ entries.entries ->
      e ∈ (s.objects o).subscribers.entries ∨
        e = ((s.subscribers number).connection, number)) :
    ({ s.pass o number received entries with calls := [] } : State).Wired := by
  have hsubscriber : forall n, n ≠ number ->
      (s.pass o number received entries).subscribers n = s.subscribers n :=
    fun n hn => Function.update_of_ne hn _ _
  have hnew : (s.pass o number received entries).subscribers number =
      s.passed o number received :=
    Function.update_self ..
  constructor
  · intro c e he
    dsimp only
    rw [hsubscriber e.2 (h.ne_of_mem he)]
    exact h.wired.handler he
  · exact h.wired.handlers_of_closed
  · intro p e he
    dsimp only
    by_cases hp : p = o
    · subst hp
      have hmem : e ∈ entries.entries := by
        simpa [pass] using he
      rcases hentries e hmem with hold | rfl
      · rw [hsubscriber e.2 (h.ne_of_entry hold)]
        exact h.wired.entry hold
      · rw [hnew]
        exact ⟨h.lt, rfl, rfl⟩
    · have hold : e ∈ (s.objects p).subscribers.entries := by
        simpa [pass, Function.update_of_ne hp] using he
      rw [hsubscriber e.2 (h.ne_of_entry hold)]
      exact h.wired.entry hold
  · intro n p hn hp
    dsimp only at hp
    by_cases hne : n = number
    · subst hne
      rw [hnew] at hp
      cases hp
      exact ho
    · rw [hsubscriber n hne] at hp
      exact h.wired.object_lt hn hp
  · rfl

/-- The handler of another subscriber that goes with a subscription: the one
under the id in memory, if the session is over. -/
def evicted (s : State) (kind : Kind) (number : Nat) : Option Nat :=
  if kind.over then
    (s.closeHandlers (s.subscribers number).connection).find?
      (s.subscribers number).subscribeId
  else
    none

/-- The handlers of its connection after that. -/
def remaining (s : State) (kind : Kind) (number : Nat) :
    SortedMap HandlerId Nat :=
  if kind.over then
    (s.closeHandlers (s.subscribers number).connection).erase
      (s.subscribers number).subscribeId
  else
    s.closeHandlers (s.subscribers number).connection

/-- The calls of `remove_close_handler` with a subscription. -/
def refusals (s : State) (kind : Kind) (number : Nat) : List Removal :=
  if kind.over then
    [{ subscriber := number
       id := (s.subscribers number).subscribeId
       givenId := none
       removed := s.evicted kind number }]
  else
    []

/-- The subscriber after `session::subscribe`. -/
def subscribed (s : State) (o number : Nat) : Subscriber :=
  { s.subscribers number with
    received := replayed (s.objects o) ++ ending (s.objects o).kind
    history :=
      { object := some o
        found := some (s.objects o).kind
        ended := (s.objects o).kind.over } }

/-- The state after `session::subscribe`, but for the pointers to sessions. -/
def joined (s : State) (o number : Nat) : State :=
  { s with
    subscribers := Function.update
      (s.without (s.evicted (s.objects o).kind number)) number
      (s.subscribed o number)
    objects := Function.update s.objects o
      { s.objects o with
        subscribers := entered (s.objects o) (s.subscribers number).connection
          number }
    closeHandlers := Function.update s.closeHandlers
      (s.subscribers number).connection
      (s.remaining (s.objects o).kind number)
    removals := s.removals ++ s.refusals (s.objects o).kind number }

theorem without_pass {s : State} {o number : Nat} {victim : Option Nat}
    (hne : forall other, victim = some other -> other ≠ number)
    (received : List Notification) (entries : SortedMap Nat Nat)
    (subscriber : Subscriber) :
    Function.update ((s.pass o number received entries).without victim) number
        subscriber =
      Function.update (s.without victim) number subscriber := by
  cases victim with
  | none => simp [without, pass]
  | some other =>
      have hother := hne other rfl
      rw [without, without, pass]
      dsimp only
      rw [Function.update_of_ne hother, Function.update_comm hother,
        Function.update_idem, Function.update_comm hother]

theorem exists_over {s : State} {number : Nat} (h : s.Arriving number) {o : Nat}
    (ho : o < s.nextObject) (hover : (s.objects o).kind.over = true)
    {received : List Notification} {entries : SortedMap Nat Nat}
    {notification : Notification}
    (hentries : forall e, e ∈ entries.entries ->
      e ∈ (s.objects o).subscribers.entries ∨
        e = ((s.subscribers number).connection, number))
    (hreceived : received ++ [notification] =
      replayed (s.objects o) ++ ending (s.objects o).kind)
    (hentered : entries = entered (s.objects o)
      (s.subscribers number).connection number) :
    exists owners sessions,
      ((s.pass o number received entries).send number notification).unsubscribe
          number =
        { s.joined o number with owners := owners, sessions := sessions } := by
  have hnew : (s.pass o number received entries).subscribers number =
      s.passed o number received :=
    Function.update_self ..
  have hattached : ¬ (s.pass o number received entries).Attached number := by
    rintro ⟨e, he, heq⟩
    exact h.ne_of_mem he heq
  rcases exists_refused (arriving_pass h ho received hentries) h.calls_eq
    (by rw [hnew]; exact h.session_eq) (by rw [hnew]; exact h.not_closed)
    hattached notification with ⟨owners, sessions, hrefused⟩
  refine ⟨owners, sessions, hrefused.trans ?_⟩
  rw [hnew, without_pass]
  · simp only [pass, passed, joined, subscribed, Subscriber.left, evicted,
      remaining, refusals, hover, if_true, hreceived, hentered, h.session_eq,
      h.history_eq]
  · intro other hother
    exact h.ne_of_mem (SortedMap.find?_eq_some_iff.mp hother)

/-- What `session::subscribe` does besides. -/
theorem exists_sessionSubscribe {s : State} {number : Nat}
    (h : s.Arriving number) {o : Nat} (ho : o < s.nextObject) :
    exists owners sessions,
      s.sessionSubscribe o (s.subscribers number).connection number =
        { s.joined o number with owners := owners, sessions := sessions } := by
  have hemplace : forall e, e ∈ ((s.objects o).subscribers.emplace
      (s.subscribers number).connection number).entries ->
        e ∈ (s.objects o).subscribers.entries ∨
          e = ((s.subscribers number).connection, number) := by
    intro e he
    exact (SortedMap.mem_emplace.mp he).imp id And.right
  have hlive : (s.objects o).kind = Kind.online Phase.pending ∨
      (s.objects o).kind = Kind.online Phase.inProgress ->
      ((s.note o number).replay o number).register o
          (s.subscribers number).connection number =
        { s.joined o number with owners := s.owners, sessions := s.sessions } := by
    rintro (hkind | hkind) <;>
      simp [register_eq, pass, passed, joined, subscribed, entered, replayed,
        ending, evicted, remaining, refusals, without, hkind, Kind.over,
        h.received_eq, h.history_eq]
  have hended : ending (s.objects o).kind = [Notification.sessionClosed] ->
      (s.objects o).kind.over = true ->
      (s.objects o).kind ≠ Kind.online Phase.notEstablished ->
      exists owners sessions,
        (((s.note o number).replay o number).register o
          (s.subscribers number).connection number).sessionClosed number =
          { s.joined o number with owners := owners, sessions := sessions } := by
    intro hending hover hne
    rw [register_eq]
    refine exists_over h ho hover hemplace ?_ ?_
    · rw [hending, replayed, if_neg hne, h.received_eq]
      rfl
    · rw [entered, if_neg hne]
  have hnote : ((s.note o number).objects o).kind = (s.objects o).kind := rfl
  unfold sessionSubscribe
  dsimp only
  rw [hnote]
  cases hkind : (s.objects o).kind with
  | offline =>
      rw [hkind] at hended
      exact hended rfl rfl (fun hne => nomatch hne)
  | online phase =>
      cases phase with
      | pending => exact ⟨_, _, hlive (Or.inl hkind)⟩
      | inProgress => exact ⟨_, _, hlive (Or.inr hkind)⟩
      | finished =>
          rw [hkind] at hended
          exact hended rfl rfl (fun hne => nomatch hne)
      | notEstablished =>
          dsimp only
          rw [note_eq]
          refine exists_over h ho ?_ (fun e he => Or.inl he) ?_ ?_
          · rw [hkind]
            rfl
          · rw [replayed, if_pos hkind, hkind, h.received_eq]
            rfl
          · rw [entered, if_pos hkind]

/-!
## The subscriber gets its session and its handler
-/

/-- The state after `session_subscribe`, but for the pointers to sessions. -/
def kept (s : State) (number : Nat) (session : Option Nat) : State :=
  let subscriber := s.subscribers number
  let key := newKey (s.closeHandlers subscriber.connection)
  { s with
    subscribers := Function.update s.subscribers number
      { subscriber with
        session := session
        subscribeId := key
        history := { subscriber.history with givenId := some key } }
    closeHandlers := Function.update s.closeHandlers subscriber.connection
      ((s.closeHandlers subscriber.connection).emplace key number)
    calls := [] }

theorem exists_setSession (s : State) {number : Nat} (o : Nat)
    (hsession : (s.subscribers number).session = none) :
    exists owners sessions,
      (s.setSession number o).release o Owner.call =
        { s with
          subscribers := Function.update s.subscribers number
            { s.subscribers number with session := some o }
          owners := owners
          sessions := sessions } ∧
      Owner.subscriber number ∈ owners o := by
  have hset : s.setSession number o =
      (s.acquire o (Owner.subscriber number)).setSubscriber number
        { s.subscribers number with session := some o } := by
    rw [setSession, resetSession]
    simp [acquire, hsession]
  have hmem : Owner.subscriber number ∈ (s.setSession number o).owners o := by
    rw [hset]
    simp [acquire, setSubscriber]
  rcases exists_release (s.setSession number o) o Owner.call with
    ⟨owners, sessions, hrelease⟩
  refine ⟨owners, sessions, ?_, ?_⟩
  · rw [hrelease, hset]
    rfl
  · have hkept : Owner.subscriber number ∈
        ((s.setSession number o).release o Owner.call).owners o := by
      unfold release
      split
      · dsimp only
        rw [Function.update_self]
        exact (List.mem_erase_of_ne (by simp)).mpr hmem
      · exact hmem
    rw [hrelease] at hkept
    exact hkept

theorem exists_kept {s : State} {number : Nat} (o : Nat)
    (hcalls : s.calls = [number])
    (hsession : (s.subscribers number).session = none)
    (hnew : forall {c e}, e ∈ (s.closeHandlers c).entries -> e.2 ≠ number) :
    exists owners sessions session,
      (((s.setSession number o).release o Owner.call).keepUntilClosed
        (s.subscribers number).connection number).leaveCall number =
        { s.kept number session with owners := owners, sessions := sessions } ∧
      (¬ (s.closeHandlers (s.subscribers number).connection).Has
          (newKey (s.closeHandlers (s.subscribers number).connection)) ->
        Owner.subscriber number ∈ owners o) ∧
      ((s.closeHandlers (s.subscribers number).connection).Has
          (newKey (s.closeHandlers (s.subscribers number).connection)) ->
        session = none) := by
  rcases exists_setSession s o hsession with ⟨owners, sessions, hset, hmem⟩
  rw [hset]
  have hkeep : ({ s with
      subscribers := Function.update s.subscribers number
        { s.subscribers number with session := some o }
      owners := owners
      sessions := sessions } : State).keepUntilClosed
        (s.subscribers number).connection number =
      { s.kept number (some o) with
        owners := owners, sessions := sessions, calls := s.calls } := by
    simp [keepUntilClosed, addCloseHandler, setHandlers, setSubscriber, kept]
  rw [hkeep, leaveCall]
  dsimp only
  rw [hcalls, List.erase_cons_head, dropSubscriber]
  by_cases hkey : (s.closeHandlers (s.subscribers number).connection).Has
      (newKey (s.closeHandlers (s.subscribers number).connection))
  · rw [if_neg]
    · rcases exists_resetSession ({ s.kept number (some o) with
        owners := owners, sessions := sessions, calls := [] } : State) number
        with ⟨owners', sessions', hreset⟩
      refine ⟨owners', sessions', none, hreset.trans ?_,
        fun h => absurd hkey h, fun _ => rfl⟩
      simp [kept]
    · rintro (⟨e, he, heq⟩ | hcall)
      · have hconnection : ((s.kept number (some o)).subscribers number).connection =
            (s.subscribers number).connection := by
          simp [kept]
        change e ∈ ((s.kept number (some o)).closeHandlers
          ((s.kept number (some o)).subscribers number).connection).entries at he
        rw [hconnection, kept] at he
        dsimp only at he
        rw [Function.update_self, SortedMap.mem_emplace] at he
        rcases he with hold | ⟨hfresh, -⟩
        · exact hnew hold heq
        · exact hfresh hkey
      · cases hcall
  · rw [if_pos]
    · exact ⟨owners, sessions, some o, rfl, fun _ => hmem,
        fun h => absurd h hkey⟩
    · refine Or.inl ⟨(newKey (s.closeHandlers (s.subscribers number).connection),
        number), ?_, rfl⟩
      have hconnection : ((s.kept number (some o)).subscribers number).connection =
          (s.subscribers number).connection := by
        simp [kept]
      change _ ∈ ((s.kept number (some o)).closeHandlers
        ((s.kept number (some o)).subscribers number).connection).entries
      rw [hconnection, kept]
      dsimp only
      rw [Function.update_self, SortedMap.mem_emplace]
      exact Or.inr ⟨hkey, rfl⟩

/-!
## A request to subscribe
-/

/-- The session a subscription finds or makes. -/
def sought (s : State) (sessionId : Str)
    (combinedLog : Option (List LogEntry)) : Nat × SessionObject :=
  match s.sessions sessionId with
  | some o => (o, s.objects o)
  | none =>
      (s.nextObject,
        { id := sessionId
          kind := combinedLog.elim (Kind.online Phase.pending) fun _ => Kind.offline
          receivedLogs := combinedLog.getD []
          subscribers := SortedMap.empty
          cancelled := false })

/-- The state in which the subscriber is passed to it, but for the pointers to
sessions. -/
def hosting (s : State) (connection : Nat) (sessionId : Str)
    (combinedLog : Option (List LogEntry)) (memory : HandlerId) : State :=
  { s.newSubscriber sessionId connection memory with
    objects := Function.update s.objects (s.sought sessionId combinedLog).1
      (s.sought sessionId combinedLog).2
    nextObject :=
      if s.sessions sessionId = none then s.nextObject + 1 else s.nextObject }

section Subscribe

variable {s : State} (hw : s.Wired) (hr : s.Registry) {connection : Nat}
  (hclosed : s.closed connection = false) (sessionId : Str)
  (combinedLog : Option (List LogEntry)) (memory : HandlerId)

include hw in
theorem Wired.empty_of_le {o : Nat} (ho : s.nextObject <= o) :
    (s.objects o).subscribers.entries = [] := by
  rw [List.eq_nil_iff_forall_not_mem]
  intro e he
  rcases hw.entry he with ⟨hlt, -, hobject⟩
  have hbound := hw.object_lt hlt hobject
  omega

include hr in
theorem lt_of_sessions {o : Nat} (ho : s.sessions sessionId = some o) :
    o < s.nextObject := by
  by_contra hle
  exact (hr.alive_of_sessions ho).left (hr.owners_of_le (not_lt.mp hle))

include hw in
/-- The entries of the session found are those of its object, and a new session
has none. -/
theorem entries_hosting (p : Nat) :
    ((s.hosting connection sessionId combinedLog memory).objects
      p).subscribers.entries = (s.objects p).subscribers.entries := by
  rw [hosting]
  dsimp only
  cases hfind : s.sessions sessionId with
  | some o =>
      rw [sought, hfind]
      dsimp only
      rw [Function.update_eq_self]
  | none =>
      rw [sought, hfind]
      dsimp only
      by_cases hp : p = s.nextObject
      · subst hp
        rw [Function.update_self, hw.empty_of_le le_rfl]
        rfl
      · rw [Function.update_of_ne hp]

include hr in
theorem sought_lt : (s.sought sessionId combinedLog).1 <
    (s.hosting connection sessionId combinedLog memory).nextObject := by
  rw [hosting, sought]
  cases hfind : s.sessions sessionId with
  | some o =>
      dsimp only
      rw [if_neg (by simp)]
      exact lt_of_sessions hr sessionId hfind
  | none => simp

include hw hclosed in
theorem arriving_hosting :
    (s.hosting connection sessionId combinedLog memory).Arriving
      s.nextSubscriber := by
  have hnew : (s.hosting connection sessionId combinedLog memory).subscribers
      s.nextSubscriber =
      { sessionId := sessionId, connection := connection,
        subscribeId := memory } :=
    Function.update_self ..
  have hold : forall n, n < s.nextSubscriber ->
      (s.hosting connection sessionId combinedLog memory).subscribers n =
        s.subscribers n :=
    fun n hn => Function.update_of_ne (by omega) _ _
  have hobjects : s.nextObject <=
      (s.hosting connection sessionId combinedLog memory).nextObject := by
    rw [hosting]
    dsimp only
    split <;> omega
  refine { wired := ?_, calls_eq := ?_, lt := Nat.lt_succ_self _,
           session_eq := ?_, received_eq := ?_, history_eq := ?_,
           not_closed := ?_ }
  · constructor
    · intro c e he
      have hmem : e ∈ (s.closeHandlers c).entries := he
      rcases hw.handler hmem with ⟨hlt, hrest⟩
      dsimp only
      rw [hold e.2 hlt]
      exact ⟨Nat.lt_succ_of_lt hlt, hrest⟩
    · exact hw.handlers_of_closed
    · intro p e he
      change e ∈ ((s.hosting connection sessionId combinedLog memory).objects
        p).subscribers.entries at he
      rw [entries_hosting hw] at he
      rcases hw.entry he with ⟨hlt, hrest⟩
      dsimp only
      rw [hold e.2 hlt]
      exact ⟨Nat.lt_succ_of_lt hlt, hrest⟩
    · intro n p hn hp
      dsimp only at hp
      by_cases hlt : n < s.nextSubscriber
      · rw [hold n hlt] at hp
        exact lt_of_lt_of_le (hw.object_lt hlt hp) hobjects
      · have hn' : n < s.nextSubscriber + 1 := hn
        have heq : n = s.nextSubscriber := by omega
        subst heq
        rw [hnew] at hp
        cases hp
    · rfl
  · change s.nextSubscriber :: s.calls = _
    rw [hw.calls_eq]
  · rw [hnew]
  · rw [hnew]
  · rw [hnew]
  · rw [hnew]
    exact hclosed

include hr in
/-- The manager passes the subscriber to the session it has sought. -/
theorem subscribe_eq :
    exists owners sessions,
      (s.newSubscriber sessionId connection memory).subscribe sessionId connection
          s.nextSubscriber combinedLog =
        Except.ok (((({ s.hosting connection sessionId combinedLog memory with
          owners := owners, sessions := sessions } : State).sessionSubscribe
            (s.sought sessionId combinedLog).1 connection
            s.nextSubscriber).setSession s.nextSubscriber
              (s.sought sessionId combinedLog).1).release
                (s.sought sessionId combinedLog).1 Owner.call) := by
  have hsessions : (s.newSubscriber sessionId connection memory).sessions =
      s.sessions := rfl
  unfold subscribe
  rw [hsessions]
  cases hfind : s.sessions sessionId with
  | some o =>
      have halive : (s.newSubscriber sessionId connection memory).Alive o :=
        (hr.alive_of_sessions hfind).left
      dsimp only
      rw [if_pos halive]
      refine ⟨Function.update s.owners o (Owner.call :: s.owners o), s.sessions,
        ?_⟩
      have hsought : s.sought sessionId combinedLog = (o, s.objects o) := by
        rw [sought, hfind]
      have hhosting : (s.newSubscriber sessionId connection memory).acquire o
          Owner.call =
          { s.hosting connection sessionId combinedLog memory with
            owners := Function.update s.owners o (Owner.call :: s.owners o)
            sessions := s.sessions } := by
        rw [hosting, hsought, hfind]
        dsimp only
        rw [Function.update_eq_self, if_neg (by simp)]
        rfl
      rw [hhosting, hsought]
  | none =>
      have hnone : (s.newSubscriber sessionId connection memory).sessions
          sessionId = none := hfind
      cases combinedLog with
      | some logs =>
          dsimp only
          rw [newOfflineSession, subscribeToNew, emplaceSession_create hnone]
          refine ⟨Function.update s.owners s.nextObject [Owner.call],
            Function.update s.sessions sessionId (some s.nextObject), ?_⟩
          rw [hosting, sought, hfind]
          rfl
      | none =>
          dsimp only
          rw [newSession, subscribeToNew, emplaceSession_create hnone]
          refine ⟨Function.update s.owners s.nextObject [Owner.call, Owner.timer],
            Function.update s.sessions sessionId (some s.nextObject), ?_⟩
          rw [hosting, sought, hfind]
          rfl

end Subscribe

/-- The handlers of the connection when the handler of a new subscriber is
added: an ended session has cost it the one under the id in memory. -/
def handlersLeft (s : State) (connection : Nat) (kind : Kind)
    (memory : HandlerId) : SortedMap HandlerId Nat :=
  if kind.over then (s.closeHandlers connection).erase memory
  else s.closeHandlers connection

theorem mem_of_mem_handlersLeft {s : State} {connection : Nat} {kind : Kind}
    {memory : HandlerId} {e : HandlerId × Nat}
    (he : e ∈ (s.handlersLeft connection kind memory).entries) :
    e ∈ (s.closeHandlers connection).entries := by
  rw [handlersLeft] at he
  split at he
  · exact (SortedMap.mem_erase.mp he).left
  · exact he

/-- Whose handler that was. -/
def victim (s : State) (connection : Nat) (kind : Kind) (memory : HandlerId) :
    Option Nat :=
  if kind.over then (s.closeHandlers connection).find? memory else none

/-- The new subscriber, when the request has been handled. -/
def newcomer (s : State) (connection : Nat) (sessionId : Str)
    (combinedLog : Option (List LogEntry)) (memory : HandlerId)
    (session : Option Nat) : Subscriber :=
  let found := s.sought sessionId combinedLog
  let key := newKey (s.handlersLeft connection found.2.kind memory)
  { sessionId := sessionId
    connection := connection
    session := session
    subscribeId := key
    received := replayed found.2 ++ ending found.2.kind
    history :=
      { givenId := some key
        object := some found.1
        found := some found.2.kind
        ended := found.2.kind.over } }

/-- From `s` to `t` a request to subscribe has been handled. -/
structure Subscribes (s : State) (connection : Nat) (sessionId : Str)
    (combinedLog : Option (List LogEntry)) (memory : HandlerId) (t : State) :
    Prop where
  nextSubscriber_eq : t.nextSubscriber = s.nextSubscriber + 1
  nextObject_eq : t.nextObject =
    if s.sessions sessionId = none then s.nextObject + 1 else s.nextObject
  old_eq : forall {n}, n < s.nextSubscriber -> t.subscribers n =
    s.without (s.victim connection (s.sought sessionId combinedLog).2.kind
      memory) n
  new_eq : exists session, t.subscribers s.nextSubscriber =
      s.newcomer connection sessionId combinedLog memory session ∧
    ((s.handlersLeft connection (s.sought sessionId combinedLog).2.kind
      memory).Has (newKey (s.handlersLeft connection
        (s.sought sessionId combinedLog).2.kind memory)) -> session = none)
  closeHandlers_eq : t.closeHandlers =
    Function.update s.closeHandlers connection
      ((s.handlersLeft connection (s.sought sessionId combinedLog).2.kind
        memory).emplace (newKey (s.handlersLeft connection
          (s.sought sessionId combinedLog).2.kind memory)) s.nextSubscriber)
  objects_eq : t.objects =
    Function.update s.objects (s.sought sessionId combinedLog).1
      { (s.sought sessionId combinedLog).2 with
        subscribers := entered (s.sought sessionId combinedLog).2 connection
          s.nextSubscriber }
  removals_eq : t.removals = s.removals ++
    if (s.sought sessionId combinedLog).2.kind.over then
      [{ subscriber := s.nextSubscriber
         id := memory
         givenId := none
         removed := s.victim connection
           (s.sought sessionId combinedLog).2.kind memory }]
    else
      []
  closed_eq : t.closed = s.closed
  calls_eq : t.calls = []
  finishCalled_eq : t.finishCalled = s.finishCalled
  alive : ¬ (s.handlersLeft connection (s.sought sessionId combinedLog).2.kind
      memory).Has (newKey (s.handlersLeft connection
        (s.sought sessionId combinedLog).2.kind memory)) ->
    t.Alive (s.sought sessionId combinedLog).1

theorem subscribes_handleSubscribe {s : State} (hw : s.Wired) (hr : s.Registry)
    {connection : Nat} (hclosed : s.closed connection = false)
    (sessionId : Str) (combinedLog : Option (List LogEntry))
    (memory : HandlerId) :
    exists t, s.handleSubscribe connection sessionId combinedLog memory =
      Except.ok t ∧ Subscribes s connection sessionId combinedLog memory t := by
  have hexists : exists owners sessions,
      (s.newSubscriber sessionId connection memory).subscribe sessionId connection
        s.nextSubscriber combinedLog = _ :=
    subscribe_eq hr sessionId combinedLog memory
  rcases hexists with ⟨owners, sessions, hsubscribe⟩
  have hu := (arriving_hosting hw hclosed sessionId combinedLog
    memory).with_pointers owners sessions
  have ho : _ < (s.hosting connection sessionId combinedLog memory).nextObject :=
    sought_lt hr sessionId combinedLog memory
  generalize hu' : ({ s.hosting connection sessionId combinedLog memory with
    owners := owners, sessions := sessions } : State) = u at hu hsubscribe
  have hsubscriber : u.subscribers s.nextSubscriber =
      { sessionId := sessionId, connection := connection,
        subscribeId := memory } := by
    rw [← hu']
    exact Function.update_self ..
  have hobject : u.objects (s.sought sessionId combinedLog).1 =
      (s.sought sessionId combinedLog).2 := by
    rw [← hu']
    exact Function.update_self ..
  have hlt : (s.sought sessionId combinedLog).1 < u.nextObject := by
    rw [← hu']
    exact ho
  have hclosing : u.closeHandlers = s.closeHandlers := by
    rw [← hu']
    rfl
  rcases exists_sessionSubscribe hu hlt with ⟨owners', sessions', hjoined⟩
  rw [hsubscriber] at hjoined
  dsimp only at hjoined
  generalize hv' : ({ u.joined (s.sought sessionId combinedLog).1
    s.nextSubscriber with owners := owners', sessions := sessions' } : State) = v
    at hjoined
  have hpassed : v.subscribers s.nextSubscriber =
      u.subscribed (s.sought sessionId combinedLog).1 s.nextSubscriber := by
    rw [← hv']
    exact Function.update_self ..
  have hconnection : (v.subscribers s.nextSubscriber).connection = connection := by
    rw [hpassed, subscribed, hsubscriber]
  have hhandlers : v.closeHandlers = Function.update s.closeHandlers connection
      (s.handlersLeft connection (s.sought sessionId combinedLog).2.kind
        memory) := by
    rw [← hv', joined]
    dsimp only
    rw [remaining, hsubscriber, hobject, hclosing]
    rfl
  have hfresh : forall {c e}, e ∈ (v.closeHandlers c).entries ->
      e.2 ≠ s.nextSubscriber := by
    intro c e he
    rw [hhandlers] at he
    by_cases hc : c = connection
    · subst hc
      rw [Function.update_self] at he
      have hmem := mem_of_mem_handlersLeft he
      exact (hw.handler hmem).left.ne
    · rw [Function.update_of_ne hc] at he
      exact (hw.handler he).left.ne
  rcases exists_kept (s.sought sessionId combinedLog).1
    (by rw [← hv']; exact hu.calls_eq)
    (by rw [hpassed, subscribed, hsubscriber]) hfresh with
    ⟨owners'', sessions'', session, hkept, halive, hnone⟩
  rw [hconnection, hhandlers, Function.update_self] at halive hnone
  rw [hconnection] at hkept
  refine ⟨{ v.kept s.nextSubscriber session with
    owners := owners'', sessions := sessions'' }, ?_, ?_⟩
  · unfold handleSubscribe
    dsimp only
    rw [hsubscribe, hjoined]
    exact congrArg Except.ok hkept
  · refine { nextSubscriber_eq := ?_, nextObject_eq := ?_, old_eq := ?_,
             new_eq := ⟨session, ?_, hnone⟩, closeHandlers_eq := ?_,
             objects_eq := ?_, removals_eq := ?_, closed_eq := ?_,
             calls_eq := rfl, finishCalled_eq := ?_, alive := ?_ }
    · rw [kept, ← hv', ← hu']
      rfl
    · rw [kept, ← hv', ← hu']
      rfl
    · intro n hn
      rw [kept]
      dsimp only
      rw [Function.update_of_ne hn.ne, ← hv', joined]
      dsimp only
      rw [Function.update_of_ne hn.ne, evicted, hobject, hsubscriber, hclosing]
      refine without_congr ?_ _
      rw [← hu']
      exact Function.update_of_ne hn.ne _ _
    · rw [kept]
      dsimp only
      rw [Function.update_self, hconnection, hhandlers, Function.update_self,
        hpassed, subscribed, hsubscriber, hobject]
      rfl
    · rw [kept]
      dsimp only
      rw [hconnection, hhandlers, Function.update_self, Function.update_idem]
    · rw [kept, ← hv', joined]
      dsimp only
      rw [hobject, hsubscriber, ← hu']
      exact Function.update_idem ..
    · rw [kept, ← hv', joined]
      dsimp only
      rw [refusals, evicted, hobject, hsubscriber, hclosing, ← hu']
      rfl
    · rw [kept, ← hv', ← hu']
      rfl
    · rw [kept, ← hv', ← hu']
      rfl
    · intro hfree
      exact List.ne_nil_of_mem (halive hfree)

end State

end Cis
end CisWebui
