import CisWebui.Net.WebsocketSession

/-!
# Pings

The timer of `basic_websocket_session`: when nothing has come from the peer for a while
it sends a ping, and when nothing comes after that it closes the socket.  The clock is
part of the state; a ping takes as long to be written as the environment likes.
-/

namespace CisWebui
namespace Net

open Foundation

/-- `std::chrono::seconds(15)` in nanoseconds. -/
def pingInterval : Nat :=
  15 * 10 ^ 9

/-- The timer, the stream and `ping_state_`.  `waits` and `pings` count the operations
that have not completed; `overtaken` and `assertFailed` only record what has happened. -/
structure BasicWebsocketSession where
  now : Nat
  /-- No time is `time_point::max`. -/
  expiry : Option Nat
  waits : Nat
  isOpen : Bool
  pingState : Nat
  pings : Nat
  /-- Something has come from the peer while a ping was being written. -/
  overtaken : Bool
  assertFailed : Bool
deriving DecidableEq, Repr

namespace BasicWebsocketSession

/-!
## The operations
-/

def constructed : BasicWebsocketSession where
  now := 0
  expiry := none
  waits := 0
  isOpen := false
  pingState := 0
  pings := 0
  overtaken := false
  assertFailed := false

/-- `timer_.expires_after` -/
def expiresAfter (s : BasicWebsocketSession) (interval : Nat) : BasicWebsocketSession :=
  { s with expiry := some (s.now + interval) }

/-- `timer_.expiry() <= now()` -/
def expired (s : BasicWebsocketSession) : Bool :=
  s.expiry.any fun expiry => expiry <= s.now

/-- `timer_.async_wait` -/
def asyncWait (s : BasicWebsocketSession) : BasicWebsocketSession :=
  { s with waits := s.waits + 1 }

/-- `ws_.async_ping` -/
def asyncPing (s : BasicWebsocketSession) : BasicWebsocketSession :=
  { s with pings := s.pings + 1 }

/-- The first expiry: the ping is noted, the timer set, and the ping sent. -/
def sendPing (s : BasicWebsocketSession) : BasicWebsocketSession :=
  ({ s with pingState := 1 }.expiresAfter pingInterval).asyncPing

/-- `on_timer` -/
def onTimer (s : BasicWebsocketSession) (ec : IoResult) : BasicWebsocketSession :=
  match ec with
  | IoResult.closed | IoResult.failed => s
  | IoResult.ok | IoResult.operationAborted =>
      if s.expired then
        if s.isOpen ∧ s.pingState = 0 then
          s.sendPing.asyncWait
        else
          -- the socket is closed, and the timer is not waited for again
          s
      else
        s.asyncWait

/-- `activity` -/
def activity (s : BasicWebsocketSession) : BasicWebsocketSession :=
  { s with
    pingState := 0
    overtaken := decide (0 < s.pings) }.expiresAfter pingInterval

/-- `on_ping` -/
def onPing (s : BasicWebsocketSession) (ec : IoResult) : BasicWebsocketSession :=
  match ec with
  | IoResult.ok =>
      if s.pingState = 1 then
        { s with pingState := 2 }
      else
        { s with assertFailed := s.assertFailed || decide (s.pingState ≠ 0) }
  | _ => s

/-- The timer's part of `do_accept`. -/
def doAccept : BasicWebsocketSession :=
  (constructed.onTimer IoResult.ok).expiresAfter pingInterval

/-!
## The event system
-/

/-- What can happen to the session: time passes, the stream opens or closes, the peer
sends something, and the operations complete. -/
inductive TimerEvent where
  | elapse (time : Nat)
  | status (isOpen : Bool)
  | activity
  | timerDone (ec : IoResult)
  | pingDone (ec : IoResult)
deriving DecidableEq, Repr

def timerStep (s : BasicWebsocketSession) : TimerEvent -> Option BasicWebsocketSession
  | TimerEvent.elapse time => some { s with now := s.now + time }
  | TimerEvent.status isOpen => some { s with isOpen := isOpen }
  | TimerEvent.activity => some s.activity
  | TimerEvent.timerDone ec =>
      if s.waits = 0 then none else some ({ s with waits := s.waits - 1 }.onTimer ec)
  | TimerEvent.pingDone ec =>
      if s.pings = 0 then
        none
      else
        some ({ s with pings := s.pings - 1, overtaken := false }.onPing ec)

def timerSystem : EventSystem BasicWebsocketSession TimerEvent where
  init := doAccept
  step := timerStep

/-- At most one ping is being written, and the assertion in `on_ping` has held. -/
def OnePing (s : BasicWebsocketSession) : Prop :=
  s.pings <= 1 ∧ s.assertFailed = false

/-- When the timer expires on an open stream, no ping is still being written that the
peer was active after. -/
def NotOvertaken (s : BasicWebsocketSession) : TimerEvent -> Prop
  | TimerEvent.timerDone ec =>
      (ec = IoResult.ok ∨ ec = IoResult.operationAborted) -> s.expired = true ->
        s.isOpen = true -> s.overtaken = false
  | _ => True

/-!
## What `ping_state_` stands for
-/

/-- While a ping is being written the state is 1, or 0 if the peer was active. -/
structure Tracks (s : BasicWebsocketSession) : Prop where
  one : s.pings <= 1
  asserted : s.assertFailed = false
  writing : s.pings = 1 -> s.pingState <= 1
  overtaken : s.overtaken = true <-> s.pings = 1 ∧ s.pingState = 0

section Steps

variable {s : BasicWebsocketSession}

theorem tracks_doAccept : Tracks doAccept := by
  constructor
  · decide
  · rfl
  · decide
  · decide

theorem tracks_activity (h : s.Tracks) : s.activity.Tracks := by
  have hone := h.one
  constructor
  · exact h.one
  · exact h.asserted
  · intro _
    exact Nat.zero_le 1
  · show decide (0 < s.pings) = true <-> s.pings = 1 ∧ 0 = 0
    rw [decide_eq_true_eq]
    omega

theorem tracks_onPing (h : s.Tracks) (hping : s.pings ≠ 0) (ec : IoResult) :
    ({ s with pings := s.pings - 1, overtaken := false }.onPing ec).Tracks := by
  have hone : s.pings = 1 := by
    have hle := h.one
    omega
  have hstate := h.writing hone
  have hnone : s.pings - 1 = 0 := by
    omega
  have hasserted := h.asserted
  unfold onPing
  cases ec with
  | ok =>
      dsimp only
      split
      · exact ⟨by simp [hnone], hasserted, by simp [hnone], by simp [hnone]⟩
      · rename_i hother
        have hzero : s.pingState = 0 := by
          omega
        exact ⟨by simp [hnone], by simp [hasserted, hzero], by simp [hnone], by simp [hnone]⟩
  | operationAborted | closed | failed =>
      exact ⟨by simp [hnone], hasserted, by simp [hnone], by simp [hnone]⟩

/-- A timer sends a ping, or else only waits again if it does anything. -/
theorem onTimer_cases (s : BasicWebsocketSession) (ec : IoResult) :
    (s.onTimer ec = s.sendPing.asyncWait ∧
      (ec = IoResult.ok ∨ ec = IoResult.operationAborted) ∧ s.expired = true ∧
        s.isOpen = true ∧ s.pingState = 0) ∨
      s.onTimer ec = s ∨ s.onTimer ec = s.asyncWait := by
  unfold onTimer
  cases ec with
  | closed | failed => exact Or.inr (Or.inl rfl)
  | ok =>
      dsimp only
      split
      · rename_i hexpired
        split
        · rename_i hping
          exact Or.inl ⟨rfl, Or.inl rfl, hexpired, hping.left, hping.right⟩
        · exact Or.inr (Or.inl rfl)
      · exact Or.inr (Or.inr rfl)
  | operationAborted =>
      dsimp only
      split
      · rename_i hexpired
        split
        · rename_i hping
          exact Or.inl ⟨rfl, Or.inr rfl, hexpired, hping.left, hping.right⟩
        · exact Or.inr (Or.inl rfl)
      · exact Or.inr (Or.inr rfl)

theorem onTimer_ping {ec : IoResult} (hec : ec = IoResult.ok ∨ ec = IoResult.operationAborted)
    (hexpired : s.expired = true) (hopen : s.isOpen = true) (hstate : s.pingState = 0) :
    s.onTimer ec = s.sendPing.asyncWait := by
  rcases hec with rfl | rfl
  · simp only [onTimer]
    rw [if_pos hexpired, if_pos ⟨hopen, hstate⟩]
  · simp only [onTimer]
    rw [if_pos hexpired, if_pos ⟨hopen, hstate⟩]

theorem tracks_sendPing (h : s.Tracks) (hstate : s.pingState = 0)
    (hovertaken : s.overtaken = false) : s.sendPing.asyncWait.Tracks := by
  have hnone : s.pings = 0 := by
    have hle := h.one
    have hnot : ¬ (s.pings = 1 ∧ s.pingState = 0) := by
      rw [← h.overtaken, hovertaken]
      exact Bool.false_ne_true
    omega
  constructor
  · show s.pings + 1 <= 1
    omega
  · exact h.asserted
  · intro _
    exact Nat.le_refl 1
  · show s.overtaken = true <-> s.pings + 1 = 1 ∧ 1 = 0
    simp [hovertaken]

theorem tracks_step {e : TimerEvent} {t : BasicWebsocketSession} (h : s.Tracks)
    (hguard : s.NotOvertaken e) (hstep : s.timerStep e = some t) : t.Tracks := by
  cases e with
  | elapse time =>
      cases hstep
      exact ⟨h.one, h.asserted, h.writing, h.overtaken⟩
  | status isOpen =>
      cases hstep
      exact ⟨h.one, h.asserted, h.writing, h.overtaken⟩
  | activity =>
      cases hstep
      exact tracks_activity h
  | timerDone ec =>
      rw [timerStep] at hstep
      split at hstep
      · cases hstep
      · cases hstep
        let waited := { s with waits := s.waits - 1 }
        have hwaited : waited.Tracks := ⟨h.one, h.asserted, h.writing, h.overtaken⟩
        show (waited.onTimer ec).Tracks
        rcases onTimer_cases waited ec with ⟨heq, hec, hexpired, hopen, hstate⟩ | heq | heq
        · rw [heq]
          exact tracks_sendPing hwaited hstate (hguard hec hexpired hopen)
        · rw [heq]
          exact hwaited
        · rw [heq]
          exact ⟨h.one, h.asserted, h.writing, h.overtaken⟩
  | pingDone ec =>
      rw [timerStep] at hstep
      split at hstep
      · cases hstep
      · rename_i hping
        cases hstep
        exact tracks_onPing h hping ec

theorem notOvertaken_of_onePing {e : TimerEvent} {t : BasicWebsocketSession} (h : s.Tracks)
    (hstep : s.timerStep e = some t) (ht : t.OnePing) : s.NotOvertaken e := by
  cases e with
  | timerDone ec =>
      intro hec hexpired hopen
      rw [timerStep] at hstep
      split at hstep
      · cases hstep
      · cases hovertaken : s.overtaken with
        | false => rfl
        | true =>
            rcases h.overtaken.mp hovertaken with ⟨hpings, hstate⟩
            have hping : { s with waits := s.waits - 1 }.onTimer ec =
                { s with waits := s.waits - 1 }.sendPing.asyncWait :=
              onTimer_ping hec hexpired hopen hstate
            rw [hping] at hstep
            cases hstep
            have htwo : s.pings + 1 <= 1 := ht.left
            omega
  | elapse time | status isOpen | activity | pingDone ec => trivial

end Steps

/-- A run never has two pings outstanding, nor the assertion failed, just when the timer
never expires behind the activity of the peer while a ping is being written. -/
theorem everyState_onePing_iff (events : List TimerEvent) :
    timerSystem.EveryState OnePing doAccept events <->
      timerSystem.EveryStep NotOvertaken doAccept events := by
  refine @EventSystem.everyState_iff_everyStep _ _ timerSystem Tracks OnePing
    NotOvertaken ?_ ?_ ?_ doAccept events tracks_doAccept
  · intro s e t hs hguard hstep
    exact tracks_step hs hguard hstep
  · intro s e t hs hstep ht
    exact notOvertaken_of_onePing hs hstep ht
  · intro s hs
    exact ⟨hs.one, hs.asserted⟩

/-- The peer is active while the first ping is being written, and the timer expires
again: two pings are outstanding, and when both are written the assertion fails. -/
theorem everyState_onePing_not_everywhere :
    (¬ forall events : List TimerEvent,
        timerSystem.EveryState (fun s => s.pings <= 1) doAccept events) ∧
      ¬ forall events : List TimerEvent,
        timerSystem.EveryState (fun s => s.assertFailed = false) doAccept events := by
  let first := [TimerEvent.status true, TimerEvent.elapse pingInterval,
    TimerEvent.timerDone IoResult.ok, TimerEvent.activity, TimerEvent.elapse pingInterval,
    TimerEvent.timerDone IoResult.ok]
  constructor
  · intro h
    have hlast := EventSystem.everyState_last (h first) rfl
    exact absurd hlast (by decide)
  · intro h
    have hlast := EventSystem.everyState_last
      (h (first ++ [TimerEvent.pingDone IoResult.ok, TimerEvent.pingDone IoResult.ok])) rfl
    exact absurd hlast (by decide)

end BasicWebsocketSession
end Net
end CisWebui
