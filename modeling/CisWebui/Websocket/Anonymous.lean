import CisWebui.Websocket.Handlers

/-!
# Anonymous clients

What a request does on a connection whose client is not logged in.  Most events
answer with one error and leave everything alone.

The managers are the interfaces the handlers are written against.  Their store
is the database and the files on disk; the file cache stands beside it, and the
lookups read the store through it.
-/

namespace CisWebui
namespace Websocket

open Cpp Foundation

/-- `get_project_info`, `get_job_info` and `get_build_info` of the manager -/
def Call.isLookup : Call -> Bool
  | Call.getProjectInfo _ => true
  | Call.getJobInfo _ _ => true
  | Call.getBuildInfo _ _ _ => true
  | _ => false

structure Managers (Store Cache : Type) where
  perform : (c : Call) -> Store -> Cache -> c.Answer × Store × Cache
  lookup_store : forall (c : Call) (store : Store) (cache : Cache),
    c.isLookup = true -> (perform c store cache).2.1 = store

/-- One connection in front of the managers. -/
structure Connection (Store Cache : Type) where
  store : Store
  cache : Cache
  client : Option ClientInfo
  replies : List Reply

/-- What the operations do to a connection.  Whether a transaction that has
been moved from still sends is up to the protocol library. -/
def connectionMachine {Store Cache : Type} (managers : Managers Store Cache)
    (movedSends : Bool) : Machine Op Op.Answer (Connection Store Cache) where
  perform
    | Op.call c, w =>
        let (answer, store, cache) := managers.perform c w.store w.cache
        (answer, { w with store := store, cache := cache })
    | Op.reply r, w => ((), { w with replies := w.replies ++ [r] })
    | Op.replyMoved r, w =>
        ((), if movedSends then { w with replies := w.replies ++ [r] } else w)
    | Op.setClientInfo client, w => ((), { w with client := client })

/-- The events an anonymous client may use. -/
def Request.isPublic : Request -> Bool
  | Request.authLoginPass _ _ => true
  | Request.authLoginToken _ => true
  | Request.cisProjectListGet => true
  | Request.cisCronList _ => true
  | Request.systemVersionInfo => true
  | _ => false

section Inert

variable {Store Cache : Type} (managers : Managers Store Cache)
  (movedSends : Bool)

/-- The handler returns, and all it did was to send one error. -/
def InertRun (handler : Handler) (w : Connection Store Cache) : Prop :=
  let ending := handler.run (connectionMachine managers movedSends) w
  ending.1 = Except.ok () ∧
    (exists r : Reply, r.isError = true ∧
      ending.2.replies = w.replies ++ [r]) ∧
    ending.2.store = w.store

/-- The call comes back without an exception. -/
def Succeeds {α : Type} (p : Action (Cached α)) (w : Connection Store Cache) :
    Prop :=
  exists found,
    (p.run (connectionMachine managers movedSends) w).1 =
      Except.ok (Except.ok found)

/-- The event does nothing for a client that is not logged in, unless it is one
of the public ones. -/
def AnonymousInert (validCron : Str -> Bool) (ctx : RequestContext)
    (req : Request) (w : Connection Store Cache) : Prop :=
  req.isPublic = false ->
    InertRun managers movedSends
      (dispatch validCron { ctx with clientInfo := none } req) w

/-- What it takes: `add_cis_job` never returns, `add_cis_cron` sends its login
error through the transaction it moved from, and four handlers look something
up before they ask for the login. -/
def RefusedInTime (validCron : Str -> Bool) (w : Connection Store Cache) :
    Request -> Prop
  | Request.cisJobAdd _ _ => False
  | Request.cisCronAdd project job cronExpr =>
      validCron cronExpr = true ->
        movedSends = true ∧
          Succeeds managers movedSends (call (Call.getJobInfo project job)) w
  | Request.cisProjectInfo project =>
      Succeeds managers movedSends (call (Call.getProjectInfo project)) w
  | Request.cisJobInfo project job =>
      Succeeds managers movedSends (call (Call.getJobInfo project job)) w
  | Request.cisBuildInfo project job build =>
      Succeeds managers movedSends (call (Call.getBuildInfo project job build)) w
  | _ => True

variable {managers movedSends}

/-!
## Refusals
-/

theorem inertRun_reply {r : Reply} (hr : r.isError = true)
    (w : Connection Store Cache) :
    InertRun managers movedSends (reply r) w := by
  constructor
  · rfl
  constructor
  · exact ⟨r, hr, rfl⟩
  · rfl

theorem inertRun_replyMoved_iff {r : Reply} (hr : r.isError = true)
    (w : Connection Store Cache) :
    InertRun managers movedSends (Program.ask (Op.replyMoved r)) w <->
      movedSends = true := by
  cases movedSends with
  | true =>
      constructor
      · intro _
        rfl
      · intro _
        exact inertRun_reply hr w
  | false =>
      constructor
      · intro h
        rcases h.right.left with ⟨sent, _, hsent⟩
        have hnone : w.replies = w.replies ++ [sent] := hsent
        simp at hnone
      · intro h
        cases h

/-!
## Lookups
-/

/-- The lookups answer, and neither write to the store nor reply. -/
theorem run_lookup (c : Call) (hc : c.isLookup = true)
    (w : Connection Store Cache) :
    exists answer w',
      (call c).run (connectionMachine managers movedSends) w =
          (Except.ok answer, w') ∧
        w'.store = w.store ∧ w'.replies = w.replies :=
  ⟨_, _, rfl, managers.lookup_store c w.store w.cache hc, rfl⟩

/-- A handler that makes a lookup and does not use what it finds. -/
theorem inertRun_lookup_iff {α : Type} {p : Action (Cached α)}
    {next : Handler} {w : Connection Store Cache} {Q : Prop}
    (hlookup : exists answer w',
      p.run (connectionMachine managers movedSends) w =
          (Except.ok answer, w') ∧
        w'.store = w.store ∧ w'.replies = w.replies)
    (hnext : forall w', InertRun managers movedSends next w' <-> Q) :
    InertRun managers movedSends (surely p >>= fun _ => next) w <->
      Q ∧ Succeeds managers movedSends p w := by
  rcases hlookup with ⟨answer, w', hrun, hstore, hreplies⟩
  have hbind := Program.run_bind (connectionMachine managers movedSends)
    (surely p) (fun _ => next) w
  rw [run_surely hrun] at hbind
  unfold InertRun Succeeds
  rw [hbind, hrun]
  cases answer with
  | error f =>
      constructor
      · intro h
        cases h.left
      · intro h
        rcases h.right with ⟨found, hfound⟩
        cases hfound
  | ok a =>
      rw [← hnext w', InertRun, hstore, hreplies]
      constructor
      · intro h
        exact ⟨h, a, rfl⟩
      · intro h
        exact h.left

theorem inertRun_login_iff {α : Type} {p : Action (Cached α)}
    {w : Connection Store Cache}
    (hlookup : exists answer w',
      p.run (connectionMachine managers movedSends) w =
          (Except.ok answer, w') ∧
        w'.store = w.store ∧ w'.replies = w.replies) :
    InertRun managers movedSends (surely p >>= fun _ => loginRequired) w <->
      Succeeds managers movedSends p w := by
  have hlogin : forall w' : Connection Store Cache,
      InertRun managers movedSends loginRequired w' <-> True := by
    intro w'
    exact iff_true_intro (inertRun_reply rfl w')
  rw [inertRun_lookup_iff hlookup hlogin, true_and]

/-!
## The event table
-/

/-- The login error is on its way, but the handler does not return. -/
theorem not_inertRun_addCisJob (ctx : RequestContext) (project job : Str)
    (w : Connection Store Cache) :
    ¬ InertRun managers movedSends
      (addCisJob { ctx with clientInfo := none } project job) w := by
  intro h
  have hreturn := h.left
  unfold addCisJob at hreturn
  rw [Program.run_bind] at hreturn
  split at hreturn
  · cases hreturn
  · cases hreturn

theorem inertRun_withValidPath (ctx : RequestContext) (path : Str)
    (action : ClientInfo -> Handler) (w : Connection Store Cache) :
    InertRun managers movedSends
      (withValidPath { ctx with clientInfo := none } path action) w := by
  unfold withValidPath
  split
  · exact inertRun_reply rfl w
  · exact inertRun_reply rfl w

theorem inertRun_addCisCron_iff (validCron : Str -> Bool) (ctx : RequestContext)
    (project job cronExpr : Str) (w : Connection Store Cache) :
    InertRun managers movedSends
        (addCisCron validCron { ctx with clientInfo := none } project job
          cronExpr) w <->
      (validCron cronExpr = true ->
        movedSends = true ∧
          Succeeds managers movedSends (call (Call.getJobInfo project job)) w) := by
  unfold addCisCron
  cases hvalid : validCron cronExpr with
  | false =>
      simp only [Bool.false_eq_true, if_false, false_implies, iff_true]
      exact inertRun_reply rfl w
  | true =>
      simp only [if_true, true_implies]
      exact inertRun_lookup_iff
        (run_lookup (Call.getJobInfo project job) rfl w)
        fun w' => inertRun_replyMoved_iff rfl w'

/-- Which requests of an anonymous client are inert. -/
theorem anonymousInert_iff (validCron : Str -> Bool) (ctx : RequestContext)
    (req : Request) (w : Connection Store Cache) :
    AnonymousInert managers movedSends validCron ctx req w <->
      RefusedInTime managers movedSends validCron w req := by
  by_cases hpublic : req.isPublic = true
  · cases req with
    | authLoginPass | authLoginToken | cisProjectListGet | cisCronList
      | systemVersionInfo => exact iff_of_true (fun h => by cases h) trivial
    | _ => cases hpublic
  have hguard : AnonymousInert managers movedSends validCron ctx req w <->
      InertRun managers movedSends
        (dispatch validCron { ctx with clientInfo := none } req) w :=
    imp_iff_right (by simpa using hpublic)
  rw [hguard]
  cases req with
  | cisJobAdd project job =>
      exact iff_of_false (not_inertRun_addCisJob ctx project job w) id
  | cisCronAdd project job cronExpr =>
      exact inertRun_addCisCron_iff validCron ctx project job cronExpr w
  | cisProjectInfo project =>
      exact inertRun_login_iff (run_lookup (Call.getProjectInfo project) rfl w)
  | cisJobInfo project job =>
      exact inertRun_login_iff (run_lookup (Call.getJobInfo project job) rfl w)
  | cisBuildInfo project job build =>
      exact inertRun_login_iff
        (run_lookup (Call.getBuildInfo project job build) rfl w)
  | fsEntryInfo path =>
      rw [dispatch, getFsEntryInfo]
      exact iff_of_true (inertRun_withValidPath ctx path _ w) trivial
  | fsEntryList path =>
      rw [dispatch, listDirectory]
      exact iff_of_true (inertRun_withValidPath ctx path _ w) trivial
  | authLoginPass | authLoginToken | cisProjectListGet | cisCronList
    | systemVersionInfo => exact absurd rfl hpublic
  | _ => exact iff_of_true (inertRun_reply rfl w) trivial

end Inert

/-!
## A job added by nobody
-/

/-- One project, and managers that fail on everything else. -/
def oneProject : Managers Unit Unit where
  perform
    | Call.getProjectInfo _, _, _ =>
        (Except.ok (some
          { path := str "/cis/jobs/web", kind := EntryKind.directory }), (), ())
    | _, _, _ => (default, (), ())
  lookup_store _ _ _ _ := rfl

theorem anonymousInert_not_everywhere :
    ¬ forall ctx : RequestContext,
      AnonymousInert oneProject true (fun _ => true) ctx
        (Request.cisJobAdd (str "web") (str "deploy"))
        { store := (), cache := (), client := none, replies := [] } := by
  intro h
  have hrun := h
    { clientInfo := none
      cookies := []
      resStatus := Status.ok
      allowedVerbs := []
      error := [] } rfl
  cases hrun.left

end Websocket
end CisWebui
