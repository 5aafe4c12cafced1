import CisWebui.Websocket.AccountServer
import CisWebui.Websocket.Mediation

/-!
# Mediated handlers

Every handler of the event table, shown to ask in the order that the module in
front describes.  The lemmas follow the handlers; each of them carries what has
been granted past the answers that come after it.
-/

namespace CisWebui
namespace Websocket

open Cpp FilesystemPath Foundation Program

/-!
## Logins and accounts
-/

section Accounts

variable {ctx : RequestContext} {req : Request} {held : Answered}

theorem mediated_finishLogin {email token : Str}
    (hreq : req.LogsIn { email := email, activeToken := token, apiAccessKey := [] })
    (hlogin : held.LogsIn { email := email, activeToken := token, apiAccessKey := [] }) :
    Mediated ctx req anyEnd held (finishLogin email token) := by
  have hset : Permitted ctx req held (Op.setClientInfo
      (some { email := email, activeToken := token, apiAccessKey := [] })) := ⟨hreq, hlogin⟩
  apply guarded_bind (guarded_ask hset)
  intro held' _ hle _
  have hask : Permitted ctx req held' (Op.call (Call.isAdmin email)) :=
    Or.inr ⟨_, hlogin.mono hle, rfl⟩
  apply guarded_bind (mediated_call hask)
  intro held'' answer _ _
  apply mediated_checkEc
  intro admin _
  exact mediated_reply _

theorem mediated_loginPass (email pass : Str) :
    Mediated ctx (Request.authLoginPass email pass) anyEnd held (loginPass email pass) := by
  apply guarded_bind
    (mediated_call (permitted_open (Call.authenticatePass email pass) trivial rfl))
  intro held' answer hle htold
  apply mediated_checkEc
  intro token htoken
  subst htoken
  cases token with
  | none => exact mediated_reply _
  | some token => exact mediated_finishLogin (Or.inl ⟨pass, rfl⟩) (Or.inl ⟨pass, htold⟩)

theorem mediated_loginToken (token : Str) :
    Mediated ctx (Request.authLoginToken token) anyEnd held (loginToken token) := by
  apply guarded_bind (mediated_call
    (permitted_open (Call.authenticateToken token) trivial (Or.inl rfl)))
  intro held' answer hle htold
  apply mediated_checkEc
  intro email hemail
  subst hemail
  cases email with
  | none => exact mediated_reply _
  | some email => exact mediated_finishLogin (Or.inr rfl) (Or.inr htold)

theorem mediated_deleteToken {client : ClientInfo} (hclient : ctx.clientInfo = some client)
    {token : Str}
    (hown : held.Says (Call.authenticateToken token) (Except.ok (some client.email))) :
    Mediated ctx (Request.authLogout token) anyEnd held (do
      checkEc (← call (Call.deleteToken token)) fun _ => send Success.authLogout) := by
  apply guarded_bind
    (mediated_call (permitted_call (Call.deleteToken token) hclient hown rfl))
  intro held' answer _ _
  apply mediated_checkEc
  intro deleted _
  exact mediated_reply _

/-- A token is deleted only after it has been shown to be the client's own. -/
theorem mediated_logout (token : Str) :
    Mediated ctx (Request.authLogout token) anyEnd held (logout ctx token) := by
  unfold logout
  cases hclient : ctx.clientInfo with
  | none => exact mediated_reply _
  | some client =>
      apply guarded_bind (mediated_call
        (permitted_open (Call.authenticateToken token) trivial (Or.inr rfl)))
      intro held' answer hle htold
      apply mediated_checkEc
      intro email hemail
      subst hemail
      simp only
      split
      · next hown =>
          rw [hown] at htold
          split
          · next hactive =>
              have hleave : Permitted ctx (Request.authLogout token) held'
                  (Op.setClientInfo none) :=
                ⟨client, hclient, hactive ▸ htold⟩
              apply guarded_bind (guarded_ask hleave)
              intro held'' _ hle' _
              exact mediated_deleteToken hclient (hle' htold)
          · exact mediated_deleteToken hclient htold
      · exact mediated_reply _

theorem mediated_change {client : ClientInfo} (hclient : ctx.clientInfo = some client)
    {email oldPassword newPassword : Str}
    (hmay : (Call.changePass email newPassword).Permitted held client.email) :
    Mediated ctx (Request.userChangePass email oldPassword newPassword) anyEnd held
      (change email newPassword) := by
  apply guarded_bind (mediated_call (permitted_call _ hclient hmay ⟨oldPassword, rfl⟩))
  intro held' answer hle htold
  apply mediated_checkEc
  intro ok hok
  cases ok with
  | false =>
      apply guarded_bind (mediated_reply _)
      intro _ _ _ _
      exact mediated_reply _
  | true => exact mediated_reply _

theorem mediated_changePass (email oldPassword newPassword : Str) :
    Mediated ctx (Request.userChangePass email oldPassword newPassword) anyEnd held
      (changePass ctx email oldPassword newPassword) := by
  unfold changePass
  cases hclient : ctx.clientInfo with
  | none => exact mediated_reply _
  | some client =>
      apply guarded_bind (mediated_call (permitted_isAdmin hclient))
      intro held' answer hle htold
      apply mediated_checkEc
      intro admin hadmin
      subst hadmin
      cases admin with
      | true => exact mediated_change hclient (Or.inl htold)
      | false =>
          simp only [Bool.false_eq_true, if_false]
          split
          · exact mediated_reply _
          · next hsame =>
              have hself : email = client.email := (not_not.mp hsame).symm
              apply guarded_bind (mediated_surely (mediated_call (permitted_call
                (Call.checkPass client.email oldPassword) hclient rfl
                ⟨newPassword, hself ▸ rfl⟩)))
              intro held'' samePass hle' hpass
              cases samePass with
              | false => exact mediated_reply _
              | true =>
                  exact mediated_change hclient
                    (Or.inr ⟨hself, oldPassword, hpass⟩)

/-- What an administrator asks for is permitted, and is followed by a reply. -/
theorem mediated_setPermissionList {client : ClientInfo}
    (hclient : ctx.clientInfo = some client) (hadmin : held.Admin client.email) {email : Str}
    {permissions : List Permission} (hreq : req = Request.adminUserPermissionSet email permissions)
    (sent : List Permission) (hsent : sent ⊆ permissions) :
    Mediated ctx req anyEnd held (setPermissionList email sent) := by
  induction sent generalizing held with
  | nil => exact mediated_reply _
  | cons perm rest ih =>
      have hfirst : perm ∈ permissions := hsent List.mem_cons_self
      apply guarded_bind (mediated_call (permitted_call
        (Call.setUserProjectPermissions email perm.name perm.rights) hclient hadmin
        ⟨permissions, hreq, hfirst⟩))
      intro held' answer hle _
      apply mediated_checkEc
      intro _ _
      exact ih (hle hadmin) (fun _ hperm => hsent (List.mem_cons_of_mem _ hperm))

end Accounts

/-!
## Projects, jobs and builds
-/

section Projects

variable {ctx : RequestContext} {req : Request} {held : Answered} {client : ClientInfo}

/-- The entries of a project list, each with a question about the client's own right. -/
theorem mediated_listProjectEntries (root : Str) (listed : List Listed) :
    Mediated ctx req (fun _ _ => True) held (listProjectEntries ctx root listed) := by
  induction listed generalizing held with
  | nil => trivial
  | cons first rest ih =>
      have hfirst : Mediated ctx req (fun _ _ => True) held (listProjectEntry ctx root first) := by
        unfold listProjectEntry
        split
        · next entry =>
            cases hclient : ctx.clientInfo with
            | none => trivial
            | some client =>
                apply guarded_bind (mediated_call (permitted_call
                  (Call.checkProjectRight client.email (makeDirEntry root entry).name)
                  hclient rfl trivial))
                intro _ _ _ _
                trivial
        · trivial
      apply guarded_bind hfirst
      intro held' entry _ _
      apply guarded_bind ih
      intro held'' entries _ _
      trivial

theorem mediated_listProjects : Mediated ctx req anyEnd held (listProjects ctx) := by
  apply guarded_bind
    (mediated_surely (mediated_call (permitted_open Call.getProjectList trivial trivial)))
  intro held' listed _ _
  apply guarded_bind (mediated_call (permitted_open Call.rootPath trivial trivial))
  intro held'' root _ _
  apply guarded_bind (mediated_listProjectEntries root listed)
  intro _ entries _ _
  exact mediated_reply _

theorem mediated_getProjectInfo (project : Str) :
    Mediated ctx req anyEnd held (getProjectInfo ctx project) := by
  apply guarded_bind
    (mediated_surely (mediated_call (permitted_open (Call.getProjectInfo project) trivial trivial)))
  intro held' found _ hfound
  cases hclient : ctx.clientInfo with
  | none => exact mediated_reply _
  | some client =>
      apply mediated_withRight hclient (fun _ => mediated_reply _)
      intro held'' entry hle hentry hright
      subst hentry
      apply guarded_bind (mediated_surely (mediated_call (permitted_call
        (Call.getJobList entry) hclient ⟨project, hle hfound, hright⟩ trivial)))
      intro held₃ listed _ _
      apply guarded_bind (mediated_call (permitted_open Call.rootPath trivial trivial))
      intro _ root _ _
      exact mediated_reply _

theorem mediated_addCisProject (project : Str) :
    Mediated ctx (Request.cisProjectAdd project) anyEnd held (addCisProject ctx project) := by
  unfold addCisProject
  cases hclient : ctx.clientInfo with
  | none => exact mediated_reply _
  | some client =>
      apply guarded_bind (mediated_surely (mediated_call
        (permitted_open (Call.getProjectInfo project) trivial trivial)))
      intro held' found _ _
      cases found with
      | some entry => exact mediated_reply _
      | none =>
          apply guarded_bind (mediated_call (permitted_isAdmin hclient))
          intro held'' answer _ htold
          apply mediated_checkEc
          intro admin hadmin
          subst hadmin
          cases admin with
          | false => exact mediated_reply _
          | true =>
              apply guarded_bind (mediated_surely (mediated_call
                (permitted_call (Call.createProject project) hclient htold rfl)))
              intro _ created _ _
              apply mediated_checkEc
              intro _ _
              exact mediated_reply _

theorem mediated_removeCisProject (project : Str) :
    Mediated ctx req anyEnd held (removeCisProject ctx project) := by
  unfold removeCisProject
  cases hclient : ctx.clientInfo with
  | none => exact mediated_reply _
  | some client =>
      apply guarded_bind (mediated_surely (mediated_call
        (permitted_open (Call.getProjectInfo project) trivial trivial)))
      intro held' found _ hfound
      apply mediated_withRight hclient (fun _ => mediated_reply _)
      intro held'' entry hle hentry hright
      subst hentry
      apply guarded_bind (mediated_surely (mediated_call (permitted_call
        (Call.removeProject entry) hclient ⟨project, hle hfound, hright⟩ trivial)))
      intro _ removed _ _
      apply mediated_checkEc
      intro _ _
      exact mediated_reply _

/-- Every file of a new job lies in its directory. -/
theorem mediated_createJob (hclient : ctx.clientInfo = some client) {project job : Str}
    (hright : held.Grants client.email project ProjectRights.write) :
    Mediated ctx req anyEnd held (createJob project job) := by
  have hdir : forall held', held ⊆ held' ->
      held'.GrantsPlace client.email (jobPath project job) :=
    fun held' hle => ⟨project, hright.mono hle, Or.inl ⟨job, rfl⟩⟩
  have hfile : forall held' name, held ⊆ held' ->
      held'.GrantsPlace client.email (append (jobPath project job) name) :=
    fun held' name hle => ⟨project, hright.mono hle, Or.inr (Or.inr ⟨job, name, rfl⟩)⟩
  apply guarded_bind (mediated_surely (mediated_call (permitted_call
    (Call.find (jobPath project job)) hclient
    (Or.inr (Or.inr (hdir held (Set.Subset.refl held)))) trivial)))
  intro held₁ found h₁ _
  cases found with
  | some entry => exact mediated_reply _
  | none =>
      apply guarded_bind (mediated_surely (mediated_call (permitted_call
        (Call.createDirectory (jobPath project job)) hclient (Or.inr (hdir held₁ h₁)) trivial)))
      intro held₂ directory h₂ _
      apply mediated_checkEcMsg
      intro _ _
      apply guarded_bind (mediated_surely (mediated_call (permitted_call
        (Call.createFileW (append (jobPath project job) (str "script"))) hclient
        (hfile held₂ _ (h₁.trans h₂)) trivial)))
      intro held₃ script h₃ _
      apply mediated_checkEcMsg
      intro _ _
      apply guarded_bind (mediated_call (permitted_call
        (Call.setPermissions (append (jobPath project job) (str "script"))
          PermChange.replaceWithScript) hclient
        (hfile held₃ _ ((h₁.trans h₂).trans h₃)) trivial))
      intro held₄ changed h₄ _
      apply mediated_checkEcMsg
      intro _ _
      apply guarded_bind (mediated_surely (mediated_call (permitted_call
        (Call.createFileW (append (jobPath project job) (str "job.params"))) hclient
        (hfile held₄ _ (((h₁.trans h₂).trans h₃).trans h₄)) trivial)))
      intro held₅ params h₅ _
      apply mediated_checkEcMsg
      intro _ _
      apply guarded_bind (mediated_surely (mediated_call (permitted_call
        (Call.createFileW (append (jobPath project job) (str "job.conf"))) hclient
        (hfile held₅ _ ((((h₁.trans h₂).trans h₃).trans h₄).trans h₅)) trivial)))
      intro held₆ conf h₆ _
      apply mediated_checkEcMsg
      intro _ _
      apply guarded_bind (mediated_call (permitted_call
        (Call.writeFile (append (jobPath project job) (str "job.conf")) jobConfText) hclient
        (hfile held₆ _ (((((h₁.trans h₂).trans h₃).trans h₄).trans h₅).trans h₆)) trivial))
      intro _ _ _ _
      exact mediated_reply _

theorem mediated_addCisJob (project job : Str) :
    Mediated ctx req anyEnd held (addCisJob ctx project job) := by
  apply guarded_bind (mediated_surely (mediated_call
    (permitted_open (Call.getProjectInfo project) trivial trivial)))
  intro held' found _ hfound
  unfold clientInfoValue
  cases hclient : ctx.clientInfo with
  | none => exact ⟨trivial, fun _ => trivial⟩
  | some client =>
      apply mediated_withRight hclient (fun _ => mediated_reply _)
      intro held'' entry _ _ hright
      exact mediated_createJob hclient hright

/-- What is removed was found where the client may write. -/
theorem mediated_removeFound (hclient : ctx.clientInfo = some client) {path : Str}
    (hplace : held.GrantsPlace client.email path) {success : Success} {missing : Handler}
    (hmissing : forall held', Mediated ctx req anyEnd held' missing) :
    Mediated ctx req anyEnd held (removeFound path success missing) := by
  apply guarded_bind (mediated_surely (mediated_call
    (permitted_call (Call.find path) hclient (Or.inr (Or.inr hplace)) trivial)))
  intro held' found hle hfound
  cases found with
  | none => exact hmissing held'
  | some entry =>
      rcases hplace with ⟨project, hright, hpath⟩
      apply guarded_bind (mediated_surely (mediated_call (permitted_call
        (Call.removeEntry entry) hclient ⟨path, hfound, project, hright.mono hle, hpath⟩
        trivial)))
      intro _ _ _ _
      exact mediated_reply _

theorem mediated_removeCisJob (project job : Str) :
    Mediated ctx req anyEnd held (removeCisJob ctx project job) := by
  unfold removeCisJob
  cases hclient : ctx.clientInfo with
  | none => exact mediated_reply _
  | some client =>
      apply guarded_bind (mediated_surely (mediated_call
        (permitted_open (Call.getJobInfo project job) trivial trivial)))
      intro held' found _ _
      apply mediated_withRight hclient (fun _ => mediated_reply _)
      intro held'' info _ _ hright
      exact mediated_removeFound hclient ⟨project, hright, Or.inl ⟨job, rfl⟩⟩
        (fun _ => mediated_reply _)

theorem mediated_removeCisBuild (project job build : Str) :
    Mediated ctx req anyEnd held (removeCisBuild ctx project job build) := by
  unfold removeCisBuild
  cases hclient : ctx.clientInfo with
  | none => exact mediated_reply _
  | some client =>
      apply guarded_bind (mediated_surely (mediated_call
        (permitted_open (Call.getBuildInfo project job build) trivial trivial)))
      intro held' found _ _
      apply mediated_withRight hclient (fun _ => mediated_reply _)
      intro held'' info _ _ hright
      exact mediated_removeFound hclient
        ⟨project, hright, Or.inr (Or.inl ⟨job, build, rfl⟩)⟩ (fun _ => mediated_reply _)

theorem mediated_jobProperties (hclient : ctx.clientInfo = some client) {entry : DirEntry}
    (hjob : held.GrantsJob client.email ProjectRights.read entry) (root : Str) :
    Mediated ctx req (fun _ _ => True) held (jobProperties root entry) := by
  apply guarded_bind (mediated_surely (mediated_call
    (permitted_call (Call.getScriptEntry entry) hclient hjob trivial)))
  intro held' script hle _
  apply guarded_bind (mediated_surely (mediated_call
    (permitted_call (Call.getParamsEntry entry) hclient (hjob.mono hle) trivial)))
  intro held'' params hle' _
  apply guarded_bind (mediated_surely (mediated_call
    (permitted_call (Call.getConfEntry entry) hclient (hjob.mono (hle.trans hle')) trivial)))
  intro _ conf _ _
  cases conf with
  | none => trivial
  | some conf => trivial

theorem mediated_getJobInfo (project job : Str) :
    Mediated ctx req anyEnd held (getJobInfo ctx project job) := by
  apply guarded_bind (mediated_surely (mediated_call
    (permitted_open (Call.getJobInfo project job) trivial trivial)))
  intro held' found _ hfound
  cases hclient : ctx.clientInfo with
  | none => exact mediated_reply _
  | some client =>
      apply mediated_withRight hclient (fun _ => mediated_reply _)
      intro held'' info hle hinfo hright
      subst hinfo
      have hjob : held''.GrantsJob client.email ProjectRights.read info.entry :=
        ⟨project, job, info, hle hfound, rfl, hright⟩
      apply guarded_bind (mediated_call (permitted_open Call.rootPath trivial trivial))
      intro held₃ root h₃ _
      apply guarded_bind (mediated_surely (mediated_call
        (permitted_call (Call.getBuildList info.entry) hclient (hjob.mono h₃) trivial)))
      intro held₄ listed h₄ _
      apply guarded_bind (mediated_jobProperties hclient (hjob.mono (h₃.trans h₄)) root)
      intro _ properties _ _
      exact mediated_reply _

theorem mediated_startTask {task : Task} (htask : forall held', held ⊆ held' ->
    Permitted ctx req held' (Op.call (Call.start task))) :
    Mediated ctx req anyEnd held (startTask task) := by
  apply guarded_bind (mediated_call (permitted_open Call.hasExecutor trivial trivial))
  intro held' executor hle _
  cases executor with
  | true => exact ⟨htask held' hle, fun _ => trivial⟩
  | false => trivial

/-- A run is started under the client's own name. -/
theorem mediated_runJob (project job : Str) (force : Bool) (params : List (Str × Str)) :
    Mediated ctx req anyEnd held (runJob ctx project job force params) := by
  unfold runJob
  cases hclient : ctx.clientInfo with
  | none => exact mediated_reply _
  | some client =>
      apply guarded_bind (mediated_surely (mediated_call
        (permitted_open (Call.getJobInfo project job) trivial trivial)))
      intro held' found _ hfound
      apply mediated_withRight hclient (fun _ => mediated_reply _)
      intro held'' info hle hinfo hright
      subst hinfo
      split
      · exact mediated_reply _
      · apply mediated_startTask
        intro held₃ h₃
        exact permitted_call _ hclient
          ⟨rfl, ⟨info, h₃ (hle hfound)⟩, hright.mono h₃⟩ trivial

theorem mediated_getBuildInfo (project job build : Str) :
    Mediated ctx req anyEnd held (getBuildInfo ctx project job build) := by
  apply guarded_bind (mediated_surely (mediated_call
    (permitted_open (Call.getBuildInfo project job build) trivial trivial)))
  intro held' found _ hfound
  simp only
  cases hclient : ctx.clientInfo with
  | none => exact mediated_reply _
  | some client =>
      apply mediated_withRight hclient (fun _ => mediated_reply _)
      rintro held'' ⟨entry, info⟩ hle hinfo hright
      subst hinfo
      apply guarded_bind (mediated_surely (mediated_call (permitted_call
        (Call.listFiles entry) hclient
        (Or.inl ⟨project, job, build, info, hle hfound, hright⟩) trivial)))
      intro _ files _ _
      apply guarded_bind (mediated_call (permitted_open Call.rootPath trivial trivial))
      intro _ root _ _
      exact mediated_reply _

end Projects

/-!
## Files
-/

section Files

variable {ctx : RequestContext} {req : Request} {held : Answered} {client : ClientInfo}

theorem mediated_getFsEntryInfo (path : Str) :
    Mediated ctx req anyEnd held (getFsEntryInfo ctx path) := by
  apply mediated_withValidPath
  intro client hclient
  apply mediated_withPathRight hclient
  intro held' _ hright
  apply guarded_bind (mediated_surely (mediated_call
    (permitted_call (Call.find path) hclient (Or.inl hright) trivial)))
  intro held'' found _ _
  cases found with
  | none => exact mediated_reply _
  | some entry =>
      apply guarded_bind (mediated_call (permitted_open Call.rootPath trivial trivial))
      intro _ root _ _
      exact mediated_reply _

theorem mediated_listDirectory (path : Str) :
    Mediated ctx req anyEnd held (listDirectory ctx path) := by
  apply mediated_withValidPath
  intro client hclient
  apply mediated_withPathRight hclient
  intro held' _ hright
  apply guarded_bind (mediated_surely (mediated_call
    (permitted_call (Call.find path) hclient (Or.inl hright) trivial)))
  intro held'' found hle hfound
  cases found with
  | none => exact mediated_reply _
  | some entry =>
      apply guarded_bind (mediated_surely (mediated_call (permitted_call
        (Call.listFiles entry) hclient (Or.inr ⟨path, hfound, hright.mono hle⟩) trivial)))
      intro _ files _ _
      apply guarded_bind (mediated_call (permitted_open Call.rootPath trivial trivial))
      intro _ root _ _
      exact mediated_reply _

theorem mediated_refreshFsEntry (path : Str) :
    Mediated ctx req anyEnd held (refreshFsEntry ctx path) := by
  apply mediated_withPath
  intro client hclient
  apply mediated_withPathRight hclient
  intro held' _ hright
  apply guarded_bind (mediated_surely (mediated_call
    (permitted_call (Call.refresh path) hclient hright trivial)))
  intro _ found _ _
  cases found with
  | true => exact mediated_reply _
  | false => exact mediated_reply _

theorem mediated_removeFsEntry (path : Str) :
    Mediated ctx req anyEnd held (removeFsEntry ctx path) := by
  apply mediated_withPath
  intro client hclient
  apply mediated_withPathRight hclient
  intro held' _ hright
  apply guarded_bind (mediated_surely (mediated_call
    (permitted_call (Call.remove path) hclient hright trivial)))
  intro _ found _ _
  cases found with
  | true => exact mediated_reply _
  | false => exact mediated_reply _

/-- A move takes the right on both of its paths. -/
theorem mediated_moveFsEntry (oldPath newPath : Str) :
    Mediated ctx req anyEnd held (moveFsEntry ctx oldPath newPath) := by
  apply mediated_withPath
  intro client hclient
  apply mediated_withPathRight hclient
  intro held' _ hold
  apply mediated_withPathRight hclient
  intro held'' hle hnew
  apply guarded_bind (mediated_surely (mediated_call (permitted_call
    (Call.moveEntry oldPath newPath) hclient ⟨hold.mono hle, hnew⟩ trivial)))
  intro _ moved _ _
  cases moved with
  | error ec => exact mediated_reply _
  | ok _ => exact mediated_reply _

theorem mediated_newDirectory (path : Str) :
    Mediated ctx req anyEnd held (newDirectory ctx path) := by
  apply mediated_withPath
  intro client hclient
  apply mediated_withPathRight hclient
  intro held' _ hright
  apply guarded_bind (mediated_surely (mediated_call
    (permitted_call (Call.createDirectory path) hclient (Or.inl hright) trivial)))
  intro _ created _ _
  cases created with
  | error ec => exact mediated_reply _
  | ok _ => exact mediated_reply _

theorem mediated_setFsEntryExecutableFlag (path : Str) (executable : Bool) :
    Mediated ctx req anyEnd held (setFsEntryExecutableFlag ctx path executable) := by
  apply mediated_withPath
  intro client hclient
  apply mediated_withPathRight hclient
  intro held' _ hright
  apply guarded_bind (mediated_surely (mediated_call
    (permitted_call (Call.find path) hclient (Or.inr (Or.inl hright)) trivial)))
  intro held'' found hle hfound
  cases found with
  | none => exact mediated_reply _
  | some entry =>
      apply guarded_bind (mediated_call (permitted_call
        (Call.permissions entry
          (if executable then PermChange.addOwnerExec else PermChange.removeOwnerExec))
        hclient ⟨path, hfound, hright.mono hle⟩ trivial))
      intro _ changed _ _
      apply mediated_checkEc
      intro _ _
      exact mediated_reply _

/-!
## Cron
-/

theorem mediated_addCisCron (validCron : Str -> Bool) (project job cronExpr : Str) :
    Mediated ctx req anyEnd held (addCisCron validCron ctx project job cronExpr) := by
  unfold addCisCron
  cases validCron cronExpr with
  | false => exact mediated_reply _
  | true =>
      apply guarded_bind (mediated_surely (mediated_call
        (permitted_open (Call.getJobInfo project job) trivial trivial)))
      intro held' found _ hfound
      cases hclient : ctx.clientInfo with
      | none => exact mediated_replyMoved _
      | some client =>
          apply guarded_bind (mediated_call (permitted_call
            (Call.checkProjectRight client.email project) hclient rfl trivial))
          intro held'' answer hle htold
          cases answer with
          | error ec => exact mediated_replyMoved _
          | ok perm =>
              refine mediated_if ?_ (mediated_replyMoved _)
              intro hallows
              have hright : Answered.Grants held'' client.email project writeAndExecute :=
                grants_of_allows htold hallows
              cases found with
              | none => exact mediated_reply _
              | some info =>
                  apply mediated_startTask
                  intro held₃ h₃
                  exact permitted_call _ hclient
                    ⟨⟨info, h₃ (hle hfound)⟩, hright.mono h₃⟩ trivial

theorem mediated_removeCisCron (project job cronExpr : Str) :
    Mediated ctx req anyEnd held (removeCisCron ctx project job cronExpr) := by
  unfold removeCisCron
  cases hclient : ctx.clientInfo with
  | none => exact mediated_reply _
  | some client =>
      apply guarded_bind (mediated_surely (mediated_call
        (permitted_open (Call.getJobInfo project job) trivial trivial)))
      intro held' found _ hfound
      apply mediated_withRight hclient (fun _ => mediated_reply _)
      intro held'' info hle hinfo hright
      subst hinfo
      apply mediated_startTask
      intro held₃ h₃
      exact permitted_call _ hclient ⟨⟨info, h₃ (hle hfound)⟩, hright.mono h₃⟩ trivial

end Files

/-!
## Users
-/

section Accounts

variable {ctx : RequestContext} {req : Request} {held : Answered}

/-- What an administrator does with a user, after asking whether it is there. -/
theorem mediated_hasUser {client : ClientInfo} (hclient : ctx.clientInfo = some client)
    (hadmin : held.Admin client.email) (email : Str) {next : Bool -> Handler}
    (hnext : forall held' there, held'.Admin client.email ->
      Mediated ctx req anyEnd held' (next there)) :
    Mediated ctx req anyEnd held (do checkEc (← call (Call.hasUser email)) next) := by
  apply guarded_bind (mediated_call (permitted_call (Call.hasUser email) hclient hadmin trivial))
  intro held' answer hle _
  apply mediated_checkEc
  intro there _
  exact hnext held' there (hle hadmin)

theorem mediated_addUser (email pass : Str) (admin : Bool) :
    Mediated ctx (Request.adminUserAdd email pass admin) anyEnd held
      (addUser ctx email pass admin) := by
  apply mediated_adminOnly (fun _ => mediated_reply _)
  intro held' client _ hclient hadmin
  split
  · exact mediated_reply _
  · apply mediated_hasUser hclient hadmin
    intro held'' there hadmin
    cases there with
    | true => exact mediated_reply _
    | false =>
        apply guarded_bind (mediated_call
          (permitted_call (Call.addUser email pass admin) hclient hadmin rfl))
        intro _ _ _ _
        exact mediated_checkSuccess (mediated_reply _)

theorem mediated_deleteUser (email : Str) :
    Mediated ctx (Request.adminUserDelete email) anyEnd held (deleteUser ctx email) := by
  apply mediated_adminOnly (fun _ => mediated_reply _)
  intro held' client _ hclient hadmin
  apply mediated_hasUser hclient hadmin
  intro held'' there hadmin
  cases there with
  | false => exact mediated_reply _
  | true =>
      apply guarded_bind (mediated_call
        (permitted_call (Call.deleteUser email) hclient hadmin rfl))
      intro _ _ _ _
      exact mediated_checkSuccess (mediated_reply _)

theorem mediated_setAdminStatus (email : Str) (admin : Bool) :
    Mediated ctx (Request.adminUserSetAdminStatus email admin) anyEnd held
      (setAdminStatus ctx email admin) := by
  apply mediated_adminOnly (fun _ => mediated_reply _)
  intro held' client _ hclient hadmin
  apply mediated_hasUser hclient hadmin
  intro held'' there hadmin
  cases there with
  | false => exact mediated_reply _
  | true =>
      apply guarded_bind (mediated_call
        (permitted_call (Call.setAdminStatus email admin) hclient hadmin rfl))
      intro _ _ _ _
      exact mediated_checkSuccess (mediated_reply _)

theorem mediated_listUsers : Mediated ctx req anyEnd held (listUsers ctx) := by
  apply mediated_adminOnly (fun _ => mediated_reply _)
  intro held' client _ hclient hadmin
  apply guarded_bind (mediated_call (permitted_call Call.getUserInfos hclient hadmin trivial))
  intro _ users _ _
  apply mediated_checkEc
  intro _ _
  exact mediated_reply _

theorem mediated_getUserPermissions (email : Str) :
    Mediated ctx req anyEnd held (getUserPermissions ctx email) := by
  apply mediated_adminOnly (fun _ => mediated_reply _)
  intro held' client _ hclient hadmin
  apply guarded_bind (mediated_call
    (permitted_call (Call.getPermissions email) hclient hadmin trivial))
  intro _ permissions _ _
  apply mediated_checkEc
  intro _ _
  exact mediated_reply _

theorem mediated_getProjectPermissions (project : Str) :
    Mediated ctx req anyEnd held (getProjectPermissions ctx project) := by
  apply mediated_adminOnly (fun _ => mediated_reply _)
  intro held' client _ hclient hadmin
  apply guarded_bind (mediated_surely (mediated_call
    (permitted_open (Call.getProjectInfo project) trivial trivial)))
  intro held'' found hle _
  cases found with
  | none => exact mediated_reply _
  | some entry =>
      apply guarded_bind (mediated_call
        (permitted_call (Call.getPermissionsByProject project) hclient (hle hadmin) trivial))
      intro _ users _ _
      apply mediated_checkEc
      intro _ _
      exact mediated_reply _

theorem mediated_generateApiKey (email : Str) :
    Mediated ctx (Request.userApiKeyGenerate email) anyEnd held (generateApiKey ctx email) := by
  apply mediated_ownerOrAdmin
  intro held' client hclient hmay
  apply guarded_bind (mediated_call
    (permitted_call (Call.generateApiKey email) hclient hmay rfl))
  intro _ answer _ _
  apply mediated_checkEc
  intro key _
  cases key with
  | none => exact mediated_reply _
  | some key => exact mediated_reply _

theorem mediated_getApiKey (email : Str) :
    Mediated ctx (Request.userApiKeyGet email) anyEnd held (getApiKey ctx email) := by
  apply mediated_ownerOrAdmin
  intro held' client hclient hmay
  apply guarded_bind (mediated_call (permitted_call (Call.getApiKey email) hclient hmay rfl))
  intro _ answer _ _
  apply mediated_checkEc
  intro key _
  cases key with
  | none => exact mediated_reply _
  | some key => exact mediated_reply _

theorem mediated_removeApiKey (email : Str) :
    Mediated ctx (Request.userApiKeyRemove email) anyEnd held (removeApiKey ctx email) := by
  apply mediated_ownerOrAdmin
  intro held' client hclient hmay
  apply guarded_bind (mediated_call (permitted_call (Call.removeApiKey email) hclient hmay rfl))
  intro _ answer _ _
  apply mediated_checkEc
  intro removed _
  cases removed with
  | true => exact mediated_reply _
  | false => exact mediated_reply _

end Accounts

/-!
## The event table
-/

theorem mediated_dispatch (validCron : Str -> Bool) (ctx : RequestContext)
    (held : Answered) (req : Request) :
    Mediated ctx req anyEnd held (dispatch validCron ctx req) := by
  cases req with
  | authLoginPass email pass => exact mediated_loginPass email pass
  | authLoginToken token => exact mediated_loginToken token
  | authLogout token => exact mediated_logout token
  | userChangePass email oldPassword newPassword =>
      exact mediated_changePass email oldPassword newPassword
  | adminUserAdd email pass admin => exact mediated_addUser email pass admin
  | adminUserDelete email => exact mediated_deleteUser email
  | adminUserList => exact mediated_listUsers
  | adminUserPermissionGet email => exact mediated_getUserPermissions email
  | adminUserPermissionSet email permissions =>
      apply mediated_adminOnly (fun _ => mediated_reply _)
      intro held' client _ hclient hadmin
      exact mediated_setPermissionList hclient hadmin rfl permissions
        (List.Subset.refl permissions)
  | adminProjectPermissionGet project => exact mediated_getProjectPermissions project
  | adminUserSetAdminStatus email admin => exact mediated_setAdminStatus email admin
  | userApiKeyGenerate email => exact mediated_generateApiKey email
  | userApiKeyGet email => exact mediated_getApiKey email
  | userApiKeyRemove email => exact mediated_removeApiKey email
  | cisProjectListGet => exact mediated_listProjects
  | cisProjectInfo project => exact mediated_getProjectInfo project
  | cisProjectAdd project => exact mediated_addCisProject project
  | cisProjectRemove project => exact mediated_removeCisProject project
  | cisJobAdd project job => exact mediated_addCisJob project job
  | cisJobRemove project job => exact mediated_removeCisJob project job
  | cisBuildRemove project job build => exact mediated_removeCisBuild project job build
  | cisJobInfo project job => exact mediated_getJobInfo project job
  | cisJobRun project job force params => exact mediated_runJob project job force params
  | cisBuildInfo project job build => exact mediated_getBuildInfo project job build
  | fsEntryInfo path => exact mediated_getFsEntryInfo path
  | fsEntryRefresh path => exact mediated_refreshFsEntry path
  | fsEntryRemove path => exact mediated_removeFsEntry path
  | fsEntryMove oldPath newPath => exact mediated_moveFsEntry oldPath newPath
  | fsEntryNewDir path => exact mediated_newDirectory path
  | fsEntryList path => exact mediated_listDirectory path
  | fsEntrySetExecutableFlag path executable =>
      exact mediated_setFsEntryExecutableFlag path executable
  | cisCronAdd project job cronExpr =>
      exact mediated_addCisCron validCron project job cronExpr
  | cisCronRemove project job cronExpr => exact mediated_removeCisCron project job cronExpr
  | cisCronList mask =>
      apply mediated_startTask
      intro _ _
      exact permitted_open (Call.start (Task.listCron mask)) trivial trivial
  | systemVersionInfo =>
      apply guarded_bind (mediated_call (permitted_open Call.versionEntries trivial trivial))
      intro _ entries _ _
      exact mediated_reply _

/-- Whatever the managers are and answer, a request asks for nothing that the
answers before do not permit. -/
theorem dispatch_asks_permitted {World : Type} (M : Machine Op Op.Answer World)
    (validCron : Str -> Bool) (ctx : RequestContext) (req : Request) (w : World)
    (before after : List (Sigma Op.Answer)) (e : Sigma Op.Answer)
    (htrace : trace M (dispatch validCron ctx req) w = before ++ e :: after) :
    Permitted ctx req {x | x ∈ before} e.1 := by
  have hpermitted := permits_of_guarded M (mediated_dispatch validCron ctx ∅ req) w htrace
  rw [Set.empty_union] at hpermitted
  exact hpermitted

/-- The first user of a new database, with a connection of its own. -/
def rootServer : AccountServer where
  database := (Database.empty.init none (str "root") (str "secret")).2
  lucks := fun _ => { fault := none, now := 0, draws := [], key := default }
  ctx :=
    { clientInfo := some { email := str "root", activeToken := [], apiAccessKey := [] }
      cookies := []
      resStatus := Status.ok
      allowedVerbs := []
      error := [] }
  replied := none

/-- It lists the users once it has been found to be an administrator. -/
theorem dispatch_asks_permitted_root :
    Permitted rootServer.ctx Request.adminUserList
      {x | x ∈ ([⟨Op.call (Call.isAdmin (str "root")), Except.ok true⟩] :
        List (Sigma Op.Answer))}
      (Op.call Call.getUserInfos) :=
  dispatch_asks_permitted AccountServer.machine (fun _ => true) rootServer.ctx
    Request.adminUserList (some rootServer) [⟨Op.call (Call.isAdmin (str "root")), _⟩] _
    ⟨Op.call Call.getUserInfos, _⟩ rfl

end Websocket
end CisWebui
