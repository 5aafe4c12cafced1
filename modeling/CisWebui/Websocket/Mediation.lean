import CisWebui.Foundation.Permits
import CisWebui.Websocket.Handlers

/-!
# Mediation

What the managers have to have answered before a handler may ask them for more:
that the client is an administrator, that it has a right on a project, that a
password is its own, or that an entry was found where it has a right.

Every handler of the event table asks in this order, for every client, every
request and whatever the managers answer.
-/

namespace CisWebui
namespace Websocket

open Cpp FilesystemPath Foundation Program

/-- What the managers have answered. -/
abbrev Answered := Set (Sigma Op.Answer)

namespace Answered

def Says (held : Answered) (c : Call) (answer : c.Answer) : Prop :=
  ⟨Op.call c, answer⟩ ∈ held

def Admin (held : Answered) (email : Str) : Prop :=
  held.Says (Call.isAdmin email) (Except.ok true)

def Grants (held : Answered) (email project : Str) (right : ProjectRights -> Bool) :
    Prop :=
  exists rights, held.Says (Call.checkProjectRight email project)
    (Except.ok (some rights)) ∧ right rights = true

/-- The right on the project that a path leads through. -/
def GrantsPath (held : Answered) (email path : Str) (right : ProjectRights -> Bool) :
    Prop :=
  exists root project rest, elements path = root :: project :: rest ∧
    (held.Admin email ∨ held.Grants email project right)

/-- The entry is that of a project on which the client has the right. -/
def GrantsProject (held : Answered) (email : Str) (right : ProjectRights -> Bool)
    (entry : DirEntry) : Prop :=
  exists project, held.Says (Call.getProjectInfo project) (Except.ok (some entry)) ∧
    held.Grants email project right

/-- The entry is that of a job in a project on which the client has the right. -/
def GrantsJob (held : Answered) (email : Str) (right : ProjectRights -> Bool)
    (entry : DirEntry) : Prop :=
  exists project job info,
    held.Says (Call.getJobInfo project job) (Except.ok (some info)) ∧
      info.entry = entry ∧ held.Grants email project right

/-- The entry is that of a build in a project on which the client has the right. -/
def GrantsBuild (held : Answered) (email : Str) (right : ProjectRights -> Bool)
    (entry : DirEntry) : Prop :=
  exists project job build info,
    held.Says (Call.getBuildInfo project job build) (Except.ok (some (entry, info))) ∧
      held.Grants email project right

/-- The path of a job or a build, or of a file of a job, in a project that the client
may write to. -/
def GrantsPlace (held : Answered) (email path : Str) : Prop :=
  exists project, held.Grants email project ProjectRights.write ∧
    ((exists job, path = jobPath project job) ∨
      (exists job build, path = buildPath project job build) ∨
        exists job name, path = append (jobPath project job) name)

def Finds (held : Answered) (path : Str) (entry : DirEntry) : Prop :=
  held.Says (Call.find path) (Except.ok (some entry))

/-- The job exists in a project on which the client has the right. -/
def GrantsTask (held : Answered) (email project job : Str)
    (right : ProjectRights -> Bool) : Prop :=
  (exists info, held.Says (Call.getJobInfo project job) (Except.ok (some info))) ∧
    held.Grants email project right

end Answered

/-!
## What is permitted
-/

/-- The right that cron handlers ask for. -/
def writeAndExecute (rights : ProjectRights) : Bool :=
  rights.write && rights.execute

/-- The tasks that a client may leave running. -/
def Task.Permitted (held : Answered) (email : Str) : Task -> Prop
  | runJob c =>
      c.email = email ∧ held.GrantsTask email c.project c.job ProjectRights.execute
  | addCron project job _ => held.GrantsTask email project job writeAndExecute
  | removeCron project job _ => held.GrantsTask email project job writeAndExecute
  | listCron _ => True

/-- The calls that a client may make with what has been answered. -/
def Call.Permitted (held : Answered) (email : Str) : Call -> Prop
  | authenticatePass _ _ => True
  | authenticateToken _ => True
  | isAdmin asked => asked = email
  | checkProjectRight asked _ => asked = email
  -- users and their rights
  | hasUser _ => held.Admin email
  | getUserInfos => held.Admin email
  | addUser _ _ _ => held.Admin email
  | deleteUser _ => held.Admin email
  | setAdminStatus _ _ => held.Admin email
  | getPermissions _ => held.Admin email
  | getPermissionsByProject _ => held.Admin email
  | setUserProjectPermissions _ _ _ => held.Admin email
  | generateApiKey owner => owner = email ∨ held.Admin email
  | getApiKey owner => owner = email ∨ held.Admin email
  | removeApiKey owner => owner = email ∨ held.Admin email
  | checkPass owner _ => owner = email
  | changePass owner _ =>
      held.Admin email ∨
        owner = email ∧ exists pass, held.Says (checkPass email pass) (Except.ok true)
  | deleteToken token => held.Says (authenticateToken token) (Except.ok (some email))
  -- projects, jobs and builds
  | getProjectList => True
  | getProjectInfo _ => True
  | getJobInfo _ _ => True
  | getBuildInfo _ _ _ => True
  | createProject _ => held.Admin email
  | removeProject entry => held.GrantsProject email ProjectRights.write entry
  | getJobList entry => held.GrantsProject email ProjectRights.read entry
  | getBuildList entry => held.GrantsJob email ProjectRights.read entry
  | getScriptEntry entry => held.GrantsJob email ProjectRights.read entry
  | getParamsEntry entry => held.GrantsJob email ProjectRights.read entry
  | getConfEntry entry => held.GrantsJob email ProjectRights.read entry
  -- files
  | rootPath => True
  | refresh path => held.GrantsPath email path ProjectRights.read
  | remove path => held.GrantsPath email path ProjectRights.write
  | find path =>
      held.GrantsPath email path ProjectRights.read ∨
        held.GrantsPath email path ProjectRights.write ∨ held.GrantsPlace email path
  | listFiles entry =>
      held.GrantsBuild email ProjectRights.read entry ∨
        exists path, held.Finds path entry ∧
          held.GrantsPath email path ProjectRights.read
  | removeEntry entry =>
      exists path, held.Finds path entry ∧ held.GrantsPlace email path
  | permissions entry _ =>
      exists path, held.Finds path entry ∧
        held.GrantsPath email path ProjectRights.write
  | moveEntry oldPath newPath =>
      held.GrantsPath email oldPath ProjectRights.write ∧
        held.GrantsPath email newPath ProjectRights.write
  | createDirectory path =>
      held.GrantsPath email path ProjectRights.write ∨ held.GrantsPlace email path
  | createFileW path => held.GrantsPlace email path
  | writeFile path _ => held.GrantsPlace email path
  | setPermissions path _ => held.GrantsPlace email path
  -- chains and configuration
  | hasExecutor => True
  | start task => task.Permitted held email
  | versionEntries => True

/-- The calls that anyone may make. -/
def Call.Open : Call -> Prop
  | authenticatePass _ _ => True
  | authenticateToken _ => True
  | getProjectList => True
  | getProjectInfo _ => True
  | getJobInfo _ _ => True
  | getBuildInfo _ _ _ => True
  | rootPath => True
  | hasExecutor => True
  | start (Task.listCron _) => True
  | versionEntries => True
  | _ => False

/-- What a call says of accounts, passwords and tokens stands in the request. -/
def Call.Named (req : Request) : Call -> Prop
  | authenticatePass email pass => req = Request.authLoginPass email pass
  | authenticateToken token =>
      req = Request.authLoginToken token ∨ req = Request.authLogout token
  | deleteToken token => req = Request.authLogout token
  | checkPass email pass => exists newPass, req = Request.userChangePass email pass newPass
  | changePass email newPass => exists pass, req = Request.userChangePass email pass newPass
  | addUser email pass admin => req = Request.adminUserAdd email pass admin
  | deleteUser email => req = Request.adminUserDelete email
  | setAdminStatus email admin => req = Request.adminUserSetAdminStatus email admin
  | setUserProjectPermissions email project rights =>
      exists permissions, req = Request.adminUserPermissionSet email permissions ∧
        { name := project, rights := rights } ∈ permissions
  | generateApiKey email => req = Request.userApiKeyGenerate email
  | getApiKey email => req = Request.userApiKeyGet email
  | removeApiKey email => req = Request.userApiKeyRemove email
  | createProject project => req = Request.cisProjectAdd project
  | _ => True

/-- The request is a login of the client. -/
def Request.LogsIn (req : Request) (client : ClientInfo) : Prop :=
  (exists pass, req = authLoginPass client.email pass) ∨
    req = authLoginToken client.activeToken

/-- What a login makes of the client. -/
def Answered.LogsIn (held : Answered) (client : ClientInfo) : Prop :=
  (exists pass, held.Says (Call.authenticatePass client.email pass)
      (Except.ok (some client.activeToken))) ∨
    held.Says (Call.authenticateToken client.activeToken)
      (Except.ok (some client.email))

/-- What a request of a connection may ask for. -/
def Permitted (ctx : RequestContext) (req : Request) (held : Answered) : Op -> Prop
  | Op.call (Call.isAdmin asked) =>
      (exists client, ctx.clientInfo = some client ∧ asked = client.email) ∨
        exists client, held.LogsIn client ∧ asked = client.email
  | Op.call c =>
      c.Named req ∧
        (c.Open ∨
          exists client, ctx.clientInfo = some client ∧ c.Permitted held client.email)
  | Op.reply _ => True
  | Op.replyMoved _ => True
  | Op.setClientInfo (some client) => req.LogsIn client ∧ held.LogsIn client
  | Op.setClientInfo none =>
      exists client, ctx.clientInfo = some client ∧
        held.Says (Call.authenticateToken client.activeToken)
          (Except.ok (some client.email))

/-!
## Answers are never lost
-/

namespace Answered

variable {held held' : Answered} {email project job path : Str} {entry : DirEntry}
  {right : ProjectRights -> Bool}

theorem Grants.mono (hle : held ⊆ held') (h : held.Grants email project right) :
    held'.Grants email project right := by
  rcases h with ⟨rights, htold, hright⟩
  exact ⟨rights, hle htold, hright⟩

theorem GrantsPath.mono (hle : held ⊆ held') (h : held.GrantsPath email path right) :
    held'.GrantsPath email path right := by
  rcases h with ⟨root, project, rest, hpath, hadmin | hright⟩
  · exact ⟨root, project, rest, hpath, Or.inl (hle hadmin)⟩
  · exact ⟨root, project, rest, hpath, Or.inr (hright.mono hle)⟩

theorem GrantsProject.mono (hle : held ⊆ held')
    (h : held.GrantsProject email right entry) : held'.GrantsProject email right entry := by
  rcases h with ⟨project, hfound, hright⟩
  exact ⟨project, hle hfound, hright.mono hle⟩

theorem GrantsJob.mono (hle : held ⊆ held') (h : held.GrantsJob email right entry) :
    held'.GrantsJob email right entry := by
  rcases h with ⟨project, job, info, hfound, hentry, hright⟩
  exact ⟨project, job, info, hle hfound, hentry, hright.mono hle⟩

theorem LogsIn.mono {client : ClientInfo} (hle : held ⊆ held') (h : held.LogsIn client) :
    held'.LogsIn client := by
  rcases h with ⟨pass, hpass⟩ | htoken
  · exact Or.inl ⟨pass, hle hpass⟩
  · exact Or.inr (hle htoken)

end Answered

/-!
## Asking
-/

/-- The program asks for nothing that is not permitted. -/
def Mediated {α : Type} (ctx : RequestContext) (req : Request) (post : Answered -> α -> Prop)
    (held : Answered) (p : Action α) : Prop :=
  Guarded (Permitted ctx req) post held p

/-- What a handler returns is nothing to ask about. -/
abbrev anyEnd : Answered -> Unit -> Prop :=
  fun _ _ => True

section Rules

variable {ctx : RequestContext} {req : Request} {held : Answered} {α : Type}

theorem mediated_call {c : Call} (h : Permitted ctx req held (Op.call c)) :
    Mediated ctx req (fun held' answer => held'.Says c answer) held (call c) :=
  guarded_ask h

theorem mediated_reply (r : Reply) : Mediated ctx req anyEnd held (reply r) :=
  ⟨trivial, fun _ => trivial⟩

theorem mediated_replyMoved (r : Reply) :
    Mediated ctx req anyEnd held (Program.ask (Op.replyMoved r)) :=
  ⟨trivial, fun _ => trivial⟩

theorem mediated_surely {p : Action (Except Failure α)}
    {post : Answered -> Except Failure α -> Prop} (hp : Mediated ctx req post held p) :
    Mediated ctx req (fun held' a => post held' (Except.ok a)) held (surely p) := by
  apply guarded_bind hp
  intro held' answer hle hanswer
  cases answer with
  | error e => trivial
  | ok a => exact hanswer

theorem mediated_checkEc {answer : Fallible α} {next : α -> Handler}
    (hnext : forall a, answer = Except.ok a -> Mediated ctx req anyEnd held (next a)) :
    Mediated ctx req anyEnd held (checkEc answer next) := by
  cases answer with
  | error ec => exact mediated_reply _
  | ok a => exact hnext a rfl

theorem mediated_checkEcMsg {answer : Fallible α} {text : String} {next : α -> Handler}
    (hnext : forall a, answer = Except.ok a -> Mediated ctx req anyEnd held (next a)) :
    Mediated ctx req anyEnd held (checkEcMsg answer text next) := by
  cases answer with
  | error ec => exact mediated_reply _
  | ok a => exact hnext a rfl

theorem mediated_checkSuccess {answer : Fallible Bool} {next : Handler}
    (hnext : Mediated ctx req anyEnd held next) :
    Mediated ctx req anyEnd held (checkSuccess answer next) := by
  unfold checkSuccess
  split
  · exact hnext
  · exact mediated_reply _

theorem mediated_if {b : Bool} {p q : Handler}
    (hp : b = true -> Mediated ctx req anyEnd held p) (hq : Mediated ctx req anyEnd held q) :
    Mediated ctx req anyEnd held (if b = true then p else q) := by
  cases b with
  | true => exact hp rfl
  | false => exact hq

variable {client : ClientInfo} {right : ProjectRights -> Bool}

theorem permitted_call (c : Call) (hclient : ctx.clientInfo = some client)
    (hc : c.Permitted held client.email) (hnamed : c.Named req) :
    Permitted ctx req held (Op.call c) := by
  cases c with
  | isAdmin asked => exact Or.inl ⟨client, hclient, hc⟩
  | _ => exact ⟨hnamed, Or.inr ⟨client, hclient, hc⟩⟩

theorem permitted_open (c : Call) (hc : c.Open) (hnamed : c.Named req) :
    Permitted ctx req held (Op.call c) := by
  cases c with
  | isAdmin asked => exact absurd hc id
  | _ => exact ⟨hnamed, Or.inl hc⟩

/-- A right that was asked for is a right that was granted. -/
theorem grants_of_allows {email project : Str} {perm : Option ProjectRights}
    (htold : held.Says (Call.checkProjectRight email project) (Except.ok perm))
    (hallows : allows right perm = true) : held.Grants email project right := by
  cases perm with
  | none => exact absurd hallows Bool.false_ne_true
  | some rights => exact ⟨rights, htold, hallows⟩

theorem mediated_withRight (hclient : ctx.clientInfo = some client) {project : Str}
    {found : Option α} {missing : Handler} {action : α -> Handler}
    (hmissing : forall held', Mediated ctx req anyEnd held' missing)
    (haction : forall held' a, held ⊆ held' -> found = some a ->
      held'.Grants client.email project right -> Mediated ctx req anyEnd held' (action a)) :
    Mediated ctx req anyEnd held (withRight client.email project right found missing action) := by
  apply guarded_bind
    (mediated_call
      (permitted_call (Call.checkProjectRight client.email project) hclient rfl trivial))
  intro held' answer hle htold
  apply mediated_checkEc
  intro perm hperm
  subst hperm
  cases hallows : allows right perm with
  | false => exact mediated_reply _
  | true =>
      cases hfound : found with
      | none => exact hmissing held'
      | some a => exact haction held' a hle hfound (grants_of_allows htold hallows)

theorem permitted_isAdmin (hclient : ctx.clientInfo = some client) :
    Permitted ctx req held (Op.call (Call.isAdmin client.email)) :=
  permitted_call (Call.isAdmin client.email) hclient rfl trivial

theorem mediated_adminOnly {refused action : Handler}
    (hrefused : forall held', Mediated ctx req anyEnd held' refused)
    (haction : forall held' client, held ⊆ held' -> ctx.clientInfo = some client ->
      held'.Admin client.email -> Mediated ctx req anyEnd held' action) :
    Mediated ctx req anyEnd held (adminOnly ctx refused action) := by
  unfold adminOnly
  cases hclient : ctx.clientInfo with
  | none => exact hrefused held
  | some client =>
      apply guarded_bind (mediated_call (permitted_isAdmin hclient))
      intro held' answer hle htold
      apply mediated_checkEc
      intro permitted hpermitted
      subst hpermitted
      cases permitted with
      | false => exact mediated_reply _
      | true => exact haction held' client hle hclient htold

theorem mediated_ownerOrAdmin {email : Str} {action : Handler}
    (haction : forall held' client, ctx.clientInfo = some client ->
      (email = client.email ∨ held'.Admin client.email) ->
        Mediated ctx req anyEnd held' action) :
    Mediated ctx req anyEnd held (ownerOrAdmin ctx email action) := by
  unfold ownerOrAdmin
  cases hclient : ctx.clientInfo with
  | none => exact mediated_reply _
  | some client =>
      simp only
      split
      · next howner => exact haction held client hclient (Or.inl howner.symm)
      · apply guarded_bind (mediated_call (permitted_isAdmin hclient))
        intro held' answer hle htold
        apply mediated_checkEc
        intro admin hadmin
        subst hadmin
        cases admin with
        | false => exact mediated_reply _
        | true => exact haction held' client hclient (Or.inr htold)

/-- The rights of an administrator are not looked up. -/
theorem mediated_getPathRights (hclient : ctx.clientInfo = some client) (path : Str) :
    Mediated ctx req
      (fun held' answer => forall perm, answer = Except.ok perm ->
        allows right perm = true -> held'.GrantsPath client.email path right)
      held (getPathRights client.email path) := by
  unfold getPathRights
  cases hpath : elements path with
  | nil =>
      intro perm hperm hallows
      cases hperm
      exact absurd hallows Bool.false_ne_true
  | cons root rest =>
      cases rest with
      | nil =>
          intro perm hperm hallows
          cases hperm
          exact absurd hallows Bool.false_ne_true
      | cons project rest =>
          apply guarded_bind (mediated_call (permitted_isAdmin hclient))
          intro held' answer hle htold
          cases answer with
          | error ec =>
              intro perm hperm hallows
              cases hperm
          | ok admin =>
              cases admin with
              | true =>
                  intro perm hperm hallows
                  exact ⟨root, project, rest, hpath, Or.inl htold⟩
              | false =>
                  apply guarded_weaken (mediated_call (permitted_call
                    (Call.checkProjectRight client.email project) hclient rfl trivial))
                  intro held'' answer hle' hrights perm hperm hallows
                  subst hperm
                  exact ⟨root, project, rest, hpath, Or.inr (grants_of_allows hrights hallows)⟩

theorem mediated_withPathRight (hclient : ctx.clientInfo = some client) {path : Str}
    {action : Handler}
    (haction : forall held', held ⊆ held' -> held'.GrantsPath client.email path right ->
      Mediated ctx req anyEnd held' action) :
    Mediated ctx req anyEnd held (withPathRight client.email path right action) := by
  apply guarded_bind (@mediated_getPathRights ctx req held client right hclient path)
  intro held' answer hle hrights
  apply mediated_checkEc
  intro perm hperm
  cases hallows : allows right perm with
  | false => exact mediated_reply _
  | true => exact haction held' hle (hrights perm hperm hallows)

theorem mediated_withPath {valid : Bool} {action : ClientInfo -> Handler}
    (haction : forall client, ctx.clientInfo = some client ->
      Mediated ctx req anyEnd held (action client)) :
    Mediated ctx req anyEnd held (withPath ctx valid action) := by
  unfold withPath
  cases hclient : ctx.clientInfo with
  | none => exact mediated_reply _
  | some client =>
      cases valid with
      | false => exact mediated_reply _
      | true => exact haction client hclient

theorem mediated_withValidPath {path : Str} {action : ClientInfo -> Handler}
    (haction : forall client, ctx.clientInfo = some client ->
      Mediated ctx req anyEnd held (action client)) :
    Mediated ctx req anyEnd held (withValidPath ctx path action) := by
  unfold withValidPath
  cases validatePath path with
  | false => exact mediated_reply _
  | true =>
      cases hclient : ctx.clientInfo with
      | none => exact mediated_reply _
      | some client => exact haction client hclient

end Rules

end Websocket
end CisWebui
