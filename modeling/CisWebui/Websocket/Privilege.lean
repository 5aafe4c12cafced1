import CisWebui.Cis.SessionManager
import CisWebui.Database.RightsManager
import CisWebui.Websocket.Handlers

/-!
# Privileges

What the requests of a client who is no administrator leave alone: the users
with their flags, the rights, and the passwords and keys of everybody else.

The handlers run in front of the database.  What else there is, the files and
the cache among them, answers as it likes, and every statement of the database
may fail.
-/

namespace CisWebui
namespace Websocket

open Cpp Foundation

/-!
## The server
-/

/-- What a call finds: the failure of its transaction, the time, and the random
numbers. -/
structure Luck where
  fault : Option ErrorCode
  now : Nat
  draws : List AuthManager.Draw
  key : AuthManager.Draw

/-- The surroundings of the database. -/
structure Surroundings (Rest : Type) where
  luck : Rest -> Luck
  answer : (c : Call) -> Rest -> c.Answer × Rest

/-- The server, as one connection sees it. -/
structure WebUi (Rest : Type) where
  database : Database
  sessions : Cis.State
  rest : Rest
  /-- The number of the connection. -/
  connection : Nat
  ctx : RequestContext

/-- The answer of the permission lists, in the order of the map. -/
def listPermissions (permissions : SortedMap Str ProjectRights) :
    List Permission :=
  permissions.entries.map fun (name, rights) => { name := name, rights := rights }

def listUserPermissions
    (permissions : SortedMap Str RightsManager.ProjectRightsEx) :
    List UserPermission :=
  permissions.entries.map fun (email, entry) =>
    { email := email, admin := entry.admin, rights := entry.rights }

/-- The calls that the database answers.  A login whose draws do not end its
loop has no answer here; it is left to the rest, with nothing written. -/
def databaseCall (luck : Luck) (db : Database) :
    (c : Call) -> Option (c.Answer × Database)
  | Call.authenticatePass email pass =>
      AuthManager.authenticatePass luck.fault luck.now luck.draws email pass db
  | Call.authenticateToken token =>
      some (AuthManager.authenticateToken luck.fault luck.now token db)
  | Call.hasUser email => some (AuthManager.hasUser luck.fault email db, db)
  | Call.generateApiKey email =>
      some (AuthManager.generateApiKey luck.fault luck.key email db)
  | Call.getApiKey email => some (AuthManager.getApiKey luck.fault email db, db)
  | Call.removeApiKey email =>
      some (AuthManager.removeApiKey luck.fault email db)
  | Call.checkPass email pass =>
      some ((AuthManager.checkPass luck.fault email pass db).mapError
        fun _ => Failure.database, db)
  | Call.changePass email newPass =>
      some (AuthManager.changePass luck.fault email newPass db)
  | Call.getUserInfos => some (AuthManager.getUserInfos luck.fault db, db)
  | Call.deleteToken token =>
      some (AuthManager.deleteToken luck.fault token db)
  | Call.addUser email pass admin =>
      some (AuthManager.addUser luck.fault email pass admin db)
  | Call.deleteUser email => some (AuthManager.deleteUser luck.fault email db)
  | Call.isAdmin email => some (RightsManager.isAdmin luck.fault email db, db)
  | Call.setAdminStatus email admin =>
      some (RightsManager.setAdminStatus luck.fault email admin db)
  | Call.checkProjectRight email project =>
      some (RightsManager.checkProjectRight luck.fault email project db, db)
  | Call.getPermissions email =>
      some ((RightsManager.getPermissions luck.fault email db).map
        listPermissions, db)
  | Call.getPermissionsByProject project =>
      some ((RightsManager.getPermissionsByProject luck.fault project db).map
        listUserPermissions, db)
  | Call.setUserProjectPermissions email project rights =>
      some (RightsManager.setUserProjectPermissions luck.fault email project
        rights db)
  | _ => none

/-- The calls that work on the files first, with the answer to that, and then on
the table of projects. -/
def projectCall (luck : Luck) (db : Database) :
    (c : Call) -> c.Answer -> c.Answer × Database
  | Call.createProject project, Except.ok directory =>
      let (answer, db) := CisManager.createProject luck.fault directory project db
      (Except.ok answer, db)
  | Call.removeProject project, Except.ok (Except.ok ()) =>
      let (answer, db) :=
        CisManager.removeProject luck.fault
          (FilesystemPath.filename project.path) db
      (Except.ok answer, db)
  | _, answer => (answer, db)

namespace Surroundings

variable {Rest : Type}

def perform (surroundings : Surroundings Rest) (c : Call) (w : WebUi Rest) :
    c.Answer × WebUi Rest :=
  let luck := surroundings.luck w.rest
  let (answer, rest) := surroundings.answer c w.rest
  let (answer, db) :=
    match databaseCall luck w.database c with
    | some result => result
    | none => projectCall luck w.database c answer
  (answer, { w with database := db, rest := rest })

def machine (surroundings : Surroundings Rest) :
    Machine Op Op.Answer (WebUi Rest) where
  perform
    | Op.call c, w => surroundings.perform c w
    | Op.reply _, w => ((), w)
    | Op.replyMoved _, w => ((), w)
    | Op.setClientInfo client, w =>
        ((), { w with ctx := { w.ctx with clientInfo := client } })

end Surroundings

/-- The messages of the connection. -/
inductive Input where
  | request (req : Request)
  | sessionSubscribe (sessionId : Str) (combinedLog : Option (List Cis.LogEntry))
      (memory : Cis.HandlerId)
  | sessionUnsubscribe (sessionId : Str)

/-- What a message does; an exception leaves what has been done before it. -/
def WebUi.handle {Rest : Type} (surroundings : Surroundings Rest)
    (validCron : Str -> Bool) (w : WebUi Rest) : Input -> WebUi Rest
  | Input.request req =>
      ((dispatch validCron w.ctx req).run surroundings.machine w).2
  | Input.sessionSubscribe sessionId combinedLog memory =>
      match w.sessions.handleSubscribe w.connection sessionId combinedLog memory with
      | Except.error _ => w
      | Except.ok sessions => { w with sessions := sessions }
  | Input.sessionUnsubscribe sessionId =>
      { w with sessions := w.sessions.handleUnsubscribe w.connection sessionId }

def connectionSystem {Rest : Type} (surroundings : Surroundings Rest)
    (validCron : Str -> Bool) (start : WebUi Rest) :
    EventSystem (WebUi Rest) Input where
  init := start
  step := fun w input => some (w.handle surroundings validCron input)

/-!
## Privileges
-/

/-- What everybody may know of a user who is not `u`, and of `u` all but the
password. -/
def shown (u : Str) (user : Record Database.User) : Nat × Str × Bool × Option Str :=
  (user.id, user.row.email, user.row.admin,
    if user.row.email = u then none else some user.row.pass)

/-- The key belongs to the user with the email. -/
def ownedBy (u : Str) (db : Database) (key : Record Database.ApiAccessKey) : Bool :=
  db.users.records.any fun user =>
    user.id = key.row.userId && user.row.email = u

/-- What a client of the user `u` must not change. -/
structure Privileges where
  users : List (Nat × Str × Bool × Option Str)
  projectUserRights : List (Record Database.ProjectUserRight)
  apiAccessKeys : List (Record Database.ApiAccessKey)

def privileges (u : Str) (db : Database) : Privileges where
  users := db.users.records.map (shown u)
  projectUserRights := db.projectUserRights.records
  apiAccessKeys := db.apiAccessKeys.records.filter fun key => !ownedBy u db key

/-- The user `u` is no administrator. -/
def NoAdmin (u : Str) (db : Database) : Prop :=
  forall user, user ∈ db.users.records -> user.row.email = u ->
    user.row.admin = false

section Databases

variable {u : Str} {db db' : Database}

theorem ownedBy_eq_any (key : Record Database.ApiAccessKey) :
    ownedBy u db key =
      (privileges u db).users.any fun user =>
        user.1 = key.row.userId && user.2.1 = u := by
  unfold ownedBy privileges
  rw [List.any_map]
  rfl

theorem privileges_ext
    (husers : db'.users.records.map (shown u) = db.users.records.map (shown u))
    (hrights : db'.projectUserRights.records = db.projectUserRights.records)
    (hkeys : (db'.apiAccessKeys.records.filter fun key => !ownedBy u db key) =
      db.apiAccessKeys.records.filter fun key => !ownedBy u db key) :
    privileges u db' = privileges u db := by
  have howned : ownedBy u db' = ownedBy u db := by
    funext key
    have husers' : (privileges u db').users = (privileges u db).users := husers
    rw [ownedBy_eq_any, ownedBy_eq_any, husers']
  unfold privileges
  rw [howned, husers, hrights, hkeys]

/-- The tables of the privileges are the same. -/
theorem privileges_of_eq (husers : db'.users = db.users)
    (hrights : db'.projectUserRights = db.projectUserRights)
    (hkeys : db'.apiAccessKeys = db.apiAccessKeys) :
    privileges u db' = privileges u db := by
  apply privileges_ext
  · rw [husers]
  · rw [hrights]
  · rw [hkeys]

theorem noAdmin_of_privileges (h : privileges u db' = privileges u db)
    (hadmin : NoAdmin u db) : NoAdmin u db' := by
  intro user huser hemail
  have hshown : shown u user ∈ db.users.records.map (shown u) := by
    have hmem : shown u user ∈ (privileges u db').users :=
      List.mem_map_of_mem huser
    rw [h] at hmem
    exact hmem
  rcases List.mem_map.mp hshown with ⟨user', huser', heq⟩
  have hflag : user'.row.admin = user.row.admin :=
    congrArg (fun shown => shown.2.2.1) heq
  have hemail' : user'.row.email = user.row.email :=
    congrArg (fun shown => shown.2.1) heq
  rw [← hflag]
  exact hadmin user' huser' (hemail'.trans hemail)

theorem isAdmin_of_noAdmin (h : NoAdmin u db) (fault : Option ErrorCode) :
    RightsManager.isAdmin fault u db ≠ Except.ok true := by
  intro hadmin
  cases fault with
  | some ec => cases hadmin
  | none =>
      have htrue := Except.ok.inj hadmin
      split at htrue
      · rename_i user hfound
        rcases AuthManager.mem_of_withEmail hfound with ⟨huser, hemail⟩
        rw [h user huser hemail] at htrue
        cases htrue
      · cases htrue

/-!
## Calls of the database
-/

theorem privileges_changePass (fault : Option ErrorCode) (newPass : Str) :
    privileges u (AuthManager.changePass fault u newPass db).2 = privileges u db := by
  rcases AuthManager.changePass_cases fault u newPass db with
    h | ⟨found, hfound, hemail, h⟩
  · rw [h]
  · rw [h]
    refine privileges_ext ?_ rfl rfl
    show List.map (shown u) (List.map (Table.changeIf _ _) db.users.records) = _
    rw [List.map_map]
    apply List.map_congr_left
    intro user huser
    show shown u (Table.changeIf _ _ user) = shown u user
    unfold Table.changeIf
    split
    · rename_i hid
      rw [decide_eq_true_eq] at hid
      rw [Table.eq_of_id huser hfound hid]
      simp [shown, hemail]
    · rfl

theorem privileges_generateApiKey (fault : Option ErrorCode)
    (draw : AuthManager.Draw) :
    privileges u (AuthManager.generateApiKey fault draw u db).2 =
      privileges u db := by
  rcases AuthManager.generateApiKey_cases fault draw u db with
    h | ⟨user, huser, hemail, hinsert⟩
  · rw [h]
  · rcases Database.insertApiAccessKey_ok hinsert with ⟨hkeys, husers, _, hrights, _⟩
    apply privileges_ext
    · rw [husers]
    · rw [hrights]
    · have howned : forall id, ownedBy u db
          { id := id, row := { userId := user.id, value := draw.value } } = true := by
        intro id
        unfold ownedBy
        rw [List.any_eq_true]
        exact ⟨user, huser, by simp [hemail]⟩
      rw [hkeys]
      show List.filter _ (db.apiAccessKeys.records ++ _) = _
      rw [List.filter_append]
      simp [howned]

theorem privileges_removeApiKey (fault : Option ErrorCode) :
    privileges u (AuthManager.removeApiKey fault u db).2 = privileges u db := by
  rcases AuthManager.removeApiKey_cases fault u db with
    h | ⟨found, user, hfound, huser, hid, hemail, h⟩
  · rw [h]
  · rw [h]
    refine privileges_ext rfl rfl ?_
    show List.filter _ (List.filter _ db.apiAccessKeys.records) = _
    rw [List.filter_filter]
    apply List.filter_congr
    intro key hkey
    rcases eq_or_ne key.id found.id with hsame | hother
    · have howned : ownedBy u db key = true := by
        unfold ownedBy
        rw [List.any_eq_true]
        refine ⟨user, huser, ?_⟩
        rw [Table.eq_of_id hkey hfound hsame]
        simp [hid, hemail]
      simp [howned]
    · simp [hother]

theorem privileges_of_onlyProjects (h : CisManager.OnlyProjects db db') :
    privileges u db' = privileges u db :=
  privileges_of_eq h.users h.projectUserRights h.apiAccessKeys

end Databases

/-!
## Harmless handlers
-/

/-- The calls a client of the user `u` may make. -/
def Call.Harmless (u : Str) : Call -> Prop
  | generateApiKey email => email = u
  | removeApiKey email => email = u
  | changePass email _ => email = u
  | addUser _ _ _ => False
  | deleteUser _ => False
  | setAdminStatus _ _ => False
  | setUserProjectPermissions _ _ _ => False
  | _ => True

/-- The calls that write users, rights, passwords or keys. -/
def Call.privileged : Call -> Bool
  | generateApiKey _ => true
  | removeApiKey _ => true
  | changePass _ _ => true
  | addUser _ _ _ => true
  | deleteUser _ => true
  | setAdminStatus _ _ => true
  | setUserProjectPermissions _ _ _ => true
  | _ => false

theorem Call.harmless_of_not_privileged {u : Str} {c : Call}
    (h : c.privileged = false) : c.Harmless u := by
  cases c with
  | generateApiKey | removeApiKey | changePass | addUser | deleteUser
    | setAdminStatus | setUserProjectPermissions => cases h
  | _ => trivial

def Op.Harmless (u : Str) : Op -> Prop
  | Op.call c => c.Harmless u
  | _ => True

/-- The user `u` never passes for an administrator. -/
def Refuses (u : Str) : (op : Op) -> op.Answer -> Prop
  | Op.call (Call.isAdmin email), answer =>
      email = u -> (answer : Fallible Bool) ≠ Except.ok true
  | _, _ => True

/-- The program makes no other calls for the user `u`. -/
def Harmless {α : Type} (u : Str) (p : Action α) : Prop :=
  p.OnlyGiven (Op.Harmless u) (Refuses u)

section Handlers

variable {u : Str} {α β : Type}

theorem harmless_done (a : α) : Harmless u (Program.done a : Action α) :=
  trivial

theorem harmless_bind {p : Action α} {f : α -> Action β} (hp : Harmless u p)
    (hf : forall a, Harmless u (f a)) : Harmless u (p >>= f) :=
  Program.onlyGiven_bind hp hf

theorem harmless_call {c : Call} (h : c.Harmless u) : Harmless u (call c) :=
  ⟨h, fun _ _ => trivial⟩

theorem harmless_plain {c : Call} (h : c.privileged = false) :
    Harmless u (call c) :=
  harmless_call (Call.harmless_of_not_privileged h)

theorem harmless_checkProjectRight (email project : Str) :
    Harmless u (checkProjectRight email project) :=
  ⟨trivial, fun _ _ => trivial⟩

theorem harmless_isAdmin (email : Str) : Harmless u (isAdmin email) :=
  ⟨trivial, fun _ _ => trivial⟩

theorem harmless_reply (r : Reply) : Harmless u (reply r) :=
  ⟨trivial, fun _ _ => trivial⟩

theorem harmless_surely {p : Action (Except Failure α)} (hp : Harmless u p) :
    Harmless u (surely p) := by
  apply harmless_bind hp
  intro answer
  cases answer with
  | error f => trivial
  | ok a => trivial

theorem harmless_checkEc (answer : Fallible α) {next : α -> Handler}
    (h : forall a, Harmless u (next a)) : Harmless u (checkEc answer next) := by
  cases answer with
  | error ec => exact harmless_reply _
  | ok a => exact h a

theorem harmless_checkEcMsg (answer : Fallible α) (text : String)
    {next : α -> Handler} (h : forall a, Harmless u (next a)) :
    Harmless u (checkEcMsg answer text next) := by
  cases answer with
  | error ec => exact harmless_reply _
  | ok a => exact h a

theorem harmless_ite {c : Prop} [Decidable c] {p q : Action α}
    (hp : Harmless u p) (hq : Harmless u q) :
    Harmless u (if c then p else q) := by
  split
  · exact hp
  · exact hq

/-- A call and the check of its error code. -/
theorem harmless_ask {p : Action (Fallible α)} {next : α -> Handler}
    (hp : Harmless u p) (h : forall a, Harmless u (next a)) :
    Harmless u (p >>= fun answer => checkEc answer next) :=
  harmless_bind hp fun answer => harmless_checkEc answer h

/-- A lookup, and what is done with what it found or without it. -/
theorem harmless_lookup {p : Action (Cached α)} {next : α -> Action β}
    (hp : Harmless u p) (h : forall a, Harmless u (next a)) :
    Harmless u (surely p >>= next) :=
  harmless_bind (harmless_surely hp) h

theorem harmless_withRight (email project : Str) (right : ProjectRights -> Bool)
    (found : Option α) {missing : Handler} {action : α -> Handler}
    (hmissing : Harmless u missing) (haction : forall a, Harmless u (action a)) :
    Harmless u (withRight email project right found missing action) := by
  apply harmless_ask (harmless_checkProjectRight email project)
  intro perm
  split
  · cases found with
    | none => exact hmissing
    | some a => exact haction a
  · exact harmless_reply _

/-- A request without a client is refused, and what is done for one is harmless. -/
theorem harmless_forClient {ctx : RequestContext} {refused : Handler}
    {action : ClientInfo -> Handler} (hrefused : Harmless u refused)
    (haction : forall client, Harmless u (action client)) :
    Harmless u (match ctx.clientInfo with
      | none => refused
      | some client => action client) := by
  cases ctx.clientInfo with
  | none => exact hrefused
  | some client => exact haction client

theorem harmless_getPathRights (email path : Str) :
    Harmless u (getPathRights email path) := by
  unfold getPathRights
  split
  · apply harmless_bind (harmless_isAdmin email)
    intro admin
    split
    · exact harmless_done _
    · exact harmless_done _
    · exact harmless_checkProjectRight _ _
  · exact harmless_done _

theorem harmless_withPathRight (email path : Str)
    (right : ProjectRights -> Bool) {action : Handler}
    (haction : Harmless u action) :
    Harmless u (withPathRight email path right action) := by
  apply harmless_ask (harmless_getPathRights email path)
  intro rights
  exact harmless_ite haction (harmless_reply _)

theorem harmless_withPath (ctx : RequestContext) (valid : Bool)
    {action : ClientInfo -> Handler}
    (haction : forall client, Harmless u (action client)) :
    Harmless u (withPath ctx valid action) := by
  unfold withPath
  split
  · exact harmless_reply _
  · exact harmless_ite (haction _) (harmless_reply _)

theorem harmless_withValidPath (ctx : RequestContext) (path : Str)
    {action : ClientInfo -> Handler}
    (haction : forall client, Harmless u (action client)) :
    Harmless u (withValidPath ctx path action) := by
  unfold withValidPath
  split
  · split
    · exact harmless_reply _
    · exact haction _
  · exact harmless_reply _

theorem harmless_startTask (task : Task) : Harmless u (startTask task) := by
  apply harmless_bind (harmless_plain rfl)
  intro (executor : Bool)
  exact harmless_ite (harmless_plain rfl) (harmless_done _)

theorem harmless_removeFound (path : Str) (done : Success) {missing : Handler}
    (hmissing : Harmless u missing) :
    Harmless u (removeFound path done missing) := by
  apply harmless_lookup (harmless_plain rfl)
  intro found
  cases found with
  | none => exact hmissing
  | some entry =>
      exact harmless_lookup (harmless_plain rfl) fun _ => harmless_reply _

theorem harmless_createJob (project job : Str) :
    Harmless u (createJob project job) := by
  apply harmless_lookup (harmless_plain rfl)
  intro found
  cases found with
  | some entry => exact harmless_reply _
  | none =>
      apply harmless_lookup (harmless_plain rfl)
      intro directory
      apply harmless_checkEcMsg
      intro _
      apply harmless_lookup (harmless_plain rfl)
      intro script
      apply harmless_checkEcMsg
      intro _
      apply harmless_bind (harmless_plain rfl)
      intro permissions
      apply harmless_checkEcMsg
      intro _
      apply harmless_lookup (harmless_plain rfl)
      intro params
      apply harmless_checkEcMsg
      intro _
      apply harmless_lookup (harmless_plain rfl)
      intro conf
      apply harmless_checkEcMsg
      intro _
      exact harmless_bind (harmless_plain rfl) fun _ => harmless_reply _

theorem harmless_jobProperties (root : Str) (entry : DirEntry) :
    Harmless u (jobProperties root entry) := by
  apply harmless_lookup (harmless_plain rfl)
  intro script
  apply harmless_lookup (harmless_plain rfl)
  intro params
  apply harmless_lookup (harmless_plain rfl)
  intro conf
  cases conf with
  | none => trivial
  | some conf => exact harmless_done _

theorem harmless_listProjectEntry (ctx : RequestContext) (root : Str)
    (listed : Listed) : Harmless u (listProjectEntry ctx root listed) := by
  cases listed with
  | project entry =>
      unfold listProjectEntry
      cases ctx.clientInfo with
      | none => exact harmless_done _
      | some client =>
          exact harmless_bind (harmless_checkProjectRight _ _)
            fun _ => harmless_done _
  | _ => exact harmless_done _

theorem harmless_listProjectEntries (ctx : RequestContext) (root : Str)
    (listed : List Listed) :
    Harmless u (listProjectEntries ctx root listed) := by
  induction listed with
  | nil => exact harmless_done _
  | cons first rest ih =>
      exact harmless_bind (harmless_listProjectEntry ctx root first)
        fun _ => harmless_bind ih fun _ => harmless_done _

/-!
## The event table
-/

theorem harmless_setClientInfo (client : Option ClientInfo) :
    Harmless u (setClientInfo client) :=
  ⟨trivial, fun _ _ => trivial⟩

theorem harmless_finishLogin (email token : Str) :
    Harmless u (finishLogin email token) := by
  apply harmless_bind (harmless_setClientInfo _)
  intro _
  exact harmless_ask (harmless_isAdmin email) fun _ => harmless_reply _

/-- The client of the context, if there is one, is the user `u`. -/
def ClientOf (u : Str) (ctx : RequestContext) : Prop :=
  forall client, ctx.clientInfo = some client -> client.email = u

theorem harmless_logout (ctx : RequestContext) (token : Str) :
    Harmless u (logout ctx token) := by
  unfold logout
  cases ctx.clientInfo with
  | none => exact harmless_reply _
  | some client =>
      apply harmless_ask (harmless_plain rfl)
      intro email
      split
      · have hdelete : Harmless u (call (Call.deleteToken token) >>=
            fun answer => checkEc answer fun _ => send Success.authLogout) :=
          harmless_ask (harmless_plain rfl) fun _ => harmless_reply _
        exact harmless_ite
          (harmless_bind (harmless_setClientInfo none) fun _ => hdelete) hdelete
      · exact harmless_reply _

/-- An administrator's action is not taken. -/
theorem harmless_adminOnly {ctx : RequestContext} (hctx : ClientOf u ctx)
    {refused : Handler} (action : Handler) (hrefused : Harmless u refused) :
    Harmless u (adminOnly ctx refused action) := by
  unfold adminOnly
  cases hclient : ctx.clientInfo with
  | none => exact hrefused
  | some client =>
      refine ⟨trivial, ?_⟩
      intro answer hanswer
      cases answer with
      | error ec => exact harmless_reply _
      | ok permitted =>
          cases permitted with
          | true => exact absurd rfl (hanswer (hctx client hclient))
          | false => exact harmless_reply _

theorem harmless_ownerOrAdmin {ctx : RequestContext} (hctx : ClientOf u ctx)
    {email : Str} {action : Handler}
    (haction : email = u -> Harmless u action) :
    Harmless u (ownerOrAdmin ctx email action) := by
  unfold ownerOrAdmin
  cases hclient : ctx.clientInfo with
  | none => exact harmless_reply _
  | some client =>
      dsimp only
      split
      · rename_i hsame
        exact haction (hsame ▸ hctx client hclient)
      · refine ⟨trivial, ?_⟩
        intro answer hanswer
        cases answer with
        | error ec => exact harmless_reply _
        | ok admin =>
            cases admin with
            | true => exact absurd rfl (hanswer (hctx client hclient))
            | false => exact harmless_reply _

theorem harmless_change {email newPassword : Str} (h : email = u) :
    Harmless u (change email newPassword) := by
  have hcall : (Call.changePass email newPassword).Harmless u := h
  apply harmless_ask (harmless_call hcall)
  intro ok
  exact harmless_ite
    (harmless_bind (harmless_reply _) fun _ => harmless_reply _)
    (harmless_reply _)

theorem harmless_changePass {ctx : RequestContext} (hctx : ClientOf u ctx)
    (email oldPassword newPassword : Str) :
    Harmless u (changePass ctx email oldPassword newPassword) := by
  unfold changePass
  cases hclient : ctx.clientInfo with
  | none => exact harmless_reply _
  | some client =>
      refine ⟨trivial, ?_⟩
      intro answer hanswer
      cases answer with
      | error ec => exact harmless_reply _
      | ok admin =>
          cases admin with
          | true => exact absurd rfl (hanswer (hctx client hclient))
          | false =>
              show Harmless u (if client.email ≠ email then _ else _)
              split
              · exact harmless_reply _
              · rename_i hsame
                rw [not_not] at hsame
                have hemail : email = u := hsame ▸ hctx client hclient
                apply harmless_lookup (harmless_plain rfl)
                intro samePass
                exact harmless_ite (harmless_change hemail) (harmless_reply _)

theorem harmless_clientInfoValue (ctx : RequestContext) :
    Harmless u (clientInfoValue ctx) := by
  unfold clientInfoValue
  cases ctx.clientInfo with
  | none => trivial
  | some client => exact harmless_done _

theorem harmless_addCisJob (ctx : RequestContext) (project job : Str) :
    Harmless u (addCisJob ctx project job) := by
  apply harmless_lookup (harmless_plain rfl)
  intro found
  have hrest : Harmless u (clientInfoValue ctx >>= fun client =>
      withRight client.email project ProjectRights.write found
        (sendError (ErrorPayload.cisProjectDoesntExist project)
          "Project doesn't exists.")
        fun _ => createJob project job) := by
    apply harmless_bind (harmless_clientInfoValue ctx)
    intro client
    exact harmless_withRight _ _ _ _ (harmless_reply _)
      fun _ => harmless_createJob project job
  exact harmless_ite (harmless_bind (harmless_reply _) fun _ => hrest) hrest

theorem harmless_addCisCron (validCron : Str -> Bool) (ctx : RequestContext)
    (project job cronExpr : Str) :
    Harmless u (addCisCron validCron ctx project job cronExpr) := by
  have hmoved : forall r : Reply,
      Harmless u (Program.ask (Op.replyMoved r) : Handler) :=
    fun _ => ⟨trivial, fun _ _ => trivial⟩
  unfold addCisCron
  dsimp only
  split
  · apply harmless_lookup (harmless_plain rfl)
    intro found
    cases ctx.clientInfo with
    | none => exact hmoved _
    | some client =>
        apply harmless_bind (harmless_checkProjectRight _ _)
        intro answer
        cases answer with
        | error ec => exact hmoved _
        | ok perm =>
            apply harmless_ite _ (hmoved _)
            cases found with
            | none => exact harmless_reply _
            | some info => exact harmless_startTask _
  · exact harmless_reply _

/-- Whatever the request, its handler is harmless for a client of the user. -/
theorem harmless_dispatch (validCron : Str -> Bool) {ctx : RequestContext}
    (hctx : ClientOf u ctx) (req : Request) :
    Harmless u (dispatch validCron ctx req) := by
  cases req with
  | authLoginPass email pass =>
      apply harmless_ask (harmless_plain rfl)
      intro token
      cases token with
      | none => exact harmless_reply _
      | some token => exact harmless_finishLogin email token
  | authLoginToken token =>
      apply harmless_ask (harmless_plain rfl)
      intro email
      cases email with
      | none => exact harmless_reply _
      | some email => exact harmless_finishLogin email token
  | authLogout token => exact harmless_logout ctx token
  | userChangePass email oldPassword newPassword =>
      exact harmless_changePass hctx email oldPassword newPassword
  | adminUserAdd email pass admin =>
      exact harmless_adminOnly hctx _ (harmless_reply _)
  | adminUserDelete email => exact harmless_adminOnly hctx _ (harmless_reply _)
  | adminUserList => exact harmless_adminOnly hctx _ (harmless_reply _)
  | adminUserPermissionGet email =>
      exact harmless_adminOnly hctx _ (harmless_reply _)
  | adminUserPermissionSet email permissions =>
      exact harmless_adminOnly hctx _ (harmless_reply _)
  | adminProjectPermissionGet project =>
      exact harmless_adminOnly hctx _ (harmless_reply _)
  | adminUserSetAdminStatus email admin =>
      exact harmless_adminOnly hctx _ (harmless_reply _)
  | userApiKeyGenerate email =>
      apply harmless_ownerOrAdmin hctx
      intro hemail
      have hcall : (Call.generateApiKey email).Harmless u := hemail
      apply harmless_ask (harmless_call hcall)
      intro key
      cases key with
      | none => exact harmless_reply _
      | some key => exact harmless_reply _
  | userApiKeyGet email =>
      apply harmless_ownerOrAdmin hctx
      intro _
      apply harmless_ask (harmless_plain rfl)
      intro key
      cases key with
      | none => exact harmless_reply _
      | some key => exact harmless_reply _
  | userApiKeyRemove email =>
      apply harmless_ownerOrAdmin hctx
      intro hemail
      have hcall : (Call.removeApiKey email).Harmless u := hemail
      apply harmless_ask (harmless_call hcall)
      intro removed
      exact harmless_ite (harmless_reply _) (harmless_reply _)
  | cisProjectListGet =>
      apply harmless_lookup (harmless_plain rfl)
      intro listed
      apply harmless_bind (harmless_plain rfl)
      intro root
      exact harmless_bind (harmless_listProjectEntries ctx root listed)
        fun _ => harmless_reply _
  | cisProjectInfo project =>
      apply harmless_lookup (harmless_plain rfl)
      intro found
      apply harmless_forClient (harmless_reply _)
      intro client
      apply harmless_withRight _ _ _ _ (harmless_reply _)
      intro entry
      apply harmless_lookup (harmless_plain rfl)
      intro listed
      exact harmless_bind (harmless_plain rfl) fun _ => harmless_reply _
  | cisProjectAdd project =>
      rw [dispatch, addCisProject]
      apply harmless_forClient (harmless_reply _)
      intro client
      apply harmless_lookup (harmless_plain rfl)
      intro found
      cases found with
      | some entry => exact harmless_reply _
      | none =>
          apply harmless_ask (harmless_isAdmin _)
          intro admin
          apply harmless_ite _ (harmless_reply _)
          apply harmless_lookup (harmless_plain rfl)
          intro created
          exact harmless_checkEc _ fun _ => harmless_reply _
  | cisProjectRemove project =>
      rw [dispatch, removeCisProject]
      apply harmless_forClient (harmless_reply _)
      intro client
      apply harmless_lookup (harmless_plain rfl)
      intro found
      apply harmless_withRight _ _ _ _ (harmless_reply _)
      intro entry
      apply harmless_lookup (harmless_plain rfl)
      intro removed
      exact harmless_checkEc _ fun _ => harmless_reply _
  | cisJobAdd project job => exact harmless_addCisJob ctx project job
  | cisJobRemove project job =>
      rw [dispatch, removeCisJob]
      apply harmless_forClient (harmless_reply _)
      intro client
      apply harmless_lookup (harmless_plain rfl)
      intro found
      apply harmless_withRight _ _ _ _ (harmless_reply _)
      intro _
      exact harmless_removeFound _ _ (harmless_reply _)
  | cisBuildRemove project job build =>
      rw [dispatch, removeCisBuild]
      apply harmless_forClient (harmless_reply _)
      intro client
      apply harmless_lookup (harmless_plain rfl)
      intro found
      apply harmless_withRight _ _ _ _ (harmless_reply _)
      intro _
      exact harmless_removeFound _ _ (harmless_reply _)
  | cisJobInfo project job =>
      apply harmless_lookup (harmless_plain rfl)
      intro found
      apply harmless_forClient (harmless_reply _)
      intro client
      apply harmless_withRight _ _ _ _ (harmless_reply _)
      intro info
      apply harmless_bind (harmless_plain rfl)
      intro root
      apply harmless_lookup (harmless_plain rfl)
      intro listed
      exact harmless_bind (harmless_jobProperties root info.entry)
        fun _ => harmless_reply _
  | cisJobRun project job force params =>
      rw [dispatch, runJob]
      apply harmless_forClient (harmless_reply _)
      intro client
      apply harmless_lookup (harmless_plain rfl)
      intro found
      apply harmless_withRight _ _ _ _ (harmless_reply _)
      intro info
      cases runJobParams params info.params with
      | none => exact harmless_reply _
      | some values => exact harmless_startTask _
  | cisBuildInfo project job build =>
      apply harmless_lookup (harmless_plain rfl)
      intro found
      apply harmless_forClient (harmless_reply _)
      intro client
      apply harmless_withRight _ _ _ _ (harmless_reply _)
      intro entry
      apply harmless_lookup (harmless_plain rfl)
      intro files
      exact harmless_bind (harmless_plain rfl) fun _ => harmless_reply _
  | fsEntryInfo path =>
      apply harmless_withValidPath
      intro client
      apply harmless_withPathRight
      apply harmless_lookup (harmless_plain rfl)
      intro found
      cases found with
      | none => exact harmless_reply _
      | some entry =>
          exact harmless_bind (harmless_plain rfl) fun _ => harmless_reply _
  | fsEntryRefresh path =>
      apply harmless_withPath
      intro client
      apply harmless_withPathRight
      apply harmless_lookup (harmless_plain rfl)
      intro found
      exact harmless_ite (harmless_reply _) (harmless_reply _)
  | fsEntryRemove path =>
      apply harmless_withPath
      intro client
      apply harmless_withPathRight
      apply harmless_lookup (harmless_plain rfl)
      intro found
      exact harmless_ite (harmless_reply _) (harmless_reply _)
  | fsEntryMove oldPath newPath =>
      apply harmless_withPath
      intro client
      apply harmless_withPathRight
      apply harmless_withPathRight
      apply harmless_lookup (harmless_plain rfl)
      intro moved
      cases moved with
      | error ec => exact harmless_reply _
      | ok _ => exact harmless_reply _
  | fsEntryNewDir path =>
      apply harmless_withPath
      intro client
      apply harmless_withPathRight
      apply harmless_lookup (harmless_plain rfl)
      intro created
      cases created with
      | error ec => exact harmless_reply _
      | ok _ => exact harmless_reply _
  | fsEntryList path =>
      apply harmless_withValidPath
      intro client
      apply harmless_withPathRight
      apply harmless_lookup (harmless_plain rfl)
      intro found
      cases found with
      | none => exact harmless_reply _
      | some entry =>
          apply harmless_lookup (harmless_plain rfl)
          intro files
          exact harmless_bind (harmless_plain rfl) fun _ => harmless_reply _
  | fsEntrySetExecutableFlag path executable =>
      apply harmless_withPath
      intro client
      apply harmless_withPathRight
      apply harmless_lookup (harmless_plain rfl)
      intro found
      cases found with
      | none => exact harmless_reply _
      | some entry =>
          exact harmless_ask (harmless_plain rfl) fun _ => harmless_reply _
  | cisCronAdd project job cronExpr =>
      exact harmless_addCisCron validCron ctx project job cronExpr
  | cisCronRemove project job cronExpr =>
      rw [dispatch, removeCisCron]
      apply harmless_forClient (harmless_reply _)
      intro client
      apply harmless_lookup (harmless_plain rfl)
      intro found
      apply harmless_withRight _ _ _ _ (harmless_reply _)
      intro _
      exact harmless_startTask _
  | cisCronList mask => exact harmless_startTask _
  | systemVersionInfo =>
      exact harmless_bind (harmless_plain rfl) fun _ => harmless_reply _

end Handlers

/-!
## Whole runs
-/

section Runs

variable {Rest : Type} {u : Str}

/-- A harmless call that the database answers keeps the privileges. -/
theorem privileges_databaseCall {luck : Luck} {db db' : Database} {c : Call}
    {answer : c.Answer} (hc : c.Harmless u)
    (h : databaseCall luck db c = some (answer, db')) :
    privileges u db' = privileges u db := by
  cases c with
  | authenticatePass email pass =>
      rcases AuthManager.authenticatePass_cases h with
        hsame | ⟨user, token, _, _, _, hinsert⟩
      · exact congrArg (privileges u) hsame.left
      · rcases Database.insertToken_ok hinsert with ⟨_, husers, _, hrights, hkeys⟩
        exact privileges_of_eq husers hrights hkeys
  | authenticateToken token =>
      have hdb : (AuthManager.authenticateToken luck.fault luck.now token db).2 =
          db' := congrArg Prod.snd (Option.some.inj h)
      rw [← hdb]
      rcases AuthManager.authenticateToken_cases luck.fault luck.now token db with
        hsame | ⟨_, hremove⟩
      · rw [hsame]
      · rw [hremove]
        rfl
  | generateApiKey email =>
      have hemail : email = u := hc
      have hdb : (AuthManager.generateApiKey luck.fault luck.key email db).2 =
          db' := congrArg Prod.snd (Option.some.inj h)
      rw [← hdb, hemail]
      exact privileges_generateApiKey luck.fault luck.key
  | removeApiKey email =>
      have hemail : email = u := hc
      have hdb : (AuthManager.removeApiKey luck.fault email db).2 = db' :=
        congrArg Prod.snd (Option.some.inj h)
      rw [← hdb, hemail]
      exact privileges_removeApiKey luck.fault
  | changePass email newPass =>
      have hemail : email = u := hc
      have hdb : (AuthManager.changePass luck.fault email newPass db).2 = db' :=
        congrArg Prod.snd (Option.some.inj h)
      rw [← hdb, hemail]
      exact privileges_changePass luck.fault newPass
  | deleteToken token =>
      have hdb : (AuthManager.deleteToken luck.fault token db).2 = db' :=
        congrArg Prod.snd (Option.some.inj h)
      rw [← hdb]
      rcases AuthManager.deleteToken_cases luck.fault token db with
        ⟨ec, hsame⟩ | hremove
      · rw [hsame]
      · rw [hremove]
        rfl
  | addUser | deleteUser | setAdminStatus | setUserProjectPermissions => exact hc.elim
  | hasUser | getApiKey | checkPass | getUserInfos | isAdmin | checkProjectRight
    | getPermissions | getPermissionsByProject =>
      cases h
      rfl
  | _ => cases h

theorem onlyProjects_projectCall (luck : Luck) (db : Database) (c : Call)
    (answer : c.Answer) :
    CisManager.OnlyProjects db (projectCall luck db c answer).2 := by
  cases c with
  | createProject project =>
      cases answer with
      | error f => exact CisManager.OnlyProjects.refl db
      | ok directory => exact CisManager.onlyProjects_createProject _ _ _ _
  | removeProject project =>
      cases answer with
      | error f => exact CisManager.OnlyProjects.refl db
      | ok removed =>
          cases removed with
          | error ec => exact CisManager.OnlyProjects.refl db
          | ok _ => exact CisManager.onlyProjects_removeProject _ _ _
  | _ => exact CisManager.OnlyProjects.refl db

theorem privileges_perform (surroundings : Surroundings Rest) {c : Call}
    (hc : c.Harmless u) (w : WebUi Rest) :
    privileges u (surroundings.perform c w).2.database =
      privileges u w.database := by
  unfold Surroundings.perform
  dsimp only
  split
  · rename_i hcall
    exact privileges_databaseCall hc hcall
  · exact privileges_of_onlyProjects (onlyProjects_projectCall _ _ _ _)

theorem refuses_machine (surroundings : Surroundings Rest) (op : Op)
    {w : WebUi Rest} (hw : NoAdmin u w.database) :
    Refuses u op (surroundings.machine.perform op w).1 := by
  cases op with
  | call c =>
      cases c with
      | isAdmin email =>
          intro hemail
          rw [hemail]
          exact isAdmin_of_noAdmin hw _
      | _ => trivial
  | _ => trivial

/-- A program that is harmless keeps the privileges of all who are not `u`. -/
theorem privileges_run {α : Type} (surroundings : Surroundings Rest)
    {p : Action α} (hp : Harmless u p) {w : WebUi Rest}
    (hw : NoAdmin u w.database) :
    privileges u (p.run surroundings.machine w).2.database =
      privileges u w.database := by
  have hkeep : forall op v, Op.Harmless u op ->
      privileges u v.database = privileges u w.database ->
      privileges u (surroundings.machine.perform op v).2.database =
        privileges u w.database := by
    intro op v hop hv
    cases op with
    | call c => exact (privileges_perform surroundings hop v).trans hv
    | _ => exact hv
  exact Program.run_invariant_given hkeep
    (fun op v hv =>
      refuses_machine surroundings op (noAdmin_of_privileges hv hw))
    hp rfl

theorem privileges_handle (surroundings : Surroundings Rest)
    (validCron : Str -> Bool) {w : WebUi Rest} (hclient : ClientOf u w.ctx)
    (hw : NoAdmin u w.database) (input : Input) :
    privileges u (w.handle surroundings validCron input).database =
      privileges u w.database := by
  cases input with
  | request req =>
      exact privileges_run surroundings (harmless_dispatch validCron hclient req) hw
  | sessionSubscribe sessionId combinedLog memory =>
      unfold WebUi.handle
      dsimp only
      split
      · rfl
      · rfl
  | sessionUnsubscribe sessionId => rfl

/-- No sequence of messages of a client who is no administrator changes the
users, their flags, the rights, or anybody else's password or key. -/
theorem privileges_kept (surroundings : Surroundings Rest)
    (validCron : Str -> Bool) (start : WebUi Rest)
    (hu : exists user, user ∈ start.database.users.records ∧
      user.row.email = u ∧ user.row.admin = false)
    {inputs : List Input}
    (hclient : (connectionSystem surroundings validCron start).EveryState
      (fun w => ClientOf u w.ctx) start inputs)
    {w : WebUi Rest}
    (hrun : (connectionSystem surroundings validCron start).runFrom start inputs =
      some w) :
    privileges u w.database = privileges u start.database := by
  have hstart : NoAdmin u start.database := by
    rcases hu with ⟨user, huser, hemail, hadmin⟩
    intro other hother hother_email
    rw [start.database.unique_email other user hother huser
      (hother_email.trans hemail.symm)]
    exact hadmin
  have hstep : forall v input t,
      privileges u v.database = privileges u start.database ->
      ClientOf u v.ctx ->
      (connectionSystem surroundings validCron start).step v input = some t ->
      privileges u t.database = privileges u start.database := by
    intro v input t hv hv_client hstep
    cases hstep
    exact (privileges_handle surroundings validCron hv_client
      (noAdmin_of_privileges hv hstart) input).trans hv
  exact EventSystem.last_of_everyState hstep rfl hclient hrun

end Runs

/-- A server whose files answer with nothing, and one user who is logged in. -/
def sampleSurroundings : Surroundings Unit where
  luck _ := { fault := none, now := 0, draws := [], key := default }
  answer _ _ := (default, ())

def sampleServer : WebUi Unit where
  database :=
    (AuthManager.addUser none (str "dev") (str "old") false
      (Database.empty.init none (str "root") (str "secret")).2).2
  sessions := Cis.State.initial
  rest := ()
  connection := 0
  ctx :=
    { clientInfo :=
        some { email := str "dev", activeToken := str "t", apiAccessKey := [] }
      cookies := []
      resStatus := Status.ok
      allowedVerbs := []
      error := [] }

def sampleInputs : List Input :=
  [Input.request (Request.userChangePass (str "dev") (str "old") (str "new")),
    Input.request (Request.adminUserSetAdminStatus (str "dev") true)]

theorem privileges_kept_sample :
    let system := connectionSystem sampleSurroundings (fun _ => true) sampleServer
    let w := (system.runFrom sampleServer sampleInputs).get rfl
    privileges (str "dev") w.database =
      privileges (str "dev") sampleServer.database := by
  intro system w
  have hclient : forall v : WebUi Unit,
      v.ctx.clientInfo.map ClientInfo.email = some (str "dev") ->
      ClientOf (str "dev") v.ctx := by
    intro v hv client h
    rw [h] at hv
    exact Option.some.inj hv
  refine privileges_kept sampleSurroundings (fun _ => true) sampleServer
    (by decide) ?_ (Option.some_get _).symm
  refine ⟨hclient _ rfl, ?_⟩
  intro first hfirst
  cases hfirst
  refine ⟨hclient _ (by decide), ?_⟩
  intro second hsecond
  cases hsecond
  exact hclient _ (by decide)

end Websocket
end CisWebui
