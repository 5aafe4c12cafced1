import CisWebui.Websocket.Operations

/-!
# The WebSocket handlers

The handlers of the event table and the helpers they share, as programs over
the calls of the managers.  Log records are left out.

`validCron` stands for the cron library's check of an expression.
-/

namespace CisWebui
namespace Websocket

open Cpp FilesystemPath Foundation

/-!
## Paths
-/

/-- `validate_path` -/
def validatePath (path : Str) : Bool :=
  rootPath path == str "/"

/-- `validate_path_fragment`, the check of the fields that name a project, a
job or a build. -/
def validatePathFragment (fragment : Str) : Bool :=
  !fragment.contains slash

def checkProjectRight (email project : Str) :
    Action (Fallible (Option ProjectRights)) :=
  call (Call.checkProjectRight email project)

def isAdmin (email : Str) : Action (Fallible Bool) :=
  call (Call.isAdmin email)

/-- `get_path_rights`: the right on the second element of the path. -/
def getPathRights (email path : Str) :
    Action (Fallible (Option ProjectRights)) :=
  match elements path with
  | _ :: project :: _ => do
      match ← isAdmin email with
      | Except.error ec => return Except.error ec
      | Except.ok true =>
          return Except.ok (some { read := true, write := true, execute := true })
      | Except.ok false => checkProjectRight email project
  | _ => return Except.ok none

/-- `cis::path{"/"} / project / job`, and with a build behind it -/
def jobPath (project job : Str) : Str :=
  append (append (str "/") project) job

def buildPath (project job build : Str) : Str :=
  append (jobPath project job) build

def allows (right : ProjectRights -> Bool) : Option ProjectRights -> Bool
  | none => false
  | some rights => right rights

/-!
## Entries
-/

def entryMeta : EntryKind -> MetaInfo
  | EntryKind.directory => MetaInfo.directoryInfo
  | EntryKind.regular executable => MetaInfo.fileInfo executable
  | EntryKind.other => MetaInfo.none

/-- `make_dir_entry` -/
def makeDirEntry (root : Str) (entry : DirEntry) : FsEntry :=
  let path := append (str "/") (lexicallyRelative entry.path root)
  { name := filename entry.path
    path := path
    link := str "/download" ++ path
    metainfo := entryMeta entry.kind }

/-- `unpack_build_info` -/
def unpackBuildInfo (info : BuildInfo) : BuildMeta where
  status :=
    match info.status with
    | none => str "in_progress"
    | some status => if status = 0 then str "success" else str "failed"
  exitCode := info.status
  exitMessage := info.exitMessage
  sessionId := info.sessionId
  date := info.date

def makeListedEntry (root : Str) : Listed -> FsEntry
  | Listed.plain entry => makeDirEntry root entry
  | Listed.project entry => makeDirEntry root entry
  | Listed.job entry =>
      { makeDirEntry root entry with metainfo := MetaInfo.jobInfo }
  | Listed.build entry info =>
      { makeDirEntry root entry with
        metainfo := MetaInfo.buildInfo (unpackBuildInfo info) }

def isBuild (entry : FsEntry) : Bool :=
  match entry.metainfo with
  | MetaInfo.buildInfo _ => true
  | _ => false

/-- The reversed listing, stably sorted with the builds in front. -/
def buildsFirst (entries : List FsEntry) : List FsEntry :=
  entries.reverse.filter isBuild ++ entries.reverse.filter fun e => !isBuild e

/-!
## Login
-/

def loginRequired : Handler :=
  sendError ErrorPayload.authLoginRequired "Login required."

def notPermitted : Handler :=
  sendError ErrorPayload.userPermissionAccessDenied "Action not permitted."

/-- The text without a full stop, which the administrator's handlers send. -/
def notPermittedAdmin : Handler :=
  sendError ErrorPayload.userPermissionAccessDenied "Action not permitted"

/-- The end of both logins. -/
def finishLogin (email token : Str) : Handler := do
  setClientInfo (some { email := email, activeToken := token, apiAccessKey := [] })
  checkEc (← isAdmin email) fun admin => send (Success.authLogin token admin)

def loginPass (email pass : Str) : Handler := do
  checkEc (← call (Call.authenticatePass email pass)) fun token =>
    match token with
    | none => sendError ErrorPayload.authWrongCredentials "Wrong credentials."
    | some token => finishLogin email token

def loginToken (token : Str) : Handler := do
  checkEc (← call (Call.authenticateToken token)) fun email =>
    match email with
    | none => sendError ErrorPayload.authWrongCredentials "Invalid token."
    | some email => finishLogin email token

def logout (ctx : RequestContext) (token : Str) : Handler :=
  match ctx.clientInfo with
  | none => sendError ErrorPayload.authWrongCredentials "Invalid token."
  | some client => do
      checkEc (← call (Call.authenticateToken token)) fun email =>
        if email = some client.email then do
          if token = client.activeToken then
            setClientInfo none
          checkEc (← call (Call.deleteToken token)) fun _ =>
            send Success.authLogout
        else
          sendError ErrorPayload.authWrongCredentials "Invalid token."

/-!
## Users
-/

/-- The lambda of `change_pass`: a password that was not changed is answered
with an error, and then with a success. -/
def change (email newPassword : Str) : Handler := do
  checkEc (← call (Call.changePass email newPassword)) fun ok => do
    if !ok then
      sendErrorText "Can't change password."
    send Success.userChangePass

def changePass (ctx : RequestContext) (email oldPassword newPassword : Str) :
    Handler :=
  match ctx.clientInfo with
  | none => notPermittedAdmin
  | some client => do
      checkEc (← isAdmin client.email) fun admin =>
        if admin then
          change email newPassword
        else if client.email ≠ email then
          notPermitted
        else do
          let samePass ← surely (call (Call.checkPass client.email oldPassword))
          if samePass then
            change email newPassword
          else
            sendError ErrorPayload.userPassDoesntMatch "Invalid password"

/-- The checks in front of an administrator's action; `refused` is the answer
to an anonymous client. -/
def adminOnly (ctx : RequestContext) (refused : Handler) (action : Handler) :
    Handler :=
  match ctx.clientInfo with
  | none => refused
  | some client => do
      checkEc (← isAdmin client.email) fun permitted =>
        if permitted then action else notPermittedAdmin

/-- `if(!success || ec)` -/
def checkSuccess (answer : Fallible Bool) (next : Handler) : Handler :=
  match answer with
  | Except.ok true => next
  | _ => sendErrorText "Internal error."

def addUser (ctx : RequestContext) (email pass : Str) (admin : Bool) : Handler :=
  adminOnly ctx notPermitted do
    if email = [] ∨ pass = [] then
      sendError ErrorPayload.adminUserAddIncorrectCredentials
        "Incorrect credentials."
    else
      checkEc (← call (Call.hasUser email)) fun exists_ =>
        if exists_ then
          sendError ErrorPayload.adminUserAddExists "User exists already"
        else do
          checkSuccess (← call (Call.addUser email pass admin))
            (send Success.adminUserAdd)

def deleteUser (ctx : RequestContext) (email : Str) : Handler :=
  adminOnly ctx notPermittedAdmin do
    checkEc (← call (Call.hasUser email)) fun exists_ =>
      if exists_ then do
        checkSuccess (← call (Call.deleteUser email))
          (send Success.adminUserDelete)
      else
        sendError ErrorPayload.userNotFound "User does not exist."

def listUsers (ctx : RequestContext) : Handler :=
  adminOnly ctx notPermittedAdmin do
    checkEc (← call Call.getUserInfos) fun users =>
      send (Success.adminUserList (users.map fun user =>
        (user.email, user.apiAccessKey.getD [], user.isAdmin)))

def getUserPermissions (ctx : RequestContext) (email : Str) : Handler :=
  adminOnly ctx notPermittedAdmin do
    checkEc (← call (Call.getPermissions email)) fun permissions =>
      send (Success.adminUserPermissionGet permissions)

/-- The loop over the permissions of the request, left at the first error. -/
def setPermissionList (email : Str) : List Permission -> Handler
  | [] => send Success.adminUserPermissionSet
  | perm :: rest => do
      checkEc (← call (Call.setUserProjectPermissions email perm.name perm.rights))
        fun _ => setPermissionList email rest

def setUserPermissions (ctx : RequestContext) (email : Str)
    (permissions : List Permission) : Handler :=
  adminOnly ctx notPermittedAdmin (setPermissionList email permissions)

def getProjectPermissions (ctx : RequestContext) (project : Str) : Handler :=
  adminOnly ctx notPermittedAdmin do
    match ← surely (call (Call.getProjectInfo project)) with
    | none =>
        sendError (ErrorPayload.cisProjectDoesntExist []) "Project doesn't exist."
    | some _ =>
        checkEc (← call (Call.getPermissionsByProject project)) fun users =>
          send (Success.adminProjectPermissionGet users)

def setAdminStatus (ctx : RequestContext) (email : Str) (admin : Bool) :
    Handler :=
  adminOnly ctx notPermittedAdmin do
    checkEc (← call (Call.hasUser email)) fun exists_ =>
      if exists_ then do
        checkSuccess (← call (Call.setAdminStatus email admin))
          (send Success.adminUserSetAdminStatus)
      else
        sendError ErrorPayload.userNotFound "User does not exist."

/-- The checks of the API key handlers: a user's own key, or any key for an
administrator. -/
def ownerOrAdmin (ctx : RequestContext) (email : Str) (action : Handler) :
    Handler :=
  match ctx.clientInfo with
  | none => notPermitted
  | some client =>
      if client.email = email then
        action
      else do
        checkEc (← isAdmin client.email) fun admin =>
          if admin then action else notPermitted

def generateApiKey (ctx : RequestContext) (email : Str) : Handler :=
  ownerOrAdmin ctx email do
    checkEc (← call (Call.generateApiKey email)) fun key =>
      match key with
      | none => sendErrorText "Can't generate APIAccessSecretKey."
      | some key => send (Success.userApiKeyGenerate key)

def getApiKey (ctx : RequestContext) (email : Str) : Handler :=
  ownerOrAdmin ctx email do
    checkEc (← call (Call.getApiKey email)) fun key =>
      match key with
      | none => sendErrorText "Can't retrieve APIAccessSecretKey."
      | some key => send (Success.userApiKeyGet key)

def removeApiKey (ctx : RequestContext) (email : Str) : Handler :=
  ownerOrAdmin ctx email do
    checkEc (← call (Call.removeApiKey email)) fun removed =>
      if removed then
        send Success.userApiKeyRemove
      else
        sendErrorText "Can't remove APIAccessSecretKey."

/-!
## Projects
-/

/-- The entry of a listed project carries the client's right to read it; an
error of the check counts as no right. -/
def listProjectEntry (ctx : RequestContext) (root : Str) (listed : Listed) :
    Action FsEntry :=
  match listed with
  | Listed.project entry => do
      let res := makeDirEntry root entry
      match ctx.clientInfo with
      | none => return { res with metainfo := MetaInfo.projectInfo false }
      | some client =>
          let perm ← checkProjectRight client.email res.name
          let permitted :=
            match perm with
            | Except.ok rights => allows ProjectRights.read rights
            | Except.error _ => false
          return { res with metainfo := MetaInfo.projectInfo permitted }
  | other => return makeListedEntry root other

def listProjectEntries (ctx : RequestContext) (root : Str) :
    List Listed -> Action (List FsEntry)
  | [] => return []
  | listed :: rest => do
      let entry ← listProjectEntry ctx root listed
      let entries ← listProjectEntries ctx root rest
      return entry :: entries

def listProjects (ctx : RequestContext) : Handler := do
  let listed ← surely (call Call.getProjectList)
  let root ← call Call.rootPath
  let entries ← listProjectEntries ctx root listed
  send (Success.cisProjectListGet entries)

/-- The end of the handlers that looked something up and then checked the right
of the client on its project. -/
def withRight {α : Type} (email project : Str) (right : ProjectRights -> Bool)
    (found : Option α) (missing : Handler) (action : α -> Handler) : Handler := do
  checkEc (← checkProjectRight email project) fun perm =>
    if allows right perm then
      match found with
      | some a => action a
      | none => missing
    else
      notPermitted

def getProjectInfo (ctx : RequestContext) (project : Str) : Handler := do
  let found ← surely (call (Call.getProjectInfo project))
  match ctx.clientInfo with
  | none => loginRequired
  | some client =>
      withRight client.email project ProjectRights.read found
        (sendError (ErrorPayload.cisProjectDoesntExist project)
          "Project doesn't exist.")
        fun entry => do
          let listed ← surely (call (Call.getJobList entry))
          let root ← call Call.rootPath
          send (Success.cisProjectInfo (listed.map (makeListedEntry root)))

def addCisProject (ctx : RequestContext) (project : Str) : Handler :=
  match ctx.clientInfo with
  | none => loginRequired
  | some client => do
      match ← surely (call (Call.getProjectInfo project)) with
      | some _ =>
          sendError (ErrorPayload.cisProjectAlreadyExist project)
            "Project already exists."
      | none =>
          checkEc (← isAdmin client.email) fun admin =>
            if admin then do
              checkEc (← surely (call (Call.createProject project))) fun _ =>
                send Success.cisProjectAdd
            else
              notPermitted

def removeCisProject (ctx : RequestContext) (project : Str) : Handler :=
  match ctx.clientInfo with
  | none => loginRequired
  | some client => do
      let found ← surely (call (Call.getProjectInfo project))
      withRight client.email project ProjectRights.write found
        (sendError (ErrorPayload.cisProjectDoesntExist project)
          "Project doesn't exists.")
        fun entry => do
          checkEc (← surely (call (Call.removeProject entry))) fun _ =>
            send Success.cisProjectRemove

/-!
## Jobs and builds
-/

def jobConfText : Str :=
  str "script=script\n" ++ str "keep_last_success_builds=5\n" ++
    str "keep_last_break_builds=5"

/-- What `add_cis_job` does once it may. -/
def createJob (project job : Str) : Handler := do
  let path := jobPath project job
  match ← surely (call (Call.find path)) with
  | some _ =>
      sendError (ErrorPayload.cisJobAlreadyExist project job)
        "Job already exists."
  | none =>
      checkEcMsg (← surely (call (Call.createDirectory path)))
          "Can't create directory." fun _ => do
        let script := append path (str "script")
        checkEcMsg (← surely (call (Call.createFileW script)))
            "Can't create file." fun _ => do
          checkEcMsg (← call (Call.setPermissions script PermChange.replaceWithScript))
              "Can't make script executable." fun _ => do
            checkEcMsg
                (← surely (call (Call.createFileW (append path (str "job.params")))))
                "Can't create file." fun _ => do
              let conf := append path (str "job.conf")
              checkEcMsg (← surely (call (Call.createFileW conf)))
                  "Can't create file." fun _ => do
                let _ ← call (Call.writeFile conf jobConfText)
                send Success.cisJobAdd

/-- The login error is sent, and then `client_info.value()` is evaluated all
the same. -/
def addCisJob (ctx : RequestContext) (project job : Str) : Handler := do
  let found ← surely (call (Call.getProjectInfo project))
  if ctx.clientInfo = none then
    loginRequired
  let client ← clientInfoValue ctx
  withRight client.email project ProjectRights.write found
    (sendError (ErrorPayload.cisProjectDoesntExist project)
      "Project doesn't exists.")
    fun _ => createJob project job

/-- Remove the entry at a path, if the cache finds it. -/
def removeFound (path : Str) (done : Success) (missing : Handler) : Handler := do
  match ← surely (call (Call.find path)) with
  | some entry =>
      surely (call (Call.removeEntry entry))
      send done
  | none => missing

def removeCisJob (ctx : RequestContext) (project job : Str) : Handler :=
  match ctx.clientInfo with
  | none => loginRequired
  | some client => do
      let found ← surely (call (Call.getJobInfo project job))
      withRight client.email project ProjectRights.write found
        (sendError (ErrorPayload.cisJobDoesntExist project job)
          "Job doesn't exists.")
        fun _ =>
          removeFound (jobPath project job) Success.cisJobRemove
            (sendError (ErrorPayload.cisJobDoesntExist project job)
              "Job doesn't exist.")

/-- The second error repeats its own empty job instead of the request's. -/
def removeCisBuild (ctx : RequestContext) (project job build : Str) : Handler :=
  match ctx.clientInfo with
  | none => loginRequired
  | some client => do
      let found ← surely (call (Call.getBuildInfo project job build))
      withRight client.email project ProjectRights.write found
        (sendError (ErrorPayload.cisBuildDoesntExist project job build)
          "Build doesn't exists.")
        fun _ =>
          removeFound (buildPath project job build) Success.cisBuildRemove
            (sendError (ErrorPayload.cisBuildDoesntExist project [] [])
              "Build doesn't exist.")

/-- The script and the parameters of a job, as far as they exist, and its
configuration, which is dereferenced unchecked. -/
def jobProperties (root : Str) (entry : DirEntry) : Action (List FsEntry) := do
  let script ← surely (call (Call.getScriptEntry entry))
  let params ← surely (call (Call.getParamsEntry entry))
  match ← surely (call (Call.getConfEntry entry)) with
  | none => Program.fail Failure.nullEntry
  | some conf =>
      return (script.toList ++ params.toList ++ [conf]).map (makeDirEntry root)

def getJobInfo (ctx : RequestContext) (project job : Str) : Handler := do
  let found ← surely (call (Call.getJobInfo project job))
  match ctx.clientInfo with
  | none => loginRequired
  | some client =>
      withRight client.email project ProjectRights.read found
        (sendError (ErrorPayload.cisJobDoesntExist project job)
          "Job doesn't exist.")
        fun info => do
          let root ← call Call.rootPath
          let listed ← surely (call (Call.getBuildList info.entry))
          let properties ← jobProperties root info.entry
          send (Success.cisJobInfo info.params
            (buildsFirst (listed.map (makeListedEntry root))) properties)

/-- The values of a run: what the request gives, or else the defaults; none if
a default is empty. -/
def runJobParams (given : List (Str × Str)) :
    List (Str × Str) -> Option (List (Str × Str))
  | [] => some []
  | (name, defaultValue) :: rest =>
      match given.lookup name with
      | some value => (runJobParams given rest).map fun vs => (name, value) :: vs
      | none =>
          if defaultValue = [] then
            none
          else
            (runJobParams given rest).map fun vs => (name, defaultValue) :: vs

/-- Put a task on a chain, while the connection is there. -/
def startTask (task : Task) : Handler := do
  let executor : Bool ← call Call.hasExecutor
  if executor then
    call (Call.start task)

def runJob (ctx : RequestContext) (project job : Str) (force : Bool)
    (params : List (Str × Str)) : Handler :=
  match ctx.clientInfo with
  | none => loginRequired
  | some client => do
      let found ← surely (call (Call.getJobInfo project job))
      withRight client.email project ProjectRights.execute found
        (sendError (ErrorPayload.cisJobDoesntExist project job)
          "Job doesn't exist.")
        fun info =>
          match runJobParams params info.params with
          | none => sendError ErrorPayload.cisJobInvalidParams "Invalid params."
          | some values =>
              startTask
                (Task.runJob
                  { project := project
                    job := job
                    force := force
                    params := values
                    email := client.email })

def getBuildInfo (ctx : RequestContext) (project job build : Str) : Handler := do
  let found ← surely (call (Call.getBuildInfo project job build))
  match ctx.clientInfo with
  | none => loginRequired
  | some client =>
      withRight client.email project ProjectRights.read found
        (sendError (ErrorPayload.cisBuildDoesntExist project job build)
          "Build doesn't exist.")
        fun (entry, info) => do
          let files ← surely (call (Call.listFiles entry))
          let root ← call Call.rootPath
          send (Success.cisBuildInfo (unpackBuildInfo info)
            (files.map (makeDirEntry root)))

/-!
## Files
-/

def invalidPath : Handler :=
  sendError ErrorPayload.fsEntryInvalidPath "Invalid path."

/-- Go on if the client has the right on the path. -/
def withPathRight (email path : Str) (right : ProjectRights -> Bool)
    (action : Handler) : Handler := do
  checkEc (← getPathRights email path) fun rights =>
    if allows right rights then action else notPermitted

/-- The checks of the handlers that ask for the login first; `valid` are their
conditions on the paths. -/
def withPath (ctx : RequestContext) (valid : Bool)
    (action : ClientInfo -> Handler) : Handler :=
  match ctx.clientInfo with
  | none => loginRequired
  | some client => if valid then action client else invalidPath

/-- The checks of the handlers that look at the path first. -/
def withValidPath (ctx : RequestContext) (path : Str)
    (action : ClientInfo -> Handler) : Handler :=
  if validatePath path then
    match ctx.clientInfo with
    | none => loginRequired
    | some client => action client
  else
    invalidPath

/-- The comparison `path == "/"`, element by element. -/
def isRoot (path : Str) : Bool :=
  elements path == [[slash]]

def getFsEntryInfo (ctx : RequestContext) (path : Str) : Handler :=
  withValidPath ctx path fun client =>
    withPathRight client.email path ProjectRights.read do
      match ← surely (call (Call.find path)) with
      | some entry =>
          let root ← call Call.rootPath
          send (Success.fsEntryInfo (makeDirEntry root entry))
      | none =>
          sendError ErrorPayload.fsEntryDoesntExist "Path does not exists."

def listDirectory (ctx : RequestContext) (path : Str) : Handler :=
  withValidPath ctx path fun client =>
    withPathRight client.email path ProjectRights.read do
      match ← surely (call (Call.find path)) with
      | some entry =>
          let files ← surely (call (Call.listFiles entry))
          let root ← call Call.rootPath
          send (Success.fsEntryList (files.map (makeDirEntry root)))
      | none =>
          sendError ErrorPayload.fsEntryDoesntExist "Path does not exists."

def refreshFsEntry (ctx : RequestContext) (path : Str) : Handler :=
  withPath ctx (validatePath path) fun client =>
    withPathRight client.email path ProjectRights.read do
      let found ← surely (call (Call.refresh path))
      if found then
        send Success.fsEntryRefresh
      else
        sendError ErrorPayload.fsEntryDoesntExist "Path does not exists."

def removeFsEntry (ctx : RequestContext) (path : Str) : Handler :=
  withPath ctx (validatePath path && !isRoot path) fun client =>
    withPathRight client.email path ProjectRights.write do
      let found ← surely (call (Call.remove path))
      if found then
        send Success.fsEntryRemove
      else
        sendError ErrorPayload.fsEntryDoesntExist "Path does not exist."

/-- What `move_fs_entry` does once it may. -/
def moveEntry (oldPath newPath : Str) : Handler := do
  match ← surely (call (Call.moveEntry oldPath newPath)) with
  | Except.error _ => sendError ErrorPayload.fsEntryCantMove "Error on move."
  | Except.ok _ => send Success.fsEntryMove

def moveFsEntry (ctx : RequestContext) (oldPath newPath : Str) : Handler :=
  withPath ctx (validatePath oldPath && validatePath newPath) fun client =>
    withPathRight client.email oldPath ProjectRights.write
      (withPathRight client.email newPath ProjectRights.write
        (moveEntry oldPath newPath))

def newDirectory (ctx : RequestContext) (path : Str) : Handler :=
  withPath ctx (validatePath path) fun client =>
    withPathRight client.email path ProjectRights.write do
      match ← surely (call (Call.createDirectory path)) with
      | Except.error _ =>
          sendError ErrorPayload.fsEntryCantCreateDir
            "Error while creating directory."
      | Except.ok _ => send Success.fsEntryNewDir

def setFsEntryExecutableFlag (ctx : RequestContext) (path : Str)
    (executable : Bool) : Handler :=
  withPath ctx (validatePath path && !isRoot path) fun client =>
    withPathRight client.email path ProjectRights.write do
      match ← surely (call (Call.find path)) with
      | some entry =>
          let change :=
            if executable then PermChange.addOwnerExec
            else PermChange.removeOwnerExec
          checkEc (← call (Call.permissions entry change)) fun _ =>
            send Success.fsEntrySetExecutableFlag
      | none =>
          sendError ErrorPayload.fsEntryDoesntExist "Path does not exist."

/-!
## Cron and version
-/

/-- The transaction is moved into the handle first; the errors sent through the
transaction itself come after that. -/
def addCisCron (validCron : Str -> Bool) (ctx : RequestContext)
    (project job cronExpr : Str) : Handler :=
  let sendMoved := fun payload text =>
    Program.ask (Op.replyMoved (Reply.error (some payload) (str text)))
  if validCron cronExpr then do
    let found ← surely (call (Call.getJobInfo project job))
    match ctx.clientInfo with
    | none => sendMoved ErrorPayload.authLoginRequired "Login required."
    | some client =>
        match ← checkProjectRight client.email project with
        | Except.error _ =>
            Program.ask (Op.replyMoved (Reply.error none (str "Internal error.")))
        | Except.ok perm =>
            if allows (fun rights => rights.write && rights.execute) perm then
              match found with
              | some _ => startTask (Task.addCron project job cronExpr)
              | none =>
                  sendError (ErrorPayload.cisJobDoesntExist project job)
                    "Job doesn't exists."
            else
              sendMoved ErrorPayload.userPermissionAccessDenied
                "Action not permitted."
  else
    sendErrorText "Invalid cron expression."

def removeCisCron (ctx : RequestContext) (project job cronExpr : Str) :
    Handler :=
  match ctx.clientInfo with
  | none => loginRequired
  | some client => do
      let found ← surely (call (Call.getJobInfo project job))
      withRight client.email project
        (fun rights => rights.write && rights.execute) found
        (sendError (ErrorPayload.cisJobDoesntExist project job)
          "Job doesn't exist.")
        fun _ => startTask (Task.removeCron project job cronExpr)

def listCisCron (mask : Str) : Handler :=
  startTask (Task.listCron mask)

def getSystemVersion : Handler := do
  let entries ← call Call.versionEntries
  let git :=
    match entries.git with
    | none => []
    | some (sha1, dirty) =>
        str " " ++ sha1 ++ if dirty then str " dirty" else []
  send (Success.systemVersionInfo (entries.version ++ git))

/-!
## The event table
-/

/-- `make_ws_router`: the handler of an event. -/
def dispatch (validCron : Str -> Bool) (ctx : RequestContext) : Request -> Handler
  | Request.authLoginPass email pass => loginPass email pass
  | Request.authLoginToken token => loginToken token
  | Request.authLogout token => logout ctx token
  | Request.userChangePass email oldPassword newPassword =>
      changePass ctx email oldPassword newPassword
  | Request.adminUserAdd email pass admin => addUser ctx email pass admin
  | Request.adminUserDelete email => deleteUser ctx email
  | Request.adminUserList => listUsers ctx
  | Request.adminUserPermissionGet email => getUserPermissions ctx email
  | Request.adminUserPermissionSet email permissions =>
      setUserPermissions ctx email permissions
  | Request.adminProjectPermissionGet project => getProjectPermissions ctx project
  | Request.adminUserSetAdminStatus email admin => setAdminStatus ctx email admin
  | Request.userApiKeyGenerate email => generateApiKey ctx email
  | Request.userApiKeyGet email => getApiKey ctx email
  | Request.userApiKeyRemove email => removeApiKey ctx email
  | Request.cisProjectListGet => listProjects ctx
  | Request.cisProjectInfo project => getProjectInfo ctx project
  | Request.cisProjectAdd project => addCisProject ctx project
  | Request.cisProjectRemove project => removeCisProject ctx project
  | Request.cisJobAdd project job => addCisJob ctx project job
  | Request.cisJobRemove project job => removeCisJob ctx project job
  | Request.cisBuildRemove project job build => removeCisBuild ctx project job build
  | Request.cisJobInfo project job => getJobInfo ctx project job
  | Request.cisJobRun project job force params => runJob ctx project job force params
  | Request.cisBuildInfo project job build => getBuildInfo ctx project job build
  | Request.fsEntryInfo path => getFsEntryInfo ctx path
  | Request.fsEntryRefresh path => refreshFsEntry ctx path
  | Request.fsEntryRemove path => removeFsEntry ctx path
  | Request.fsEntryMove oldPath newPath => moveFsEntry ctx oldPath newPath
  | Request.fsEntryNewDir path => newDirectory ctx path
  | Request.fsEntryList path => listDirectory ctx path
  | Request.fsEntrySetExecutableFlag path executable =>
      setFsEntryExecutableFlag ctx path executable
  | Request.cisCronAdd project job cronExpr =>
      addCisCron validCron ctx project job cronExpr
  | Request.cisCronRemove project job cronExpr =>
      removeCisCron ctx project job cronExpr
  | Request.cisCronList mask => listCisCron mask
  | Request.systemVersionInfo => getSystemVersion

end Websocket
end CisWebui
