import CisWebui.Cpp.FilesystemPath
import CisWebui.Foundation.Program
import CisWebui.Websocket.Protocol

/-!
# What handlers ask for

The calls a WebSocket handler makes of the managers and of the file cache, each
with what it can answer, and its replies.  A handler is a program over these
operations.
-/

namespace CisWebui
namespace Websocket

open Cpp Foundation

/-- The ways a handler ends without returning. -/
inductive Failure where
  /-- `value()` of an empty `client_info` -/
  | badOptionalAccess
  /-- A lookup in the file cache throws, or does not come back. -/
  | lookup
  /-- `check_pass` lets a database error through. -/
  | database
  /-- A missing entry is dereferenced. -/
  | nullEntry
deriving DecidableEq, Inhabited, Repr

/-- The answer of a call that goes through the file cache. -/
abbrev Cached := Except Failure

inductive EntryKind where
  | directory
  | regular (executable : Bool)
  | other
deriving DecidableEq, Repr

/-- An entry found on disk or in the cache, by its path. -/
structure DirEntry where
  path : Str
  kind : EntryKind
deriving DecidableEq, Repr

/-- An entry of a listing, with what the listing finds out about it. -/
inductive Listed where
  | plain (entry : DirEntry)
  | project (entry : DirEntry)
  | job (entry : DirEntry)
  | build (entry : DirEntry) (info : BuildInfo)
deriving DecidableEq, Repr

structure JobInfo where
  entry : DirEntry
  params : List (Str × Str)
deriving DecidableEq, Repr

/-- `perms` and `perm_options` of the calls of `set_permissions`. -/
inductive PermChange where
  | replaceWithScript
  | addOwnerExec
  | removeOwnerExec
deriving DecidableEq, Repr

/-- The tasks a handler puts on a chain and leaves running. -/
inductive Task where
  | runJob (call : JobCall)
  | addCron (project job cronExpr : Str)
  | removeCron (project job cronExpr : Str)
  | listCron (mask : Str)
deriving DecidableEq, Repr

/-- `git/sha1` and `git/dirty` of the configuration, and `cis/version`. -/
structure VersionEntries where
  version : Str
  git : Option (Str × Bool)
deriving DecidableEq, Inhabited, Repr

/-- The calls of the managers, under their own names. -/
inductive Call where
  -- authentication manager
  | authenticatePass (email pass : Str)
  | authenticateToken (token : Str)
  | hasUser (email : Str)
  | generateApiKey (email : Str)
  | getApiKey (email : Str)
  | removeApiKey (email : Str)
  | checkPass (email pass : Str)
  | changePass (email newPass : Str)
  | getUserInfos
  | deleteToken (token : Str)
  | addUser (email pass : Str) (admin : Bool)
  | deleteUser (email : Str)
  -- rights manager
  | isAdmin (email : Str)
  | setAdminStatus (email : Str) (admin : Bool)
  | checkProjectRight (email project : Str)
  | getPermissions (email : Str)
  | getPermissionsByProject (project : Str)
  | setUserProjectPermissions (email project : Str) (rights : ProjectRights)
  -- manager of projects, jobs and builds
  | getProjectList
  | getProjectInfo (project : Str)
  | getJobInfo (project job : Str)
  | getBuildInfo (project job build : Str)
  | getJobList (project : DirEntry)
  | getBuildList (job : DirEntry)
  | getScriptEntry (job : DirEntry)
  | getParamsEntry (job : DirEntry)
  | getConfEntry (job : DirEntry)
  | createProject (project : Str)
  | removeProject (project : DirEntry)
  | refresh (path : Str)
  | remove (path : Str)
  -- file cache
  | rootPath
  | find (path : Str)
  | listFiles (entry : DirEntry)
  | removeEntry (entry : DirEntry)
  | moveEntry (oldPath newPath : Str)
  | createDirectory (path : Str)
  | createFileW (path : Str)
  | writeFile (path text : Str)
  | setPermissions (path : Str) (change : PermChange)
  | permissions (entry : DirEntry) (change : PermChange)
  -- chains and configuration
  | hasExecutor
  | start (task : Task)
  | versionEntries
deriving DecidableEq, Repr

/-- What a call answers. -/
def Call.Answer : Call -> Type
  | authenticatePass _ _ => Fallible (Option Str)
  | authenticateToken _ => Fallible (Option Str)
  | hasUser _ => Fallible Bool
  | generateApiKey _ => Fallible (Option Str)
  | getApiKey _ => Fallible (Option Str)
  | removeApiKey _ => Fallible Bool
  | checkPass _ _ => Except Failure Bool
  | changePass _ _ => Fallible Bool
  | getUserInfos => Fallible (List UserInfo)
  | deleteToken _ => Fallible Bool
  | addUser _ _ _ => Fallible Bool
  | deleteUser _ => Fallible Bool
  | isAdmin _ => Fallible Bool
  | setAdminStatus _ _ => Fallible Bool
  | checkProjectRight _ _ => Fallible (Option ProjectRights)
  | getPermissions _ => Fallible (List Permission)
  | getPermissionsByProject _ => Fallible (List UserPermission)
  | setUserProjectPermissions _ _ _ => Fallible Bool
  | getProjectList => Cached (List Listed)
  | getProjectInfo _ => Cached (Option DirEntry)
  | getJobInfo _ _ => Cached (Option JobInfo)
  | getBuildInfo _ _ _ => Cached (Option (DirEntry × BuildInfo))
  | getJobList _ => Cached (List Listed)
  | getBuildList _ => Cached (List Listed)
  | getScriptEntry _ => Cached (Option DirEntry)
  | getParamsEntry _ => Cached (Option DirEntry)
  | getConfEntry _ => Cached (Option DirEntry)
  | createProject _ => Cached (Fallible Unit)
  | removeProject _ => Cached (Fallible Unit)
  | refresh _ => Cached Bool
  | remove _ => Cached Bool
  | rootPath => Str
  | find _ => Cached (Option DirEntry)
  | listFiles _ => Cached (List DirEntry)
  | removeEntry _ => Cached Unit
  | moveEntry _ _ => Cached (Fallible Unit)
  | createDirectory _ => Cached (Fallible Unit)
  | createFileW _ => Cached (Fallible Unit)
  | writeFile _ _ => Unit
  | setPermissions _ _ => Fallible Unit
  | permissions _ _ => Fallible Unit
  | hasExecutor => Bool
  | start _ => Unit
  | versionEntries => VersionEntries

instance (c : Call) : Inhabited c.Answer := by
  cases c <;> dsimp only [Call.Answer] <;> infer_instance

/-- The operations of a handler. -/
inductive Op where
  | call (c : Call)
  /-- `send` and `send_error` of the transaction -/
  | reply (r : Reply)
  /-- The same of a transaction that has been moved from. -/
  | replyMoved (r : Reply)
  | setClientInfo (client : Option ClientInfo)
deriving DecidableEq, Repr

def Op.Answer : Op -> Type
  | call c => c.Answer
  | reply _ => Unit
  | replyMoved _ => Unit
  | setClientInfo _ => Unit

abbrev Action := Program Op Op.Answer Failure

/-- A handler returns nothing; what it says, it says in replies. -/
abbrev Handler := Action Unit

/-!
## Asking
-/

def call (c : Call) : Action c.Answer :=
  Program.ask (Op.call c)

def reply (r : Reply) : Handler :=
  Program.ask (Op.reply r)

def send (payload : Success) : Handler :=
  reply (Reply.success payload)

def sendError (payload : ErrorPayload) (text : String) : Handler :=
  reply (Reply.error (some payload) (str text))

/-- An error with a text alone. -/
def sendErrorText (text : String) : Handler :=
  reply (Reply.error none (str text))

def setClientInfo (client : Option ClientInfo) : Handler :=
  Program.ask (Op.setClientInfo client)

/-- A call whose exceptions leave the handler. -/
def surely {α : Type} (p : Action (Except Failure α)) : Action α := do
  match ← p with
  | Except.ok a => Program.done a
  | Except.error f => Program.fail f

theorem run_call {World : Type} {M : Machine Op Op.Answer World} {c : Call}
    {answer : c.Answer} {w w' : World} (h : M.perform (Op.call c) w = (answer, w')) :
    (call c).run M w = (Except.ok answer, w') := by
  have hrun : (call c).run M w =
      (Except.ok (M.perform (Op.call c) w).1, (M.perform (Op.call c) w).2) := rfl
  exact hrun.trans (congrArg (fun answered => (Except.ok answered.1, answered.2)) h)

/-- An answer that is an exception ends the handler. -/
theorem run_surely {World α : Type} {M : Machine Op Op.Answer World}
    {p : Action (Except Failure α)} {w w' : World} {answer : Except Failure α}
    (h : p.run M w = (Except.ok answer, w')) :
    (surely p).run M w = (answer, w') := by
  unfold surely
  rw [Program.run_bind, h]
  cases answer with
  | error f => rfl
  | ok a => rfl

theorem run_surely_ok {World α β : Type} {M : Machine Op Op.Answer World}
    {p : Action (Except Failure α)} {f : α -> Action β} {w w' : World} {a : α}
    (h : p.run M w = (Except.ok (Except.ok a), w')) :
    (surely p >>= f).run M w = (f a).run M w' := by
  rw [Program.run_bind, run_surely h]

theorem run_surely_error {World α β : Type} {M : Machine Op Op.Answer World}
    {p : Action (Except Failure α)} {f : α -> Action β} {w w' : World} {e : Failure}
    (h : p.run M w = (Except.ok (Except.error e), w')) :
    (surely p >>= f).run M w = (Except.error e, w') := by
  rw [Program.run_bind, run_surely h]

theorem only_call {P : Op -> Prop} {c : Call} (h : P (Op.call c)) :
    (call c).Only P :=
  ⟨h, fun _ => trivial⟩

theorem only_reply {P : Op -> Prop} {r : Reply} (h : P (Op.reply r)) :
    (reply r).Only P :=
  ⟨h, fun _ => trivial⟩

theorem only_surely {P : Op -> Prop} {α : Type} {p : Action (Except Failure α)}
    (hp : p.Only P) : (surely p).Only P := by
  apply Program.only_bind hp
  intro answer
  cases answer with
  | error f => trivial
  | ok a => trivial

/-- `client_info.value()` -/
def clientInfoValue (ctx : RequestContext) : Action ClientInfo :=
  match ctx.clientInfo with
  | some client => Program.done client
  | none => Program.fail Failure.badOptionalAccess

/-- `WSHU_CHECK_EC` -/
def checkEc {α : Type} (answer : Fallible α) (next : α -> Handler) : Handler :=
  match answer with
  | Except.error _ => sendErrorText "Internal error."
  | Except.ok a => next a

/-- `WSHU_CHECK_EC_MSG` -/
def checkEcMsg {α : Type} (answer : Fallible α) (text : String)
    (next : α -> Handler) : Handler :=
  match answer with
  | Except.error _ => sendErrorText text
  | Except.ok a => next a

end Websocket
end CisWebui
