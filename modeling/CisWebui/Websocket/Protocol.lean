import CisWebui.RequestContext

/-!
# WebSocket messages

The requests of `make_ws_router` with their fields, and the replies: a success
with its payload, or an error with a payload, a text, or both.

The session subscriptions are left out here; they answer through the sessions.
-/

namespace CisWebui
namespace Websocket

open Cpp

/-- The rights on one project in a permission list. -/
structure Permission where
  name : Str
  rights : ProjectRights
deriving DecidableEq, Repr

/-- An entry of the permissions of a project. -/
structure UserPermission where
  email : Str
  admin : Bool
  rights : ProjectRights
deriving DecidableEq, Repr

structure CronEntry where
  project : Str
  job : Str
  cronExpr : Str
deriving DecidableEq, Repr

/-- `build_interface::info` -/
structure BuildInfo where
  status : Option Int
  exitMessage : Option Str
  sessionId : Option Str
  date : Option Str
deriving DecidableEq, Repr

/-- `fs_entry::build_info` -/
structure BuildMeta where
  status : Str
  exitCode : Option Int
  exitMessage : Option Str
  sessionId : Option Str
  date : Option Str
deriving DecidableEq, Repr

inductive MetaInfo where
  | none
  | projectInfo (permitted : Bool)
  | jobInfo
  | buildInfo (info : BuildMeta)
  | directoryInfo
  | fileInfo (executable : Bool)
deriving DecidableEq, Repr

/-- `dto::fs_entry` -/
structure FsEntry where
  name : Str
  path : Str
  link : Str
  metainfo : MetaInfo
deriving DecidableEq, Repr

/-- The events of the table, in its order. -/
inductive Request where
  | authLoginPass (email pass : Str)
  | authLoginToken (token : Str)
  | authLogout (token : Str)
  | userChangePass (email oldPassword newPassword : Str)
  | adminUserAdd (email pass : Str) (admin : Bool)
  | adminUserDelete (email : Str)
  | adminUserList
  | adminUserPermissionGet (email : Str)
  | adminUserPermissionSet (email : Str) (permissions : List Permission)
  | adminProjectPermissionGet (project : Str)
  | adminUserSetAdminStatus (email : Str) (admin : Bool)
  | userApiKeyGenerate (email : Str)
  | userApiKeyGet (email : Str)
  | userApiKeyRemove (email : Str)
  | cisProjectListGet
  | cisProjectInfo (project : Str)
  | cisProjectAdd (project : Str)
  | cisProjectRemove (project : Str)
  | cisJobAdd (project job : Str)
  | cisJobRemove (project job : Str)
  | cisBuildRemove (project job build : Str)
  | cisJobInfo (project job : Str)
  | cisJobRun (project job : Str) (force : Bool) (params : List (Str × Str))
  | cisBuildInfo (project job build : Str)
  | fsEntryInfo (path : Str)
  | fsEntryRefresh (path : Str)
  | fsEntryRemove (path : Str)
  | fsEntryMove (oldPath newPath : Str)
  | fsEntryNewDir (path : Str)
  | fsEntryList (path : Str)
  | fsEntrySetExecutableFlag (path : Str) (executable : Bool)
  | cisCronAdd (project job cronExpr : Str)
  | cisCronRemove (project job cronExpr : Str)
  | cisCronList (mask : Str)
  | systemVersionInfo
deriving DecidableEq, Repr

inductive Success where
  | authLogin (token : Str) (admin : Bool)
  | authLogout
  | userChangePass
  | adminUserAdd
  | adminUserDelete
  | adminUserList (users : List (Str × Str × Bool))
  | adminUserPermissionGet (permissions : List Permission)
  | adminUserPermissionSet
  | adminProjectPermissionGet (users : List UserPermission)
  | adminUserSetAdminStatus
  | userApiKeyGenerate (apiKey : Str)
  | userApiKeyGet (apiKey : Str)
  | userApiKeyRemove
  | cisProjectListGet (fsEntries : List FsEntry)
  | cisProjectInfo (fsEntries : List FsEntry)
  | cisProjectAdd
  | cisProjectRemove
  | cisJobAdd
  | cisJobRemove
  | cisBuildRemove
  | cisJobInfo (params : List (Str × Str)) (fsEntries properties : List FsEntry)
  | cisJobRun (sessionId : Str)
  | cisJobFinished (status : Str) (exitCode : Int)
      (exitMessage sessionId : Option Str)
  | cisBuildInfo (info : BuildMeta) (fsEntries : List FsEntry)
  | fsEntryInfo (entry : FsEntry)
  | fsEntryRefresh
  | fsEntryRemove
  | fsEntryMove
  | fsEntryNewDir
  | fsEntryList (entries : List FsEntry)
  | fsEntrySetExecutableFlag
  | cisCronAdd
  | cisCronRemove
  | cisCronList (entries : List CronEntry)
  | systemVersionInfo (webuiVersion : Str)
deriving DecidableEq, Repr

inductive ErrorPayload where
  | authLoginRequired
  | authWrongCredentials
  | userPermissionAccessDenied
  | userPassDoesntMatch
  | userNotFound
  | adminUserAddExists
  | adminUserAddIncorrectCredentials
  | cisProjectAlreadyExist (project : Str)
  | cisProjectDoesntExist (project : Str)
  | cisJobAlreadyExist (project job : Str)
  | cisJobDoesntExist (project job : Str)
  | cisJobInvalidParams
  | cisBuildDoesntExist (project job build : Str)
  | fsEntryInvalidPath
  | fsEntryDoesntExist
  | fsEntryCantMove
  | fsEntryCantCreateDir
deriving DecidableEq, Repr

inductive Reply where
  | success (payload : Success)
  | error (payload : Option ErrorPayload) (text : Str)
deriving DecidableEq, Repr

def Reply.isError : Reply -> Bool
  | Reply.success _ => false
  | Reply.error _ _ => true

end Websocket
end CisWebui
