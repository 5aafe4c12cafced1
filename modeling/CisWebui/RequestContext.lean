import CisWebui.Cpp.Bytes

/-!
# Requests and their context

What the handlers of both servers share: the context of a request, the records
the managers return, and the ways a manager call can end.
-/

namespace CisWebui

open Cpp

/-- `std::error_code`, set; a manager call that returns without one is `ok`. -/
structure ErrorCode where
  message : Str
deriving DecidableEq, Inhabited, Repr

/-- A manager call: its result, or the error code it sets. -/
abbrev Fallible := Except ErrorCode

/-- `handle_result` -/
inductive HandleResult where
  | done
  | next
  | error
deriving DecidableEq, Repr

/-- `boost::beast::http::verb`, as far as a handler tells verbs apart. -/
inductive Verb where
  | get
  | post
  | other (name : Str)
deriving DecidableEq, Repr

/-- `boost::beast::http::status`, the values the handlers set. -/
inductive Status where
  | unknown
  | ok
  | accepted
  | badRequest
  | forbidden
  | notFound
  | methodNotAllowed
  | conflict
  | internalServerError
deriving DecidableEq, Repr

/-- `request_context::user_info` -/
structure ClientInfo where
  email : Str
  activeToken : Str
  apiAccessKey : Str
deriving DecidableEq, Repr

/-- `request_context` -/
structure RequestContext where
  clientInfo : Option ClientInfo
  cookies : List (Str × Str)
  resStatus : Status
  allowedVerbs : List Verb
  error : Str
deriving DecidableEq, Repr

/-- `user_info` of the authentication manager -/
structure UserInfo where
  email : Str
  apiAccessKey : Option Str
  isAdmin : Bool
deriving DecidableEq, Repr

/-- `project_rights` -/
structure ProjectRights where
  read : Bool
  write : Bool
  execute : Bool
deriving DecidableEq, Repr

/-- The arguments of `cis_manager::run_job`. -/
structure JobCall where
  project : Str
  job : Str
  force : Bool
  params : List (Str × Str)
  email : Str
deriving DecidableEq, Repr

end CisWebui
