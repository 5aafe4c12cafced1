import CisWebui.Websocket.Handlers

/-!
# One reply for a request

The handlers of the event table call the managers and then answer.  A handler
that replies before it returns should do so once, whatever the managers answer.
This module follows each of them along every trace that the answers make
possible.
-/

namespace CisWebui
namespace Websocket

open Cpp Foundation

/-!
## Answers and replies
-/

def Op.isReply : Op -> Bool
  | Op.reply _ => true
  | Op.replyMoved _ => true
  | _ => false

/-- The call has come back without an exception. -/
def Returned {α : Type} (answer : Except Failure α) : Prop :=
  exists a, answer = Except.ok a

/-- What a manager call can answer: a success, false or an empty result, or an
error code, and no exception. -/
def Call.Normal : (c : Call) -> c.Answer -> Prop
  | Call.checkPass _ _, answer => Returned answer
  | Call.getProjectList, answer => Returned answer
  | Call.getProjectInfo _, answer => Returned answer
  | Call.getJobInfo _ _, answer => Returned answer
  | Call.getBuildInfo _ _ _, answer => Returned answer
  | Call.getJobList _, answer => Returned answer
  | Call.getBuildList _, answer => Returned answer
  | Call.getScriptEntry _, answer => Returned answer
  | Call.getParamsEntry _, answer => Returned answer
  | Call.getConfEntry _, answer => Returned answer
  | Call.createProject _, answer => Returned answer
  | Call.removeProject _, answer => Returned answer
  | Call.refresh _, answer => Returned answer
  | Call.remove _, answer => Returned answer
  | Call.find _, answer => Returned answer
  | Call.listFiles _, answer => Returned answer
  | Call.removeEntry _, answer => Returned answer
  | Call.moveEntry _ _, answer => Returned answer
  | Call.createDirectory _, answer => Returned answer
  | Call.createFileW _, answer => Returned answer
  | _, _ => True

def Op.Normal : (op : Op) -> op.Answer -> Prop
  | Op.call c, answer => c.Normal answer
  | _, _ => True

/-- A handler asks for an operation and is answered. -/
abbrev Asked := Sigma Op.Answer

def replies (t : List Asked) : Nat :=
  t.countP fun e => e.1.isReply

/-- The context of a client that is logged in. -/
def loggedInContext : RequestContext where
  clientInfo := some { email := str "a@b", activeToken := [], apiAccessKey := [] }
  cookies := []
  resStatus := Status.ok
  allowedVerbs := []
  error := []

end Websocket
end CisWebui
