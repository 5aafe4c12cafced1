import CisWebui.RequestContext

/-!
# HTTP exchanges

Requests, responses, and what a handler at the end of the chain leaves behind:
its result, the context, the responses it queued and the body it asked for.
The error handler answers every request that a handler refuses.
-/

namespace CisWebui
namespace Http

open Cpp

/-- A request as the handlers see it, its body still unread. -/
structure Request where
  method : Verb
  target : Str
  fields : List (Str × Str)
  version : Nat
  keepAlive : Bool
deriving DecidableEq, Repr

structure Response where
  status : Status
  version : Nat
  fields : List (Str × Str)
  keepAlive : Bool
  body : Str
deriving DecidableEq, Repr

def toLower (c : UInt8) : UInt8 :=
  if chr 'A' <= c ∧ c <= chr 'Z' then c + 32 else c

/-- `req.find(name)`: field names are compared without regard to case. -/
def Request.find (req : Request) (name : Str) : Option Str :=
  (req.fields.find? fun field =>
    field.1.map toLower = name.map toLower).map Prod.snd

/-!
## Responses
-/

namespace Response

/-- A response to `req` with the content type and the text of the error
pages. -/
def page (req : Request) (status : Status) (body : Str) : Response where
  status := status
  version := req.version
  fields := [(str "Content-Type", str "text/html")]
  keepAlive := req.keepAlive
  body := body

def verbName : Verb -> Str
  | Verb.get => str "GET"
  | Verb.post => str "POST"
  | Verb.other name => name

def methodNotAllowed (req : Request) (allowedVerbs : List Verb) : Response :=
  let answer := page req Status.methodNotAllowed (str "Method not allowed.")
  let allow := (str ", ").intercalate (allowedVerbs.map verbName)
  { answer with fields := answer.fields ++ [(str "Allow", allow)] }

def notFound (req : Request) : Response :=
  page req Status.notFound
    (str "The resource '" ++ req.target ++ str "' was not found.")

def forbidden (req : Request) : Response :=
  page req Status.forbidden (str "Forbidden.")

def serverError (req : Request) (what : Str) : Response :=
  page req Status.internalServerError
    (str "An error occurred: '" ++ what ++ str "'")

end Response

/-- `error_handler::operator()` -/
def errorHandler (req : Request) (ctx : RequestContext) : Response :=
  match ctx.resStatus with
  | Status.notFound => Response.notFound req
  | Status.forbidden => Response.forbidden req
  | Status.methodNotAllowed => Response.methodNotAllowed req ctx.allowedVerbs
  | _ => Response.serverError req ctx.error

/-!
## Handlers
-/

/-- What a handler leaves behind; the callback it passed to
`async_read_body` is given as data. -/
structure Handled (Callback : Type) where
  result : HandleResult
  ctx : RequestContext
  sent : List Response
  bodyRead : Option Callback

namespace Handled

variable {Callback : Type}

def error (ctx : RequestContext) : Handled Callback where
  result := HandleResult.error
  ctx := ctx
  sent := []
  bodyRead := none

/-- Refuse the request with a status. -/
def refuse (ctx : RequestContext) (status : Status) : Handled Callback :=
  error { ctx with resStatus := status }

def refuseMethod (ctx : RequestContext) (allowed : Verb) : Handled Callback :=
  refuse { ctx with allowedVerbs := [allowed] } Status.methodNotAllowed

def readBody (ctx : RequestContext) (callback : Callback) :
    Handled Callback where
  result := HandleResult.done
  ctx := ctx
  sent := []
  bodyRead := some callback

def respond (ctx : RequestContext) (r : Response) : Handled Callback where
  result := HandleResult.done
  ctx := ctx
  sent := [r]
  bodyRead := none

/-- The responses queued for the request before its body is read: the chain
calls the error handler for the last handler unless it is done. -/
def responses (req : Request) (h : Handled Callback) : List Response :=
  match h.result with
  | HandleResult.done => h.sent
  | HandleResult.next => h.sent ++ [errorHandler req h.ctx]
  | HandleResult.error => h.sent ++ [errorHandler req h.ctx]

@[simp] theorem responses_error (req : Request) (ctx : RequestContext) :
    (error ctx : Handled Callback).responses req = [errorHandler req ctx] := rfl

@[simp] theorem responses_readBody (req : Request) (ctx : RequestContext)
    (callback : Callback) : (readBody ctx callback).responses req = [] := rfl

@[simp] theorem bodyRead_error (ctx : RequestContext) :
    (error ctx : Handled Callback).bodyRead = none := rfl

@[simp] theorem bodyRead_readBody (ctx : RequestContext) (callback : Callback) :
    (readBody ctx callback).bodyRead = some callback := rfl

end Handled

end Http
end CisWebui
