import CisWebui.Http.Cookies
import CisWebui.Http.MultipartFormHandler
import CisWebui.Http.WebhooksHandler
import CisWebui.Net.HttpSession

/-!
# The public application

`handlers_chain` with the handlers of `init_public_app` and the routes of
`make_http_router`: what becomes of a request, from its header to the callback
of its body, and how the HTTP session gets to see it.
-/

namespace CisWebui
namespace Http

open Cpp Net

/-- The callback that a handler leaves with the body of a request. -/
inductive BodyCallback where
  | form (mode : Mode)
  | hook (callback : HookCallback)

/-- What the handlers find outside while a request is handled. -/
structure AppEnv where
  authenticate : Str -> Fallible (Option Str)
  rights : RightsEnv
  hooks : HookEnv
  files : FileEnv
  disk : DiskView

/-- A body that has been read: the values of a form, or the text. -/
structure BodyContent where
  values : List FormValue
  text : Str

/-- The directories that the application was created with. -/
structure Application where
  docRoot : Str
  projectsRoot : Str

namespace Application

/-!
## The handlers of the chain
-/

/-- A file handler leaves the body alone. -/
def fromServed (served : Served) : Handled BodyCallback :=
  { served.handled with bodyRead := none }

def fromForm (mode : Mode) (handled : Handled FormTarget) : Handled BodyCallback :=
  { handled with bodyRead := handled.bodyRead.map fun _ => BodyCallback.form mode }

def fromHook (handled : Handled HookCallback) : Handled BodyCallback :=
  { handled with bodyRead := handled.bodyRead.map BodyCallback.hook }

/-- A handler that hands the request on with another context. -/
def passOn (ctx : RequestContext) (result : HandleResult) : Handled BodyCallback where
  result := result
  ctx := ctx
  sent := []
  bodyRead := none

/-- The handlers of the routes. -/
def runRoute (app : Application) (env : AppEnv) (req : Request)
    (ctx : RequestContext) : Route -> Handled BodyCallback
  | Route.upload project dir =>
      fromForm Mode.add (MultipartFormHandler.upload app.projectsRoot env.rights
        env.disk req ctx project dir)
  | Route.replace project dir =>
      fromForm Mode.replace (MultipartFormHandler.replace app.projectsRoot env.rights
        env.disk req ctx project dir)
  | Route.download project file =>
      fromServed (DownloadHandler.handle app.projectsRoot env.rights env.files req
        ctx project file)
  | Route.webhooks apiProvider email project job queryString =>
      fromHook (WebhooksHandler.handle env.hooks req ctx email project job queryString
        apiProvider)
  | Route.root =>
      fromServed (FileHandler.singleFile { docRoot := app.docRoot, download := false }
        env.files req ctx (str "/index.html"))
  | Route.files =>
      fromServed (FileHandler.handle { docRoot := app.docRoot, download := false }
        env.files req ctx)

/-- `router::operator()` -/
def routeRequest (app : Application) (env : AppEnv) (req : Request)
    (ctx : RequestContext) : Handled BodyCallback :=
  match Router.route req.target with
  | none => Handled.error ctx
  | some route => app.runRoute env req ctx route

/-- `init_public_app`: the handlers in the order they are appended. -/
def handlers (app : Application) (env : AppEnv) :
    List (Request -> RequestContext -> Handled BodyCallback) :=
  [fun req ctx => passOn (parseCookieHeader (req.find (str "Cookie")) ctx) HandleResult.next,
    fun _ ctx =>
      let answered := handleAuthenticate env.authenticate ctx
      passOn answered.1 answered.2,
    app.routeRequest env]

/-- The loop of `handlers_chain::handle_header`: the handlers that are called. -/
def runHandlers (req : Request) (ctx : RequestContext) :
    List (Request -> RequestContext -> Handled BodyCallback) -> List (Handled BodyCallback)
  | [] => []
  | handler :: rest =>
      let handled := handler req ctx
      match handled.result with
      | HandleResult.next => handled :: runHandlers req handled.ctx rest
      | HandleResult.done => [handled]
      | HandleResult.error => [handled]

/-- The calls of the chain for a request. -/
def calls (app : Application) (env : AppEnv) (req : Request) : List (Handled BodyCallback) :=
  runHandlers req freshContext (app.handlers env)

/-- The context that the chain ends with. -/
def lastContext (handled : List (Handled BodyCallback)) : RequestContext :=
  (handled.getLast?.map Handled.ctx).getD freshContext

/-- `handlers_chain::handle_upgrade` with the one route of `make_ws_router`; it
gives the response to a request that is not accepted. -/
def upgradeResponse (req : Request) : Option Response :=
  if unescapeUri req.target = str "/ws" then none
  else some (errorHandler req freshContext)

/-!
## The callbacks of the body
-/

/-- What the callback does once the body has been read. -/
def runBody (env : AppEnv) (req : Request) (body : BodyContent) :
    BodyCallback -> List HookEffect
  | BodyCallback.form mode =>
      [HookEffect.respond (MultipartFormHandler.handleBody req mode body.values)]
  | BodyCallback.hook callback =>
      WebhooksHandler.runCallback env.hooks req body.text callback

def responseOf : HookEffect -> Option Response
  | HookEffect.respond r => some r
  | HookEffect.saveBody _ _ => none
  | HookEffect.runJob _ => none

/-- The responses that the callback queues. -/
def bodyResponses (env : AppEnv) (req : Request) (body : BodyContent)
    (callback : BodyCallback) : List Response :=
  (runBody env req body callback).filterMap responseOf

/-!
## What the session sees
-/

/-- `need_eof` of a response that says how long it is: the error pages and the
files do. -/
def sized (r : Response) : Net.Response where
  needEof := !r.keepAlive

/-- `need_eof` of a response without a length, such as those of the callbacks. -/
def unsized (_ : Response) : Net.Response where
  needEof := true

/-- The read that a handler starts for its callback. -/
def bodyAction : BodyCallback -> Net.HandlerAction
  | BodyCallback.form _ => Net.HandlerAction.readMultipartForm
  | BodyCallback.hook _ => Net.HandlerAction.readStringBody

def toCall (handled : Handled BodyCallback) : Net.HandlerCall where
  actions := handled.sent.map (fun r => Net.HandlerAction.send (sized r)) ++
    handled.bodyRead.toList.map bodyAction
  result := handled.result

/-- What becomes of a request header in the session. -/
def outcome (app : Application) (env : AppEnv) (req : Request) (upgrade : Bool) :
    Net.HeaderOutcome :=
  if upgrade then
    Net.HeaderOutcome.upgrade ((upgradeResponse req).toList.map sized)
  else
    Net.HeaderOutcome.handlers ((app.calls env req).map toCall)
      (sized (errorHandler req (lastContext (app.calls env req))))

/-!
## One answer for each request

Of the calls of a chain only the last one answers the request, or asks for its
body and leaves the answer to a callback.
-/

/-- The responses that a chain of calls queues, with that of the error handler. -/
def responsesOf (req : Request) (handled : List (Handled BodyCallback)) : List Response :=
  handled.flatMap Handled.sent ++
    match handled.getLast?.map Handled.result with
    | some HandleResult.done => []
    | _ => [errorHandler req (lastContext handled)]

/-- The responses that are queued before the body is read. -/
def headerResponses (app : Application) (env : AppEnv) (req : Request) : List Response :=
  responsesOf req (app.calls env req)

/-- The callback that is left with the body. -/
def awaited (app : Application) (env : AppEnv) (req : Request) : Option BodyCallback :=
  (app.calls env req).getLast?.bind Handled.bodyRead

/-- A handler refuses a request, answers it, or asks for its body. -/
inductive Answers : Handled BodyCallback -> Prop where
  | refused (ctx : RequestContext) : Answers (Handled.error ctx)
  | answered (ctx : RequestContext) (r : Response) : Answers (Handled.respond ctx r)
  | asked (ctx : RequestContext) (callback : BodyCallback) :
      Answers (Handled.readBody ctx callback)

theorem answers_singleFile (h : FileHandler) (env : FileEnv) (req : Request)
    (ctx : RequestContext) (path : Str) :
    Answers (fromServed (h.singleFile env req ctx path)) := by
  unfold FileHandler.singleFile
  by_cases hget : req.method = Verb.get
  · rw [if_pos hget]
    dsimp only
    cases env.openFile (FilesystemPath.cStr (pathCat h.docRoot path)) with
    | opened content => exact Answers.answered _ _
    | noSuchFile => exact Answers.refused _
    | failed ec => exact Answers.refused _
  · rw [if_neg hget]
    exact Answers.refused _

theorem answers_download (filesRoot : Str) (rights : RightsEnv) (env : FileEnv)
    (req : Request) (ctx : RequestContext) (project file : Str) :
    Answers (fromServed (DownloadHandler.handle filesRoot rights env req ctx project file)) := by
  unfold DownloadHandler.handle
  by_cases hget : req.method = Verb.get
  · rw [if_pos hget]
    cases refusal rights ctx project ProjectRights.read with
    | some status => exact Answers.refused _
    | none => exact answers_singleFile _ _ _ _ _
  · rw [if_neg hget]
    exact Answers.refused _

theorem answers_form (mode : Mode) (allowed : Verb) (filesRoot : Str) (rights : RightsEnv)
    (disk : DiskView) (req : Request) (ctx : RequestContext) (project dir : Str) :
    Answers (fromForm mode (MultipartFormHandler.handleForm mode allowed filesRoot rights
      disk req ctx project dir)) := by
  unfold MultipartFormHandler.handleForm
  split
  · split
    · cases refusal rights ctx project ProjectRights.write with
      | some status => exact Answers.refused _
      | none => exact Answers.asked _ _
    · exact Answers.refused _
  · exact Answers.refused _

theorem answers_githubHeaders (req : Request) (ctx : RequestContext)
    (project job queryString : Str) :
    Answers (fromHook (WebhooksHandler.handleGithubHeaders req ctx project job
      queryString)) := by
  unfold WebhooksHandler.handleGithubHeaders
  split
  · split
    · exact Answers.refused _
    · exact Answers.asked _ _
  · exact Answers.refused _

theorem answers_tokenHeaders (tokenField eventField : Str)
    (mapping : List (Str × HookEvent)) (req : Request) (ctx : RequestContext)
    (project job queryString : Str) :
    Answers (fromHook (WebhooksHandler.handleTokenHeaders tokenField eventField mapping
      req ctx project job queryString)) := by
  unfold WebhooksHandler.handleTokenHeaders
  split
  · split
    · exact Answers.refused _
    · exact Answers.asked _ _
  · exact Answers.refused _

theorem answers_webhooks (env : HookEnv) (req : Request) (ctx : RequestContext)
    (email project job queryString : Str) (apiProvider : Api) :
    Answers (fromHook (WebhooksHandler.handle env req ctx email project job queryString
      apiProvider)) := by
  unfold WebhooksHandler.handle
  split
  · exact Answers.refused _
  · split
    · exact Answers.refused _
    · exact Answers.refused _
    · split
      · exact Answers.refused _
      · dsimp only
        split
        · exact Answers.refused _
        · exact Answers.refused _
        · split
          · exact Answers.refused _
          · cases apiProvider with
            | github => exact answers_githubHeaders _ _ _ _ _
            | gitlab => exact answers_tokenHeaders _ _ _ _ _ _ _ _
            | plain => exact answers_tokenHeaders _ _ _ _ _ _ _ _

theorem answers_routeRequest (app : Application) (env : AppEnv) (req : Request)
    (ctx : RequestContext) : Answers (app.routeRequest env req ctx) := by
  unfold routeRequest
  cases Router.route req.target with
  | none => exact Answers.refused ctx
  | some route =>
      cases route with
      | upload project dir => exact answers_form _ _ _ _ _ _ _ _ _
      | replace project dir => exact answers_form _ _ _ _ _ _ _ _ _
      | download project file => exact answers_download _ _ _ _ _ _ _
      | webhooks apiProvider email project job queryString =>
          exact answers_webhooks _ _ _ _ _ _ _ _
      | root => exact answers_singleFile _ _ _ _ _
      | files => exact answers_singleFile _ _ _ _ _

/-- A chain of calls that hand the request on, and a last one that answers it. -/
inductive Chain : List (Handled BodyCallback) -> Prop where
  | last (handled : Handled BodyCallback) (h : Answers handled) : Chain [handled]
  | next (ctx : RequestContext) (rest : List (Handled BodyCallback)) (h : Chain rest) :
      Chain (passOn ctx HandleResult.next :: rest)

theorem result_of_answers {handled : Handled BodyCallback} (h : Answers handled) :
    handled.result ≠ HandleResult.next := by
  cases h with
  | refused ctx => exact nofun
  | answered ctx r => exact nofun
  | asked ctx callback => exact nofun

/-- A handler that answers a request is the last one to be called. -/
theorem chain_of_answers {handler : Request -> RequestContext -> Handled BodyCallback}
    {req : Request} {ctx : RequestContext} (h : Answers (handler req ctx))
    (rest : List (Request -> RequestContext -> Handled BodyCallback)) :
    Chain (runHandlers req ctx (handler :: rest)) := by
  have hresult := result_of_answers h
  rw [runHandlers]
  cases hcase : (handler req ctx).result with
  | next => exact absurd hcase hresult
  | done => exact Chain.last _ h
  | error => exact Chain.last _ h

/-- A handler in front of a chain hands the request on, or answers it. -/
theorem chain_runHandlers {handler : Request -> RequestContext -> Handled BodyCallback}
    {rest : List (Request -> RequestContext -> Handled BodyCallback)} {req : Request}
    {ctx : RequestContext}
    (hhandler : (exists ctx', handler req ctx = passOn ctx' HandleResult.next) ∨
      Answers (handler req ctx))
    (hrest : forall ctx', Chain (runHandlers req ctx' rest)) :
    Chain (runHandlers req ctx (handler :: rest)) := by
  rcases hhandler with ⟨ctx', hpass⟩ | hanswers
  · rw [runHandlers, hpass]
    exact Chain.next ctx' _ (hrest ctx')
  · exact chain_of_answers hanswers rest

theorem passOn_or_answers_authenticate (authenticate : Str -> Fallible (Option Str))
    (ctx : RequestContext) :
    (exists ctx', passOn (handleAuthenticate authenticate ctx).1
      (handleAuthenticate authenticate ctx).2 = passOn ctx' HandleResult.next) ∨
    Answers (passOn (handleAuthenticate authenticate ctx).1
      (handleAuthenticate authenticate ctx).2) := by
  unfold handleAuthenticate
  cases presentedToken ctx with
  | none => exact Or.inl ⟨_, rfl⟩
  | some token =>
      dsimp only
      cases authenticate token with
      | error ec => exact Or.inr (Answers.refused _)
      | ok email =>
          cases email with
          | none => exact Or.inl ⟨_, rfl⟩
          | some email => exact Or.inl ⟨_, rfl⟩

/-- The chain of the application ends in an answer, or in a callback for one. -/
theorem chain_calls (app : Application) (env : AppEnv) (req : Request) :
    Chain (app.calls env req) := by
  apply chain_runHandlers (Or.inl ⟨_, rfl⟩)
  intro ctx
  apply chain_runHandlers (passOn_or_answers_authenticate env.authenticate ctx)
  intro ctx
  exact chain_of_answers (answers_routeRequest app env req ctx) []

/-!
## The chain in the session
-/

/-- The body type that the callback is called with. -/
def bodyType : BodyCallback -> Body
  | BodyCallback.form _ => Body.multipartFormBody
  | BodyCallback.hook _ => Body.stringBody

/-- A chain queues the one response to the request, or asks for its body. -/
inductive Reacts (req : Request) (handled : List (Handled BodyCallback)) : Prop where
  | answered (r : Response) (hresponses : responsesOf req handled = [r])
      (hawaited : handled.getLast?.bind Handled.bodyRead = none)
      (hheader : forall t : HttpSession,
        t.handleHeader (sized (errorHandler req (lastContext handled)))
          (handled.map toCall) = (t.send (sized r)).done)
  | asked (callback : BodyCallback) (hresponses : responsesOf req handled = [])
      (hawaited : handled.getLast?.bind Handled.bodyRead = some callback)
      (hheader : forall t : HttpSession,
        t.handleHeader (sized (errorHandler req (lastContext handled)))
          (handled.map toCall) =
            (t.asyncReadBody (bodyType callback)).bind HttpSession.done)

theorem reacts_of_answers (req : Request) {handled : Handled BodyCallback}
    (h : Answers handled) : Reacts req [handled] := by
  cases h with
  | refused ctx => exact Reacts.answered _ rfl rfl fun _ => rfl
  | answered ctx r => exact Reacts.answered r rfl rfl fun _ => rfl
  | asked ctx callback =>
      apply Reacts.asked callback rfl rfl
      intro t
      cases callback with
      | form mode =>
          show ((t.asyncReadBody Body.multipartFormBody).bind Except.ok).bind
            HttpSession.done = (t.asyncReadBody Body.multipartFormBody).bind HttpSession.done
          cases t.asyncReadBody Body.multipartFormBody <;> rfl
      | hook callback =>
          show ((t.asyncReadBody Body.stringBody).bind Except.ok).bind
            HttpSession.done = (t.asyncReadBody Body.stringBody).bind HttpSession.done
          cases t.asyncReadBody Body.stringBody <;> rfl

/-- A handler that hands the request on changes nothing for what follows. -/
theorem passOn_cons {ctx : RequestContext} {rest : List (Handled BodyCallback)}
    (h : Chain rest) :
    lastContext (passOn ctx HandleResult.next :: rest) = lastContext rest ∧
      (passOn ctx HandleResult.next :: rest).getLast? = rest.getLast? := by
  cases h with
  | last handled h => exact ⟨rfl, rfl⟩
  | next ctx' rest h => exact ⟨rfl, rfl⟩

theorem reacts_of_chain (req : Request) {handled : List (Handled BodyCallback)}
    (h : Chain handled) : Reacts req handled := by
  induction h with
  | last handled h => exact reacts_of_answers req h
  | next ctx rest h ih =>
      rcases @passOn_cons ctx rest h with ⟨hctx, hlast⟩
      have hresponses : responsesOf req (passOn ctx HandleResult.next :: rest) =
          responsesOf req rest := by
        unfold responsesOf
        rw [hctx, hlast]
        rfl
      have hheader : forall t : HttpSession,
          t.handleHeader (sized (errorHandler req
              (lastContext (passOn ctx HandleResult.next :: rest))))
            ((passOn ctx HandleResult.next :: rest).map toCall) =
          t.handleHeader (sized (errorHandler req (lastContext rest)))
            (rest.map toCall) := by
        intro t
        rw [hctx]
        rfl
      cases ih with
      | answered r hr hawaited hrest =>
          apply Reacts.answered r (hresponses.trans hr)
          · rw [hlast]
            exact hawaited
          · intro t
            exact (hheader t).trans (hrest t)
      | asked callback hr hawaited hrest =>
          apply Reacts.asked callback (hresponses.trans hr)
          · rw [hlast]
            exact hawaited
          · intro t
            exact (hheader t).trans (hrest t)

theorem reacts (app : Application) (env : AppEnv) (req : Request) :
    Reacts req (app.calls env req) :=
  reacts_of_chain req (chain_calls app env req)

end Application

end Http
end CisWebui
