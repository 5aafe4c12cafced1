import CisWebui.Cpp.FilesystemPath
import CisWebui.Http.Exchange
import CisWebui.Http.Router

/-!
# Webhooks

`webhooks_handler`: a hosting service posts an event, and a job of the user's
project is run.  The header stage finds the user and checks the right and, for
two of the three providers, the token; the body stage checks the signature of
the third and starts the job.

The managers are given by what their calls return, and HMAC-SHA1 by the digests
it computes.
-/

namespace CisWebui
namespace Http

open Cpp

/-- `webhooks_handler::hook_event` -/
inductive HookEvent where
  | ping
  | push
  | tagPush
  | issue
  | note
  | mergeRequest
  | wikiPage
  | pipeline
  | build
  | unknown
deriving DecidableEq, Repr

/-- What the handler does to the outside. -/
inductive HookEffect where
  | respond (r : Response)
  | saveBody (path body : Str)
  | runJob (call : JobCall)
deriving DecidableEq, Repr

/-- What the handler finds outside: the managers, the digest, and the unused
name drawn for the body file. -/
structure HookEnv where
  getUserInfo : Str -> Fallible (Option UserInfo)
  checkProjectRight : Str -> Str -> Fallible (Option ProjectRights)
  hmacSha1 : Str -> Str -> List UInt8
  jobParams : Str -> Str -> Option (List Str)
  currentPath : Str
  freshName : UInt64

/-- What the body callbacks capture. -/
structure Hook where
  ctx : RequestContext
  project : Str
  job : Str
  queryString : Str
  rawEvent : Str
  ev : HookEvent
deriving DecidableEq, Repr

inductive HookCallback where
  | handleGithubSignature (hook : Hook) (signature : Str)
  | finish (hook : Hook)
deriving DecidableEq, Repr

namespace WebhooksHandler

/-!
## Events
-/

def githubMapping : List (Str × HookEvent) :=
  [(str "ping", HookEvent.ping),
    (str "push", HookEvent.push),
    (str "issues", HookEvent.issue),
    (str "pull_request", HookEvent.mergeRequest),
    (str "gollum", HookEvent.wikiPage)]

def gitlabMapping : List (Str × HookEvent) :=
  [(str "Push Hook", HookEvent.push),
    (str "Tag Push Hook", HookEvent.tagPush),
    (str "Issue Hook", HookEvent.issue),
    (str "Note Hook", HookEvent.note),
    (str "Merge Request Hook", HookEvent.mergeRequest),
    (str "Wiki Page Hook", HookEvent.wikiPage),
    (str "Pipeline Hook", HookEvent.pipeline),
    (str "Job Hook", HookEvent.build)]

def evToString : HookEvent -> Str
  | HookEvent.ping => str "ping"
  | HookEvent.push => str "push"
  | HookEvent.tagPush => str "tag_push"
  | HookEvent.issue => str "issue"
  | HookEvent.note => str "note"
  | HookEvent.mergeRequest => str "merge_request"
  | HookEvent.wikiPage => str "wiki_page"
  | HookEvent.pipeline => str "pipeline"
  | HookEvent.build => str "build"
  | HookEvent.unknown => str "unknown"

def plainMapping : List (Str × HookEvent) :=
  [HookEvent.ping, HookEvent.push, HookEvent.tagPush, HookEvent.issue,
    HookEvent.note, HookEvent.mergeRequest, HookEvent.wikiPage,
    HookEvent.pipeline, HookEvent.build].map fun ev => (evToString ev, ev)

def eventOf (mapping : List (Str × HookEvent)) (rawEvent : Str) : HookEvent :=
  (mapping.lookup rawEvent).getD HookEvent.unknown

/-!
## The body stage
-/

/-- The digits of `std::hex`. -/
def hexDigit (n : Nat) : UInt8 :=
  if n < 10 then chr '0' + n.toUInt8 else chr 'a' + (n - 10).toUInt8

/-- Every byte of a digest with width two, filled with zeros. -/
def hexBytes (digest : List UInt8) : Str :=
  digest.flatMap fun b => [hexDigit (b.toNat / 16), hexDigit (b.toNat % 16)]

def hexNumber (n : UInt64) : Str :=
  (Nat.toDigits 16 n.toNat).map fun c => c.toUInt8

/-- The path `save_body` writes the body to. -/
def bodyFile (env : HookEnv) : Str :=
  FilesystemPath.append
    (FilesystemPath.append env.currentPath (str "webhooks_temp"))
    (hexNumber env.freshName)

/-- The value a declared parameter of the job gets; a parameter nothing is
known about is left as a pair of empty strings. -/
def prepareParam (hook : Hook) (file : Str) (queryParams : List (Str × Str))
    (name : Str) : Str × Str :=
  match queryParams.lookup name with
  | some value => (name, value)
  | none =>
      if name = str "webhook_query_string" then (name, hook.queryString)
      else if name = str "webhook_request_body" then (name, file)
      else if name = str "webhook_event_type" then (name, evToString hook.ev)
      else if name = str "webhook_raw_event_type" then (name, hook.rawEvent)
      else ([], [])

def prepareParams (env : HookEnv) (hook : Hook) (file : Str) :
    List (Str × Str) :=
  match env.jobParams hook.project hook.job with
  | none => []
  | some params =>
      params.map (prepareParam hook file (parseRequestQuery hook.queryString))

/-- A response the handler builds itself. -/
def plainResponse (req : Request) (status : Status) (body : Str) : Response where
  status := status
  version := req.version
  fields := [(str "Content-Type", str "text/html")]
  keepAlive := req.keepAlive
  body := body

def email (ctx : RequestContext) : Str :=
  (ctx.clientInfo.map ClientInfo.email).getD []

def apiAccessKey (ctx : RequestContext) : Str :=
  (ctx.clientInfo.map ClientInfo.apiAccessKey).getD []

def finish (env : HookEnv) (req : Request) (hook : Hook) (body : Str) :
    List HookEffect :=
  let accepted := HookEffect.respond (plainResponse req Status.ok [])
  if hook.ev = HookEvent.ping then
    [accepted]
  else
    let file := bodyFile env
    [HookEffect.saveBody file body,
      HookEffect.runJob
        { project := hook.project
          job := hook.job
          force := true
          params := prepareParams env hook file
          email := email hook.ctx },
      accepted]

def handleGithubSignature (env : HookEnv) (req : Request) (hook : Hook)
    (signature body : Str) : List HookEffect :=
  let hexHmac := hexBytes (env.hmacSha1 (apiAccessKey hook.ctx) body)
  -- the 403 is sent, but the function goes on
  (if hexHmac ≠ signature then
    [HookEffect.respond (plainResponse req Status.forbidden (str "Forbidden."))]
  else
    []) ++ finish env req hook body

def runCallback (env : HookEnv) (req : Request) (body : Str) :
    HookCallback -> List HookEffect
  | HookCallback.handleGithubSignature hook signature =>
      handleGithubSignature env req hook signature body
  | HookCallback.finish hook => finish env req hook body

/-!
## The header stage
-/

/-- Refuse the request with the text of the provider stages. -/
def forbid (ctx : RequestContext) : Handled HookCallback :=
  Handled.refuse { ctx with error := str "Forbidden." } Status.forbidden

/-- What the lambdas of the header stages capture. -/
def captured (ctx : RequestContext) (project job queryString : Str)
    (mapping : List (Str × HookEvent)) (event : Str) : Hook where
  ctx := ctx
  project := project
  job := job
  queryString := queryString
  rawEvent := event
  ev := eventOf mapping event

def handleGithubHeaders (req : Request) (ctx : RequestContext)
    (project job queryString : Str) : Handled HookCallback :=
  match req.find (str "X-Hub-Signature"), req.find (str "X-GitHub-Event") with
  | some signature, some event =>
      if signature.length < 5 then
        forbid ctx
      else
        Handled.readBody ctx
          (HookCallback.handleGithubSignature
            (captured ctx project job queryString githubMapping event)
            (signature.drop 5))
  | _, _ => forbid ctx

/-- The header stage of the providers that send the key itself. -/
def handleTokenHeaders (tokenField eventField : Str)
    (mapping : List (Str × HookEvent)) (req : Request) (ctx : RequestContext)
    (project job queryString : Str) : Handled HookCallback :=
  match req.find tokenField, req.find eventField with
  | some token, some event =>
      if token ≠ apiAccessKey ctx then
        forbid ctx
      else
        Handled.readBody ctx
          (HookCallback.finish
            (captured ctx project job queryString mapping event))
  | _, _ => forbid ctx

def handleGitlabHeaders : Request -> RequestContext -> Str -> Str -> Str ->
    Handled HookCallback :=
  handleTokenHeaders (str "X-Gitlab-Token") (str "X-Gitlab-Event") gitlabMapping

def handlePlainHeaders : Request -> RequestContext -> Str -> Str -> Str ->
    Handled HookCallback :=
  handleTokenHeaders (str "X-Plain-Token") (str "X-Plain-Event") plainMapping

/-- `webhooks_handler::operator()` -/
def handle (env : HookEnv) (req : Request) (ctx : RequestContext)
    (email project job escapedQueryString : Str) (apiProvider : Api) :
    Handled HookCallback :=
  if req.method ≠ Verb.post then
    Handled.refuseMethod ctx Verb.post
  else
    match env.getUserInfo email with
    | Except.error _ => Handled.refuse ctx Status.internalServerError
    | Except.ok none => Handled.refuse ctx Status.notFound
    | Except.ok (some user) =>
        match user.apiAccessKey with
        | none => Handled.refuse ctx Status.forbidden
        | some key =>
            let client : ClientInfo :=
              { email := email
                activeToken := (ctx.clientInfo.map ClientInfo.activeToken).getD []
                apiAccessKey := key }
            let ctx := { ctx with clientInfo := some client }
            match env.checkProjectRight email project with
            | Except.error _ => Handled.refuse ctx Status.internalServerError
            | Except.ok none => forbid ctx
            | Except.ok (some rights) =>
                if rights.write = false then
                  forbid ctx
                else
                  let queryString := unescapeUri escapedQueryString
                  match apiProvider with
                  | Api.github =>
                      handleGithubHeaders req ctx project job queryString
                  | Api.gitlab =>
                      handleGitlabHeaders req ctx project job queryString
                  | Api.plain =>
                      handlePlainHeaders req ctx project job queryString

/-- A request to the handler, with the body that follows. -/
structure HookPost where
  req : Request
  ctx : RequestContext
  email : Str
  project : Str
  job : Str
  escapedQueryString : Str
  apiProvider : Api
  body : Str

namespace HookPost

def handled (p : HookPost) (env : HookEnv) : Handled HookCallback :=
  handle env p.req p.ctx p.email p.project p.job p.escapedQueryString
    p.apiProvider

/-- The whole request: the header stage, the error handler where the chain
calls it, and the callback once the body has been read. -/
def effects (p : HookPost) (env : HookEnv) : List HookEffect :=
  ((p.handled env).responses p.req).map HookEffect.respond ++
    match (p.handled env).bodyRead with
    | none => []
    | some callback => runCallback env p.req p.body callback

end HookPost

/-!
## Who may run a job
-/

/-- The access key of the user, if there is such a user and a key. -/
def storedKey (env : HookEnv) (email : Str) : Option Str :=
  match env.getUserInfo email with
  | Except.ok (some user) => user.apiAccessKey
  | _ => none

def HasWriteRight (env : HookEnv) (email project : Str) : Prop :=
  exists rights, env.checkProjectRight email project = Except.ok (some rights) ∧
    rights.write = true

/-- The credential of the request is the one that belongs to the key. -/
def CredentialVerifies (env : HookEnv) (p : HookPost) (key : Str) : Prop :=
  match p.apiProvider with
  | Api.github =>
      exists signature, p.req.find (str "X-Hub-Signature") = some signature ∧
        signature.drop 5 = hexBytes (env.hmacSha1 key p.body)
  | Api.gitlab => p.req.find (str "X-Gitlab-Token") = some key
  | Api.plain => p.req.find (str "X-Plain-Token") = some key

/-- The request gets past the header stage and its signature is compared. -/
structure ReachesSignature (env : HookEnv) (p : HookPost)
    (key signature : Str) : Prop where
  isPost : p.req.method = Verb.post
  isGithub : p.apiProvider = Api.github
  stored : storedKey env p.email = some key
  right : HasWriteRight env p.email p.project
  sent : p.req.find (str "X-Hub-Signature") = some signature
  long : 5 <= signature.length
  event : exists event, p.req.find (str "X-GitHub-Event") = some event

/-- The token of the other providers is compared in the header stage. -/
structure TokenAccepted (env : HookEnv) (p : HookPost) (key : Str) : Prop where
  notGithub : p.apiProvider ≠ Api.github
  stored : storedKey env p.email = some key
  right : HasWriteRight env p.email p.project
  verifies : CredentialVerifies env p key

theorem handleGithubHeaders_cases (req : Request) (ctx : RequestContext)
    (project job queryString : Str) :
    handleGithubHeaders req ctx project job queryString = forbid ctx ∧
        (forall signature event,
          req.find (str "X-Hub-Signature") = some signature ->
          req.find (str "X-GitHub-Event") = some event ->
          signature.length < 5) ∨
      exists signature event,
        req.find (str "X-Hub-Signature") = some signature ∧
          req.find (str "X-GitHub-Event") = some event ∧
          5 <= signature.length ∧
          handleGithubHeaders req ctx project job queryString =
            Handled.readBody ctx
              (HookCallback.handleGithubSignature
                (captured ctx project job queryString githubMapping event)
                (signature.drop 5)) := by
  unfold handleGithubHeaders
  cases hsignature : req.find (str "X-Hub-Signature") with
  | none =>
      apply Or.inl
      simp
  | some signature =>
      cases hevent : req.find (str "X-GitHub-Event") with
      | none =>
          apply Or.inl
          simp
      | some event =>
          by_cases hshort : signature.length < 5
          · apply Or.inl
            simp [hshort]
          · apply Or.inr
            refine ⟨signature, event, rfl, rfl, Nat.le_of_not_lt hshort, ?_⟩
            exact if_neg hshort

theorem handleTokenHeaders_cases (tokenField eventField : Str)
    (mapping : List (Str × HookEvent)) (req : Request) (ctx : RequestContext)
    (project job queryString : Str) :
    handleTokenHeaders tokenField eventField mapping req ctx project job
        queryString = forbid ctx ∨
      exists hook, req.find tokenField = some (apiAccessKey ctx) ∧
        handleTokenHeaders tokenField eventField mapping req ctx project job
          queryString = Handled.readBody ctx (HookCallback.finish hook) := by
  unfold handleTokenHeaders
  cases htoken : req.find tokenField with
  | none => exact Or.inl rfl
  | some token =>
      cases hevent : req.find eventField with
      | none => exact Or.inl rfl
      | some event =>
          by_cases hkey : token = apiAccessKey ctx
          · apply Or.inr
            exists captured ctx project job queryString mapping event
            constructor
            · rw [hkey]
            · exact if_neg (not_not.mpr hkey)
          · exact Or.inl (if_pos hkey)

/-- The context once the user has been identified by the key. -/
def keyed (p : HookPost) (key : Str) : RequestContext :=
  { p.ctx with
    clientInfo := some
      { email := p.email
        activeToken := (p.ctx.clientInfo.map ClientInfo.activeToken).getD []
        apiAccessKey := key } }

/-- The stage the provider chooses. -/
def handleHeaders (p : HookPost) (key : Str) : Handled HookCallback :=
  let queryString := unescapeUri p.escapedQueryString
  match p.apiProvider with
  | Api.github =>
      handleGithubHeaders p.req (keyed p key) p.project p.job queryString
  | Api.gitlab =>
      handleGitlabHeaders p.req (keyed p key) p.project p.job queryString
  | Api.plain =>
      handlePlainHeaders p.req (keyed p key) p.project p.job queryString

theorem handled_of_no_key {env : HookEnv} {p : HookPost}
    (hkey : storedKey env p.email = none) :
    exists ctx, p.handled env = Handled.error ctx := by
  unfold HookPost.handled handle
  by_cases hpost : p.req.method = Verb.post
  · rw [if_neg (not_not.mpr hpost)]
    unfold storedKey at hkey
    cases huser : env.getUserInfo p.email with
    | error ec => exact ⟨_, rfl⟩
    | ok found =>
        cases found with
        | none => exact ⟨_, rfl⟩
        | some user =>
            simp only [huser] at hkey
            simp only [hkey]
            exact ⟨_, rfl⟩
  · exact ⟨_, if_pos hpost⟩

theorem handled_of_key {env : HookEnv} {p : HookPost} {key : Str}
    (hpost : p.req.method = Verb.post) (hkey : storedKey env p.email = some key) :
    (exists ec, env.checkProjectRight p.email p.project = Except.error ec ∧
        p.handled env =
          Handled.refuse (keyed p key) Status.internalServerError) ∨
      (¬ HasWriteRight env p.email p.project ∧
        p.handled env = forbid (keyed p key)) ∨
      (HasWriteRight env p.email p.project ∧
        p.handled env = handleHeaders p key) := by
  have huser : exists user, env.getUserInfo p.email = Except.ok (some user) ∧
      user.apiAccessKey = some key := by
    unfold storedKey at hkey
    split at hkey
    · exact ⟨_, by assumption, hkey⟩
    · cases hkey
  rcases huser with ⟨user, huser, huserKey⟩
  unfold HookPost.handled handle
  rw [if_neg (not_not.mpr hpost), huser]
  simp only [huserKey]
  cases hright : env.checkProjectRight p.email p.project with
  | error ec => exact Or.inl ⟨ec, rfl, rfl⟩
  | ok rights =>
      apply Or.inr
      cases rights with
      | none =>
          apply Or.inl
          constructor
          · rintro ⟨rights, hrights, _⟩
            rw [hright] at hrights
            cases hrights
          · rfl
      | some rights =>
          cases hwrite : rights.write with
          | false =>
              apply Or.inl
              constructor
              · rintro ⟨other, hother, htrue⟩
                rw [hright] at hother
                cases hother
                rw [hwrite] at htrue
                cases htrue
              · exact if_pos hwrite
          | true =>
              apply Or.inr
              constructor
              · exact ⟨rights, hright, hwrite⟩
              · simp only [hwrite]
                rfl

theorem handleHeaders_cases {env : HookEnv} {p : HookPost} {key : Str}
    (hpost : p.req.method = Verb.post) (hkey : storedKey env p.email = some key)
    (hright : HasWriteRight env p.email p.project) :
    (handleHeaders p key = forbid (keyed p key) ∧
        forall key signature, ¬ ReachesSignature env p key signature) ∨
      (exists ctx signature hook, ReachesSignature env p key signature ∧
        apiAccessKey hook.ctx = key ∧
        handleHeaders p key = Handled.readBody ctx
          (HookCallback.handleGithubSignature hook (signature.drop 5))) ∨
      (exists ctx hook, TokenAccepted env p key ∧
        handleHeaders p key =
          Handled.readBody ctx (HookCallback.finish hook)) := by
  have htoken : forall tokenField eventField mapping,
      p.apiProvider ≠ Api.github ->
      (p.req.find tokenField = some key -> CredentialVerifies env p key) ->
      handleHeaders p key =
        handleTokenHeaders tokenField eventField mapping p.req (keyed p key)
          p.project p.job (unescapeUri p.escapedQueryString) ->
      (handleHeaders p key = forbid (keyed p key) ∧
          forall key signature, ¬ ReachesSignature env p key signature) ∨
        (exists ctx hook, TokenAccepted env p key ∧
          handleHeaders p key =
            Handled.readBody ctx (HookCallback.finish hook)) := by
    intro tokenField eventField mapping hapi hverifies heq
    rcases handleTokenHeaders_cases tokenField eventField mapping p.req
        (keyed p key) p.project p.job (unescapeUri p.escapedQueryString) with
      hforbid | ⟨hook, hfind, hread⟩
    · apply Or.inl
      constructor
      · rw [heq, hforbid]
      · intro key signature h
        exact hapi h.isGithub
    · apply Or.inr
      refine ⟨keyed p key, hook, ?_, by rw [heq, hread]⟩
      exact ⟨hapi, hkey, hright, hverifies hfind⟩
  cases hapi : p.apiProvider with
  | github =>
      have heq : handleHeaders p key =
          handleGithubHeaders p.req (keyed p key) p.project p.job
            (unescapeUri p.escapedQueryString) := by
        simp only [handleHeaders, hapi]
      rcases handleGithubHeaders_cases p.req (keyed p key) p.project p.job
          (unescapeUri p.escapedQueryString) with
        ⟨hforbid, hshort⟩ | ⟨signature, event, hsent, hevent, hlong, hread⟩
      · apply Or.inl
        constructor
        · rw [heq, hforbid]
        · intro key signature h
          rcases h.event with ⟨event, hevent⟩
          exact absurd h.long
            (Nat.not_le_of_lt (hshort signature event h.sent hevent))
      · apply Or.inr
        apply Or.inl
        refine ⟨keyed p key, signature, _, ?_, ?_, by rw [heq, hread]⟩
        · exact ⟨hpost, hapi, hkey, hright, hsent, hlong, event, hevent⟩
        · rfl
  | gitlab =>
      have hcases := htoken (str "X-Gitlab-Token") (str "X-Gitlab-Event")
        gitlabMapping (by simp [hapi])
        (by simp only [CredentialVerifies, hapi]; exact id)
        (by simp only [handleHeaders, hapi]; rfl)
      cases hcases with
      | inl h => exact Or.inl h
      | inr h => exact Or.inr (Or.inr h)
  | plain =>
      have hcases := htoken (str "X-Plain-Token") (str "X-Plain-Event")
        plainMapping (by simp [hapi])
        (by simp only [CredentialVerifies, hapi]; exact id)
        (by simp only [handleHeaders, hapi]; rfl)
      cases hcases with
      | inl h => exact Or.inl h
      | inr h => exact Or.inr (Or.inr h)

/-- The ways the header stage can end: a refusal, the comparison of a
signature still to come, or a token that was accepted. -/
theorem handled_cases (env : HookEnv) (p : HookPost) :
    (exists ctx, p.handled env = Handled.error ctx ∧
        (p.req.method = Verb.post -> storedKey env p.email ≠ none ->
          (exists rights, env.checkProjectRight p.email p.project =
            Except.ok rights) -> ctx.resStatus = Status.forbidden) ∧
        forall key signature, ¬ ReachesSignature env p key signature) ∨
      (exists ctx key signature hook, ReachesSignature env p key signature ∧
        apiAccessKey hook.ctx = key ∧
        p.handled env = Handled.readBody ctx
          (HookCallback.handleGithubSignature hook (signature.drop 5))) ∨
      (exists ctx key hook, TokenAccepted env p key ∧
        p.handled env = Handled.readBody ctx (HookCallback.finish hook)) := by
  by_cases hpost : p.req.method = Verb.post
  · cases hkey : storedKey env p.email with
    | none =>
        rcases handled_of_no_key hkey with ⟨ctx, hctx⟩
        apply Or.inl
        refine ⟨ctx, hctx, by simp, ?_⟩
        intro key signature h
        rw [h.stored] at hkey
        cases hkey
    | some key =>
        rcases handled_of_key hpost hkey with
          ⟨ec, hec, hhandled⟩ | ⟨hno, hhandled⟩ | ⟨hright, hhandled⟩
        · apply Or.inl
          refine ⟨_, hhandled, ?_, ?_⟩
          · rintro _ _ ⟨rights, hrights⟩
            rw [hec] at hrights
            cases hrights
          · intro key signature h
            rcases h.right with ⟨rights, hrights, _⟩
            rw [hec] at hrights
            cases hrights
        · apply Or.inl
          refine ⟨_, hhandled, fun _ _ _ => rfl, ?_⟩
          intro key signature h
          exact hno h.right
        · rcases handleHeaders_cases hpost hkey hright with
            ⟨hforbid, hnot⟩ | ⟨ctx, signature, hook, h, hhook, hread⟩ |
              ⟨ctx, hook, h, hread⟩
          · apply Or.inl
            refine ⟨_, by rw [hhandled, hforbid]; rfl, fun _ _ _ => rfl, hnot⟩
          · apply Or.inr
            apply Or.inl
            exact ⟨ctx, key, signature, hook, h, hhook, by rw [hhandled, hread]⟩
          · apply Or.inr
            apply Or.inr
            exact ⟨ctx, key, hook, h, by rw [hhandled, hread]⟩
  · apply Or.inl
    refine ⟨_, if_pos hpost, ?_, ?_⟩
    · intro h
      exact absurd h hpost
    · intro key signature h
      exact hpost h.isPost

/-!
## The contract
-/

/-- What is promised of a webhook request. -/
structure HookContract (env : HookEnv) (p : HookPost) : Prop where
  /-- A job is started only for a user with a key and the write right whose
  credential verifies. -/
  authorised : forall call, HookEffect.runJob call ∈ p.effects env ->
    exists key, storedKey env p.email = some key ∧
      HasWriteRight env p.email p.project ∧ CredentialVerifies env p key
  /-- Without a credential that verifies, one response is sent and nothing
  else happens. -/
  rejected : (forall key, storedKey env p.email = some key ->
      ¬ CredentialVerifies env p key) ->
    exists r, p.effects env = [HookEffect.respond r]
  /-- When there is a key to compare with, that response is a 403. -/
  forbidden : p.req.method = Verb.post ->
    (exists rights, env.checkProjectRight p.email p.project =
      Except.ok rights) ->
    forall key, storedKey env p.email = some key ->
      ¬ CredentialVerifies env p key ->
      forall r, HookEffect.respond r ∈ p.effects env ->
        r.status = Status.forbidden

theorem effects_of_error {env : HookEnv} {p : HookPost} {ctx : RequestContext}
    (h : p.handled env = Handled.error ctx) :
    p.effects env = [HookEffect.respond (errorHandler p.req ctx)] := by
  simp [HookPost.effects, h]

theorem effects_of_readBody {env : HookEnv} {p : HookPost}
    {ctx : RequestContext} {callback : HookCallback}
    (h : p.handled env = Handled.readBody ctx callback) :
    p.effects env = runCallback env p.req p.body callback := by
  simp [HookPost.effects, h]

theorem errorHandler_status_forbidden {req : Request} {ctx : RequestContext}
    (h : ctx.resStatus = Status.forbidden) :
    (errorHandler req ctx).status = Status.forbidden := by
  simp [errorHandler, h, Response.forbidden, Response.page]

theorem finish_ne_nil (env : HookEnv) (req : Request) (hook : Hook)
    (body : Str) : finish env req hook body ≠ [] := by
  unfold finish
  split <;> simp

/-- A wrong signature is answered, and then the event is handled all the
same. -/
theorem handleGithubSignature_of_ne {env : HookEnv} (req : Request)
    {hook : Hook} {signature body : Str}
    (h : signature ≠ hexBytes (env.hmacSha1 (apiAccessKey hook.ctx) body)) :
    handleGithubSignature env req hook signature body =
      HookEffect.respond
          (plainResponse req Status.forbidden (str "Forbidden.")) ::
        finish env req hook body := by
  simp [handleGithubSignature, Ne.symm h]

theorem contract_of_verified {env : HookEnv} {p : HookPost} {key : Str}
    (hkey : storedKey env p.email = some key)
    (hright : HasWriteRight env p.email p.project)
    (hverifies : CredentialVerifies env p key) : HookContract env p := by
  constructor
  · intro call _
    exact ⟨key, hkey, hright, hverifies⟩
  · intro h
    exact absurd hverifies (h key hkey)
  · intro _ _ other hother hnot
    rw [hkey] at hother
    cases hother
    exact absurd hverifies hnot

theorem contract_of_refused {env : HookEnv} {p : HookPost}
    {ctx : RequestContext} (h : p.handled env = Handled.error ctx)
    (hstatus : p.req.method = Verb.post -> storedKey env p.email ≠ none ->
      (exists rights, env.checkProjectRight p.email p.project =
        Except.ok rights) -> ctx.resStatus = Status.forbidden) :
    HookContract env p := by
  have heffects := effects_of_error h
  constructor
  · intro call hcall
    rw [heffects] at hcall
    simp at hcall
  · intro _
    exact ⟨_, heffects⟩
  · intro hpost hlookup key hkey _ r hr
    rw [heffects, List.mem_singleton] at hr
    cases hr
    exact errorHandler_status_forbidden
      (hstatus hpost (by simp [hkey]) hlookup)

theorem credentialVerifies_github_iff {env : HookEnv} {p : HookPost}
    {key signature : Str} (h : ReachesSignature env p key signature) :
    CredentialVerifies env p key <->
      signature.drop 5 = hexBytes (env.hmacSha1 key p.body) := by
  simp [CredentialVerifies, h.isGithub, h.sent]

/-- A webhook request keeps its contract exactly when every signature that
gets to be compared is the digest of the body. -/
theorem hookContract_iff (env : HookEnv) (p : HookPost) :
    HookContract env p <->
      forall key signature, ReachesSignature env p key signature ->
        signature.drop 5 = hexBytes (env.hmacSha1 key p.body) := by
  rcases handled_cases env p with
    ⟨ctx, hrefused, hstatus, hnot⟩ |
      ⟨ctx, key, signature, hook, hreaches, hhook, hread⟩ |
      ⟨ctx, key, hook, htoken, hread⟩
  · constructor
    · intro _ key signature hreaches
      exact absurd hreaches (hnot key signature)
    · intro _
      exact contract_of_refused hrefused hstatus
  · constructor
    · intro hcontract other otherSignature hother
      have hkey : some key = some other := by
        rw [← hreaches.stored, hother.stored]
      have hsignature : some signature = some otherSignature := by
        rw [← hreaches.sent, hother.sent]
      cases hkey
      cases hsignature
      by_contra hne
      have hunverified : forall k, storedKey env p.email = some k ->
          ¬ CredentialVerifies env p k := by
        intro k hk hverifies
        rw [hreaches.stored] at hk
        cases hk
        exact hne ((credentialVerifies_github_iff hreaches).mp hverifies)
      rcases hcontract.rejected hunverified with ⟨r, heffects⟩
      rw [← hhook] at hne
      have htwo := handleGithubSignature_of_ne p.req hne
      rw [effects_of_readBody hread, runCallback, htwo] at heffects
      exact finish_ne_nil env p.req hook p.body (List.cons.inj heffects).right
    · intro hdigest
      have hverifies := (credentialVerifies_github_iff hreaches).mpr
        (hdigest key signature hreaches)
      exact contract_of_verified hreaches.stored hreaches.right hverifies
  · constructor
    · intro _ other signature hother
      exact absurd hother.isGithub htoken.notGithub
    · intro _
      exact contract_of_verified htoken.stored htoken.right htoken.verifies

/-- The contract fails for a push event that carries no digest at all: the
job is run all the same. -/
theorem hookContract_not_everywhere : ¬ forall env p, HookContract env p := by
  intro h
  let user : UserInfo :=
    { email := str "dev@cis"
      apiAccessKey := some (str "secret")
      isAdmin := false }
  let env : HookEnv :=
    { getUserInfo := fun _ => Except.ok (some user)
      checkProjectRight := fun _ _ =>
        Except.ok (some { read := true, write := true, execute := true })
      hmacSha1 := fun _ _ => [171, 205]
      jobParams := fun _ _ => some [str "webhook_event_type"]
      currentPath := str "/srv/cis"
      freshName := 7 }
  let ctx : RequestContext :=
    { clientInfo := none
      cookies := []
      resStatus := Status.unknown
      allowedVerbs := []
      error := [] }
  let req : Request :=
    { method := Verb.post
      target := str "/users/dev@cis/webhooks/github/web/deploy"
      fields := [(str "X-Hub-Signature", str "sha1="),
        (str "X-GitHub-Event", str "push")]
      version := 11
      keepAlive := false }
  let p : HookPost :=
    { req := req
      ctx := ctx
      email := str "dev@cis"
      project := str "web"
      job := str "deploy"
      escapedQueryString := []
      apiProvider := Api.github
      body := str "attack" }
  have hunverified : forall key, storedKey env p.email = some key ->
      ¬ CredentialVerifies env p key := by
    intro key _ hverifies
    rcases hverifies with ⟨signature, hsent, hdigest⟩
    have hsignature : p.req.find (str "X-Hub-Signature") = some (str "sha1=") := by
      decide
    rw [hsignature] at hsent
    cases hsent
    have hwrong : (str "sha1=").drop 5 ≠ hexBytes [171, 205] := by
      decide
    exact hwrong hdigest
  rcases (h env p).rejected hunverified with ⟨r, heffects⟩
  have hlength : (p.effects env).length = 4 := by
    decide
  rw [heffects] at hlength
  cases hlength

end WebhooksHandler

end Http
end CisWebui
