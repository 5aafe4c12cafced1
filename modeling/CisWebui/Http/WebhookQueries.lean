import CisWebui.Http.WebhooksHandler

/-!
# The queries of webhooks

What is left of the query string of a target on its way to the parameters of the
job: the router unescapes the whole target, and the handler the part of it that
the query group has matched.
-/

namespace CisWebui
namespace Http

open Cpp

/-!
## Encoded texts
-/

/-- An escape sequence has been begun at the end of the text. -/
def unfinished : Str -> Bool
  | [] => false
  | c :: a :: b :: rest =>
      if c = chr '%' then unfinished rest else unfinished (a :: b :: rest)
  | c :: rest => c = chr '%' || unfinished rest

def isHexDigit (ch : UInt8) : Bool :=
  (chr '0' <= ch && ch <= chr '9') || (chr 'a' <= ch && ch <= chr 'f') ||
    (chr 'A' <= ch && ch <= chr 'F')

/-- Behind every percent sign there are two hexadecimal digits. -/
def wellEncoded : Str -> Bool
  | [] => true
  | c :: a :: b :: rest =>
      if c = chr '%' then isHexDigit a && isHexDigit b && wellEncoded rest
      else wellEncoded (a :: b :: rest)
  | c :: rest => c ≠ chr '%' && wellEncoded rest

theorem unfinished_cons_of_ne {c : UInt8} (hc : c ≠ chr '%') (rest : Str) :
    unfinished (c :: rest) = unfinished rest := by
  match rest with
  | [] => simp [unfinished, hc]
  | [_] => simp [unfinished, hc]
  | _ :: _ :: _ => rw [unfinished, if_neg hc]

theorem wellEncoded_cons_of_ne {c : UInt8} (hc : c ≠ chr '%') (rest : Str) :
    wellEncoded (c :: rest) = wellEncoded rest := by
  match rest with
  | [] => simp [wellEncoded, hc]
  | [_] => simp [wellEncoded, hc]
  | _ :: _ :: _ => rw [wellEncoded, if_neg hc]

/-- A text without an unfinished escape sequence is unescaped by itself. -/
theorem unescapeUri_append {text : Str} (h : unfinished text = false) (rest : Str) :
    unescapeUri (text ++ rest) = unescapeUri text ++ unescapeUri rest := by
  induction text using unfinished.induct with
  | case1 => rfl
  | case2 a b behind ih =>
      rw [unfinished, if_pos rfl] at h
      change unescapeUri (chr '%' :: a :: b :: (behind ++ rest)) = _
      rw [unescapeUri, unescapeUri, if_neg (by decide), if_pos rfl,
        if_neg (by decide), if_pos rfl, ih h, List.cons_append]
  | case3 c a b behind hc ih =>
      rw [unfinished, if_neg hc] at h
      rw [List.cons_append, unescapeUri_cons_of_ne hc, ih h,
        unescapeUri_cons_of_ne hc, List.cons_append]
  | case4 c behind hshort ih =>
      rw [unfinished.eq_3 c behind hshort, Bool.or_eq_false_iff,
        decide_eq_false_iff_not] at h
      rw [List.cons_append, unescapeUri_cons_of_ne h.left, ih h.right,
        unescapeUri_cons_of_ne h.left, List.cons_append]

/-- Where the unfinished escape sequence begins. -/
theorem exists_of_unfinished {text : Str} (h : unfinished text = true) :
    exists done last, text = done ++ chr '%' :: last ∧ unfinished done = false ∧
      last.length <= 1 := by
  induction text using unfinished.induct with
  | case1 => cases h
  | case2 a b behind ih =>
      rw [unfinished, if_pos rfl] at h
      rcases ih h with ⟨done, last, rfl, hdone, hlast⟩
      refine ⟨chr '%' :: a :: b :: done, last, rfl, ?_, hlast⟩
      rw [unfinished, if_pos rfl]
      exact hdone
  | case3 c a b behind hc ih =>
      rw [unfinished, if_neg hc] at h
      rcases ih h with ⟨done, last, htext, hdone, hlast⟩
      refine ⟨c :: done, last, ?_, ?_, hlast⟩
      · rw [htext, List.cons_append]
      · rw [unfinished_cons_of_ne hc]
        exact hdone
  | case4 c behind hshort ih =>
      rcases eq_or_ne c (chr '%') with rfl | hc
      · refine ⟨[], behind, rfl, rfl, ?_⟩
        match behind with
        | [] => simp
        | [_] => simp
        | a :: b :: rest => exact absurd rfl (hshort a b rest)
      · rw [unfinished_cons_of_ne hc] at h
        rcases ih h with ⟨done, last, htext, hdone, hlast⟩
        refine ⟨c :: done, last, ?_, ?_, hlast⟩
        · rw [htext, List.cons_append]
        · rw [unfinished_cons_of_ne hc]
          exact hdone

theorem fromHex_ne_question (ch : UInt8) : fromHex ch ≠ chr '?' := by
  revert ch
  refine forall_byte ?_
  decide +kernel

theorem fromHex_mul_ne_question (ch : UInt8) :
    fromHex ch * 16 + fromHex (chr '?') ≠ chr '?' := by
  revert ch
  refine forall_byte ?_
  decide +kernel

/-- A digit is neither of the characters that mean something. -/
theorem ne_of_isHexDigit {ch : UInt8} (h : isHexDigit ch = true) :
    ch ≠ chr '+' ∧ ch ≠ chr '%' ∧ ch ≠ chr '?' := by
  refine ⟨?_, ?_, ?_⟩ <;>
  · intro heq
    subst heq
    exact absurd h (by decide)

/-- What is left of a query that begins with the end of an escape sequence. -/
def fromQuestion (text : Str) : Str :=
  text.dropWhile fun c => c ≠ chr '?'

theorem fromQuestion_cons_of_ne {c : UInt8} (hc : c ≠ chr '?') (rest : Str) :
    fromQuestion (c :: rest) = fromQuestion rest :=
  List.dropWhile_cons_of_pos (by simpa using hc)

theorem fromQuestion_append {head : Str} (hhead : chr '?' ∉ head) (rest : Str) :
    fromQuestion (head ++ rest) = fromQuestion rest := by
  induction head with
  | nil => rfl
  | cons c head ih =>
      rw [List.mem_cons, not_or] at hhead
      rw [List.cons_append, fromQuestion_cons_of_ne (Ne.symm hhead.left),
        ih hhead.right]

theorem length_fromQuestion_le (text : Str) :
    (fromQuestion text).length <= text.length :=
  (List.dropWhile_suffix _).length_le

/-- The escape sequence at the end of the path takes characters of the query
away. -/
theorem length_of_unfinished {path rest : Str} (h : unfinished path = true)
    (hpath : chr '?' ∉ unescapeUri path)
    (hrest : wellEncoded (chr '?' :: rest) = true) :
    fromQuestion (unescapeUri (path ++ chr '?' :: rest)) = [chr '?'] ∨
      (fromQuestion (unescapeUri (path ++ chr '?' :: rest))).length <
        (unescapeUri (chr '?' :: rest)).length := by
  rcases exists_of_unfinished h with ⟨done, last, rfl, hdone, hlast⟩
  rw [unescapeUri_append hdone, List.mem_append, not_or] at hpath
  rw [List.append_assoc, unescapeUri_append hdone, fromQuestion_append hpath.left,
    unescapeUri_cons_of_ne (by decide : chr '?' ≠ chr '%'), List.length_cons]
  rw [wellEncoded_cons_of_ne (by decide)] at hrest
  cases last with
  | cons c more =>
      rw [List.length_cons] at hlast
      have hmore : more = [] := List.length_eq_zero_iff.mp (by omega)
      subst hmore
      apply Or.inr
      change (fromQuestion (unescapeUri (chr '%' :: c :: chr '?' :: rest))).length < _
      rw [unescapeUri, if_neg (by decide), if_pos rfl,
        fromQuestion_cons_of_ne (fromHex_mul_ne_question c)]
      exact Nat.lt_succ_of_le (length_fromQuestion_le _)
  | nil =>
      cases rest with
      | nil => exact Or.inl (by decide)
      | cons x behind =>
          apply Or.inr
          change (fromQuestion (unescapeUri (chr '%' :: chr '?' :: x :: behind))).length < _
          have hbyte : fromHex (chr '?') * 16 + fromHex x ≠ chr '?' := by
            change 0 * 16 + fromHex x ≠ chr '?'
            rw [UInt8.zero_mul, UInt8.zero_add]
            exact fromHex_ne_question x
          rw [unescapeUri, if_neg (by decide), if_pos rfl, fromQuestion_cons_of_ne hbyte]
          rcases eq_or_ne x (chr '%') with rfl | hx
          · rcases behind with _ | ⟨a, _ | ⟨b, tail⟩⟩
            · cases hrest
            · exact absurd hrest (by simp [wellEncoded])
            · rw [wellEncoded, if_pos rfl, Bool.and_eq_true, Bool.and_eq_true] at hrest
              rcases ne_of_isHexDigit hrest.left.left with ⟨ha, ha', ha''⟩
              rcases ne_of_isHexDigit hrest.left.right with ⟨hb, hb', hb''⟩
              rw [unescapeUri_cons_of_ne ha', unescapeUri_cons_of_ne hb', if_neg ha,
                if_neg hb, fromQuestion_cons_of_ne ha'', fromQuestion_cons_of_ne hb'',
                unescapeUri, if_neg (by decide), if_pos rfl, List.length_cons]
              have hle := length_fromQuestion_le (unescapeUri tail)
              omega
          · rw [unescapeUri_cons_of_ne hx, List.length_cons]
            have hle := length_fromQuestion_le (unescapeUri behind)
            omega

/-!
## The query group
-/

namespace Router

/-- The text of a target ends in what the query group of a webhook has matched,
and there is no question mark before that. -/
def QueryAtEnd (text : Str) (r : Route) : Prop :=
  forall apiProvider email project job query,
    r = Route.webhooks apiProvider email project job query ->
    exists head, text = head ++ query ∧ chr '?' ∉ head ∧
      (query = [] ∨ exists rest, query = chr '?' :: rest ∧ rest ≠ [])

theorem queryAtEnd_projectFile {name text : Str} {make : Str -> Str -> Route}
    (hmake : forall project file apiProvider email other job query,
      make project file ≠ Route.webhooks apiProvider email other job query) :
    forall r, projectFile name text make = some r -> QueryAtEnd text r := by
  intro r h apiProvider email project job query hr
  rcases Option.bind_eq_some_iff.mp h with ⟨_, _, h⟩
  rcases Option.bind_eq_some_iff.mp h with ⟨group, _, h⟩
  rcases Option.bind_eq_some_iff.mp h with ⟨_, _, h⟩
  rcases Option.bind_eq_some_iff.mp h with ⟨file, _, h⟩
  rw [hr] at h
  exact absurd (Option.some.inj h) (hmake _ _ _ _ _ _ _)

theorem queryAtEnd_projectOnly {name text : Str} {make : Str -> Str -> Route}
    (hmake : forall project file apiProvider email other job query,
      make project file ≠ Route.webhooks apiProvider email other job query) :
    forall r, projectOnly name text make = some r -> QueryAtEnd text r := by
  intro r h apiProvider email project job query hr
  rcases Option.bind_eq_some_iff.mp h with ⟨_, _, h⟩
  rcases Option.bind_eq_some_iff.mp h with ⟨group, _, h⟩
  split at h
  · rw [hr] at h
    exact absurd (Option.some.inj h) (hmake _ _ _ _ _ _ _)
  · cases h

theorem queryString_eq_some {text query : Str} (h : queryString text = some query) :
    query = text ∧ (query = [] ∨ exists rest, query = chr '?' :: rest ∧ rest ≠ []) := by
  cases text with
  | nil =>
      cases h
      exact ⟨rfl, Or.inl rfl⟩
  | cons c rest =>
      rw [queryString] at h
      split at h
      · rename_i hquery
        cases h
        refine ⟨rfl, Or.inr ⟨rest, ?_, ?_⟩⟩
        · rw [hquery.left]
        · intro hempty
          subst hempty
          exact absurd hquery.right (by decide)
      · cases h

theorem queryAtEnd_webhook {name text : Str} {apiProvider : Api}
    (hname : chr '?' ∉ name) :
    forall r, webhook name apiProvider text = some r -> QueryAtEnd text r := by
  intro r h _ _ _ _ query hr
  subst hr
  rcases Option.bind_eq_some_iff.mp h with ⟨behind, hbehind, h⟩
  rcases Option.bind_eq_some_iff.mp h with ⟨email, hemail, h⟩
  rcases Option.bind_eq_some_iff.mp h with ⟨service, hservice, h⟩
  rcases Option.bind_eq_some_iff.mp h with ⟨project, hproject, h⟩
  rcases Option.bind_eq_some_iff.mp h with ⟨last, hlast, h⟩
  rcases Option.bind_eq_some_iff.mp h with ⟨job, hjob, h⟩
  rcases Option.bind_eq_some_iff.mp h with ⟨matched, hmatched, h⟩
  cases h
  rcases queryString_eq_some hmatched with ⟨hquery, hform⟩
  rcases boundString_eq_some_iff.mp hemail with ⟨hemailText, _, hemailFree, _⟩
  rcases boundString_eq_some_iff.mp hproject with ⟨hprojectText, _, hprojectFree, _⟩
  rcases boundString_eq_some_iff.mp hjob with ⟨hjobText, _, hjobFree, _⟩
  refine ⟨str "/users/" ++ email.matched ++ (str "/webhooks/" ++ name ++ str "/") ++
    project.matched ++ str "/" ++ job.matched, ?_, ?_, hform⟩
  · rw [literal_eq_some_iff.mp hbehind, hemailText, literal_eq_some_iff.mp hservice,
      hprojectText, literal_eq_some_iff.mp hlast, hjobText, hquery]
    simp only [List.append_assoc]
  · simp only [List.mem_append, not_or]
    refine ⟨⟨⟨⟨⟨by decide, ?_⟩, ⟨by decide, hname⟩, by decide⟩, ?_⟩, by decide⟩, ?_⟩
    · exact fun hmem => (hemailFree _ hmem).left rfl
    · exact fun hmem => (hprojectFree _ hmem).left rfl
    · exact fun hmem => (hjobFree _ hmem).left rfl

theorem queryAtEnd_route {target : Str} :
    forall r, route target = some r -> QueryAtEnd (unescapeUri target) r := by
  have hupload : forall p d a e o j q, Route.upload p d ≠ Route.webhooks a e o j q :=
    fun _ _ _ _ _ _ _ h => by cases h
  have hreplace : forall p d a e o j q, Route.replace p d ≠ Route.webhooks a e o j q :=
    fun _ _ _ _ _ _ _ h => by cases h
  have hdownload : forall p f a e o j q,
      Route.download p f ≠ Route.webhooks a e o j q :=
    fun _ _ _ _ _ _ _ h => by cases h
  unfold route
  refine forall_orElse (queryAtEnd_projectFile hupload) ?_
  refine forall_orElse (queryAtEnd_projectOnly hupload) ?_
  refine forall_orElse (queryAtEnd_projectFile hreplace) ?_
  refine forall_orElse (queryAtEnd_projectOnly hreplace) ?_
  refine forall_orElse (queryAtEnd_projectFile hdownload) ?_
  refine forall_orElse (queryAtEnd_webhook (by decide)) ?_
  refine forall_orElse (queryAtEnd_webhook (by decide)) ?_
  refine forall_orElse (queryAtEnd_webhook (by decide)) ?_
  apply forall_orElse
  · intro r h apiProvider email project job query hr
    split at h
    · rw [hr] at h
      cases h
    · cases h
  · intro r h apiProvider email project job query hr
    rcases Option.bind_eq_some_iff.mp h with ⟨text, _, h⟩
    split at h
    · rw [hr] at h
      cases h
    · cases h

/-- The query group of a webhook has matched all from the first question mark on. -/
theorem query_of_route {target : Str} {apiProvider : Api}
    {email project job query : Str}
    (h : route target = some (Route.webhooks apiProvider email project job query)) :
    query = fromQuestion (unescapeUri target) ∧ query ≠ [chr '?'] := by
  rcases queryAtEnd_route _ h _ _ _ _ _ rfl with ⟨head, htext, hhead, hform⟩
  rw [htext, fromQuestion_append hhead]
  rcases hform with rfl | ⟨rest, rfl, hrest⟩
  · exact ⟨rfl, by simp⟩
  · exact ⟨rfl, by simpa using hrest⟩

end Router

/-!
## Decoded once
-/

/-- A target whose path is that of a webhook, with a percent-encoded query. -/
structure WebhookTarget where
  path : Str
  query : Str
  plain : chr '?' ∉ path
  begins : query = [] ∨ exists rest, query = chr '?' :: rest
  encoded : wellEncoded query = true
  matched : exists apiProvider email project job,
    Router.route path = some (Route.webhooks apiProvider email project job [])

namespace HookCallback

/-- What a callback has captured. -/
def hook : HookCallback -> Hook
  | handleGithubSignature hook _ => hook
  | finish hook => hook

end HookCallback

namespace WebhookTarget

def text (target : WebhookTarget) : Str :=
  target.path ++ target.query

/-- Every event that the handler accepts for the target goes on with the query of
the target, unescaped once. -/
def DecodedOnce (target : WebhookTarget) : Prop :=
  forall env req ctx apiProvider email project job query callback,
    req.target = target.text ->
    Router.route req.target =
      some (Route.webhooks apiProvider email project job query) ->
    (WebhooksHandler.handle env req ctx email project job query
      apiProvider).bodyRead = some callback ->
    callback.hook.queryString = unescapeUri target.query

/-- If the target gets to the handler with a query, the path does not end within
an escape sequence, and the query does not look encoded once it is decoded. -/
def DecodesToPlain (target : WebhookTarget) : Prop :=
  target.query ≠ [] ->
    (exists apiProvider email project job query, Router.route target.text =
      some (Route.webhooks apiProvider email project job query)) ->
    unfinished target.path = false ∧ chr '+' ∉ unescapeUri target.query ∧
      hasEscape (unescapeUri target.query) = false

theorem question_not_mem_path (target : WebhookTarget) :
    chr '?' ∉ unescapeUri target.path := by
  rcases target.matched with ⟨_, _, _, _, hmatched⟩
  rcases Router.queryAtEnd_route _ hmatched _ _ _ _ _ rfl with ⟨head, htext, hhead, _⟩
  rw [htext, List.append_nil]
  exact hhead

theorem unescapeUri_question (rest : Str) :
    unescapeUri (chr '?' :: rest) = chr '?' :: unescapeUri rest := by
  rw [unescapeUri_cons_of_ne (by decide), if_neg (by decide)]

/-- The second decoding leaves the decoded query as it is, under the condition
and only then. -/
theorem unescapeUri_query_iff (target : WebhookTarget) {apiProvider : Api}
    {email project job query : Str}
    (h : Router.route target.text =
      some (Route.webhooks apiProvider email project job query)) :
    unescapeUri query = unescapeUri target.query <-> target.DecodesToPlain := by
  have hplain : target.DecodesToPlain <-> (target.query ≠ [] ->
      unfinished target.path = false ∧ chr '+' ∉ unescapeUri target.query ∧
        hasEscape (unescapeUri target.query) = false) := by
    unfold DecodesToPlain
    exact ⟨fun hall hne => hall hne ⟨_, _, _, _, _, h⟩, fun hall hne _ => hall hne⟩
  rcases Router.query_of_route h with ⟨hquery, hnot⟩
  rw [text] at hquery
  rw [hplain]
  rcases target.begins with hnil | ⟨rest, hrest⟩
  · apply iff_of_true
    · rw [hnil, List.append_nil] at hquery
      have hnone := fromQuestion_append target.question_not_mem_path []
      rw [List.append_nil] at hnone
      rw [hquery, hnone, hnil]
      rfl
    · intro hne
      exact absurd hnil hne
  · have hne : target.query ≠ [] := by
      rw [hrest]
      exact List.cons_ne_nil _ _
    cases hend : unfinished target.path with
    | true =>
        apply iff_of_false
        · intro heq
          have hencoded := target.encoded
          rw [hrest] at hquery heq hencoded
          rcases length_of_unfinished hend target.question_not_mem_path hencoded with
            hone | hlt
          · rw [hone] at hquery
            exact hnot hquery
          · rw [← hquery, ← heq] at hlt
            exact absurd (length_unescapeUri_le query) (Nat.not_le_of_lt hlt)
        · intro hall
          cases (hall hne).left
    | false =>
        rw [unescapeUri_append hend, fromQuestion_append target.question_not_mem_path]
          at hquery
        have hsame : query = unescapeUri target.query := by
          rw [hquery, hrest, unescapeUri_question]
          rfl
        rw [hsame, unescapeUri_eq_self_iff]
        exact ⟨fun hall _ => ⟨rfl, hall⟩, fun hall => (hall hne).right⟩

theorem queryString_of_github {req : Request} {ctx : RequestContext}
    {project job queryString : Str} {callback : HookCallback}
    (h : (WebhooksHandler.handleGithubHeaders req ctx project job
      queryString).bodyRead = some callback) :
    callback.hook.queryString = queryString := by
  unfold WebhooksHandler.handleGithubHeaders at h
  split at h
  · split at h
    · cases h
    · cases h
      rfl
  · cases h

theorem queryString_of_token {tokenField eventField : Str}
    {mapping : List (Str × HookEvent)} {req : Request} {ctx : RequestContext}
    {project job queryString : Str} {callback : HookCallback}
    (h : (WebhooksHandler.handleTokenHeaders tokenField eventField mapping req ctx
      project job queryString).bodyRead = some callback) :
    callback.hook.queryString = queryString := by
  unfold WebhooksHandler.handleTokenHeaders at h
  split at h
  · split at h
    · cases h
    · cases h
      rfl
  · cases h

/-- What the handler goes on with is the query group, unescaped. -/
theorem queryString_of_handle {env : HookEnv} {req : Request} {ctx : RequestContext}
    {email project job query : Str} {apiProvider : Api} {callback : HookCallback}
    (h : (WebhooksHandler.handle env req ctx email project job query
      apiProvider).bodyRead = some callback) :
    callback.hook.queryString = unescapeUri query := by
  unfold WebhooksHandler.handle at h
  split at h
  · cases h
  split at h
  · cases h
  · cases h
  split at h
  · cases h
  dsimp only at h
  split at h
  · cases h
  · cases h
  split at h
  · cases h
  cases apiProvider with
  | github => exact queryString_of_github h
  | gitlab => exact queryString_of_token h
  | plain => exact queryString_of_token h

/-- The headers of all providers, for the key that is empty. -/
def eventFields : List (Str × Str) :=
  [(str "X-Hub-Signature", str "sha1="), (str "X-GitHub-Event", str "push"),
    (str "X-Gitlab-Token", []), (str "X-Gitlab-Event", str "Push Hook"),
    (str "X-Plain-Token", []), (str "X-Plain-Event", str "push")]

/-- An event with any target that the handler accepts. -/
theorem exists_accepted (text email project job query : Str) (apiProvider : Api) :
    exists env req ctx callback, req.target = text ∧
      (WebhooksHandler.handle env req ctx email project job query
        apiProvider).bodyRead = some callback := by
  let user : UserInfo := { email := email, apiAccessKey := some [], isAdmin := false }
  let env : HookEnv :=
    { getUserInfo := fun _ => Except.ok (some user)
      checkProjectRight := fun _ _ =>
        Except.ok (some { read := true, write := true, execute := true })
      hmacSha1 := fun _ _ => []
      jobParams := fun _ _ => none
      currentPath := []
      freshName := 0 }
  let req : Request :=
    { method := Verb.post
      target := text
      fields := eventFields
      version := 11
      keepAlive := false }
  let ctx : RequestContext :=
    { clientInfo := none
      cookies := []
      resStatus := Status.unknown
      allowedVerbs := []
      error := [] }
  refine ⟨env, req, ctx, ?_⟩
  cases apiProvider with
  | github => exact ⟨_, rfl, rfl⟩
  | gitlab => exact ⟨_, rfl, rfl⟩
  | plain => exact ⟨_, rfl, rfl⟩

/-- The query of a target is decoded once, exactly under the condition. -/
theorem decodedOnce_iff (target : WebhookTarget) :
    target.DecodedOnce <-> target.DecodesToPlain := by
  constructor
  · intro honce hne hroute
    rcases hroute with ⟨apiProvider, email, project, job, query, hroute⟩
    rcases exists_accepted target.text email project job query apiProvider with
      ⟨env, req, ctx, callback, htarget, hread⟩
    have hroute' : Router.route req.target =
        some (Route.webhooks apiProvider email project job query) := by
      rw [htarget]
      exact hroute
    have hpassed := honce env req ctx apiProvider email project job query callback
      htarget hroute' hread
    rw [queryString_of_handle hread] at hpassed
    exact (target.unescapeUri_query_iff hroute).mp hpassed hne
      ⟨_, _, _, _, _, hroute⟩
  · intro hplain env req ctx apiProvider email project job query callback htarget
      hroute hread
    rw [htarget] at hroute
    rw [queryString_of_handle hread]
    exact (target.unescapeUri_query_iff hroute).mpr hplain

/-- A plus sign that was encoded arrives as a space. -/
theorem decodedOnce_not_everywhere :
    ¬ forall target : WebhookTarget, target.DecodedOnce := by
  intro h
  let target : WebhookTarget :=
    { path := str "/users/dev/webhooks/plain/web/deploy"
      query := str "?k=%2B"
      plain := by decide
      begins := Or.inr ⟨_, rfl⟩
      encoded := by decide
      matched := ⟨Api.plain, str "dev", str "web", str "deploy", by decide⟩ }
  have hroute : Router.route target.text = some (Route.webhooks Api.plain (str "dev")
      (str "web") (str "deploy") (str "?k=+")) := by
    decide
  have hspace : unescapeUri (str "?k=+") ≠ unescapeUri target.query := by
    decide
  rcases exists_accepted target.text (str "dev") (str "web") (str "deploy")
    (str "?k=+") Api.plain with ⟨env, req, ctx, callback, htarget, hread⟩
  apply hspace
  rw [← queryString_of_handle hread]
  exact h target env req ctx Api.plain (str "dev") (str "web") (str "deploy")
    (str "?k=+") callback htarget (htarget ▸ hroute) hread

end WebhookTarget

end Http
end CisWebui
