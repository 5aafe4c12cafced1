import CisWebui.Database.LoginAttempts
import CisWebui.Database.TokenHistory
import CisWebui.Websocket.AccountServer

/-!
# Logins and logouts that fail

Which requests that are answered with an error leave the client of the
connection and the tokens alone.  The handlers write the context before their
last call of the database.
-/

namespace CisWebui
namespace Websocket
namespace AccountServer

open Cpp Foundation Database AuthManager

inductive LoginRequest where
  | loginPass (email pass : Str)
  | loginToken (token : Str)
  | logout (token : Str)

def LoginRequest.handler (ctx : RequestContext) : LoginRequest -> Handler
  | loginPass email pass => Websocket.loginPass email pass
  | loginToken token => Websocket.loginToken token
  | logout token => Websocket.logout ctx token

/-- The tokens of the second database are those of the first one, but for some
that have expired. -/
structure OnlyExpire (now : Nat) (db db' : Database) : Prop where
  kept : forall r, r ∈ db.tokens.records -> now <= r.row.expirationTime ->
    r ∈ db'.tokens.records
  known : forall r, r ∈ db'.tokens.records -> r ∈ db.tokens.records

/-- A request that is answered with an error changes neither the client nor the
tokens. -/
def FailsCleanly (s : AccountServer) (request : LoginRequest) : Prop :=
  forall s', s.handled (request.handler s.ctx) = some s' -> s'.Failed ->
    s'.ctx.clientInfo = s.ctx.clientInfo ∧
      OnlyExpire (s.lucks 0).now s.database s'.database

/-- The token is in the table for the user and has not expired. -/
def Held (db : Database) (now : Nat) (token email : Str) : Prop :=
  exists r, r ∈ db.tokens.records ∧ r.row.value = token ∧
    now <= r.row.expirationTime ∧ Owner db r.row.userId email

/-- The first call of the request accepts the token for the user. -/
def Accepts (s : AccountServer) (token email : Str) : Prop :=
  (s.lucks 0).fault = none ∧ Held s.database (s.lucks 0).now token email

/-- The first call of the request enters a token for the user. -/
def Enters (s : AccountServer) (email pass : Str) : Prop :=
  (s.lucks 0).fault = none ∧ Known s.database email pass ∧
    exists draw, draw ∈ (s.lucks 0).draws ∧ Takes s.database draw

/-- The second call, behind a change of the first one or of the context, meets no
error. -/
def SecondHolds (s : AccountServer) : LoginRequest -> Prop
  | LoginRequest.loginPass email pass =>
      s.Enters email pass -> (s.lucks 1).fault = none
  | LoginRequest.loginToken token =>
      forall email, s.Accepts token email ->
        s.ctx.clientInfo ≠
            some { email := email, activeToken := token, apiAccessKey := [] } ->
          (s.lucks 1).fault = none
  | LoginRequest.logout token =>
      forall client, s.ctx.clientInfo = some client -> client.activeToken = token ->
        s.Accepts token client.email -> (s.lucks 1).fault = none

/-!
## Calls
-/

section Calls

variable {db : Database}

theorem onlyExpire_refl (now : Nat) (db : Database) : OnlyExpire now db db where
  kept := fun _ hr _ => hr
  known := fun _ hr => hr

theorem onlyExpire_authenticateToken (fault : Option ErrorCode) (now : Nat)
    (token : Str) (db : Database) :
    OnlyExpire now db (authenticateToken fault now token db).2 := by
  rcases authenticateToken_cases fault now token db with hsame | ⟨hexpired, hremoved⟩
  · rw [hsame]
    exact onlyExpire_refl now db
  · rw [hremoved]
    constructor
    · intro r hr hfresh
      refine Table.mem_remove.mpr ⟨hr, ?_⟩
      have hother : r.row.value ≠ token := by
        intro hvalue
        exact absurd (hexpired r hr hvalue) (Nat.not_lt.mpr hfresh)
      simpa using hother
    · exact fun r hr => (Table.mem_remove.mp hr).left

/-- A token that has been entered is not one of the old ones. -/
theorem not_onlyExpire_of_insert {db' : Database} {token : Token}
    (h : db.insertToken token = Except.ok db') (now : Nat) : ¬ OnlyExpire now db db' := by
  intro hexpire
  let new : Record Token := { id := db.tokens.last + 1, row := token }
  have hmem : new ∈ db'.tokens.records := by
    rw [(insertToken_ok h).left]
    exact Table.mem_insert.mpr (Or.inr rfl)
  exact absurd (db.tokens.bounded _ (hexpire.known _ hmem)) (Nat.not_succ_le_self _)

/-- When a login gets a token. -/
theorem authenticatePass_token_iff (fault : Option ErrorCode) (now : Nat)
    (draws : List Draw) (email pass : Str) :
    (exists token db', authenticatePass fault now draws email pass db =
        some (Except.ok (some token), db')) <->
      fault = none ∧ Known db email pass ∧
        exists draw, draw ∈ draws ∧ Takes db draw := by
  unfold authenticatePass
  cases fault with
  | some ec =>
      apply iff_of_false
      · intro h
        rcases h with ⟨_, _, h⟩
        cases h
      · intro h
        cases h.left
  | none =>
      rw [and_iff_right rfl]
      rcases select_credentials db email pass with
        ⟨user, huser, hemail, hpass, hselect⟩ | ⟨hunknown, hselect⟩
      · have hknown : Known db email pass := ⟨user, huser, hemail, hpass⟩
        have hhas : db.users.Has user.id := ⟨user, huser, rfl⟩
        rw [hselect, and_iff_right hknown,
          ← generateToken_isSome_iff hhas (now + week), Option.isSome_iff_exists]
        constructor
        · intro h
          rcases h with ⟨_, _, h⟩
          rcases Option.map_eq_some_iff.mp h with ⟨result, hresult, _⟩
          exact ⟨result, hresult⟩
        · intro h
          rcases h with ⟨⟨token, db'⟩, h⟩
          exact ⟨token, db', by dsimp only; rw [h]; rfl⟩
      · rw [hselect]
        apply iff_of_false
        · intro h
          rcases h with ⟨_, _, h⟩
          cases h
        · exact fun h => hunknown h.left

end Calls

/-!
## Requests
-/

section Requests

variable {s : AccountServer}

/-- The end of both logins has the client in the context, whatever it answers. -/
theorem handled_finishLogin (s : AccountServer) (email token : Str) :
    exists s', s.handled (finishLogin email token) = some s' ∧
      s'.ctx.clientInfo =
        some { email := email, activeToken := token, apiAccessKey := [] } ∧
      s'.database = s.database ∧ (s'.Failed <-> (s.lucks 0).fault ≠ none) := by
  let client : ClientInfo := { email := email, activeToken := token, apiAccessKey := [] }
  have hstart : s.handled (finishLogin email token) =
      ((s.setClient (some client)).setDatabase s.database).handled
        (checkEc (RightsManager.isAdmin (s.lucks 0).fault email s.database)
          fun admin => send (Success.authLogin token admin)) :=
    handled_call (s.setClient (some client)) (perform_isAdmin _ email) _
  rw [hstart]
  unfold RightsManager.isAdmin query
  cases (s.lucks 0).fault with
  | some ec =>
      exact ⟨_, handled_checkEc_error _ ec _, rfl, rfl,
        iff_of_true (failed_setReply_error _ _ _) (Option.some_ne_none ec)⟩
  | none =>
      exact ⟨_, handled_reply _ _, rfl, rfl,
        iff_of_false (not_failed_setReply_success _ _) fun h => h rfl⟩

theorem failsCleanly_of_none {request : LoginRequest}
    (h : s.handled (request.handler s.ctx) = none) : s.FailsCleanly request := by
  intro s' hs'
  rw [h] at hs'
  cases hs'

/-- The state that a request leaves decides whether it fails cleanly. -/
theorem failsCleanly_iff_of_some {request : LoginRequest} {left : AccountServer}
    (h : s.handled (request.handler s.ctx) = some left) :
    s.FailsCleanly request <-> (left.Failed ->
      left.ctx.clientInfo = s.ctx.clientInfo ∧
        OnlyExpire (s.lucks 0).now s.database left.database) := by
  constructor
  · exact fun hclean => hclean left h
  · intro hleft s' hs'
    rw [h] at hs'
    cases hs'
    exact hleft

theorem failsCleanly_of_same {request : LoginRequest} {left : AccountServer}
    (h : s.handled (request.handler s.ctx) = some left)
    (hclient : left.ctx.clientInfo = s.ctx.clientInfo)
    (hexpire : OnlyExpire (s.lucks 0).now s.database left.database) :
    s.FailsCleanly request :=
  (failsCleanly_iff_of_some h).mpr fun _ => ⟨hclient, hexpire⟩

theorem failsCleanly_loginPass_iff (email pass : Str) :
    s.FailsCleanly (LoginRequest.loginPass email pass) <->
      s.SecondHolds (LoginRequest.loginPass email pass) := by
  have henters : s.Enters email pass <->
      exists token db', authenticatePass (s.lucks 0).fault (s.lucks 0).now
          (s.lucks 0).draws email pass s.database =
        some (Except.ok (some token), db') :=
    (authenticatePass_token_iff _ _ _ email pass).symm
  show _ <-> (s.Enters email pass -> (s.lucks 1).fault = none)
  rw [henters]
  cases hcall : authenticatePass (s.lucks 0).fault (s.lucks 0).now (s.lucks 0).draws
      email pass s.database with
  | none =>
      have hperform : s.perform (Call.authenticatePass email pass) = none :=
        congrArg (Option.map _) hcall
      apply iff_of_true
      · exact failsCleanly_of_none (handled_call_none s hperform _)
      · intro h
        rcases h with ⟨_, _, h⟩
        cases h
  | some result =>
      rcases result with ⟨answer, db'⟩
      have hperform : s.perform (Call.authenticatePass email pass) =
          some (answer, s.setDatabase db') := congrArg (Option.map _) hcall
      have hstart : s.handled ((LoginRequest.loginPass email pass).handler s.ctx) = _ :=
        handled_call s hperform _
      rcases authenticatePass_cases hcall with
        ⟨hsame, hnone⟩ | ⟨user, token, _, _, htoken, hinsert⟩
      · -- the database is as it was, and the context has not been written
        dsimp only at hsame hnone
        have hexpire : OnlyExpire (s.lucks 0).now s.database db' := by
          rw [hsame]
          exact onlyExpire_refl _ _
        apply iff_of_true
        · cases answer with
          | error ec => exact failsCleanly_of_same hstart rfl hexpire
          | ok answer =>
              cases answer with
              | some token => exact absurd rfl (hnone token)
              | none => exact failsCleanly_of_same hstart rfl hexpire
        · intro h
          rcases h with ⟨token, _, h⟩
          cases h
          exact absurd rfl (hnone token)
      · -- the token stays in the table
        dsimp only at htoken hinsert
        cases htoken
        rcases handled_finishLogin (s.setDatabase db') email token with
          ⟨left, hleft, _, hdatabase, hfailed⟩
        have hsecond : left.Failed <-> (s.lucks 1).fault ≠ none := hfailed
        rw [failsCleanly_iff_of_some (hstart.trans hleft), hsecond, hdatabase]
        constructor
        · intro hclean _
          by_contra hfault
          exact not_onlyExpire_of_insert hinsert _ (hclean hfault).right
        · intro h hfault
          exact absurd (h ⟨token, db', rfl⟩) hfault

theorem accepts_iff (s : AccountServer) (token email : Str) :
    s.Accepts token email <->
      (authenticateToken (s.lucks 0).fault (s.lucks 0).now token s.database).1 =
        Except.ok (some email) := by
  unfold Accepts
  cases (s.lucks 0).fault with
  | some ec =>
      apply iff_of_false
      · intro h
        cases h.left
      · intro h
        cases h
  | none => rw [and_iff_right rfl, authenticateToken_eq_some_iff, Held]

/-- The first call of the other two requests. -/
theorem perform_authenticateToken (s : AccountServer) (token : Str) :
    exists answer db',
      s.perform (Call.authenticateToken token) = some (answer, s.setDatabase db') ∧
        OnlyExpire (s.lucks 0).now s.database db' ∧
        forall email, s.Accepts token email <-> answer = Except.ok (some email) :=
  ⟨_, _, rfl, onlyExpire_authenticateToken _ _ token s.database, s.accepts_iff token⟩

theorem failsCleanly_loginToken_iff (token : Str) :
    s.FailsCleanly (LoginRequest.loginToken token) <->
      s.SecondHolds (LoginRequest.loginToken token) := by
  rcases s.perform_authenticateToken token with
    ⟨answer, db', hperform, hexpire, haccepts⟩
  have hstart : s.handled ((LoginRequest.loginToken token).handler s.ctx) = _ :=
    handled_call s hperform _
  by_cases hrefused : forall email, answer ≠ Except.ok (some email)
  · apply iff_of_true
    · cases answer with
      | error ec => exact failsCleanly_of_same hstart rfl hexpire
      | ok answer =>
          cases answer with
          | some email => exact absurd rfl (hrefused email)
          | none => exact failsCleanly_of_same hstart rfl hexpire
    · intro email haccepted
      exact absurd ((haccepts email).mp haccepted) (hrefused email)
  · push Not at hrefused
    rcases hrefused with ⟨email, rfl⟩
    rcases handled_finishLogin (s.setDatabase db') email token with
      ⟨left, hleft, hclient, hdatabase, hfailed⟩
    have hsecond : left.Failed <-> (s.lucks 1).fault ≠ none := hfailed
    rw [failsCleanly_iff_of_some (hstart.trans hleft), hsecond, hdatabase, hclient]
    constructor
    · intro hclean email' haccepted hne
      cases (haccepts email').mp haccepted
      by_contra hfault
      exact hne (hclean hfault).left.symm
    · intro h hfault
      refine ⟨?_, hexpire⟩
      by_contra hne
      exact hfault (h email ((haccepts email).mpr rfl) fun heq => hne heq.symm)

/-- What is behind the checks of a logout. -/
def finishLogout (token : Str) : Handler := do
  checkEc (← call (Call.deleteToken token)) fun _ => send Success.authLogout

theorem handled_finishLogout (s : AccountServer) (token : Str) :
    exists left, s.handled (finishLogout token) = some left ∧
      left.ctx = s.ctx ∧ (left.Failed <-> (s.lucks 0).fault ≠ none) ∧
      (left.Failed -> left.database = s.database) := by
  have hperform : s.perform (Call.deleteToken token) = some
      (deleteToken (s.lucks 0).fault token s.database |>.1,
        s.setDatabase (deleteToken (s.lucks 0).fault token s.database).2) := rfl
  rw [finishLogout, handled_call s hperform]
  cases (s.lucks 0).fault with
  | some ec =>
      exact ⟨_, handled_checkEc_error _ ec _, rfl,
        iff_of_true (failed_setReply_error _ _ _) (Option.some_ne_none ec), fun _ => rfl⟩
  | none =>
      refine ⟨_, handled_reply _ _, rfl,
        iff_of_false (not_failed_setReply_success _ _) fun h => h rfl, ?_⟩
      exact fun h => absurd h (not_failed_setReply_success _ _)

theorem logout_eq {ctx : RequestContext} {client : ClientInfo}
    (h : ctx.clientInfo = some client) (token : Str) :
    Websocket.logout ctx token =
      call (Call.authenticateToken token) >>= fun answer =>
        checkEc answer fun email =>
          if email = some client.email then
            if token = client.activeToken then
              setClientInfo none >>= fun _ => finishLogout token
            else
              finishLogout token
          else
            sendError ErrorPayload.authWrongCredentials "Invalid token." := by
  unfold Websocket.logout
  rw [h]
  rfl

theorem failsCleanly_logout_iff (token : Str) :
    s.FailsCleanly (LoginRequest.logout token) <->
      s.SecondHolds (LoginRequest.logout token) := by
  cases hctx : s.ctx.clientInfo with
  | none =>
      have hstart : s.handled ((LoginRequest.logout token).handler s.ctx) =
          some (s.setReply (Reply.error (some ErrorPayload.authWrongCredentials)
            (str "Invalid token."))) := by
        unfold LoginRequest.handler Websocket.logout
        rw [hctx]
        exact handled_reply s _
      apply iff_of_true
      · exact failsCleanly_of_same hstart rfl (onlyExpire_refl _ _)
      · intro client hclient
        rw [hctx] at hclient
        cases hclient
  | some client =>
      rcases s.perform_authenticateToken token with
        ⟨answer, db', hperform, hexpire, haccepts⟩
      have hhandler : (LoginRequest.logout token).handler s.ctx = _ := logout_eq hctx token
      have hstart := (congrArg s.handled hhandler).trans (handled_call s hperform _)
      by_cases hown : answer = Except.ok (some client.email)
      · cases hown
        rw [checkEc, if_pos rfl] at hstart
        by_cases hactive : token = client.activeToken
        · -- the client is gone before the token is deleted
          rw [if_pos hactive, handled_setClientInfo] at hstart
          rcases handled_finishLogout ((s.setDatabase db').setClient none) token with
            ⟨left, hleft, hleftctx, hfailed, hdatabase⟩
          have hsecond : left.Failed <-> (s.lucks 1).fault ≠ none := hfailed
          rw [failsCleanly_iff_of_some (hstart.trans hleft), hsecond, hleftctx, hctx]
          constructor
          · intro hclean _ _ _ _
            by_contra hfault
            cases (hclean hfault).left
          · intro h hfault
            exact absurd (h client hctx hactive.symm ((haccepts client.email).mpr rfl))
              hfault
        · rw [if_neg hactive] at hstart
          rcases handled_finishLogout (s.setDatabase db') token with
            ⟨left, hleft, hleftctx, _, hdatabase⟩
          apply iff_of_true
          · rw [failsCleanly_iff_of_some (hstart.trans hleft)]
            intro hfailed
            rw [hleftctx, hdatabase hfailed]
            exact ⟨rfl, hexpire⟩
          · intro other hother hsame
            rw [hctx] at hother
            cases hother
            exact absurd hsame.symm hactive
      · apply iff_of_true
        · cases answer with
          | error ec => exact failsCleanly_of_same hstart rfl hexpire
          | ok email =>
              rw [checkEc, if_neg fun heq => hown (congrArg Except.ok heq)] at hstart
              exact failsCleanly_of_same hstart rfl hexpire
        · intro other hother _ haccepted
          rw [hctx] at hother
          cases hother
          exact absurd ((haccepts client.email).mp haccepted) hown

end Requests

/-- Logins and logouts that fail change nothing exactly if no error is met behind
what they have changed. -/
theorem failsCleanly_iff (s : AccountServer) (request : LoginRequest) :
    s.FailsCleanly request <-> s.SecondHolds request := by
  cases request with
  | loginPass email pass => exact failsCleanly_loginPass_iff email pass
  | loginToken token => exact failsCleanly_loginToken_iff token
  | logout token => exact failsCleanly_logout_iff token

/-- The second call of a login meets an error of the database. -/
def sampleLogin : AccountServer where
  database := (Database.empty.init none (str "root") (str "secret")).2
  lucks := fun n =>
    { fault := if n = 1 then some ⟨str "database is locked"⟩ else none
      now := 100
      draws := [{ value := str "token", fault := none }]
      key := default }
  ctx :=
    { clientInfo := none
      cookies := []
      resStatus := Status.ok
      allowedVerbs := []
      error := [] }
  replied := none

/-- The token has been entered, and the client does not get it. -/
theorem failsCleanly_not_everywhere :
    ¬ forall (s : AccountServer) (request : LoginRequest), s.FailsCleanly request := by
  intro h
  have hclean := h sampleLogin (LoginRequest.loginPass (str "root") (str "secret"))
  rw [failsCleanly_loginPass_iff] at hclean
  have henters : sampleLogin.Enters (str "root") (str "secret") := by
    refine ⟨rfl, ?_, _, List.mem_singleton_self _, rfl, ?_⟩
    · unfold Known
      decide
    · unfold sampleLogin
      decide
  cases hclean henters

end AccountServer
end Websocket
end CisWebui
