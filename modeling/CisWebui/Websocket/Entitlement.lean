import CisWebui.Database.AccountItems
import CisWebui.Foundation.History
import CisWebui.Websocket.AccountService
import CisWebui.Websocket.MediatedHandlers

/-!
# Entitlement

Who may change what in the accounts: which requests of which clients, and what of the
upkeep.  Whatever the book of the server says goes back to an event that was entitled to
make it say so.
-/

namespace CisWebui
namespace Websocket

open Cpp Foundation Program AccountBook

/-!
## Who is entitled
-/

/-- The client is an administrator, as the book says. -/
def IsAdministrator (book : AccountBook) (client : Option ClientInfo) : Prop :=
  exists who, client = some who ∧ book.read (Item.admin who.email) = some true

def Owns (client : Option ClientInfo) (email : Str) : Prop :=
  exists who, client = some who ∧ who.email = email

/-- What a request may make the book say, if it comes from the client. -/
def Entitled (client : Option ClientInfo) (book : AccountBook) :
    Request -> (i : Item) -> i.Value -> Prop
  -- a token for the password, and the end of one that is shown
  | Request.authLoginPass email pass, Item.token _, new =>
      book.read (Item.pass email) = some pass ∧ exists time, new = some (email, time)
  | Request.authLoginToken token, Item.token value, new => value = token ∧ new = none
  | Request.authLogout token, Item.token value, new => value = token ∧ new = none
  -- one's own password and key, or an administrator
  | Request.userChangePass email old newPass, Item.pass owner, new =>
      owner = email ∧ new = some newPass ∧
        (IsAdministrator book client ∨
          Owns client email ∧ book.read (Item.pass email) = some old)
  | Request.userApiKeyGenerate email, Item.apiAccessKey owner, new =>
      owner = email ∧ new.isSome ∧ (Owns client email ∨ IsAdministrator book client)
  | Request.userApiKeyRemove email, Item.apiAccessKey owner, new =>
      owner = email ∧ new = none ∧ (Owns client email ∨ IsAdministrator book client)
  -- an administrator
  | Request.adminUserAdd email _ admin, Item.admin owner, new =>
      owner = email ∧ new = some admin ∧ IsAdministrator book client
  | Request.adminUserAdd email pass _, Item.pass owner, new =>
      owner = email ∧ new = some pass ∧ IsAdministrator book client
  | Request.adminUserDelete email, Item.admin owner, new =>
      owner = email ∧ new = none ∧ IsAdministrator book client
  | Request.adminUserDelete email, Item.pass owner, new =>
      owner = email ∧ new = none ∧ IsAdministrator book client
  | Request.adminUserDelete email, Item.apiAccessKey owner, new =>
      owner = email ∧ new = none ∧ IsAdministrator book client
  | Request.adminUserDelete email, Item.rights owner _, new =>
      owner = email ∧ new = none ∧ IsAdministrator book client
  | Request.adminUserDelete email, Item.token value, new =>
      (exists time, book.read (Item.token value) = some (email, time)) ∧ new = none ∧
        IsAdministrator book client
  | Request.adminUserSetAdminStatus email admin, Item.admin owner, new =>
      owner = email ∧ new = some admin ∧ IsAdministrator book client
  | Request.adminUserPermissionSet email permissions, Item.rights owner project, new =>
      owner = email ∧ IsAdministrator book client ∧
        exists rights, new = some rights ∧
          { name := project, rights := rights } ∈ permissions
  | Request.cisProjectAdd name, Item.project project, new =>
      project = name ∧ new = true ∧ IsAdministrator book client
  | _, _, _ => False

/-- The same for a call of a manager, for whoever makes it. -/
def Call.Writes (book : AccountBook) : Call -> (i : Item) -> i.Value -> Prop
  | authenticatePass email pass, Item.token _, new =>
      book.read (Item.pass email) = some pass ∧ exists time, new = some (email, time)
  | authenticateToken token, Item.token value, new => value = token ∧ new = none
  | deleteToken token, Item.token value, new => value = token ∧ new = none
  | changePass email newPass, Item.pass owner, new => owner = email ∧ new = some newPass
  | generateApiKey email, Item.apiAccessKey owner, new => owner = email ∧ new.isSome
  | removeApiKey email, Item.apiAccessKey owner, new => owner = email ∧ new = none
  | addUser email _ admin, Item.admin owner, new => owner = email ∧ new = some admin
  | addUser email pass _, Item.pass owner, new => owner = email ∧ new = some pass
  | deleteUser email, Item.admin owner, new => owner = email ∧ new = none
  | deleteUser email, Item.pass owner, new => owner = email ∧ new = none
  | deleteUser email, Item.apiAccessKey owner, new => owner = email ∧ new = none
  | deleteUser email, Item.rights owner _, new => owner = email ∧ new = none
  | deleteUser email, Item.token value, new =>
      (exists time, book.read (Item.token value) = some (email, time)) ∧ new = none
  | setAdminStatus email admin, Item.admin owner, new => owner = email ∧ new = some admin
  | setUserProjectPermissions email name rights, Item.rights owner project, new =>
      owner = email ∧ project = name ∧ new = some rights
  | createProject name, Item.project project, new => project = name ∧ new = true
  | _, _, _ => False

/-!
## What the calls write
-/

section Calls

variable (luck : Luck) (book : AccountBook)

theorem authenticatePass_writes {email pass : Str} {fault : Option ErrorCode} {now : Nat}
    {draws : List AuthManager.Draw} {result : Fallible (Option Str) × AccountBook}
    (h : book.authenticatePass fault now draws email pass = some result) :
    Changes ((Call.authenticatePass email pass).Writes book) book result.2 := by
  unfold AccountBook.authenticatePass at h
  split at h
  · cases h
    exact changes_refl book
  · split at h
    · next hpass =>
        rcases Option.map_eq_some_iff.mp h with ⟨draw, _, rfl⟩
        exact changes_issueToken _ _ _ ⟨any_pass_iff.mp hpass, _, rfl⟩
    · cases h
      exact changes_refl book

theorem authenticateToken_writes (fault : Option ErrorCode) (now : Nat) (token : Str) :
    Changes ((Call.authenticateToken token).Writes book) book
      (book.authenticateToken fault now token).2 := by
  apply changes_attempt
  split
  · split
    · apply changes_strikeTokens
      intro value email time _ hvalue
      exact ⟨of_decide_eq_true hvalue, rfl⟩
    · exact changes_refl book
  · exact changes_refl book

theorem deleteToken_writes (fault : Option ErrorCode) (token : Str) :
    Changes ((Call.deleteToken token).Writes book) book (book.deleteToken fault token).2 := by
  apply changes_attempt
  apply changes_strikeTokens
  intro value email time _ hvalue
  exact ⟨of_decide_eq_true hvalue, rfl⟩

theorem changePass_writes (fault : Option ErrorCode) (email newPass : Str) :
    Changes ((Call.changePass email newPass).Writes book) book
      (book.changePass fault email newPass).2 := by
  unfold AccountBook.changePass
  split
  · exact changes_refl book
  · apply changes_onAccount
    apply changes_changeAccount
    · exact fun _ => rfl
    · exact fun _ => Or.inl rfl
    · exact fun _ => Or.inr ⟨rfl, rfl⟩
    · exact fun _ => Or.inl rfl

theorem setAdminStatus_writes (fault : Option ErrorCode) (email : Str) (admin : Bool) :
    Changes ((Call.setAdminStatus email admin).Writes book) book
      (book.setAdminStatus fault email admin).2 := by
  apply changes_onAccount
  apply changes_changeAccount
  · exact fun _ => rfl
  · exact fun _ => Or.inr ⟨rfl, rfl⟩
  · exact fun _ => Or.inl rfl
  · exact fun _ => Or.inl rfl

theorem generateApiKey_writes (fault : Option ErrorCode) (draw : AuthManager.Draw)
    (email : Str) :
    Changes ((Call.generateApiKey email).Writes book) book
      (book.generateApiKey fault draw email).2 := by
  apply changes_attempt
  split
  · apply changes_changeAccount
    · exact fun _ => rfl
    · exact fun _ => Or.inl rfl
    · exact fun _ => Or.inl rfl
    · exact fun _ => Or.inr ⟨rfl, rfl⟩
  · exact changes_refl book

theorem removeApiKey_writes (fault : Option ErrorCode) (email : Str) :
    Changes ((Call.removeApiKey email).Writes book) book
      (book.removeApiKey fault email).2 := by
  apply changes_attempt
  split
  · apply changes_changeAccount
    · exact fun _ => rfl
    · exact fun _ => Or.inl rfl
    · exact fun _ => Or.inl rfl
    · exact fun _ => Or.inr ⟨rfl, rfl⟩
  · exact changes_refl book

theorem addUser_writes (fault : Option ErrorCode) (email pass : Str) (admin : Bool) :
    Changes ((Call.addUser email pass admin).Writes book) book
      (book.addUser fault email pass admin).2 := by
  apply changes_attempt
  cases hfind : book.find? email with
  | none => exact changes_openAccount hfind rfl ⟨rfl, rfl⟩ ⟨rfl, rfl⟩
  | some account => exact changes_refl book

theorem deleteUser_writes (fault : Option ErrorCode) (email : Str) :
    Changes ((Call.deleteUser email).Writes book) book (book.deleteUser fault email).2 := by
  apply changes_onAccount
  exact changes_closeAccount email ⟨rfl, rfl⟩ ⟨rfl, rfl⟩ ⟨rfl, rfl⟩ (fun _ => ⟨rfl, rfl⟩)
    (fun _ time hvalue => ⟨⟨time, hvalue⟩, rfl⟩)

theorem setUserProjectPermissions_writes (fault : Option ErrorCode) (email project : Str)
    (rights : ProjectRights) :
    Changes ((Call.setUserProjectPermissions email project rights).Writes book) book
      (book.setUserProjectPermissions fault email project rights).2 := by
  apply changes_attempt
  split
  · exact changes_setRights email project rights ⟨rfl, rfl, rfl⟩
  · exact changes_refl book

theorem createProject_writes (fault : Option ErrorCode) (directory : Fallible Unit)
    (name : Str) :
    Changes ((Call.createProject name).Writes book) book
      (book.createProject fault directory name).2 := by
  cases directory with
  | error ec => exact changes_refl book
  | ok _ =>
      apply changes_attempt
      apply changes_enterProjects [name]
      intro project hproject
      exact ⟨List.mem_singleton.mp hproject, rfl⟩

theorem bookCall_writes {c : Call} {result : c.Answer × AccountBook}
    (h : bookCall luck book c = some result) :
    Changes (c.Writes book) book result.2 := by
  cases c with
  | authenticatePass email pass => exact authenticatePass_writes book h
  | authenticateToken token =>
      cases h
      exact authenticateToken_writes book _ _ _
  | deleteToken token =>
      cases h
      exact deleteToken_writes book _ _
  | changePass email newPass =>
      cases h
      exact changePass_writes book _ _ _
  | generateApiKey email =>
      cases h
      exact generateApiKey_writes book _ _ _
  | removeApiKey email =>
      cases h
      exact removeApiKey_writes book _ _
  | addUser email pass admin =>
      cases h
      exact addUser_writes book _ _ _ _
  | deleteUser email =>
      cases h
      exact deleteUser_writes book _ _
  | setAdminStatus email admin =>
      cases h
      exact setAdminStatus_writes book _ _ _
  | setUserProjectPermissions email project rights =>
      cases h
      exact setUserProjectPermissions_writes book _ _ _ _
  | hasUser _ | getApiKey _ | checkPass _ _ | getUserInfos | isAdmin _
  | checkProjectRight _ _ | getPermissions _ | getPermissionsByProject _ =>
      cases h
      exact changes_refl book
  | _ => cases h

theorem bookProjectCall_writes (c : Call) (answer : c.Answer) :
    Changes (c.Writes book) book (bookProjectCall luck book c answer).2 := by
  cases c with
  | createProject project =>
      cases answer with
      | error f => exact changes_refl book
      | ok directory => exact createProject_writes book _ _ _
  | removeProject project =>
      cases answer with
      | error f => exact changes_refl book
      | ok removed =>
          cases removed with
          | error ec => exact changes_refl book
          | ok _ => exact changes_attempt _ (changes_refl book)
  | _ => exact changes_refl book

theorem perform_writes (c : Call) (answer : c.Answer) :
    Changes (c.Writes book) book (bookStore.perform luck book c answer).2 := by
  unfold Store.perform
  cases h : bookStore.call luck book c with
  | none => exact bookProjectCall_writes luck book c answer
  | some result => exact bookCall_writes luck book h

end Calls

/-!
## A request
-/

section Requests

variable {Rest : Type} {ctx : RequestContext} {req : Request} {before : AccountBook}
  {held : Answered} {s : Service AccountBook Rest}

/-- Inside of a request that has found the book `before`: what has been written is what
the client is entitled to, by the book `before`, and what has been found out about the
client is what stands there. -/
structure InRequest (ctx : RequestContext) (req : Request) (before : AccountBook)
    (held : Answered) (s : Service AccountBook Rest) : Prop where
  written : Changes (Entitled ctx.clientInfo before req) before s.accounts
  admin : forall client, ctx.clientInfo = some client -> held.Admin client.email ->
    IsAdministrator before ctx.clientInfo
  own : forall client pass, ctx.clientInfo = some client ->
    held.Says (Call.checkPass client.email pass) (Except.ok true) ->
      (exists newPass, req = Request.userChangePass client.email pass newPass) ∧
        (IsAdministrator before ctx.clientInfo ∨
          before.read (Item.pass client.email) = some pass)

/-- Whoever may change who is an administrator is one. -/
theorem administers_of_entitled {client : Option ClientInfo} {book : AccountBook}
    {email : Str} {new : Option Bool}
    (h : Entitled client book req (Item.admin email) new) : IsAdministrator book client := by
  cases req with
  | adminUserAdd _ _ _ => exact h.right.right
  | adminUserDelete _ => exact h.right.right
  | adminUserSetAdminStatus _ _ => exact h.right.right
  | _ => exact False.elim h

theorem InRequest.administers (h : InRequest ctx req before held s) {c : Call}
    (hmay : c.Open ∨ exists client,
      ctx.clientInfo = some client ∧ c.Permitted held client.email)
    (hclosed : ¬ c.Open) (hadmin : forall email, c.Permitted held email -> held.Admin email) :
    IsAdministrator before ctx.clientInfo := by
  rcases hmay with hopen | ⟨client, hclient, hpermitted⟩
  · exact absurd hopen hclosed
  · exact h.admin client hclient (hadmin _ hpermitted)

theorem InRequest.owns (h : InRequest ctx req before held s) {c : Call} {owner : Str}
    (hmay : c.Open ∨ exists client,
      ctx.clientInfo = some client ∧ c.Permitted held client.email)
    (hclosed : ¬ c.Open)
    (howner : forall email, c.Permitted held email -> owner = email ∨ held.Admin email) :
    Owns ctx.clientInfo owner ∨ IsAdministrator before ctx.clientInfo := by
  rcases hmay with hopen | ⟨client, hclient, hpermitted⟩
  · exact absurd hopen hclosed
  · rcases howner _ hpermitted with hself | hadmin
    · exact Or.inl ⟨client, hclient, hself.symm⟩
    · exact Or.inr (h.admin client hclient hadmin)

/-- The password that a request is about has not changed in front of a login. -/
theorem InRequest.pass_login (h : InRequest ctx req before held s) {email pass : Str}
    (hreq : req = Request.authLoginPass email pass)
    (hpass : s.accounts.read (Item.pass email) = some pass) :
    before.read (Item.pass email) = some pass := by
  rcases h.written (Item.pass email) with hsame | hnew
  · rw [← hsame]
    exact hpass
  · subst hreq
    exact False.elim hnew

/-- A permitted call writes what the request is entitled to. -/
theorem InRequest.entitled (h : InRequest ctx req before held s) {c : Call}
    (hc : Permitted ctx req held (Op.call c)) (i : Item) (new : i.Value)
    (hwrites : c.Writes s.accounts i new) : Entitled ctx.clientInfo before req i new := by
  cases c with
  | authenticatePass email pass =>
      rcases hc with ⟨hreq, _⟩
      cases i with
      | token value =>
          rcases hwrites with ⟨hpass, htime⟩
          have hbefore := h.pass_login hreq hpass
          rw [hreq]
          exact ⟨hbefore, htime⟩
      | _ => exact False.elim hwrites
  | authenticateToken token =>
      rcases hc with ⟨hreq, _⟩
      cases i with
      | token value =>
          rcases hreq with rfl | rfl
          · exact hwrites
          · exact hwrites
      | _ => exact False.elim hwrites
  | deleteToken token =>
      rcases hc with ⟨rfl, _⟩
      cases i with
      | token value => exact hwrites
      | _ => exact False.elim hwrites
  | changePass email newPass =>
      rcases hc with ⟨⟨old, hreq⟩, hmay⟩
      cases i with
      | pass owner =>
          rcases hmay with hopen | ⟨client, hclient, hadmin | ⟨hself, pass, hpass⟩⟩
          · exact False.elim hopen
          · rw [hreq]
            exact ⟨hwrites.left, hwrites.right, Or.inl (h.admin client hclient hadmin)⟩
          · rcases h.own client pass hclient hpass with ⟨⟨newPass', hreq'⟩, hmay⟩
            rw [hreq] at hreq' ⊢
            cases hreq'
            refine ⟨hwrites.left, hwrites.right, hmay.imp_right ?_⟩
            intro hold
            exact ⟨⟨client, hclient, rfl⟩, hold⟩
      | _ => exact False.elim hwrites
  | generateApiKey email =>
      rcases hc with ⟨rfl, hmay⟩
      cases i with
      | apiAccessKey owner =>
          exact ⟨hwrites.left, hwrites.right, h.owns hmay id fun _ howner => howner⟩
      | _ => exact False.elim hwrites
  | removeApiKey email =>
      rcases hc with ⟨rfl, hmay⟩
      cases i with
      | apiAccessKey owner =>
          exact ⟨hwrites.left, hwrites.right, h.owns hmay id fun _ howner => howner⟩
      | _ => exact False.elim hwrites
  | addUser email pass admin =>
      rcases hc with ⟨rfl, hmay⟩
      have hadmin := h.administers hmay id fun _ hadmin => hadmin
      cases i with
      | admin owner => exact ⟨hwrites.left, hwrites.right, hadmin⟩
      | pass owner => exact ⟨hwrites.left, hwrites.right, hadmin⟩
      | _ => exact False.elim hwrites
  | deleteUser email =>
      rcases hc with ⟨rfl, hmay⟩
      have hadmin := h.administers hmay id fun _ hadmin => hadmin
      cases i with
      | admin owner => exact ⟨hwrites.left, hwrites.right, hadmin⟩
      | pass owner => exact ⟨hwrites.left, hwrites.right, hadmin⟩
      | apiAccessKey owner => exact ⟨hwrites.left, hwrites.right, hadmin⟩
      | rights owner project => exact ⟨hwrites.left, hwrites.right, hadmin⟩
      | project name => exact False.elim hwrites
      | token value =>
          refine ⟨?_, hwrites.right, hadmin⟩
          rcases h.written (Item.token value) with hsame | hnew
          · rw [← hsame]
            exact hwrites.left
          · exact hnew.left
  | setAdminStatus email admin =>
      rcases hc with ⟨rfl, hmay⟩
      cases i with
      | admin owner =>
          exact ⟨hwrites.left, hwrites.right, h.administers hmay id fun _ hadmin => hadmin⟩
      | _ => exact False.elim hwrites
  | setUserProjectPermissions email name rights =>
      rcases hc with ⟨⟨permissions, rfl, hmem⟩, hmay⟩
      cases i with
      | rights owner project =>
          rcases hwrites with ⟨howner, hproject, hnew⟩
          refine ⟨howner, h.administers hmay id fun _ hadmin => hadmin, rights, hnew, ?_⟩
          rw [hproject]
          exact hmem
      | _ => exact False.elim hwrites
  | createProject name =>
      rcases hc with ⟨rfl, hmay⟩
      cases i with
      | project project =>
          exact ⟨hwrites.left, hwrites.right, h.administers hmay id fun _ hadmin => hadmin⟩
      | _ => exact False.elim hwrites
  | _ => cases i <;> exact False.elim hwrites

theorem inRequest_start (s : Service AccountBook Rest) (ctx : RequestContext)
    (req : Request) : InRequest ctx req s.accounts ∅ s where
  written := changes_refl s.accounts
  admin := fun _ _ h => False.elim h
  own := fun _ _ _ h => False.elim h

/-- An answer is an old one, or that of the operation. -/
theorem says_insert {op : Op} {a : op.Answer} {c : Call} {answer : c.Answer}
    (h : Answered.Says (insert ⟨op, a⟩ held) c answer) :
    held.Says c answer ∨ (op = Op.call c ∧ HEq a answer) := by
  rcases Set.mem_insert_iff.mp h with hnew | hold
  · rcases Sigma.mk.inj_iff.mp hnew with ⟨hop, hanswer⟩
    exact Or.inr ⟨hop.symm, hanswer.symm⟩
  · exact Or.inl hold

theorem query_eq_ok {α : Type} {fault : Option ErrorCode} {a b : α}
    (h : Database.query fault a = Except.ok b) : a = b := by
  cases fault with
  | some ec => cases h
  | none =>
      cases h
      rfl

theorem inRequest_step (surroundings : Surroundings Rest) (connection : Nat)
    (h : InRequest ctx req before held s) {op : Op} (hop : Permitted ctx req held op) :
    InRequest ctx req before
      (insert ⟨op, ((Service.machine bookStore surroundings connection).perform op s).1⟩ held)
      ((Service.machine bookStore surroundings connection).perform op s).2 where
  written := by
    cases op with
    | call c => exact h.written.trans (perform_writes _ s.accounts c _) (h.entitled hop)
    | _ => exact h.written
  admin := by
    intro client hclient hadmin
    rcases says_insert hadmin with hold | ⟨rfl, hnew⟩
    · exact h.admin client hclient hold
    · have hread : s.accounts.read (Item.admin client.email) = some true :=
        any_admin_iff.mp (query_eq_ok (eq_of_heq hnew))
      rcases h.written (Item.admin client.email) with hsame | hentitled
      · exact ⟨client, hclient, hsame.symm.trans hread⟩
      · exact administers_of_entitled hentitled
  own := by
    intro client pass hclient hpass
    rcases says_insert hpass with hold | ⟨rfl, hnew⟩
    · exact h.own client pass hclient hold
    · rcases hop with ⟨⟨newPass, hreq⟩, _⟩
      have hquery : s.accounts.checkPass (surroundings.luck s.rest).fault client.email pass =
          Except.ok true := by
        have hmapped : (s.accounts.checkPass (surroundings.luck s.rest).fault client.email
            pass).mapError (fun _ => Failure.database) = Except.ok true := eq_of_heq hnew
        cases hcheck : s.accounts.checkPass (surroundings.luck s.rest).fault client.email
            pass with
        | error ec =>
            rw [hcheck] at hmapped
            cases hmapped
        | ok right =>
            rw [hcheck] at hmapped
            cases hmapped
            rfl
      have hread : s.accounts.read (Item.pass client.email) = some pass :=
        any_pass_iff.mp (query_eq_ok hquery)
      refine ⟨⟨newPass, hreq⟩, ?_⟩
      rcases h.written (Item.pass client.email) with hsame | hentitled
      · exact Or.inr (hsame.symm.trans hread)
      · rw [hreq] at hentitled
        exact hentitled.right.right.imp_right And.right

theorem request_entitled (surroundings : Surroundings Rest) (validCron : Str -> Bool)
    (connection : Nat) (req : Request) (s : Service AccountBook Rest) :
    Changes (Entitled (s.contexts connection).clientInfo s.accounts req) s.accounts
      (s.handle bookStore surroundings validCron
        (Service.Event.request connection req)).accounts := by
  have hguarded := mediated_dispatch validCron (s.contexts connection) ∅ req
  have hkeeps := @keeps_of_guarded _ _ _ _ _ _ _ _ _
    (Service.machine bookStore surroundings connection)
    (InRequest (s.contexts connection) req s.accounts)
    (fun _ _ _ h hop => inRequest_step surroundings connection h hop) hguarded s
    (inRequest_start s (s.contexts connection) req)
  rcases hkeeps with ⟨_, h⟩
  exact h.written

end Requests

/-!
## The events of a run
-/

namespace Service

variable {Rest : Type}

/-- What an event may make the book say. -/
def Event.Entitled (contexts : Nat -> RequestContext) (book : AccountBook) :
    Event Rest -> (i : Item) -> i.Value -> Prop
  | Event.request connection req, i, new =>
      Websocket.Entitled (contexts connection).clientInfo book req i new
  | Event.lookup _ (Lookup.authenticateToken token), Item.token value, new =>
      value = token ∧ new = none
  | Event.upkeep luck Upkeep.cleanup, Item.token value, new =>
      (exists email time, book.read (Item.token value) = some (email, time) ∧
        time < luck.now) ∧ new = none
  | Event.upkeep _ (Upkeep.init email _), Item.admin owner, new =>
      owner = email ∧ new = some true
  | Event.upkeep _ (Upkeep.init email pass), Item.pass owner, new =>
      owner = email ∧ new = some pass
  | Event.upkeep _ (Upkeep.refreshProjects names), Item.project name, new =>
      name ∈ names ∧ new = true
  | _, _, _ => False

theorem upkeep_entitled (contexts : Nat -> RequestContext) (luck : Luck) (u : Upkeep)
    (book : AccountBook) :
    Changes ((Event.upkeep luck u : Event Rest).Entitled contexts book) book
      (bookUpkeep luck book u) := by
  cases u with
  | init email pass =>
      show Changes _ book (book.init luck.fault email pass).2
      unfold AccountBook.init
      cases luck.fault with
      | some ec => exact changes_refl book
      | none =>
          cases hfind : book.find? email with
          | some account => exact changes_refl book
          | none => exact changes_openAccount hfind rfl ⟨rfl, rfl⟩ ⟨rfl, rfl⟩
  | refreshProjects names =>
      apply changes_attempt
      apply changes_enterProjects
      intro name hname
      exact ⟨hname, rfl⟩
  | cleanup =>
      apply changes_attempt
      apply changes_strikeTokens
      intro value email time hvalue hexpired
      exact ⟨⟨email, time, hvalue, of_decide_eq_true hexpired⟩, rfl⟩

theorem lookup_entitled (contexts : Nat -> RequestContext) (luck : Luck) (q : Lookup)
    (book : AccountBook) :
    Changes ((Event.lookup luck q : Event Rest).Entitled contexts book) book
      (bookLookup luck book q).2 := by
  cases q with
  | authenticateToken token =>
      apply (changes_refl book).trans (authenticateToken_writes book luck.fault luck.now token)
      intro i new hwrites
      cases i with
      | token value => exact hwrites
      | _ => exact False.elim hwrites
  | checkProjectRight email project => exact changes_refl book
  | getUserInfo email => exact changes_refl book

theorem handle_entitled (surroundings : Surroundings Rest) (validCron : Str -> Bool)
    (s : Service AccountBook Rest) (e : Event Rest) :
    Changes (e.Entitled s.contexts s.accounts) s.accounts
      (s.handle bookStore surroundings validCron e).accounts := by
  cases e with
  | request connection req => exact request_entitled surroundings validCron connection req s
  | lookup luck q => exact lookup_entitled s.contexts luck q s.accounts
  | upkeep luck u => exact upkeep_entitled s.contexts luck u s.accounts
  | outside rest => exact changes_refl s.accounts

/-- Every state of the server over the database has one of the server over the book. -/
theorem kept_of_run {surroundings : Surroundings Rest} {validCron : Str -> Bool}
    {rest : Rest} {es : List (Event Rest)} {s : Service Database Rest}
    (hrun : (system databaseStore surroundings validCron rest).runFrom
      (system databaseStore surroundings validCron rest).init es = some s) :
    exists t, (system bookStore surroundings validCron rest).runFrom
      (system bookStore surroundings validCron rest).init es = some t ∧ Kept s t := by
  have hrefines := system_refines surroundings validCron rest
  have hrelated := EventSystem.runFrom_refines hrefines hrefines.init es
  rw [hrun] at hrelated
  cases hbook : (system bookStore surroundings validCron rest).runFrom
      (system bookStore surroundings validCron rest).init es with
  | none =>
      rw [hbook] at hrelated
      cases hrelated
  | some t =>
      rw [hbook] at hrelated
      cases hrelated with
      | some hkept => exact ⟨t, rfl, hkept⟩

end Service

end Websocket
end CisWebui
