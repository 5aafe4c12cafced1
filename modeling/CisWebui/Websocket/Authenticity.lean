import CisWebui.Websocket.Entitlement

/-!
# Authenticity

Nobody is a client of the server, owns one of its tokens or is recognised by the HTTP
handlers without the password of the account having been sent: a client by logging in on
its own connection, with the password or with a token, and a token by a login with the
password.
-/

namespace CisWebui
namespace Websocket

open Cpp Foundation Program AccountBook

variable {Rest : Type}

/-!
## Logins
-/

/-- Somebody sends the password of the account. -/
def Service.Event.Presents (e : Service.Event Rest) (book : AccountBook) (email : Str) :
    Prop :=
  exists connection pass,
    e = Service.Event.request connection (Request.authLoginPass email pass) ∧
      book.read (Item.pass email) = some pass

/-- The client logs in on the connection: with the password of its account, or with a
token of its own. -/
def Service.Event.LogsIn (e : Service.Event Rest) (book : AccountBook) (connection : Nat)
    (client : ClientInfo) : Prop :=
  (exists pass,
      e = Service.Event.request connection (Request.authLoginPass client.email pass) ∧
        book.read (Item.pass client.email) = some pass) ∨
    exists time,
      e = Service.Event.request connection (Request.authLoginToken client.activeToken) ∧
        book.read (Item.token client.activeToken) = some (client.email, time)

/-!
## Inside of a request
-/

section Requests

variable {ctx : RequestContext} {req : Request} {start s : Service AccountBook Rest}
  {held : Answered} {connection : Nat}

/-- Besides what the request has written, the logins that it has been answered stand in
the book, and it has set no client but one that logs in with it. -/
structure InLogin (ctx : RequestContext) (req : Request) (connection : Nat)
    (start : Service AccountBook Rest) (held : Answered) (s : Service AccountBook Rest) :
    Prop where
  inRequest : InRequest ctx req start.accounts held s
  pass : forall email pass token,
    held.Says (Call.authenticatePass email pass) (Except.ok (some token)) ->
      req = Request.authLoginPass email pass ∧
        start.accounts.read (Item.pass email) = some pass
  token : forall token email,
    held.Says (Call.authenticateToken token) (Except.ok (some email)) ->
      (req = Request.authLoginToken token ∨ req = Request.authLogout token) ∧
        exists time, start.accounts.read (Item.token token) = some (email, time)
  clients : forall n client, (s.contexts n).clientInfo = some client ->
    (start.contexts n).clientInfo = some client ∨
      (Service.Event.request connection req : Service.Event Rest).LogsIn start.accounts n client
  answers : s.answers = start.answers

theorem inLogin_start (ctx : RequestContext) (req : Request) (connection : Nat)
    (s : Service AccountBook Rest) : InLogin ctx req connection s ∅ s where
  inRequest := inRequest_start s ctx req
  pass := fun _ _ _ h => False.elim h
  token := fun _ _ h => False.elim h
  clients := fun _ _ h => Or.inl h
  answers := rfl

/-- A token is given out only for the password. -/
theorem read_pass_of_answer {luck : Luck} {book : AccountBook} {email pass token : Str}
    {answer : (Call.authenticatePass email pass).Answer}
    (h : (bookStore.perform luck book (Call.authenticatePass email pass) answer).1 =
      Except.ok (some token)) : book.read (Item.pass email) = some pass := by
  by_cases hpass : ((book.find? email).any fun account => account.pass = pass) = true
  · exact any_pass_iff.mp hpass
  · cases hfault : luck.fault with
    | some ec =>
        have hcall : bookStore.call luck book (Call.authenticatePass email pass) =
            some (Except.error ec, book) := by
          show book.authenticatePass luck.fault luck.now luck.draws email pass = _
          rw [hfault]
          rfl
        unfold Store.perform at h
        rw [hcall] at h
        cases h
    | none =>
        have hcall : bookStore.call luck book (Call.authenticatePass email pass) =
            some (Except.ok none, book) := by
          show book.authenticatePass luck.fault luck.now luck.draws email pass = _
          rw [hfault]
          exact if_neg hpass
        unfold Store.perform at h
        rw [hcall] at h
        cases h

/-- A token is recognised only if it stands in the book. -/
theorem read_token_of_answer {book : AccountBook} {fault : Option ErrorCode} {now : Nat}
    {token email : Str}
    (h : (book.authenticateToken fault now token).1 = Except.ok (some email)) :
    exists time, book.read (Item.token token) = some (email, time) := by
  unfold AccountBook.authenticateToken at h
  cases fault with
  | some ec => cases h
  | none =>
      cases htoken : book.tokens token with
      | none =>
          rw [htoken] at h
          cases h
      | some found =>
          rw [htoken] at h
          refine ⟨found.2, htoken.trans ?_⟩
          by_cases hexpired : found.2 < now
          · have hnone : (book.attempt none (if found.2 < now then
                ((none : Option Str), book.strikeTokens fun other _ => other = token)
              else (some found.1, book))).1 = Except.ok none := by
              rw [if_pos hexpired]
              rfl
            cases hnone.symm.trans h
          · have hsome : (book.attempt none (if found.2 < now then
                ((none : Option Str), book.strikeTokens fun other _ => other = token)
              else (some found.1, book))).1 = Except.ok (some found.1) := by
              rw [if_neg hexpired]
              rfl
            cases hsome.symm.trans h
            rfl

theorem inLogin_step (surroundings : Surroundings Rest)
    (h : InLogin ctx req connection start held s) {op : Op} (hop : Permitted ctx req held op) :
    InLogin ctx req connection start
      (insert ⟨op, ((Service.machine bookStore surroundings connection).perform op s).1⟩ held)
      ((Service.machine bookStore surroundings connection).perform op s).2 where
  inRequest := inRequest_step surroundings connection h.inRequest hop
  pass := by
    intro email pass token htold
    rcases says_insert htold with hold | ⟨rfl, hnew⟩
    · exact h.pass email pass token hold
    · rcases hop with ⟨hreq, _⟩
      exact ⟨hreq, h.inRequest.pass_login hreq (read_pass_of_answer (eq_of_heq hnew))⟩
  token := by
    intro token email htold
    rcases says_insert htold with hold | ⟨rfl, hnew⟩
    · exact h.token token email hold
    · rcases hop with ⟨hreq, _⟩
      refine ⟨hreq, ?_⟩
      rcases read_token_of_answer (eq_of_heq hnew) with ⟨time, hread⟩
      refine ⟨time, ?_⟩
      rcases h.inRequest.written (Item.token token) with hsame | hentitled
      · exact hsame.symm.trans hread
      · -- a request that shows a token does not make one
        rw [hread] at hentitled
        rcases hreq with rfl | rfl
        · cases hentitled.right
        · cases hentitled.right
  clients := by
    cases op with
    | setClientInfo found =>
        intro n client hclient
        by_cases hn : n = connection
        · have hset : ((Service.setClient s connection found).contexts n).clientInfo = found :=
            congrArg RequestContext.clientInfo (if_pos hn)
          have hfound : found = some client := hset.symm.trans hclient
          subst hfound
          rcases hop with ⟨hreq, ⟨pass, htold⟩ | htold⟩
          · rcases h.pass _ _ _ htold with ⟨hpass, hread⟩
            refine Or.inr (Or.inl ⟨pass, ?_, hread⟩)
            rw [hn, hpass]
          · rcases h.token _ _ htold with ⟨htoken, time, hread⟩
            refine Or.inr (Or.inr ⟨time, ?_, hread⟩)
            rcases hreq with ⟨pass, hreq⟩ | hreq
            · rcases htoken with htoken | htoken
              · cases hreq.symm.trans htoken
              · cases hreq.symm.trans htoken
            · rw [hn, hreq]
        · have hset : (Service.setClient s connection found).contexts n = s.contexts n :=
            if_neg hn
          apply h.clients n client
          rw [← hset]
          exact hclient
    | _ => exact h.clients
  answers := by
    cases op with
    | _ => exact h.answers

theorem request_inLogin (surroundings : Surroundings Rest) (validCron : Str -> Bool)
    (connection : Nat) (req : Request) (s : Service AccountBook Rest) :
    exists held, InLogin (s.contexts connection) req connection s held
      (s.handle bookStore surroundings validCron
        (Service.Event.request connection req)) := by
  have hguarded := mediated_dispatch validCron (s.contexts connection) ∅ req
  exact @keeps_of_guarded _ _ _ _ _ _ _ _ _
    (Service.machine bookStore surroundings connection)
    (InLogin (s.contexts connection) req connection s)
    (fun _ _ _ h hop => inLogin_step surroundings h hop) hguarded s
    (inLogin_start (s.contexts connection) req connection s)

end Requests

/-!
## The events of a run
-/

namespace Service

section Steps

variable (surroundings : Surroundings Rest) (validCron : Str -> Bool)
  (s : Service AccountBook Rest) (e : Event Rest)

theorem client_handle {n : Nat} {client : ClientInfo}
    (h : ((s.handle bookStore surroundings validCron e).contexts n).clientInfo =
      some client) :
    (s.contexts n).clientInfo = some client ∨ e.LogsIn s.accounts n client := by
  cases e with
  | request connection req =>
      rcases request_inLogin surroundings validCron connection req s with ⟨held, hlogin⟩
      exact hlogin.clients n client h
  | lookup luck q => exact Or.inl h
  | upkeep luck u => exact Or.inl h
  | outside rest => exact Or.inl h

theorem token_handle {value email : Str} {time : Nat}
    (h : (s.handle bookStore surroundings validCron e).accounts.read (Item.token value) =
      some (email, time)) :
    s.accounts.read (Item.token value) = some (email, time) ∨ e.Presents s.accounts email := by
  rcases handle_entitled surroundings validCron s e (Item.token value) with hsame | hnew
  · exact Or.inl (hsame.symm.trans h)
  · rw [h] at hnew
    cases e with
    | request connection req =>
        cases req with
        | authLoginPass owner pass =>
            rcases hnew with ⟨hpass, _, htime⟩
            cases htime
            exact Or.inr ⟨connection, pass, rfl, hpass⟩
        | authLoginToken token => cases hnew.right
        | authLogout token => cases hnew.right
        | adminUserDelete owner => cases hnew.right.left
        | _ => exact False.elim hnew
    | lookup luck q =>
        cases q with
        | authenticateToken token => cases hnew.right
        | _ => exact False.elim hnew
    | upkeep luck u =>
        cases u with
        | cleanup => cases hnew.right
        | _ => exact False.elim hnew
    | outside rest => exact False.elim hnew

theorem answer_handle {token email : Str}
    (h : ⟨Lookup.authenticateToken token, Except.ok (some email)⟩ ∈
      (s.handle bookStore surroundings validCron e).answers) :
    ⟨Lookup.authenticateToken token, Except.ok (some email)⟩ ∈ s.answers ∨
      exists time, s.accounts.read (Item.token token) = some (email, time) := by
  cases e with
  | request connection req =>
      rcases request_inLogin surroundings validCron connection req s with ⟨held, hlogin⟩
      rw [hlogin.answers] at h
      exact Or.inl h
  | lookup luck q =>
      rcases List.mem_append.mp h with hold | hnew
      · exact Or.inl hold
      · rcases Sigma.mk.inj_iff.mp (List.mem_singleton.mp hnew) with ⟨hq, hanswer⟩
        subst hq
        exact Or.inr (read_token_of_answer (eq_of_heq hanswer).symm)
  | upkeep luck u => exact Or.inl h
  | outside rest => exact Or.inl h

end Steps

/-- Behind every client stands a login on its own connection; behind every client, every
token and every token that has been recognised for an HTTP handler stands the password
of the account. -/
structure Authentic (surroundings : Surroundings Rest) (validCron : Str -> Bool)
    (rest : Rest) (es : List (Event Rest)) (s : Service Database Rest) : Prop where
  logins : forall n client, (s.contexts n).clientInfo = some client ->
    (system databaseStore surroundings validCron rest).Happened
      (fun u e => e.LogsIn (Database.book u.accounts) n client) es
  clients : forall n client, (s.contexts n).clientInfo = some client ->
    (system databaseStore surroundings validCron rest).Happened
      (fun u e => e.Presents (Database.book u.accounts) client.email) es
  tokens : forall value email time,
    (Database.book s.accounts).read (Item.token value) = some (email, time) ->
      (system databaseStore surroundings validCron rest).Happened
        (fun u e => e.Presents (Database.book u.accounts) email) es
  answers : forall token email,
    ⟨Lookup.authenticateToken token, Except.ok (some email)⟩ ∈ s.answers ->
      (system databaseStore surroundings validCron rest).Happened
        (fun u e => e.Presents (Database.book u.accounts) email) es

theorem authentic_step {surroundings : Surroundings Rest} {validCron : Str -> Bool}
    {rest : Rest} {es : List (Event Rest)} {s : Service Database Rest}
    (hrun : (system databaseStore surroundings validCron rest).runFrom
      (system databaseStore surroundings validCron rest).init es = some s)
    (h : Authentic surroundings validCron rest es s) (e : Event Rest) :
    Authentic surroundings validCron rest (es ++ [e])
      (s.handle databaseStore surroundings validCron e) := by
  rcases kept_of_run hrun with ⟨t, _, hkept⟩
  have hnext := kept_handle hkept surroundings validCron e
  have hpresents : forall {value email : Str} {time : Nat},
      (Database.book s.accounts).read (Item.token value) = some (email, time) ->
        (system databaseStore surroundings validCron rest).Happened
          (fun u e => e.Presents (Database.book u.accounts) email) (es ++ [e]) :=
    fun hvalue => (h.tokens _ _ _ hvalue).append [e]
  have hlogin : forall n client,
      ((s.handle databaseStore surroundings validCron e).contexts n).clientInfo =
          some client ->
        (s.contexts n).clientInfo = some client ∨
          e.LogsIn (Database.book s.accounts) n client := by
    intro n client hclient
    rw [hnext.contexts] at hclient
    rw [hkept.contexts, hkept.accounts]
    exact client_handle surroundings validCron t e hclient
  constructor
  · intro n client hclient
    rcases hlogin n client hclient with hold | hnew
    · exact (h.logins n client hold).append [e]
    · exact EventSystem.happened_last hrun hnew
  · intro n client hclient
    rcases hlogin n client hclient with hold | ⟨pass, he, hpass⟩ | ⟨time, _, htoken⟩
    · exact (h.clients n client hold).append [e]
    · exact EventSystem.happened_last hrun ⟨n, pass, he, hpass⟩
    · exact hpresents htoken
  · intro value email time hvalue
    rw [hnext.accounts] at hvalue
    rcases token_handle surroundings validCron t e hvalue with hold | hnew
    · rw [← hkept.accounts] at hold
      exact hpresents hold
    · rw [← hkept.accounts] at hnew
      exact EventSystem.happened_last hrun hnew
  · intro token email hanswer
    rw [hnext.answers] at hanswer
    rcases answer_handle surroundings validCron t e hanswer with hold | ⟨time, hvalue⟩
    · rw [← hkept.answers] at hold
      exact (h.answers token email hold).append [e]
    · rw [← hkept.accounts] at hvalue
      exact hpresents hvalue

theorem run_authentic (surroundings : Surroundings Rest) (validCron : Str -> Bool)
    (rest : Rest) (es : List (Event Rest)) :
    exists s, (system databaseStore surroundings validCron rest).runFrom
        (system databaseStore surroundings validCron rest).init es = some s ∧
      Authentic surroundings validCron rest es s := by
  rcases runFrom_isSome databaseStore surroundings validCron rest
    (system databaseStore surroundings validCron rest).init es with ⟨s, hs⟩
  refine ⟨s, hs, ?_⟩
  refine EventSystem.invariant_of_history ?_ ?_ hs
  · constructor
    · exact nofun
    · exact nofun
    · exact nofun
    · exact fun _ _ h => absurd h List.not_mem_nil
  · intro before u e v hbefore h hstep
    cases hstep
    exact authentic_step hbefore h e

end Service

end Websocket
end CisWebui
