import CisWebui.Database.AccountCalls
import CisWebui.Foundation.Refinement
import CisWebui.Http.Cookies
import CisWebui.Websocket.Privilege

/-!
# The server and its accounts

The server, with all its connections, over something that keeps the accounts: the
requests of the WebSocket clients, what the HTTP handlers look up, and the upkeep.
Files, clock and random numbers are given by the surroundings, and every call may
meet a failure.

Over the database and over the account book the server says the same.
-/

namespace CisWebui
namespace Websocket

open Cpp Foundation Database

/-!
## What keeps the accounts
-/

/-- What the HTTP handlers ask the managers for. -/
inductive Lookup where
  | authenticateToken (token : Str)
  | checkProjectRight (email project : Str)
  | getUserInfo (email : Str)
deriving DecidableEq, Repr

def Lookup.Answer : Lookup -> Type
  | authenticateToken _ => Fallible (Option Str)
  | checkProjectRight _ _ => Fallible (Option ProjectRights)
  | getUserInfo _ => Fallible (Option UserInfo)

/-- The calls at the start of the server, and that of the timer. -/
inductive Upkeep where
  | init (email pass : Str)
  | refreshProjects (names : List Str)
  | cleanup
deriving DecidableEq, Repr

structure Store (Accounts : Type) where
  empty : Accounts
  call : Luck -> Accounts -> (c : Call) -> Option (c.Answer × Accounts)
  projectCall : Luck -> Accounts -> (c : Call) -> c.Answer -> c.Answer × Accounts
  lookup : Luck -> Accounts -> (q : Lookup) -> q.Answer × Accounts
  upkeep : Luck -> Accounts -> Upkeep -> Accounts

/-- A call, with the answer of the surroundings: the store has an answer of its own, or
does what belongs to the call. -/
def Store.perform {Accounts : Type} (store : Store Accounts) (luck : Luck)
    (accounts : Accounts) (c : Call) (answer : c.Answer) : c.Answer × Accounts :=
  match store.call luck accounts c with
  | some result => result
  | none => store.projectCall luck accounts c answer

def databaseLookup (luck : Luck) (db : Database) : (q : Lookup) -> q.Answer × Database
  | Lookup.authenticateToken token =>
      AuthManager.authenticateToken luck.fault luck.now token db
  | Lookup.checkProjectRight email project =>
      (RightsManager.checkProjectRight luck.fault email project db, db)
  | Lookup.getUserInfo email => (AuthManager.getUserInfo luck.fault email db, db)

def databaseUpkeep (luck : Luck) (db : Database) : Upkeep -> Database
  | Upkeep.init email pass => (db.init luck.fault email pass).2
  | Upkeep.refreshProjects names => (CisManager.refreshProjects luck.fault names db).2
  | Upkeep.cleanup => (AuthManager.cleanup luck.fault luck.now db).2

def databaseStore : Store Database where
  empty := Database.empty
  call := databaseCall
  projectCall := projectCall
  lookup := databaseLookup
  upkeep := databaseUpkeep

/-- The calls of `databaseCall`, on the book. -/
def bookCall (luck : Luck) (book : AccountBook) :
    (c : Call) -> Option (c.Answer × AccountBook)
  | Call.authenticatePass email pass =>
      book.authenticatePass luck.fault luck.now luck.draws email pass
  | Call.authenticateToken token => some (book.authenticateToken luck.fault luck.now token)
  | Call.hasUser email => some (book.hasUser luck.fault email, book)
  | Call.generateApiKey email => some (book.generateApiKey luck.fault luck.key email)
  | Call.getApiKey email => some (book.getApiKey luck.fault email, book)
  | Call.removeApiKey email => some (book.removeApiKey luck.fault email)
  | Call.checkPass email pass =>
      some ((book.checkPass luck.fault email pass).mapError fun _ => Failure.database, book)
  | Call.changePass email newPass => some (book.changePass luck.fault email newPass)
  | Call.getUserInfos => some (book.getUserInfos luck.fault, book)
  | Call.deleteToken token => some (book.deleteToken luck.fault token)
  | Call.addUser email pass admin => some (book.addUser luck.fault email pass admin)
  | Call.deleteUser email => some (book.deleteUser luck.fault email)
  | Call.isAdmin email => some (book.isAdmin luck.fault email, book)
  | Call.setAdminStatus email admin => some (book.setAdminStatus luck.fault email admin)
  | Call.checkProjectRight email project =>
      some (book.checkProjectRight luck.fault email project, book)
  | Call.getPermissions email =>
      some ((book.getPermissions luck.fault email).map
        (List.map fun (name, rights) => { name := name, rights := rights }), book)
  | Call.getPermissionsByProject project =>
      some ((book.getPermissionsByProject luck.fault project).map
        (List.map fun (email, entry) =>
          { email := email, admin := entry.admin, rights := entry.rights }), book)
  | Call.setUserProjectPermissions email project rights =>
      some (book.setUserProjectPermissions luck.fault email project rights)
  | _ => none

def bookProjectCall (luck : Luck) (book : AccountBook) :
    (c : Call) -> c.Answer -> c.Answer × AccountBook
  | Call.createProject project, Except.ok directory =>
      let (answer, book) := book.createProject luck.fault directory project
      (Except.ok answer, book)
  | Call.removeProject _, Except.ok (Except.ok ()) =>
      let (answer, book) := book.removeProject luck.fault
      (Except.ok answer, book)
  | _, answer => (answer, book)

def bookLookup (luck : Luck) (book : AccountBook) : (q : Lookup) -> q.Answer × AccountBook
  | Lookup.authenticateToken token => book.authenticateToken luck.fault luck.now token
  | Lookup.checkProjectRight email project =>
      (book.checkProjectRight luck.fault email project, book)
  | Lookup.getUserInfo email => (book.getUserInfo luck.fault email, book)

def bookUpkeep (luck : Luck) (book : AccountBook) : Upkeep -> AccountBook
  | Upkeep.init email pass => (book.init luck.fault email pass).2
  | Upkeep.refreshProjects names => (book.refreshProjects luck.fault names).2
  | Upkeep.cleanup => (book.cleanup luck.fault luck.now).2

def bookStore : Store AccountBook where
  empty := AccountBook.empty
  call := bookCall
  projectCall := bookProjectCall
  lookup := bookLookup
  upkeep := bookUpkeep

/-!
## The server
-/

/-- The server with the contexts of its connections, and what it has said: the
replies, each with its connection, and the answers to the HTTP handlers. -/
structure Service (Accounts Rest : Type) where
  accounts : Accounts
  rest : Rest
  contexts : Nat -> RequestContext
  replies : List (Nat × Reply)
  answers : List (Sigma Lookup.Answer)

namespace Service

variable {Accounts Rest : Type}

inductive Event (Rest : Type) where
  | request (connection : Nat) (req : Request)
  | lookup (luck : Luck) (q : Lookup)
  | upkeep (luck : Luck) (u : Upkeep)
  /-- Something else happens. -/
  | outside (rest : Rest)

section Steps

variable (store : Store Accounts) (surroundings : Surroundings Rest)

def perform (c : Call) (s : Service Accounts Rest) : c.Answer × Service Accounts Rest :=
  let outside := surroundings.answer c s.rest
  let result := store.perform (surroundings.luck s.rest) s.accounts c outside.1
  (result.1, { s with accounts := result.2, rest := outside.2 })

def setClient (s : Service Accounts Rest) (connection : Nat) (client : Option ClientInfo) :
    Service Accounts Rest :=
  { s with
    contexts := fun n =>
      if n = connection then { s.contexts n with clientInfo := client } else s.contexts n }

/-- What the handlers of a connection work on. -/
def machine (connection : Nat) : Machine Op Op.Answer (Service Accounts Rest) where
  perform
    | Op.call c, s => perform store surroundings c s
    | Op.reply r, s => ((), { s with replies := s.replies ++ [(connection, r)] })
    | Op.replyMoved _, s => ((), s)
    | Op.setClientInfo client, s => ((), s.setClient connection client)

def handle (validCron : Str -> Bool) (s : Service Accounts Rest) :
    Event Rest -> Service Accounts Rest
  | Event.request connection req =>
      ((dispatch validCron (s.contexts connection) req).run
        (machine store surroundings connection) s).2
  | Event.lookup luck q =>
      let (answer, accounts) := store.lookup luck s.accounts q
      { s with accounts := accounts, answers := s.answers ++ [⟨q, answer⟩] }
  | Event.upkeep luck u => { s with accounts := store.upkeep luck s.accounts u }
  | Event.outside rest => { s with rest := rest }

def system (validCron : Str -> Bool) (rest : Rest) :
    EventSystem (Service Accounts Rest) (Event Rest) where
  init :=
    { accounts := store.empty
      rest := rest
      contexts := fun _ => Http.freshContext
      replies := []
      answers := [] }
  step := fun s e => some (s.handle store surroundings validCron e)

end Steps

/-- A connection of the server over the database is the server that the connection
sees. -/
def Seen (connection : Nat) (w : WebUi Rest) (s : Service Database Rest) : Prop :=
  s.accounts = w.database ∧ s.rest = w.rest ∧ s.contexts connection = w.ctx

theorem perform_webUi (surroundings : Surroundings Rest) (c : Call) (w : WebUi Rest) :
    surroundings.perform c w =
      let outside := surroundings.answer c w.rest
      let result := databaseStore.perform (surroundings.luck w.rest) w.database c outside.1
      (result.1, { w with database := result.2, rest := outside.2 }) := by
  unfold Surroundings.perform Store.perform databaseStore
  dsimp only
  cases databaseCall (surroundings.luck w.rest) w.database c with
  | none => rfl
  | some result => rfl

theorem webUi_refines (surroundings : Surroundings Rest) (connection : Nat) :
    surroundings.machine.Refines (machine databaseStore surroundings connection)
      (Seen connection) := by
  rintro op w s ⟨haccounts, hrest, hctx⟩
  cases op with
  | call c =>
      show (surroundings.perform c w).1 = (perform databaseStore surroundings c s).1 ∧
        Seen connection (surroundings.perform c w).2
          (perform databaseStore surroundings c s).2
      rw [perform_webUi]
      unfold perform
      rw [haccounts, hrest]
      exact ⟨rfl, rfl, rfl, hctx⟩
  | reply r => exact ⟨rfl, haccounts, hrest, hctx⟩
  | replyMoved r => exact ⟨rfl, haccounts, hrest, hctx⟩
  | setClientInfo client =>
      refine ⟨rfl, haccounts, hrest, ?_⟩
      show (if connection = connection then _ else _) = _
      rw [if_pos rfl, hctx]
      rfl

theorem seen_handle {connection : Nat} {w : WebUi Rest} {s : Service Database Rest}
    (h : Seen connection w s) (surroundings : Surroundings Rest) (validCron : Str -> Bool)
    (req : Request) :
    Seen connection (w.handle surroundings validCron (Input.request req))
      (s.handle databaseStore surroundings validCron (Event.request connection req)) := by
  show Seen connection (Program.run _ (dispatch validCron w.ctx req) w).2
    (Program.run _ (dispatch validCron (s.contexts connection) req) s).2
  rw [h.right.right]
  exact (Program.run_refines (webUi_refines surroundings connection) _ h).right

end Service

/-!
## The book in place of the database
-/

section Refinement

variable {db : Database}

theorem map_listPermissions (honce : RightsManager.OneRowEach db) (fault : Option ErrorCode)
    (email : Str) :
    (RightsManager.getPermissions fault email db).map listPermissions =
      ((book db).getPermissions fault email).map
        (List.map fun (name, rights) => { name := name, rights := rights }) := by
  rw [← getPermissions_book honce]
  cases RightsManager.getPermissions fault email db <;> rfl

theorem map_listUserPermissions (honce : RightsManager.OneRowEach db)
    (fault : Option ErrorCode) (project : Str) :
    (RightsManager.getPermissionsByProject fault project db).map listUserPermissions =
      ((book db).getPermissionsByProject fault project).map
        (List.map fun (email, entry) =>
          { email := email, admin := entry.admin, rights := entry.rights }) := by
  rw [← getPermissionsByProject_book honce]
  cases RightsManager.getPermissionsByProject fault project db <;> rfl

/-- A call that only reads. -/
theorem booked_read {α : Type} {a a' : α} (honce : RightsManager.OneRowEach db) (h : a = a') :
    Booked (a, db) (a', book db) :=
  ⟨h, rfl, honce⟩

theorem databaseCall_booked (luck : Luck) (honce : RightsManager.OneRowEach db) (c : Call) :
    Option.Rel Booked (databaseCall luck db c) (bookCall luck (book db) c) := by
  cases c with
  | authenticatePass email pass => exact booked_authenticatePass honce _ _ _ _ _
  | authenticateToken token => exact Option.Rel.some (booked_authenticateToken honce _ _ _)
  | hasUser email => exact Option.Rel.some (booked_read honce (hasUser_book _ _))
  | generateApiKey email => exact Option.Rel.some (booked_generateApiKey honce _ _ _)
  | getApiKey email => exact Option.Rel.some (booked_read honce (getApiKey_book _ _))
  | removeApiKey email => exact Option.Rel.some (booked_removeApiKey honce _ _)
  | checkPass email pass =>
      exact Option.Rel.some (booked_read honce
        (congrArg (Except.mapError _) (checkPass_book _ _ _)))
  | changePass email newPass => exact Option.Rel.some (booked_changePass honce _ _ _)
  | getUserInfos => exact Option.Rel.some (booked_read honce (getUserInfos_book _))
  | deleteToken token => exact Option.Rel.some (booked_deleteToken honce _ _)
  | addUser email pass admin => exact Option.Rel.some (booked_addUser honce _ _ _ _)
  | deleteUser email => exact Option.Rel.some (booked_deleteUser honce _ _)
  | isAdmin email => exact Option.Rel.some (booked_read honce (isAdmin_book _ _))
  | setAdminStatus email admin => exact Option.Rel.some (booked_setAdminStatus honce _ _ _)
  | checkProjectRight email project =>
      exact Option.Rel.some (booked_read honce (checkProjectRight_book honce _ _ _))
  | getPermissions email =>
      exact Option.Rel.some (booked_read honce (map_listPermissions honce _ _))
  | getPermissionsByProject project =>
      exact Option.Rel.some (booked_read honce (map_listUserPermissions honce _ _))
  | setUserProjectPermissions email project rights =>
      exact Option.Rel.some (booked_setUserProjectPermissions honce _ _ _ _)
  | _ => exact Option.Rel.none

theorem projectCall_booked (luck : Luck) (honce : RightsManager.OneRowEach db) (c : Call)
    (answer : c.Answer) :
    Booked (projectCall luck db c answer) (bookProjectCall luck (book db) c answer) := by
  cases c with
  | createProject project =>
      cases answer with
      | error f => exact booked_read honce rfl
      | ok directory =>
          have h := booked_createProject honce luck.fault directory project
          exact ⟨congrArg Except.ok h.answer, h.written, h.once⟩
  | removeProject project =>
      cases answer with
      | error f => exact booked_read honce rfl
      | ok removed =>
          cases removed with
          | error ec => exact booked_read honce rfl
          | ok _ =>
              have h := booked_removeProject honce luck.fault
                (FilesystemPath.filename project.path)
              exact ⟨congrArg Except.ok h.answer, h.written, h.once⟩
  | _ => exact booked_read honce rfl

theorem perform_booked (luck : Luck) (honce : RightsManager.OneRowEach db) (c : Call)
    (answer : c.Answer) :
    Booked (databaseStore.perform luck db c answer)
      (bookStore.perform luck (book db) c answer) := by
  have hcall := databaseCall_booked luck honce c
  unfold Store.perform databaseStore bookStore
  dsimp only
  cases hdatabase : databaseCall luck db c with
  | none =>
      rw [hdatabase] at hcall
      cases hbook : bookCall luck (book db) c with
      | none => exact projectCall_booked luck honce c answer
      | some result =>
          rw [hbook] at hcall
          cases hcall
  | some result =>
      rw [hdatabase] at hcall
      cases hbook : bookCall luck (book db) c with
      | none =>
          rw [hbook] at hcall
          cases hcall
      | some result' =>
          rw [hbook] at hcall
          cases hcall with
          | some hresult => exact hresult

theorem databaseLookup_booked (luck : Luck) (honce : RightsManager.OneRowEach db)
    (q : Lookup) : Booked (databaseLookup luck db q) (bookLookup luck (book db) q) := by
  cases q with
  | authenticateToken token => exact booked_authenticateToken honce _ _ _
  | checkProjectRight email project =>
      exact booked_read honce (checkProjectRight_book honce _ _ _)
  | getUserInfo email => exact booked_read honce (getUserInfo_book _ _)

theorem databaseUpkeep_booked (luck : Luck) (honce : RightsManager.OneRowEach db)
    (u : Upkeep) :
    book (databaseUpkeep luck db u) = bookUpkeep luck (book db) u ∧
      RightsManager.OneRowEach (databaseUpkeep luck db u) := by
  cases u with
  | init email pass =>
      have h := booked_init honce luck.fault email pass
      exact ⟨h.written, h.once⟩
  | refreshProjects names =>
      have h := booked_refreshProjects honce luck.fault names
      exact ⟨h.written, h.once⟩
  | cleanup =>
      have h := booked_cleanup honce luck.fault luck.now
      exact ⟨h.written, h.once⟩

end Refinement

namespace Service

variable {Rest : Type}

/-- The same server with the book of its database. -/
structure Kept (s : Service Database Rest) (t : Service AccountBook Rest) : Prop where
  accounts : book s.accounts = t.accounts
  once : RightsManager.OneRowEach s.accounts
  rest : s.rest = t.rest
  contexts : s.contexts = t.contexts
  replies : s.replies = t.replies
  answers : s.answers = t.answers

theorem kept_perform {s : Service Database Rest} {t : Service AccountBook Rest}
    (h : Kept s t) (surroundings : Surroundings Rest) (c : Call) :
    (perform databaseStore surroundings c s).1 = (perform bookStore surroundings c t).1 ∧
      Kept (perform databaseStore surroundings c s).2
        (perform bookStore surroundings c t).2 := by
  have hbooked := perform_booked (surroundings.luck s.rest) h.once c
    (surroundings.answer c s.rest).1
  unfold perform
  rw [← h.rest, ← h.accounts]
  exact ⟨hbooked.answer, hbooked.written, hbooked.once, rfl, h.contexts, h.replies, h.answers⟩

theorem machine_refines (surroundings : Surroundings Rest) (connection : Nat) :
    (machine databaseStore surroundings connection).Refines
      (machine bookStore surroundings connection) Kept := by
  intro op s t h
  cases op with
  | call c => exact kept_perform h surroundings c
  | reply r =>
      exact ⟨rfl, h.accounts, h.once, h.rest, h.contexts,
        congrArg (fun replies => replies ++ [(connection, r)]) h.replies, h.answers⟩
  | replyMoved r => exact ⟨rfl, h⟩
  | setClientInfo client =>
      refine ⟨rfl, h.accounts, h.once, h.rest, ?_, h.replies, h.answers⟩
      show (s.setClient connection client).contexts = (t.setClient connection client).contexts
      unfold setClient
      rw [h.contexts]

theorem kept_handle {s : Service Database Rest} {t : Service AccountBook Rest} (h : Kept s t)
    (surroundings : Surroundings Rest) (validCron : Str -> Bool) (e : Event Rest) :
    Kept (s.handle databaseStore surroundings validCron e)
      (t.handle bookStore surroundings validCron e) := by
  cases e with
  | request connection req =>
      show Kept (Program.run _ (dispatch validCron (s.contexts connection) req) s).2
        (Program.run _ (dispatch validCron (t.contexts connection) req) t).2
      rw [← h.contexts]
      exact (Program.run_refines (machine_refines surroundings connection) _ h).right
  | lookup luck q =>
      have hbooked := databaseLookup_booked luck h.once q
      rw [h.accounts] at hbooked
      refine ⟨hbooked.written, hbooked.once, h.rest, h.contexts, h.replies, ?_⟩
      show s.answers ++ [⟨q, (databaseLookup luck s.accounts q).1⟩] =
        t.answers ++ [⟨q, (bookLookup luck t.accounts q).1⟩]
      rw [hbooked.answer, h.answers]
  | upkeep luck u =>
      rcases databaseUpkeep_booked luck h.once u with ⟨hwritten, honce⟩
      rw [h.accounts] at hwritten
      exact ⟨hwritten, honce, h.rest, h.contexts, h.replies, h.answers⟩
  | outside rest => exact ⟨h.accounts, h.once, rfl, h.contexts, h.replies, h.answers⟩

theorem system_refines (surroundings : Surroundings Rest) (validCron : Str -> Bool)
    (rest : Rest) :
    (system databaseStore surroundings validCron rest).Refines
      (system bookStore surroundings validCron rest) Kept where
  init :=
    { accounts := rfl
      once := Table.unique_empty _
      rest := rfl
      contexts := rfl
      replies := rfl
      answers := rfl }
  step := fun _ _ e h => Option.Rel.some (kept_handle h surroundings validCron e)

/-- The server can always go on. -/
theorem runFrom_isSome {Accounts : Type} (store : Store Accounts)
    (surroundings : Surroundings Rest) (validCron : Str -> Bool) (rest : Rest)
    (s : Service Accounts Rest) (es : List (Event Rest)) :
    exists t, (system store surroundings validCron rest).runFrom s es = some t := by
  induction es generalizing s with
  | nil => exact ⟨s, rfl⟩
  | cons e more ih => exact ih (s.handle store surroundings validCron e)

/-- Whatever happens, the server says over its database what it says over the book. -/
theorem replies_eq_of_book (surroundings : Surroundings Rest) (validCron : Str -> Bool)
    (rest : Rest) (es : List (Event Rest)) :
    exists s t,
      (system databaseStore surroundings validCron rest).runFrom
          (system databaseStore surroundings validCron rest).init es = some s ∧
        (system bookStore surroundings validCron rest).runFrom
          (system bookStore surroundings validCron rest).init es = some t ∧
        s.replies = t.replies ∧ s.answers = t.answers ∧ s.contexts = t.contexts ∧
        book s.accounts = t.accounts := by
  have hrefines := system_refines surroundings validCron rest
  rcases runFrom_isSome databaseStore surroundings validCron rest
    (system databaseStore surroundings validCron rest).init es with ⟨s, hs⟩
  rcases runFrom_isSome bookStore surroundings validCron rest
    (system bookStore surroundings validCron rest).init es with ⟨t, ht⟩
  have hrun := EventSystem.runFrom_refines hrefines hrefines.init es
  rw [hs, ht] at hrun
  cases hrun with
  | some h => exact ⟨s, t, hs, ht, h.replies, h.answers, h.contexts, h.accounts⟩

end Service
end Websocket
end CisWebui
