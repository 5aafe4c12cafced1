import CisWebui.Database.AccountBook
import CisWebui.Database.ProjectRows

/-!
# The calls of the managers in the account book

Every call of `auth_manager` and `rights_manager`, and what `cis_manager` does to
the table of projects, as a call on the book.  The database gives the same answer,
and its book afterwards is the one that the call has left.
-/

namespace CisWebui

open Cpp Foundation Database AuthManager RightsManager

variable {α : Type}

namespace AccountBook

/-!
## Calls on the book
-/

/-- A call that does what it does, or meets a failure and does nothing. -/
def attempt (book : AccountBook) (fault : Option ErrorCode) (result : α × AccountBook) :
    Fallible α × AccountBook :=
  match fault with
  | some ec => (Except.error ec, book)
  | none => (Except.ok result.1, result.2)

/-- The draws are tried until one is good and not in use. -/
def authenticatePass (fault : Option ErrorCode) (now : Nat) (draws : List Draw)
    (email pass : Str) (book : AccountBook) :
    Option (Fallible (Option Str) × AccountBook) :=
  match fault with
  | some ec => some (Except.error ec, book)
  | none =>
      if (book.find? email).any fun account => account.pass = pass then
        (draws.find? fun draw => draw.fault.isNone && (book.tokens draw.value).isNone).map
          fun draw =>
            (Except.ok (some draw.value), book.issueToken draw.value email (now + week))
      else
        some (Except.ok none, book)

def authenticateToken (fault : Option ErrorCode) (now : Nat) (value : Str)
    (book : AccountBook) : Fallible (Option Str) × AccountBook :=
  book.attempt fault <|
    match book.tokens value with
    | some (email, time) =>
        if time < now then (none, book.strikeTokens fun other _ => other = value)
        else (some email, book)
    | none => (none, book)

def deleteToken (fault : Option ErrorCode) (value : Str) (book : AccountBook) :
    Fallible Bool × AccountBook :=
  book.attempt fault (true, book.strikeTokens fun other _ => other = value)

def cleanup (fault : Option ErrorCode) (now : Nat) (book : AccountBook) :
    Fallible Unit × AccountBook :=
  book.attempt fault ((), book.strikeTokens fun _ time => time < now)

def hasUser (fault : Option ErrorCode) (email : Str) (book : AccountBook) : Fallible Bool :=
  query fault (book.find? email).isSome

def checkPass (fault : Option ErrorCode) (email pass : Str) (book : AccountBook) :
    Fallible Bool :=
  query fault ((book.find? email).any fun account => account.pass = pass)

def addUser (fault : Option ErrorCode) (email pass : Str) (admin : Bool)
    (book : AccountBook) : Fallible Bool × AccountBook :=
  book.attempt fault <|
    match book.find? email with
    | none =>
        (true, book.openAccount
          { email := email, pass := pass, admin := admin, apiAccessKey := none })
    | some _ => (false, book)

/-- A call that does something to the account with the email, if there is one. -/
def onAccount (book : AccountBook) (fault : Option ErrorCode) (email : Str)
    (write : AccountBook) : Fallible Bool × AccountBook :=
  book.attempt fault (if (book.find? email).isSome then (true, write) else (false, book))

def deleteUser (fault : Option ErrorCode) (email : Str) (book : AccountBook) :
    Fallible Bool × AccountBook :=
  book.onAccount fault email (book.closeAccount email)

def changePass (fault : Option ErrorCode) (email newPass : Str) (book : AccountBook) :
    Fallible Bool × AccountBook :=
  if newPass = [] then (Except.ok false, book)
  else
    book.onAccount fault email
      (book.changeAccount email fun account => { account with pass := newPass })

def setAdminStatus (fault : Option ErrorCode) (email : Str) (admin : Bool)
    (book : AccountBook) : Fallible Bool × AccountBook :=
  book.onAccount fault email
    (book.changeAccount email fun account => { account with admin := admin })

/-- A key is given to an account that has none, if nobody has it. -/
def generateApiKey (fault : Option ErrorCode) (draw : Draw) (email : Str)
    (book : AccountBook) : Fallible (Option Str) × AccountBook :=
  book.attempt fault <|
    if (book.find? email).any (fun account => account.apiAccessKey.isNone) = true ∧
        draw.fault = none ∧ ¬ book.HasKey draw.value then
      (some draw.value, book.changeAccount email fun account =>
        { account with apiAccessKey := some draw.value })
    else
      (none, book)

def getApiKey (fault : Option ErrorCode) (email : Str) (book : AccountBook) :
    Fallible (Option Str) :=
  query fault ((book.find? email).bind Account.apiAccessKey)

def removeApiKey (fault : Option ErrorCode) (email : Str) (book : AccountBook) :
    Fallible Bool × AccountBook :=
  book.attempt fault <|
    if ((book.find? email).bind Account.apiAccessKey).isSome then
      (true, book.changeAccount email fun account => { account with apiAccessKey := none })
    else
      (false, book)

def userInfo (account : Account) : UserInfo where
  email := account.email
  apiAccessKey := account.apiAccessKey
  isAdmin := account.admin

def getUserInfo (fault : Option ErrorCode) (email : Str) (book : AccountBook) :
    Fallible (Option UserInfo) :=
  query fault ((book.find? email).map userInfo)

def getUserInfos (fault : Option ErrorCode) (book : AccountBook) :
    Fallible (List UserInfo) :=
  query fault (book.accounts.map userInfo)

def isAdmin (fault : Option ErrorCode) (email : Str) (book : AccountBook) : Fallible Bool :=
  query fault ((book.find? email).any Account.admin)

/-- What the owner of an account may do in a project. -/
def rightsOf (book : AccountBook) (project : Str) (account : Account) :
    Option ProjectRights :=
  if account.admin then some allRights else book.rights account.email project

def checkProjectRight (fault : Option ErrorCode) (email project : Str)
    (book : AccountBook) : Fallible (Option ProjectRights) :=
  query fault <|
    if project ∈ book.projects then (book.find? email).bind (book.rightsOf project) else none

/-- All projects, in the order of their names. -/
def getPermissions (fault : Option ErrorCode) (email : Str) (book : AccountBook) :
    Fallible (List (Str × ProjectRights)) :=
  query fault <|
    match book.find? email with
    | some account =>
        book.projects.sort.map fun project =>
          (project, (book.rightsOf project account).getD noRights)
    | none => []

def emails (book : AccountBook) : Finset Str :=
  (book.accounts.map Account.email).toFinset

/-- All accounts, in the order of their emails. -/
def getPermissionsByProject (fault : Option ErrorCode) (project : Str)
    (book : AccountBook) : Fallible (List (Str × ProjectRightsEx)) :=
  query fault <|
    if project ∈ book.projects then
      book.emails.sort.map fun email =>
        (email,
          { admin := (book.find? email).any Account.admin
            rights := ((book.find? email).bind (book.rightsOf project)).getD noRights })
    else
      []

def setUserProjectPermissions (fault : Option ErrorCode) (email project : Str)
    (rights : ProjectRights) (book : AccountBook) : Fallible Bool × AccountBook :=
  book.attempt fault <|
    if (book.find? email).isSome = true ∧ project ∈ book.projects then
      (true, book.setRights email project rights)
    else
      (false, book)

/-- The first account. -/
def init (fault : Option ErrorCode) (email pass : Str) (book : AccountBook) :
    Fallible Unit × AccountBook :=
  match fault, book.find? email with
  | some ec, _ => (Except.error ec, book)
  | none, some _ => (Except.error constraintFailed, book)
  | none, none =>
      (Except.ok (), book.openAccount
        { email := email, pass := pass, admin := true, apiAccessKey := none })

def refreshProjects (fault : Option ErrorCode) (names : List Str) (book : AccountBook) :
    Fallible Unit × AccountBook :=
  book.attempt fault ((), names.foldl enterProject book)

def createProject (fault : Option ErrorCode) (directory : Fallible Unit) (name : Str)
    (book : AccountBook) : Fallible Unit × AccountBook :=
  match directory with
  | Except.error ec => (Except.error ec, book)
  | Except.ok _ => book.attempt fault ((), book.enterProject name)

/-- The name of a removed project stays in the book. -/
def removeProject (fault : Option ErrorCode) (book : AccountBook) :
    Fallible Unit × AccountBook :=
  book.attempt fault ((), book)

end AccountBook

/-- `auth_manager::get_user_info` -/
def AuthManager.getUserInfo (fault : Option ErrorCode) (email : Str) (db : Database) :
    Fallible (Option UserInfo) :=
  query fault <|
    match withEmail db email with
    | [user] =>
        some { email := email, apiAccessKey := keyOf db user.id, isAdmin := user.row.admin }
    | _ => none

/-!
## The same answers, and the same book
-/

namespace Database

/-- A call has the answer of the call on the book, and leaves the book that this
has left. -/
structure Booked (result : α × Database) (result' : α × AccountBook) : Prop where
  answer : result.1 = result'.1
  written : book result.2 = result'.2
  once : OneRowEach result.2

section Calls

variable {db : Database}

theorem booked_transaction {a : α} {db' : Database} {body : Except ErrorCode (α × Database)}
    {body' : α × AccountBook} (honce : OneRowEach db) (fault : Option ErrorCode)
    (hbody : body = Except.ok (a, db')) (hanswer : a = body'.1)
    (hwritten : book db' = body'.2) (honce' : OneRowEach db') :
    Booked (db.transaction fault body) ((book db).attempt fault body') := by
  rw [hbody]
  cases fault with
  | some ec => exact ⟨rfl, rfl, honce⟩
  | none => exact ⟨congrArg Except.ok hanswer, hwritten, honce'⟩

/-- A call that writes nothing. -/
theorem booked_quiet {a : α} {body : Except ErrorCode (α × Database)}
    {body' : α × AccountBook} (honce : OneRowEach db) (fault : Option ErrorCode)
    (hbody : body = Except.ok (a, db)) (hbody' : body' = (a, book db)) :
    Booked (db.transaction fault body) ((book db).attempt fault body') := by
  rw [hbody']
  exact booked_transaction honce fault hbody rfl rfl honce

theorem booked_onAccount {change : Record User -> Database} {write : AccountBook}
    (honce : OneRowEach db) (fault : Option ErrorCode) (email : Str)
    (hchange : forall user, user ∈ db.users.records -> user.row.email = email ->
      book (change user) = write ∧ OneRowEach (change user)) :
    Booked
      (db.transaction fault <|
        match withEmail db email with
        | [found] => Except.ok (true, change found)
        | _ => Except.ok (false, db))
      ((book db).onAccount fault email write) := by
  unfold AccountBook.onAccount
  rcases withEmail_cases db email with ⟨user, huser, rfl, hselect⟩ | ⟨hfresh, hselect⟩
  · rcases hchange user huser rfl with ⟨hwritten, honce'⟩
    rw [hselect, find?_book_of_mem huser]
    exact booked_transaction honce fault rfl rfl hwritten honce'
  · rw [hselect, find?_book_of_fresh hfresh]
    exact booked_quiet honce fault rfl rfl

/-!
### Reading
-/

theorem hasUser_book (fault : Option ErrorCode) (email : Str) :
    AuthManager.hasUser fault email db = (book db).hasUser fault email := by
  unfold AuthManager.hasUser AccountBook.hasUser
  rcases withEmail_find? db email with ⟨user, _, _, hselect, hfind⟩ | ⟨_, hselect, hfind⟩
  · rw [hselect, hfind]
    rfl
  · rw [hselect, hfind]
    rfl

/-- The credentials are those of the one account with the email. -/
theorem select_credentials_book (db : Database) (email pass : Str) :
    (exists user, user ∈ db.users.records ∧ user.row.email = email ∧
        (db.users.select fun user => user.row.email = email && user.row.pass = pass) = [user] ∧
        ((book db).find? email).any (fun account => account.pass = pass) = true) ∨
      ((db.users.select fun user => user.row.email = email && user.row.pass = pass) = [] ∧
        ((book db).find? email).any (fun account => account.pass = pass) = false) := by
  rcases select_credentials db email pass with
    ⟨user, huser, rfl, rfl, hselect⟩ | ⟨hunknown, hselect⟩
  · refine Or.inl ⟨user, huser, rfl, hselect, ?_⟩
    rw [find?_book_of_mem huser]
    exact decide_eq_true rfl
  · refine Or.inr ⟨hselect, ?_⟩
    rcases withEmail_find? db email with ⟨user, huser, rfl, _, hfind⟩ | ⟨_, _, hfind⟩
    · rw [hfind]
      exact decide_eq_false fun hpass => hunknown ⟨user, huser, rfl, hpass⟩
    · rw [hfind]
      rfl

theorem checkPass_book (fault : Option ErrorCode) (email pass : Str) :
    AuthManager.checkPass fault email pass db = (book db).checkPass fault email pass := by
  unfold AuthManager.checkPass AccountBook.checkPass
  rcases select_credentials_book db email pass with
    ⟨user, _, _, hselect, hany⟩ | ⟨hselect, hany⟩
  · rw [hselect, hany]
    rfl
  · rw [hselect, hany]
    rfl

theorem getUserInfo_book (fault : Option ErrorCode) (email : Str) :
    AuthManager.getUserInfo fault email db = (book db).getUserInfo fault email := by
  unfold AuthManager.getUserInfo AccountBook.getUserInfo
  rcases withEmail_find? db email with ⟨user, _, rfl, hselect, hfind⟩ | ⟨_, hselect, hfind⟩
  · rw [hselect, hfind]
    rfl
  · rw [hselect, hfind]
    rfl

theorem getUserInfos_book (fault : Option ErrorCode) :
    AuthManager.getUserInfos fault db = (book db).getUserInfos fault := by
  unfold AuthManager.getUserInfos AccountBook.getUserInfos
  show query fault _ = query fault ((db.users.records.map (account db)).map _)
  rw [List.map_map]
  rfl

theorem isAdmin_book (fault : Option ErrorCode) (email : Str) :
    RightsManager.isAdmin fault email db = (book db).isAdmin fault email := by
  unfold RightsManager.isAdmin AccountBook.isAdmin
  rcases withEmail_find? db email with ⟨user, _, _, hselect, hfind⟩ | ⟨_, hselect, hfind⟩
  · rw [hselect, hfind]
    rfl
  · rw [hselect, hfind]
    rfl

theorem getApiKey_book (fault : Option ErrorCode) (email : Str) :
    AuthManager.getApiKey fault email db = (book db).getApiKey fault email := by
  unfold AuthManager.getApiKey AccountBook.getApiKey
  apply congrArg (query fault)
  rcases keysOf_cases db email with ⟨key, user, _, _, _, _, hkeys, hkey⟩ | ⟨hkeys, hnone⟩
  · rw [hkeys, hkey]
  · rw [hkeys, hnone]

theorem checkProjectRight_book (honce : OneRowEach db) (fault : Option ErrorCode)
    (email project : Str) :
    RightsManager.checkProjectRight fault email project db =
      (book db).checkProjectRight fault email project := by
  unfold RightsManager.checkProjectRight AccountBook.checkProjectRight
  apply congrArg (query fault)
  rcases withName_cases db project with ⟨found, hfound, rfl, hname⟩ | ⟨hfresh, hname⟩
  · rw [if_pos (mem_projects_book.mpr ⟨found.id, named_of_mem hfound⟩), hname]
    rcases withEmail_find? db email with ⟨user, huser, rfl, hselect, hfind⟩ | ⟨_, hselect, hfind⟩
    · rw [hselect, hfind]
      show _ = AccountBook.rightsOf _ _ (account db user)
      unfold AccountBook.rightsOf
      show _ = if user.row.admin then _ else (book db).rights user.row.email found.row.name
      unfold book
      dsimp only
      rw [hselect, hname]
      dsimp only
      rcases rightsOn_cases honce user.id found.id with hrows | ⟨right, hrows⟩
      · rw [hrows]
        rfl
      · rw [hrows]
        rfl
    · rw [hselect, hfind]
      rfl
  · rw [if_neg, hname]
    · rcases withEmail_find? db email with ⟨user, _, _, hselect, _⟩ | ⟨_, hselect, _⟩
      · rw [hselect]
      · rw [hselect]
    · intro hmem
      rcases mem_projects_book.mp hmem with ⟨_, other, hother, _, hother'⟩
      exact hfresh other hother hother'

/-!
### Writing
-/

theorem booked_addUser (honce : OneRowEach db) (fault : Option ErrorCode) (email pass : Str)
    (admin : Bool) :
    Booked (AuthManager.addUser fault email pass admin db)
      ((book db).addUser fault email pass admin) := by
  unfold AuthManager.addUser AccountBook.addUser
  rcases withEmail_find? db email with ⟨user, _, _, hselect, hfind⟩ | ⟨hfresh, hselect, hfind⟩
  · rw [hselect, hfind]
    exact booked_quiet honce fault rfl rfl
  · rw [hselect, hfind]
    rcases insertUser_of_fresh { email := email, pass := pass, admin := admin } hfresh with
      ⟨db', hinsert⟩
    apply booked_transaction honce fault
    · show (db.insertUser _ >>= _) = Except.ok (true, db')
      rw [hinsert]
      rfl
    · rfl
    · exact book_insertUser honce hinsert
    · exact oneRowEach_of_eq honce (insertUser_ok hinsert).right.right.left

theorem booked_init (honce : OneRowEach db) (fault : Option ErrorCode) (email pass : Str) :
    Booked (db.init fault email pass) ((book db).init fault email pass) := by
  unfold Database.init AccountBook.init
  cases fault with
  | some ec => exact ⟨rfl, rfl, honce⟩
  | none =>
      rcases withEmail_find? db email with ⟨user, huser, rfl, _, hfind⟩ | ⟨hfresh, _, hfind⟩
      · rw [hfind]
        unfold insertUser
        rw [dif_neg fun h => h user huser rfl]
        exact ⟨rfl, rfl, honce⟩
      · rw [hfind]
        rcases insertUser_of_fresh { email := email, pass := pass, admin := true } hfresh with
          ⟨db', hinsert⟩
        rw [hinsert]
        exact ⟨rfl, book_insertUser honce hinsert,
          oneRowEach_of_eq honce (insertUser_ok hinsert).right.right.left⟩

theorem booked_deleteUser (honce : OneRowEach db) (fault : Option ErrorCode) (email : Str) :
    Booked (AuthManager.deleteUser fault email db) ((book db).deleteUser fault email) := by
  apply booked_onAccount honce fault email
  rintro user huser rfl
  exact ⟨book_removeUser honce huser, Table.unique_remove _ honce⟩

theorem booked_changePass (honce : OneRowEach db) (fault : Option ErrorCode)
    (email newPass : Str) :
    Booked (AuthManager.changePass fault email newPass db)
      ((book db).changePass fault email newPass) := by
  unfold AuthManager.changePass AccountBook.changePass
  split
  · exact ⟨rfl, rfl, honce⟩
  · apply booked_onAccount honce fault email
    rintro user huser rfl
    exact ⟨book_updateUsers honce huser fun _ _ => rfl, honce⟩

theorem booked_setAdminStatus (honce : OneRowEach db) (fault : Option ErrorCode)
    (email : Str) (admin : Bool) :
    Booked (RightsManager.setAdminStatus fault email admin db)
      ((book db).setAdminStatus fault email admin) := by
  apply booked_onAccount honce fault email
  rintro user huser rfl
  exact ⟨book_updateUsers honce huser fun _ _ => rfl, honce⟩

theorem booked_deleteToken (honce : OneRowEach db) (fault : Option ErrorCode) (value : Str) :
    Booked (AuthManager.deleteToken fault value db) ((book db).deleteToken fault value) :=
  booked_transaction honce fault rfl rfl
    (book_removeTokens honce fun other _ => other = value) honce

theorem booked_cleanup (honce : OneRowEach db) (fault : Option ErrorCode) (now : Nat) :
    Booked (AuthManager.cleanup fault now db) ((book db).cleanup fault now) :=
  booked_transaction honce fault rfl rfl
    (book_removeTokens honce fun _ time => time < now) honce

/-- The tokens with a value are the one in the book, or none. -/
theorem select_token_cases (db : Database) (value : Str) :
    (exists token user, user ∈ db.users.records ∧ user.id = token.row.userId ∧
        (db.tokens.select fun token => token.row.value = value) = [token] ∧
        (book db).tokens value = some (user.row.email, token.row.expirationTime)) ∨
      (db.tokens.Fresh Token.value value ∧
        (db.tokens.select fun token => token.row.value = value) = [] ∧
        (book db).tokens value = none) := by
  rcases Table.select_key_cases db.unique_token value with
    ⟨token, htoken, hvalue, hselect⟩ | ⟨hfresh, hselect⟩
  · rcases db.token_user token htoken with ⟨user, huser, hid⟩
    exact Or.inl ⟨token, user, huser, hid, hselect,
      tokens_book.mpr ⟨token, htoken, hvalue, rfl, user, huser, hid, rfl⟩⟩
  · refine Or.inr ⟨hfresh, hselect, ?_⟩
    rw [Option.eq_none_iff_forall_ne_some]
    rintro ⟨email, time⟩ hsome
    rcases tokens_book.mp hsome with ⟨token, htoken, hvalue, _⟩
    exact hfresh token htoken hvalue

theorem booked_authenticateToken (honce : OneRowEach db) (fault : Option ErrorCode)
    (now : Nat) (value : Str) :
    Booked (AuthManager.authenticateToken fault now value db)
      ((book db).authenticateToken fault now value) := by
  unfold AuthManager.authenticateToken AccountBook.authenticateToken
  rcases select_token_cases db value with
    ⟨token, user, huser, hid, hselect, htoken⟩ | ⟨_, hselect, hnone⟩
  · rw [hselect, htoken]
    dsimp only
    by_cases hexpired : token.row.expirationTime < now
    · rw [if_pos hexpired, if_pos hexpired]
      exact booked_transaction honce fault rfl rfl
        (book_removeTokens honce fun other _ => other = value) honce
    · rw [if_neg hexpired, if_neg hexpired]
      have hone : (db.users.select fun other => other.id = token.row.userId) = [user] := by
        apply Table.select_eq_singleton huser (decide_eq_true hid)
        intro other hother hother'
        exact Table.eq_of_id hother huser ((of_decide_eq_true hother').trans hid.symm)
      rw [hone]
      exact booked_quiet honce fault rfl rfl
  · rw [hselect, hnone]
    exact booked_quiet honce fault rfl rfl

theorem isNone_tokens_book {value : Str} :
    ((book db).tokens value).isNone = true <-> db.tokens.Fresh Token.value value := by
  rcases select_token_cases db value with
    ⟨token, user, _, _, hselect, htoken⟩ | ⟨hfresh, _, hnone⟩
  · rw [htoken]
    apply iff_of_false
    · exact nofun
    · intro hfresh
      rcases Table.mem_of_select hselect with ⟨hmem, hvalue⟩
      exact hfresh token hmem (of_decide_eq_true hvalue)
  · rw [hnone]
    exact iff_of_true rfl hfresh

/-- The loop takes the first draw that is good and not in use. -/
theorem generateToken_book {user : Record User} (huser : user ∈ db.users.records)
    (time : Nat) (draws : List Draw) :
    (generateToken db user.id time draws).map Prod.fst =
      (draws.find? fun draw =>
        draw.fault.isNone && ((book db).tokens draw.value).isNone).map Draw.value := by
  induction draws with
  | nil => rfl
  | cons draw rest ih =>
      have htakes := takes_iff ⟨user, huser, rfl⟩ time draw
      rw [generateToken, List.find?_cons]
      split
      · rename_i hfault hinsert
        rcases htakes.mpr ⟨hfault, _, hinsert⟩ with ⟨_, hfresh⟩
        rw [hfault, isNone_tokens_book.mpr hfresh]
        rfl
      · rename_i hfailed
        have hnot : (draw.fault.isNone && ((book db).tokens draw.value).isNone) = false := by
          rw [Bool.and_eq_false_imp, Bool.eq_false_iff]
          intro hfault hnone
          rcases htakes.mp ⟨Option.isNone_iff_eq_none.mp hfault,
            isNone_tokens_book.mp hnone⟩ with ⟨hgood, db', hinsert⟩
          exact hfailed db' hgood hinsert
        rw [hnot]
        exact ih

theorem booked_authenticatePass (honce : OneRowEach db) (fault : Option ErrorCode) (now : Nat)
    (draws : List Draw) (email pass : Str) :
    Option.Rel Booked (AuthManager.authenticatePass fault now draws email pass db)
      ((book db).authenticatePass fault now draws email pass) := by
  unfold AuthManager.authenticatePass AccountBook.authenticatePass
  cases fault with
  | some ec => exact Option.Rel.some ⟨rfl, rfl, honce⟩
  | none =>
      dsimp only
      rcases select_credentials_book db email pass with
        ⟨user, huser, rfl, hselect, hany⟩ | ⟨hselect, hany⟩
      · rw [hselect, hany, if_pos rfl]
        dsimp only
        have hloop := generateToken_book huser (now + week) draws
        cases hgenerate : generateToken db user.id (now + week) draws with
        | none =>
            rw [hgenerate] at hloop
            rw [Option.map_eq_none_iff.mp hloop.symm]
            exact Option.Rel.none
        | some generated =>
            rcases generated with ⟨token, db'⟩
            rw [hgenerate] at hloop
            rcases Option.map_eq_some_iff.mp hloop.symm with ⟨draw, hdraw, rfl⟩
            rw [hdraw]
            have hinsert := generateToken_some hgenerate
            refine Option.Rel.some ⟨rfl, ?_, ?_⟩
            · exact book_insertToken honce (owner_of_mem huser) hinsert
            · exact oneRowEach_of_eq honce (insertToken_ok hinsert).right.right.right.left
      · rw [hselect, hany, if_neg Bool.false_ne_true]
        exact Option.Rel.some ⟨rfl, rfl, honce⟩

/-!
### Keys
-/

theorem keyOf_eq_none_iff {id : Nat} :
    keyOf db id = none <-> db.apiAccessKeys.Fresh ApiAccessKey.userId id := by
  rw [Option.eq_none_iff_forall_ne_some]
  constructor
  · intro h key hkey hid
    exact h key.row.value (keyOf_eq_some_iff.mpr ⟨key, hkey, hid, rfl⟩)
  · intro h value hvalue
    rcases keyOf_eq_some_iff.mp hvalue with ⟨key, hkey, hid, _⟩
    exact h key hkey hid

theorem not_hasKey_book {value : Str} :
    ¬ (book db).HasKey value <-> db.apiAccessKeys.Fresh ApiAccessKey.value value := by
  constructor
  · intro h key hkey hvalue
    rcases db.key_user key hkey with ⟨user, huser, hid⟩
    exact h ⟨account db user, List.mem_map_of_mem huser,
      keyOf_eq_some_iff.mpr ⟨key, hkey, hid.symm, hvalue⟩⟩
  · rintro h ⟨_, hmem, hkey⟩
    rcases List.mem_map.mp hmem with ⟨user, _, rfl⟩
    rcases keyOf_eq_some_iff.mp hkey with ⟨key, hkey', _, hvalue⟩
    exact h key hkey' hvalue

/-- The database takes a key when its user has none and nobody has it. -/
theorem insertApiAccessKey_iff {user : Record User} (huser : user ∈ db.users.records)
    (value : Str) :
    (exists db', db.insertApiAccessKey { userId := user.id, value := value } =
        Except.ok db') <->
      keyOf db user.id = none ∧ ¬ (book db).HasKey value := by
  rw [keyOf_eq_none_iff, not_hasKey_book]
  unfold insertApiAccessKey
  constructor
  · rintro ⟨db', h⟩
    split at h
    · rename_i hfits
      exact hfits.left
    · cases h
  · intro h
    rw [dif_pos ⟨h, user, huser, rfl⟩]
    exact ⟨_, rfl⟩

theorem booked_generateApiKey (honce : OneRowEach db) (fault : Option ErrorCode)
    (draw : Draw) (email : Str) :
    Booked (AuthManager.generateApiKey fault draw email db)
      ((book db).generateApiKey fault draw email) := by
  unfold AuthManager.generateApiKey AccountBook.generateApiKey
  rcases withEmail_find? db email with ⟨user, huser, rfl, hselect, hfind⟩ | ⟨_, hselect, hfind⟩
  · rw [hselect, hfind]
    dsimp only
    have htaken := insertApiAccessKey_iff huser draw.value
    split
    · rename_i db' hfault hinsert
      rcases htaken.mp ⟨db', hinsert⟩ with ⟨hnone, hfree⟩
      rw [if_pos ⟨Option.isNone_iff_eq_none.mpr hnone, hfault, hfree⟩]
      exact booked_transaction honce fault rfl rfl (book_insertApiAccessKey honce huser hinsert)
        (oneRowEach_of_eq honce (insertApiAccessKey_ok hinsert).right.right.right.left)
    · rename_i hfailed
      rw [if_neg]
      · exact booked_quiet honce fault rfl rfl
      · rintro ⟨hnone, hfault, hfree⟩
        rcases htaken.mpr ⟨Option.isNone_iff_eq_none.mp hnone, hfree⟩ with ⟨db', hinsert⟩
        exact hfailed db' hfault hinsert
  · rw [hselect, hfind]
    exact booked_quiet honce fault rfl (if_neg fun h => Bool.false_ne_true h.left)

theorem booked_removeApiKey (honce : OneRowEach db) (fault : Option ErrorCode)
    (email : Str) :
    Booked (AuthManager.removeApiKey fault email db)
      ((book db).removeApiKey fault email) := by
  unfold AuthManager.removeApiKey AccountBook.removeApiKey
  rcases keysOf_cases db email with
    ⟨key, user, hkey, huser, hid, rfl, hkeys, hsome⟩ | ⟨hkeys, hnone⟩
  · rw [hkeys, hsome]
    exact booked_transaction honce fault rfl rfl
      (book_removeApiAccessKeys honce huser hkey hid) honce
  · rw [hkeys, hnone]
    exact booked_quiet honce fault rfl rfl

/-!
### Projects and rights
-/

theorem enterProject_book (honce : OneRowEach db) (name : Str) :
    exists db', CisManager.enterProject db name = Except.ok db' ∧
      book db' = (book db).enterProject name ∧ OneRowEach db' := by
  unfold CisManager.enterProject
  rcases withName_cases db name with ⟨project, hproject, rfl, hselect⟩ | ⟨hfresh, hselect⟩
  · rw [hselect]
    refine ⟨_, rfl, ?_, honce⟩
    rw [book_setDeleted honce]
    apply AccountBook.ext
    · rfl
    · symm
      exact Finset.insert_eq_of_mem (mem_projects_book.mpr ⟨_, named_of_mem hproject⟩)
    · rfl
    · rfl
  · rw [hselect]
    have hinsert : exists db',
        db.insertProject { name := name, deleted := false } = Except.ok db' := by
      unfold insertProject
      rw [dif_pos hfresh]
      exact ⟨_, rfl⟩
    rcases hinsert with ⟨db', hinsert⟩
    exact ⟨db', hinsert, book_insertProject honce hinsert,
      oneRowEach_of_eq honce (insertProject_ok hinsert).right.right.left⟩

theorem foldlM_enterProject_book (names : List Str) :
    forall {db : Database}, OneRowEach db ->
      exists db', names.foldlM CisManager.enterProject db = Except.ok db' ∧
        book db' = names.foldl AccountBook.enterProject (book db) ∧ OneRowEach db' := by
  induction names with
  | nil =>
      intro db honce
      exact ⟨db, rfl, rfl, honce⟩
  | cons name rest ih =>
      intro db honce
      rcases enterProject_book honce name with ⟨entered, henter, hbook, honce'⟩
      rcases ih honce' with ⟨db', hfold, hbook', honce''⟩
      refine ⟨db', ?_, ?_, honce''⟩
      · rw [List.foldlM_cons, henter]
        exact hfold
      · rw [hbook', hbook, List.foldl_cons]

theorem booked_refreshProjects (honce : OneRowEach db) (fault : Option ErrorCode)
    (names : List Str) :
    Booked (CisManager.refreshProjects fault names db)
      ((book db).refreshProjects fault names) := by
  have honce' : OneRowEach (db.setDeleted (fun _ => true) true) := honce
  rcases foldlM_enterProject_book names honce' with ⟨db', hfold, hbook, honce''⟩
  rw [book_setDeleted honce] at hbook
  apply @booked_transaction _ db () db' _ _ honce fault
  · show (names.foldlM CisManager.enterProject _ >>= _) = Except.ok ((), db')
    rw [hfold]
    rfl
  · rfl
  · exact hbook
  · exact honce''

theorem booked_createProject (honce : OneRowEach db) (fault : Option ErrorCode)
    (directory : Fallible Unit) (name : Str) :
    Booked (CisManager.createProject fault directory name db)
      ((book db).createProject fault directory name) := by
  cases directory with
  | error ec => exact ⟨rfl, rfl, honce⟩
  | ok _ =>
      rcases enterProject_book honce name with ⟨db', henter, hbook, honce'⟩
      apply @booked_transaction _ db () db' _ _ honce fault
      · show (CisManager.enterProject db name >>= _) = Except.ok ((), db')
        rw [henter]
        rfl
      · rfl
      · exact hbook
      · exact honce'

theorem booked_removeProject (honce : OneRowEach db) (fault : Option ErrorCode)
    (name : Str) :
    Booked (CisManager.removeProject fault name db) ((book db).removeProject fault) :=
  booked_transaction honce fault rfl rfl (book_setDeleted honce _ _) honce

theorem insertRight_of_fits {right : ProjectUserRight} (h : db.RightFits right) :
    exists db', db.insertProjectUserRight right = Except.ok db' ∧
      db'.tokens = db.tokens ∧ db'.apiAccessKeys = db.apiAccessKeys := by
  unfold insertProjectUserRight
  rw [dif_pos h]
  exact ⟨_, rfl, rfl, rfl⟩

theorem replaceRight_of_fits {right : ProjectUserRight} (id : Nat) (h : db.RightFits right) :
    exists db', db.replaceProjectUserRight id right = Except.ok db' ∧
      db'.tokens = db.tokens ∧ db'.apiAccessKeys = db.apiAccessKeys := by
  unfold replaceProjectUserRight
  rw [dif_pos h]
  exact ⟨_, rfl, rfl, rfl⟩

theorem booked_setUserProjectPermissions (honce : OneRowEach db) (fault : Option ErrorCode)
    (email project : Str) (rights : ProjectRights) :
    Booked (RightsManager.setUserProjectPermissions fault email project rights db)
      ((book db).setUserProjectPermissions fault email project rights) := by
  unfold RightsManager.setUserProjectPermissions AccountBook.setUserProjectPermissions
  rcases withEmail_find? db email with ⟨user, huser, rfl, hselect, hfind⟩ | ⟨_, hselect, hfind⟩
  · rcases withName_cases db project with ⟨found, hfound, rfl, hname⟩ | ⟨hfresh, hname⟩
    · rw [hselect, hname, hfind, if_pos ⟨rfl, mem_projects_book.mpr ⟨_, named_of_mem hfound⟩⟩]
      have hfits : db.RightFits
          { userId := user.id, projectId := found.id, rights := rights } :=
        ⟨⟨found, hfound, rfl⟩, user, huser, rfl⟩
      dsimp only
      rcases rightsOn_cases honce user.id found.id with hrows | ⟨old, hrows⟩
      · rcases insertRight_of_fits hfits with ⟨db', hinsert, htokens, hkeys⟩
        have hsets := setsRow_insert honce hrows hinsert
        rw [hrows]
        apply booked_transaction honce fault
        · show (db.insertProjectUserRight _ >>= _) = Except.ok (true, db')
          rw [hinsert]
          rfl
        · rfl
        · exact book_setsRow huser hfound rfl rfl hsets htokens hkeys
        · exact hsets.once
      · rcases replaceRight_of_fits old.id hfits with ⟨db', hreplace, htokens, hkeys⟩
        have hsets := setsRow_replace honce hrows hreplace
        rw [hrows]
        apply booked_transaction honce fault
        · show (db.replaceProjectUserRight _ _ >>= _) = Except.ok (true, db')
          rw [hreplace]
          rfl
        · rfl
        · exact book_setsRow huser hfound rfl rfl hsets htokens hkeys
        · exact hsets.once
    · rw [hselect, hname, if_neg]
      · exact booked_quiet honce fault rfl rfl
      · rintro ⟨_, hmem⟩
        rcases mem_projects_book.mp hmem with ⟨_, other, hother, _, hother'⟩
        exact hfresh other hother hother'
  · rw [hselect, hfind, if_neg fun h => Bool.false_ne_true h.left]
    exact booked_quiet honce fault rfl rfl

/-!
### Lists of permissions
-/

theorem rightsOf_book (honce : OneRowEach db) {user : Record User} {project : Record Project}
    (huser : user ∈ db.users.records) (hproject : project ∈ db.projects.records) :
    ((book db).rightsOf project.row.name (account db user)).getD noRights =
      granted db user project := by
  rcases checkProjectRight_eq honce huser hproject with ⟨answer, hanswer, hgranted⟩
  rw [checkProjectRight_book honce] at hanswer
  unfold AccountBook.checkProjectRight at hanswer
  rw [if_pos (mem_projects_book.mpr ⟨_, named_of_mem hproject⟩), find?_book_of_mem huser]
    at hanswer
  rw [← hgranted, ← Except.ok.inj hanswer]
  rfl

theorem map_query {β : Type} (fault : Option ErrorCode) (a : α) (f : α -> β) :
    (query fault a).map f = query fault (f a) := by
  cases fault with
  | some ec => rfl
  | none => rfl

/-- The permissions of a user name all projects, and nothing else. -/
theorem getPermissions_names (honce : OneRowEach db) {user : Record User}
    (huser : user ∈ db.users.records) :
    exists permissions,
      RightsManager.getPermissions none user.row.email db = Except.ok permissions ∧
        (forall name, name ∈ (book db).projects ->
          permissions.find? name =
            some (((book db).rightsOf name (account db user)).getD noRights)) ∧
        forall name, name ∉ (book db).projects -> permissions.find? name = none := by
  refine ⟨_, rfl, ?_, ?_⟩
  · intro name hname
    rcases mem_projects_book.mp hname with ⟨_, project, hproject, _, rfl⟩
    rcases getPermissions_eq honce huser hproject with ⟨permissions, hget, hfind⟩
    rw [← Except.ok.inj hget, rightsOf_book honce huser hproject] at *
    exact hfind
  · intro name hname
    have hnot : forall project, project ∈ db.projects.records -> project.row.name ≠ name := by
      rintro project hproject rfl
      exact hname (mem_projects_book.mpr ⟨_, named_of_mem hproject⟩)
    rw [withEmail_of_mem huser]
    dsimp only
    split
    · exact SortedMap.find?_foldl_of_not_mem (assigns_default _) hnot _
    · have hstep := assigns_alter
        (fun (entry : Record ProjectUserRight × Record Project) => entry.2.row.name)
        fun entry (_ : Option ProjectRights) => entry.1.row.rights
      refine (SortedMap.find?_foldl_of_not_mem hstep ?_ _).trans
        (SortedMap.find?_foldl_of_not_mem (assigns_default _) hnot _)
      rintro ⟨right, project⟩ hentry
      exact hnot project (Table.mem_join.mp (List.mem_of_mem_filter hentry)).right.left

theorem getPermissions_book (honce : OneRowEach db) (fault : Option ErrorCode)
    (email : Str) :
    (RightsManager.getPermissions fault email db).map SortedMap.entries =
      (book db).getPermissions fault email := by
  unfold AccountBook.getPermissions
  rcases withEmail_find? db email with ⟨user, huser, rfl, hselect, hfind⟩ | ⟨_, hselect, hfind⟩
  · rw [hfind]
    cases fault with
    | some ec => rfl
    | none =>
        rcases getPermissions_names honce huser with ⟨permissions, hget, hmem, hnot⟩
        rw [hget]
        exact congrArg Except.ok (SortedMap.entries_eq_sort hmem hnot)
  · unfold RightsManager.getPermissions
    rw [hselect, hfind, map_query]
    rfl

theorem mem_emails_book {email : Str} :
    email ∈ (book db).emails <-> exists user, user ∈ db.users.records ∧
      user.row.email = email := by
  show email ∈ ((db.users.records.map (account db)).map Account.email).toFinset <-> _
  rw [List.mem_toFinset, List.map_map, List.mem_map]
  rfl

/-- The permissions of a project name all users, and nobody else. -/
theorem getPermissionsByProject_emails (honce : OneRowEach db) {project : Record Project}
    (hproject : project ∈ db.projects.records) :
    exists permissions,
      RightsManager.getPermissionsByProject none project.row.name db =
          Except.ok permissions ∧
        (forall email, email ∈ (book db).emails ->
          permissions.find? email = some
            { admin := ((book db).find? email).any Account.admin
              rights := (((book db).find? email).bind
                ((book db).rightsOf project.row.name)).getD noRights }) ∧
        forall email, email ∉ (book db).emails -> permissions.find? email = none := by
  refine ⟨_, rfl, ?_, ?_⟩
  · intro email hemail
    rcases mem_emails_book.mp hemail with ⟨user, huser, rfl⟩
    rcases getPermissionsByProject_eq honce huser hproject with ⟨permissions, hget, hfind⟩
    rw [← Except.ok.inj hget, ← rightsOf_book honce huser hproject] at hfind
    rw [find?_book_of_mem huser]
    exact hfind
  · intro email hemail
    have hnot : forall user, user ∈ db.users.records -> user.row.email ≠ email := by
      rintro user huser rfl
      exact hemail (mem_emails_book.mpr ⟨user, huser, rfl⟩)
    rw [withName_of_mem hproject]
    dsimp only
    have hdefault := assigns_alter (fun (user : Record User) => user.row.email)
      fun user (_ : Option ProjectRightsEx) => defaultEntry user.row
    have hstep := assigns_alter
      (fun (entry : Record ProjectUserRight × Record User) => entry.2.row.email)
      fun entry => grantRights entry.1.row.rights
    refine (SortedMap.find?_foldl_of_not_mem hstep ?_ _).trans
      (SortedMap.find?_foldl_of_not_mem hdefault hnot _)
    rintro ⟨right, user⟩ hentry
    exact hnot user (Table.mem_join.mp (List.mem_of_mem_filter hentry)).right.left

theorem getPermissionsByProject_book (honce : OneRowEach db) (fault : Option ErrorCode)
    (project : Str) :
    (RightsManager.getPermissionsByProject fault project db).map SortedMap.entries =
      (book db).getPermissionsByProject fault project := by
  unfold AccountBook.getPermissionsByProject
  rcases withName_cases db project with ⟨found, hfound, rfl, hname⟩ | ⟨hfresh, hname⟩
  · rw [if_pos (mem_projects_book.mpr ⟨_, named_of_mem hfound⟩)]
    cases fault with
    | some ec => rfl
    | none =>
        rcases getPermissionsByProject_emails honce hfound with
          ⟨permissions, hget, hmem, hnot⟩
        rw [hget]
        exact congrArg Except.ok (SortedMap.entries_eq_sort hmem hnot)
  · rw [if_neg]
    · unfold RightsManager.getPermissionsByProject
      rw [hname, map_query]
      rfl
    · intro hmem
      rcases mem_projects_book.mp hmem with ⟨_, other, hother, _, hother'⟩
      exact hfresh other hother hother'

end Calls

end Database
end CisWebui
