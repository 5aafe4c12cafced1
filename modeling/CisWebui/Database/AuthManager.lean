import CisWebui.Database.Tables

/-!
# The authentication manager

`auth_manager` over the database.  A call gets the error of its transaction, if
one of its statements fails, the time on the clock and what the random numbers
come to.
-/

namespace CisWebui
namespace AuthManager

open Cpp Foundation Database

/-!
## Logins
-/

/-- The random bytes of one try, encoded, and the error of the insertion that
is tried with them. -/
structure Draw where
  value : Str
  fault : Option ErrorCode
deriving DecidableEq, Inhabited, Repr

/-- The expiration of a token in seconds, `std::chrono::hours(24*7)`. -/
def week : Nat := 7 * 24 * 60 * 60

/-- The loop of `authenticate`, which tries until an insertion succeeds; `none`
means that it has not come to an end with these draws. -/
def generateToken (db : Database) (userId expirationTime : Nat) :
    List Draw -> Option (Str × Database)
  | [] => none
  | draw :: rest =>
      let token :=
        { userId := userId
          value := draw.value
          expirationTime := expirationTime : Token }
      match draw.fault, db.insertToken token with
      | none, Except.ok db' => some (draw.value, db')
      | _, _ => generateToken db userId expirationTime rest

theorem generateToken_some {db db' : Database} {userId expirationTime : Nat}
    {draws : List Draw} {token : Str}
    (h : generateToken db userId expirationTime draws = some (token, db')) :
    db.insertToken
      { userId := userId, value := token, expirationTime := expirationTime } =
        Except.ok db' := by
  induction draws with
  | nil => cases h
  | cons draw rest ih =>
      rw [generateToken] at h
      split at h
      · rename_i hinsert
        cases h
        exact hinsert
      · exact ih h

/-- `authenticate` with a password -/
def authenticatePass (fault : Option ErrorCode) (now : Nat) (draws : List Draw)
    (email pass : Str) (db : Database) :
    Option (Fallible (Option Str) × Database) :=
  match fault with
  | some ec => some (Except.error ec, db)
  | none =>
      match db.users.select fun user =>
        user.row.email = email && user.row.pass = pass with
      | [user] =>
          (generateToken db user.id (now + week) draws).map fun (token, db) =>
            (Except.ok (some token), db)
      | _ => some (Except.ok none, db)

theorem authenticatePass_cases {fault : Option ErrorCode} {now : Nat}
    {draws : List Draw} {email pass : Str} {db : Database}
    {result : Fallible (Option Str) × Database}
    (h : authenticatePass fault now draws email pass db = some result) :
    (result.2 = db ∧ forall token, result.1 ≠ Except.ok (some token)) ∨
      exists user token,
        user ∈ db.users.records ∧ user.row.email = email ∧
          result.1 = Except.ok (some token) ∧
          db.insertToken
            { userId := user.id
              value := token
              expirationTime := now + week } = Except.ok result.2 := by
  unfold authenticatePass at h
  cases fault with
  | some ec =>
      cases h
      exact Or.inl ⟨rfl, fun _ heq => by cases heq⟩
  | none =>
      dsimp only at h
      split at h
      · rename_i user hselect
        rcases Option.map_eq_some_iff.mp h with ⟨⟨token, db'⟩, hgenerate, rfl⟩
        have huser := Table.mem_of_select hselect
        rw [Bool.and_eq_true, decide_eq_true_eq] at huser
        exact Or.inr ⟨user, token, huser.left, huser.right.left, rfl,
          generateToken_some hgenerate⟩
      · cases h
        exact Or.inl ⟨rfl, fun _ heq => by cases heq⟩

/-- `authenticate` with a token.  The user of the token is looked up without a
check. -/
def authenticateToken (fault : Option ErrorCode) (now : Nat) (value : Str)
    (db : Database) : Fallible (Option Str) × Database :=
  db.transaction fault <|
    match db.tokens.select fun token => token.row.value = value with
    | [token] =>
        if token.row.expirationTime < now then
          Except.ok (none, db.removeTokens fun token => token.row.value = value)
        else
          let users := db.users.select fun user => user.id = token.row.userId
          Except.ok (users.head?.map fun user => user.row.email, db)
    | _ => Except.ok (none, db)

theorem authenticateToken_cases (fault : Option ErrorCode) (now : Nat)
    (value : Str) (db : Database) :
    (authenticateToken fault now value db).2 = db ∨
      ((forall r, r ∈ db.tokens.records -> r.row.value = value ->
          r.row.expirationTime < now) ∧
        (authenticateToken fault now value db).2 =
          db.removeTokens fun token => token.row.value = value) := by
  unfold authenticateToken
  rcases db.transaction_cases fault _ with ⟨ec, h⟩ | ⟨a, db', hbody, h⟩
  · rw [h]
    exact Or.inl rfl
  · rw [h]
    split at hbody
    · rename_i token hselect
      split at hbody
      · rename_i hexpired
        cases hbody
        refine Or.inr ⟨?_, rfl⟩
        intro r hr hvalue
        have hmem : r ∈ db.tokens.select fun token => token.row.value = value := by
          rw [Table.mem_select, decide_eq_true_eq]
          exact ⟨hr, hvalue⟩
        rw [hselect, List.mem_singleton] at hmem
        rw [hmem]
        exact hexpired
      · cases hbody
        exact Or.inl rfl
    · cases hbody
      exact Or.inl rfl

def checkPass (fault : Option ErrorCode) (email pass : Str) (db : Database) :
    Fallible Bool :=
  query fault <|
    (db.users.select fun user =>
      user.row.email = email && user.row.pass = pass).length == 1

def deleteToken (fault : Option ErrorCode) (value : Str) (db : Database) :
    Fallible Bool × Database :=
  db.transaction fault <|
    Except.ok (true, db.removeTokens fun token => token.row.value = value)

theorem deleteToken_cases (fault : Option ErrorCode) (value : Str)
    (db : Database) :
    (exists ec, deleteToken fault value db = (Except.error ec, db)) ∨
      deleteToken fault value db =
        (Except.ok true, db.removeTokens fun token => token.row.value = value) := by
  unfold deleteToken
  rcases db.transaction_cases fault _ with ⟨ec, h⟩ | ⟨a, db', hbody, h⟩
  · exact Or.inl ⟨ec, h⟩
  · rw [h]
    cases hbody
    exact Or.inr rfl

/-- `cleanup`, which runs every twelve hours. -/
def cleanup (fault : Option ErrorCode) (now : Nat) (db : Database) :
    Fallible Unit × Database :=
  db.transaction fault <|
    Except.ok ((), db.removeTokens fun token => token.row.expirationTime < now)

/-!
## Users
-/

/-- The users with an email. -/
def withEmail (db : Database) (email : Str) : List (Record User) :=
  db.users.select fun user => user.row.email = email

theorem mem_of_withEmail {db : Database} {email : Str} {user : Record User}
    {rest : List (Record User)} (h : withEmail db email = user :: rest) :
    user ∈ db.users.records ∧ user.row.email = email := by
  have huser := Table.mem_of_select h
  rw [decide_eq_true_eq] at huser
  exact huser

theorem withEmail_of_mem {db : Database} {user : Record User}
    (h : user ∈ db.users.records) : withEmail db user.row.email = [user] :=
  Table.select_key db.unique_email h

/-- A transaction that changes the one user with the email, if there is one. -/
theorem transaction_withEmail_cases (fault : Option ErrorCode) (email : Str) (db : Database)
    (change : Record User -> Database) :
    (db.transaction fault <|
      match withEmail db email with
      | [found] => Except.ok (true, change found)
      | _ => Except.ok (false, db)).2 = db ∨
      exists found, found ∈ db.users.records ∧ found.row.email = email ∧
        (db.transaction fault <|
          match withEmail db email with
          | [found] => Except.ok (true, change found)
          | _ => Except.ok (false, db)).2 = change found := by
  rcases db.transaction_cases fault _ with ⟨ec, h⟩ | ⟨a, db', hbody, h⟩
  · rw [h]
    exact Or.inl rfl
  · rw [h]
    split at hbody
    · rename_i found hfound
      rcases mem_of_withEmail hfound with ⟨hmem, hemail⟩
      cases hbody
      exact Or.inr ⟨found, hmem, hemail, rfl⟩
    · cases hbody
      exact Or.inl rfl

/-- The user with the number has the email. -/
def Owner (db : Database) (id : Nat) (email : Str) : Prop :=
  exists user, user ∈ db.users.records ∧ user.id = id ∧ user.row.email = email

theorem owner_unique {db : Database} {id : Nat} {email email' : Str}
    (h : Owner db id email) (h' : Owner db id email') : email = email' := by
  rcases h with ⟨user, huser, hid, hemail⟩
  rcases h' with ⟨user', huser', hid', hemail'⟩
  rw [← hemail, ← hemail', Table.eq_of_id huser huser' (hid.trans hid'.symm)]

theorem owner_id_unique {db : Database} {id id' : Nat} {email : Str}
    (h : Owner db id email) (h' : Owner db id' email) : id = id' := by
  rcases h with ⟨user, huser, hid, hemail⟩
  rcases h' with ⟨user', huser', hid', hemail'⟩
  rw [← hid, ← hid',
    db.unique_email user user' huser huser' (hemail.trans hemail'.symm)]

theorem owner_of_users_eq {db db' : Database} (h : db'.users = db.users)
    {id : Nat} {email : Str} (howner : Owner db id email) : Owner db' id email := by
  unfold Owner at howner
  rw [← h] at howner
  exact howner

def hasUser (fault : Option ErrorCode) (email : Str) (db : Database) :
    Fallible Bool :=
  query fault ((withEmail db email).length != 0)

def addUser (fault : Option ErrorCode) (email pass : Str) (admin : Bool)
    (db : Database) : Fallible Bool × Database :=
  db.transaction fault <|
    match withEmail db email with
    | [] => do
        let db ← db.insertUser { email := email, pass := pass, admin := admin }
        return (true, db)
    | _ => return (false, db)

theorem addUser_cases (fault : Option ErrorCode) (email pass : Str)
    (admin : Bool) (db : Database) :
    ((addUser fault email pass admin db).2 = db ∧
        (addUser fault email pass admin db).1 ≠ Except.ok true) ∨
      (addUser fault email pass admin db).1 = Except.ok true ∧
        db.insertUser { email := email, pass := pass, admin := admin } =
          Except.ok (addUser fault email pass admin db).2 := by
  unfold addUser
  rcases db.transaction_cases fault _ with ⟨ec, h⟩ | ⟨a, db', hbody, h⟩
  · rw [h]
    exact Or.inl ⟨rfl, fun heq => by cases heq⟩
  · rw [h]
    split at hbody
    · cases hinsert : db.insertUser
          { email := email, pass := pass, admin := admin } with
      | error ec =>
          rw [hinsert] at hbody
          cases hbody
      | ok inserted =>
          rw [hinsert] at hbody
          cases hbody
          exact Or.inr ⟨rfl, rfl⟩
    · cases hbody
      exact Or.inl ⟨rfl, fun heq => by cases heq⟩

def deleteUser (fault : Option ErrorCode) (email : Str) (db : Database) :
    Fallible Bool × Database :=
  db.transaction fault <|
    match withEmail db email with
    | [user] => Except.ok (true, db.removeUser user.id)
    | _ => Except.ok (false, db)

theorem deleteUser_cases (fault : Option ErrorCode) (email : Str)
    (db : Database) :
    ((deleteUser fault email db).2 = db ∧
        (deleteUser fault email db).1 ≠ Except.ok true) ∨
      exists user, user ∈ db.users.records ∧ user.row.email = email ∧
        deleteUser fault email db = (Except.ok true, db.removeUser user.id) := by
  unfold deleteUser
  rcases db.transaction_cases fault _ with ⟨ec, h⟩ | ⟨a, db', hbody, h⟩
  · rw [h]
    exact Or.inl ⟨rfl, fun heq => by cases heq⟩
  · rw [h]
    split at hbody
    · rename_i user hfound
      rcases mem_of_withEmail hfound with ⟨huser, hemail⟩
      cases hbody
      exact Or.inr ⟨user, huser, hemail, rfl⟩
    · cases hbody
      exact Or.inl ⟨rfl, fun heq => by cases heq⟩

def changePass (fault : Option ErrorCode) (email newPass : Str)
    (db : Database) : Fallible Bool × Database :=
  if newPass = [] then
    (Except.ok false, db)
  else
    db.transaction fault <|
      match withEmail db email with
      | [found] =>
          Except.ok (true,
            db.updateUsers (fun user => user.id = found.id)
              (fun user => { user with pass := newPass }) fun _ => rfl)
      | _ => Except.ok (false, db)

theorem changePass_cases (fault : Option ErrorCode) (email newPass : Str)
    (db : Database) :
    (changePass fault email newPass db).2 = db ∨
      exists found, found ∈ db.users.records ∧ found.row.email = email ∧
        (changePass fault email newPass db).2 =
          db.updateUsers (fun user => user.id = found.id)
            (fun user => { user with pass := newPass }) fun _ => rfl := by
  unfold changePass
  split
  · exact Or.inl rfl
  · exact transaction_withEmail_cases fault email db fun found =>
      db.updateUsers (fun user => user.id = found.id)
        (fun user => { user with pass := newPass }) fun _ => rfl

/-!
## API keys
-/

/-- An insertion that fails is no error of the call. -/
def generateApiKey (fault : Option ErrorCode) (draw : Draw) (email : Str)
    (db : Database) : Fallible (Option Str) × Database :=
  db.transaction fault <|
    match withEmail db email with
    | [user] =>
        let key := { userId := user.id, value := draw.value : ApiAccessKey }
        match draw.fault, db.insertApiAccessKey key with
        | none, Except.ok db' => Except.ok (some draw.value, db')
        | _, _ => Except.ok (none, db)
    | _ => Except.ok (none, db)

theorem generateApiKey_cases (fault : Option ErrorCode) (draw : Draw)
    (email : Str) (db : Database) :
    (generateApiKey fault draw email db).2 = db ∨
      exists user, user ∈ db.users.records ∧ user.row.email = email ∧
        db.insertApiAccessKey { userId := user.id, value := draw.value } =
          Except.ok (generateApiKey fault draw email db).2 := by
  unfold generateApiKey
  rcases db.transaction_cases fault _ with ⟨ec, h⟩ | ⟨a, db', hbody, h⟩
  · rw [h]
    exact Or.inl rfl
  · rw [h]
    split at hbody
    · rename_i user hfound
      rcases mem_of_withEmail hfound with ⟨huser, hemail⟩
      dsimp only at hbody
      split at hbody
      · rename_i hinsert
        cases hbody
        exact Or.inr ⟨user, huser, hemail, hinsert⟩
      · cases hbody
        exact Or.inl rfl
    · cases hbody
      exact Or.inl rfl

/-- The keys of the users with an email, `inner_join<user>`. -/
def keysOf (db : Database) (email : Str) : List (Record ApiAccessKey) :=
  ((db.apiAccessKeys.join ApiAccessKey.userId db.users).filter fun (_, user) =>
    user.row.email = email).map Prod.fst

theorem mem_keysOf {db : Database} {email : Str} {key : Record ApiAccessKey} :
    key ∈ keysOf db email <->
      exists user, key ∈ db.apiAccessKeys.records ∧ user ∈ db.users.records ∧
        user.id = key.row.userId ∧ user.row.email = email := by
  unfold keysOf
  rw [List.mem_map]
  constructor
  · intro h
    rcases h with ⟨⟨key', user⟩, hpair, rfl⟩
    rw [List.mem_filter, Table.mem_join, decide_eq_true_eq] at hpair
    exact ⟨user, hpair.left.left, hpair.left.right.left,
      hpair.left.right.right, hpair.right⟩
  · intro h
    rcases h with ⟨user, hkey, huser, hid, hemail⟩
    refine ⟨(key, user), ?_, rfl⟩
    rw [List.mem_filter, Table.mem_join, decide_eq_true_eq]
    exact ⟨⟨hkey, huser, hid⟩, hemail⟩

def getApiKey (fault : Option ErrorCode) (email : Str) (db : Database) :
    Fallible (Option Str) :=
  query fault <|
    match keysOf db email with
    | [key] => some key.row.value
    | _ => none

def removeApiKey (fault : Option ErrorCode) (email : Str) (db : Database) :
    Fallible Bool × Database :=
  db.transaction fault <|
    match keysOf db email with
    | [found] =>
        Except.ok (true, db.removeApiAccessKeys fun key => key.id = found.id)
    | _ => Except.ok (false, db)

theorem removeApiKey_cases (fault : Option ErrorCode) (email : Str)
    (db : Database) :
    (removeApiKey fault email db).2 = db ∨
      exists found user, found ∈ db.apiAccessKeys.records ∧
        user ∈ db.users.records ∧ user.id = found.row.userId ∧
        user.row.email = email ∧
        (removeApiKey fault email db).2 =
          db.removeApiAccessKeys fun key => key.id = found.id := by
  unfold removeApiKey
  rcases db.transaction_cases fault _ with ⟨ec, h⟩ | ⟨a, db', hbody, h⟩
  · rw [h]
    exact Or.inl rfl
  · rw [h]
    split at hbody
    · rename_i found hfound
      rcases mem_keysOf.mp (hfound ▸ List.mem_singleton_self found) with
        ⟨user, hmem, huser, hid, hemail⟩
      cases hbody
      exact Or.inr ⟨found, user, hmem, huser, hid, hemail, rfl⟩
    · cases hbody
      exact Or.inl rfl

/-- The key of a user, if there is one. -/
def keyOf (db : Database) (userId : Nat) : Option Str :=
  match db.apiAccessKeys.select fun key => key.row.userId = userId with
  | [key] => some key.row.value
  | _ => none

def getUserInfos (fault : Option ErrorCode) (db : Database) :
    Fallible (List UserInfo) :=
  query fault <|
    db.users.records.map fun user =>
      { email := user.row.email
        apiAccessKey := keyOf db user.id
        isAdmin := user.row.admin }

end AuthManager
end CisWebui
