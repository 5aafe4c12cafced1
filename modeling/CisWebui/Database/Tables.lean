import CisWebui.Foundation.Table
import CisWebui.RequestContext

/-!
# The database

The five tables of `make_database` with the constraints declared on them, and
the statements that write to them.  A database that breaks a constraint cannot
be built: a statement that would break one fails instead.

A transaction that fails at any of its statements, or at the commit, leaves the
database as it was.
-/

namespace CisWebui

open Cpp Foundation

namespace Database

structure User where
  email : Str
  pass : Str
  admin : Bool
deriving DecidableEq, Repr

structure Project where
  name : Str
  deleted : Bool
deriving DecidableEq, Repr

structure ProjectUserRight where
  projectId : Nat
  userId : Nat
  rights : ProjectRights
deriving DecidableEq, Repr

structure Token where
  userId : Nat
  value : Str
  expirationTime : Nat
deriving DecidableEq, Repr

structure ApiAccessKey where
  userId : Nat
  value : Str
deriving DecidableEq, Repr

end Database

open Database in
structure Database where
  users : Table User
  projects : Table Project
  projectUserRights : Table ProjectUserRight
  tokens : Table Token
  apiAccessKeys : Table ApiAccessKey
  unique_email : users.Unique User.email
  unique_name : projects.Unique Project.name
  unique_token : tokens.Unique Token.value
  unique_keyOwner : apiAccessKeys.Unique ApiAccessKey.userId
  unique_key : apiAccessKeys.Unique ApiAccessKey.value
  right_project : projectUserRights.Refers ProjectUserRight.projectId projects
  right_user : projectUserRights.Refers ProjectUserRight.userId users
  token_user : tokens.Refers Token.userId users
  key_user : apiAccessKeys.Refers ApiAccessKey.userId users

namespace Database

/-- A new database file. -/
def empty : Database where
  users := Table.empty
  projects := Table.empty
  projectUserRights := Table.empty
  tokens := Table.empty
  apiAccessKeys := Table.empty
  unique_email := Table.unique_empty _
  unique_name := Table.unique_empty _
  unique_token := Table.unique_empty _
  unique_keyOwner := Table.unique_empty _
  unique_key := Table.unique_empty _
  right_project := Table.refers_empty
  right_user := Table.refers_empty
  token_user := Table.refers_empty
  key_user := Table.refers_empty

/-- `SQLITE_CONSTRAINT` -/
def constraintFailed : ErrorCode where
  message := str "constraint failed"

/-!
## Users
-/

def insertUser (db : Database) (user : User) : Except ErrorCode Database :=
  if h : db.users.Fresh User.email user.email then
    Except.ok
      { db with
        users := db.users.insert user
        unique_email := Table.unique_insert db.unique_email h
        right_user := Table.refers_mono db.right_user fun _ => Table.has_insert
        token_user := Table.refers_mono db.token_user fun _ => Table.has_insert
        key_user := Table.refers_mono db.key_user fun _ => Table.has_insert }
  else
    Except.error constraintFailed

theorem insertUser_ok {db db' : Database} {user : User}
    (h : db.insertUser user = Except.ok db') :
    db'.users = db.users.insert user ∧ db'.projects = db.projects ∧
      db'.projectUserRights = db.projectUserRights ∧
      db'.tokens = db.tokens ∧ db'.apiAccessKeys = db.apiAccessKeys := by
  unfold insertUser at h
  split at h
  · cases h
    exact ⟨rfl, rfl, rfl, rfl, rfl⟩
  · cases h

/-- An update of users that keeps their emails. -/
def updateUsers (db : Database) (p : Record User -> Bool) (f : User -> User)
    (hf : forall user, (f user).email = user.email) : Database :=
  { db with
    users := db.users.update p f
    unique_email := Table.unique_update db.unique_email fun r _ _ => hf r.row
    right_user := Table.refers_mono db.right_user fun _ => Table.has_update
    token_user := Table.refers_mono db.token_user fun _ => Table.has_update
    key_user := Table.refers_mono db.key_user fun _ => Table.has_update }

/-- What belongs to a removed user goes with it. -/
def removeUser (db : Database) (id : Nat) : Database :=
  let users := db.users.remove fun user => user.id = id
  { db with
    users := users
    projectUserRights := db.projectUserRights.cascade ProjectUserRight.userId users
    tokens := db.tokens.cascade Token.userId users
    apiAccessKeys := db.apiAccessKeys.cascade ApiAccessKey.userId users
    unique_email := Table.unique_remove _ db.unique_email
    unique_token := Table.unique_remove _ db.unique_token
    unique_keyOwner := Table.unique_remove _ db.unique_keyOwner
    unique_key := Table.unique_remove _ db.unique_key
    right_project := Table.refers_remove _ db.right_project
    right_user := Table.refers_cascade
    token_user := Table.refers_cascade
    key_user := Table.refers_cascade }

/-!
## Projects and rights
-/

def insertProject (db : Database) (project : Project) :
    Except ErrorCode Database :=
  if h : db.projects.Fresh Project.name project.name then
    Except.ok
      { db with
        projects := db.projects.insert project
        unique_name := Table.unique_insert db.unique_name h
        right_project :=
          Table.refers_mono db.right_project fun _ => Table.has_insert }
  else
    Except.error constraintFailed

theorem insertProject_ok {db db' : Database} {project : Project}
    (h : db.insertProject project = Except.ok db') :
    db'.projects = db.projects.insert project ∧ db'.users = db.users ∧
      db'.projectUserRights = db.projectUserRights ∧
      db'.tokens = db.tokens ∧ db'.apiAccessKeys = db.apiAccessKeys := by
  unfold insertProject at h
  split at h
  · cases h
    exact ⟨rfl, rfl, rfl, rfl, rfl⟩
  · cases h

/-- An update of the flag of some projects. -/
def setDeleted (db : Database) (p : Record Project -> Bool) (deleted : Bool) :
    Database :=
  { db with
    projects :=
      db.projects.update p fun project => { project with deleted := deleted }
    unique_name := Table.unique_update db.unique_name fun _ _ _ => rfl
    right_project :=
      Table.refers_mono db.right_project fun _ => Table.has_update }

/-- The projects and users a row of rights may refer to are there. -/
def RightFits (db : Database) (right : ProjectUserRight) : Prop :=
  db.projects.Has right.projectId ∧ db.users.Has right.userId

instance (db : Database) (right : ProjectUserRight) :
    Decidable (db.RightFits right) :=
  inferInstanceAs (Decidable (_ ∧ _))

def insertProjectUserRight (db : Database) (right : ProjectUserRight) :
    Except ErrorCode Database :=
  if h : db.RightFits right then
    Except.ok
      { db with
        projectUserRights := db.projectUserRights.insert right
        right_project := Table.refers_insert db.right_project h.left
        right_user := Table.refers_insert db.right_user h.right }
  else
    Except.error constraintFailed

theorem insertProjectUserRight_ok {db db' : Database} {right : ProjectUserRight}
    (h : db.insertProjectUserRight right = Except.ok db') :
    db'.projectUserRights = db.projectUserRights.insert right ∧
      db'.users = db.users ∧ db'.projects = db.projects := by
  unfold insertProjectUserRight at h
  split at h
  · cases h
    exact ⟨rfl, rfl, rfl⟩
  · cases h

/-- `replace` of a row that is there. -/
def replaceProjectUserRight (db : Database) (id : Nat)
    (right : ProjectUserRight) : Except ErrorCode Database :=
  if h : db.RightFits right then
    Except.ok
      { db with
        projectUserRights :=
          db.projectUserRights.update (fun r => r.id = id) fun _ => right
        right_project :=
          Table.refers_update db.right_project fun _ => Or.inl h.left
        right_user :=
          Table.refers_update db.right_user fun _ => Or.inl h.right }
  else
    Except.error constraintFailed

theorem replaceProjectUserRight_ok {db db' : Database} {id : Nat}
    {right : ProjectUserRight}
    (h : db.replaceProjectUserRight id right = Except.ok db') :
    db'.projectUserRights =
        db.projectUserRights.update (fun r => r.id = id) (fun _ => right) ∧
      db'.users = db.users ∧ db'.projects = db.projects := by
  unfold replaceProjectUserRight at h
  split at h
  · cases h
    exact ⟨rfl, rfl, rfl⟩
  · cases h

/-!
## Tokens and keys
-/

def insertToken (db : Database) (token : Token) : Except ErrorCode Database :=
  if h : db.tokens.Fresh Token.value token.value ∧ db.users.Has token.userId then
    Except.ok
      { db with
        tokens := db.tokens.insert token
        unique_token := Table.unique_insert db.unique_token h.left
        token_user := Table.refers_insert db.token_user h.right }
  else
    Except.error constraintFailed

theorem insertToken_ok {db db' : Database} {token : Token}
    (h : db.insertToken token = Except.ok db') :
    db'.tokens = db.tokens.insert token ∧ db'.users = db.users ∧
      db'.projects = db.projects ∧
      db'.projectUserRights = db.projectUserRights ∧
      db'.apiAccessKeys = db.apiAccessKeys := by
  unfold insertToken at h
  split at h
  · cases h
    exact ⟨rfl, rfl, rfl, rfl, rfl⟩
  · cases h

def removeTokens (db : Database) (p : Record Token -> Bool) : Database :=
  { db with
    tokens := db.tokens.remove p
    unique_token := Table.unique_remove p db.unique_token
    token_user := Table.refers_remove p db.token_user }

def insertApiAccessKey (db : Database) (key : ApiAccessKey) :
    Except ErrorCode Database :=
  if h : (db.apiAccessKeys.Fresh ApiAccessKey.userId key.userId ∧
      db.apiAccessKeys.Fresh ApiAccessKey.value key.value) ∧
      db.users.Has key.userId then
    Except.ok
      { db with
        apiAccessKeys := db.apiAccessKeys.insert key
        unique_keyOwner := Table.unique_insert db.unique_keyOwner h.left.left
        unique_key := Table.unique_insert db.unique_key h.left.right
        key_user := Table.refers_insert db.key_user h.right }
  else
    Except.error constraintFailed

theorem insertApiAccessKey_ok {db db' : Database} {key : ApiAccessKey}
    (h : db.insertApiAccessKey key = Except.ok db') :
    db'.apiAccessKeys = db.apiAccessKeys.insert key ∧ db'.users = db.users ∧
      db'.projects = db.projects ∧
      db'.projectUserRights = db.projectUserRights ∧
      db'.tokens = db.tokens := by
  unfold insertApiAccessKey at h
  split at h
  · cases h
    exact ⟨rfl, rfl, rfl, rfl, rfl⟩
  · cases h

def removeApiAccessKeys (db : Database) (p : Record ApiAccessKey -> Bool) :
    Database :=
  { db with
    apiAccessKeys := db.apiAccessKeys.remove p
    unique_keyOwner := Table.unique_remove p db.unique_keyOwner
    unique_key := Table.unique_remove p db.unique_key
    key_user := Table.refers_remove p db.key_user }

/-!
## Transactions
-/

variable {α : Type}

/-- A transaction of a manager call that writes; `fault` is the error of one of
its statements, if one fails. -/
def transaction (db : Database) (fault : Option ErrorCode)
    (body : Except ErrorCode (α × Database)) : Fallible α × Database :=
  match fault with
  | some ec => (Except.error ec, db)
  | none =>
      match body with
      | Except.error ec => (Except.error ec, db)
      | Except.ok (a, db) => (Except.ok a, db)

/-- A manager call that only reads. -/
def query (fault : Option ErrorCode) (a : α) : Fallible α :=
  match fault with
  | some ec => Except.error ec
  | none => Except.ok a

/-- A transaction fails and does nothing, or does what its body does. -/
theorem transaction_cases (db : Database) (fault : Option ErrorCode)
    (body : Except ErrorCode (α × Database)) :
    (exists ec, db.transaction fault body = (Except.error ec, db)) ∨
      exists a db', body = Except.ok (a, db') ∧
        db.transaction fault body = (Except.ok a, db') := by
  cases fault with
  | some ec => exact Or.inl ⟨ec, rfl⟩
  | none =>
      cases body with
      | error ec => exact Or.inl ⟨ec, rfl⟩
      | ok result => exact Or.inr ⟨result.1, result.2, rfl, rfl⟩

/-- `init`: the administrator of the credentials. -/
def init (db : Database) (fault : Option ErrorCode) (email pass : Str) :
    Fallible Unit × Database :=
  db.transaction fault do
    let db ← db.insertUser { email := email, pass := pass, admin := true }
    return ((), db)

theorem init_cases (db : Database) (fault : Option ErrorCode) (email pass : Str) :
    (db.init fault email pass).2 = db ∨
      db.insertUser { email := email, pass := pass, admin := true } =
        Except.ok (db.init fault email pass).2 := by
  unfold init
  rcases db.transaction_cases fault _ with ⟨ec, h⟩ | ⟨a, db', hbody, h⟩
  · rw [h]
    exact Or.inl rfl
  · rw [h]
    cases hinsert : db.insertUser
        { email := email, pass := pass, admin := true } with
    | error ec =>
        rw [hinsert] at hbody
        cases hbody
    | ok inserted =>
        rw [hinsert] at hbody
        cases hbody
        exact Or.inr rfl

end Database
end CisWebui
