import CisWebui.Database.LoginAttempts
import CisWebui.Database.SettingPermissions
import CisWebui.Database.TokenHistory
import Mathlib.Data.Finset.Sort

/-!
# The account book

What the five tables are for: who has an account, which projects are known, who
may do what in them, and whose tokens are valid until when.  The book knows no
numbers of rows, and no order but that of the accounts.

Every database has its book, and every statement does to the database what an
entry does to the book.
-/

namespace CisWebui

open Cpp Foundation Database AuthManager RightsManager

structure Account where
  email : Str
  pass : Str
  admin : Bool
  apiAccessKey : Option Str
deriving DecidableEq, Repr

/-- The accounts in the order in which they have been opened; a token belongs to an
email and has a time. -/
@[ext] structure AccountBook where
  accounts : List Account
  projects : Finset Str
  rights : Str -> Str -> Option ProjectRights
  tokens : Str -> Option (Str × Nat)

namespace AccountBook

/-!
## Entries
-/

def empty : AccountBook where
  accounts := []
  projects := ∅
  rights := fun _ _ => none
  tokens := fun _ => none

def find? (book : AccountBook) (email : Str) : Option Account :=
  book.accounts.find? fun account => account.email = email

def openAccount (book : AccountBook) (account : Account) : AccountBook :=
  { book with accounts := book.accounts ++ [account] }

def changeAccount (book : AccountBook) (email : Str) (f : Account -> Account) :
    AccountBook :=
  { book with
    accounts := book.accounts.map fun account =>
      if account.email = email then f account else account }

/-- All that belongs to the account is struck out. -/
def closeAccount (book : AccountBook) (email : Str) : AccountBook where
  accounts := book.accounts.filter fun account => account.email ≠ email
  projects := book.projects
  rights := fun other project => if other = email then none else book.rights other project
  tokens := fun value => (book.tokens value).filter fun token => token.1 ≠ email

def enterProject (book : AccountBook) (name : Str) : AccountBook :=
  { book with projects := insert name book.projects }

def setRights (book : AccountBook) (email project : Str) (rights : ProjectRights) :
    AccountBook :=
  { book with
    rights := fun other name =>
      if other = email ∧ name = project then some rights else book.rights other name }

def issueToken (book : AccountBook) (value email : Str) (time : Nat) : AccountBook :=
  { book with
    tokens := fun other => if other = value then some (email, time) else book.tokens other }

/-- The tokens of which `p` holds are struck out. -/
def strikeTokens (book : AccountBook) (p : Str -> Nat -> Bool) : AccountBook :=
  { book with
    tokens := fun value => (book.tokens value).filter fun token => !p value token.2 }

/-- The account with the token or key is in the book already. -/
def HasKey (book : AccountBook) (key : Str) : Prop :=
  exists account, account ∈ book.accounts ∧ account.apiAccessKey = some key

instance (book : AccountBook) (key : Str) : Decidable (book.HasKey key) :=
  inferInstanceAs (Decidable (exists account, account ∈ book.accounts ∧ _))

end AccountBook

/-!
## The book of a database
-/

namespace Database

/-- The project with the number has the name. -/
def Named (db : Database) (id : Nat) (name : Str) : Prop :=
  exists project, project ∈ db.projects.records ∧ project.id = id ∧
    project.row.name = name

def HasRights (db : Database) (email name : Str) (rights : ProjectRights) : Prop :=
  exists right, right ∈ db.projectUserRights.records ∧ Owner db right.row.userId email ∧
    Named db right.row.projectId name ∧ right.row.rights = rights

def HasToken (db : Database) (value email : Str) (time : Nat) : Prop :=
  exists token, token ∈ db.tokens.records ∧ token.row.value = value ∧
    token.row.expirationTime = time ∧ Owner db token.row.userId email

def account (db : Database) (user : Record User) : Account where
  email := user.row.email
  pass := user.row.pass
  admin := user.row.admin
  apiAccessKey := keyOf db user.id

/-- The book in which the same is written as in the tables. -/
def book (db : Database) : AccountBook where
  accounts := db.users.records.map (account db)
  projects := (db.projects.records.map fun project => project.row.name).toFinset
  rights := fun email name =>
    match withEmail db email, withName db name with
    | [user], [project] =>
        (rightsOn db user.id project.id).head?.map fun right => right.row.rights
    | _, _ => none
  tokens := fun value =>
    (db.tokens.select fun token => token.row.value = value).head?.bind fun token =>
      (db.users.select fun user => user.id = token.row.userId).head?.map fun user =>
        (user.row.email, token.row.expirationTime)

/-!
## What the book says
-/

section Reading

variable {db : Database}

theorem withEmail_cases (db : Database) (email : Str) :
    (exists user, user ∈ db.users.records ∧ user.row.email = email ∧
        withEmail db email = [user]) ∨
      (db.users.Fresh User.email email ∧ withEmail db email = []) :=
  Table.select_key_cases db.unique_email email

theorem withName_cases (db : Database) (name : Str) :
    (exists project, project ∈ db.projects.records ∧ project.row.name = name ∧
        withName db name = [project]) ∨
      (db.projects.Fresh Project.name name ∧ withName db name = []) :=
  Table.select_key_cases db.unique_name name

theorem owner_of_mem {user : Record User} (h : user ∈ db.users.records) :
    Owner db user.id user.row.email :=
  ⟨user, h, rfl, rfl⟩

theorem named_of_mem {project : Record Project} (h : project ∈ db.projects.records) :
    Named db project.id project.row.name :=
  ⟨project, h, rfl, rfl⟩

theorem mem_projects_book {name : Str} :
    name ∈ (book db).projects <-> exists id, Named db id name := by
  unfold book Named
  rw [List.mem_toFinset, List.mem_map]
  constructor
  · rintro ⟨project, hproject, rfl⟩
    exact ⟨project.id, project, hproject, rfl, rfl⟩
  · rintro ⟨id, project, hproject, _, rfl⟩
    exact ⟨project, hproject, rfl⟩

theorem rights_book (h : OneRowEach db) {email name : Str} {rights : ProjectRights} :
    (book db).rights email name = some rights <-> HasRights db email name rights := by
  unfold book HasRights
  dsimp only
  constructor
  · intro hrights
    split at hrights
    · rename_i user project huser hproject
      rcases Option.map_eq_some_iff.mp hrights with ⟨right, hright, rfl⟩
      rcases mem_of_withEmail huser with ⟨humem, rfl⟩
      rcases mem_of_withName hproject with ⟨hpmem, rfl⟩
      rcases mem_rightsOn.mp (List.mem_of_mem_head? hright) with ⟨hmem, huserId, hprojectId⟩
      refine ⟨right, hmem, ?_, ?_, rfl⟩
      · rw [huserId]
        exact owner_of_mem humem
      · rw [hprojectId]
        exact named_of_mem hpmem
    · cases hrights
  · rintro ⟨right, hmem, ⟨user, huser, huserId, rfl⟩, ⟨project, hproject, hprojectId, rfl⟩,
      rfl⟩
    rw [withEmail_of_mem huser, withName_of_mem hproject]
    dsimp only
    rw [huserId, hprojectId, rightsOn_of_mem h hmem]
    rfl

theorem tokens_book {value email : Str} {time : Nat} :
    (book db).tokens value = some (email, time) <-> HasToken db value email time := by
  unfold book HasToken
  dsimp only
  rcases Table.select_key_cases db.unique_token value with
    ⟨token, htoken, rfl, hselect⟩ | ⟨hfresh, hselect⟩
  · rw [hselect, List.head?_cons, Option.bind_some]
    rcases db.token_user token htoken with ⟨user, huser, hid⟩
    have hone : (db.users.select fun other => other.id = token.row.userId) = [user] := by
      apply Table.select_eq_singleton huser
      · exact decide_eq_true hid
      · intro other hother hother'
        exact Table.eq_of_id hother huser ((of_decide_eq_true hother').trans hid.symm)
    rw [hone, List.head?_cons, Option.map_some, Option.some.injEq, Prod.mk.injEq]
    constructor
    · rintro ⟨rfl, rfl⟩
      exact ⟨token, htoken, rfl, rfl, user, huser, hid, rfl⟩
    · rintro ⟨other, hother, hvalue, rfl, howner⟩
      rw [db.unique_token other token hother htoken hvalue] at howner ⊢
      exact ⟨owner_unique ⟨user, huser, hid, rfl⟩ howner, rfl⟩
  · rw [hselect, List.head?_nil, Option.bind_none]
    constructor
    · exact nofun
    · rintro ⟨token, htoken, hvalue, _⟩
      exact absurd hvalue (hfresh token htoken)

theorem keyOf_eq_some_iff {id : Nat} {key : Str} :
    keyOf db id = some key <->
      exists found, found ∈ db.apiAccessKeys.records ∧ found.row.userId = id ∧
        found.row.value = key := by
  unfold keyOf
  rcases Table.select_key_cases db.unique_keyOwner id with
    ⟨found, hfound, hid, hselect⟩ | ⟨hfresh, hselect⟩
  · rw [hselect, Option.some.injEq]
    constructor
    · rintro rfl
      exact ⟨found, hfound, hid, rfl⟩
    · rintro ⟨other, hother, hid', rfl⟩
      rw [db.unique_keyOwner other found hother hfound (hid'.trans hid.symm)]
  · rw [hselect]
    constructor
    · exact nofun
    · rintro ⟨other, hother, hid, _⟩
      exact absurd hid (hfresh other hother)

theorem find?_book (db : Database) (email : Str) :
    (book db).find? email = (withEmail db email).head?.map (account db) := by
  unfold AccountBook.find? book withEmail Table.select
  rw [List.find?_map, List.head?_filter]
  rfl

theorem find?_book_of_mem {user : Record User} (h : user ∈ db.users.records) :
    (book db).find? user.row.email = some (account db user) := by
  rw [find?_book, withEmail_of_mem h]
  rfl

theorem find?_book_of_fresh {email : Str} (h : db.users.Fresh User.email email) :
    (book db).find? email = none := by
  rcases withEmail_cases db email with ⟨user, huser, hemail, _⟩ | ⟨_, hnone⟩
  · exact absurd hemail (h user huser)
  · rw [find?_book, hnone]
    rfl

theorem withEmail_find? (db : Database) (email : Str) :
    (exists user, user ∈ db.users.records ∧ user.row.email = email ∧
        withEmail db email = [user] ∧ (book db).find? email = some (account db user)) ∨
      (db.users.Fresh User.email email ∧ withEmail db email = [] ∧
        (book db).find? email = none) := by
  rcases withEmail_cases db email with ⟨user, huser, rfl, hselect⟩ | ⟨hfresh, hselect⟩
  · exact Or.inl ⟨user, huser, rfl, hselect, find?_book_of_mem huser⟩
  · exact Or.inr ⟨hfresh, hselect, find?_book_of_fresh hfresh⟩

/-- The joined keys of an email are those of its user. -/
theorem keysOf_of_mem {user : Record User} (huser : user ∈ db.users.records) :
    keysOf db user.row.email =
      db.apiAccessKeys.select fun key => key.row.userId = user.id := by
  unfold keysOf
  rw [Table.map_fst_join db.key_user fun user' => decide (user'.row.email = user.row.email)]
  apply List.filter_congr
  intro key _
  rw [Bool.eq_iff_iff, List.any_eq_true, decide_eq_true_eq]
  constructor
  · rintro ⟨other, hother, hboth⟩
    rw [Bool.and_eq_true, decide_eq_true_eq, decide_eq_true_eq] at hboth
    rw [← hboth.left, db.unique_email other user hother huser hboth.right]
  · intro hid
    exact ⟨user, huser, by simp [hid]⟩

theorem keysOf_cases (db : Database) (email : Str) :
    (exists key user, key ∈ db.apiAccessKeys.records ∧ user ∈ db.users.records ∧
        user.id = key.row.userId ∧ user.row.email = email ∧ keysOf db email = [key] ∧
        ((book db).find? email).bind Account.apiAccessKey = some key.row.value) ∨
      (keysOf db email = [] ∧
        ((book db).find? email).bind Account.apiAccessKey = none) := by
  rcases withEmail_find? db email with ⟨user, huser, rfl, _, hfind⟩ | ⟨hfresh, _, hfind⟩
  · rw [keysOf_of_mem huser, hfind]
    show (exists key other, _) ∨ _ ∧ keyOf db user.id = none
    unfold keyOf
    rcases Table.select_key_cases db.unique_keyOwner user.id with
      ⟨key, hkey, hid, hselect⟩ | ⟨_, hselect⟩
    · rw [hselect]
      refine Or.inl ⟨key, user, hkey, huser, hid.symm, rfl, rfl, ?_⟩
      show keyOf db user.id = some key.row.value
      exact keyOf_eq_some_iff.mpr ⟨key, hkey, hid, rfl⟩
    · rw [hselect]
      exact Or.inr ⟨rfl, rfl⟩
  · rw [hfind]
    refine Or.inr ⟨?_, rfl⟩
    rw [List.eq_nil_iff_forall_not_mem]
    intro key hkey
    rcases mem_keysOf.mp hkey with ⟨user, _, huser, _, hemail⟩
    exact hfresh user huser hemail

/-- A book that says the same as the tables is the book of the database. -/
theorem book_eq {book' : AccountBook} (honce : OneRowEach db)
    (haccounts : db.users.records.map (account db) = book'.accounts)
    (hprojects : forall name, (exists id, Named db id name) <-> name ∈ book'.projects)
    (hrights : forall email name rights,
      HasRights db email name rights <-> book'.rights email name = some rights)
    (htokens : forall value email time,
      HasToken db value email time <-> book'.tokens value = some (email, time)) :
    book db = book' := by
  apply AccountBook.ext
  · exact haccounts
  · apply Finset.ext
    intro name
    rw [mem_projects_book, hprojects]
  · funext email name
    apply Option.ext
    intro rights
    rw [rights_book honce, hrights]
  · funext value
    apply Option.ext
    rintro ⟨email, time⟩
    rw [tokens_book, htokens]

end Reading

/-!
## What the statements write
-/

section Writing

variable {db db' : Database}

theorem named_congr (h : db'.projects = db.projects) (id : Nat) (name : Str) :
    Named db' id name <-> Named db id name := by
  unfold Named
  rw [h]

theorem owner_congr (h : db'.users = db.users) (id : Nat) (email : Str) :
    Owner db' id email <-> Owner db id email := by
  unfold Owner
  rw [h]

theorem hasRights_congr (hrights : db'.projectUserRights = db.projectUserRights)
    (howner : forall id email, db.users.Has id -> (Owner db' id email <-> Owner db id email))
    (hnamed : forall id name, db.projects.Has id -> (Named db' id name <-> Named db id name))
    (email name : Str) (rights : ProjectRights) :
    HasRights db' email name rights <-> HasRights db email name rights := by
  unfold HasRights
  rw [hrights]
  apply exists_congr
  intro right
  constructor
  · rintro ⟨hmem, hown, hname, heq⟩
    exact ⟨hmem, (howner _ _ (db.right_user right hmem)).mp hown,
      (hnamed _ _ (db.right_project right hmem)).mp hname, heq⟩
  · rintro ⟨hmem, hown, hname, heq⟩
    exact ⟨hmem, (howner _ _ (db.right_user right hmem)).mpr hown,
      (hnamed _ _ (db.right_project right hmem)).mpr hname, heq⟩

theorem hasToken_congr (htokens : db'.tokens = db.tokens)
    (howner : forall id email, db.users.Has id -> (Owner db' id email <-> Owner db id email))
    (value email : Str) (time : Nat) :
    HasToken db' value email time <-> HasToken db value email time := by
  unfold HasToken
  rw [htokens]
  apply exists_congr
  intro token
  constructor
  · rintro ⟨hmem, hvalue, htime, hown⟩
    exact ⟨hmem, hvalue, htime, (howner _ _ (db.token_user token hmem)).mp hown⟩
  · rintro ⟨hmem, hvalue, htime, hown⟩
    exact ⟨hmem, hvalue, htime, (howner _ _ (db.token_user token hmem)).mpr hown⟩

theorem account_congr (h : db'.apiAccessKeys = db.apiAccessKeys) (user : Record User) :
    account db' user = account db user := by
  unfold account keyOf
  rw [h]

theorem insertUser_of_fresh (user : User) (h : db.users.Fresh User.email user.email) :
    exists db', db.insertUser user = Except.ok db' := by
  unfold insertUser
  rw [dif_pos h]
  exact ⟨_, rfl⟩

/-- A user that is new owns nothing. -/
theorem book_insertUser {user : User} (honce : OneRowEach db)
    (h : db.insertUser user = Except.ok db') :
    book db' = (book db).openAccount
      { email := user.email, pass := user.pass, admin := user.admin, apiAccessKey := none } := by
  rcases insertUser_ok h with ⟨husers, hprojects, hrights, htokens, hkeys⟩
  have howner : forall id email, db.users.Has id ->
      (Owner db' id email <-> Owner db id email) := by
    intro id email hhas
    constructor
    · rintro ⟨found, hfound, rfl, rfl⟩
      rw [husers] at hfound
      rcases Table.mem_insert.mp hfound with hold | rfl
      · exact owner_of_mem hold
      · rcases hhas with ⟨other, hother, hid⟩
        have hbound := db.users.bounded other hother
        rw [hid] at hbound
        exact absurd hbound (Nat.not_succ_le_self _)
    · exact owner_insertUser h
  apply book_eq (oneRowEach_of_eq honce hrights)
  · have hnone : keyOf db (db.users.last + 1) = none := by
      rw [Option.eq_none_iff_forall_ne_some]
      intro key hkey
      rcases keyOf_eq_some_iff.mp hkey with ⟨found, hfound, hid, _⟩
      rcases db.key_user found hfound with ⟨owner, hmem, howner⟩
      have hbound := db.users.bounded owner hmem
      rw [howner, hid] at hbound
      exact absurd hbound (Nat.not_succ_le_self _)
    rw [husers]
    unfold Table.insert
    rw [List.map_append, funext (account_congr hkeys)]
    unfold AccountBook.openAccount
    rw [List.map_singleton]
    unfold account
    rw [hnone]
    rfl
  · intro name
    exact (exists_congr fun id => named_congr hprojects id name).trans mem_projects_book.symm
  · intro email name rights
    exact (hasRights_congr hrights howner (fun id name _ => named_congr hprojects id name)
      email name rights).trans (rights_book honce).symm
  · intro value email time
    exact (hasToken_congr htokens howner value email time).trans tokens_book.symm

theorem owner_updateUsers_iff {p : Record User -> Bool} {f : User -> User}
    {hf : forall user, (f user).email = user.email} {id : Nat} {email : Str} :
    Owner (db.updateUsers p f hf) id email <-> Owner db id email := by
  constructor
  · rintro ⟨user, huser, rfl, rfl⟩
    rcases Table.mem_update.mp huser with ⟨old, hold, rfl⟩
    rw [Table.changeIf_id, Table.key_changeIf fun _ => hf old.row]
    exact owner_of_mem hold
  · exact owner_updateUsers

/-- A change of one user is a change of one account. -/
theorem book_updateUsers {found : Record User} {f : User -> User}
    {hf : forall user, (f user).email = user.email} {g : Account -> Account}
    (honce : OneRowEach db) (hfound : found ∈ db.users.records)
    (hg : forall user key,
      { email := (f user).email, pass := (f user).pass, admin := (f user).admin,
        apiAccessKey := key : Account } =
      g { email := user.email, pass := user.pass, admin := user.admin, apiAccessKey := key }) :
    book (db.updateUsers (fun user => user.id = found.id) f hf) =
      (book db).changeAccount found.row.email g := by
  have honce' : OneRowEach (db.updateUsers (fun user => user.id = found.id) f hf) := honce
  apply book_eq honce'
  · show (db.users.records.map (Table.changeIf _ f)).map (account db) =
      (db.users.records.map (account db)).map _
    rw [List.map_map, List.map_map]
    apply List.map_congr_left
    intro user huser
    rw [Function.comp_apply, Function.comp_apply, Table.changeIf]
    by_cases hid : user.id = found.id
    · rw [if_pos (decide_eq_true hid), if_pos]
      · exact hg user.row (keyOf db user.id)
      · rw [Table.eq_of_id huser hfound hid]
        rfl
    · rw [if_neg (by simpa using hid), if_neg]
      intro hemail
      exact hid (congrArg Record.id (db.unique_email user found huser hfound hemail))
  · intro name
    exact mem_projects_book.symm
  · intro email name rights
    exact (@hasRights_congr db (db.updateUsers _ f hf) rfl
      (fun _ _ _ => owner_updateUsers_iff) (fun _ _ _ => Iff.rfl)
      email name rights).trans (rights_book honce).symm
  · intro value email time
    exact (@hasToken_congr db (db.updateUsers _ f hf) rfl
      (fun _ _ _ => owner_updateUsers_iff) value email time).trans tokens_book.symm

theorem owner_ne_iff {user : Record User} {id : Nat} {email : Str}
    (huser : user ∈ db.users.records) (howner : Owner db id email) :
    id ≠ user.id <-> email ≠ user.row.email := by
  apply not_congr
  constructor
  · rintro rfl
    exact owner_unique howner (owner_of_mem huser)
  · rintro rfl
    exact owner_id_unique howner (owner_of_mem huser)

/-- The users that stay keep their keys. -/
theorem keyOf_removeUser {id : Nat} {other : Record User} (hother : other ∈ db.users.records)
    (hne : other.id ≠ id) : keyOf (db.removeUser id) other.id = keyOf db other.id := by
  apply Option.ext
  intro key
  rw [keyOf_eq_some_iff, keyOf_eq_some_iff]
  constructor
  · rintro ⟨found, hfound, hkey⟩
    exact ⟨found, (Table.mem_cascade.mp hfound).left, hkey⟩
  · rintro ⟨found, hfound, hid, hkey⟩
    refine ⟨found, Table.mem_cascade.mpr ⟨hfound, other, ?_, hid.symm⟩, hid, hkey⟩
    exact Table.mem_remove.mpr ⟨hother, by simpa using hne⟩

theorem hasRights_removeUser_iff {user : Record User} {email name : Str}
    {rights : ProjectRights} (huser : user ∈ db.users.records) :
    HasRights (db.removeUser user.id) email name rights <->
      HasRights db email name rights ∧ email ≠ user.row.email := by
  constructor
  · rintro ⟨right, hright, howner, hname, heq⟩
    rcases owner_removeUser_iff.mp howner with ⟨howner, hother⟩
    exact ⟨⟨right, (Table.mem_cascade.mp hright).left, howner, hname, heq⟩,
      (owner_ne_iff huser howner).mp hother⟩
  · rintro ⟨⟨right, hright, howner, hname, heq⟩, hemail⟩
    have howner' : Owner (db.removeUser user.id) right.row.userId email :=
      owner_removeUser_iff.mpr ⟨howner, (owner_ne_iff huser howner).mpr hemail⟩
    refine ⟨right, Table.mem_cascade.mpr ⟨hright, ?_⟩, howner', hname, heq⟩
    rcases howner' with ⟨owner, hmem, hid, _⟩
    exact ⟨owner, hmem, hid⟩

theorem hasToken_removeUser_iff {user : Record User} {value email : Str} {time : Nat}
    (huser : user ∈ db.users.records) :
    HasToken (db.removeUser user.id) value email time <->
      HasToken db value email time ∧ email ≠ user.row.email := by
  constructor
  · rintro ⟨token, htoken, hvalue, htime, howner⟩
    rcases owner_removeUser_iff.mp howner with ⟨howner, hother⟩
    exact ⟨⟨token, (mem_tokens_removeUser.mp htoken).left, hvalue, htime, howner⟩,
      (owner_ne_iff huser howner).mp hother⟩
  · rintro ⟨⟨token, htoken, hvalue, htime, howner⟩, hemail⟩
    have hid := (owner_ne_iff huser howner).mpr hemail
    exact ⟨token, mem_tokens_removeUser.mpr ⟨htoken, hid⟩, hvalue, htime,
      owner_removeUser_iff.mpr ⟨howner, hid⟩⟩

/-- What is removed with a user is what is struck out with the account. -/
theorem book_removeUser {user : Record User} (honce : OneRowEach db)
    (huser : user ∈ db.users.records) :
    book (db.removeUser user.id) = (book db).closeAccount user.row.email := by
  have honce' : OneRowEach (db.removeUser user.id) := Table.unique_remove _ honce
  apply book_eq honce'
  · show (db.users.records.filter _).map (account (db.removeUser user.id)) =
      (db.users.records.map (account db)).filter _
    rw [List.filter_map]
    have hfilter : (db.users.records.filter fun other => !decide (other.id = user.id)) =
        db.users.records.filter
          ((fun account => decide (account.email ≠ user.row.email)) ∘ account db) := by
      apply List.filter_congr
      intro other hother
      rw [Function.comp_apply, ← decide_not]
      exact decide_eq_decide.mpr (owner_ne_iff huser (owner_of_mem hother))
    rw [hfilter]
    apply List.map_congr_left
    intro other hother
    have hmem := List.mem_of_mem_filter hother
    rw [← hfilter, List.mem_filter] at hother
    unfold account
    rw [keyOf_removeUser hmem (by simpa using hother.right)]
  · intro name
    exact mem_projects_book.symm
  · intro email name rights
    show _ <-> (if email = user.row.email then none else (book db).rights email name) = _
    rw [hasRights_removeUser_iff huser, ← rights_book honce]
    by_cases hemail : email = user.row.email
    · rw [if_pos hemail]
      simp [hemail]
    · rw [if_neg hemail]
      simp [hemail]
  · intro value email time
    show _ <-> ((book db).tokens value).filter _ = _
    rw [hasToken_removeUser_iff huser, Option.filter_eq_some_iff, tokens_book,
      decide_eq_true_eq]

theorem book_insertToken {token : Token} {email : Str} (honce : OneRowEach db)
    (howner : Owner db token.userId email) (h : db.insertToken token = Except.ok db') :
    book db' = (book db).issueToken token.value email token.expirationTime := by
  rcases insertToken_ok h with ⟨htokens, husers, hprojects, hrights, hkeys⟩
  have hfresh : db.tokens.Fresh Token.value token.value := by
    rcases howner with ⟨user, huser, hid, _⟩
    exact ((takes_iff ⟨user, huser, hid⟩ token.expirationTime
      { value := token.value, fault := none }).mpr ⟨rfl, db', h⟩).right
  have hown := owner_congr husers
  apply book_eq (oneRowEach_of_eq honce hrights)
  · rw [husers, funext (account_congr hkeys)]
    rfl
  · intro name
    exact (exists_congr fun id => named_congr hprojects id name).trans mem_projects_book.symm
  · intro email name rights
    exact (hasRights_congr hrights (fun id email _ => hown id email)
      (fun id name _ => named_congr hprojects id name) email name rights).trans
      (rights_book honce).symm
  · intro value other time
    show _ <-> (if value = token.value then _ else (book db).tokens value) = _
    unfold HasToken
    rw [htokens]
    constructor
    · rintro ⟨found, hfound, rfl, rfl, howns⟩
      rw [hown] at howns
      rcases Table.mem_insert.mp hfound with hold | rfl
      · rw [if_neg (hfresh found hold), tokens_book]
        exact ⟨found, hold, rfl, rfl, howns⟩
      · rw [if_pos rfl, owner_unique howner howns]
    · intro hsome
      split at hsome
      · rename_i hvalue
        cases hsome
        exact ⟨_, Table.mem_insert.mpr (Or.inr rfl), hvalue.symm, rfl, (hown _ _).mpr howner⟩
      · rcases tokens_book.mp hsome with ⟨found, hfound, hvalue, htime, howns⟩
        exact ⟨found, Table.mem_insert.mpr (Or.inl hfound), hvalue, htime,
          (hown _ _).mpr howns⟩

theorem book_removeTokens (honce : OneRowEach db) (p : Str -> Nat -> Bool) :
    book (db.removeTokens fun token => p token.row.value token.row.expirationTime) =
      (book db).strikeTokens p := by
  have honce' : OneRowEach
      (db.removeTokens fun token => p token.row.value token.row.expirationTime) := honce
  apply book_eq honce'
  · rfl
  · intro name
    exact mem_projects_book.symm
  · intro email name rights
    exact (rights_book honce).symm
  · intro value email time
    show _ <-> ((book db).tokens value).filter _ = _
    rw [Option.filter_eq_some_iff, tokens_book, Bool.not_eq_true']
    constructor
    · rintro ⟨token, htoken, rfl, rfl, howner⟩
      rw [mem_removeTokens] at htoken
      exact ⟨⟨token, htoken.left, rfl, rfl, howner⟩, htoken.right⟩
    · rintro ⟨⟨token, htoken, rfl, rfl, howner⟩, hkept⟩
      exact ⟨token, mem_removeTokens.mpr ⟨htoken, hkept⟩, rfl, rfl, howner⟩

/-- The keys differ in those of one user. -/
theorem book_of_keys {user : Record User} {key : Option Str} (honce : OneRowEach db)
    (huser : user ∈ db.users.records) (husers : db'.users = db.users)
    (hprojects : db'.projects = db.projects)
    (hrights : db'.projectUserRights = db.projectUserRights)
    (htokens : db'.tokens = db.tokens)
    (hkeys : forall id, keyOf db' id = if id = user.id then key else keyOf db id) :
    book db' = (book db).changeAccount user.row.email fun account =>
      { account with apiAccessKey := key } := by
  have hown := owner_congr husers
  apply book_eq (oneRowEach_of_eq honce hrights)
  · show db'.users.records.map (account db') = (db.users.records.map (account db)).map _
    rw [husers, List.map_map]
    apply List.map_congr_left
    intro other hother
    rw [Function.comp_apply]
    unfold account
    rw [hkeys]
    by_cases hid : other.id = user.id
    · rw [if_pos hid, Table.eq_of_id hother huser hid, if_pos rfl]
    · rw [if_neg hid, if_neg]
      intro hemail
      exact hid (congrArg Record.id (db.unique_email other user hother huser hemail))
  · intro name
    exact (exists_congr fun id => named_congr hprojects id name).trans mem_projects_book.symm
  · intro email name rights
    exact (hasRights_congr hrights (fun id email _ => hown id email)
      (fun id name _ => named_congr hprojects id name) email name rights).trans
      (rights_book honce).symm
  · intro value email time
    exact (hasToken_congr htokens (fun id email _ => hown id email)
      value email time).trans tokens_book.symm

theorem book_insertApiAccessKey {user : Record User} {key : Str} (honce : OneRowEach db)
    (huser : user ∈ db.users.records)
    (h : db.insertApiAccessKey { userId := user.id, value := key } = Except.ok db') :
    book db' = (book db).changeAccount user.row.email fun account =>
      { account with apiAccessKey := some key } := by
  rcases insertApiAccessKey_ok h with ⟨hkeys, husers, hprojects, hrights, htokens⟩
  apply book_of_keys honce huser husers hprojects hrights htokens
  intro id
  apply Option.ext
  intro value
  have hnew : { id := db.apiAccessKeys.last + 1, row := { userId := user.id, value := key } } ∈
      db'.apiAccessKeys.records := by
    rw [hkeys]
    exact Table.mem_insert.mpr (Or.inr rfl)
  split
  · rename_i hid
    rw [keyOf_eq_some_iff, hid, Option.some.injEq]
    constructor
    · rintro ⟨found, hfound, howner, rfl⟩
      rw [← db'.unique_keyOwner _ found hnew hfound howner.symm]
    · rintro rfl
      exact ⟨_, hnew, rfl, rfl⟩
  · rename_i hid
    rw [keyOf_eq_some_iff, keyOf_eq_some_iff, hkeys]
    constructor
    · rintro ⟨found, hfound, howner, hvalue⟩
      rcases Table.mem_insert.mp hfound with hold | rfl
      · exact ⟨found, hold, howner, hvalue⟩
      · exact absurd howner.symm hid
    · rintro ⟨found, hfound, hfound'⟩
      exact ⟨found, Table.mem_insert.mpr (Or.inl hfound), hfound'⟩

theorem book_removeApiAccessKeys {user : Record User} {found : Record ApiAccessKey}
    (honce : OneRowEach db) (huser : user ∈ db.users.records)
    (hfound : found ∈ db.apiAccessKeys.records) (howner : user.id = found.row.userId) :
    book (db.removeApiAccessKeys fun key => key.id = found.id) =
      (book db).changeAccount user.row.email fun account =>
        { account with apiAccessKey := none } := by
  apply @book_of_keys db (db.removeApiAccessKeys _) user none honce huser rfl rfl rfl rfl
  intro id
  apply Option.ext
  intro value
  have hmem : forall key, key ∈
      (db.removeApiAccessKeys fun key => key.id = found.id).apiAccessKeys.records <->
        key ∈ db.apiAccessKeys.records ∧ key.id ≠ found.id := by
    intro key
    show key ∈ (db.apiAccessKeys.remove _).records <-> _
    rw [Table.mem_remove, decide_eq_false_iff_not]
  rw [keyOf_eq_some_iff]
  split
  · rename_i hid
    constructor
    · rintro ⟨key, hkey, hkeyOwner, _⟩
      rw [hmem] at hkey
      apply absurd _ hkey.right
      rw [db.unique_keyOwner key found hkey.left hfound
        (hkeyOwner.trans (hid.trans howner))]
    · exact nofun
  · rename_i hid
    rw [keyOf_eq_some_iff]
    constructor
    · rintro ⟨key, hkey, hrest⟩
      exact ⟨key, ((hmem key).mp hkey).left, hrest⟩
    · rintro ⟨key, hkey, hkeyOwner, hvalue⟩
      refine ⟨key, (hmem key).mpr ⟨hkey, ?_⟩, hkeyOwner, hvalue⟩
      intro heq
      apply hid
      rw [← hkeyOwner, howner, Table.eq_of_id hkey hfound heq]

/-- The flag of a project is not in the book. -/
theorem book_setDeleted (honce : OneRowEach db) (p : Record Project -> Bool)
    (deleted : Bool) : book (db.setDeleted p deleted) = book db := by
  have hnamed : forall id name, Named (db.setDeleted p deleted) id name <->
      Named db id name := by
    intro id name
    constructor
    · rintro ⟨project, hproject, rfl, rfl⟩
      rcases Table.mem_update.mp hproject with ⟨old, hold, rfl⟩
      refine ⟨old, hold, (Table.changeIf_id _ _ old).symm, ?_⟩
      exact (@Table.key_changeIf _ _ Project.name p _ old fun _ => rfl).symm
    · rintro ⟨project, hproject, rfl, rfl⟩
      refine ⟨_, Table.mem_update.mpr ⟨project, hproject, rfl⟩,
        Table.changeIf_id _ _ project, ?_⟩
      exact @Table.key_changeIf _ _ Project.name p _ project fun _ => rfl
  have honce' : OneRowEach (db.setDeleted p deleted) := honce
  apply book_eq honce'
  · rfl
  · intro name
    exact (exists_congr fun id => hnamed id name).trans mem_projects_book.symm
  · intro email name rights
    exact (@hasRights_congr db (db.setDeleted p deleted) rfl (fun _ _ _ => Iff.rfl)
      (fun id name _ => hnamed id name) email name rights).trans (rights_book honce).symm
  · intro value email time
    exact tokens_book.symm

theorem book_insertProject {project : Project} (honce : OneRowEach db)
    (h : db.insertProject project = Except.ok db') :
    book db' = (book db).enterProject project.name := by
  rcases insertProject_ok h with ⟨hprojects, husers, hrights, htokens, hkeys⟩
  have hown := owner_congr husers
  have hnamed : forall id name, db.projects.Has id ->
      (Named db' id name <-> Named db id name) := by
    intro id name hhas
    unfold Named
    rw [hprojects]
    constructor
    · rintro ⟨found, hfound, rfl, rfl⟩
      rcases Table.mem_insert.mp hfound with hold | rfl
      · exact named_of_mem hold
      · rcases hhas with ⟨other, hother, hid⟩
        have hbound := db.projects.bounded other hother
        rw [hid] at hbound
        exact absurd hbound (Nat.not_succ_le_self _)
    · rintro ⟨found, hfound, hrest⟩
      exact ⟨found, Table.mem_insert.mpr (Or.inl hfound), hrest⟩
  apply book_eq (oneRowEach_of_eq honce hrights)
  · rw [husers, funext (account_congr hkeys)]
    rfl
  · intro name
    show _ <-> name ∈ insert project.name (book db).projects
    rw [Finset.mem_insert, mem_projects_book]
    unfold Named
    rw [hprojects]
    constructor
    · rintro ⟨id, found, hfound, hid, rfl⟩
      rcases Table.mem_insert.mp hfound with hold | rfl
      · exact Or.inr ⟨id, found, hold, hid, rfl⟩
      · exact Or.inl rfl
    · rintro (rfl | ⟨id, found, hfound, hrest⟩)
      · exact ⟨_, _, Table.mem_insert.mpr (Or.inr rfl), rfl, rfl⟩
      · exact ⟨id, found, Table.mem_insert.mpr (Or.inl hfound), hrest⟩
  · intro email name rights
    exact (hasRights_congr hrights (fun id email _ => hown id email) hnamed
      email name rights).trans (rights_book honce).symm
  · intro value email time
    exact (hasToken_congr htokens (fun id email _ => hown id email)
      value email time).trans tokens_book.symm

/-- The rights behind a row that has been set. -/
theorem rights_setsRow {right : ProjectUserRight} {user : Record User}
    {project : Record Project} (huser : user ∈ db.users.records)
    (hproject : project ∈ db.projects.records) (huserId : right.userId = user.id)
    (hprojectId : right.projectId = project.id) (h : SetsRow db db' right)
    (email name : Str) :
    (book db').rights email name =
      if email = user.row.email ∧ name = project.row.name then some right.rights
      else (book db).rights email name := by
  unfold book withEmail withName
  rw [h.users, h.projects]
  dsimp only
  rcases withEmail_cases db email with ⟨other, hother, rfl, hselect⟩ | ⟨hfresh, hselect⟩
  · rcases withName_cases db name with
      ⟨found, hfound, rfl, hfoundSelect⟩ | ⟨hnoName, hfoundSelect⟩
    · unfold withEmail at hselect
      unfold withName at hfoundSelect
      rw [hselect, hfoundSelect]
      dsimp only
      by_cases hpair : other.id = user.id ∧ found.id = project.id
      · rcases h.row with ⟨record, hrecord, hrights⟩
        rw [huserId, hprojectId] at hrecord
        rw [hpair.left, hpair.right, hrecord, Table.eq_of_id hother huser hpair.left,
          Table.eq_of_id hfound hproject hpair.right, if_pos ⟨rfl, rfl⟩, ← hrights]
        rfl
      · rw [if_neg, h.others]
        · rw [pair, huserId, hprojectId]
          intro heq
          exact hpair (Prod.mk.inj heq)
        · rintro ⟨hemail, hname⟩
          apply hpair
          constructor
          · rw [db.unique_email other user hother huser hemail]
          · rw [db.unique_name found project hfound hproject hname]
    · unfold withEmail at hselect
      unfold withName at hfoundSelect
      rw [hselect, hfoundSelect, if_neg]
      rintro ⟨_, hname⟩
      exact hnoName project hproject hname.symm
  · unfold withEmail at hselect
    rw [hselect, if_neg]
    rintro ⟨hemail, _⟩
    exact hfresh user huser hemail.symm

/-- A row of rights that is set is an entry for its pair. -/
theorem book_setsRow {right : ProjectUserRight} {user : Record User}
    {project : Record Project} (huser : user ∈ db.users.records)
    (hproject : project ∈ db.projects.records) (huserId : right.userId = user.id)
    (hprojectId : right.projectId = project.id) (h : SetsRow db db' right)
    (htokens : db'.tokens = db.tokens) (hkeys : db'.apiAccessKeys = db.apiAccessKeys) :
    book db' = (book db).setRights user.row.email project.row.name right.rights := by
  have hown := owner_congr h.users
  apply book_eq h.once
  · rw [h.users, funext (account_congr hkeys)]
    rfl
  · intro name
    exact (exists_congr fun id => named_congr h.projects id name).trans
      mem_projects_book.symm
  · intro email name rights
    rw [← rights_book h.once]
    exact Eq.congr_left (rights_setsRow huser hproject huserId hprojectId h email name)
  · intro value email time
    exact (hasToken_congr htokens (fun id email _ => hown id email)
      value email time).trans tokens_book.symm

end Writing

end Database
end CisWebui
