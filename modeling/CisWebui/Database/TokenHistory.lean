import CisWebui.Database.AuthManager
import CisWebui.Foundation.EventSystem

/-!
# Tokens and their history

The history of a run says which tokens are good: those that a login with a
password has returned within the last week, unless they or their user have been
deleted since.  The tables say the same.
-/

namespace CisWebui
namespace AuthManager

open Cpp Foundation Database

/-!
## Runs
-/

inductive Operation where
  | addUser (email pass : Str) (admin : Bool)
  | deleteUser (email : Str)
  | changePass (email newPass : Str)
  | authenticatePass (email pass : Str) (draws : List Draw)
  | authenticateToken (token : Str)
  | deleteToken (token : Str)
  | cleanup
deriving DecidableEq, Repr

inductive Answer where
  | done (success : Bool)
  | value (value : Option Str)
  | nothing
deriving DecidableEq, Repr

def answered {α : Type} (answer : α -> Answer) (result : Fallible α × Database) :
    Fallible Answer × Database :=
  (result.1.map answer, result.2)

/-- The operation at a time, with no failure of the database. -/
def Operation.perform (now : Nat) (db : Database) :
    Operation -> Option (Fallible Answer × Database)
  | addUser email pass admin =>
      some (answered Answer.done (AuthManager.addUser none email pass admin db))
  | deleteUser email =>
      some (answered Answer.done (AuthManager.deleteUser none email db))
  | changePass email newPass =>
      some (answered Answer.done (AuthManager.changePass none email newPass db))
  | authenticatePass email pass draws =>
      (AuthManager.authenticatePass none now draws email pass db).map
        (answered Answer.value)
  | authenticateToken token =>
      some (answered Answer.value (AuthManager.authenticateToken none now token db))
  | deleteToken token =>
      some (answered Answer.done (AuthManager.deleteToken none token db))
  | cleanup =>
      some (answered (fun _ => Answer.nothing) (AuthManager.cleanup none now db))

/-- What has been done, when, and with what answer. -/
structure Entry where
  time : Nat
  operation : Operation
  answer : Fallible Answer

structure Run where
  database : Database
  clock : Nat
  /-- The last operation comes first. -/
  history : List Entry

/-- An operation at a time; the clock does not go back. -/
def Run.step (s : Run) (event : Nat × Operation) : Option Run :=
  if s.clock <= event.1 then
    (event.2.perform event.1 s.database).map fun (answer, db) =>
      { database := db
        clock := event.1
        history :=
          { time := event.1, operation := event.2, answer := answer } ::
            s.history }
  else
    none

def tokenSystem (start : Database) : EventSystem Run (Nat × Operation) where
  init := { database := start, clock := 0, history := [] }
  step := Run.step

/-!
## Histories
-/

/-- A login of the user with the email returned the token. -/
def Entry.Issues (entry : Entry) (token email : Str) : Prop :=
  exists pass draws,
    entry.operation = Operation.authenticatePass email pass draws ∧
      entry.answer = Except.ok (Answer.value (some token))

/-- The token or the user has been deleted, with success. -/
def Entry.Revokes (entry : Entry) (token email : Str) : Prop :=
  (entry.operation = Operation.deleteToken token ∨
      entry.operation = Operation.deleteUser email) ∧
    entry.answer = Except.ok (Answer.done true)

/-- The token was returned to the user at the time, and neither has been deleted
since. -/
def Issued (history : List Entry) (token email : Str) (time : Nat) : Prop :=
  exists later entry earlier,
    history = later ++ entry :: earlier ∧ entry.Issues token email ∧
      entry.time = time ∧ forall e, e ∈ later -> ¬ e.Revokes token email

theorem issued_cons_iff {entry : Entry} {history : List Entry}
    {token email : Str} {time : Nat} :
    Issued (entry :: history) token email time <->
      (entry.Issues token email ∧ entry.time = time) ∨
        (¬ entry.Revokes token email ∧ Issued history token email time) := by
  constructor
  · intro h
    rcases h with ⟨later, e, earlier, heq, hissues, htime, hlater⟩
    cases later with
    | nil =>
        cases heq
        exact Or.inl ⟨hissues, htime⟩
    | cons first later =>
        cases heq
        refine Or.inr ⟨hlater entry (List.mem_cons_self ..), ?_⟩
        exact ⟨later, e, earlier, rfl, hissues, htime,
          fun e he => hlater e (List.mem_cons_of_mem _ he)⟩
  · intro h
    rcases h with ⟨hissues, htime⟩ | ⟨hrevokes, hissued⟩
    · exact ⟨[], entry, history, rfl, hissues, htime, fun _ he => by cases he⟩
    · rcases hissued with ⟨later, e, earlier, heq, hissues, htime, hlater⟩
      refine ⟨entry :: later, e, earlier, by rw [heq]; rfl, hissues, htime, ?_⟩
      intro a ha
      rcases List.mem_cons.mp ha with rfl | ha
      · exact hrevokes
      · exact hlater a ha

/-!
## What an operation does
-/

/-- What an operation does to the tokens, next to what its entry says of them. -/
inductive Effect (entry : Entry) (db db' : Database) : Prop where
  /-- Only expired tokens go. -/
  | quiet
      (silent : forall token email,
        ¬ entry.Issues token email ∧ ¬ entry.Revokes token email)
      (old : forall r, r ∈ db'.tokens.records -> r ∈ db.tokens.records)
      (kept : forall r, r ∈ db.tokens.records ->
        entry.time <= r.row.expirationTime -> r ∈ db'.tokens.records)
      (owners : forall id email, Owner db id email -> Owner db' id email)
  /-- A token is new. -/
  | issued (id : Nat) (token email : Str)
      (issues : forall t e, entry.Issues t e <-> t = token ∧ e = email)
      (revokes : forall t e, ¬ entry.Revokes t e)
      (tokens : db'.tokens = db.tokens.insert
        { userId := id
          value := token
          expirationTime := entry.time + week })
      (users : db'.users = db.users)
      (owner : Owner db id email)
  /-- The tokens of one value go. -/
  | revoked (token : Str)
      (issues : forall t e, ¬ entry.Issues t e)
      (revokes : forall t e, entry.Revokes t e <-> t = token)
      (tokens : forall r, r ∈ db'.tokens.records <->
        r ∈ db.tokens.records ∧ r.row.value ≠ token)
      (users : db'.users = db.users)
  /-- A user goes, and the user's tokens with it. -/
  | deleted (id : Nat) (email : Str)
      (issues : forall t e, ¬ entry.Issues t e)
      (revokes : forall t e, entry.Revokes t e <-> e = email)
      (tokens : forall r, r ∈ db'.tokens.records <->
        r ∈ db.tokens.records ∧ r.row.userId ≠ id)
      (owners : forall i e, Owner db' i e <-> Owner db i e ∧ i ≠ id)
      (owner : Owner db id email)

variable {now : Nat} {db db' : Database} {answer : Fallible Answer}

theorem effect_quiet {entry : Entry}
    (silent : forall token email,
      ¬ entry.Issues token email ∧ ¬ entry.Revokes token email)
    (htokens : db'.tokens = db.tokens)
    (howners : forall id email, Owner db id email -> Owner db' id email) :
    Effect entry db db' := by
  refine Effect.quiet silent ?_ ?_ howners
  · intro r hr
    rw [← htokens]
    exact hr
  · intro r hr _
    rw [htokens]
    exact hr

/-- The entry of an operation. -/
def Operation.entry (operation : Operation) (now : Nat)
    (answer : Fallible Answer) : Entry where
  time := now
  operation := operation
  answer := answer

theorem owner_insertUser {user : User} (h : db.insertUser user = Except.ok db')
    {id : Nat} {email : Str} (howner : Owner db id email) : Owner db' id email := by
  rcases howner with ⟨found, hfound, howner⟩
  refine ⟨found, ?_, howner⟩
  rw [(insertUser_ok h).left]
  exact Table.mem_insert.mpr (Or.inl hfound)

theorem owner_updateUsers {p : Record User -> Bool} {f : User -> User}
    {hf : forall user, (f user).email = user.email} {id : Nat} {email : Str}
    (h : Owner db id email) : Owner (db.updateUsers p f hf) id email := by
  rcases h with ⟨found, hfound, hid, hemail⟩
  refine ⟨Table.changeIf p f found, Table.mem_update.mpr ⟨found, hfound, rfl⟩,
    ?_, ?_⟩
  · rw [Table.changeIf_id, hid]
  · rw [Table.key_changeIf fun _ => hf found.row, hemail]

theorem owner_removeUser_iff {id i : Nat} {e : Str} :
    Owner (db.removeUser id) i e <-> Owner db i e ∧ i ≠ id := by
  have hmem : forall user : Record User,
      user ∈ (db.removeUser id).users.records <->
        user ∈ db.users.records ∧ user.id ≠ id := by
    intro user
    show user ∈ (db.users.remove _).records <-> _
    rw [Table.mem_remove, decide_eq_false_iff_not]
  constructor
  · intro h
    rcases h with ⟨user, huser, hid, hemail⟩
    rw [hmem, hid] at huser
    exact ⟨⟨user, huser.left, hid, hemail⟩, huser.right⟩
  · intro h
    rcases h with ⟨⟨user, huser, hid, hemail⟩, hne⟩
    refine ⟨user, ?_, hid, hemail⟩
    rw [hmem, hid]
    exact ⟨huser, hne⟩

theorem mem_tokens_removeUser {id : Nat} {r : Record Token} :
    r ∈ (db.removeUser id).tokens.records <->
      r ∈ db.tokens.records ∧ r.row.userId ≠ id := by
  show r ∈ (db.tokens.cascade Token.userId _).records <-> _
  rw [Table.mem_cascade]
  constructor
  · intro h
    rcases h with ⟨hr, user, huser, hid⟩
    rw [Table.mem_remove, decide_eq_false_iff_not, hid] at huser
    exact ⟨hr, huser.right⟩
  · intro h
    rcases h with ⟨hr, hne⟩
    rcases db.token_user r hr with ⟨user, huser, hid⟩
    refine ⟨hr, user, ?_, hid⟩
    rw [Table.mem_remove, decide_eq_false_iff_not, hid]
    exact ⟨huser, hne⟩

theorem mem_removeTokens {p : Record Token -> Bool} {r : Record Token} :
    r ∈ (db.removeTokens p).tokens.records <->
      r ∈ db.tokens.records ∧ p r = false :=
  Table.mem_remove

theorem effect_addUser (email pass : Str) (admin : Bool) :
    Effect
      ((Operation.addUser email pass admin).entry now
        ((addUser none email pass admin db).1.map Answer.done))
      db (addUser none email pass admin db).2 := by
  have hsilent : forall answer t e,
      ¬ ((Operation.addUser email pass admin).entry now answer).Issues t e ∧
        ¬ ((Operation.addUser email pass admin).entry now answer).Revokes t e := by
    intro answer t e
    simp [Entry.Issues, Entry.Revokes, Operation.entry]
  rcases addUser_cases none email pass admin db with h | h
  · rw [h.left]
    exact effect_quiet (hsilent _) rfl fun _ _ => id
  · apply effect_quiet (hsilent _)
    · rcases insertUser_ok h.right with ⟨_, _, _, htokens, _⟩
      exact htokens
    · intro id e
      exact owner_insertUser h.right

theorem effect_changePass (email newPass : Str) :
    Effect
      ((Operation.changePass email newPass).entry now
        ((changePass none email newPass db).1.map Answer.done))
      db (changePass none email newPass db).2 := by
  have hsilent : forall answer t e,
      ¬ ((Operation.changePass email newPass).entry now answer).Issues t e ∧
        ¬ ((Operation.changePass email newPass).entry now answer).Revokes t e := by
    intro answer t e
    simp [Entry.Issues, Entry.Revokes, Operation.entry]
  rcases changePass_cases none email newPass db with h | ⟨found, _, _, h⟩
  · rw [h]
    exact effect_quiet (hsilent _) rfl fun _ _ => id
  · rw [h]
    exact effect_quiet (hsilent _) rfl fun _ _ => owner_updateUsers

theorem effect_deleteUser (email : Str) :
    Effect
      ((Operation.deleteUser email).entry now
        ((deleteUser none email db).1.map Answer.done))
      db (deleteUser none email db).2 := by
  rcases deleteUser_cases none email db with h | ⟨user, huser, hemail, h⟩
  · rw [h.left]
    refine effect_quiet ?_ rfl fun _ _ => id
    intro t e
    cases hanswer : (deleteUser none email db).1 with
    | error ec => simp [Entry.Issues, Entry.Revokes, Operation.entry, Except.map]
    | ok done =>
        cases done with
        | true => exact absurd hanswer h.right
        | false =>
            simp [Entry.Issues, Entry.Revokes, Operation.entry, Except.map]
  · rw [h]
    refine Effect.deleted user.id email ?_ ?_ ?_ ?_ ⟨user, huser, rfl, hemail⟩
    · intro t e
      simp [Entry.Issues, Operation.entry]
    · intro t e
      simp [Entry.Revokes, Operation.entry, Except.map, eq_comm]
    · intro r
      exact mem_tokens_removeUser
    · intro i e
      exact owner_removeUser_iff

theorem effect_deleteToken (token : Str) :
    Effect
      ((Operation.deleteToken token).entry now
        ((deleteToken none token db).1.map Answer.done))
      db (deleteToken none token db).2 := by
  rcases deleteToken_cases none token db with ⟨ec, h⟩ | h
  · rw [h]
    refine effect_quiet ?_ rfl fun _ _ => id
    intro t e
    simp [Entry.Issues, Entry.Revokes, Operation.entry, Except.map]
  · rw [h]
    refine Effect.revoked token ?_ ?_ ?_ rfl
    · intro t e
      simp [Entry.Issues, Operation.entry]
    · intro t e
      simp [Entry.Revokes, Operation.entry, Except.map, eq_comm]
    · intro r
      rw [mem_removeTokens, decide_eq_false_iff_not]

theorem effect_authenticateToken (token : Str) :
    Effect
      ((Operation.authenticateToken token).entry now
        ((authenticateToken none now token db).1.map Answer.value))
      db (authenticateToken none now token db).2 := by
  have hsilent : forall answer t e,
      ¬ ((Operation.authenticateToken token).entry now answer).Issues t e ∧
        ¬ ((Operation.authenticateToken token).entry now answer).Revokes t e := by
    intro answer t e
    simp [Entry.Issues, Entry.Revokes, Operation.entry]
  rcases authenticateToken_cases none now token db with h | ⟨hexpired, h⟩
  · rw [h]
    exact effect_quiet (hsilent _) rfl fun _ _ => id
  · rw [h]
    refine Effect.quiet (hsilent _) ?_ ?_ fun _ _ => id
    · intro r hr
      exact (mem_removeTokens.mp hr).left
    · intro r hr htime
      rw [mem_removeTokens, decide_eq_false_iff_not]
      refine ⟨hr, ?_⟩
      intro hvalue
      exact absurd (hexpired r hr hvalue) (Nat.not_lt.mpr htime)

theorem effect_cleanup :
    Effect
      (Operation.cleanup.entry now
        ((cleanup none now db).1.map fun _ => Answer.nothing))
      db (cleanup none now db).2 := by
  refine Effect.quiet ?_ ?_ ?_ fun _ _ => id
  · intro t e
    simp [Entry.Issues, Entry.Revokes, Operation.entry]
  · intro r hr
    exact (mem_removeTokens.mp hr).left
  · intro r hr htime
    refine mem_removeTokens.mpr ⟨hr, ?_⟩
    rw [decide_eq_false_iff_not]
    exact Nat.not_lt.mpr htime

theorem effect_authenticatePass {email pass : Str} {draws : List Draw}
    {result : Fallible (Option Str) × Database}
    (h : authenticatePass none now draws email pass db = some result) :
    Effect
      ((Operation.authenticatePass email pass draws).entry now
        (result.1.map Answer.value))
      db result.2 := by
  have hrevokes : forall answer t e,
      ¬ ((Operation.authenticatePass email pass draws).entry now answer).Revokes
        t e := by
    intro answer t e
    simp [Entry.Revokes, Operation.entry]
  rcases authenticatePass_cases h with hquiet | ⟨user, token, huser, hemail, htoken, hinsert⟩
  · rw [hquiet.left]
    refine effect_quiet ?_ rfl fun _ _ => id
    intro t e
    refine ⟨?_, hrevokes _ t e⟩
    intro hissues
    rcases hissues with ⟨_, _, _, hanswer⟩
    have hnone := hquiet.right t
    cases hresult : result.1 with
    | error ec =>
        rw [hresult] at hanswer
        cases hanswer
    | ok value =>
        rw [hresult] at hanswer hnone
        cases hanswer
        exact hnone rfl
  · rcases insertToken_ok hinsert with ⟨htokens, husers, _⟩
    refine Effect.issued user.id token email ?_ (hrevokes _) htokens husers
      ⟨user, huser, rfl, hemail⟩
    intro t e
    rw [htoken]
    constructor
    · intro hissues
      rcases hissues with ⟨_, _, hoperation, hanswer⟩
      cases hoperation
      cases hanswer
      exact ⟨rfl, rfl⟩
    · intro heq
      rcases heq with ⟨rfl, rfl⟩
      exact ⟨pass, draws, rfl, rfl⟩

/-- What any operation does. -/
theorem effect_perform {operation : Operation}
    (h : operation.perform now db = some (answer, db')) :
    Effect (operation.entry now answer) db db' := by
  cases operation with
  | addUser email pass admin =>
      cases h
      exact effect_addUser email pass admin
  | deleteUser email =>
      cases h
      exact effect_deleteUser email
  | changePass email newPass =>
      cases h
      exact effect_changePass email newPass
  | authenticatePass email pass draws =>
      rcases Option.map_eq_some_iff.mp h with ⟨result, hresult, heq⟩
      cases heq
      exact effect_authenticatePass hresult
  | authenticateToken token =>
      cases h
      exact effect_authenticateToken token
  | deleteToken token =>
      cases h
      exact effect_deleteToken token
  | cleanup =>
      cases h
      exact effect_cleanup

/-!
## The coupling
-/

/-- The tables hold a token just as long as the history does not rule it out. -/
structure Coupled (s : Run) : Prop where
  sound : forall r, r ∈ s.database.tokens.records ->
    exists email time, Owner s.database r.row.userId email ∧
      Issued s.history r.row.value email time ∧
      r.row.expirationTime = time + week
  complete : forall token email time, Issued s.history token email time ->
    s.clock <= time + week ->
      exists r, r ∈ s.database.tokens.records ∧ r.row.value = token ∧
        r.row.expirationTime = time + week ∧
        Owner s.database r.row.userId email

theorem coupled_start (start : Database) (h : start.tokens.records = []) :
    Coupled (tokenSystem start).init where
  sound := by
    intro r hr
    have hnone : r ∈ start.tokens.records := hr
    rw [h] at hnone
    cases hnone
  complete := by
    intro token email time hissued
    rcases hissued with ⟨later, entry, earlier, heq, _⟩
    cases later with
    | nil => cases heq
    | cons first later => cases heq

theorem coupled_effect {s : Run} {entry : Entry} {db : Database}
    (h : Coupled s) (hclock : s.clock <= entry.time)
    (heffect : Effect entry s.database db) :
    Coupled
      { database := db
        clock := entry.time
        history := entry :: s.history } := by
  cases heffect with
  | quiet silent old kept owners =>
      constructor
      · intro r hr
        rcases h.sound r (old r hr) with ⟨email, time, howner, hissued, hexpires⟩
        exact ⟨email, time, owners _ _ howner,
          issued_cons_iff.mpr (Or.inr ⟨(silent _ _).right, hissued⟩), hexpires⟩
      · intro token email time hissued hfresh
        rcases issued_cons_iff.mp hissued with hnew | hold
        · exact absurd hnew.left (silent token email).left
        · rcases h.complete token email time hold.right
            (Nat.le_trans hclock hfresh) with ⟨r, hr, hvalue, hexpires, howner⟩
          refine ⟨r, kept r hr ?_, hvalue, hexpires, owners _ _ howner⟩
          rw [hexpires]
          exact hfresh
  | issued id token email issues revokes tokens users owner =>
      constructor
      · intro r hr
        rw [tokens, Table.mem_insert] at hr
        rcases hr with hr | rfl
        · rcases h.sound r hr with ⟨e, time, howner, hissued, hexpires⟩
          exact ⟨e, time, owner_of_users_eq users howner,
            issued_cons_iff.mpr (Or.inr ⟨revokes _ _, hissued⟩), hexpires⟩
        · exact ⟨email, entry.time, owner_of_users_eq users owner,
            issued_cons_iff.mpr (Or.inl ⟨(issues _ _).mpr ⟨rfl, rfl⟩, rfl⟩), rfl⟩
      · intro t e time hissued hfresh
        show exists r, r ∈ db.tokens.records ∧ _
        rw [tokens]
        rcases issued_cons_iff.mp hissued with ⟨hnew, rfl⟩ | hold
        · rcases (issues t e).mp hnew with ⟨rfl, rfl⟩
          exact ⟨_, Table.mem_insert.mpr (Or.inr rfl), rfl, rfl,
            owner_of_users_eq users owner⟩
        · rcases h.complete t e time hold.right
            (Nat.le_trans hclock hfresh) with ⟨r, hr, hvalue, hexpires, howner⟩
          exact ⟨r, Table.mem_insert.mpr (Or.inl hr), hvalue, hexpires,
            owner_of_users_eq users howner⟩
  | revoked token issues revokes tokens users =>
      constructor
      · intro r hr
        rcases (tokens r).mp hr with ⟨hr, hvalue⟩
        rcases h.sound r hr with ⟨e, time, howner, hissued, hexpires⟩
        refine ⟨e, time, owner_of_users_eq users howner, ?_, hexpires⟩
        rw [issued_cons_iff, revokes]
        exact Or.inr ⟨hvalue, hissued⟩
      · intro t e time hissued hfresh
        rcases issued_cons_iff.mp hissued with hnew | hold
        · exact absurd hnew.left (issues t e)
        · rw [revokes] at hold
          rcases h.complete t e time hold.right
            (Nat.le_trans hclock hfresh) with ⟨r, hr, hvalue, hexpires, howner⟩
          refine ⟨r, (tokens r).mpr ⟨hr, ?_⟩, hvalue, hexpires,
            owner_of_users_eq users howner⟩
          rw [hvalue]
          exact hold.left
  | deleted id email issues revokes tokens owners owner =>
      constructor
      · intro r hr
        rcases (tokens r).mp hr with ⟨hr, hid⟩
        rcases h.sound r hr with ⟨e, time, howner, hissued, hexpires⟩
        refine ⟨e, time, (owners _ _).mpr ⟨howner, hid⟩, ?_, hexpires⟩
        rw [issued_cons_iff, revokes]
        refine Or.inr ⟨?_, hissued⟩
        intro he
        rw [he] at howner
        exact hid (owner_id_unique howner owner)
      · intro t e time hissued hfresh
        rcases issued_cons_iff.mp hissued with hnew | hold
        · exact absurd hnew.left (issues t e)
        · rw [revokes] at hold
          rcases h.complete t e time hold.right
            (Nat.le_trans hclock hfresh) with ⟨r, hr, hvalue, hexpires, howner⟩
          have hid : r.row.userId ≠ id := by
            intro hid
            rw [hid] at howner
            exact hold.left (owner_unique howner owner)
          exact ⟨r, (tokens r).mpr ⟨hr, hid⟩, hvalue, hexpires,
            (owners _ _).mpr ⟨howner, hid⟩⟩

theorem coupled_step {s t : Run} {event : Nat × Operation} (h : Coupled s)
    (hstep : s.step event = some t) : Coupled t := by
  unfold Run.step at hstep
  split at hstep
  · rename_i hclock
    rcases Option.map_eq_some_iff.mp hstep with ⟨⟨answer, db⟩, hperform, rfl⟩
    exact coupled_effect h hclock (effect_perform hperform)
  · cases hstep

/-!
## Acceptance
-/

/-- The tables alone: which tokens are accepted, and for whom. -/
theorem authenticateToken_eq_some_iff {token email : Str} :
    (authenticateToken none now token db).1 = Except.ok (some email) <->
      exists r, r ∈ db.tokens.records ∧ r.row.value = token ∧
        now <= r.row.expirationTime ∧ Owner db r.row.userId email := by
  constructor
  · intro h
    unfold authenticateToken transaction at h
    dsimp only at h
    split at h
    · cases h
    · rename_i hbody
      cases h
      split at hbody
      · rename_i r hselect
        have hr := Table.mem_of_select hselect
        rw [decide_eq_true_eq] at hr
        split at hbody
        · cases hbody
        · rename_i hexpired
          have hfirst := congrArg Prod.fst (Except.ok.inj hbody)
          rcases Option.map_eq_some_iff.mp hfirst with ⟨user, huser, hemail⟩
          rw [List.head?_eq_some_iff] at huser
          rcases huser with ⟨rest, hrest⟩
          have howner := Table.mem_of_select hrest
          rw [decide_eq_true_eq] at howner
          exact ⟨r, hr.left, hr.right, Nat.not_lt.mp hexpired, user,
            howner.left, howner.right, hemail⟩
      · cases hbody
  · intro h
    rcases h with ⟨r, hr, rfl, htime, user, huser, hid, rfl⟩
    have htoken := Table.select_key db.unique_token hr
    have howner : db.users.select (fun user => user.id = r.row.userId) = [user] := by
      apply Table.select_eq_singleton huser
      · simpa using hid
      · intro other hother hother_id
        rw [decide_eq_true_eq] at hother_id
        exact Table.eq_of_id hother huser (hother_id.trans hid.symm)
    unfold authenticateToken
    rw [htoken]
    dsimp only
    rw [if_neg (Nat.not_lt.mpr htime), howner]
    rfl

/-- A token is accepted for a user just when a login of the user has returned it
within a week, and neither has been deleted since. -/
theorem authenticateToken_iff_issued (start : Database)
    (hstart : start.tokens.records = []) {s : Run}
    (hs : (tokenSystem start).Reachable s) {now : Nat} (hnow : s.clock <= now)
    (token email : Str) :
    (authenticateToken none now token s.database).1 = Except.ok (some email) <->
      exists time, Issued s.history token email time ∧ now <= time + week := by
  have hcoupled : Coupled s :=
    EventSystem.invariant_of_reachable (coupled_start start hstart)
      (fun _ _ _ hq hstep => coupled_step hq hstep) hs
  rw [authenticateToken_eq_some_iff]
  constructor
  · intro h
    rcases h with ⟨r, hr, rfl, htime, howner⟩
    rcases hcoupled.sound r hr with ⟨e, time, howner', hissued, hexpires⟩
    rw [owner_unique howner' howner] at hissued
    rw [hexpires] at htime
    exact ⟨time, hissued, htime⟩
  · intro h
    rcases h with ⟨time, hissued, htime⟩
    rcases hcoupled.complete token email time hissued
      (Nat.le_trans hnow htime) with ⟨r, hr, hvalue, hexpires, howner⟩
    refine ⟨r, hr, hvalue, ?_, howner⟩
    rw [hexpires]
    exact htime

/-- A login at the time 100, and a question at the last moment. -/
def sampleStart : Database :=
  (Database.empty.init none (str "root") (str "secret")).2

def sampleRun : List (Nat × Operation) :=
  [(100, Operation.authenticatePass (str "root") (str "secret")
    [{ value := str "token", fault := none }])]

theorem authenticateToken_iff_issued_sample :
    let s := ((tokenSystem sampleStart).runFrom
      (tokenSystem sampleStart).init sampleRun).get (by decide)
    (authenticateToken none (100 + week) (str "token") s.database).1 =
        Except.ok (some (str "root")) <->
      exists time, Issued s.history (str "token") (str "root") time ∧
        100 + week <= time + week := by
  intro s
  exact authenticateToken_iff_issued sampleStart (by decide)
    ⟨sampleRun, (Option.some_get _).symm⟩ (by decide) (str "token") (str "root")

example :
    let s := ((tokenSystem sampleStart).runFrom
      (tokenSystem sampleStart).init sampleRun).get (by decide)
    (authenticateToken none (100 + week) (str "token") s.database).1.toOption =
        some (some (str "root")) ∧
      (authenticateToken none (101 + week) (str "token") s.database).1.toOption =
        some none := by
  decide

end AuthManager
end CisWebui
