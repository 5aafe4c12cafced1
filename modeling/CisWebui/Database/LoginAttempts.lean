import CisWebui.Database.AuthManager

/-!
# Attempts of a login

A login with a password tries one random token after the other until the
database takes one.  Whether it comes to an end is up to the database, and to
nothing else.
-/

namespace CisWebui
namespace AuthManager

open Cpp Foundation Database

/-- What the database does to one login: an error of the statements in front of
the loop, every attempt of the loop, and an error of the commit. -/
structure Behaviour where
  before : Option ErrorCode
  draws : Nat -> Draw
  commit : Option ErrorCode

namespace Behaviour

/-- The first attempts of the loop. -/
def first (b : Behaviour) (attempts : Nat) : List Draw :=
  (List.range attempts).map b.draws

/-- The commit behind the loop; an error of it takes the token back. -/
def committed (b : Behaviour) (db : Database) :
    Fallible (Option Str) × Database -> Fallible (Option Str) × Database
  | (Except.ok (some token), db') =>
      match b.commit with
      | some ec => (Except.error ec, db)
      | none => (Except.ok (some token), db')
  | result => result

/-- `authenticate` with a password, as far as it gets with so many attempts. -/
def authenticate (b : Behaviour) (attempts now : Nat) (email pass : Str)
    (db : Database) : Option (Fallible (Option Str) × Database) :=
  (authenticatePass b.before now (b.first attempts) email pass db).map
    (b.committed db)

end Behaviour

/-- There is a user with the credentials. -/
def Known (db : Database) (email pass : Str) : Prop :=
  exists user, user ∈ db.users.records ∧ user.row.email = email ∧
    user.row.pass = pass

/-- The result is an error, or a token that has been inserted. -/
def Settled (db : Database) (now : Nat) (email : Str)
    (result : Fallible (Option Str) × Database) : Prop :=
  (exists ec, result.1 = Except.error ec) ∨
    exists user token, user ∈ db.users.records ∧ user.row.email = email ∧
      result.1 = Except.ok (some token) ∧
      db.insertToken
        { userId := user.id, value := token, expirationTime := now + week } =
          Except.ok result.2

/-- The login comes to an end after finitely many attempts, with one of these
results; with the wrong credentials there is no attempt, and no token. -/
def LoginEnds (b : Behaviour) (now : Nat) (email pass : Str) (db : Database) :
    Prop :=
  exists attempts result, b.authenticate attempts now email pass db = some result ∧
    (Settled db now email result ∨
      ¬ Known db email pass ∧ attempts = 0 ∧ result = (Except.ok none, db))

/-!
## The loop
-/

section Loop

variable {db : Database} {userId : Nat}

/-- The database takes the token of the attempt. -/
def Takes (db : Database) (draw : Draw) : Prop :=
  draw.fault = none ∧ db.tokens.Fresh Token.value draw.value

theorem takes_iff (hhas : db.users.Has userId) (expirationTime : Nat) (draw : Draw) :
    Takes db draw <->
      draw.fault = none ∧ exists db', db.insertToken
        { userId := userId, value := draw.value, expirationTime := expirationTime } =
          Except.ok db' := by
  unfold Takes insertToken
  apply and_congr_right
  intro _
  by_cases hfresh : db.tokens.Fresh Token.value draw.value
  · rw [dif_pos ⟨hfresh, hhas⟩]
    exact iff_of_true hfresh ⟨_, rfl⟩
  · rw [dif_neg fun h => hfresh h.left]
    apply iff_of_false hfresh
    intro hexists
    rcases hexists with ⟨_, h⟩
    cases h

/-- The loop comes to an end with these attempts if the database takes one. -/
theorem generateToken_isSome_iff (hhas : db.users.Has userId) (expirationTime : Nat)
    (draws : List Draw) :
    (generateToken db userId expirationTime draws).isSome = true <->
      exists draw, draw ∈ draws ∧ Takes db draw := by
  induction draws with
  | nil => simp [generateToken]
  | cons draw rest ih =>
      have htakes := takes_iff hhas expirationTime draw
      rw [List.exists_mem_cons_iff, ← ih, generateToken]
      split
      · rename_i hfault hinsert
        exact iff_of_true rfl (Or.inl (htakes.mpr ⟨hfault, _, hinsert⟩))
      · rename_i hfailed
        have hnot : ¬ Takes db draw := by
          intro h
          rcases htakes.mp h with ⟨hfault, db', hinsert⟩
          exact hfailed db' hfault hinsert
        exact (or_iff_right hnot).symm

end Loop

/-!
## The login
-/

section Logins

variable {b : Behaviour} {email pass : Str} {db : Database}

/-- What the query for the credentials returns. -/
theorem select_credentials (db : Database) (email pass : Str) :
    (exists user, user ∈ db.users.records ∧ user.row.email = email ∧
        user.row.pass = pass ∧
        (db.users.select fun user =>
          user.row.email = email && user.row.pass = pass) = [user]) ∨
      ¬ Known db email pass ∧
        (db.users.select fun user =>
          user.row.email = email && user.row.pass = pass) = [] := by
  by_cases hknown : Known db email pass
  · rcases hknown with ⟨user, huser, hemail, hpass⟩
    refine Or.inl ⟨user, huser, hemail, hpass, ?_⟩
    apply Table.select_eq_singleton huser
    · simp [hemail, hpass]
    · intro other hother hselected
      rw [Bool.and_eq_true, decide_eq_true_eq] at hselected
      exact db.unique_email other user hother huser (hselected.left.trans hemail.symm)
  · refine Or.inr ⟨hknown, ?_⟩
    unfold Table.select
    rw [List.filter_eq_nil_iff]
    intro user huser hselected
    rw [Bool.and_eq_true, decide_eq_true_eq, decide_eq_true_eq] at hselected
    exact hknown ⟨user, huser, hselected⟩

/-- A known user's login has a result as soon as the database takes a token. -/
theorem authenticate_isSome_iff (hbefore : b.before = none)
    (hknown : Known db email pass) (now attempts : Nat) :
    (b.authenticate attempts now email pass db).isSome = true <->
      exists draw, draw ∈ b.first attempts ∧ Takes db draw := by
  rcases select_credentials db email pass with
    ⟨user, huser, _, _, hselect⟩ | ⟨hunknown, _⟩
  · have hhas : db.users.Has user.id := ⟨user, huser, rfl⟩
    unfold Behaviour.authenticate authenticatePass
    rw [hbefore, hselect]
    dsimp only
    rw [Option.isSome_map, Option.isSome_map, generateToken_isSome_iff hhas]
  · exact absurd hknown hunknown

/-- Whatever result a known user's login has, it is a proper one. -/
theorem settled_of_authenticate (hknown : Known db email pass) {now attempts : Nat}
    {result : Fallible (Option Str) × Database}
    (h : b.authenticate attempts now email pass db = some result) :
    Settled db now email result := by
  rcases Option.map_eq_some_iff.mp h with ⟨inner, hinner, rfl⟩
  rcases authenticatePass_cases hinner with
    ⟨hsame, hnone⟩ | ⟨user, token, huser, hemail, htoken, hinsert⟩
  · rcases inner with ⟨answer, db'⟩
    cases answer with
    | error ec => exact Or.inl ⟨ec, rfl⟩
    | ok answer =>
        cases answer with
        | some token => exact absurd rfl (hnone token)
        | none =>
            rcases select_credentials db email pass with
              ⟨user, _, _, _, hselect⟩ | ⟨hunknown, _⟩
            · unfold authenticatePass at hinner
              rw [hselect] at hinner
              split at hinner
              · cases hinner
              · rcases Option.map_eq_some_iff.mp hinner with ⟨_, _, heq⟩
                cases heq
            · exact absurd hknown hunknown
  · rcases inner with ⟨answer, db'⟩
    cases htoken
    unfold Behaviour.committed
    dsimp only
    cases b.commit with
    | some ec => exact Or.inl ⟨ec, rfl⟩
    | none => exact Or.inr ⟨user, token, huser, hemail, rfl, hinsert⟩

/-- A login ends exactly if it does not get to the loop, or the database takes one
of the tokens. -/
theorem loginEnds_iff (b : Behaviour) (now : Nat) (email pass : Str)
    (db : Database) :
    LoginEnds b now email pass db <->
      b.before ≠ none ∨ ¬ Known db email pass ∨
        exists attempt, Takes db (b.draws attempt) := by
  cases hbefore : b.before with
  | some ec =>
      apply iff_of_true
      · refine ⟨0, (Except.error ec, db), ?_, Or.inl (Or.inl ⟨ec, rfl⟩)⟩
        unfold Behaviour.authenticate authenticatePass
        rw [hbefore]
        rfl
      · exact Or.inl (Option.some_ne_none ec)
  | none =>
      rw [or_iff_right (not_not.mpr rfl)]
      by_cases hknown : Known db email pass
      · rw [or_iff_right (not_not.mpr hknown)]
        constructor
        · intro hends
          rcases hends with ⟨attempts, result, hresult, _⟩
          have hsome := Option.isSome_iff_exists.mpr ⟨result, hresult⟩
          rcases (authenticate_isSome_iff hbefore hknown now attempts).mp hsome with
            ⟨draw, hdraw, htakes⟩
          rcases List.mem_map.mp hdraw with ⟨attempt, _, rfl⟩
          exact ⟨attempt, htakes⟩
        · intro htaken
          rcases htaken with ⟨attempt, htakes⟩
          have hdraw : b.draws attempt ∈ b.first (attempt + 1) :=
            List.mem_map_of_mem (List.mem_range.mpr (Nat.lt_succ_self attempt))
          have hsome := (authenticate_isSome_iff hbefore hknown now
            (attempt + 1)).mpr ⟨_, hdraw, htakes⟩
          rcases Option.isSome_iff_exists.mp hsome with ⟨result, hresult⟩
          exact ⟨attempt + 1, result, hresult,
            Or.inl (settled_of_authenticate hknown hresult)⟩
      · apply iff_of_true
        · rcases select_credentials db email pass with
            ⟨user, huser, hemail, hpass, _⟩ | ⟨_, hselect⟩
          · exact absurd ⟨user, huser, hemail, hpass⟩ hknown
          · refine ⟨0, (Except.ok none, db), ?_, Or.inr ⟨hknown, rfl, rfl⟩⟩
            unfold Behaviour.authenticate authenticatePass
            rw [hbefore, hselect]
            rfl
        · exact Or.inl hknown

end Logins

/-- A database that takes nothing any more, since the disk is full. -/
theorem loginEnds_not_everywhere :
    ¬ forall b now email pass db, LoginEnds b now email pass db := by
  intro h
  let email := str "dev@host"
  let pass := str "secret"
  let db := (Database.empty.init none email pass).2
  let full : Draw := { value := [], fault := some ⟨str "database or disk is full"⟩ }
  let b : Behaviour := { before := none, draws := fun _ => full, commit := none }
  have hknown : Known db email pass := ⟨⟨1, ⟨email, pass, true⟩⟩, by decide⟩
  rcases h b 0 email pass db with ⟨attempts, result, hresult, _⟩
  have hsome := Option.isSome_iff_exists.mpr ⟨result, hresult⟩
  rcases (authenticate_isSome_iff rfl hknown 0 attempts).mp hsome with
    ⟨draw, hdraw, htakes⟩
  rcases List.mem_map.mp hdraw with ⟨_, _, rfl⟩
  cases htakes.left

end AuthManager
end CisWebui
