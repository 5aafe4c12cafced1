import CisWebui.Database.PermissionViews

/-!
# Setting a permission

`set_user_project_permissions` in every state that the calls of the managers
lead to: what the pair of the call may do afterwards, and that no other pair
notices.
-/

namespace CisWebui
namespace RightsManager

open Cpp Foundation Database AuthManager

/-!
## Calls
-/

/-- The calls that write the database: those of the permissions, and those of
the accounts that leave the permissions alone. -/
inductive Write where
  | permission (change : Change)
  | changePass (email newPass : Str)
  | authenticatePass (now : Nat) (draws : List Draw) (email pass : Str)
  | authenticateToken (now : Nat) (token : Str)
  | deleteToken (token : Str)
  | cleanup (now : Nat)
  | generateApiKey (draw : Draw) (email : Str)
  | removeApiKey (email : Str)

/-- The database after a call; `none` is a login that has not come to an end. -/
def Write.perform (fault : Option ErrorCode) (db : Database) :
    Write -> Option Database
  | permission change => some (change.perform fault db)
  | changePass email newPass =>
      some (AuthManager.changePass fault email newPass db).2
  | authenticatePass now draws email pass =>
      (AuthManager.authenticatePass fault now draws email pass db).map Prod.snd
  | authenticateToken now token =>
      some (AuthManager.authenticateToken fault now token db).2
  | deleteToken token => some (AuthManager.deleteToken fault token db).2
  | cleanup now => some (AuthManager.cleanup fault now db).2
  | generateApiKey draw email =>
      some (AuthManager.generateApiKey fault draw email db).2
  | removeApiKey email => some (AuthManager.removeApiKey fault email db).2

/-- A new database and all the calls that write it, each with the failure it
meets, if any. -/
def managerSystem : EventSystem Database (Option ErrorCode × Write) where
  init := Database.empty
  step := fun db event => event.2.perform event.1 db

/-- The calls of the accounts leave the rows of rights as they are. -/
theorem projectUserRights_perform {fault : Option ErrorCode} {db db' : Database}
    {write : Write} (h : write.perform fault db = some db') :
    (exists change, write = Write.permission change) ∨
      db'.projectUserRights = db.projectUserRights := by
  cases write with
  | permission change => exact Or.inl ⟨change, rfl⟩
  | changePass email newPass =>
      cases h
      rcases changePass_cases fault email newPass db with hsame | ⟨_, _, _, hset⟩
      · rw [hsame]
        exact Or.inr rfl
      · rw [hset]
        exact Or.inr rfl
  | authenticatePass now draws email pass =>
      rcases Option.map_eq_some_iff.mp h with ⟨result, hresult, rfl⟩
      rcases authenticatePass_cases hresult with ⟨hsame, _⟩ | ⟨_, _, _, _, _, hinsert⟩
      · rw [hsame]
        exact Or.inr rfl
      · exact Or.inr (insertToken_ok hinsert).right.right.right.left
  | authenticateToken now token =>
      cases h
      rcases authenticateToken_cases fault now token db with hsame | ⟨_, hremoved⟩
      · rw [hsame]
        exact Or.inr rfl
      · rw [hremoved]
        exact Or.inr rfl
  | deleteToken token =>
      cases h
      rcases deleteToken_cases fault token db with ⟨ec, hfailed⟩ | hremoved
      · rw [hfailed]
        exact Or.inr rfl
      · rw [hremoved]
        exact Or.inr rfl
  | cleanup now =>
      cases h
      unfold cleanup
      rcases db.transaction_cases fault _ with ⟨ec, hfailed⟩ | ⟨a, db', hbody, hdone⟩
      · rw [hfailed]
        exact Or.inr rfl
      · rw [hdone]
        cases hbody
        exact Or.inr rfl
  | generateApiKey draw email =>
      cases h
      rcases generateApiKey_cases fault draw email db with hsame | ⟨_, _, _, hinsert⟩
      · rw [hsame]
        exact Or.inr rfl
      · exact Or.inr (insertApiAccessKey_ok hinsert).right.right.right.left
  | removeApiKey email =>
      cases h
      rcases removeApiKey_cases fault email db with hsame | ⟨_, _, _, _, _, _, hremoved⟩
      · rw [hsame]
        exact Or.inr rfl
      · rw [hremoved]
        exact Or.inr rfl

theorem oneRowEach_of_managers {db : Database} (h : managerSystem.Reachable db) :
    OneRowEach db := by
  refine EventSystem.invariant_of_reachable ?_ ?_ h
  · exact Table.unique_empty pair
  · intro db event db' hdb hstep
    rcases projectUserRights_perform hstep with ⟨change, hchange⟩ | hsame
    · rcases event with ⟨fault, write⟩
      cases hchange
      cases hstep
      exact oneRowEach_perform hdb fault change
    · exact oneRowEach_of_eq hdb hsame

/-!
## The rows of rights
-/

section Rows

variable {db db' : Database}

/-- The rows of rights of two databases differ in one pair, which has the row in
the second one. -/
structure SetsRow (db db' : Database) (right : ProjectUserRight) : Prop where
  users : db'.users = db.users
  projects : db'.projects = db.projects
  once : OneRowEach db'
  row : exists record, rightsOn db' right.userId right.projectId = [record] ∧
    record.row.rights = right.rights
  others : forall {userId projectId}, (userId, projectId) ≠ pair right ->
    rightsOn db' userId projectId = rightsOn db userId projectId

/-- The condition that selects the rows of a pair. -/
theorem not_selected {userId projectId : Nat} {right : Record ProjectUserRight}
    (h : (userId, projectId) ≠ pair right.row) :
    (right.row.userId = userId && right.row.projectId = projectId) = false := by
  rw [Bool.and_eq_false_imp]
  intro huser
  rw [decide_eq_true_eq] at huser
  rw [decide_eq_false_iff_not]
  intro hproject
  apply h
  rw [pair, huser, hproject]

theorem rightsOn_of_mem (h : OneRowEach db) {record : Record ProjectUserRight}
    (hrecord : record ∈ db.projectUserRights.records) :
    rightsOn db record.row.userId record.row.projectId = [record] := by
  have hmem : record ∈ rightsOn db record.row.userId record.row.projectId :=
    mem_rightsOn.mpr ⟨hrecord, rfl, rfl⟩
  rcases rightsOn_cases h record.row.userId record.row.projectId with hrows | ⟨one, hrows⟩
  · rw [hrows] at hmem
    cases hmem
  · rw [hrows, List.mem_singleton] at hmem
    rw [hrows, hmem]

theorem setsRow_insert {right : ProjectUserRight} (h : OneRowEach db)
    (hnone : rightsOn db right.userId right.projectId = [])
    (hinsert : db.insertProjectUserRight right = Except.ok db') :
    SetsRow db db' right := by
  rcases insertProjectUserRight_ok hinsert with ⟨hrights, husers, hprojects⟩
  have honce : OneRowEach db' := by
    unfold OneRowEach
    rw [hrights]
    apply Table.unique_insert h
    intro other hother hpair
    have hmem : other ∈ rightsOn db right.userId right.projectId :=
      mem_rightsOn.mpr ⟨hother, congrArg Prod.fst hpair, congrArg Prod.snd hpair⟩
    rw [hnone] at hmem
    cases hmem
  constructor
  · exact husers
  · exact hprojects
  · exact honce
  · have hnew : { id := db.projectUserRights.last + 1, row := right } ∈
        db'.projectUserRights.records := by
      rw [hrights]
      exact Table.mem_insert.mpr (Or.inr rfl)
    exact ⟨_, rightsOn_of_mem honce hnew, rfl⟩
  · intro userId projectId hpair
    unfold rightsOn
    rw [hrights]
    exact Table.select_insert (not_selected hpair)

theorem setsRow_replace {right : ProjectUserRight} {old : Record ProjectUserRight}
    (h : OneRowEach db) (hold : rightsOn db right.userId right.projectId = [old])
    (hreplace : db.replaceProjectUserRight old.id right = Except.ok db') :
    SetsRow db db' right := by
  rcases replaceProjectUserRight_ok hreplace with ⟨hrights, husers, hprojects⟩
  have hmem := mem_rightsOn.mp (hold ▸ List.mem_singleton_self old)
  have hpair : pair right = pair old.row := by
    rw [pair, pair, hmem.right.left, hmem.right.right]
  have honce : OneRowEach db' := by
    unfold OneRowEach
    rw [hrights]
    exact Table.unique_replace h hmem.left hpair
  constructor
  · exact husers
  · exact hprojects
  · exact honce
  · have hnew : { old with row := right } ∈ db'.projectUserRights.records := by
      rw [hrights]
      refine Table.mem_update.mpr ⟨old, hmem.left, ?_⟩
      simp [Table.changeIf]
    exact ⟨_, rightsOn_of_mem honce hnew, rfl⟩
  · intro userId projectId hother
    unfold rightsOn
    rw [hrights]
    apply Table.select_update
    intro record hrecord hid
    have hsame : record = old :=
      Table.eq_of_id hrecord hmem.left (by simpa using hid)
    constructor
    · apply not_selected
      rw [hsame, ← hpair]
      exact hother
    · exact @not_selected userId projectId { record with row := right } hother

/-- The call does nothing and does not return true, or it returns true and sets
the row of its pair. -/
theorem setUserProjectPermissions_spec (h : OneRowEach db)
    (fault : Option ErrorCode) (email project : Str) (rights : ProjectRights) :
    let result := setUserProjectPermissions fault email project rights db
    (result.1 ≠ Except.ok true ∧ result.2 = db) ∨
      exists user found, result.1 = Except.ok true ∧
        withEmail db email = [user] ∧ withName db project = [found] ∧
        SetsRow db result.2
          { userId := user.id, projectId := found.id, rights := rights } := by
  rcases setUserProjectPermissions_done fault email project rights db with
    hsame | ⟨user, found, htrue, huser, hfound, hdone⟩
  · exact Or.inl hsame
  refine Or.inr ⟨user, found, htrue, huser, hfound, ?_⟩
  rcases hdone with ⟨old, hold, hreplace⟩ | ⟨hnone, hinsert⟩
  · exact setsRow_replace h hold hreplace
  · rcases rightsOn_cases h user.id found.id with hrows | ⟨old, hrows⟩
    · exact setsRow_insert h hrows hinsert
    · exact absurd hrows (hnone old)

/-- What the pair of a row that has been set may do. -/
theorem checkProjectRight_set {user : Record User} {found : Record Project}
    {email project : Str} {rights : ProjectRights}
    (huser : withEmail db email = [user]) (hfound : withName db project = [found])
    (h : SetsRow db db'
      { userId := user.id, projectId := found.id, rights := rights }) :
    checkProjectRight none email project db' =
      Except.ok (some (if user.row.admin then allRights else rights)) := by
  have huser' : withEmail db' email = [user] := by
    rw [← huser, withEmail, withEmail, h.users]
  have hfound' : withName db' project = [found] := by
    rw [← hfound, withName, withName, h.projects]
  rcases h.row with ⟨record, hrow, hrights⟩
  dsimp only at hrow hrights
  unfold checkProjectRight
  rw [huser', hfound']
  dsimp only
  rw [hrow]
  cases user.row.admin with
  | true => rfl
  | false =>
      dsimp only
      rw [hrights]
      rfl

/-- No other pair notices. -/
theorem checkProjectRight_other {user : Record User} {found : Record Project}
    {email project other name : Str} {rights : ProjectRights}
    (huser : withEmail db email = [user]) (hfound : withName db project = [found])
    (h : SetsRow db db'
      { userId := user.id, projectId := found.id, rights := rights })
    (hother : (other, name) ≠ (email, project)) :
    checkProjectRight none other name db' = checkProjectRight none other name db := by
  have husers : withEmail db' other = withEmail db other := by
    rw [withEmail, withEmail, h.users]
  have hprojects : withName db' name = withName db name := by
    rw [withName, withName, h.projects]
  unfold checkProjectRight
  rw [husers, hprojects]
  split
  · rename_i otherUser otherFound hotherUser hotherFound
    have hpair : (otherUser.id, otherFound.id) ≠ (user.id, found.id) := by
      intro heq
      apply hother
      rcases mem_of_withEmail huser with ⟨hmem, rfl⟩
      rcases mem_of_withName hfound with ⟨hmem', rfl⟩
      rcases mem_of_withEmail hotherUser with ⟨hmemUser, rfl⟩
      rcases mem_of_withName hotherFound with ⟨hmemFound, rfl⟩
      rw [Table.eq_of_id hmemUser hmem (congrArg Prod.fst heq),
        Table.eq_of_id hmemFound hmem' (congrArg Prod.snd heq)]
    rw [h.others hpair]
  · rfl

end Rows

/-- A permission that is set is that of its pair and of no other, and a call that
does not return true changes nothing. -/
theorem setUserProjectPermissions_frame {db : Database}
    (hdb : managerSystem.Reachable db) (fault : Option ErrorCode)
    (email project : Str) (rights : ProjectRights) :
    let result := setUserProjectPermissions fault email project rights db
    (result.1 = Except.ok true ->
      (exists admin, isAdmin none email db = Except.ok admin ∧
        checkProjectRight none email project result.2 =
          Except.ok (some (if admin then allRights else rights))) ∧
      (forall other name, (other, name) ≠ (email, project) ->
        checkProjectRight none other name result.2 =
          checkProjectRight none other name db) ∧
      OneRowEach result.2) ∧
    (result.1 ≠ Except.ok true -> result.2 = db) := by
  intro result
  have hspec := setUserProjectPermissions_spec (oneRowEach_of_managers hdb) fault email
    project rights
  rcases hspec with ⟨hnot, hsame⟩ | ⟨user, found, htrue, huser, hfound, hsets⟩
  · constructor
    · intro htrue
      exact absurd htrue hnot
    · intro _
      exact hsame
  · constructor
    · intro _
      refine ⟨⟨user.row.admin, ?_, checkProjectRight_set huser hfound hsets⟩, ?_,
        hsets.once⟩
      · rw [isAdmin, huser]
        rfl
      · intro other name hother
        exact checkProjectRight_other huser hfound hsets hother
    · intro hnot
      exact absurd htrue hnot

def sampleWrites : List (Option ErrorCode × Write) :=
  sampleChanges.map fun event => (event.1, Write.permission event.2)

/-- The user who had a right on the one project loses it. -/
theorem setUserProjectPermissions_frame_sample :
    let db := (managerSystem.runFrom managerSystem.init sampleWrites).get (by decide)
    let result := setUserProjectPermissions none (str "dev") (str "web") noRights db
    result.1 = Except.ok true ∧
      checkProjectRight none (str "dev") (str "web") result.2 =
        Except.ok (some noRights) ∧
      OneRowEach result.2 := by
  intro db result
  have hdb : managerSystem.Reachable db := ⟨sampleWrites, (Option.some_get _).symm⟩
  have htrue : result.1 = Except.ok true := by decide
  have hadmin : isAdmin none (str "dev") db = Except.ok false := by decide
  rcases (setUserProjectPermissions_frame hdb none (str "dev") (str "web")
    noRights).left htrue with ⟨⟨admin, hasked, hcheck⟩, _, honce⟩
  rw [hadmin] at hasked
  cases hasked
  exact ⟨htrue, hcheck, honce⟩

end RightsManager
end CisWebui
