import CisWebui.Database.AuthManager
import CisWebui.Foundation.SortedMap

/-!
# The rights manager and the table of projects

`rights_manager` over the database, and what `cis_manager` does to the table of
projects.
-/

namespace CisWebui
namespace RightsManager

open Cpp Foundation Database AuthManager

def allRights : ProjectRights where
  read := true
  write := true
  execute := true

def noRights : ProjectRights where
  read := false
  write := false
  execute := false

/-- `project_rights_ex` -/
structure ProjectRightsEx where
  admin : Bool
  rights : ProjectRights
deriving DecidableEq, Repr

/-- The projects with a name. -/
def withName (db : Database) (name : Str) : List (Record Project) :=
  db.projects.select fun project => project.row.name = name

theorem mem_of_withName {db : Database} {name : Str} {project : Record Project}
    {rest : List (Record Project)} (h : withName db name = project :: rest) :
    project ∈ db.projects.records ∧ project.row.name = name := by
  have hproject := Table.mem_of_select h
  rw [decide_eq_true_eq] at hproject
  exact hproject

theorem withName_of_mem {db : Database} {project : Record Project}
    (h : project ∈ db.projects.records) :
    withName db project.row.name = [project] :=
  Table.select_key db.unique_name h

/-- The rows of rights of a user on a project. -/
def rightsOn (db : Database) (userId projectId : Nat) :
    List (Record ProjectUserRight) :=
  db.projectUserRights.select fun right =>
    right.row.userId = userId && right.row.projectId = projectId

/-!
## Users
-/

def isAdmin (fault : Option ErrorCode) (email : Str) (db : Database) :
    Fallible Bool :=
  query fault <|
    match withEmail db email with
    | [user] => user.row.admin
    | _ => false

def setAdminStatus (fault : Option ErrorCode) (email : Str) (admin : Bool)
    (db : Database) : Fallible Bool × Database :=
  db.transaction fault <|
    match withEmail db email with
    | [found] =>
        Except.ok (true,
          db.updateUsers (fun user => user.id = found.id)
            (fun user => { user with admin := admin }) fun _ => rfl)
    | _ => Except.ok (false, db)

theorem setAdminStatus_cases (fault : Option ErrorCode) (email : Str)
    (admin : Bool) (db : Database) :
    (setAdminStatus fault email admin db).2 = db ∨
      exists found, found ∈ db.users.records ∧ found.row.email = email ∧
        (setAdminStatus fault email admin db).2 =
          db.updateUsers (fun user => user.id = found.id)
            (fun user => { user with admin := admin }) fun _ => rfl := by
  exact transaction_withEmail_cases fault email db fun found =>
    db.updateUsers (fun user => user.id = found.id)
      (fun user => { user with admin := admin }) fun _ => rfl

/-!
## Rights
-/

def checkProjectRight (fault : Option ErrorCode) (email project : Str)
    (db : Database) : Fallible (Option ProjectRights) :=
  query fault <|
    match withEmail db email, withName db project with
    | [user], [found] =>
        if user.row.admin then
          some allRights
        else
          match rightsOn db user.id found.id with
          | [right] => some right.row.rights
          | _ => none
    | _, _ => none

/-- The rows of rights with their projects, `inner_join<project>`. -/
def rightsWithProjects (db : Database) (userId : Nat) :
    List (Record ProjectUserRight × Record Project) :=
  (db.projectUserRights.join ProjectUserRight.projectId db.projects).filter
    fun (right, _) => right.row.userId = userId

def getPermissions (fault : Option ErrorCode) (email : Str) (db : Database) :
    Fallible (SortedMap Str ProjectRights) :=
  query fault <|
    match withEmail db email with
    | [user] =>
        let defaultRights := if user.row.admin then allRights else noRights
        let defaults := db.projects.records.foldl
          (fun result project => result.emplace project.row.name defaultRights)
          SortedMap.empty
        if user.row.admin then
          defaults
        else
          (rightsWithProjects db user.id).foldl
            (fun result (right, project) =>
              result.alter project.row.name fun _ => right.row.rights)
            defaults
    | _ => SortedMap.empty

/-- The rows of rights with their users, `inner_join<user>`. -/
def rightsWithUsers (db : Database) (projectId : Nat) :
    List (Record ProjectUserRight × Record User) :=
  (db.projectUserRights.join ProjectUserRight.userId db.users).filter
    fun (right, _) => right.row.projectId = projectId

/-- The default rights of a user in the list of a project. -/
def defaultEntry (user : User) : ProjectRightsEx :=
  if user.admin then { admin := true, rights := allRights }
  else { admin := false, rights := noRights }

/-- An administrator has all rights always. -/
def grantRights (rights : ProjectRights) (old : Option ProjectRightsEx) :
    ProjectRightsEx :=
  let entry := old.getD { admin := false, rights := noRights }
  if entry.admin then entry else { entry with rights := rights }

def getPermissionsByProject (fault : Option ErrorCode) (project : Str)
    (db : Database) : Fallible (SortedMap Str ProjectRightsEx) :=
  query fault <|
    match withName db project with
    | [found] =>
        let defaults := db.users.records.foldl
          (fun result user =>
            result.alter user.row.email fun _ => defaultEntry user.row)
          SortedMap.empty
        (rightsWithUsers db found.id).foldl
          (fun result (right, user) =>
            result.alter user.row.email (grantRights right.row.rights))
          defaults
    | _ => SortedMap.empty

def setUserProjectPermissions (fault : Option ErrorCode) (email project : Str)
    (rights : ProjectRights) (db : Database) : Fallible Bool × Database :=
  db.transaction fault <|
    match withEmail db email, withName db project with
    | [user], [found] => do
        let right :=
          { userId := user.id, projectId := found.id, rights := rights }
        let db ←
          match rightsOn db user.id found.id with
          | [old] => db.replaceProjectUserRight old.id right
          | _ => db.insertProjectUserRight right
        return (true, db)
    | _, _ => return (false, db)

/-- The call does nothing and does not return true, or it returns true: the one
row of the pair has been replaced, or a row inserted where there is not one. -/
theorem setUserProjectPermissions_done (fault : Option ErrorCode)
    (email project : Str) (rights : ProjectRights) (db : Database) :
    let result := setUserProjectPermissions fault email project rights db
    (result.1 ≠ Except.ok true ∧ result.2 = db) ∨
      exists user found,
        let right := { userId := user.id, projectId := found.id, rights := rights }
        result.1 = Except.ok true ∧
          withEmail db email = [user] ∧ withName db project = [found] ∧
          ((exists old, rightsOn db user.id found.id = [old] ∧
              db.replaceProjectUserRight old.id right = Except.ok result.2) ∨
            ((forall old, rightsOn db user.id found.id ≠ [old]) ∧
              db.insertProjectUserRight right = Except.ok result.2)) := by
  unfold setUserProjectPermissions
  rcases db.transaction_cases fault _ with ⟨ec, h⟩ | ⟨a, db', hbody, h⟩
  · rw [h]
    exact Or.inl ⟨(fun heq => by cases heq), rfl⟩
  · rw [h]
    split at hbody
    · rename_i user found huser hfound
      refine Or.inr ⟨user, found, ?_⟩
      dsimp only at hbody
      split at hbody
      · rename_i old hold
        cases hreplace : db.replaceProjectUserRight old.id
            { userId := user.id, projectId := found.id, rights := rights } with
        | error ec =>
            rw [hreplace] at hbody
            cases hbody
        | ok replaced =>
            rw [hreplace] at hbody
            cases hbody
            exact ⟨rfl, huser, hfound, Or.inl ⟨old, hold, hreplace⟩⟩
      · rename_i hnone
        cases hinsert : db.insertProjectUserRight
            { userId := user.id, projectId := found.id, rights := rights } with
        | error ec =>
            rw [hinsert] at hbody
            cases hbody
        | ok inserted =>
            rw [hinsert] at hbody
            cases hbody
            exact ⟨rfl, huser, hfound, Or.inr ⟨hnone, hinsert⟩⟩
    · cases hbody
      exact Or.inl ⟨(fun heq => by cases heq), rfl⟩

/-- What the call does to the rows of rights: nothing, or a new row for a pair
that has not exactly one, or another row in place of the one of the pair. -/
theorem setUserProjectPermissions_cases (fault : Option ErrorCode)
    (email project : Str) (rights : ProjectRights) (db : Database) :
    let result := (setUserProjectPermissions fault email project rights db).2
    result = db ∨
      exists user found,
        let right := { userId := user.id, projectId := found.id, rights := rights }
        user ∈ db.users.records ∧ found ∈ db.projects.records ∧
          result.users = db.users ∧ result.projects = db.projects ∧
          ((exists old, rightsOn db user.id found.id = [old] ∧
              result.projectUserRights =
                db.projectUserRights.update (fun r => r.id = old.id)
                  fun _ => right) ∨
            ((forall old, rightsOn db user.id found.id ≠ [old]) ∧
              result.projectUserRights = db.projectUserRights.insert right)) := by
  rcases setUserProjectPermissions_done fault email project rights db with
    ⟨_, hsame⟩ | ⟨user, found, _, huser, hfound, hdone⟩
  · exact Or.inl hsame
  refine Or.inr ⟨user, found, (mem_of_withEmail huser).left,
    (mem_of_withName hfound).left, ?_⟩
  rcases hdone with ⟨old, hold, hreplace⟩ | ⟨hnone, hinsert⟩
  · rcases replaceProjectUserRight_ok hreplace with ⟨hrights, husers, hprojects⟩
    exact ⟨husers, hprojects, Or.inl ⟨old, hold, hrights⟩⟩
  · rcases insertProjectUserRight_ok hinsert with ⟨hrights, husers, hprojects⟩
    exact ⟨husers, hprojects, Or.inr ⟨hnone, hrights⟩⟩

end RightsManager

/-!
## The table of projects
-/

namespace CisManager

open Cpp Foundation Database RightsManager

/-- A project that is on disk: a new row, or the old one that is no longer
deleted. -/
def enterProject (db : Database) (name : Str) : Except ErrorCode Database :=
  match withName db name with
  | [] => db.insertProject { name := name, deleted := false }
  | [found] => Except.ok (db.setDeleted (fun project => project.id = found.id) false)
  | _ => Except.ok db

/-- `refresh_projects`, with the names of the projects on disk. -/
def refreshProjects (fault : Option ErrorCode) (names : List Str)
    (db : Database) : Fallible Unit × Database :=
  db.transaction fault do
    let db ← names.foldlM enterProject (db.setDeleted (fun _ => true) true)
    return ((), db)

/-- `create_project`, with what `create_directory` has come to. -/
def createProject (fault : Option ErrorCode) (directory : Fallible Unit)
    (name : Str) (db : Database) : Fallible Unit × Database :=
  match directory with
  | Except.error ec => (Except.error ec, db)
  | Except.ok _ =>
      db.transaction fault do
        let db ← enterProject db name
        return ((), db)

/-- `remove_project`, once the directory is gone. -/
def removeProject (fault : Option ErrorCode) (name : Str) (db : Database) :
    Fallible Unit × Database :=
  db.transaction fault <|
    Except.ok ((), db.setDeleted (fun project => project.row.name = name) true)

/-- Nothing but the table of projects differs. -/
structure OnlyProjects (db db' : Database) : Prop where
  users : db'.users = db.users
  projectUserRights : db'.projectUserRights = db.projectUserRights
  tokens : db'.tokens = db.tokens
  apiAccessKeys : db'.apiAccessKeys = db.apiAccessKeys

theorem OnlyProjects.refl (db : Database) : OnlyProjects db db :=
  ⟨rfl, rfl, rfl, rfl⟩

theorem OnlyProjects.trans {db db' db'' : Database} (h : OnlyProjects db db')
    (h' : OnlyProjects db' db'') : OnlyProjects db db'' where
  users := h'.users.trans h.users
  projectUserRights := h'.projectUserRights.trans h.projectUserRights
  tokens := h'.tokens.trans h.tokens
  apiAccessKeys := h'.apiAccessKeys.trans h.apiAccessKeys

theorem onlyProjects_setDeleted (db : Database) (p : Record Project -> Bool)
    (deleted : Bool) : OnlyProjects db (db.setDeleted p deleted) :=
  ⟨rfl, rfl, rfl, rfl⟩

theorem onlyProjects_enterProject {db db' : Database} {name : Str}
    (h : enterProject db name = Except.ok db') : OnlyProjects db db' := by
  unfold enterProject at h
  split at h
  · rcases insertProject_ok h with ⟨_, husers, hrights, htokens, hkeys⟩
    exact ⟨husers, hrights, htokens, hkeys⟩
  · cases h
    exact onlyProjects_setDeleted _ _ _
  · cases h
    exact OnlyProjects.refl db

/-- Projects that have all been entered have been entered one by one. -/
theorem enterProject_of_foldlM_cons {name : Str} {rest : List Str} {db db' : Database}
    (h : (name :: rest).foldlM enterProject db = Except.ok db') :
    exists entered, enterProject db name = Except.ok entered ∧
      rest.foldlM enterProject entered = Except.ok db' := by
  rw [List.foldlM_cons] at h
  cases henter : enterProject db name with
  | error ec =>
      rw [henter] at h
      cases h
  | ok entered =>
      rw [henter] at h
      exact ⟨entered, rfl, h⟩

theorem onlyProjects_foldlM {names : List Str} {db db' : Database}
    (h : names.foldlM enterProject db = Except.ok db') : OnlyProjects db db' := by
  induction names generalizing db with
  | nil =>
      cases h
      exact OnlyProjects.refl _
  | cons name rest ih =>
      rcases enterProject_of_foldlM_cons h with ⟨entered, henter, hrest⟩
      exact (onlyProjects_enterProject henter).trans (ih hrest)

theorem onlyProjects_transaction {db : Database} {fault : Option ErrorCode}
    {body : Except ErrorCode (Unit × Database)}
    (hbody : forall db', body = Except.ok ((), db') -> OnlyProjects db db') :
    OnlyProjects db (db.transaction fault body).2 := by
  rcases db.transaction_cases fault body with ⟨ec, h⟩ | ⟨_, db', hok, h⟩
  · rw [h]
    exact OnlyProjects.refl db
  · rw [h]
    exact hbody db' hok

theorem onlyProjects_refreshProjects (fault : Option ErrorCode)
    (names : List Str) (db : Database) :
    OnlyProjects db (refreshProjects fault names db).2 := by
  apply onlyProjects_transaction
  intro db' hbody
  cases hfold : names.foldlM enterProject (db.setDeleted (fun _ => true) true) with
  | error ec =>
      rw [hfold] at hbody
      cases hbody
  | ok entered =>
      rw [hfold] at hbody
      cases hbody
      exact (onlyProjects_setDeleted _ _ _).trans (onlyProjects_foldlM hfold)

theorem onlyProjects_createProject (fault : Option ErrorCode)
    (directory : Fallible Unit) (name : Str) (db : Database) :
    OnlyProjects db (createProject fault directory name db).2 := by
  cases directory with
  | error ec => exact OnlyProjects.refl db
  | ok _ =>
      apply onlyProjects_transaction
      intro db' hbody
      cases henter : enterProject db name with
      | error ec =>
          rw [henter] at hbody
          cases hbody
      | ok entered =>
          rw [henter] at hbody
          cases hbody
          exact onlyProjects_enterProject henter

theorem onlyProjects_removeProject (fault : Option ErrorCode) (name : Str)
    (db : Database) : OnlyProjects db (removeProject fault name db).2 := by
  apply onlyProjects_transaction
  intro db' hbody
  cases hbody
  exact onlyProjects_setDeleted _ _ _

end CisManager
end CisWebui
