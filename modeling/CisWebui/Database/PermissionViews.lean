import CisWebui.Database.RightsManager
import CisWebui.Foundation.EventSystem

/-!
# Three views of the permissions

The right of a user on a project is asked for in three ways: one pair at a time,
by user, and by project.  They agree as long as no pair has two rows of rights.
The tables do not say so; the calls that write them do.
-/

namespace CisWebui
namespace RightsManager

open Cpp Foundation Database AuthManager CisManager

/-!
## Runs
-/

/-- The calls that write users, projects and rights; with the first one, a new
database gets its administrator. -/
inductive Change where
  | init (email pass : Str)
  | addUser (email pass : Str) (admin : Bool)
  | deleteUser (email : Str)
  | setAdminStatus (email : Str) (admin : Bool)
  | createProject (directory : Fallible Unit) (name : Str)
  | removeProject (name : Str)
  | refreshProjects (names : List Str)
  | setUserProjectPermissions (email project : Str) (rights : ProjectRights)

def Change.perform (fault : Option ErrorCode) (db : Database) : Change -> Database
  | init email pass => (db.init fault email pass).2
  | addUser email pass admin => (AuthManager.addUser fault email pass admin db).2
  | deleteUser email => (AuthManager.deleteUser fault email db).2
  | setAdminStatus email admin =>
      (RightsManager.setAdminStatus fault email admin db).2
  | createProject directory name =>
      (CisManager.createProject fault directory name db).2
  | removeProject name => (CisManager.removeProject fault name db).2
  | refreshProjects names => (CisManager.refreshProjects fault names db).2
  | setUserProjectPermissions email project rights =>
      (RightsManager.setUserProjectPermissions fault email project rights db).2

/-- A new database and the calls that write it, each with the failure it meets,
if any. -/
def permissionSystem : EventSystem Database (Option ErrorCode × Change) where
  init := Database.empty
  step := fun db event => some (event.2.perform event.1 db)

/-!
## One row for a pair
-/

def pair (right : ProjectUserRight) : Nat × Nat :=
  (right.userId, right.projectId)

/-- No user has two rows of rights on a project. -/
def OneRowEach (db : Database) : Prop :=
  db.projectUserRights.Unique pair

theorem oneRowEach_of_eq {db db' : Database} (h : OneRowEach db)
    (hrights : db'.projectUserRights = db.projectUserRights) : OneRowEach db' := by
  unfold OneRowEach
  rw [hrights]
  exact h

theorem mem_rightsOn {db : Database} {userId projectId : Nat}
    {right : Record ProjectUserRight} :
    right ∈ rightsOn db userId projectId <->
      right ∈ db.projectUserRights.records ∧ right.row.userId = userId ∧
        right.row.projectId = projectId := by
  unfold rightsOn
  rw [Table.mem_select, Bool.and_eq_true, decide_eq_true_eq, decide_eq_true_eq]

/-- A pair has no row or one. -/
theorem rightsOn_cases {db : Database} (h : OneRowEach db)
    (userId projectId : Nat) :
    rightsOn db userId projectId = [] ∨
      exists right, rightsOn db userId projectId = [right] := by
  cases hrows : rightsOn db userId projectId with
  | nil => exact Or.inl rfl
  | cons right rest =>
      have hfirst : right ∈ rightsOn db userId projectId := by
        rw [hrows]
        exact List.mem_cons_self ..
      rw [mem_rightsOn] at hfirst
      refine Or.inr ⟨right, ?_⟩
      rw [← hrows]
      apply Table.select_eq_singleton hfirst.left
      · simpa using hfirst.right
      · intro other hother hpair
        rw [Bool.and_eq_true, decide_eq_true_eq, decide_eq_true_eq] at hpair
        apply h other right hother hfirst.left
        unfold pair
        rw [hpair.left, hpair.right, hfirst.right.left, hfirst.right.right]

theorem oneRowEach_setUserProjectPermissions {db : Database} (h : OneRowEach db)
    (fault : Option ErrorCode) (email project : Str) (rights : ProjectRights) :
    OneRowEach (setUserProjectPermissions fault email project rights db).2 := by
  rcases setUserProjectPermissions_cases fault email project rights db with
    hsame | ⟨user, found, _, _, _, _, ⟨old, hold, hrights⟩ | ⟨hnone, hrights⟩⟩
  · rw [hsame]
    exact h
  · have hmem := mem_rightsOn.mp (hold ▸ List.mem_singleton_self old)
    unfold OneRowEach
    rw [hrights]
    apply Table.unique_replace h hmem.left
    unfold pair
    rw [hmem.right.left, hmem.right.right]
  · unfold OneRowEach
    rw [hrights]
    apply Table.unique_insert h
    intro right hright hpair
    have hmem : right ∈ rightsOn db user.id found.id := by
      rw [mem_rightsOn]
      exact ⟨hright, congrArg Prod.fst hpair, congrArg Prod.snd hpair⟩
    rcases rightsOn_cases h user.id found.id with hrows | ⟨old, hrows⟩
    · rw [hrows] at hmem
      cases hmem
    · exact hnone old hrows

theorem oneRowEach_perform {db : Database} (h : OneRowEach db)
    (fault : Option ErrorCode) (change : Change) :
    OneRowEach (change.perform fault db) := by
  cases change with
  | init email pass =>
      show OneRowEach (db.init fault email pass).2
      rcases db.init_cases fault email pass with hsame | hinsert
      · rw [hsame]
        exact h
      · rcases insertUser_ok hinsert with ⟨_, _, hrights, _, _⟩
        exact oneRowEach_of_eq h hrights
  | addUser email pass admin =>
      show OneRowEach (AuthManager.addUser fault email pass admin db).2
      rcases addUser_cases fault email pass admin db with hsame | hinsert
      · rw [hsame.left]
        exact h
      · rcases insertUser_ok hinsert.right with ⟨_, _, hrights, _, _⟩
        exact oneRowEach_of_eq h hrights
  | deleteUser email =>
      show OneRowEach (AuthManager.deleteUser fault email db).2
      rcases deleteUser_cases fault email db with hsame | ⟨user, _, _, hdelete⟩
      · rw [hsame.left]
        exact h
      · rw [hdelete]
        exact Table.unique_remove _ h
  | setAdminStatus email admin =>
      show OneRowEach (RightsManager.setAdminStatus fault email admin db).2
      rcases setAdminStatus_cases fault email admin db with hsame | ⟨_, _, _, hset⟩
      · rw [hsame]
        exact h
      · rw [hset]
        exact h
  | createProject directory name =>
      exact oneRowEach_of_eq h
        (onlyProjects_createProject fault directory name db).projectUserRights
  | removeProject name =>
      exact oneRowEach_of_eq h
        (onlyProjects_removeProject fault name db).projectUserRights
  | refreshProjects names =>
      exact oneRowEach_of_eq h
        (onlyProjects_refreshProjects fault names db).projectUserRights
  | setUserProjectPermissions email project rights =>
      exact oneRowEach_setUserProjectPermissions h fault email project rights

theorem oneRowEach_reachable {db : Database} (h : permissionSystem.Reachable db) :
    OneRowEach db := by
  refine EventSystem.invariant_of_reachable ?_ ?_ h
  · exact Table.unique_empty pair
  · intro s event t hs hstep
    cases hstep
    exact oneRowEach_perform hs event.1 event.2

/-!
## The views
-/

/-- The right of a user on a project: all of an administrator's, or those of
the row. -/
def granted (db : Database) (user : Record User) (project : Record Project) :
    ProjectRights :=
  if user.row.admin then
    allRights
  else
    ((rightsOn db user.id project.id).head?.map fun right => right.row.rights).getD
      noRights

section Views

variable {db : Database} {user : Record User} {project : Record Project}

theorem isAdmin_eq (huser : user ∈ db.users.records) :
    isAdmin none user.row.email db = Except.ok user.row.admin := by
  unfold isAdmin
  rw [withEmail_of_mem huser]
  rfl

theorem checkProjectRight_eq (h : OneRowEach db)
    (huser : user ∈ db.users.records) (hproject : project ∈ db.projects.records) :
    exists answer,
      checkProjectRight none user.row.email project.row.name db =
          Except.ok answer ∧
        answer.getD noRights = granted db user project := by
  refine ⟨_, rfl, ?_⟩
  rw [withEmail_of_mem huser, withName_of_mem hproject]
  unfold granted
  dsimp only
  split
  · rfl
  · rcases rightsOn_cases h user.id project.id with hrows | ⟨right, hrows⟩
    · rw [hrows]
      rfl
    · rw [hrows]
      rfl

theorem assigns_default (rights : ProjectRights) :
    SortedMap.Assigns
      (fun (result : SortedMap Str ProjectRights) (project : Record Project) =>
        result.emplace project.row.name rights)
      (fun project => project.row.name) fun _ old => old.getD rights := by
  intro result project k
  rw [SortedMap.find?_emplace]
  split
  · rename_i heq
    rw [heq]
  · rfl

/-- Alterations one after the other. -/
theorem assigns_alter {α Value : Type} (key : α -> Str)
    (f : α -> Option Value -> Value) :
    SortedMap.Assigns
      (fun (result : SortedMap Str Value) a => result.alter (key a) (f a)) key f := by
  intro result a k
  rw [SortedMap.find?_alter]
  split
  · rename_i heq
    rw [heq]
  · rfl

theorem find?_defaultPermissions (hproject : project ∈ db.projects.records)
    (rights : ProjectRights) :
    (db.projects.records.foldl
      (fun (result : SortedMap Str ProjectRights) project =>
        result.emplace project.row.name rights)
      SortedMap.empty).find? project.row.name = some rights :=
  SortedMap.find?_foldl_of_mem (assigns_default rights)
    (fun _ _ _ => rfl) (fun _ _ _ => rfl) hproject rfl

/-- The joined rows under the name of a project are the rows of the pair. -/
theorem mem_rightsWithProjects (hproject : project ∈ db.projects.records)
    {right : Record ProjectUserRight} {other : Record Project} :
    (right, other) ∈ rightsWithProjects db user.id ∧
        other.row.name = project.row.name <->
      right ∈ rightsOn db user.id project.id ∧ other = project := by
  unfold rightsWithProjects
  rw [List.mem_filter, Table.mem_join, mem_rightsOn, decide_eq_true_eq]
  constructor
  · intro h
    rcases h with ⟨⟨⟨hright, hother, hid⟩, huser⟩, hname⟩
    have heq := db.unique_name other project hother hproject hname
    rw [heq] at hid
    exact ⟨⟨hright, huser, hid.symm⟩, heq⟩
  · intro h
    rcases h with ⟨⟨hright, huser, hid⟩, rfl⟩
    exact ⟨⟨⟨hright, hproject, hid.symm⟩, huser⟩, rfl⟩

theorem getPermissions_eq (h : OneRowEach db) (huser : user ∈ db.users.records)
    (hproject : project ∈ db.projects.records) :
    exists permissions,
      getPermissions none user.row.email db = Except.ok permissions ∧
        permissions.find? project.row.name = some (granted db user project) := by
  refine ⟨_, rfl, ?_⟩
  rw [withEmail_of_mem huser]
  unfold granted
  dsimp only
  split
  · exact find?_defaultPermissions hproject allRights
  · have hdefault := find?_defaultPermissions hproject noRights
    have hstep := assigns_alter
      (fun (entry : Record ProjectUserRight × Record Project) => entry.2.row.name)
      fun entry (_ : Option ProjectRights) => entry.1.row.rights
    rcases rightsOn_cases h user.id project.id with hrows | ⟨right, hrows⟩
    · rw [hrows]
      refine (SortedMap.find?_foldl_of_not_mem hstep ?_ _).trans hdefault
      intro entry hentry hname
      have hmem := (mem_rightsWithProjects hproject).mp ⟨hentry, hname⟩
      rw [hrows] at hmem
      cases hmem.left
    · have honly : forall entry, entry ∈ rightsWithProjects db user.id ->
          entry.2.row.name = project.row.name ->
          entry.1.row.rights = right.row.rights := by
        intro entry hentry hname
        have hmem := (mem_rightsWithProjects hproject).mp ⟨hentry, hname⟩
        rw [hrows, List.mem_singleton] at hmem
        rw [hmem.left]
      have hright : (right, project) ∈ rightsWithProjects db user.id := by
        refine ((mem_rightsWithProjects hproject).mpr ⟨?_, rfl⟩).left
        rw [hrows]
        exact List.mem_singleton_self right
      rw [hrows]
      exact SortedMap.find?_foldl_of_mem hstep honly honly hright rfl

/-- The joined rows under the email of a user are the rows of the pair. -/
theorem mem_rightsWithUsers (huser : user ∈ db.users.records)
    {right : Record ProjectUserRight} {other : Record User} :
    (right, other) ∈ rightsWithUsers db project.id ∧
        other.row.email = user.row.email <->
      right ∈ rightsOn db user.id project.id ∧ other = user := by
  unfold rightsWithUsers
  rw [List.mem_filter, Table.mem_join, mem_rightsOn, decide_eq_true_eq]
  constructor
  · intro h
    rcases h with ⟨⟨⟨hright, hother, hid⟩, hproject⟩, hemail⟩
    have heq := db.unique_email other user hother huser hemail
    rw [heq] at hid
    exact ⟨⟨hright, hid.symm, hproject⟩, heq⟩
  · intro h
    rcases h with ⟨⟨hright, hid, hproject⟩, rfl⟩
    exact ⟨⟨⟨hright, huser, hid.symm⟩, hproject⟩, rfl⟩

theorem find?_defaultEntries (huser : user ∈ db.users.records) :
    (db.users.records.foldl
      (fun (result : SortedMap Str ProjectRightsEx) user =>
        result.alter user.row.email fun _ => defaultEntry user.row)
      SortedMap.empty).find? user.row.email = some (defaultEntry user.row) := by
  have honly : forall other, other ∈ db.users.records ->
      other.row.email = user.row.email ->
      defaultEntry other.row = defaultEntry user.row := by
    intro other hother hemail
    rw [db.unique_email other user hother huser hemail]
  exact SortedMap.find?_foldl_of_mem
    (assigns_alter (fun (user : Record User) => user.row.email)
      fun user (_ : Option ProjectRightsEx) => defaultEntry user.row)
    honly honly huser rfl

theorem getPermissionsByProject_eq (h : OneRowEach db)
    (huser : user ∈ db.users.records) (hproject : project ∈ db.projects.records) :
    exists permissions,
      getPermissionsByProject none project.row.name db = Except.ok permissions ∧
        permissions.find? user.row.email =
          some { admin := user.row.admin, rights := granted db user project } := by
  refine ⟨_, rfl, ?_⟩
  rw [withName_of_mem hproject]
  have hdefault := find?_defaultEntries huser
  have hstep := assigns_alter
    (fun (entry : Record ProjectUserRight × Record User) => entry.2.row.email)
    fun entry => grantRights entry.1.row.rights
  unfold granted
  unfold defaultEntry at hdefault
  cases hadmin : user.row.admin with
  | true =>
      rw [hadmin, if_pos rfl] at hdefault
      exact SortedMap.find?_foldl_of_some hstep (fun _ _ _ => rfl) hdefault
  | false =>
      rw [hadmin, if_neg Bool.false_ne_true] at hdefault
      rw [if_neg Bool.false_ne_true]
      rcases rightsOn_cases h user.id project.id with hrows | ⟨right, hrows⟩
      · rw [hrows]
        refine (SortedMap.find?_foldl_of_not_mem hstep ?_ _).trans hdefault
        intro entry hentry hemail
        have hmem := (mem_rightsWithUsers huser).mp ⟨hentry, hemail⟩
        rw [hrows] at hmem
        cases hmem.left
      · have honly : forall entry, entry ∈ rightsWithUsers db project.id ->
            entry.2.row.email = user.row.email ->
            entry.1.row.rights = right.row.rights := by
          intro entry hentry hemail
          have hmem := (mem_rightsWithUsers huser).mp ⟨hentry, hemail⟩
          rw [hrows, List.mem_singleton] at hmem
          rw [hmem.left]
        have hright : (right, user) ∈ rightsWithUsers db project.id := by
          refine ((mem_rightsWithUsers huser).mpr ⟨?_, rfl⟩).left
          rw [hrows]
          exact List.mem_singleton_self right
        rw [hrows]
        apply SortedMap.find?_foldl_of_mem hstep _ _ hright rfl
        · intro entry hentry hemail
          rw [honly entry hentry hemail]
          exact congrArg (grantRights right.row.rights) hdefault
        · intro entry hentry hemail
          rw [honly entry hentry hemail]
          rfl

end Views

/-- The three views of a pair agree in every state that the calls lead to. -/
theorem permissionViews_agree {db : Database}
    (hdb : permissionSystem.Reachable db) {email name : Str}
    (hemail : exists user, user ∈ db.users.records ∧ user.row.email = email)
    (hname : exists project,
      project ∈ db.projects.records ∧ project.row.name = name) :
    exists (checked : Option ProjectRights)
        (byUser : SortedMap Str ProjectRights)
        (byProject : SortedMap Str ProjectRightsEx)
        (rights : ProjectRights) (admin : Bool),
      checkProjectRight none email name db = Except.ok checked ∧
        getPermissions none email db = Except.ok byUser ∧
        getPermissionsByProject none name db = Except.ok byProject ∧
        isAdmin none email db = Except.ok admin ∧
        checked.getD noRights = rights ∧
        byUser.find? name = some rights ∧
        byProject.find? email = some { admin := admin, rights := rights } := by
  have honce := oneRowEach_reachable hdb
  rcases hemail with ⟨user, huser, rfl⟩
  rcases hname with ⟨project, hproject, rfl⟩
  rcases checkProjectRight_eq honce huser hproject with ⟨checked, hcheck, hchecked⟩
  rcases getPermissions_eq honce huser hproject with ⟨byUser, hget, hbyUser⟩
  rcases getPermissionsByProject_eq honce huser hproject with
    ⟨byProject, hlist, hbyProject⟩
  exact ⟨checked, byUser, byProject, granted db user project, user.row.admin,
    hcheck, hget, hlist, isAdmin_eq huser, hchecked, hbyUser, hbyProject⟩

/-- A user with a right on the one project. -/
def sampleChanges : List (Option ErrorCode × Change) :=
  [(none, Change.init (str "root") (str "secret")),
    (none, Change.addUser (str "dev") (str "pass") false),
    (none, Change.createProject (Except.ok ()) (str "web")),
    (none, Change.setUserProjectPermissions (str "dev") (str "web")
      { read := true, write := false, execute := true })]

theorem permissionViews_agree_sample :
    let db := (permissionSystem.runFrom permissionSystem.init sampleChanges).get
      (by decide)
    exists (checked : Option ProjectRights)
        (byUser : SortedMap Str ProjectRights)
        (byProject : SortedMap Str ProjectRightsEx)
        (rights : ProjectRights) (admin : Bool),
      checkProjectRight none (str "dev") (str "web") db = Except.ok checked ∧
        getPermissions none (str "dev") db = Except.ok byUser ∧
        getPermissionsByProject none (str "web") db = Except.ok byProject ∧
        isAdmin none (str "dev") db = Except.ok admin ∧
        checked.getD noRights = rights ∧
        byUser.find? (str "web") = some rights ∧
        byProject.find? (str "dev") =
          some { admin := admin, rights := rights } := by
  intro db
  exact permissionViews_agree ⟨sampleChanges, (Option.some_get _).symm⟩
    (by decide) (by decide)

end RightsManager
end CisWebui
