import CisWebui.Database.SettingPermissions
import CisWebui.Websocket.AccountServer

/-!
# Batches of permissions

`set_user_permissions` sets one permission after the other, each in a transaction
of its own.  What a client learns from the reply is compared with what the
permissions are afterwards.
-/

namespace CisWebui
namespace RightsManager

open Cpp Foundation Database AuthManager Websocket

/-- The rights in the last entry for a project. -/
def lastEntry : List Permission -> Str -> Option ProjectRights
  | [], _ => none
  | perm :: rest, project =>
      match lastEntry rest project with
      | some rights => some rights
      | none => if perm.name = project then some perm.rights else none

/-- A user who is no administrator, and a project. -/
def Settable (db : Database) (email project : Str) : Prop :=
  exists user found, withEmail db email = [user] ∧ user.row.admin = false ∧
    withName db project = [found]

/-- There is an administrator of that name. -/
def Administers (db : Database) (email : Str) : Prop :=
  isAdmin none email db = Except.ok true

/-- The permissions that nobody can tell apart. -/
def SamePermissions (db db' : Database) : Prop :=
  forall email project,
    checkProjectRight none email project db' = checkProjectRight none email project db

/-- What a batch of entries does to the permissions. -/
structure Applied (email : Str) (permissions : List Permission) (db db' : Database) :
    Prop where
  users : db'.users = db.users
  projects : db'.projects = db.projects
  once : OneRowEach db'
  named : forall project rights, Settable db email project ->
    lastEntry permissions project = some rights ->
    checkProjectRight none email project db' = Except.ok (some rights)
  others : forall other project,
    (other = email -> Settable db email project -> lastEntry permissions project = none) ->
    checkProjectRight none other project db' = checkProjectRight none other project db

/-!
## Entries
-/

section Entries

variable {db db' db'' : Database} {email : Str} {permissions rest : List Permission}

theorem applied_nil (h : OneRowEach db) (email : Str) : Applied email [] db db where
  users := rfl
  projects := rfl
  once := h
  named := fun _ _ _ h => by cases h
  others := fun _ _ _ => rfl

theorem settable_congr (husers : db'.users = db.users)
    (hprojects : db'.projects = db.projects) (email project : Str) :
    Settable db' email project <-> Settable db email project := by
  unfold Settable withEmail withName
  rw [husers, hprojects]

/-- A call that finds its user and its project, and meets no error, sets the row. -/
theorem setUserProjectPermissions_true {user : Record User} {found : Record Project}
    {project : Str} (huser : withEmail db email = [user])
    (hfound : withName db project = [found]) (rights : ProjectRights) :
    (setUserProjectPermissions none email project rights db).1 = Except.ok true := by
  have hfits : db.RightFits
      { userId := user.id, projectId := found.id, rights := rights } :=
    ⟨⟨found, (mem_of_withName hfound).left, rfl⟩, user, (mem_of_withEmail huser).left, rfl⟩
  unfold setUserProjectPermissions
  rw [huser, hfound]
  dsimp only
  split
  · unfold replaceProjectUserRight
    rw [dif_pos hfits]
    rfl
  · unfold insertProjectUserRight
    rw [dif_pos hfits]
    rfl

/-- Without an error of the database the call returns. -/
theorem setUserProjectPermissions_ok (email project : Str) (rights : ProjectRights)
    (db : Database) :
    exists answer,
      (setUserProjectPermissions none email project rights db).1 = Except.ok answer := by
  by_cases hboth : exists user found, withEmail db email = [user] ∧
      withName db project = [found]
  · rcases hboth with ⟨user, found, huser, hfound⟩
    exact ⟨true, setUserProjectPermissions_true huser hfound rights⟩
  · refine ⟨false, ?_⟩
    unfold setUserProjectPermissions
    split
    · rename_i user found huser hfound
      exact absurd ⟨user, found, huser, hfound⟩ hboth
    · rfl

theorem lastEntry_singleton {perm : Permission} {project : Str} :
    lastEntry [perm] project = if perm.name = project then some perm.rights else none :=
  rfl

/-- An entry whose call meets no error. -/
theorem applied_call (h : OneRowEach db) (email : Str) (perm : Permission) :
    Applied email [perm] db
      (setUserProjectPermissions none email perm.name perm.rights db).2 := by
  rcases setUserProjectPermissions_spec h none email perm.name perm.rights with
    ⟨hnot, hsame⟩ | ⟨user, found, _, huser, hfound, hsets⟩
  · have hmissing : ¬ Settable db email perm.name := by
      intro hsettable
      rcases hsettable with ⟨user, found, huser, _, hfound⟩
      exact hnot (setUserProjectPermissions_true huser hfound perm.rights)
    rw [hsame]
    refine ⟨rfl, rfl, h, ?_, fun _ _ _ => rfl⟩
    intro project rights hsettable hlast
    rw [lastEntry_singleton] at hlast
    split at hlast
    · rename_i hname
      rw [hname] at hmissing
      exact absurd hsettable hmissing
    · cases hlast
  · refine ⟨hsets.users, hsets.projects, hsets.once, ?_, ?_⟩
    · intro project rights hsettable hlast
      rw [lastEntry_singleton] at hlast
      split at hlast
      · rename_i hname
        cases hlast
        rcases hsettable with ⟨user', _, huser', hplain, _⟩
        rw [huser] at huser'
        cases huser'
        rw [← hname, checkProjectRight_set huser hfound hsets, hplain]
        rfl
      · cases hlast
    · intro other project hnone
      by_cases hpair : (other, project) = (email, perm.name)
      · cases hpair
        have hadmin : user.row.admin = true := by
          by_contra hplain
          have hlast := hnone rfl ⟨user, found, huser, by simpa using hplain, hfound⟩
          rw [lastEntry_singleton, if_pos rfl] at hlast
          cases hlast
        rw [checkProjectRight_set huser hfound hsets, hadmin]
        unfold checkProjectRight
        rw [huser, hfound]
        dsimp only
        rw [hadmin]
        rfl
      · exact checkProjectRight_other huser hfound hsets hpair

theorem Applied.trans {perm : Permission} (h : Applied email [perm] db db')
    (h' : Applied email rest db' db'') : Applied email (perm :: rest) db db'' where
  users := h'.users.trans h.users
  projects := h'.projects.trans h.projects
  once := h'.once
  named := by
    intro project rights hsettable hlast
    have hsettable' := (settable_congr h.users h.projects email project).mpr hsettable
    rw [lastEntry] at hlast
    cases hrest : lastEntry rest project with
    | some later =>
        rw [hrest] at hlast
        cases hlast
        exact h'.named project _ hsettable' hrest
    | none =>
        rw [hrest] at hlast
        rw [h'.others email project fun _ _ => hrest]
        exact h.named project rights hsettable hlast
  others := by
    intro other project hnone
    have hsplit : other = email -> Settable db email project ->
        lastEntry rest project = none ∧ lastEntry [perm] project = none := by
      intro hother hsettable
      have hlast := hnone hother hsettable
      rw [lastEntry] at hlast
      cases hrest : lastEntry rest project with
      | some later =>
          rw [hrest] at hlast
          cases hlast
      | none =>
          rw [hrest] at hlast
          exact ⟨rfl, hlast⟩
    rw [h'.others other project, h.others other project]
    · exact fun hother hsettable => (hsplit hother hsettable).right
    · intro hother hsettable
      exact (hsplit hother
        ((settable_congr h.users h.projects email project).mp hsettable)).left

theorem lastEntry_isSome_of_mem {perm : Permission} (h : perm ∈ permissions) :
    exists rights, lastEntry permissions perm.name = some rights := by
  induction permissions with
  | nil => cases h
  | cons first rest ih =>
      rw [lastEntry]
      rcases List.mem_cons.mp h with rfl | hrest
      · cases lastEntry rest perm.name with
        | some rights => exact ⟨rights, rfl⟩
        | none => exact ⟨perm.rights, if_pos rfl⟩
      · rcases ih hrest with ⟨rights, hrights⟩
        rw [hrights]
        exact ⟨rights, rfl⟩

theorem exists_mem_of_lastEntry {project : Str} {rights : ProjectRights}
    (h : lastEntry permissions project = some rights) :
    exists perm, perm ∈ permissions ∧ perm.name = project := by
  induction permissions with
  | nil => cases h
  | cons first rest ih =>
      rw [lastEntry] at h
      cases hrest : lastEntry rest project with
      | some later =>
          rw [hrest] at h
          cases h
          rcases ih hrest with ⟨perm, hperm, hname⟩
          exact ⟨perm, List.mem_cons_of_mem _ hperm, hname⟩
      | none =>
          rw [hrest] at h
          dsimp only at h
          split at h
          · rename_i hname
            exact ⟨first, List.mem_cons_self, hname⟩
          · cases h

/-- Whoever has a permission without being an administrator can be given one. -/
theorem settable_of_check {project : Str} {rights : ProjectRights}
    (hplain : ¬ Administers db email)
    (h : checkProjectRight none email project db = Except.ok (some rights)) :
    Settable db email project := by
  unfold checkProjectRight query at h
  dsimp only at h
  split at h
  · rename_i user found huser hfound
    refine ⟨user, found, huser, ?_, hfound⟩
    by_contra hadmin
    apply hplain
    unfold Administers isAdmin
    rw [huser]
    dsimp only
    rw [Bool.eq_true_of_not_eq_false hadmin]
    rfl
  · cases h

/-- The entries are all in force for a user who is no administrator exactly if the
call had something to set for each of them. -/
theorem Applied.inForce_iff (h : Applied email permissions db db') :
    (¬ Administers db' email ->
      forall project rights, lastEntry permissions project = some rights ->
        checkProjectRight none email project db' = Except.ok (some rights)) <->
    (¬ Administers db email ->
      forall perm, perm ∈ permissions -> Settable db email perm.name) := by
  have hadmin : Administers db' email <-> Administers db email := by
    unfold Administers isAdmin withEmail
    rw [h.users]
  rw [hadmin]
  constructor
  · intro hforce hplain perm hperm
    rcases lastEntry_isSome_of_mem hperm with ⟨rights, hrights⟩
    have hcheck := hforce hplain perm.name rights hrights
    rw [← settable_congr h.users h.projects]
    exact settable_of_check (fun h => hplain (hadmin.mp h)) hcheck
  · intro hsettable hplain project rights hlast
    rcases exists_mem_of_lastEntry hlast with ⟨perm, hperm, rfl⟩
    exact h.named perm.name rights (hsettable hplain perm hperm) hlast

/-- Nobody can tell the difference exactly if the entries were in force before. -/
theorem Applied.samePermissions_iff (h : Applied email permissions db db') :
    SamePermissions db db' <->
      forall project rights, Settable db email project ->
        lastEntry permissions project = some rights ->
        checkProjectRight none email project db = Except.ok (some rights) := by
  constructor
  · intro hsame project rights hsettable hlast
    rw [← hsame email project]
    exact h.named project rights hsettable hlast
  · intro hbefore other project
    by_cases hset : other = email ∧ Settable db email project ∧
        lastEntry permissions project ≠ none
    · rcases hset with ⟨rfl, hsettable, hlast⟩
      rcases Option.ne_none_iff_exists'.mp hlast with ⟨rights, hrights⟩
      rw [hbefore project rights hsettable hrights]
      exact h.named project rights hsettable hrights
    · apply h.others
      intro hother hsettable
      by_contra hlast
      exact hset ⟨hother, hsettable, hlast⟩

end Entries

end RightsManager

namespace Websocket
namespace AccountServer

open Cpp Foundation RightsManager

/-- The entries that the loop sets before a call meets an error. -/
def reached (lucks : Nat -> Luck) : List Permission -> List Permission
  | [] => []
  | perm :: rest =>
      if (lucks 0).fault = none then
        perm :: reached (fun n => lucks (n + 1)) rest
      else
        []

/-- If the reply is a success, the permissions of a user who is no administrator
are the last ones of the batch; if it is an error, nobody's have changed. -/
def AllOrNothing (s : AccountServer) (email : Str) (permissions : List Permission) :
    Prop :=
  exists left, s.handled (setUserPermissions s.ctx email permissions) = some left ∧
    (left.Succeeded -> ¬ Administers left.database email ->
      forall project rights, lastEntry permissions project = some rights ->
        RightsManager.checkProjectRight none email project left.database =
          Except.ok (some rights)) ∧
    (left.Failed -> SamePermissions s.database left.database)

/-- The client is an administrator, and the check of that meets no error. -/
def Admitted (s : AccountServer) : Prop :=
  exists client, s.ctx.clientInfo = some client ∧ (s.lucks 0).fault = none ∧
    Administers s.database client.email

/-- A batch that is set as a whole has nothing to skip, and one that is cut short
only says what is so already. -/
structure BatchFits (s : AccountServer) (email : Str) (permissions : List Permission) :
    Prop where
  whole : reached (fun n => s.lucks (n + 1)) permissions = permissions ->
    ¬ Administers s.database email ->
      forall perm, perm ∈ permissions -> Settable s.database email perm.name
  cutShort : reached (fun n => s.lucks (n + 1)) permissions ≠ permissions ->
    forall project rights, Settable s.database email project ->
      lastEntry (reached (fun n => s.lucks (n + 1)) permissions) project = some rights ->
        RightsManager.checkProjectRight none email project s.database =
          Except.ok (some rights)

/-!
## The loop
-/

theorem perform_setUserProjectPermissions (s : AccountServer) (email : Str)
    (perm : Permission) :
    s.perform (Call.setUserProjectPermissions email perm.name perm.rights) = some
      ((setUserProjectPermissions (s.lucks 0).fault email perm.name perm.rights
          s.database).1,
        s.setDatabase (setUserProjectPermissions (s.lucks 0).fault email perm.name
          perm.rights s.database).2) :=
  rfl

/-- What the loop leaves: the entries in front of the first error are set, and
the reply tells whether there was one. -/
theorem handled_setPermissionList (email : Str) (permissions : List Permission) :
    forall {s : AccountServer}, OneRowEach s.database ->
      exists left, s.handled (setPermissionList email permissions) = some left ∧
        Applied email (reached s.lucks permissions) s.database left.database ∧
        (left.Succeeded <-> reached s.lucks permissions = permissions) ∧
        (left.Failed <-> reached s.lucks permissions ≠ permissions) := by
  induction permissions with
  | nil =>
      intro s hs
      refine ⟨_, handled_reply s _, applied_nil hs email, ?_, ?_⟩
      · exact iff_of_true (succeeded_setReply_success s _) rfl
      · exact iff_of_false (not_failed_setReply_success s _) fun h => h rfl
  | cons perm rest ih =>
      intro s hs
      have hstart := handled_call s (perform_setUserProjectPermissions s email perm)
        fun answer => checkEc answer fun _ => setPermissionList email rest
      cases hfault : (s.lucks 0).fault with
      | some ec =>
          have hreached : reached s.lucks (perm :: rest) = [] := by
            rw [reached, hfault, if_neg (Option.some_ne_none ec)]
          rw [hfault] at hstart
          rw [hreached]
          refine ⟨_, hstart.trans (handled_checkEc_error _ ec _), applied_nil hs email, ?_, ?_⟩
          · apply iff_of_false
            · exact not_succeeded_of_failed _ (failed_setReply_error _ _ _)
            · exact fun h => List.cons_ne_nil perm rest h.symm
          · exact iff_of_true (failed_setReply_error _ _ _) (List.cons_ne_nil perm rest).symm
      | none =>
          have hreached : reached s.lucks (perm :: rest) =
              perm :: reached (fun n => s.lucks (n + 1)) rest := by
            rw [reached, hfault, if_pos rfl]
          rcases setUserProjectPermissions_ok email perm.name perm.rights s.database with
            ⟨answer, hanswer⟩
          have happlied := applied_call hs email perm
          rw [hfault, hanswer] at hstart
          rcases ih happlied.once (s := s.setDatabase _) with
            ⟨left, hleft, hrest, hsucceeded, hfailed⟩
          rw [hreached]
          refine ⟨left, hstart.trans hleft, happlied.trans hrest, ?_, ?_⟩
          · rw [hsucceeded]
            exact (List.cons_inj_right perm).symm
          · rw [hfailed]
            exact not_congr (List.cons_inj_right perm).symm

/-!
## Batches
-/

theorem not_admitted_of_none {s : AccountServer} (h : s.ctx.clientInfo = none) :
    ¬ s.Admitted := by
  intro hadmitted
  rcases hadmitted with ⟨client, hclient, _⟩
  rw [h] at hclient
  cases hclient

theorem admitted_iff {s : AccountServer} {client : ClientInfo}
    (h : s.ctx.clientInfo = some client) :
    s.Admitted <->
      RightsManager.isAdmin (s.lucks 0).fault client.email s.database =
        Except.ok true := by
  constructor
  · intro hadmitted
    rcases hadmitted with ⟨other, hother, hfault, hadmin⟩
    rw [h] at hother
    cases hother
    rw [hfault]
    exact hadmin
  · intro hadmin
    cases hfault : (s.lucks 0).fault with
    | some ec =>
        rw [hfault] at hadmin
        cases hadmin
    | none =>
        rw [hfault] at hadmin
        exact ⟨client, h, hfault, hadmin⟩

/-- What the checks in front of the loop make of a request. -/
theorem handled_setUserPermissions (s : AccountServer) (email : Str)
    (permissions : List Permission) :
    (s.Admitted ∧
      s.handled (setUserPermissions s.ctx email permissions) =
        (s.setDatabase s.database).handled (setPermissionList email permissions)) ∨
      ¬ s.Admitted ∧
        exists left, s.handled (setUserPermissions s.ctx email permissions) = some left ∧
          left.Failed ∧ left.database = s.database := by
  unfold setUserPermissions adminOnly
  cases hctx : s.ctx.clientInfo with
  | none =>
      refine Or.inr ⟨not_admitted_of_none hctx, _, handled_reply s _, ?_, rfl⟩
      exact failed_setReply_error _ _ _
  | some client =>
      have hstart := handled_call s (perform_isAdmin s client.email) fun answer =>
        checkEc answer fun permitted =>
          if permitted then setPermissionList email permissions else notPermittedAdmin
      rw [admitted_iff hctx]
      cases hanswer : RightsManager.isAdmin (s.lucks 0).fault client.email s.database with
      | error ec =>
          rw [hanswer] at hstart
          refine Or.inr ⟨fun h => (by cases h), _, hstart.trans
            (handled_checkEc_error _ ec _), failed_setReply_error _ _ _, rfl⟩
      | ok permitted =>
          rw [hanswer] at hstart
          cases permitted with
          | true => exact Or.inl ⟨rfl, hstart⟩
          | false =>
              exact Or.inr ⟨fun h => (by cases h), _, hstart.trans (handled_reply _ _),
                failed_setReply_error _ _ _, rfl⟩

theorem allOrNothing_iff_of_some {s left : AccountServer} {email : Str}
    {permissions : List Permission}
    (h : s.handled (setUserPermissions s.ctx email permissions) = some left) :
    s.AllOrNothing email permissions <->
      (left.Succeeded -> ¬ Administers left.database email ->
        forall project rights, lastEntry permissions project = some rights ->
          RightsManager.checkProjectRight none email project left.database =
            Except.ok (some rights)) ∧
      (left.Failed -> SamePermissions s.database left.database) := by
  constructor
  · intro hall
    rcases hall with ⟨left', hleft', hall⟩
    rw [h] at hleft'
    cases hleft'
    exact hall
  · exact fun hall => ⟨left, h, hall⟩

theorem allOrNothing_iff_of_once {s : AccountServer} (honce : OneRowEach s.database)
    (email : Str) (permissions : List Permission) :
    s.AllOrNothing email permissions <->
      (s.Admitted -> s.BatchFits email permissions) := by
  rcases handled_setUserPermissions s email permissions with
    ⟨hadmitted, hstart⟩ | ⟨hrefused, left, hleft, hfailed, hsame⟩
  · rcases handled_setPermissionList email permissions
        (s := s.setDatabase s.database) honce with
      ⟨left, hleft, happlied, hsucceeded, hfailed⟩
    let set := reached (fun n => s.lucks (n + 1)) permissions
    have happlied : Applied email set s.database left.database := happlied
    have hforce : set = permissions -> _ := fun hwhole => (hwhole ▸ happlied).inForce_iff
    rw [imp_iff_right hadmitted, allOrNothing_iff_of_some (hstart.trans hleft),
      hsucceeded, hfailed]
    constructor
    · intro h
      exact
        { whole := fun hwhole => (hforce hwhole).mp (h.left hwhole)
          cutShort := fun hcut => happlied.samePermissions_iff.mp (h.right hcut) }
    · intro h
      exact ⟨fun hwhole => (hforce hwhole).mpr (h.whole hwhole),
        fun hcut => happlied.samePermissions_iff.mpr (h.cutShort hcut)⟩
  · apply iff_of_true
    · refine ⟨left, hleft, ?_, ?_⟩
      · exact fun hsucceeded => absurd hsucceeded (not_succeeded_of_failed left hfailed)
      · intro _ other project
        rw [hsame]
    · exact fun hadmitted => absurd hadmitted hrefused

/-- A batch is all or nothing exactly if the client is refused, or the batch
fits. -/
theorem allOrNothing_iff {s : AccountServer}
    (hreachable : managerSystem.Reachable s.database) (email : Str)
    (permissions : List Permission) :
    s.AllOrNothing email permissions <->
      (s.Admitted -> s.BatchFits email permissions) :=
  allOrNothing_iff_of_once (oneRowEach_of_managers hreachable) email permissions

/-- A server with an administrator, a user and a project. -/
def sampleBatches : AccountServer where
  database := (managerSystem.runFrom managerSystem.init sampleWrites).get (by decide)
  lucks := fun _ => { fault := none, now := 100, draws := [], key := default }
  ctx :=
    { clientInfo := some
        { email := str "root", activeToken := str "token", apiAccessKey := [] }
      cookies := []
      resStatus := Status.ok
      allowedVerbs := []
      error := [] }
  replied := none

theorem reachable_sampleBatches : managerSystem.Reachable sampleBatches.database := by
  have hrun : (managerSystem.runFrom managerSystem.init sampleWrites).isSome = true := by
    decide
  exact ⟨sampleWrites, (Option.some_get hrun).symm⟩

/-- The user's right on the project is set. -/
theorem allOrNothing_iff_sample :
    sampleBatches.AllOrNothing (str "dev") [{ name := str "web", rights := noRights }] := by
  refine (allOrNothing_iff reachable_sampleBatches _ _).mpr fun _ => ⟨?_, ?_⟩
  · intro _ _ perm hperm
    rw [List.mem_singleton.mp hperm]
    refine ⟨⟨2, ⟨str "dev", str "pass", false⟩⟩, ⟨1, ⟨str "web", false⟩⟩, ?_, rfl, ?_⟩
    · decide
    · decide
  · intro hcut
    exact absurd rfl hcut

/-- A user who does not exist is given a permission. -/
theorem allOrNothing_not_everywhere :
    ¬ forall (s : AccountServer) (email : Str) (permissions : List Permission),
      managerSystem.Reachable s.database -> s.AllOrNothing email permissions := by
  intro h
  have hall := h sampleBatches (str "nobody") [{ name := str "web", rights := noRights }]
    reachable_sampleBatches
  rw [allOrNothing_iff_of_once (oneRowEach_of_managers reachable_sampleBatches)] at hall
  have hadmitted : sampleBatches.Admitted := by
    refine ⟨_, rfl, rfl, ?_⟩
    unfold Administers
    decide
  have hplain : ¬ Administers sampleBatches.database (str "nobody") := by
    unfold Administers
    decide
  rcases (hall hadmitted).whole rfl hplain _ List.mem_cons_self with
    ⟨user, _, huser, _⟩
  have hnobody : AuthManager.withEmail sampleBatches.database (str "nobody") = [] := by
    decide
  rw [hnobody] at huser
  cases huser

end AccountServer
end Websocket
end CisWebui
