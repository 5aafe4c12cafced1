import CisWebui.Database.RightsManager

/-!
# Rows of projects

Which projects the table has that are not deleted, and what the manager of the
projects does to them.
-/

namespace CisWebui
namespace CisManager

open Cpp Foundation Database RightsManager

variable {db db' : Database}

/-- There is a row of that name that is not deleted. -/
def Live (db : Database) (name : Str) : Prop :=
  exists project, project ∈ db.projects.records ∧ project.row.name = name ∧
    project.row.deleted = false

theorem live_setDeleted {p : Record Project -> Bool} {deleted : Bool} {name : Str} :
    Live (db.setDeleted p deleted) name <->
      exists project, project ∈ db.projects.records ∧ project.row.name = name ∧
        (if p project then deleted else project.row.deleted) = false := by
  constructor
  · rintro ⟨project, hmem, hname, hlive⟩
    rcases Table.mem_update.mp hmem with ⟨old, hold, rfl⟩
    unfold Table.changeIf at hname hlive
    refine ⟨old, hold, ?_, ?_⟩
    · split at hname
      · exact hname
      · exact hname
    · split at hlive
      · rename_i hp
        rw [if_pos hp]
        exact hlive
      · rename_i hp
        rw [if_neg hp]
        exact hlive
  · rintro ⟨old, hold, hname, hlive⟩
    refine ⟨_, Table.mem_update.mpr ⟨old, hold, rfl⟩, ?_, ?_⟩
    · unfold Table.changeIf
      split
      · exact hname
      · exact hname
    · unfold Table.changeIf
      split
      · rename_i hp
        rw [if_pos hp] at hlive
        exact hlive
      · rename_i hp
        rw [if_neg hp] at hlive
        exact hlive

theorem live_removeProject (name other : Str) :
    Live (removeProject none name db).2 other <-> Live db other ∧ other ≠ name := by
  have hremoved : (removeProject none name db).2 =
      db.setDeleted (fun project => project.row.name = name) true := rfl
  rw [hremoved, live_setDeleted]
  constructor
  · rintro ⟨project, hmem, rfl, hlive⟩
    split at hlive
    · cases hlive
    · rename_i hne
      exact ⟨⟨project, hmem, rfl, hlive⟩, by simpa using hne⟩
  · rintro ⟨⟨project, hmem, rfl, hlive⟩, hne⟩
    refine ⟨project, hmem, rfl, ?_⟩
    rw [if_neg (by simpa using hne)]
    exact hlive

theorem fresh_of_withName {name : Str} (h : withName db name = []) :
    db.projects.Fresh Project.name name := by
  intro project hmem hname
  rw [← hname, withName_of_mem hmem] at h
  cases h

/-- A project that is entered is live from then on. -/
theorem live_enterProject (db : Database) (name : Str) :
    exists db', enterProject db name = Except.ok db' ∧
      forall other, Live db' other <-> Live db other ∨ other = name := by
  unfold enterProject
  cases hfound : withName db name with
  | nil =>
      have hinsert : exists db',
          db.insertProject { name := name, deleted := false } = Except.ok db' := by
        unfold insertProject
        rw [dif_pos (fresh_of_withName hfound)]
        exact ⟨_, rfl⟩
      rcases hinsert with ⟨db', hinsert⟩
      refine ⟨db', hinsert, ?_⟩
      intro other
      unfold Live
      rw [(insertProject_ok hinsert).left]
      constructor
      · rintro ⟨project, hmem, hname, hlive⟩
        rcases Table.mem_insert.mp hmem with hold | rfl
        · exact Or.inl ⟨project, hold, hname, hlive⟩
        · exact Or.inr hname.symm
      · rintro (⟨project, hmem, hname, hlive⟩ | rfl)
        · exact ⟨project, Table.mem_insert.mpr (Or.inl hmem), hname, hlive⟩
        · exact ⟨_, Table.mem_insert.mpr (Or.inr rfl), rfl, rfl⟩
  | cons found rest =>
      rcases mem_of_withName hfound with ⟨hmem, hname⟩
      have hsingle : rest = [] := by
        have hone := withName_of_mem hmem
        rw [hname, hfound] at hone
        exact (List.cons.inj hone).right
      rw [hsingle]
      refine ⟨_, rfl, ?_⟩
      intro other
      rw [live_setDeleted]
      constructor
      · rintro ⟨project, hproject, rfl, hlive⟩
        split at hlive
        · rename_i hid
          rw [Table.eq_of_id hproject hmem (by simpa using hid)]
          exact Or.inr hname
        · exact Or.inl ⟨project, hproject, rfl, hlive⟩
      · rintro (⟨project, hproject, rfl, hlive⟩ | rfl)
        · refine ⟨project, hproject, rfl, ?_⟩
          split
          · rfl
          · exact hlive
        · exact ⟨found, hmem, hname, by simp⟩

theorem live_foldlM (names : List Str) :
    forall db : Database, exists db', names.foldlM enterProject db = Except.ok db' ∧
      forall other, Live db' other <-> Live db other ∨ other ∈ names := by
  induction names with
  | nil =>
      intro db
      exact ⟨db, rfl, fun other => by simp⟩
  | cons name rest ih =>
      intro db
      rcases live_enterProject db name with ⟨entered, henter, hentered⟩
      rcases ih entered with ⟨db', hfold, hlive⟩
      refine ⟨db', ?_, ?_⟩
      · rw [List.foldlM_cons, henter]
        exact hfold
      · intro other
        rw [hlive, hentered, List.mem_cons, or_assoc]

/-- After a refresh the projects on disk are live, and no others. -/
theorem live_refreshProjects (names : List Str) (db : Database) (other : Str) :
    Live (refreshProjects none names db).2 other <-> other ∈ names := by
  rcases live_foldlM names (db.setDeleted (fun _ => true) true) with
    ⟨db', hfold, hlive⟩
  have hrefreshed : (refreshProjects none names db).2 = db' := by
    unfold refreshProjects
    rw [hfold]
    rfl
  rw [hrefreshed, hlive, live_setDeleted]
  constructor
  · rintro (⟨_, _, _, hnever⟩ | hmem)
    · cases hnever
    · exact hmem
  · exact Or.inr

theorem live_createProject (name : Str) (db : Database) :
    exists db', createProject none (Except.ok ()) name db = (Except.ok (), db') ∧
      forall other, Live db' other <-> Live db other ∨ other = name := by
  rcases live_enterProject db name with ⟨db', henter, hlive⟩
  refine ⟨db', ?_, hlive⟩
  unfold createProject
  rw [henter]
  rfl

end CisManager
end CisWebui
