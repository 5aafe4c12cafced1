import CisWebui.Foundation.LexicalPath
import Mathlib.Data.List.Dedup

/-!
# File trees

What stands at each path of a file system without links: a directory, a file or
nothing.  A path is the list of names that leads there from the top.  Whatever
stands anywhere stands in a directory, and only finitely many paths have
something at them.

The module has the operations of a file system on such trees, each with what
stands where afterwards.
-/

namespace CisWebui
namespace Foundation

inductive FileKind where
  | directory
  | file
deriving DecidableEq, Repr

structure FileTree (Name : Type) where
  kind : List Name -> Option FileKind
  /-- The paths that may have something at them. -/
  support : List (List Name)
  top : kind [] = some FileKind.directory
  closed : forall dir n, kind (dir ++ [n]) ≠ none ->
    kind dir = some FileKind.directory
  supported : forall path, kind path ≠ none -> path = [] ∨ path ∈ support

namespace FileTree

variable {Name : Type}

def Exists (t : FileTree Name) (path : List Name) : Prop :=
  t.kind path ≠ none

def IsDirectory (t : FileTree Name) (path : List Name) : Prop :=
  t.kind path = some FileKind.directory

instance (t : FileTree Name) (path : List Name) : Decidable (t.Exists path) :=
  inferInstanceAs (Decidable (_ ≠ _))

instance (t : FileTree Name) (path : List Name) : Decidable (t.IsDirectory path) :=
  inferInstanceAs (Decidable (_ = _))

theorem IsDirectory.exists {t : FileTree Name} {path : List Name}
    (h : t.IsDirectory path) : t.Exists path := by
  intro hnone
  rw [IsDirectory, hnone] at h
  cases h

/-- What has something below it is a directory. -/
theorem isDirectory_of_exists_append {t : FileTree Name} (rest : List Name) :
    forall {path : List Name}, rest ≠ [] -> t.Exists (path ++ rest) ->
      t.IsDirectory path := by
  induction rest with
  | nil =>
      intro path hne
      exact absurd rfl hne
  | cons n rest ih =>
      intro path _ hexists
      apply t.closed path n
      rcases eq_or_ne rest [] with rfl | hrest
      · exact hexists
      · rw [List.append_cons] at hexists
        exact (ih hrest hexists).exists

theorem exists_of_exists_append {t : FileTree Name} {path : List Name}
    (rest : List Name) (h : t.Exists (path ++ rest)) : t.Exists path := by
  rcases eq_or_ne rest [] with rfl | hrest
  · rwa [List.append_nil] at h
  · exact (isDirectory_of_exists_append rest hrest h).exists

/-!
## Listings
-/

variable [DecidableEq Name]

/-- The names in a directory. -/
def children (t : FileTree Name) (dir : List Name) : List Name :=
  (t.support.filterMap fun path =>
    if path.dropLast = dir ∧ t.Exists path then path.getLast? else none).dedup

theorem mem_children {t : FileTree Name} {dir : List Name} {n : Name} :
    n ∈ t.children dir <-> t.Exists (dir ++ [n]) := by
  unfold children
  rw [List.mem_dedup, List.mem_filterMap]
  constructor
  · rintro ⟨path, _, hpath⟩
    split at hpath
    · rename_i h
      rw [← h.left, List.dropLast_append_getLast? n hpath]
      exact h.right
    · cases hpath
  · intro hexists
    rcases t.supported _ hexists with hnil | hmem
    · exact absurd hnil (by simp)
    · exact ⟨dir ++ [n], hmem, by simp [hexists]⟩

theorem nodup_children (t : FileTree Name) (dir : List Name) :
    (t.children dir).Nodup :=
  List.nodup_dedup _

/-!
## Making and removing
-/

/-- The tree with nothing below its top. -/
def bare : FileTree Name where
  kind path := if path = [] then some FileKind.directory else none
  support := []
  top := if_pos rfl
  closed := by
    intro dir n hexists
    rw [if_neg (by simp)] at hexists
    exact absurd rfl hexists
  supported := by
    intro path hexists
    split at hexists
    · rename_i hnil
      exact Or.inl hnil
    · exact absurd rfl hexists

/-- Nothing stands under that name in the directory. -/
def Free (t : FileTree Name) (dir : List Name) (n : Name) : Prop :=
  t.IsDirectory dir ∧ ¬ t.Exists (dir ++ [n])

instance (t : FileTree Name) (dir : List Name) (n : Name) :
    Decidable (t.Free dir n) :=
  inferInstanceAs (Decidable (_ ∧ _))

/-- Put something under a free name. -/
def add (t : FileTree Name) (dir : List Name) (n : Name) (kind : FileKind)
    (h : t.Free dir n) : FileTree Name where
  kind path := if path = dir ++ [n] then some kind else t.kind path
  support := (dir ++ [n]) :: t.support
  top := by
    rw [if_neg (by simp)]
    exact t.top
  closed := by
    intro dir' m hexists
    have hdir : t.kind dir' = some FileKind.directory := by
      split at hexists
      · rename_i heq
        rw [(List.append_inj' heq rfl).left]
        exact h.left
      · exact t.closed dir' m hexists
    rw [if_neg]
    · exact hdir
    · rintro rfl
      exact h.right (IsDirectory.exists hdir)
  supported := by
    intro path hexists
    split at hexists
    · rename_i heq
      rw [heq]
      exact Or.inr List.mem_cons_self
    · rcases t.supported path hexists with hnil | hmem
      · exact Or.inl hnil
      · exact Or.inr (List.mem_cons_of_mem _ hmem)

/-- Make every directory that is missing on the way, from a directory. -/
def createDirectories (t : FileTree Name) :
    List Name -> List (Component Name) -> Option (FileTree Name)
  | _, [] => some t
  | dir, Component.name n :: rest =>
      if h : t.Free dir n then
        (t.add dir n FileKind.directory h).createDirectories (dir ++ [n]) rest
      else if t.IsDirectory (dir ++ [n]) then
        t.createDirectories (dir ++ [n]) rest
      else
        none
  | dir, c :: rest => t.createDirectories (LexicalPath.move dir c) rest

/-- Open a file for writing: it is made if nothing stands there. -/
def createFile (t : FileTree Name) (path : List Name) : Option (FileTree Name) :=
  match t.kind path, path.getLast? with
  | some FileKind.file, _ => some t
  | none, some n =>
      if h : t.Free path.dropLast n then
        some (t.add path.dropLast n FileKind.file h)
      else
        none
  | _, _ => none

/-- Remove what stands at a path with all that is below it; the top stays. -/
def removeAll (t : FileTree Name) (path : List Name) : FileTree Name :=
  if hpath : path = [] then
    t
  else
    { kind := fun q => if path <+: q then none else t.kind q
      support := t.support
      top := by
        rw [if_neg (by simpa using hpath)]
        exact t.top
      closed := by
        intro dir n hexists
        split at hexists
        · exact absurd rfl hexists
        · rename_i hunder
          rw [if_neg]
          · exact t.closed dir n hexists
          · intro h
            exact hunder (h.trans (List.prefix_append dir [n]))
      supported := by
        intro q hexists
        split at hexists
        · exact absurd rfl hexists
        · exact t.supported q hexists }

theorem removeAll_kind {t : FileTree Name} {path : List Name} (hpath : path ≠ [])
    (q : List Name) :
    (t.removeAll path).kind q = if path <+: q then none else t.kind q := by
  rw [removeAll, dif_neg hpath]

/-!
## Renaming
-/

/-- What stands at `p` can take the place `q`: nothing else but a file for a
file, or an empty directory for a directory, stands there. -/
structure CanRename (t : FileTree Name) (p q : List Name) : Prop where
  source : t.Exists p
  notInside : ¬ p <+: q
  notAround : ¬ q <+: p
  target : t.IsDirectory q.dropLast
  replaced : t.kind q = none ∨ (t.kind q = t.kind p ∧ t.children q = [])

theorem canRename_iff {t : FileTree Name} {p q : List Name} :
    t.CanRename p q <->
      t.Exists p ∧ ¬ p <+: q ∧ ¬ q <+: p ∧ t.IsDirectory q.dropLast ∧
        (t.kind q = none ∨ (t.kind q = t.kind p ∧ t.children q = [])) :=
  ⟨fun h => ⟨h.source, h.notInside, h.notAround, h.target, h.replaced⟩,
    fun ⟨h1, h2, h3, h4, h5⟩ => ⟨h1, h2, h3, h4, h5⟩⟩

instance (t : FileTree Name) (p q : List Name) : Decidable (t.CanRename p q) :=
  decidable_of_iff _ canRename_iff.symm

theorem CanRename.target_ne_nil {t : FileTree Name} {p q : List Name}
    (h : t.CanRename p q) : q ≠ [] := by
  rintro rfl
  exact h.notAround List.nil_prefix

/-- The tree in which all that was at `p` is at `q`. -/
def relocate (t : FileTree Name) (p q : List Name) (h : t.CanRename p q) :
    FileTree Name where
  kind path :=
    if q <+: path then t.kind (p ++ path.drop q.length)
    else if p <+: path then none
    else t.kind path
  support := t.support ++ t.support.map fun path => q ++ path.drop p.length
  top := by
    have hp : ¬ p <+: [] := by
      intro hp
      exact h.notInside (hp.trans List.nil_prefix)
    rw [if_neg (by simpa using h.target_ne_nil), if_neg hp]
    exact t.top
  closed := by
    intro dir n hexists
    rcases Classical.em (q <+: dir) with hdir | hdir
    · rcases hdir with ⟨rest, rfl⟩
      rw [if_pos (List.prefix_append q rest), List.drop_left]
      rw [List.append_assoc, if_pos (List.prefix_append q _), List.drop_left,
        ← List.append_assoc] at hexists
      exact t.closed _ _ hexists
    · rw [if_neg hdir]
      split at hexists
      · rename_i hunder
        -- only the new place itself has a parent outside of it
        have heq : q = dir ++ [n] := by
          rcases List.prefix_concat_iff.mp hunder with heq | hunder
          · exact heq
          · exact absurd hunder hdir
        have htarget := h.target
        rw [heq, List.dropLast_concat] at htarget
        rw [if_neg]
        · exact htarget
        · intro hp
          apply h.notInside
          rw [heq]
          exact hp.trans (List.prefix_append dir [n])
      · split at hexists
        · exact absurd rfl hexists
        · rename_i hp
          rw [if_neg]
          · exact t.closed dir n hexists
          · intro hunder
            exact hp (hunder.trans (List.prefix_append dir [n]))
  supported := by
    intro path hexists
    split at hexists
    · rename_i hunder
      rcases hunder with ⟨rest, rfl⟩
      rw [List.drop_left] at hexists
      rcases t.supported _ hexists with hnil | hmem
      · have hp : p = [] := (List.append_eq_nil_iff.mp hnil).left
        exact absurd (hp ▸ List.nil_prefix) h.notInside
      · apply Or.inr
        apply List.mem_append_right
        apply List.mem_map.mpr
        exact ⟨p ++ rest, hmem, by rw [List.drop_left]⟩
    · split at hexists
      · exact absurd rfl hexists
      · rcases t.supported path hexists with hnil | hmem
        · exact Or.inl hnil
        · exact Or.inr (List.mem_append_left _ hmem)

/-- Give what stands at `p` the place `q`; in its own place it stays. -/
def rename (t : FileTree Name) (p q : List Name) : Option (FileTree Name) :=
  if p = q then
    if t.Exists p then some t else none
  else if h : t.CanRename p q then
    some (t.relocate p q h)
  else
    none

/-!
## What stands where afterwards
-/

/-- What directories are made of is on the way; everything else stays. -/
theorem kind_of_createDirectories {path : List (Component Name)} :
    forall {t t' : FileTree Name} {dir : List Name},
      t.createDirectories dir path = some t' ->
      forall q, t'.kind q = t.kind q ∨
        (t.kind q = none ∧ t'.kind q = some FileKind.directory ∧
          exists done rest n, path = done ++ Component.name n :: rest ∧
            q = LexicalPath.resolve dir (done ++ [Component.name n])) := by
  induction path with
  | nil =>
      intro t t' dir h q
      cases h
      exact Or.inl rfl
  | cons c path ih =>
      intro t t' dir h q
      have hlater : forall {t : FileTree Name},
          t.createDirectories (LexicalPath.move dir c) path = some t' ->
          t'.kind q = t.kind q ∨
            (t.kind q = none ∧ t'.kind q = some FileKind.directory ∧
              exists done rest n,
                c :: path = done ++ Component.name n :: rest ∧
                q = LexicalPath.resolve dir (done ++ [Component.name n])) := by
        intro t ht
        rcases ih ht q with hsame | ⟨hnone, hnew, done, rest, n, hpath, hq⟩
        · exact Or.inl hsame
        · refine Or.inr ⟨hnone, hnew, c :: done, rest, n, ?_, hq⟩
          rw [hpath, List.cons_append]
      cases c with
      | here => exact hlater h
      | up => exact hlater h
      | name n =>
          rw [createDirectories] at h
          split at h
          · rename_i hfree
            have hkind : (t.add dir n FileKind.directory hfree).kind q =
                if q = dir ++ [n] then some FileKind.directory
                else t.kind q := rfl
            rcases eq_or_ne q (dir ++ [n]) with rfl | hq
            · have hnone : t.kind (dir ++ [n]) = none := by
                simpa [Exists] using hfree.right
              refine Or.inr ⟨hnone, ?_, [], path, n, rfl, rfl⟩
              rcases hlater h with hsame | ⟨_, hnew, _⟩
              · rw [hsame, hkind, if_pos rfl]
              · exact hnew
            · rw [if_neg hq] at hkind
              rw [← hkind]
              exact hlater h
          · split at h
            · exact hlater h
            · cases h

theorem createDirectories_append (path path' : List (Component Name)) :
    forall (t : FileTree Name) (dir : List Name),
      t.createDirectories dir (path ++ path') =
        (t.createDirectories dir path).bind fun t =>
          t.createDirectories (LexicalPath.resolve dir path) path' := by
  induction path with
  | nil =>
      intro t dir
      rfl
  | cons c path ih =>
      intro t dir
      cases c with
      | here => exact ih t dir
      | up => exact ih t dir.dropLast
      | name n =>
          rw [List.cons_append, createDirectories, createDirectories]
          split
          · exact ih _ _
          · split
            · exact ih _ _
            · rfl

/-- Afterwards a path that ends in a name leads to a directory. -/
theorem isDirectory_of_createDirectories {t t' : FileTree Name} {dir : List Name}
    {path : List (Component Name)} {n : Name}
    (h : t.createDirectories dir (path ++ [Component.name n]) = some t') :
    t'.IsDirectory (LexicalPath.resolve dir path ++ [n]) := by
  rw [createDirectories_append] at h
  rcases Option.bind_eq_some_iff.mp h with ⟨u, _, hlast⟩
  rw [createDirectories] at hlast
  split at hlast
  · cases hlast
    exact if_pos rfl
  · split at hlast
    · rename_i hthere
      cases hlast
      exact hthere
    · cases hlast

/-- So does every name on the way. -/
theorem isDirectory_on_way {t t' : FileTree Name} {dir : List Name}
    {done rest : List (Component Name)} {n : Name}
    (h : t.createDirectories dir (done ++ Component.name n :: rest) = some t') :
    t'.IsDirectory (LexicalPath.resolve dir (done ++ [Component.name n])) := by
  rw [← List.singleton_append, ← List.append_assoc, createDirectories_append] at h
  rcases Option.bind_eq_some_iff.mp h with ⟨u, hfirst, hlast⟩
  have hmade := isDirectory_of_createDirectories hfirst
  rw [LexicalPath.resolve_append]
  rcases kind_of_createDirectories hlast (LexicalPath.resolve dir done ++ [n]) with
    hsame | ⟨hnone, _⟩
  · exact hsame.trans hmade
  · exact absurd hnone hmade.exists

theorem kind_of_createFile {t t' : FileTree Name} {path : List Name}
    (h : t.createFile path = some t') (q : List Name) :
    t'.kind q = if q = path then some FileKind.file else t.kind q := by
  unfold createFile at h
  split at h
  · rename_i hfile
    cases h
    split
    · rename_i heq
      rw [heq, hfile]
    · rfl
  · rename_i n _ hlast
    split at h
    · cases h
      show (if q = path.dropLast ++ [n] then some FileKind.file else t.kind q) = _
      rw [List.dropLast_append_getLast? n hlast]
    · cases h
  · cases h

theorem kind_of_rename {t t' : FileTree Name} {p q : List Name} (hne : p ≠ q)
    (h : t.rename p q = some t') (path : List Name) :
    t'.kind path =
      if q <+: path then t.kind (p ++ path.drop q.length)
      else if p <+: path then none
      else t.kind path := by
  rw [rename, if_neg hne] at h
  split at h
  · cases h
    rfl
  · cases h

/-- A directory that is not at or below the old place stays one. -/
theorem isDirectory_of_rename {t t' : FileTree Name} {p q path : List Name}
    (h : t.rename p q = some t') (hdir : t.IsDirectory path) (hpath : ¬ p <+: path) :
    t'.IsDirectory path := by
  rcases eq_or_ne p q with rfl | hne
  · rw [rename, if_pos rfl] at h
    split at h
    · cases h
      exact hdir
    · cases h
  have hkind := kind_of_rename hne h path
  rw [rename, if_neg hne] at h
  split at h
  · rename_i hcan
    rw [IsDirectory, hkind, if_neg hpath]
    split
    · rename_i hunder
      rcases hunder with ⟨rest, rfl⟩
      rw [List.drop_left]
      rcases hcan.replaced with hnone | ⟨hsame, hempty⟩
      · exact absurd hnone (exists_of_exists_append rest hdir.exists)
      · cases rest with
        | nil =>
            rw [List.append_nil] at hdir ⊢
            rw [← hsame]
            exact hdir
        | cons n rest =>
            have hexists := hdir.exists
            rw [List.append_cons] at hexists
            have hmem := mem_children.mpr (exists_of_exists_append rest hexists)
            rw [hempty] at hmem
            cases hmem
    · exact hdir
  · cases h

theorem exists_of_rename {t t' : FileTree Name} {p q : List Name}
    (h : t.rename p q = some t') : t.Exists p ∧ t'.Exists q := by
  rcases eq_or_ne p q with rfl | hne
  · rw [rename, if_pos rfl] at h
    split at h
    · rename_i hexists
      cases h
      exact ⟨hexists, hexists⟩
    · cases h
  · have hkind := kind_of_rename hne h q
    rw [if_pos List.prefix_rfl, List.drop_length, List.append_nil] at hkind
    rw [rename, if_neg hne] at h
    split at h
    · rename_i hcan
      constructor
      · exact hcan.source
      · rw [Exists, hkind]
        exact hcan.source
    · cases h

end FileTree

end Foundation
end CisWebui
