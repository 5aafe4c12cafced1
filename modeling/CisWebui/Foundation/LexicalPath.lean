import Mathlib.Data.List.Infix

/-!
# Lexical paths

A path is a list of components.  Resolving it from a directory drops every
`.`, and every `..` takes back the name before it; the top directory is its own
parent.  A directory is the list of names that leads to it from the top.

A path has a normal form, the number of `..` left over and the names after
them, and the normal form alone decides where the path leads from a directory.
-/

namespace CisWebui
namespace Foundation

inductive Component (Name : Type) where
  | here
  | up
  | name (n : Name)
deriving DecidableEq, Repr

namespace LexicalPath

variable {Name : Type}

/-!
## Resolution
-/

def move (dir : List Name) : Component Name -> List Name
  | Component.here => dir
  | Component.up => dir.dropLast
  | Component.name n => dir ++ [n]

/-- The directory or file a path leads to from a directory. -/
def resolve (dir : List Name) (path : List (Component Name)) : List Name :=
  path.foldl move dir

@[simp] theorem resolve_nil (dir : List Name) : resolve dir [] = dir := rfl

@[simp] theorem resolve_cons (dir : List Name) (c : Component Name)
    (path : List (Component Name)) :
    resolve dir (c :: path) = resolve (move dir c) path := rfl

theorem resolve_append (dir : List Name) (p q : List (Component Name)) :
    resolve dir (p ++ q) = resolve (resolve dir p) q := by
  exact List.foldl_append

/-!
## Normal forms
-/

/-- `..` a number of times, then names only. -/
structure Normal (Name : Type) where
  ups : Nat
  names : List Name
deriving DecidableEq, Repr

namespace Normal

def move (r : Normal Name) : Component Name -> Normal Name
  | Component.here => r
  | Component.up =>
      match r.names with
      | [] => { r with ups := r.ups + 1 }
      | _ :: _ => { r with names := r.names.dropLast }
  | Component.name n => { r with names := r.names ++ [n] }

/-- Where a normal form leads from a directory. -/
def apply (r : Normal Name) (dir : List Name) : List Name :=
  dir.take (dir.length - r.ups) ++ r.names

theorem apply_move (r : Normal Name) (dir : List Name) (c : Component Name) :
    (r.move c).apply dir = LexicalPath.move (r.apply dir) c := by
  cases c with
  | here => rfl
  | name n => simp [move, apply, LexicalPath.move]
  | up =>
      cases hnames : r.names with
      | nil =>
          simp only [move, hnames, apply, LexicalPath.move, List.append_nil]
          rw [List.dropLast_eq_take, List.take_take, List.length_take]
          congr 1
          omega
      | cons n rest =>
          simp only [move, hnames, apply, LexicalPath.move]
          rw [List.dropLast_append_of_ne_nil (by simp)]

end Normal

def normal (path : List (Component Name)) : Normal Name :=
  path.foldl Normal.move { ups := 0, names := [] }

theorem foldl_move_apply (path : List (Component Name)) (r : Normal Name)
    (dir : List Name) :
    (path.foldl Normal.move r).apply dir = resolve (r.apply dir) path := by
  induction path generalizing r with
  | nil => rfl
  | cons c rest ih => rw [List.foldl_cons, ih, Normal.apply_move, resolve_cons]

theorem resolve_eq_apply (dir : List Name) (path : List (Component Name)) :
    resolve dir path = (normal path).apply dir := by
  rw [normal, foldl_move_apply]
  simp [Normal.apply]

/-!
## Staying under a directory
-/

/-- The path never leaves `dir`, or it names the directories it left above
`dir` again right after leaving them. -/
def StaysUnder (dir : List Name) (path : List (Component Name)) : Prop :=
  dir.drop (dir.length - (normal path).ups) <+: (normal path).names

instance [DecidableEq Name] (dir : List Name)
    (path : List (Component Name)) : Decidable (StaysUnder dir path) :=
  inferInstanceAs (Decidable (_ <+: _))

theorem prefix_resolve_iff (dir : List Name) (path : List (Component Name)) :
    dir <+: resolve dir path <-> StaysUnder dir path := by
  have hsplit : dir = dir.take (dir.length - (normal path).ups) ++
      dir.drop (dir.length - (normal path).ups) := by
    rw [List.take_append_drop]
  rw [resolve_eq_apply, Normal.apply, StaysUnder]
  constructor
  · intro h
    nth_rewrite 1 [hsplit] at h
    exact (List.prefix_append_right_inj _).mp h
  · intro h
    have happend := (List.prefix_append_right_inj
      (dir.take (dir.length - (normal path).ups))).mpr h
    rw [List.take_append_drop] at happend
    exact happend

end LexicalPath

end Foundation
end CisWebui
