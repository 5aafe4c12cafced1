import CisWebui.Cpp.FilesystemPath

/-!
# Configured directories

The directories that requests are confined to.  The system gets a path as a C
string and resolves it from the current directory `cwd`.
-/

namespace CisWebui

open Cpp FilesystemPath Foundation

/-- A configured directory: a path with at least one character, passed on as a
C string. -/
structure RootDir where
  path : Str
  nonempty : path ≠ []
  noNul : 0 ∉ path

/-- The path leads to the directory or to something below it. -/
def Inside (cwd dir : List Str) (path : Str) : Prop :=
  dir <+: resolved cwd path

instance (cwd dir : List Str) (path : Str) : Decidable (Inside cwd dir path) :=
  inferInstanceAs (Decidable (_ <+: _))

/-- The directory of a project. -/
def projectDir (cwd : List Str) (root : RootDir) (project : Str) : List Str :=
  resolved cwd (append root.path project)

/-!
## Paths appended to a directory
-/

theorem isAbsolute_concat (root : RootDir) (path : Str) :
    isAbsolute (concat root.path path) = isAbsolute root.path := by
  cases hroot : root.path with
  | nil => exact absurd hroot root.nonempty
  | cons c rest => rfl

theorem resolved_concat (cwd : List Str) (root : RootDir) {path : Str}
    (hpath : isAbsolute path = true) :
    resolved cwd (concat root.path path) =
      LexicalPath.resolve (resolved cwd root.path) (components path) := by
  rw [resolved, isAbsolute_concat, components, names_concat hpath, List.map_append,
    LexicalPath.resolve_append]
  rfl

end CisWebui
