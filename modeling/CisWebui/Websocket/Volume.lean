import CisWebui.Websocket.ProjectDirectories

/-!
# Volumes

The file system with the text of its files and the permissions of its entries.
Directories that are made, files that are opened for writing and scripts that
are made executable only add to what is below a place: what is there stays, but
for texts that get empty and permissions that become those of a script.
-/

namespace CisWebui
namespace Websocket

open Cpp FilesystemPath Foundation

structure Volume where
  files : FileSystem
  /-- The text of the file at a place. -/
  text : List Str -> Str
  /-- The permissions of the entry at a place; where nothing is, those that a new
  entry gets. -/
  mode : List Str -> Nat

/-- `owner_all | group_read | others_read` -/
def scriptMode : Nat := 0o744

def ownerExec : Nat := 0o100

def PermChange.apply : PermChange -> Nat -> Nat
  | PermChange.replaceWithScript, _ => scriptMode
  | PermChange.addOwnerExec, mode => mode ||| ownerExec
  | PermChange.removeOwnerExec, mode => mode - (mode &&& ownerExec)

namespace Volume

def setText (v : Volume) (place : List Str) (text : Str) : Volume :=
  { v with text := fun q => if q = place then text else v.text q }

def setMode (v : Volume) (place : List Str) (mode : Nat) : Volume :=
  { v with mode := fun q => if q = place then mode else v.mode q }

/-- Where an entry has been before it was moved. -/
def movedFrom (old new place : List Str) : List Str :=
  if new <+: place then old ++ place.drop new.length else place

/-- What an effect does if it does not fail. -/
def perform (v : Volume) : Effect -> Option Volume
  | Effect.rename old new =>
      (v.files.rename old new).map fun files =>
        let from' := movedFrom (v.files.locate old) (v.files.locate new)
        { files := files
          text := fun q => v.text (from' q)
          mode := fun q => v.mode (from' q) }
  | Effect.createDirectories path =>
      (v.files.createDirectories path).map fun files => { v with files := files }
  | Effect.openFile path =>
      (v.files.createFile path).map fun files =>
        ({ v with files := files } : Volume).setText (v.files.locate path) []
  | Effect.write path text => some (v.setText (v.files.locate path) text)
  | Effect.setPermissions path change =>
      let place := v.files.locate path
      if v.files.tree.Exists place then
        some (v.setMode place (change.apply (v.mode place)))
      else
        none
  | Effect.removeAll path => some { v with files := v.files.removeAll path }

/-- The files are those that the effect leaves without their texts. -/
theorem apply_of_perform {v v' : Volume} {effect : Effect}
    (h : v.perform effect = some v') : effect.apply v.files = some v'.files := by
  cases effect with
  | rename old new =>
      rcases Option.map_eq_some_iff.mp h with ⟨files, hfiles, rfl⟩
      exact hfiles
  | createDirectories path =>
      rcases Option.map_eq_some_iff.mp h with ⟨files, hfiles, rfl⟩
      exact hfiles
  | openFile path =>
      rcases Option.map_eq_some_iff.mp h with ⟨files, hfiles, rfl⟩
      exact hfiles
  | write path text =>
      cases h
      rfl
  | setPermissions path change =>
      rw [perform] at h
      split at h
      · cases h
        rfl
      · cases h
  | removeAll path =>
      cases h
      rfl

/-!
## What is below a place
-/

/-- Below the place nothing differs. -/
structure SameBelow (place : List Str) (v v' : Volume) : Prop where
  kind : forall q, place <+: q -> v'.files.tree.kind q = v.files.tree.kind q
  text : forall q, place <+: q -> v.files.tree.Exists q -> v'.text q = v.text q
  mode : forall q, place <+: q -> v.files.tree.Exists q -> v'.mode q = v.mode q

structure Grows (place : List Str) (v v' : Volume) : Prop where
  cwd : v'.files.cwd = v.files.cwd
  kind : forall q, place <+: q -> v.files.tree.Exists q ->
    v'.files.tree.kind q = v.files.tree.kind q
  text : forall q, place <+: q -> v.files.tree.Exists q ->
    v'.text q = v.text q ∨ v'.text q = []
  mode : forall q, place <+: q -> v.files.tree.Exists q ->
    v'.mode q = v.mode q ∨ v'.mode q = scriptMode

section Growth

variable {place : List Str} {u v v' : Volume}

theorem grows_refl (place : List Str) (v : Volume) : Grows place v v where
  cwd := rfl
  kind := fun _ _ _ => rfl
  text := fun _ _ _ => Or.inl rfl
  mode := fun _ _ _ => Or.inl rfl

theorem Grows.exists (h : Grows place v v') {q : List Str} (hq : place <+: q)
    (hexists : v.files.tree.Exists q) : v'.files.tree.Exists q := by
  rw [FileTree.Exists, h.kind q hq hexists]
  exact hexists

theorem Grows.trans (h : Grows place u v) (h' : Grows place v v') :
    Grows place u v' where
  cwd := h'.cwd.trans h.cwd
  kind := by
    intro q hq hexists
    exact (h'.kind q hq (h.exists hq hexists)).trans (h.kind q hq hexists)
  text := by
    intro q hq hexists
    rcases h'.text q hq (h.exists hq hexists) with hsame | hempty
    · rw [hsame]
      exact h.text q hq hexists
    · exact Or.inr hempty
  mode := by
    intro q hq hexists
    rcases h'.mode q hq (h.exists hq hexists) with hsame | hscript
    · rw [hsame]
      exact h.mode q hq hexists
    · exact Or.inr hscript

/-- What has grown is the same again just if it can grow back. -/
theorem sameBelow_iff (h : Grows place v v') :
    SameBelow place v v' <-> Grows place v' v := by
  constructor
  · intro hsame
    have hthere : forall q, place <+: q -> v'.files.tree.Exists q ->
        v.files.tree.Exists q := by
      intro q hq hexists
      rw [FileTree.Exists, ← hsame.kind q hq]
      exact hexists
    exact
      { cwd := h.cwd.symm
        kind := fun q hq _ => (hsame.kind q hq).symm
        text := fun q hq hexists => Or.inl (hsame.text q hq (hthere q hq hexists)).symm
        mode := fun q hq hexists => Or.inl (hsame.mode q hq (hthere q hq hexists)).symm }
  · intro hback
    constructor
    · intro q hq
      by_cases hexists : v.files.tree.Exists q
      · exact h.kind q hq hexists
      · by_cases hexists' : v'.files.tree.Exists q
        · exact absurd (hback.exists hq hexists') hexists
        · rw [FileTree.Exists, not_not] at hexists hexists'
          rw [hexists, hexists']
    · intro q hq hexists
      rcases h.text q hq hexists with hsame | hempty
      · exact hsame
      · rcases hback.text q hq (h.exists hq hexists) with hsame | hempty'
        · exact hsame.symm
        · rw [hempty, hempty']
    · intro q hq hexists
      rcases h.mode q hq hexists with hsame | hscript
      · exact hsame
      · rcases hback.mode q hq (h.exists hq hexists) with hsame | hscript'
        · exact hsame.symm
        · rw [hscript, hscript']

end Growth

/-!
## Steps
-/

/-- Every name on the way, as far as it is below the place, is there already. -/
def WayThere (v : Volume) (place start : List Str) (way : List (Component Str)) : Prop :=
  forall done name rest, way = done ++ Component.name name :: rest ->
    place <+: LexicalPath.resolve start (done ++ [Component.name name]) ->
      v.files.tree.Exists (LexicalPath.resolve start (done ++ [Component.name name]))

section Steps

variable {place : List Str} {v v' : Volume}

/-- Directories that are made. -/
theorem grows_directories {start : List Str} {way : List (Component Str)}
    {tree : FileTree Str} (h : v.files.tree.createDirectories start way = some tree) :
    Grows place v { v with files := { v.files with tree := tree } } where
  cwd := rfl
  kind := by
    intro q _ hexists
    rcases FileTree.kind_of_createDirectories h q with hsame | ⟨hnone, _⟩
    · exact hsame
    · exact absurd hnone hexists
  text := fun _ _ _ => Or.inl rfl
  mode := fun _ _ _ => Or.inl rfl

theorem wayThere_iff {start : List Str} {way : List (Component Str)}
    {tree : FileTree Str} (h : v.files.tree.createDirectories start way = some tree) :
    Grows place { v with files := { v.files with tree := tree } } v <->
      v.WayThere place start way := by
  rw [← sameBelow_iff (grows_directories h)]
  constructor
  · intro hsame done name rest hway hbelow
    rw [hway] at h
    have hmade := (FileTree.isDirectory_on_way h).exists
    rw [FileTree.Exists, ← hsame.kind _ hbelow]
    exact hmade
  · intro hthere
    refine ⟨?_, fun _ _ _ => rfl, fun _ _ _ => rfl⟩
    intro q hq
    rcases FileTree.kind_of_createDirectories h q with
      hsame | ⟨hnone, _, done, rest, name, hway, rfl⟩
    · exact hsame
    · exact absurd hnone (hthere done name rest hway hq)

/-- A file that is there and empty. -/
def EmptyFile (v : Volume) (place at' : List Str) : Prop :=
  place <+: at' -> v.files.tree.kind at' = some FileKind.file ∧ v.text at' = []

/-- What a file that is opened leaves. -/
theorem perform_openFile {path : Str} (h : v.perform (Effect.openFile path) = some v') :
    v'.files.cwd = v.files.cwd ∧ v'.mode = v.mode ∧
      (forall q, v'.files.tree.kind q =
        if q = v.files.locate path then some FileKind.file else v.files.tree.kind q) ∧
      forall q, v'.text q = if q = v.files.locate path then [] else v.text q := by
  rcases Option.map_eq_some_iff.mp h with ⟨files, hfiles, rfl⟩
  unfold FileSystem.createFile at hfiles
  split at hfiles
  · cases hfiles
  · rcases Option.map_eq_some_iff.mp hfiles with ⟨tree, htree, rfl⟩
    exact ⟨rfl, rfl, FileTree.kind_of_createFile htree, fun _ => rfl⟩

/-- Only a file, or nothing, is at a place that is opened. -/
theorem kind_of_openFile {path : Str} (h : v.perform (Effect.openFile path) = some v')
    (hexists : v.files.tree.Exists (v.files.locate path)) :
    v.files.tree.kind (v.files.locate path) = some FileKind.file := by
  rcases Option.map_eq_some_iff.mp h with ⟨files, hfiles, _⟩
  unfold FileSystem.createFile at hfiles
  split at hfiles
  · cases hfiles
  · rcases Option.map_eq_some_iff.mp hfiles with ⟨tree, htree, _⟩
    unfold FileTree.createFile at htree
    split at htree
    · rename_i hfile
      exact hfile
    · rename_i hnone _
      exact absurd hnone hexists
    · cases htree

theorem grows_openFile {path : Str} (h : v.perform (Effect.openFile path) = some v') :
    Grows place v v' := by
  rcases perform_openFile h with ⟨hcwd, hmode, hkind, htext⟩
  constructor
  · exact hcwd
  · intro q _ hexists
    rw [hkind]
    split
    · rename_i hq
      rw [hq] at hexists ⊢
      exact (kind_of_openFile h hexists).symm
    · rfl
  · intro q _ _
    rw [htext]
    split
    · exact Or.inr rfl
    · exact Or.inl rfl
  · intro q _ _
    rw [hmode]
    exact Or.inl rfl

theorem emptyFile_iff {path : Str} (h : v.perform (Effect.openFile path) = some v') :
    Grows place v' v <-> v.EmptyFile place (v.files.locate path) := by
  rcases perform_openFile h with ⟨hcwd, hmode, hkind, htext⟩
  rw [← sameBelow_iff (grows_openFile h)]
  constructor
  · intro hsame hbelow
    have hfile : v.files.tree.kind (v.files.locate path) = some FileKind.file := by
      rw [← hsame.kind _ hbelow, hkind, if_pos rfl]
    have hexists : v.files.tree.Exists (v.files.locate path) := by
      rw [FileTree.Exists, hfile]
      exact Option.some_ne_none _
    refine ⟨hfile, ?_⟩
    rw [← hsame.text _ hbelow hexists, htext, if_pos rfl]
  · intro hempty
    constructor
    · intro q hq
      rw [hkind]
      split
      · rename_i hplace
        rw [hplace] at hq ⊢
        exact (hempty hq).left.symm
      · rfl
    · intro q hq _
      rw [htext]
      split
      · rename_i hplace
        rw [hplace] at hq ⊢
        exact (hempty hq).right.symm
      · rfl
    · intro q _ _
      rw [hmode]

/-- An entry that is executable as a script is. -/
def ScriptMode (v : Volume) (place at' : List Str) : Prop :=
  place <+: at' -> v.files.tree.Exists at' ∧ v.mode at' = scriptMode

theorem perform_setPermissions {path : Str}
    (h : v.perform (Effect.setPermissions path PermChange.replaceWithScript) = some v') :
    v.files.tree.Exists (v.files.locate path) ∧
      v' = v.setMode (v.files.locate path) scriptMode := by
  rw [perform] at h
  split at h
  · rename_i hexists
    cases h
    exact ⟨hexists, rfl⟩
  · cases h

theorem grows_setMode (place : List Str) (v : Volume) (at' : List Str) :
    Grows place v (v.setMode at' scriptMode) where
  cwd := rfl
  kind := fun _ _ _ => rfl
  text := fun _ _ _ => Or.inl rfl
  mode := by
    intro q _ _
    by_cases hq : q = at'
    · exact Or.inr (if_pos hq)
    · exact Or.inl (if_neg hq)

theorem scriptMode_iff {at' : List Str} (hexists : v.files.tree.Exists at') :
    Grows place (v.setMode at' scriptMode) v <-> v.ScriptMode place at' := by
  rw [← sameBelow_iff (grows_setMode place v at')]
  constructor
  · intro hsame hbelow
    refine ⟨hexists, ?_⟩
    rw [← hsame.mode _ hbelow hexists]
    exact if_pos rfl
  · intro hscript
    refine ⟨fun _ _ => rfl, fun _ _ _ => rfl, ?_⟩
    intro q hq _
    show (if q = at' then scriptMode else v.mode q) = v.mode q
    split
    · rename_i hplace
      rw [hplace] at hq ⊢
      exact (hscript hq).right.symm
    · rfl

end Steps

end Volume

end Websocket
end CisWebui
