import Mathlib.Data.List.DropRight
import CisWebui.Cpp.Bytes
import CisWebui.Foundation.LexicalPath

/-!
# Paths of the standard library

`std::filesystem::path` on a POSIX system.  A path is the string it was made
from; its elements are found again whenever it is taken apart.
-/

namespace CisWebui
namespace Cpp

open Foundation

namespace FilesystemPath

/-- `/`, the preferred separator and the only one. -/
def slash : UInt8 := chr '/'

/-- `is_absolute()`, which here means a root directory -/
def isAbsolute (p : Str) : Bool :=
  p.head? == some slash

/-- `root_path()` -/
def rootPath (p : Str) : Str :=
  if isAbsolute p then [slash] else []

/-- The names of a path, without the root directory and the empty name that
stands for a trailing separator. -/
def names (p : Str) : List Str :=
  (p.splitOn slash).filter fun name => name ≠ []

def endsInSlash (p : Str) : Bool :=
  p.getLast? == some slash

/-- The elements from `begin()` to `end()`. -/
def elements (p : Str) : List Str :=
  (if isAbsolute p then [[slash]] else []) ++ names p ++
    (if names p ≠ [] ∧ endsInSlash p then [[]] else [])

/-- `filename()` -/
def filename (p : Str) : Str :=
  if endsInSlash p then [] else (names p).getLast?.getD []

/-- `remove_filename()` -/
def removeFilename (p : Str) : Str :=
  p.take (p.length - (filename p).length)

/-- `parent_path()` -/
def parentPath (p : Str) : Str :=
  let stripped :=
    ((removeFilename p).reverse.dropWhile fun c => c == slash).reverse
  if stripped = [] ∧ isAbsolute p then [slash] else stripped

/-- `operator/`: an absolute right operand replaces the left one. -/
def append (p q : Str) : Str :=
  if isAbsolute q then q
  else if p = [] ∨ endsInSlash p then p ++ q
  else p ++ slash :: q

/-- `operator+=`: the strings are joined without a separator. -/
def concat (p q : Str) : Str :=
  p ++ q

/-- The elements of both paths behind their common beginning. -/
def mismatch : List Str -> List Str -> List Str × List Str
  | a :: as, b :: bs => if a = b then mismatch as bs else (a :: as, b :: bs)
  | as, bs => (as, bs)

/-- How far the remaining elements of a base lead down, less its `..`. -/
def depth (elements : List Str) : Int :=
  elements.foldl (fun n name =>
    if name = str ".." then n - 1
    else if name = [] ∨ name = str "." then n
    else n + 1) 0

/-- `lexically_relative(base)` -/
def lexicallyRelative (p base : Str) : Str :=
  if isAbsolute p ≠ isAbsolute base then
    []
  else
    match mismatch (elements p) (elements base) with
    | ([], []) => str "."
    | (rest, baseRest) =>
        let n := depth baseRest
        if n = 0 ∧ (rest = [] ∨ rest = [[]]) then str "."
        else if n < 0 then []
        else (List.replicate n.toNat (str "..") ++ rest).foldl append []

/-- The path the system gets from `c_str()`. -/
def cStr (p : Str) : Str :=
  p.takeWhile fun c => c ≠ 0

def component (name : Str) : Component Str :=
  if name = str "." then Component.here
  else if name = str ".." then Component.up
  else Component.name name

theorem component_eq_name {name n : Str}
    (h : component name = Component.name n) : n = name := by
  unfold component at h
  split at h
  · cases h
  split at h
  · cases h
  · cases h
    rfl

def components (p : Str) : List (Component Str) :=
  (names p).map component

/-- Where a path leads, symbolic links aside, for a process whose current
directory is `cwd`. -/
def resolved (cwd : List Str) (p : Str) : List Str :=
  LexicalPath.resolve (if isAbsolute p then [] else cwd) (components p)

/-!
## Elements of joined paths
-/

@[simp] theorem names_nil : names [] = [] := by
  decide

theorem names_append_slash (p q : Str) :
    names (p ++ slash :: q) = names p ++ names q := by
  simp [names, List.splitOn_append_cons_self]

theorem names_slash_cons (q : Str) : names (slash :: q) = names q := by
  simpa using names_append_slash [] q

theorem names_of_not_mem {p : Str} (h : slash ∉ p) :
    names p = if p = [] then [] else [p] := by
  rw [names, List.splitOn_eq_singleton h]
  by_cases hp : p = []
  · simp [hp]
  · simp [hp]

theorem isAbsolute_of_not_mem {p : Str} (h : slash ∉ p) :
    isAbsolute p = false := by
  cases p with
  | nil => rfl
  | cons c rest =>
      have hc : c ≠ slash := fun hc => h (by simp [hc])
      simpa [isAbsolute] using hc

theorem exists_of_isAbsolute {p : Str} (h : isAbsolute p = true) :
    exists q, p = slash :: q := by
  cases p with
  | nil => simp [isAbsolute] at h
  | cons c q =>
      have hc : c = slash := by simpa [isAbsolute] using h
      exact ⟨q, by rw [hc]⟩

theorem exists_of_endsInSlash {p : Str} (h : endsInSlash p = true) :
    exists q, p = q ++ [slash] := by
  have hlast : p.getLast? = some slash := by simpa [endsInSlash] using h
  exact List.getLast?_eq_some_iff.mp hlast

/-- A path that is appended as a string keeps its names when it is
absolute. -/
theorem names_concat {p q : Str} (hq : isAbsolute q = true) :
    names (concat p q) = names p ++ names q := by
  rcases exists_of_isAbsolute hq with ⟨rest, rfl⟩
  rw [concat, names_append_slash, names_slash_cons]

theorem names_append {p q : Str} (hq : isAbsolute q = false) :
    names (append p q) = names p ++ names q := by
  unfold append
  rw [if_neg (by simp [hq])]
  by_cases hp : p = []
  · simp [hp]
  by_cases hslash : endsInSlash p = true
  · rw [if_pos (Or.inr hslash)]
    rcases exists_of_endsInSlash hslash with ⟨r, rfl⟩
    rw [names_append_slash r [], List.append_assoc, List.singleton_append,
      names_append_slash, names_nil, List.append_nil]
  · rw [if_neg (by simp [hp, hslash]), names_append_slash]

theorem isAbsolute_append (p q : Str) :
    isAbsolute (append p q) = (isAbsolute p || isAbsolute q) := by
  unfold append
  cases hq : isAbsolute q with
  | true => simp [hq]
  | false =>
      cases p with
      | nil => simpa [isAbsolute] using hq
      | cons c rest =>
          simp only [Bool.false_eq_true, if_false, Bool.or_false]
          split <;> rfl

theorem resolved_append {p q : Str} (hq : isAbsolute q = false)
    (cwd : List Str) :
    resolved cwd (append p q) =
      LexicalPath.resolve (resolved cwd p) (components q) := by
  rw [resolved, isAbsolute_append, hq, Bool.or_false, components,
    names_append hq, List.map_append, LexicalPath.resolve_append]
  rfl

theorem append_of_isAbsolute {p q : Str} (hq : isAbsolute q = true) :
    append p q = q := by
  simp [append, hq]

theorem resolved_of_isAbsolute {p : Str} (hp : isAbsolute p = true)
    (cwd : List Str) :
    resolved cwd p = LexicalPath.resolve [] (components p) := by
  simp [resolved, hp]

/-- A path with the separator that is put behind it. -/
def stem (p : Str) : Str :=
  if p = [] ∨ endsInSlash p then p else p ++ [slash]

theorem append_eq_stem {p q : Str} (hq : isAbsolute q = false) :
    append p q = stem p ++ q := by
  unfold append stem
  rw [if_neg (by simp [hq])]
  split
  · rfl
  · simp

theorem endsInSlash_append {p q : Str} (hq : q ≠ []) :
    endsInSlash (p ++ q) = endsInSlash q := by
  simp [endsInSlash, List.getLast?_append_of_ne_nil _ hq]

theorem stem_stem (p : Str) : stem (stem p) = stem p := by
  by_cases h : p = [] ∨ endsInSlash p
  · have hp : stem p = p := if_pos h
    rw [hp, hp]
  · have hp : stem p = p ++ [slash] := if_neg h
    have hslash : endsInSlash (p ++ [slash]) = true := by
      simp [endsInSlash]
    rw [hp]
    exact if_pos (Or.inr hslash)

theorem stem_append (p q : Str) : stem (stem p ++ q) = stem p ++ stem q := by
  by_cases hq : q = []
  · subst hq
    rw [List.append_nil, stem_stem]
    exact (List.append_nil _).symm
  · unfold stem
    rw [endsInSlash_append hq]
    by_cases hslash : endsInSlash q = true
    · simp [hslash]
    · simp [hslash, hq]

theorem append_assoc (p q r : Str) :
    append (append p q) r = append p (append q r) := by
  cases hr : isAbsolute r with
  | true =>
      rw [append_of_isAbsolute hr, append_of_isAbsolute hr,
        append_of_isAbsolute hr]
  | false =>
      cases hq : isAbsolute q with
      | true =>
          have hqr : isAbsolute (append q r) = true := by
            rw [isAbsolute_append, hq, Bool.true_or]
          rw [append_of_isAbsolute hq, append_of_isAbsolute hqr]
      | false =>
          have hqr : isAbsolute (append q r) = false := by
            rw [isAbsolute_append, hq, hr, Bool.or_false]
          rw [append_eq_stem hr, append_eq_stem hq, append_eq_stem hqr,
            append_eq_stem hr, stem_append, List.append_assoc]

/-!
## Names of a path and its last name
-/

theorem slash_not_mem_of_mem_names {p name : Str} (h : name ∈ names p) :
    slash ∉ name :=
  not_mem_of_mem_splitOn (List.mem_of_mem_filter h)

/-- A path with a slash is what stands before its last one, and the rest. -/
theorem exists_lastSlash {p : Str} (h : slash ∈ p) :
    exists q r, p = q ++ slash :: r ∧ slash ∉ r := by
  induction p with
  | nil => cases h
  | cons c rest ih =>
      by_cases hrest : slash ∈ rest
      · rcases ih hrest with ⟨q, r, rfl, hr⟩
        exact ⟨c :: q, r, rfl, hr⟩
      · rcases List.mem_cons.mp h with rfl | hmem
        · exact ⟨[], rest, rfl, hrest⟩
        · exact absurd hmem hrest

theorem endsInSlash_of_not_mem {r : Str} (q : Str) (hr : slash ∉ r) (hne : r ≠ []) :
    endsInSlash (q ++ slash :: r) = false := by
  rw [endsInSlash_append (List.cons_ne_nil _ _), ← List.singleton_append,
    endsInSlash_append hne]
  apply Bool.eq_false_iff.mpr
  intro hslash
  rcases exists_of_endsInSlash hslash with ⟨s, rfl⟩
  exact hr (List.mem_append_right s List.mem_cons_self)

theorem filename_append_slash {r : Str} (q : Str) (hr : slash ∉ r) :
    filename (q ++ slash :: r) = r := by
  unfold filename
  by_cases hempty : r = []
  · subst hempty
    simp [endsInSlash]
  · rw [endsInSlash_of_not_mem q hr hempty, names_append_slash, names_of_not_mem hr, if_neg hempty]
    simp

theorem filename_of_not_mem {r : Str} (hr : slash ∉ r) : filename r = r := by
  have hends : endsInSlash r = false := by
    apply Bool.eq_false_iff.mpr
    intro hslash
    rcases exists_of_endsInSlash hslash with ⟨q, rfl⟩
    exact hr (List.mem_append_right q List.mem_cons_self)
  rw [filename, hends, if_neg Bool.false_ne_true, names_of_not_mem hr]
  split
  · rename_i hempty
    exact hempty.symm
  · rfl

theorem filename_append {r : Str} (p : Str) (hr : slash ∉ r) : filename (append p r) = r := by
  rw [append_eq_stem (isAbsolute_of_not_mem hr)]
  unfold stem
  split
  · rename_i h
    rcases h with hnil | hslash
    · rw [hnil, List.nil_append]
      exact filename_of_not_mem hr
    · rcases exists_of_endsInSlash hslash with ⟨q, hq⟩
      rw [hq, List.append_assoc]
      exact filename_append_slash q hr
  · rw [List.append_assoc]
    exact filename_append_slash p hr

theorem removeFilename_append_slash {r : Str} (q : Str) (hr : slash ∉ r) :
    removeFilename (q ++ slash :: r) = q ++ [slash] := by
  rw [removeFilename, filename_append_slash q hr, List.length_append,
    List.length_cons]
  rw [show q.length + (r.length + 1) - r.length = q.length + 1 by omega]
  simp [List.take_append]

/-- Without the slashes at its end a path has the same names. -/
theorem stripped_spec (p : Str) :
    let stripped := p.rdropWhile fun c => c == slash
    names stripped = names p ∧ endsInSlash stripped = false := by
  induction p using List.reverseRecOn with
  | nil => exact ⟨rfl, rfl⟩
  | append_singleton p c ih =>
      rcases eq_or_ne c slash with rfl | hc
      · have hdrop : (p ++ [slash]).rdropWhile (fun c => c == slash) =
            p.rdropWhile fun c => c == slash :=
          List.rdropWhile_concat_pos _ _ _ rfl
        dsimp only
        rw [hdrop, names_append_slash p [], names_nil, List.append_nil]
        exact ih
      · have hdrop : (p ++ [c]).rdropWhile (fun c => c == slash) = p ++ [c] :=
          List.rdropWhile_concat_neg _ _ _ (by simpa using hc)
        dsimp only
        rw [hdrop]
        refine ⟨rfl, ?_⟩
        simpa [endsInSlash] using hc

theorem parentPath_eq {p : Str} (hp : isAbsolute p = true) :
    parentPath p =
      if (removeFilename p).rdropWhile (fun c => c == slash) = [] then [slash]
      else (removeFilename p).rdropWhile fun c => c == slash := by
  unfold parentPath
  rw [hp]
  simp only [and_true]
  rfl

theorem isAbsolute_parentPath {p : Str} (hp : isAbsolute p = true) :
    isAbsolute (parentPath p) = true := by
  rw [parentPath_eq hp]
  split
  · rfl
  · rename_i hne
    rcases exists_of_isAbsolute hp with ⟨rest, rfl⟩
    have hprefix : (removeFilename (slash :: rest)).rdropWhile (fun c => c == slash) <+:
        slash :: rest :=
      (List.rdropWhile_prefix _ _).trans (List.take_prefix _ _)
    rcases hprefix with ⟨tail, htail⟩
    cases hstripped :
        (removeFilename (slash :: rest)).rdropWhile fun c => c == slash with
    | nil => exact absurd hstripped hne
    | cons c front =>
        rw [hstripped, List.cons_append] at htail
        rw [(List.cons.inj htail).left]
        rfl

/-- The parent has the names in front of the last slash, and does not end in one. -/
theorem names_parentPath {q r : Str} (hr : slash ∉ r)
    (hp : isAbsolute (q ++ slash :: r) = true) :
    names (parentPath (q ++ slash :: r)) = names q ∧
      (names q ≠ [] -> endsInSlash (parentPath (q ++ slash :: r)) = false) := by
  have hspec := stripped_spec (removeFilename (q ++ slash :: r))
  rw [parentPath_eq hp]
  have hnames : names (removeFilename (q ++ slash :: r)) = names q := by
    rw [removeFilename_append_slash q hr, names_append_slash q [], names_nil,
      List.append_nil]
  rw [hnames] at hspec
  split
  · rename_i hnil
    rw [hnil] at hspec
    constructor
    · rw [← hspec.left]
      decide
    · intro hne
      exact absurd hspec.left.symm hne
  · exact ⟨hspec.left, fun _ => hspec.right⟩

theorem exists_mem_names {c : UInt8} {p : Str} (hc : c ≠ slash) (h : c ∈ p) :
    exists name, name ∈ names p ∧ c ∈ name := by
  have hsplit : exists name, name ∈ p.splitOn slash ∧ c ∈ name := by
    induction p with
    | nil => cases h
    | cons d rest ih =>
        rw [List.splitOn_cons_eq_if_modifyHead]
        split
        · rename_i hd
          have hmem : c ∈ rest := by
            rcases List.mem_cons.mp h with rfl | hmem
            · exact absurd (by simpa using hd) hc
            · exact hmem
          rcases ih hmem with ⟨name, hname, hcname⟩
          exact ⟨name, List.mem_cons_of_mem _ hname, hcname⟩
        · cases hrest : rest.splitOn slash with
          | nil => exact absurd hrest (List.splitOn_ne_nil slash rest)
          | cons head tail =>
              rw [List.modifyHead_cons]
              rcases List.mem_cons.mp h with rfl | hmem
              · exact ⟨_, List.mem_cons_self, List.mem_cons_self⟩
              · rcases ih hmem with ⟨name, hname, hcname⟩
                rw [hrest] at hname
                rcases List.mem_cons.mp hname with rfl | htail
                · exact ⟨_, List.mem_cons_self, List.mem_cons_of_mem _ hcname⟩
                · exact ⟨name, List.mem_cons_of_mem _ htail, hcname⟩
  rcases hsplit with ⟨name, hname, hcname⟩
  exact ⟨name, List.mem_filter.mpr ⟨hname, by simpa using List.ne_nil_of_mem hcname⟩,
    hcname⟩

/-!
## C strings
-/

theorem cStr_append_of_noNul {p : Str} (hp : 0 ∉ p) (q : Str) :
    cStr (p ++ q) = p ++ cStr q := by
  apply List.takeWhile_append_of_pos
  intro c hc
  have hne : c ≠ 0 := by
    rintro rfl
    exact hp hc
  simpa using hne

theorem cStr_of_noNul {p : Str} (hp : 0 ∉ p) : cStr p = p := by
  simpa [cStr] using cStr_append_of_noNul hp []

theorem cStr_append_of_nul {p : Str} (hp : 0 ∈ p) (q : Str) :
    cStr (p ++ q) = cStr p := by
  induction p with
  | nil => cases hp
  | cons c rest ih =>
      by_cases hc : c = 0
      · simp [cStr, hc]
      · have hrest : 0 ∈ rest := by
          rcases List.mem_cons.mp hp with hc' | hrest
          · exact absurd hc'.symm hc
          · exact hrest
        simpa [cStr, hc] using ih hrest

theorem nul_not_mem_cStr (p : Str) : 0 ∉ cStr p := by
  intro hmem
  have hall := List.all_eq_true.mp List.all_takeWhile 0 hmem
  simp at hall

theorem mem_of_mem_cStr {c : UInt8} {p : Str} (h : c ∈ cStr p) : c ∈ p :=
  (List.takeWhile_prefix _).subset h

theorem nul_not_mem_append {p q : Str} (hp : 0 ∉ p) (hq : 0 ∉ q) :
    0 ∉ append p q := by
  have hslash : (0 : UInt8) ≠ slash := by
    decide
  unfold append
  split
  · exact hq
  split
  · simp [hp, hq]
  · simp [hp, hq, hslash]

theorem isAbsolute_cStr (p : Str) : isAbsolute (cStr p) = isAbsolute p := by
  cases p with
  | nil => rfl
  | cons c rest =>
      by_cases hc : c = 0
      · subst hc
        rfl
      · simp [cStr, hc, isAbsolute]

theorem cStr_append {p : Str} (hp : 0 ∉ p) (q : Str) :
    cStr (append p q) = append p (cStr q) := by
  unfold append
  rw [isAbsolute_cStr]
  split
  · rfl
  split
  · exact cStr_append_of_noNul hp q
  · rw [cStr_append_of_noNul hp]
    rfl

end FilesystemPath

end Cpp
end CisWebui
