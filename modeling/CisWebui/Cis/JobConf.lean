import Mathlib.Data.List.DropRight
import CisWebui.Cis.JobRun
import CisWebui.Cpp.InputStream
import CisWebui.Foundation.Loop
import CisWebui.Foundation.SortedMap

/-!
# The configuration of a job

`load_job_conf` reads `job.conf` with two calls of `std::getline` in a loop that
asks the stream whether it saw the end of the file.  A directory is a job exactly if
what comes out is not empty.

The rounds are stated once for each way a text can go on, and whole texts follow the
grammar that these ways make up.
-/

namespace CisWebui
namespace Cis
namespace JobConf

open Cpp Foundation InputStream

abbrev Conf := SortedMap Str Str

/-!
## Loading
-/

/-- `std::stoul` on any text: it passes over white space and a sign, wants digits, and
takes as many as there are.  A negated value wraps around. -/
def stoulOf (text : Str) : Option Nat :=
  let unspaced := text.dropWhile isSpace
  let negated := unspaced.head? = some (chr '-')
  let signed := negated ∨ unspaced.head? = some (chr '+')
  let digits := (if signed then unspaced.tail else unspaced).takeWhile isDigit
  if digits = [] then
    none
  else
    (stoul digits).toOption.map fun value =>
      if negated then (ulongSize - value) % ulongSize else value

/-- What is behind the loop. -/
def checked (conf : Conf) : Conf :=
  match conf.find? (str "script"), conf.find? (str "keep_last_success_builds"),
      conf.find? (str "keep_last_break_builds") with
  | some _, some successful, some broken =>
      if (stoulOf successful).isSome ∧ (stoulOf broken).isSome then
        conf
      else
        SortedMap.empty
  | _, _, _ => SortedMap.empty

/-- A round of the loop, on the stream and what was read before. -/
def loadJobConfRound (s : InputStream × Conf) : Turn (InputStream × Conf) Conf :=
  let (conf_file, conf) := s
  if conf_file.eof then
    Turn.leave (checked conf)
  else
    let (key, conf_file) := conf_file.getline (chr '=')
    if key = [] ∧ conf_file.good ∧ ¬ conf_file.eof then
      Turn.leave SortedMap.empty
    else if conf_file.eof then
      Turn.leave (checked conf)
    else
      let (val, conf_file) := conf_file.getline (chr '\n')
      Turn.again (conf_file, conf.alter key fun _ => val.rdropWhile isSpace)

def loadJobConfStart (file : FileOutcome) : InputStream × Conf :=
  (InputStream.ofFile file, SortedMap.empty)

/-- `load_job_conf` returns the map. -/
def LoadsJobConf (file : FileOutcome) (conf : Conf) : Prop :=
  Loop.Returns loadJobConfRound (loadJobConfStart file) conf

/-- `load_job_conf` comes back. -/
def LoadingEnds (file : FileOutcome) : Prop :=
  Loop.Ends loadJobConfRound (loadJobConfStart file)

/-!
## Rounds
-/

/-- A key that is there, and a value that stays on its line. -/
def IsRecord (pair : Str × Str) : Prop :=
  pair.1 ≠ [] ∧ chr '=' ∉ pair.1 ∧ chr '\n' ∉ pair.2

instance (pair : Str × Str) : Decidable (IsRecord pair) :=
  inferInstanceAs (Decidable (_ ∧ _))

/-- `key=value` -/
def line (pair : Str × Str) : Str :=
  pair.1 ++ chr '=' :: pair.2

def assign (conf : Conf) (pair : Str × Str) : Conf :=
  conf.alter pair.1 fun _ => pair.2.rdropWhile isSpace

section Rounds

variable (conf : Conf) (readError : Bool)

theorem round_eof {s : InputStream} (h : s.eofBit = true) :
    loadJobConfRound (s, conf) = Turn.leave (checked conf) := by
  simp only [loadJobConfRound]
  rw [if_pos (by exact h)]

theorem round_emptyKey (rest : Str) :
    loadJobConfRound (at' (chr '=' :: rest) readError, conf) =
      Turn.leave SortedMap.empty := by
  have hkey : (at' (chr '=' :: rest) readError).getline (chr '=') = ([], at' rest readError) :=
    getline_separator List.not_mem_nil rest readError
  simp only [loadJobConfRound, hkey]
  rfl

/-- Without a separator the key goes to the end, and the end of the file is seen. -/
theorem round_keyless {text : Str} (h : chr '=' ∉ text) :
    loadJobConfRound (at' text false, conf) = Turn.leave (checked conf) := by
  simp only [loadJobConfRound, getline_last h]
  simp [at', eof, good]

/-- Where reading fails in the key, the end of the file is not seen. -/
theorem round_keyless_readError {text : Str} (h : chr '=' ∉ text) :
    exists s', loadJobConfRound (at' text true, conf) = Turn.again s' ∧ Stuck s'.1 := by
  simp only [loadJobConfRound, getline_last h]
  rw [if_neg (by simp [at', eof]), if_neg (by simp [good]), if_neg (by simp [eof])]
  exact ⟨_, rfl, stuck_getline ⟨rfl, by simp [good]⟩ _⟩

theorem round_record {pair : Str × Str} (h : IsRecord pair) (rest : Str) :
    loadJobConfRound (at' (line pair ++ chr '\n' :: rest) readError, conf) =
      Turn.again (at' rest readError, assign conf pair) := by
  have htext : line pair ++ chr '\n' :: rest =
      pair.1 ++ chr '=' :: (pair.2 ++ chr '\n' :: rest) := by
    rw [line, List.append_assoc, List.cons_append]
  rw [htext]
  simp only [loadJobConfRound, getline_separator h.right.left,
    getline_separator h.right.right]
  rw [if_neg (by simp [at', eof]), if_neg (by simp [h.left]), if_neg (by simp [at', eof])]
  rfl

/-- The last line, without a newline. -/
theorem round_last {pair : Str × Str} (h : IsRecord pair) :
    loadJobConfRound (at' (line pair) readError, conf) =
      Turn.again
        ({ left := []
           readError := readError
           eofBit := !readError
           badBit := readError
           failBit := pair.2 = [] },
          assign conf pair) := by
  rw [line]
  simp only [loadJobConfRound, getline_separator h.right.left, getline_last h.right.right]
  rw [if_neg (by simp [at', eof]), if_neg (by simp [h.left]), if_neg (by simp [at', eof])]
  rfl

/-- From a stream that fails and did not see the end every round leads to another such. -/
theorem round_stuck {s : InputStream × Conf} (h : Stuck s.1) :
    exists s', loadJobConfRound s = Turn.again s' ∧ Stuck s'.1 := by
  rcases s with ⟨conf_file, conf⟩
  have heof : conf_file.eofBit = false := h.left
  have hkey := stuck_getline h (chr '=')
  simp only [loadJobConfRound]
  rw [if_neg (by simp [eof, heof]), if_neg (by simp [hkey.right]),
    if_neg (by simp [eof, hkey.left])]
  exact ⟨_, rfl, stuck_getline hkey _⟩

end Rounds

/-!
## Texts
-/

/-- The ways a text can go on, as the two calls of `std::getline` take it apart. -/
inductive Records : Str -> Prop where
  | keyless {text : Str} (h : chr '=' ∉ text) : Records text
  | emptyKey (rest : Str) : Records (chr '=' :: rest)
  | last {pair : Str × Str} (h : IsRecord pair) : Records (line pair)
  | record {pair : Str × Str} {rest : Str} (h : IsRecord pair) (hrest : Records rest) :
      Records (line pair ++ chr '\n' :: rest)

/-- Every text is made up of records, down to one of the ends. -/
theorem records (text : Str) : Records text := by
  induction hlength : text.length using Nat.strongRecOn generalizing text with
  | ind n ih =>
      by_cases hseparator : chr '=' ∈ text
      · rcases List.eq_append_cons_of_mem hseparator with ⟨key, behind, htext, hkey⟩
        by_cases hempty : key = []
        · rw [htext, hempty]
          exact Records.emptyKey behind
        · by_cases hnewline : chr '\n' ∈ behind
          · rcases List.eq_append_cons_of_mem hnewline with ⟨val, rest, hbehind, hval⟩
            have hline : text = line (key, val) ++ chr '\n' :: rest := by
              rw [htext, hbehind, line, List.append_assoc, List.cons_append]
            have hshorter : rest.length < n := by
              rw [<- hlength, hline, List.length_append, List.length_cons]
              omega
            rw [hline]
            exact Records.record ⟨hempty, hkey, hval⟩ (ih rest.length hshorter rest rfl)
          · have hline : text = line (key, behind) := htext
            rw [hline]
            exact Records.last ⟨hempty, hkey, hnewline⟩
      · exact Records.keyless hseparator

/-- Behind some records there is one with an empty key. -/
def ReachesEmptyKey (text : Str) : Prop :=
  exists (pairs : List (Str × Str)) (rest : Str),
    (forall pair, pair ∈ pairs -> IsRecord pair) ∧
      text = (pairs.flatMap fun pair => line pair ++ [chr '\n']) ++ chr '=' :: rest

theorem reachesEmptyKey_record {pair : Str × Str} {rest : Str} (h : IsRecord pair)
    (hrest : ReachesEmptyKey rest) :
    ReachesEmptyKey (line pair ++ chr '\n' :: rest) := by
  rcases hrest with ⟨pairs, behind, hpairs, heq⟩
  refine ⟨pair :: pairs, behind, ?_, ?_⟩
  · intro other hother
    rcases List.mem_cons.mp hother with hfirst | hmem
    · rw [hfirst]
      exact h
    · exact hpairs other hmem
  · rw [heq, List.flatMap_cons]
    simp only [List.append_assoc, List.cons_append, List.nil_append]

/-!
## The end of the loop
-/

theorem ends_of_reachesEmptyKey {text : Str} (h : ReachesEmptyKey text) (readError : Bool)
    (conf : Conf) : Loop.Ends loadJobConfRound (at' text readError, conf) := by
  rcases h with ⟨pairs, rest, hpairs, rfl⟩
  induction pairs generalizing conf with
  | nil => exact Loop.ends_of_leave (round_emptyKey conf _ rest)
  | cons pair pairs ih =>
      have hround := round_record conf readError
        (hpairs pair (List.mem_cons_self ..))
        ((pairs.flatMap fun pair => line pair ++ [chr '\n']) ++ chr '=' :: rest)
      have hrest := ih (assign conf pair) fun other hother =>
        hpairs other (List.mem_cons_of_mem _ hother)
      have hends := (Loop.ends_iff_of_again hround).mpr hrest
      rw [List.flatMap_cons]
      simpa only [List.append_assoc, List.cons_append, List.nil_append] using hends

/-- A text that can be read to its end is loaded. -/
theorem ends_of_records {text : Str} (h : Records text) (conf : Conf) :
    Loop.Ends loadJobConfRound (at' text false, conf) := by
  induction h generalizing conf with
  | keyless h => exact Loop.ends_of_leave (round_keyless conf h)
  | emptyKey rest => exact Loop.ends_of_leave (round_emptyKey conf _ rest)
  | last h =>
      rw [Loop.ends_iff_of_again (round_last _ _ h)]
      exact Loop.ends_of_leave (round_eof _ rfl)
  | record h hrest ih =>
      rw [Loop.ends_iff_of_again (round_record _ _ h _)]
      exact ih _

theorem not_ends_of_stuck {s : InputStream × Conf} (h : Stuck s.1) :
    ¬ Loop.Ends loadJobConfRound s :=
  Loop.not_ends_of_invariant (I := fun s => Stuck s.1) (fun _ => round_stuck) h

/-- Where reading fails behind a text that is loaded all the same, an empty key is in
front of the error. -/
theorem reachesEmptyKey_of_ends {text : Str} (h : Records text) {conf : Conf}
    (hends : Loop.Ends loadJobConfRound (at' text true, conf)) : ReachesEmptyKey text := by
  induction h generalizing conf with
  | keyless h =>
      rcases round_keyless_readError conf h with ⟨s', hround, hstuck⟩
      rw [Loop.ends_iff_of_again hround] at hends
      exact absurd hends (not_ends_of_stuck hstuck)
  | emptyKey rest => exact ⟨[], rest, by simp, rfl⟩
  | last h =>
      rw [Loop.ends_iff_of_again (round_last _ _ h)] at hends
      exact absurd hends (not_ends_of_stuck ⟨rfl, by simp [good]⟩)
  | record h hrest ih =>
      rw [Loop.ends_iff_of_again (round_record _ _ h _)] at hends
      exact reachesEmptyKey_record h (ih hends)

/-- The file can be opened and read: to its end, or as far as to an empty key. -/
def Readable (file : FileOutcome) : Prop :=
  exists text readError, file = FileOutcome.opened text readError ∧
    (readError = true -> ReachesEmptyKey text)

/-- Loading ends for the files that can be read, and only for these: a stream that
fails without the end of the file is asked for it in every round. -/
theorem loadingEnds_iff (file : FileOutcome) : LoadingEnds file <-> Readable file := by
  constructor
  · intro hends
    cases file with
    | unopened => exact absurd hends (not_ends_of_stuck ⟨rfl, rfl⟩)
    | opened text readError =>
        refine ⟨text, readError, rfl, ?_⟩
        intro herror
        rw [herror] at hends
        exact reachesEmptyKey_of_ends (records text) hends
  · intro hreadable
    rcases hreadable with ⟨text, readError, rfl, hempty⟩
    cases readError with
    | false => exact ends_of_records (records text) SortedMap.empty
    | true => exact ends_of_reachesEmptyKey (hempty rfl) true SortedMap.empty

/-- A file that is gone, or must not be read, leaves the stream failed from the start. -/
theorem loading_not_always_ends : ¬ forall file, LoadingEnds file := by
  intro hends
  exact not_ends_of_stuck (s := (_, SortedMap.empty)) ⟨rfl, rfl⟩
    (hends FileOutcome.unopened)

/-!
## What is loaded
-/

theorem find?_assign (conf : Conf) (pair : Str × Str) (k : Str) :
    (assign conf pair).find? k =
      if k = pair.1 then some (pair.2.rdropWhile isSpace) else conf.find? k := by
  rw [assign, SortedMap.find?_alter]
  by_cases h : k = pair.1
  · rw [if_pos h, if_pos h]
  · rw [if_neg h, if_neg h]

/-- The pairs of a `job.conf`, as a writer is to choose them. -/
structure Pairs where
  pairs : List (Str × Str)
  distinct : (pairs.map Prod.fst).Nodup
  records : forall pair, pair ∈ pairs -> IsRecord pair
  trimmed : forall pair, pair ∈ pairs -> pair.2.rdropWhile isSpace = pair.2
  script : exists value, (str "script", value) ∈ pairs
  successful : exists value, (str "keep_last_success_builds", value) ∈ pairs ∧
    (stoulOf value).isSome = true
  broken : exists value, (str "keep_last_break_builds", value) ∈ pairs ∧
    (stoulOf value).isSome = true

/-- A line for each pair, with a newline behind the last of them or without one. -/
def Pairs.text (p : Pairs) (finalNewline : Bool) : Str :=
  [chr '\n'].intercalate (p.pairs.map line) ++ if finalNewline then [chr '\n'] else []

theorem find?_foldl_assign {pairs : List (Str × Str)}
    (hdistinct : (pairs.map Prod.fst).Nodup)
    (htrimmed : forall pair, pair ∈ pairs -> pair.2.rdropWhile isSpace = pair.2)
    (conf : Conf) (k v : Str) :
    (pairs.foldl assign conf).find? k = some v <->
      (k, v) ∈ pairs ∨ (k ∉ pairs.map Prod.fst ∧ conf.find? k = some v) := by
  induction pairs generalizing conf with
  | nil => simp
  | cons pair pairs ih =>
      rw [List.map_cons, List.nodup_cons] at hdistinct
      rw [List.foldl_cons,
        ih hdistinct.right (fun other hother => htrimmed other (List.mem_cons_of_mem _ hother)),
        find?_assign, htrimmed pair (List.mem_cons_self ..), List.mem_cons, List.map_cons,
        List.mem_cons]
      rcases pair with ⟨key, val⟩
      by_cases hkey : k = key
      · subst hkey
        rw [if_pos rfl, Option.some.injEq, Prod.mk.injEq]
        constructor
        · intro h
          rcases h with hmem | hfirst
          · exact Or.inl (Or.inr hmem)
          · exact Or.inl (Or.inl ⟨rfl, hfirst.right.symm⟩)
        · intro h
          rcases h with (hfirst | hmem) | hother
          · exact Or.inr ⟨hdistinct.left, hfirst.right.symm⟩
          · exact Or.inl hmem
          · exact absurd (Or.inl rfl) hother.left
      · simp [hkey]

/-- The loop takes the pairs of a text one by one, and leaves behind the last of them. -/
theorem returns_text {pairs : List (Str × Str)}
    (h : forall pair, pair ∈ pairs -> IsRecord pair) (finalNewline : Bool) (conf : Conf) :
    Loop.Returns loadJobConfRound
      (at' ([chr '\n'].intercalate (pairs.map line) ++
        if finalNewline then [chr '\n'] else []) false, conf)
      (checked (pairs.foldl assign conf)) := by
  induction pairs generalizing conf with
  | nil =>
      apply Loop.returns_of_leave
      apply round_keyless conf
      cases finalNewline with
      | false => exact List.not_mem_nil
      | true => decide
  | cons pair pairs ih =>
      have hpair := h pair (List.mem_cons_self ..)
      have hrest := fun other hother => h other (List.mem_cons_of_mem pair hother)
      cases pairs with
      | nil =>
          rw [List.map_singleton, List.intercalate_singleton]
          cases finalNewline with
          | false =>
              have hround := round_last conf false hpair
              rw [if_neg Bool.false_ne_true, List.append_nil,
                Loop.returns_iff_of_again hround]
              exact Loop.returns_of_leave (round_eof _ rfl)
          | true =>
              have hround := round_record conf false hpair []
              rw [if_pos rfl, Loop.returns_iff_of_again hround]
              exact Loop.returns_of_leave (round_keyless _ List.not_mem_nil)
      | cons next pairs =>
          have hround := round_record conf false hpair
            ([chr '\n'].intercalate ((next :: pairs).map line) ++
              if finalNewline then [chr '\n'] else [])
          have hreturns := (Loop.returns_iff_of_again hround).mpr (ih hrest (assign conf pair))
          rw [List.map_cons, List.map_cons, List.intercalate_cons_cons, List.append_assoc,
            List.append_assoc, List.singleton_append]
          exact hreturns

theorem checked_eq {conf : Conf} {script successful broken : Str}
    (hscript : conf.find? (str "script") = some script)
    (hsuccessful : conf.find? (str "keep_last_success_builds") = some successful)
    (hbroken : conf.find? (str "keep_last_break_builds") = some broken)
    (hacceptable : (stoulOf successful).isSome = true ∧ (stoulOf broken).isSome = true) :
    checked conf = conf := by
  simp only [checked, hscript, hsuccessful, hbroken]
  rw [if_pos hacceptable]

/-- What is written as pairs is loaded as the map of these pairs. -/
theorem loadsJobConf_text (p : Pairs) (finalNewline : Bool) :
    exists conf, LoadsJobConf (FileOutcome.opened (p.text finalNewline) false) conf ∧
      forall key value, conf.find? key = some value <-> (key, value) ∈ p.pairs := by
  have hfind : forall key value,
      (p.pairs.foldl assign SortedMap.empty).find? key = some value <->
        (key, value) ∈ p.pairs := by
    intro key value
    rw [find?_foldl_assign p.distinct p.trimmed]
    constructor
    · intro h
      rcases h with hmem | hempty
      · exact hmem
      · cases hempty.right
    · exact Or.inl
  refine ⟨p.pairs.foldl assign SortedMap.empty, ?_, hfind⟩
  rcases p.script with ⟨script, hscript⟩
  rcases p.successful with ⟨successful, hsuccessful, haccepts⟩
  rcases p.broken with ⟨broken, hbroken, haccepts'⟩
  have hchecked := checked_eq ((hfind _ _).mpr hscript) ((hfind _ _).mpr hsuccessful)
    ((hfind _ _).mpr hbroken) ⟨haccepts, haccepts'⟩
  have hreturns := returns_text p.records finalNewline SortedMap.empty
  rw [hchecked] at hreturns
  exact hreturns

/-- What `add_cis_job` writes. -/
def addCisJobPairs : Pairs where
  pairs :=
    [(str "script", str "script"), (str "keep_last_success_builds", str "5"),
      (str "keep_last_break_builds", str "5")]
  distinct := by decide
  records := by decide
  trimmed := by decide
  script := ⟨str "script", by decide⟩
  successful := ⟨str "5", by decide⟩
  broken := ⟨str "5", by decide⟩

example : addCisJobPairs.text false =
    str "script=script\nkeep_last_success_builds=5\nkeep_last_break_builds=5" := by decide

end JobConf
end Cis
end CisWebui
