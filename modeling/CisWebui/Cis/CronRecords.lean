import CisWebui.Cis.CronList

/-!
# Records and lines

`parse_cron_list` looks for each separator in all of the output that is left.
So a record comes from one line as long as the text from each line on yields
none that the line itself does not have.
-/

namespace CisWebui
namespace Cis

open Cpp

def newline : UInt8 :=
  chr '\n'

/-- The output for a list of lines. -/
def joined (lines : List Str) : Str :=
  [newline].intercalate lines

/-- The text begins with a record: text up to the first slash, up to the next
blank, and up to the next newline, none of them empty. -/
def Yields (text : Str) : Prop :=
  exists (line : CronLine) (rest : Str),
    text = line.text ++ rest ∧ findByte newline rest = rest

/-- From line to line, up to the first that nothing is read from, what the text
yields the line yields. -/
def EachInItsLine : List Str -> Prop
  | [] => True
  | line :: rest => Yields (joined (line :: rest)) -> Yields line ∧ EachInItsLine rest

/-- An entry is that of a line of the output. -/
def FromLine (output : Str) (entry : CronEntry) : Prop :=
  exists line, line ∈ output.splitOn newline ∧
    line = entry.project ++ chr '/' :: (entry.job ++ chr ' ' :: entry.cronExpr)

/-- What the parser appends comes from single lines. -/
def LineByLine (output : Str) (entries : List CronEntry) : Prop :=
  exists new, parseCronList output entries = entries ++ new ∧
    forall entry, entry ∈ new -> FromLine output entry ∧
      newline ∉ entry.project ∧ newline ∉ entry.job ∧ newline ∉ entry.cronExpr

/-!
## Rounds of the loop
-/

theorem findByte_eq_nil {c : UInt8} {it : Str} (h : c ∉ it) : findByte c it = [] := by
  have hfind := findByte_append h []
  rw [List.append_nil] at hfind
  exact hfind

/-- Text up to the next newline, or all of it. -/
theorem exists_findByte_newline (it : Str) :
    exists head rest, it = head ++ rest ∧ newline ∉ head ∧
      findByte newline rest = rest := by
  by_cases hmem : newline ∈ it
  · rcases List.eq_append_cons_of_mem hmem with ⟨head, rest, hit, hhead⟩
    exact ⟨head, newline :: rest, hit, hhead, findByte_cons _ _⟩
  · exact ⟨it, [], (List.append_nil it).symm, hmem, rfl⟩

/-- A round of the loop reads a record, or it is the last one. -/
theorem yields_or_stops (text : Str) :
    Yields text ∨ forall entries, parseCronList text entries = entries := by
  by_cases hslash : chr '/' ∈ text
  · rcases List.eq_append_cons_of_mem hslash with ⟨project, behind, rfl, hproject⟩
    by_cases hblank : chr ' ' ∈ behind
    · rcases List.eq_append_cons_of_mem hblank with ⟨job, last, rfl, hjob⟩
      rcases exists_findByte_newline last with ⟨expr, rest, rfl, hexpr, hrest⟩
      by_cases hempty : project = [] ∨ job = [] ∨ expr = []
      · right
        intro entries
        rw [parseCronList_separated hproject hjob hexpr hrest, if_pos hempty]
      · rw [not_or, not_or] at hempty
        rcases hempty with ⟨hproject', hjob', hexpr'⟩
        left
        refine ⟨⟨⟨project, job, expr⟩, hproject', hproject, hjob', hjob, hexpr', hexpr⟩,
          rest, ?_, hrest⟩
        simp [CronLine.text]
    · right
      intro entries
      have hfree : chr ' ' ∉ chr '/' :: behind := by
        rw [List.mem_cons, not_or]
        exact ⟨by decide, hblank⟩
      rw [parseCronList, dif_neg (by simp)]
      dsimp only
      rw [findByte_separator hproject, findByte_eq_nil hfree, if_pos (Or.inr rfl)]
  · right
    intro entries
    rw [parseCronList, findByte_eq_nil hslash]
    split
    · rfl
    · exact if_pos (Or.inl rfl)

/-- The parser only appends. -/
theorem parseCronList_append (text : Str) (entries : List CronEntry) :
    parseCronList text entries = entries ++ parseCronList text [] := by
  induction hlength : text.length using Nat.strongRecOn generalizing text entries with
  | ind n ih =>
      rcases yields_or_stops text with ⟨line, rest, rfl, hrest⟩ | hstops
      · have hshort : rest.tail.length < n := by
          rw [← hlength, List.length_tail]
          simp only [CronLine.text, List.length_append, List.length_cons]
          omega
        rw [parseCronList_line line _ hrest, parseCronList_line line _ hrest,
          ih _ hshort _ _ rfl, ih _ hshort _ ([] ++ [line.entry]) rfl]
        simp
      · rw [hstops, hstops, List.append_nil]

/-!
## Lines of the output
-/

/-- No part of the entry has a newline. -/
def CronEntry.Plain (entry : CronEntry) : Prop :=
  newline ∉ entry.project ∧ newline ∉ entry.job ∧ newline ∉ entry.cronExpr

theorem plain_iff_text (line : CronLine) :
    line.entry.Plain <-> newline ∉ line.text := by
  have hslash : newline ≠ chr '/' := by decide
  have hblank : newline ≠ chr ' ' := by decide
  simp [CronEntry.Plain, CronLine.text, hslash, hblank]

theorem joined_cons (line : Str) (rest : List Str) :
    exists tail, joined (line :: rest) = line ++ tail ∧
      findByte newline tail = tail ∧ tail.tail = joined rest := by
  cases rest with
  | nil => exact ⟨[], by simp [joined], rfl, rfl⟩
  | cons next rest =>
      refine ⟨newline :: joined (next :: rest), ?_, findByte_cons _ _, rfl⟩
      simp [joined, List.intercalate_cons_cons]

/-- A line that has a record ends with it. -/
theorem exists_text_of_yields {line : Str} (hline : newline ∉ line) (h : Yields line) :
    exists record : CronLine, line = record.text := by
  rcases h with ⟨record, rest, rfl, hrest⟩
  have hfree : newline ∉ rest := fun hmem => hline (List.mem_append_right _ hmem)
  rw [findByte_eq_nil hfree] at hrest
  exact ⟨record, by rw [← hrest, List.append_nil]⟩

/-- Records without a newline are cut where the line is. -/
theorem eq_text_of_plain {record : CronLine} {line tail rest : Str}
    (hline : newline ∉ line) (hplain : record.entry.Plain)
    (htail : findByte newline tail = tail) (hrest : findByte newline rest = rest)
    (h : line ++ tail = record.text ++ rest) : line = record.text := by
  have hfind := congrArg (findByte newline) h
  rw [findByte_append hline, findByte_append ((plain_iff_text record).mp hplain), htail,
    hrest] at hfind
  rw [hfind] at h
  exact List.append_cancel_right h

section Lines

variable {line : Str} {rest : List Str}

/-- The line has a record: it comes first, and the rest is read from the next line
on. -/
theorem parseCronList_of_yields (rest : List Str) (hline : newline ∉ line)
    (h : Yields line) :
    exists record : CronLine, line = record.text ∧
      parseCronList (joined (line :: rest)) [] =
        record.entry :: parseCronList (joined rest) [] := by
  rcases exists_text_of_yields hline h with ⟨record, hrecord⟩
  rcases joined_cons line rest with ⟨tail, hjoined, htail, hnext⟩
  refine ⟨record, hrecord, ?_⟩
  rw [hjoined, hrecord, parseCronList_line record [] htail, hnext, parseCronList_append]
  rfl

theorem parseCronList_of_not_yields {text : Str} (h : ¬ Yields text) :
    parseCronList text [] = [] :=
  (yields_or_stops text).resolve_left h []

/-- Where only the text behind the line completes a record, the record spans
lines. -/
theorem exists_not_plain (hline : newline ∉ line) (h : Yields (joined (line :: rest)))
    (hnot : ¬ Yields line) :
    exists entry, entry ∈ parseCronList (joined (line :: rest)) [] ∧ ¬ entry.Plain := by
  rcases h with ⟨record, behind, htext, hbehind⟩
  rcases joined_cons line rest with ⟨tail, hjoined, htail, _⟩
  refine ⟨record.entry, ?_, ?_⟩
  · rw [htext, parseCronList_line record [] hbehind, parseCronList_append]
    exact List.mem_append_left _ (List.mem_singleton.mpr rfl)
  · intro hplain
    have hsame : line = record.text :=
      eq_text_of_plain hline hplain htail hbehind (hjoined.symm.trans htext)
    exact hnot ⟨record, [], by rw [hsame, List.append_nil], rfl⟩

end Lines

theorem plain_iff_eachInItsLine (lines : List Str)
    (hlines : forall line, line ∈ lines -> newline ∉ line) :
    (forall entry, entry ∈ parseCronList (joined lines) [] -> entry.Plain) <->
      EachInItsLine lines := by
  induction lines with
  | nil =>
      have hnil : parseCronList (joined []) [] = [] := by
        rw [joined, List.intercalate_nil, parseCronList, dif_pos rfl]
      rw [hnil]
      exact iff_of_true (fun _ hmem => by cases hmem) trivial
  | cons line rest ih =>
      rw [List.forall_mem_cons] at hlines
      rcases hlines with ⟨hline, hrest⟩
      rw [EachInItsLine]
      by_cases hyields : Yields (joined (line :: rest))
      · by_cases hown : Yields line
        · rcases parseCronList_of_yields rest hline hown with
            ⟨record, hrecord, hparse⟩
          rw [hparse, List.forall_mem_cons, ih hrest]
          have hplain : record.entry.Plain := by
            rw [plain_iff_text, ← hrecord]
            exact hline
          constructor
          · intro h _
            exact ⟨hown, h.right⟩
          · intro h
            exact ⟨hplain, (h hyields).right⟩
        · rcases exists_not_plain hline hyields hown with ⟨entry, hentry, hspans⟩
          apply iff_of_false
          · intro hall
            exact hspans (hall entry hentry)
          · intro h
            exact hown (h hyields).left
      · rw [parseCronList_of_not_yields hyields]
        exact iff_of_true (fun _ hmem => by cases hmem) (fun h => absurd h hyields)

/-- Then the entries are those of lines. -/
theorem fromLine_of_eachInItsLine (lines : List Str)
    (hlines : forall line, line ∈ lines -> newline ∉ line) (h : EachInItsLine lines)
    {entry : CronEntry} (hentry : entry ∈ parseCronList (joined lines) []) :
    exists line, line ∈ lines ∧
      line = entry.project ++ chr '/' :: (entry.job ++ chr ' ' :: entry.cronExpr) := by
  induction lines with
  | nil =>
      rw [joined, List.intercalate_nil, parseCronList, dif_pos rfl] at hentry
      cases hentry
  | cons line rest ih =>
      rw [List.forall_mem_cons] at hlines
      rcases hlines with ⟨hline, hrest⟩
      rw [EachInItsLine] at h
      by_cases hyields : Yields (joined (line :: rest))
      · rcases h hyields with ⟨hown, hnext⟩
        rcases parseCronList_of_yields rest hline hown with
          ⟨record, hrecord, hparse⟩
        rw [hparse] at hentry
        rcases List.mem_cons.mp hentry with hfirst | hlater
        · rw [hfirst]
          exact ⟨line, List.mem_cons_self, hrecord⟩
        · rcases ih hrest hnext hlater with ⟨other, hother, htext⟩
          exact ⟨other, List.mem_cons_of_mem _ hother, htext⟩
      · rw [parseCronList_of_not_yields hyields] at hentry
        cases hentry

/-- Every record comes from a single line exactly if, from line to line, the text
yields no record that the line itself does not have. -/
theorem lineByLine_iff (output : Str) (entries : List CronEntry) :
    LineByLine output entries <-> EachInItsLine (output.splitOn newline) := by
  have hlines : forall line, line ∈ output.splitOn newline -> newline ∉ line :=
    fun line hline => not_mem_of_mem_splitOn hline
  have hjoined : joined (output.splitOn newline) = output := List.intercalate_splitOn newline
  have hplain := plain_iff_eachInItsLine _ hlines
  rw [hjoined] at hplain
  constructor
  · intro h
    rcases h with ⟨new, hparse, hnew⟩
    rw [parseCronList_append, List.append_cancel_left_eq] at hparse
    rw [← hplain, hparse]
    exact fun entry hentry => (hnew entry hentry).right
  · intro h
    refine ⟨_, parseCronList_append output entries, ?_⟩
    intro entry hentry
    refine ⟨?_, hplain.mpr h entry hentry⟩
    rw [← hjoined] at hentry
    exact fromLine_of_eachInItsLine _ hlines h hentry

/-- A heading without a slash in front of the records. -/
def headedRecord : CronLine where
  entry :=
    { project := str "projects\nweb", job := str "deploy", cronExpr := str "* * * * *" }
  project_nonempty := by decide
  project_plain := by decide
  job_nonempty := by decide
  job_plain := by decide
  expr_nonempty := by decide
  expr_plain := by decide

theorem lineByLine_not_everywhere :
    ¬ forall output entries, LineByLine output entries := by
  intro h
  have hparse := parseCronList_line headedRecord [] (findByte_eq_nil (List.not_mem_nil))
  rcases h headedRecord.text [] with ⟨new, hnew, hplain⟩
  rw [List.append_nil] at hparse
  rw [hparse, parseCronList_append, List.nil_append] at hnew
  have hmem : headedRecord.entry ∈ new := by
    rw [← List.nil_append new, ← hnew]
    exact List.mem_append_left _ (List.mem_singleton.mpr rfl)
  exact absurd (hplain _ hmem).right.left (by decide)

end Cis
end CisWebui
