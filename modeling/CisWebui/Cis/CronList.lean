import CisWebui.Cpp.Bytes

/-!
# Cron lists

`parse_cron_list`, which takes the output of the cron program apart, and the
output for a list of entries.
-/

namespace CisWebui
namespace Cis

open Cpp

/-- `cron_entry` -/
structure CronEntry where
  project : Str
  job : Str
  cronExpr : Str
deriving DecidableEq, Repr

/-- `std::find`; an iterator is given by what is left from it on. -/
def findByte (c : UInt8) (it : Str) : Str :=
  it.dropWhile fun d => d ≠ c

/-- The range between two iterators. -/
def range (it it' : Str) : Str :=
  it.take (it.length - it'.length)

theorem length_findByte_le (c : UInt8) (it : Str) :
    (findByte c it).length <= it.length :=
  (List.dropWhile_suffix _).length_le

def parseCronList (it : Str) (entries : List CronEntry) : List CronEntry :=
  if _h : it = [] then
    entries
  else
    let it1 := findByte (chr '/') it
    let it2 := findByte (chr ' ') it1
    let it3 := findByte (chr '\n') it2
    if it1 = [] ∨ it2 = [] then
      entries
    else
      let project := range it it1
      let job := range it1.tail it2
      let expr := range it2.tail it3
      if project = [] ∨ job = [] ∨ expr = [] then
        entries
      else
        parseCronList it3.tail
          (entries ++ [{ project := project, job := job, cronExpr := expr }])
termination_by it.length
decreasing_by
  have h1 := length_findByte_le (chr '/') it
  have h2 := length_findByte_le (chr ' ') (findByte (chr '/') it)
  have h3 := length_findByte_le (chr '\n') (findByte (chr ' ') (findByte (chr '/') it))
  have hit : 0 < it.length := List.length_pos_iff.mpr _h
  rw [List.length_tail]
  omega

/-!
## Lines
-/

/-- An entry whose line can be taken apart. -/
structure CronLine where
  entry : CronEntry
  project_nonempty : entry.project ≠ []
  project_plain : chr '/' ∉ entry.project
  job_nonempty : entry.job ≠ []
  job_plain : chr ' ' ∉ entry.job
  expr_nonempty : entry.cronExpr ≠ []
  expr_plain : chr '\n' ∉ entry.cronExpr

/-- The line without its end. -/
def CronLine.text (line : CronLine) : Str :=
  line.entry.project ++ chr '/' ::
    (line.entry.job ++ chr ' ' :: line.entry.cronExpr)

/-- The lines one after the other; the end of the last one may be missing. -/
def printed (ended : Bool) : List CronLine -> Str
  | [] => []
  | [line] => line.text ++ if ended then [chr '\n'] else []
  | line :: rest => line.text ++ chr '\n' :: printed ended rest

/-!
## Round trip
-/

theorem findByte_append {c : UInt8} {head : Str} (h : c ∉ head) (rest : Str) :
    findByte c (head ++ rest) = findByte c rest := by
  induction head with
  | nil => rfl
  | cons d head ih =>
      rw [List.mem_cons, not_or] at h
      rw [List.cons_append, findByte,
        List.dropWhile_cons_of_pos (by simpa using Ne.symm h.left)]
      exact ih h.right

theorem findByte_cons (c : UInt8) (rest : Str) :
    findByte c (c :: rest) = c :: rest :=
  List.dropWhile_cons_of_neg (by simp)

theorem findByte_separator {c : UInt8} {head : Str} (h : c ∉ head) (rest : Str) :
    findByte c (head ++ c :: rest) = c :: rest := by
  rw [findByte_append h, findByte_cons]

theorem range_append (head rest : Str) : range (head ++ rest) rest = head := by
  rw [range, List.length_append, Nat.add_sub_cancel, List.take_left]

/-- One turn of the loop, on a text with both separators. -/
theorem parseCronList_separated {project job expr rest : Str}
    (hproject : chr '/' ∉ project) (hjob : chr ' ' ∉ job) (hexpr : chr '\n' ∉ expr)
    (hrest : findByte (chr '\n') rest = rest) (entries : List CronEntry) :
    parseCronList (project ++ chr '/' :: (job ++ chr ' ' :: (expr ++ rest))) entries =
      if project = [] ∨ job = [] ∨ expr = [] then
        entries
      else
        parseCronList rest.tail
          (entries ++ [{ project := project, job := job, cronExpr := expr }]) := by
  have hjob' : chr ' ' ∉ chr '/' :: job := by
    rw [List.mem_cons, not_or]
    exact ⟨by decide, hjob⟩
  have hexpr' : chr '\n' ∉ chr ' ' :: expr := by
    rw [List.mem_cons, not_or]
    exact ⟨by decide, hexpr⟩
  have h1 := findByte_separator hproject (job ++ chr ' ' :: (expr ++ rest))
  have h2 : findByte (chr ' ') (chr '/' :: (job ++ chr ' ' :: (expr ++ rest))) =
      chr ' ' :: (expr ++ rest) := findByte_separator hjob' _
  have h3 : findByte (chr '\n') (chr ' ' :: (expr ++ rest)) = rest := by
    rw [← List.cons_append, findByte_append hexpr', hrest]
  have hne : project ++ chr '/' :: (job ++ chr ' ' :: (expr ++ rest)) ≠ [] := by
    simp
  rw [parseCronList, dif_neg hne]
  dsimp only
  rw [h1, h2, h3, List.tail_cons, List.tail_cons, range_append, range_append,
    range_append, if_neg (by simp)]

/-- One turn of the loop takes the first line, whatever comes behind it. -/
theorem parseCronList_line (line : CronLine) (entries : List CronEntry) {rest : Str}
    (hrest : findByte (chr '\n') rest = rest) :
    parseCronList (line.text ++ rest) entries =
      parseCronList rest.tail (entries ++ [line.entry]) := by
  have htext : line.text ++ rest = line.entry.project ++ chr '/' ::
      (line.entry.job ++ chr ' ' :: (line.entry.cronExpr ++ rest)) := by
    simp [CronLine.text]
  have hfull : ¬ (line.entry.project = [] ∨ line.entry.job = [] ∨
      line.entry.cronExpr = []) := by
    simp [line.project_nonempty, line.job_nonempty, line.expr_nonempty]
  rw [htext, parseCronList_separated line.project_plain line.job_plain line.expr_plain
    hrest, if_neg hfull]

/-- What has been printed is taken apart into the entries, in their order. -/
theorem parseCronList_printed (ended : Bool) (lines : List CronLine)
    (entries : List CronEntry) :
    parseCronList (printed ended lines) entries =
      entries ++ lines.map CronLine.entry := by
  induction lines generalizing entries with
  | nil =>
      rw [printed, parseCronList, dif_pos rfl]
      simp
  | cons line rest ih =>
      have hnil : parseCronList [] (entries ++ [line.entry]) =
          entries ++ [line.entry] := by
        rw [parseCronList, dif_pos rfl]
      cases rest with
      | nil =>
          cases ended with
          | true =>
              rw [printed, if_pos rfl, parseCronList_line line entries (findByte_cons _ _)]
              exact hnil
          | false =>
              rw [printed, if_neg (by simp), parseCronList_line line entries rfl]
              exact hnil
      | cons next rest =>
          rw [printed, parseCronList_line line entries (findByte_cons _ _),
            List.tail_cons, ih, List.map_cons, List.append_assoc]
          · rfl
          · exact List.cons_ne_nil _ _

end Cis
end CisWebui
