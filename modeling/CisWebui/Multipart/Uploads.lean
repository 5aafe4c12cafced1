import CisWebui.Http.Confinement
import CisWebui.Multipart.Deliveries

/-!
# What the answer to an upload means

When the body of an upload has been read without an error, `handle_body` makes
its status from the mode and from the marks of the values.  A directory that is
none leaves the mode at `ignore`, where no file is opened and no mark counts,
and a file that runs out of room keeps its mark.
-/

namespace CisWebui
namespace Multipart

open Cpp FilesystemPath
open Foundation
open Http (FormTarget FormValue Mode Request RightsEnv)
open Http.MultipartFormHandler (bodyStatus handleForm prepareBody formDir)

def Value.form (value : Value) : FormValue where
  isFile := value.isFile
  written := value.written

/-- The status `handle_body` answers; it is called when the body has been read
without an error. -/
def Upload.answer (mode : Mode) (upload : Upload) : Option Status :=
  match upload.outcome with
  | Outcome.stored =>
      some (bodyStatus mode (upload.values.map Value.form))
  | _ => none

/-- The file of a part has been opened for writing, in the directory, and the
body of the part is what has been written to it. -/
def Kept (cwd : List Str) (target : FormTarget) (part : Part)
    (file : FormFile) : Prop :=
  exists filename contentType, part.file = some (filename, contentType) ∧
    file.path = some (target.filePath filename) ∧
    Inside cwd (resolved cwd (cStr target.dir)) (target.filePath filename) ∧
    file.written = part.body

def fileParts (parts : List Part) : List Part :=
  parts.filter fun part => part.file.isSome

/-- Every file part is kept, in the order of the parts. -/
def AllKept (cwd : List Str) (target : FormTarget) (parts : List Part)
    (upload : Upload) : Prop :=
  List.Forall₂ (Kept cwd target) (fileParts parts) upload.files.reverse

/-!
## The conditions on the parts
-/

/-- Every file part is opened: the mode allows it, and the open succeeds. -/
def Opens (fs : FileSystem) (target : FormTarget) :
    List Str -> List Part -> Prop
  | _, [] => True
  | opened, part :: rest =>
      match part.file with
      | none => Opens fs target opened rest
      | some (filename, _) =>
          let path := target.filePath filename
          (target.opens (fs.disk opened) filename = true ∧
            fs.openError opened path = none) ∧
            Opens fs target (path :: opened) rest

/-- A filename that leads to something in the directory. -/
def NamesInside (cwd : List Str) (dir filename : Str) : Prop :=
  if isAbsolute filename then
    resolved cwd (cStr dir) <+:
      LexicalPath.resolve [] (components (cStr filename))
  else
    0 ∈ dir ∨ LexicalPath.StaysUnder (resolved cwd (cStr dir))
      (components (cStr filename))

/-- Every file part has a name that stays in the directory, and its file has
room for it. -/
def Holds (cwd : List Str) (fs : FileSystem) (target : FormTarget) :
    List Str -> List Part -> Prop
  | _, [] => True
  | opened, part :: rest =>
      match part.file with
      | none => Holds cwd fs target opened rest
      | some (filename, _) =>
          let path := target.filePath filename
          (NamesInside cwd target.dir filename ∧
            forall room, fs.room opened path = some room ->
              part.body.length <= room) ∧
            Holds cwd fs target (path :: opened) rest

/-- What makes a 200 true: the directory is one, and unless a file part is not
opened, which gives another answer, all of them hold.  Where there is no
directory, there must be no file part. -/
def Storable (cwd : List Str) (fs : FileSystem) (target : FormTarget)
    (parts : List Part) : Prop :=
  if fs.isDirectory (cStr target.dir) then
    Opens fs target [] parts -> Holds cwd fs target [] parts
  else
    forall part, part ∈ parts -> part.file = none

/-- Where a file of the body leads. -/
theorem inside_filePath_iff (cwd : List Str) (target : FormTarget)
    (filename : Str) :
    Inside cwd (resolved cwd (cStr target.dir)) (target.filePath filename) <->
      NamesInside cwd target.dir filename := by
  unfold Inside NamesInside FormTarget.filePath
  cases hfilename : isAbsolute filename with
  | true =>
      have habs : isAbsolute (cStr filename) = true := by
        rw [isAbsolute_cStr, hfilename]
      rw [if_pos rfl, append_of_isAbsolute hfilename,
        resolved_of_isAbsolute habs]
  | false =>
      rw [if_neg (by simp)]
      by_cases hnul : 0 ∈ target.dir
      · rw [Http.cStr_append_project hnul hfilename]
        exact ⟨fun _ => Or.inl hnul, fun _ => List.prefix_rfl⟩
      · have hrel : isAbsolute (cStr filename) = false := by
          rw [isAbsolute_cStr, hfilename]
        rw [cStr_append hnul, cStr_of_noNul hnul, resolved_append hrel,
          LexicalPath.prefix_resolve_iff]
        exact ⟨Or.inr, fun h => h.resolve_left hnul⟩

/-!
## What the parts leave behind
-/

/-- The file a part is written to, once it has been closed. -/
def keptFile (fs : FileSystem) (target : FormTarget) (opened : List Str)
    (filename body : Str) : FormFile :=
  let path := target.filePath filename
  let file : FormFile :=
    { name := filename, path := some path, room := fs.room opened path }
  { file with written := file.taken body }

/-- What parts that are all opened leave behind, in their order. -/
def keptParts (fs : FileSystem) (target : FormTarget) :
    List Str -> List Part -> List Value × List FormFile
  | _, [] => ([], [])
  | opened, part :: rest =>
      match part.file with
      | none =>
          let later := keptParts fs target opened rest
          ({ name := part.name, isFile := false, content := part.body } ::
            later.1, later.2)
      | some (filename, _) =>
          let later := keptParts fs target (target.filePath filename :: opened)
            rest
          ({ name := part.name, isFile := true, content := filename } ::
            later.1, keptFile fs target opened filename part.body :: later.2)

namespace Collector

variable {fs : FileSystem}

theorem leave_kept {c : Collector} (hstate : c.state = ReaderState.name)
    {part : Part} {filename contentType : Str}
    (hfile : part.file = some (filename, contentType))
    (hopens : c.target.opens (fs.disk c.opened) filename = true)
    (herror : fs.openError c.opened (c.target.filePath filename) = none) :
    leave fs c part = some (c.extended
      ([{ name := part.name, isFile := true, content := filename }],
        [keptFile fs c.target c.opened filename part.body])) := by
  rcases c with ⟨target, parser, message, isWritable, state, buffer, values, files⟩
  dsimp only at hstate
  subst hstate
  rw [leave, hfile]
  dsimp only
  rw [afterFilename, if_pos hopens, herror]
  simp [filed, openedFile, extended, FormFile.write, keptFile, FormFile.taken]

theorem leave_failed {c : Collector} {part : Part} {filename contentType : Str}
    (hfile : part.file = some (filename, contentType))
    (hopens : c.target.opens (fs.disk c.opened) filename = true)
    (herror : ¬ fs.openError c.opened (c.target.filePath filename) = none) :
    leave fs c part = none := by
  rcases Option.ne_none_iff_exists'.mp herror with ⟨e, he⟩
  rw [leave, hfile]
  dsimp only
  rw [afterFilename, if_pos hopens, he]
  rfl

theorem leaveAll_kept (parts : List Part) : forall c : Collector,
    c.state = ReaderState.name -> Opens fs c.target c.opened parts ->
    parts.foldlM (leave fs) c =
      some (c.extended (keptParts fs c.target c.opened parts)) := by
  induction parts with
  | nil =>
      intro c _ _
      rfl
  | cons part parts ih =>
      intro c hstate hopens
      rw [List.foldlM_cons, keptParts]
      rw [Opens] at hopens
      cases hfile : part.file with
      | none =>
          rw [hfile] at hopens
          rw [leave_plain hfile]
          refine (ih (c.extended _) hstate ?_).trans ?_
          · exact hopens
          · rw [extended_extended]
            rfl
      | some values =>
          rcases values with ⟨filename, contentType⟩
          rw [hfile] at hopens
          rcases hopens with ⟨⟨hopen, herror⟩, hrest⟩
          rw [leave_kept hstate hfile hopen herror]
          refine (ih (c.extended _) hstate ?_).trans ?_
          · exact hrest
          · rw [extended_extended]
            rfl

/-- A part only adds to what there is. -/
theorem exists_extended {c d : Collector} (hstate : c.state = ReaderState.name)
    {part : Part} (h : leave fs c part = some d) :
    exists more, d = c.extended more := by
  cases hfile : part.file with
  | none =>
      rw [leave_plain hfile] at h
      cases h
      exact ⟨_, rfl⟩
  | some values =>
      rcases values with ⟨filename, contentType⟩
      cases hopens : c.target.opens (fs.disk c.opened) filename with
      | false =>
          rw [leave_refused hstate hfile hopens] at h
          cases h
          exact ⟨_, rfl⟩
      | true =>
          by_cases herror :
              fs.openError c.opened (c.target.filePath filename) = none
          · rw [leave_kept hstate hfile hopens herror] at h
            cases h
            exact ⟨_, rfl⟩
          · rw [leave_failed hfile hopens herror] at h
            cases h

theorem exists_extendedAll (parts : List Part) : forall {c d : Collector},
    c.state = ReaderState.name -> parts.foldlM (leave fs) c = some d ->
    exists more, d = c.extended more := by
  induction parts with
  | nil =>
      intro c d _ h
      cases h
      exact ⟨([], []), rfl⟩
  | cons part parts ih =>
      intro c d hstate h
      rw [List.foldlM_cons] at h
      rcases Option.bind_eq_some_iff.mp h with ⟨e, he, hrest⟩
      rcases exists_extended hstate he with ⟨more, rfl⟩
      rcases ih (c := c.extended more) hstate hrest with ⟨later, rfl⟩
      exact ⟨_, extended_extended c more later⟩

/-- Where not every part is opened, a value is left without its mark. -/
theorem exists_unwritten (parts : List Part) : forall {c d : Collector},
    c.state = ReaderState.name -> ¬ Opens fs c.target c.opened parts ->
    parts.foldlM (leave fs) c = some d ->
    exists value, value ∈ d.values ∧ value.isFile = true ∧
      value.written = false := by
  induction parts with
  | nil =>
      intro c d _ hopens _
      exact absurd trivial hopens
  | cons part parts ih =>
      intro c d hstate hopens h
      rw [List.foldlM_cons] at h
      rcases Option.bind_eq_some_iff.mp h with ⟨e, he, hrest⟩
      rw [Opens] at hopens
      cases hfile : part.file with
      | none =>
          rw [hfile] at hopens
          rw [leave_plain hfile] at he
          cases he
          refine ih (c := c.extended _) hstate ?_ hrest
          exact hopens
      | some values =>
          rcases values with ⟨filename, contentType⟩
          rw [hfile] at hopens
          cases hopen : c.target.opens (fs.disk c.opened) filename with
          | false =>
              rw [leave_refused hstate hfile hopen] at he
              cases he
              rcases exists_extendedAll parts (c := c.extended _) hstate hrest
                with ⟨more, rfl⟩
              exact ⟨_, List.mem_append_right _ (List.mem_cons_self ..), rfl, rfl⟩
          | true =>
              by_cases herror :
                  fs.openError c.opened (c.target.filePath filename) = none
              · rw [leave_kept hstate hfile hopen herror] at he
                cases he
                refine ih (c := c.extended _) hstate ?_ hrest
                exact fun hlater => hopens ⟨⟨hopen, herror⟩, hlater⟩
              · rw [leave_failed hfile hopen herror] at he
                cases he

/-- In the mode `ignore` nothing is opened. -/
theorem not_opened (parts : List Part) : forall {c d : Collector},
    c.state = ReaderState.name -> c.target.mode = Mode.ignore ->
    parts.foldlM (leave fs) c = some d ->
    forall file, file ∈ d.files -> file ∈ c.files ∨ file.path = none := by
  induction parts with
  | nil =>
      intro c d _ _ h file hmem
      cases h
      exact Or.inl hmem
  | cons part parts ih =>
      intro c d hstate hmode h file hmem
      rw [List.foldlM_cons] at h
      rcases Option.bind_eq_some_iff.mp h with ⟨e, he, hrest⟩
      cases hfile : part.file with
      | none =>
          rw [leave_plain hfile] at he
          cases he
          exact ih (c := c.extended _) hstate hmode hrest file hmem
      | some values =>
          rcases values with ⟨filename, contentType⟩
          have hopen : c.target.opens (fs.disk c.opened) filename = false := by
            rw [FormTarget.opens, hmode]
          rw [leave_refused hstate hfile hopen] at he
          cases he
          rcases ih (c := c.extended _) hstate hmode hrest file hmem with
            hin | hnone
          · rcases List.mem_cons.mp hin with rfl | hold
            · exact Or.inr rfl
            · exact Or.inl hold
          · exact Or.inr hnone

theorem exists_of_ignore (parts : List Part) : forall {c : Collector},
    c.state = ReaderState.name -> c.target.mode = Mode.ignore ->
    exists d, parts.foldlM (leave fs) c = some d := by
  induction parts with
  | nil =>
      intro c _ _
      exact ⟨c, rfl⟩
  | cons part parts ih =>
      intro c hstate hmode
      rw [List.foldlM_cons]
      cases hfile : part.file with
      | none =>
          rw [leave_plain hfile]
          exact ih (c := c.extended _) hstate hmode
      | some values =>
          rcases values with ⟨filename, contentType⟩
          have hopen : c.target.opens (fs.disk c.opened) filename = false := by
            rw [FormTarget.opens, hmode]
          rw [leave_refused hstate hfile hopen]
          exact ih (c := c.extended _) hstate hmode

end Collector

/-!
## The status
-/

theorem bodyStatus_of_marked {values : List FormValue} (mode : Mode)
    (h : forall value, value ∈ values ->
      ¬ (value.isFile = true ∧ ¬ value.written = true)) :
    bodyStatus mode values = Status.ok := by
  induction values with
  | nil => rfl
  | cons value values ih =>
      rw [bodyStatus, List.foldl_cons, if_neg (h value (List.mem_cons_self ..))]
      exact ih fun value hvalue => h value (List.mem_cons_of_mem _ hvalue)

theorem bodyStatus_ignore (values : List FormValue) :
    bodyStatus Mode.ignore values = Status.ok := by
  induction values with
  | nil => rfl
  | cons value values ih =>
      rw [bodyStatus, List.foldl_cons, ite_self]
      exact ih

theorem bodyStatus_concat (mode : Mode) (values : List FormValue)
    (value : FormValue) :
    bodyStatus mode (values ++ [value]) =
      if value.isFile ∧ ¬ value.written then
        match mode with
        | Mode.replace => Status.notFound
        | Mode.add => Status.conflict
        | _ => bodyStatus mode values
      else
        bodyStatus mode values := by
  rw [bodyStatus, List.foldl_append]
  rfl

/-- A file without its mark decides the status in both modes of the
handlers. -/
theorem bodyStatus_of_unmarked {mode : Mode}
    (hmode : mode = Mode.add ∨ mode = Mode.replace) (values : List FormValue)
    (h : exists value, value ∈ values ∧ value.isFile = true ∧
      value.written = false) :
    ¬ bodyStatus mode values = Status.ok := by
  induction values using List.reverseRecOn with
  | nil =>
      rcases h with ⟨value, hmem, -⟩
      cases hmem
  | append_singleton values last ih =>
      rw [bodyStatus_concat]
      split
      · rcases hmode with rfl | rfl <;> exact fun hok => nomatch hok
      · rename_i hmarked
        rcases h with ⟨value, hmem, hfile, hwritten⟩
        rcases List.mem_append.mp hmem with hold | hlast
        · exact ih ⟨value, hold, hfile, hwritten⟩
        · rw [List.mem_singleton] at hlast
          subst hlast
          exact absurd ⟨hfile, by simp [hwritten]⟩ hmarked

/-!
## Which uploads are kept
-/

theorem fileParts_cons_none {part : Part} (h : part.file = none)
    (parts : List Part) : fileParts (part :: parts) = fileParts parts := by
  simp [fileParts, h]

theorem fileParts_cons_some {part : Part} {file : Str × Str}
    (h : part.file = some file) (parts : List Part) :
    fileParts (part :: parts) = part :: fileParts parts := by
  simp [fileParts, h]

theorem kept_keptFile_iff (cwd : List Str) (fs : FileSystem)
    (target : FormTarget) (opened : List Str) {part : Part}
    {filename contentType : Str}
    (hfile : part.file = some (filename, contentType)) :
    Kept cwd target part (keptFile fs target opened filename part.body) <->
      NamesInside cwd target.dir filename ∧
        forall room, fs.room opened (target.filePath filename) = some room ->
          part.body.length <= room := by
  have htaken : (keptFile fs target opened filename part.body).written =
      part.body <-> forall room,
        fs.room opened (target.filePath filename) = some room ->
          part.body.length <= room := by
    rw [keptFile, FormFile.taken]
    dsimp only
    cases fs.room opened (target.filePath filename) with
    | none => simp
    | some room => simp
  rw [← htaken, ← inside_filePath_iff]
  constructor
  · rintro ⟨name, type, hname, hpath, hinside, hwritten⟩
    rw [hfile] at hname
    cases hname
    exact ⟨hinside, hwritten⟩
  · rintro ⟨hinside, hwritten⟩
    exact ⟨filename, contentType, hfile, rfl, hinside, hwritten⟩

theorem kept_keptParts_iff (cwd : List Str) (fs : FileSystem)
    (target : FormTarget) (parts : List Part) : forall opened : List Str,
    List.Forall₂ (Kept cwd target) (fileParts parts)
        (keptParts fs target opened parts).2 <->
      Holds cwd fs target opened parts := by
  induction parts with
  | nil =>
      intro opened
      simp [fileParts, keptParts, Holds]
  | cons part parts ih =>
      intro opened
      rw [keptParts, Holds]
      cases hfile : part.file with
      | none =>
          rw [fileParts_cons_none hfile]
          exact ih opened
      | some values =>
          rcases values with ⟨filename, contentType⟩
          rw [fileParts_cons_some hfile]
          dsimp only
          rw [List.forall₂_cons, kept_keptFile_iff cwd fs target opened hfile, ih]

theorem keptParts_marked {fs : FileSystem} {target : FormTarget}
    (parts : List Part) : forall (opened : List Str) (value : Value),
      value ∈ (keptParts fs target opened parts).1 -> value.written = true := by
  induction parts with
  | nil =>
      intro opened value h
      cases h
  | cons part parts ih =>
      intro opened value h
      rw [keptParts] at h
      cases hfile : part.file with
      | none =>
          rw [hfile] at h
          rcases List.mem_cons.mp h with rfl | h
          · rfl
          · exact ih _ value h
      | some values =>
          rcases values with ⟨filename, contentType⟩
          rw [hfile] at h
          rcases List.mem_cons.mp h with rfl | h
          · rfl
          · exact ih _ value h

/-- Files that have not been opened keep no part. -/
theorem kept_unopened_iff {cwd : List Str} {target : FormTarget}
    {parts : List Part} {files : List FormFile}
    (hfiles : forall file, file ∈ files -> file.path = none)
    (hnone : (forall part, part ∈ parts -> part.file = none) -> files = []) :
    List.Forall₂ (Kept cwd target) (fileParts parts) files <->
      forall part, part ∈ parts -> part.file = none := by
  constructor
  · intro h part hpart
    by_contra hfile
    have hmem : part ∈ fileParts parts := by
      rw [fileParts, List.mem_filter]
      exact ⟨hpart, Option.isSome_iff_ne_none.mpr hfile⟩
    cases hparts : fileParts parts with
    | nil =>
        rw [hparts] at hmem
        cases hmem
    | cons first others =>
        rw [hparts] at h
        cases h with
        | cons hkept _ =>
            rcases hkept with ⟨filename, contentType, -, hpath, -⟩
            rw [hfiles _ (List.mem_cons_self ..)] at hpath
            cases hpath
  · intro h
    rw [hnone h]
    have hparts : fileParts parts = [] := by
      rw [fileParts, List.filter_eq_nil_iff]
      intro part hpart
      rw [h part hpart]
      simp
    rw [hparts]
    exact List.Forall₂.nil

theorem files_of_plain {fs : FileSystem} (parts : List Part) :
    forall {c d : Collector}, (forall part, part ∈ parts -> part.file = none) ->
      parts.foldlM (Collector.leave fs) c = some d -> d.files = c.files := by
  induction parts with
  | nil =>
      intro c d _ h
      cases h
      rfl
  | cons part parts ih =>
      intro c d hplain h
      rw [List.foldlM_cons,
        Collector.leave_plain (hplain part (List.mem_cons_self ..))] at h
      exact ih (c := c.extended _)
        (fun part hpart => hplain part (List.mem_cons_of_mem _ hpart)) h

namespace Reader

variable {fs : FileSystem} {boundary body : Str} {target : FormTarget}

/-- What is left of a body in a frame. -/
theorem whole_framed {parts : List Part} {d : Collector}
    (hframed : Framed boundary body (parts.map Part.text))
    (hvalid : forall part, part ∈ parts -> part.Valid)
    (hleave : parts.foldlM (Collector.leave fs) { target := target } = some d)
    (hstate : d.state = ReaderState.name) :
    (initial boundary target).whole fs body =
      { values := d.values, files := d.files, outcome := Outcome.stored } := by
  rcases feedAll_framed hframed hvalid hleave with ⟨s, hfeed, -, -⟩
  have hfinish : (Reader.mk s (d.waiting false)).finish = none := if_pos hstate
  rw [whole, hfeed]
  change (Reader.mk s (d.waiting false)).close = _
  rw [close, hfinish]
  rfl

/-- A body in a frame comes to what its parts do. -/
theorem comesTo_whole {parts : List Part}
    (hframed : Framed boundary body (parts.map Part.text))
    (hvalid : forall part, part ∈ parts -> part.Valid) :
    ComesTo fs target parts ((initial boundary target).whole fs body) := by
  rw [ComesTo]
  cases hleave : parts.foldlM (Collector.leave fs) { target := target } with
  | none =>
      have hfailed := feedAll_framed_failed hframed hvalid hleave
      rcases Option.ne_none_iff_exists'.mp hfailed with ⟨e, he⟩
      refine ⟨e, ?_⟩
      rw [whole, he]
      rfl
  | some d =>
      have hfresh := fresh_leaveAll parts ⟨rfl, rfl, rfl⟩ hleave
      exact whole_framed hframed hvalid hleave hfresh.state_eq

theorem comesTo_some {parts : List Part} {upload : Upload} {d : Collector}
    (hcomes : ComesTo fs target parts upload)
    (hleave : parts.foldlM (Collector.leave fs) { target := target } = some d) :
    upload = { values := d.values, files := d.files, outcome := Outcome.stored } := by
  rwa [ComesTo, hleave] at hcomes

theorem answer_of_failed {parts : List Part} {upload : Upload} (mode : Mode)
    (hcomes : ComesTo fs target parts upload)
    (hleave : parts.foldlM (Collector.leave fs) { target := target } = none) :
    upload.answer mode = none := by
  rw [ComesTo, hleave] at hcomes
  rcases hcomes with ⟨e, he⟩
  rw [Upload.answer, he]

/-- In the mode of a handler, a 200 means that the parts are kept exactly when
they hold, unless one of them is not opened. -/
theorem answer_directory_iff (cwd : List Str) {parts : List Part} {upload : Upload}
    (hcomes : ComesTo fs target parts upload)
    (hmode : target.mode = Mode.add ∨ target.mode = Mode.replace) :
    (upload.answer target.mode = some Status.ok -> AllKept cwd target parts upload) <->
      (Opens fs target [] parts -> Holds cwd fs target [] parts) := by
  by_cases hopens : Opens fs target [] parts
  · have hleave : parts.foldlM (Collector.leave fs) { target := target } = _ :=
      Collector.leaveAll_kept parts { target := target } rfl hopens
    rw [comesTo_some hcomes hleave]
    have hok : bodyStatus target.mode
        ((keptParts fs target [] parts).1.reverse.map Value.form) =
          Status.ok := by
      apply bodyStatus_of_marked
      intro value hvalue hunmarked
      rcases List.mem_map.mp hvalue with ⟨kept, hkept, rfl⟩
      exact hunmarked.right
        (keptParts_marked parts [] kept (List.mem_reverse.mp hkept))
    have hfiles := kept_keptParts_iff cwd fs target parts []
    simp only [Upload.answer, AllKept, Collector.extended, Collector.opened,
      List.append_nil, List.reverse_reverse, List.filterMap_nil, hok,
      forall_true_left, hfiles, hopens]
  · constructor
    · intro _ h
      exact absurd h hopens
    · intro _ hanswer
      exfalso
      cases hleave : parts.foldlM (Collector.leave fs) { target := target } with
      | none =>
          rw [answer_of_failed target.mode hcomes hleave] at hanswer
          cases hanswer
      | some d =>
          rcases Collector.exists_extendedAll parts (c := { target := target })
            rfl hleave with ⟨more, rfl⟩
          rw [comesTo_some hcomes hleave] at hanswer
          rcases Collector.exists_unwritten parts (c := { target := target })
            rfl hopens hleave with ⟨value, hvalue, hfile, hwritten⟩
          refine bodyStatus_of_unmarked hmode _ ⟨value.form, ?_, hfile, hwritten⟩
            (Option.some.inj hanswer)
          exact List.mem_map_of_mem hvalue

/-- In the mode `ignore` the answer is always a 200, and no file is kept. -/
theorem answer_ignore_iff (cwd : List Str) {parts : List Part} {upload : Upload}
    (hcomes : ComesTo fs target parts upload)
    (hmode : target.mode = Mode.ignore) :
    (upload.answer target.mode = some Status.ok -> AllKept cwd target parts upload) <->
      forall part, part ∈ parts -> part.file = none := by
  have hexists : exists d,
      parts.foldlM (Collector.leave fs) { target := target } = some d :=
    Collector.exists_of_ignore parts rfl hmode
  rcases hexists with ⟨d, hleave⟩
  rcases Collector.exists_extendedAll parts (c := { target := target }) rfl
    hleave with ⟨more, rfl⟩
  rw [comesTo_some hcomes hleave, hmode]
  have hok : forall values : List Value,
      bodyStatus Mode.ignore (values.map Value.form) = Status.ok :=
    fun values => bodyStatus_ignore _
  simp only [Upload.answer, hok, forall_true_left]
  rw [AllKept]
  apply kept_unopened_iff
  · intro file hfile
    rcases Collector.not_opened parts (c := { target := target }) rfl hmode
      hleave file (List.mem_reverse.mp hfile) with hold | hnone
    · cases hold
    · exact hnone
  · intro hplain
    have hfiles := files_of_plain parts hplain hleave
    dsimp only at hfiles ⊢
    rw [hfiles]
    rfl

def contentTypeOf (req : Request) : Str :=
  (req.find (str "Content-Type")).getD []

/-- The boundary as the constructor finds it. -/
def boundaryOf (contentType : Str) : Str :=
  (contentType.dropWhile fun b => b ≠ chr '=').tail

theorem init_eq {contentType : Str} (h : boundaryOf contentType ≠ [])
    (target : FormTarget) :
    init contentType target =
      Except.ok (initial (boundaryOf contentType) target) :=
  if_neg h

/-- A 200 means that every file part is kept. -/
def OkMeansKept (cwd : List Str) (fs : FileSystem) (target : FormTarget)
    (req : Request) (parts : List Part) (cutting : List Str) : Prop :=
  forall r upload, init (contentTypeOf req) target = Except.ok r ->
    r.run fs cutting = Except.ok upload ->
    upload.answer target.mode = some Status.ok ->
    AllKept cwd target parts upload

/-- A well-formed body in pieces that bring the texts of its parts to the parts. -/
structure Arrives (fs : FileSystem) (target : FormTarget) (boundary : Str)
    (cutting : List Str) (parts : List Part) : Prop where
  framed : Framed boundary cutting.flatten (parts.map Part.text)
  valid : forall part, part ∈ parts -> part.Valid
  brings : BringsTexts fs target boundary cutting (parts.map Part.text)

theorem okMeansKept_iff (cwd : List Str) (fs : FileSystem)
    (rights : RightsEnv) (req : Request) (ctx : RequestContext)
    (filesRoot project dir : Str) {mode : Mode} {allowed : Verb}
    (hmode : mode = Mode.add ∨ mode = Mode.replace) {target : FormTarget}
    (hform : (handleForm mode allowed filesRoot rights (fs.disk []) req ctx
      project dir).bodyRead = some target)
    (hboundary : boundaryOf (contentTypeOf req) ≠ [])
    (parts : List Part) (cutting : List Str)
    (harrives : Arrives fs target (boundaryOf (contentTypeOf req)) cutting parts) :
    OkMeansKept cwd fs target req parts cutting <->
      Storable cwd fs target parts := by
  rcases Http.handleForm_bodyRead_iff.mp hform with ⟨-, htarget⟩
  rcases comesTo_of_brings harrives.brings harrives.valid with ⟨upload, hrun, hcomes⟩
  have hmeans : OkMeansKept cwd fs target req parts cutting <->
      (upload.answer target.mode = some Status.ok ->
        AllKept cwd target parts upload) := by
    constructor
    · intro h
      exact h _ _ (init_eq hboundary target) hrun
    · intro h r other hr hother
      rw [init_eq hboundary] at hr
      cases hr
      rw [hrun] at hother
      cases hother
      exact h
  have hisDir : fs.isDirectory (cStr target.dir) =
      (fs.disk []).isDirectory (cStr (formDir filesRoot project dir)) := by
    rw [← htarget]
    rfl
  rw [hmeans, Storable]
  cases hdir : fs.isDirectory (cStr target.dir) with
  | true =>
      have htargetMode : target.mode = mode := by
        rw [← htarget, prepareBody, if_pos (hisDir.symm.trans hdir)]
      rw [if_pos rfl]
      exact answer_directory_iff cwd hcomes (by rw [htargetMode]; exact hmode)
  | false =>
      have htargetMode : target.mode = Mode.ignore := by
        rw [← htarget, prepareBody, if_neg]
        rw [← hisDir, hdir]
        simp
      rw [if_neg (by simp)]
      exact answer_ignore_iff cwd hcomes htargetMode

def sampleRequest : Request where
  method := Verb.post
  target := str "/upload/web/files"
  fields := [(str "Content-Type", str "multipart/form-data; boundary=B")]
  version := 11
  keepAlive := false

def sampleRights : RightsEnv where
  checkProjectRight := fun _ _ =>
    Except.ok (some { read := true, write := true, execute := false })

def sampleContext : RequestContext where
  clientInfo := some
    { email := str "dev@cis", activeToken := [], apiAccessKey := [] }
  cookies := []
  resStatus := Status.unknown
  allowedVerbs := []
  error := []

def samplePart : Part where
  name := str "f"
  file := some (str "n", str "t")
  body := str "x\r\n--A"

/-- A plain field and two files. -/
def sampleParts : List Part :=
  [{ name := str "d", file := none, body := str "1" }, samplePart,
    { name := str "g", file := some (str "m", str "t"), body := str "y" }]

/-- Cut in two delimiters, in a header and in what looks like a delimiter. -/
def sampleCutting : List Str :=
  [str "--B\r\nContent-Disposition: form-data; name=\"d\"\r\n\r\n1\r\n-",
    str "-B\r\nContent-Disposition: form-data; name=\"f\"; file",
    str "name=\"n\"\r\nContent-Type: t\r\n\r\nx\r\n-",
    str "-A\r\n--B\r\nContent-Disposition: form-data; name=\"g\"; filename=\"m",
    str "\"\r\nContent-Type: t\r\n\r\ny\r\n--B-", str "-"]

theorem valid_sampleParts : forall part, part ∈ sampleParts -> part.Valid := by
  have hfile : forall name filename contentType body : Str, ¬ chr '"' ∈ name ->
      ¬ chr '"' ∈ filename -> ¬ chr '\r' ∈ contentType ->
      Part.Valid ⟨name, some (filename, contentType), body⟩ := by
    intro name filename contentType body hname hfilename htype
    refine ⟨hname, ?_, ?_⟩
    · intro other type h
      cases h
      exact hfilename
    · intro other type h
      cases h
      exact htype
  intro part hpart
  simp only [sampleParts, List.mem_cons, List.not_mem_nil, or_false] at hpart
  rcases hpart with rfl | rfl | rfl
  · exact ⟨by decide, (fun _ _ h => nomatch h), (fun _ _ h => nomatch h)⟩
  · exact hfile _ _ _ _ (by decide) (by decide) (by decide)
  · exact hfile _ _ _ _ (by decide) (by decide) (by decide)

theorem framed_sampleParts :
    Framed (boundaryOf (contentTypeOf sampleRequest)) sampleCutting.flatten
      (sampleParts.map Part.text) := by
  have hboundary : boundaryOf (contentTypeOf sampleRequest) = str "B" := by
    decide
  have hencode : sampleCutting.flatten =
      encode (str "B") { name := str "d", file := none, body := str "1" }
        [samplePart, { name := str "g", file := some (str "m", str "t"), body := str "y" }] := by
    decide +kernel
  rw [hboundary, hencode]
  refine framed_encode (by decide) _ _ ?_
  intro part hpart
  simp only [List.mem_cons, List.not_mem_nil, or_false] at hpart
  rcases hpart with rfl | rfl | rfl <;> decide +kernel

theorem okMeansKept_iff_sample :
    OkMeansKept [] emptyDisk { dir := str "/srv/web/files", mode := Mode.add }
        sampleRequest sampleParts sampleCutting <->
      Storable [] emptyDisk { dir := str "/srv/web/files", mode := Mode.add }
        sampleParts := by
  have hform : (handleForm Mode.add Verb.get (str "/srv") sampleRights
      (emptyDisk.disk []) sampleRequest sampleContext (str "web")
      (str "files")).bodyRead =
      some { dir := str "/srv/web/files", mode := Mode.add } := by
    decide
  exact okMeansKept_iff [] emptyDisk sampleRights sampleRequest sampleContext
    (str "/srv") (str "web") (str "files") (Or.inl rfl) hform (by decide)
    sampleParts sampleCutting
    ⟨framed_sampleParts, valid_sampleParts,
      bringsTexts_of_harmless framed_sampleParts valid_sampleParts (by decide +kernel)⟩

/-- The directory is missing: the file is dropped, and the answer is 200. -/
theorem okMeansKept_not_everywhere :
    ¬ forall (cwd : List Str) (fs : FileSystem) (rights : RightsEnv)
      (req : Request) (ctx : RequestContext) (filesRoot project dir : Str)
      (target : FormTarget) (parts : List Part) (cutting : List Str),
      (handleForm Mode.add Verb.get filesRoot rights (fs.disk []) req ctx
        project dir).bodyRead = some target ->
      (forall part, part ∈ parts -> part.Valid) ->
      Framed (boundaryOf (contentTypeOf req)) cutting.flatten
        (parts.map Part.text) ->
      Harmless fs (initial (boundaryOf (contentTypeOf req)) target) cutting ->
      OkMeansKept cwd fs target req parts cutting := by
  intro h
  have hkept := h [] { emptyDisk with isDirectory := fun _ => false }
    sampleRights sampleRequest sampleContext (str "/srv") (str "web")
    (str "files") { dir := str "/srv/web/files", mode := Mode.ignore }
    sampleParts sampleCutting (by decide) valid_sampleParts framed_sampleParts
    (by decide +kernel)
  have hall := hkept
    (initial (str "B") { dir := str "/srv/web/files", mode := Mode.ignore })
    { values :=
        [{ name := str "g", isFile := true, written := false, content := str "m" },
          { name := str "f", isFile := true, written := false, content := str "n" },
          { name := str "d", isFile := false, content := str "1" }]
      files := [{ name := str "m" }, { name := str "n" }]
      outcome := Outcome.stored }
    (by decide) (by decide +kernel) (by decide)
  cases hall with
  | cons hfile _ =>
      rcases hfile with ⟨filename, contentType, -, hpath, -⟩
      cases hpath

end Reader

end Multipart
end CisWebui
