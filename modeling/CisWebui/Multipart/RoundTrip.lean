import CisWebui.Multipart.Storage
import CisWebui.Multipart.Acceptance

/-!
# Decoding undoes encoding

An encoded list of parts, given to the reader in one piece, leaves behind
exactly these parts.
-/

namespace CisWebui
namespace Multipart

open Cpp
open Foundation Foundation.PrefixMatching
open Http (FormTarget)

/-- The encoding of one or more parts. -/
def encode (boundary : Str) (first : Part) (rest : List Part) : Str :=
  str "--" ++ boundary ++ str "\r\n" ++ first.text ++
    (rest.flatMap fun part =>
      str "\r\n--" ++ boundary ++ str "\r\n" ++ part.text) ++
    str "\r\n--" ++ boundary ++ str "--"

/-- What parts leave behind in the values and the files, in their order, when
nothing goes wrong with the files; `opened` are the files opened before. -/
def stored (fs : FileSystem) (target : FormTarget) :
    List Str -> List Part -> List Value × List FormFile
  | _, [] => ([], [])
  | opened, part :: rest =>
      match part.file with
      | none =>
          let later := stored fs target opened rest
          ({ name := part.name, isFile := false, content := part.body } ::
            later.1, later.2)
      | some (filename, _) =>
          let path := target.filePath filename
          if target.opens (fs.disk opened) filename then
            let later := stored fs target (path :: opened) rest
            ({ name := part.name, isFile := true, content := filename } ::
              later.1,
              { name := filename, path := some path, written := part.body } ::
                later.2)
          else
            let later := stored fs target opened rest
            ({ name := part.name, isFile := true, written := false,
               content := filename } :: later.1,
              { name := filename } :: later.2)

/-- Every open succeeds, and no file runs out of room. -/
def FileSystem.Faultless (fs : FileSystem) : Prop :=
  forall opened path, fs.openError opened path = none ∧
    fs.room opened path = none

/-!
## The encoding is a frame
-/

theorem delimits_text {boundary t : Str} (hboundary : ¬ chr '\r' ∈ boundary)
    (h : ¬ delimiter boundary <:+: t) : Delimits (delimiter boundary) t := by
  have hcons : delimiter boundary =
      chr '\r' :: (chr '\n' :: chr '-' :: chr '-' :: boundary) := rfl
  rw [hcons] at h ⊢
  refine delimits_of_not_infix ?_ h
  have hnl : ¬ chr '\r' = chr '\n' := by decide
  have hdash : ¬ chr '\r' = chr '-' := by decide
  simp [hnl, hdash, hboundary]

theorem parts_encode {boundary : Str} (hboundary : ¬ chr '\r' ∈ boundary)
    (rest : List Part) : forall first : Part,
      (forall part, part ∈ first :: rest ->
        ¬ delimiter boundary <:+: part.text) ->
      Parts boundary (first.text ++ (rest.flatMap fun part =>
        str "\r\n--" ++ boundary ++ str "\r\n" ++ part.text) ++
        (delimiter boundary ++ str "--")) ((first :: rest).map Part.text) := by
  induction rest with
  | nil =>
      intro first h
      have hlast := Parts.last []
        (delimits_text hboundary (h first (by simp)))
      simpa using hlast
  | cons next rest ih =>
      intro first h
      have hnext := ih next fun part hpart => h part (by simp [hpart])
      have hmore := Parts.more (delimits_text hboundary (h first (by simp))) hnext
      simpa [delimiter] using hmore

theorem framed_encode {boundary : Str} (hboundary : ¬ chr '\r' ∈ boundary)
    (first : Part) (rest : List Part)
    (h : forall part, part ∈ first :: rest ->
      ¬ delimiter boundary <:+: part.text) :
    Framed boundary (encode boundary first rest)
      ((first :: rest).map Part.text) := by
  have hopening : Delimits (opening boundary) [] := by
    intro hinfix
    have hlen := hinfix.length_le
    simp [opening, str] at hlen
  have hframed := Framed.intro hopening (parts_encode hboundary rest first h)
  simpa [encode, opening, delimiter] using hframed

/-!
## What is left of the parts
-/

namespace Collector

variable {fs : FileSystem}

/-- The collector with more values and files than before. -/
def extended (c : Collector) (more : List Value × List FormFile) : Collector :=
  { c with
    values := more.1.reverse ++ c.values
    files := more.2.reverse ++ c.files }

theorem leave_plain {c : Collector} {part : Part} (hfile : part.file = none) :
    leave fs c part = some (c.extended
      ([{ name := part.name, isFile := false, content := part.body }], [])) := by
  rw [leave, hfile]
  rfl

theorem leave_refused {c : Collector} (hstate : c.state = ReaderState.name)
    {part : Part} {filename contentType : Str}
    (hfile : part.file = some (filename, contentType))
    (hopens : c.target.opens (fs.disk c.opened) filename = false) :
    leave fs c part = some (c.extended
      ([{ name := part.name, isFile := true, written := false,
          content := filename }], [{ name := filename }])) := by
  rcases c with ⟨target, parser, message, isWritable, state, buffer, values, files⟩
  dsimp only at hstate
  subst hstate
  rw [leave, hfile]
  dsimp only
  rw [afterFilename, hopens]
  rfl

theorem leave_opened (hfaultless : fs.Faultless) {c : Collector}
    (hstate : c.state = ReaderState.name) {part : Part}
    {filename contentType : Str}
    (hfile : part.file = some (filename, contentType))
    (hopens : c.target.opens (fs.disk c.opened) filename = true) :
    leave fs c part = some (c.extended
      ([{ name := part.name, isFile := true, content := filename }],
        [{ name := filename, path := some (c.target.filePath filename),
           written := part.body }])) := by
  have hopen := hfaultless c.opened (c.target.filePath filename)
  rcases c with ⟨target, parser, message, isWritable, state, buffer, values, files⟩
  dsimp only at hstate
  subst hstate
  rw [leave, hfile]
  dsimp only
  rw [afterFilename, if_pos hopens, hopen.left]
  simp [filed, openedFile, hopen.right, extended, FormFile.write,
    FormFile.taken]

theorem extended_extended (c : Collector) (a b : List Value × List FormFile) :
    (c.extended a).extended b = c.extended (a.1 ++ b.1, a.2 ++ b.2) := by
  simp [extended]

theorem leaveAll_eq (hfaultless : fs.Faultless) (parts : List Part) :
    forall c : Collector, c.state = ReaderState.name ->
      parts.foldlM (leave fs) c =
        some (c.extended (stored fs c.target c.opened parts)) := by
  induction parts with
  | nil =>
      intro c _
      rfl
  | cons part parts ih =>
      intro c hstate
      rw [List.foldlM_cons, stored]
      cases hfile : part.file with
      | none =>
          rw [leave_plain hfile]
          refine (ih (c.extended _) hstate).trans ?_
          rw [extended_extended]
          rfl
      | some values =>
          rcases values with ⟨filename, contentType⟩
          dsimp only
          cases hopens : c.target.opens (fs.disk c.opened) filename with
          | true =>
              rw [leave_opened hfaultless hstate hfile hopens]
              refine (ih (c.extended _) hstate).trans ?_
              rw [extended_extended]
              rfl
          | false =>
              rw [leave_refused hstate hfile hopens]
              refine (ih (c.extended _) hstate).trans ?_
              rw [extended_extended]
              rfl

end Collector

namespace Reader

variable {fs : FileSystem} {boundary body : Str} {target : FormTarget}

/-- A framed body of valid parts brings the bytewise reader to its epilogue,
with what the parts leave behind, unless an open fails. -/
theorem feedAll_framed {parts : List Part} {d : Collector}
    (hframed : Framed boundary body (parts.map Part.text))
    (hvalid : forall part, part ∈ parts -> part.Valid)
    (hleave : parts.foldlM (Collector.leave fs) { target := target } = some d) :
    exists s : Scanner,
      (initial boundary target).feedAll fs body = (⟨s, d.waiting false⟩, none) ∧
        s.pending = [] ∧ s.parser.state = StreamState.epilogue := by
  rcases Scanner.scans_framed hframed with
    ⟨s, pre, toks, hscan, hcarries, hwaits⟩
  have hfresh : Collector.Fresh { target := target } := ⟨rfl, rfl, rfl⟩
  have hparts : toks.foldlM (Collector.takeOk fs) _ = _ :=
    Collector.takeOk_parts hcarries { target := target } parts hfresh hvalid rfl
  have hpre : (bytes pre).foldlM (Collector.takeOk fs) { target := target } = _ :=
    Collector.takeOk_bytes_outside rfl rfl pre
  rw [hleave] at hparts
  have hall : (bytes pre ++ Token.messageBegin :: toks).foldlM
      (Collector.takeOk fs) { target := target } = some (d.waiting false) := by
    rw [Collector.foldlM_append_some hpre]
    exact hparts
  exact ⟨s, feedAll_of_takeOk body hscan hall, hwaits.pending_eq,
    hwaits.state_eq⟩

/-- Decoding undoes encoding. -/
theorem put_encode (fs : FileSystem) (hfaultless : fs.Faultless)
    (target : FormTarget) (boundary : Str) (hboundary : ¬ chr '\r' ∈ boundary)
    (first : Part) (rest : List Part)
    (hvalid : forall part, part ∈ first :: rest -> part.Valid)
    (hfree : forall part, part ∈ first :: rest ->
      ¬ delimiter boundary <:+: part.text) :
    exists out,
      (initial boundary target).put fs (encode boundary first rest) =
        Except.ok out ∧
      out.ec = none ∧ out.nwritten = (encode boundary first rest).length ∧
      out.reader.scanner.pending = [] ∧ out.reader.finish = none ∧
      out.reader.collector.values.reverse =
        (stored fs target [] (first :: rest)).1 ∧
      out.reader.collector.files.reverse =
        (stored fs target [] (first :: rest)).2 := by
  have hleave := Collector.leaveAll_eq hfaultless (first :: rest)
    { target := target } rfl
  rcases feedAll_framed (framed_encode hboundary first rest hfree) hvalid hleave
    with ⟨s, hfeed, hpending, -⟩
  have hready := ready_initial boundary target
  have hok : ((initial boundary target).feedAll fs
      (encode boundary first rest)).2 = none := by
    rw [hfeed]
  have hcut : ¬ ((initial boundary target).feedAll fs
      (encode boundary first rest)).1.CutsName := by
    rw [hfeed]
    rintro ⟨hwritable, -⟩
    cases hwritable
  rcases put_of_ok hready.placed hok hcut with
    ⟨out, hput, hec, hwritten, hcollector, -, -, hheld⟩
  rw [hfeed] at hcollector hheld
  dsimp only at hcollector hheld
  refine ⟨out, hput, hec, hwritten, ?_, ?_, ?_, ?_⟩
  · rw [hheld (by rw [hpending]; exact Nat.zero_le _), hpending]
  · rw [finish, hcollector]
    rfl
  · rw [hcollector]
    simp [Collector.waiting, Collector.extended, Collector.opened]
  · rw [hcollector]
    simp [Collector.waiting, Collector.extended, Collector.opened]

theorem put_encode_sample : exists out,
    (initial (str "B") sampleTarget).put emptyDisk (encode (str "B")
        ⟨str "a", none, str "\r\n--"⟩
        [⟨str "f", some (str "n", str "t"), str "x"⟩]) = Except.ok out ∧
      out.ec = none ∧ out.nwritten = (encode (str "B")
        ⟨str "a", none, str "\r\n--"⟩
        [⟨str "f", some (str "n", str "t"), str "x"⟩]).length ∧
      out.reader.scanner.pending = [] ∧ out.reader.finish = none ∧
      out.reader.collector.values.reverse =
        (stored emptyDisk sampleTarget [] [⟨str "a", none, str "\r\n--"⟩,
          ⟨str "f", some (str "n", str "t"), str "x"⟩]).1 ∧
      out.reader.collector.files.reverse =
        (stored emptyDisk sampleTarget [] [⟨str "a", none, str "\r\n--"⟩,
          ⟨str "f", some (str "n", str "t"), str "x"⟩]).2 := by
  refine put_encode emptyDisk (fun _ _ => ⟨rfl, rfl⟩) sampleTarget (str "B")
    (by decide) _ _ ?_ ?_
  · intro part hpart
    simp only [List.mem_cons, List.not_mem_nil, or_false] at hpart
    rcases hpart with rfl | rfl
    · exact ⟨by decide, (fun _ _ h => nomatch h), (fun _ _ h => nomatch h)⟩
    · refine ⟨by decide, ?_, ?_⟩
      · intro filename contentType h
        cases h
        decide
      · intro filename contentType h
        cases h
        decide
  · intro part hpart
    simp only [List.mem_cons, List.not_mem_nil, or_false] at hpart
    rcases hpart with rfl | rfl <;> decide +kernel

end Reader

end Multipart
end CisWebui
