import CisWebui.Multipart.Chunking

/-!
# Modes and existing files

Which files of a volume an upload changes.  A path leads to a file, which may
exist or not, and other paths may lead to it as well; the reader asks whether
there is a file before it opens one, and the files opened before are there by
then.

What holds of the reader at the beginning and is kept by everything `put` does
holds after every byte, however the body is made and cut.
-/

namespace CisWebui
namespace Multipart

open Cpp
open Http (FormTarget Mode)

/-!
## What every byte keeps
-/

/-- The property is kept by what `put` does to the collector. -/
structure KeptByPut (fs : FileSystem) (P : Collector -> Prop) : Prop where
  write : forall c text, P c -> P (c.write text)
  onEvent : forall c ec event, P c -> P (c.onEvent fs ec event).1
  setParser : forall (c : Collector) p, P c -> P { c with messageParser := p }
  setMessage : forall (c : Collector) m, P c -> P { c with message := m }

namespace Cursor

variable {fs : FileSystem} {P : Collector -> Prop} {view : Str}

theorem kept_messagePartEvent (hP : KeptByPut fs P) {x y : Cursor}
    {event : MessageEvent} (h : x.messagePartEvent fs view event = Except.ok y)
    (hx : P x.collector) : P y.collector := by
  unfold messagePartEvent at h
  rcases exists_of_map h with ⟨z, hz, hy⟩
  have hzP : P z.collector := by
    split at hz
    · rw [writePart_ok hz]
      exact hP.write _ _ hx
    · cases hz
      exact hx
  rw [← hy]
  exact hP.onEvent _ _ _ hzP

theorem kept_onParserEvent (hP : KeptByPut fs P) {x y : Cursor} {event : StreamEvent}
    (h : x.onParserEvent fs view event = Except.ok y) (hx : P x.collector) :
    P y.collector := by
  cases event with
  | none =>
      cases h
      exact hx
  | messageBegin =>
      cases h
      exact hP.setMessage _ _ hx
  | messageEnd =>
      rw [onParserEvent] at h
      rcases exists_of_map h with ⟨z, hz, hy⟩
      rw [← hy]
      apply hP.setMessage
      exact kept_messagePartEvent hP hz (hP.setParser _ _ hx)

theorem kept_advance (hP : KeptByPut fs P) (adv : Nat) : forall x y : Cursor,
    x.advance fs view adv = Except.ok y -> P x.collector -> P y.collector := by
  induction adv with
  | zero =>
      intro x y h hx
      cases h
      exact hx
  | succ adv ih =>
      intro x y h hx
      rw [advance] at h
      split at h
      · cases h
      · split at h
        · dsimp only at h
          rcases exists_of_bind h with ⟨z, hz, h⟩
          have hzP := kept_messagePartEvent hP hz (hP.setParser _ _ hx)
          exact ih { z with msg := z.msg + 1 } y h hzP
        · exact ih { x with msg := x.msg + 1 } y h hx

theorem kept_handleChar (hP : KeptByPut fs P) {x y : Cursor} {b : UInt8}
    (hx : P x.collector) (h : x.handleChar fs view b = Except.ok y) :
    P y.collector := by
  unfold handleChar at h
  dsimp only at h
  split at h
  · cases h
    exact hx
  · split at h
    · rcases exists_of_bind h with ⟨z, hz, h⟩
      exact kept_onParserEvent hP h (kept_advance hP _ _ z hz hx)
    · rcases exists_of_bind h with ⟨z, hz, h⟩
      exact kept_advance hP _ z y h (kept_onParserEvent hP hz hx)

theorem kept_loop (hP : KeptByPut fs P) (text : Str) : forall (x y : Cursor)
    (n m : Nat), P x.collector -> x.loop fs view text n = Except.ok (y, m) ->
      P y.collector := by
  induction text with
  | nil =>
      intro x y n m hx h
      cases h
      exact hx
  | cons b rest ih =>
      intro x y n m hx h
      rw [loop] at h
      rcases exists_of_bind h with ⟨z, hz, h⟩
      have hzP := kept_handleChar hP hx hz
      split at h
      · exact ih z y _ m hzP h
      · cases h
        exact hzP

end Cursor

namespace Reader

variable {fs : FileSystem} {P : Collector -> Prop}

theorem kept_put (hP : KeptByPut fs P) {r : Reader} {chunk : Str} {out : Result}
    (hr : P r.collector) (h : r.put fs chunk = Except.ok out) :
    P out.reader.collector := by
  unfold put at h
  dsimp only at h
  rcases exists_of_bind h with ⟨⟨x, n⟩, hloop, h⟩
  have hx := Cursor.kept_loop hP chunk _ x 0 n hr hloop
  dsimp only at h
  split at h
  · rcases exists_of_map h with ⟨y, hy, hout⟩
    rw [← hout]
    split at hy
    · rw [Cursor.writePart_ok hy]
      exact hP.write _ _ hx
    · cases hy
      exact hx
  · cases h
    exact hx

/-- The property holds whenever a byte of the body has been read, and between
the calls of `put`. -/
def Throughout (fs : FileSystem) (P : Collector -> Prop) :
    Reader -> List Str -> Prop
  | r, [] => P r.collector
  | r, chunk :: rest =>
      let start : Cursor :=
        { parser := r.scanner.parser, collector := r.collector }
      (forall front, front <+: chunk -> forall x n,
        start.loop fs (r.scanner.pending ++ chunk) front 0 =
          Except.ok (x, n) -> P x.collector) ∧
      forall out, r.put fs chunk = Except.ok out ->
        P out.reader.collector ∧
          (out.ec = none -> Throughout fs P out.reader rest)

theorem throughout_of_kept (hP : KeptByPut fs P) (cutting : List Str) :
    forall r : Reader, P r.collector -> r.Throughout fs P cutting := by
  induction cutting with
  | nil =>
      intro r hr
      exact hr
  | cons chunk rest ih =>
      intro r hr
      constructor
      · intro front _ x n h
        exact Cursor.kept_loop hP front _ x 0 n hr h
      · intro out hput
        have hout := kept_put hP hr hput
        exact ⟨hout, fun _ => ih out.reader hout⟩

theorem throughout_mono {Q : Collector -> Prop} (hPQ : forall c, P c -> Q c)
    (cutting : List Str) : forall r : Reader,
      r.Throughout fs P cutting -> r.Throughout fs Q cutting := by
  induction cutting with
  | nil =>
      intro r h
      exact hPQ _ h
  | cons chunk rest ih =>
      intro r h
      constructor
      · intro front hfront x n hloop
        exact hPQ _ (h.left front hfront x n hloop)
      · intro out hput
        have hout := h.right out hput
        exact ⟨hPQ _ hout.left, fun hec => ih out.reader (hout.right hec)⟩

end Reader

/-!
## Volumes
-/

/-- Where paths lead to, and what is in the files that exist when the request
begins. -/
structure Volume (File : Type) where
  leadsTo : Str -> File
  content : File -> Option Str

namespace Volume

variable {File : Type} [DecidableEq File]

/-- There is a file at the path when it existed before or has been opened since,
under whatever name; which opens fail and how much room there is is left
open. -/
def fileSystem (volume : Volume File) (isDirectory : Str -> Bool)
    (openError : List Str -> Str -> Ec) (room : List Str -> Str -> Option Nat) :
    FileSystem where
  isDirectory := isDirectory
  fileExists := fun opened path =>
    (volume.content (volume.leadsTo path)).isSome ||
      (opened.map volume.leadsTo).contains (volume.leadsTo path)
  openError := openError
  room := room

/-- What is in a file after the files have been opened and written to, the
newest first: opening a file for writing creates or empties it. -/
def after (volume : Volume File) : List FormFile -> File -> Option Str
  | [], f => volume.content f
  | file :: older, f =>
      match file.path with
      | none => volume.after older f
      | some path =>
          if volume.leadsTo path = f then some file.written
          else volume.after older f

/-- The mode keeps its promise about the files that have been opened. -/
structure RespectsMode (volume : Volume File) (mode : Mode)
    (files : List FormFile) : Prop where
  add : mode = Mode.add -> forall f text, volume.content f = some text ->
    volume.after files f = some text
  replace : mode = Mode.replace -> forall f, volume.content f = none ->
    volume.after files f = none
  ignore : mode = Mode.ignore -> forall file, file ∈ files -> file.path = none

/-- A mode opens a file that existed before, or one that did not. -/
def allows (mode : Mode) (existed : Bool) : Bool :=
  match mode with
  | Mode.ignore => false
  | Mode.replace => existed
  | Mode.add => !existed
  | Mode.addOrReplace => true

/-- Every file that has been opened is one that the mode allows. -/
structure OpensAllowed (volume : Volume File) (target : FormTarget)
    (c : Collector) : Prop where
  target_eq : c.target = target
  allowed : forall path, path ∈ c.opened ->
    allows target.mode (volume.content (volume.leadsTo path)).isSome = true

end Volume

/-!
## Files that are opened
-/

namespace Collector

theorem map_path_modifyHead {f : FormFile -> FormFile}
    (h : forall file, (f file).path = file.path) (files : List FormFile) :
    (files.modifyHead f).filterMap (fun file => file.path) =
      files.filterMap fun file => file.path := by
  cases files with
  | nil => rfl
  | cons file rest =>
      rw [List.modifyHead_cons, List.filterMap_cons, List.filterMap_cons, h]

theorem path_write (file : FormFile) (text : Str) :
    (file.write text).path = file.path := by
  unfold FormFile.write
  split <;> rfl

theorem opened_write (c : Collector) (text : Str) :
    (c.write text).opened = c.opened := by
  unfold write opened
  cases c.state with
  | file => exact map_path_modifyHead (fun file => path_write file text) c.files
  | _ => rfl

theorem target_write (c : Collector) (text : Str) :
    (c.write text).target = c.target := by
  unfold write
  cases c.state <;> rfl

/-- The end of a filename opens its file, or none. -/
theorem opened_openFile (fs : FileSystem) (c : Collector) (ec : Ec) :
    (openFile fs c ec).1.target = c.target ∧
      ((openFile fs c ec).1.opened = c.opened ∨
        (c.target.opens (fs.disk c.opened) c.currentContent = true ∧
          (openFile fs c ec).1.opened =
            c.target.filePath c.currentContent :: c.opened)) := by
  unfold openFile
  dsimp only
  split
  · rename_i hopens
    split
    · exact ⟨rfl, Or.inr ⟨hopens, rfl⟩⟩
    · exact ⟨rfl, Or.inl rfl⟩
  · exact ⟨rfl, Or.inl rfl⟩

/-- Nothing else opens a file. -/
theorem opened_onEvent (fs : FileSystem) (c : Collector) (ec : Ec)
    {event : MessageEvent} (h : event ≠ MessageEvent.endFilename) :
    (c.onEvent fs ec event).1.target = c.target ∧
      (c.onEvent fs ec event).1.opened = c.opened := by
  cases event with
  | endFilename => exact absurd rfl h
  | beginBody =>
      rw [onEvent]
      dsimp only
      split <;> exact ⟨rfl, rfl⟩
  | endBody =>
      rw [onEvent]
      dsimp only
      split
      · have hpaths := map_path_modifyHead
          (f := fun file => { file with isOpen := false }) (fun _ => rfl) c.files
        exact ⟨rfl, hpaths⟩
      · exact ⟨rfl, rfl⟩
  | _ => exact ⟨rfl, rfl⟩

end Collector

namespace Volume

variable {File : Type} [DecidableEq File] {volume : Volume File}
  {target : FormTarget} {isDirectory : Str -> Bool}
  {openError : List Str -> Str -> Ec} {room : List Str -> Str -> Option Nat}

/-- A file that is there by now existed before, or has been opened by a mode
that opens what did not exist. -/
theorem allows_of_opens {c : Collector} {filename : Str}
    (h : volume.OpensAllowed target c)
    (hopens : target.opens
      ((volume.fileSystem isDirectory openError room).disk c.opened) filename =
        true) :
    allows target.mode (volume.content
      (volume.leadsTo (target.filePath filename))).isSome = true := by
  unfold FormTarget.opens at hopens
  cases hmode : target.mode with
  | ignore =>
      rw [hmode] at hopens
      exact hopens
  | addOrReplace => rfl
  | add =>
      rw [hmode] at hopens
      rw [allows, Bool.not_eq_true']
      have hnone := (Bool.not_eq_true' _).mp hopens
      exact (Bool.or_eq_false_iff.mp hnone).left
  | replace =>
      rw [hmode] at hopens
      rcases (Bool.or_eq_true_iff).mp hopens with hbefore | hsince
      · exact hbefore
      · -- another path to the file has been opened, and was allowed
        rcases List.mem_map.mp (List.contains_iff_mem.mp hsince) with
          ⟨path, hpath, hsame⟩
        have hallowed := h.allowed path hpath
        rw [hmode, hsame] at hallowed
        exact hallowed

theorem keptByPut_opensAllowed (volume : Volume File) (target : FormTarget) :
    KeptByPut (volume.fileSystem isDirectory openError room)
      (volume.OpensAllowed target) := by
  constructor
  · intro c text h
    constructor
    · rw [Collector.target_write, h.target_eq]
    · rw [Collector.opened_write]
      exact h.allowed
  · intro c ec event h
    by_cases hevent : event = MessageEvent.endFilename
    · subst hevent
      let idle : Collector := { c with isWritable := false }
      have hidle : volume.OpensAllowed target idle := ⟨h.target_eq, h.allowed⟩
      rcases Collector.opened_openFile (volume.fileSystem isDirectory openError room)
        idle ec with ⟨htarget, hcases⟩
      refine ⟨htarget.trans h.target_eq, ?_⟩
      intro path hpath
      change path ∈ (Collector.openFile _ idle ec).1.opened at hpath
      rcases hcases with hsame | ⟨hopens, hnew⟩
      · rw [hsame] at hpath
        exact h.allowed path hpath
      · rw [hidle.target_eq] at hopens hnew
        rw [hnew] at hpath
        rcases List.mem_cons.mp hpath with hfirst | hold
        · rw [hfirst]
          exact allows_of_opens hidle hopens
        · exact h.allowed path hold
    · rcases Collector.opened_onEvent (volume.fileSystem isDirectory openError room)
        c ec hevent with ⟨htarget, hopened⟩
      constructor
      · rw [htarget, h.target_eq]
      · rw [hopened]
        exact h.allowed
  · intro c p h
    exact ⟨h.target_eq, h.allowed⟩
  · intro c m h
    exact ⟨h.target_eq, h.allowed⟩

/-- What no opened path leads to is as it was. -/
theorem after_eq (volume : Volume File) {files : List FormFile} {f : File}
    (h : forall file, file ∈ files -> forall path, file.path = some path ->
      volume.leadsTo path ≠ f) : volume.after files f = volume.content f := by
  induction files with
  | nil => rfl
  | cons file older ih =>
      have hold := ih fun other hother => h other (List.mem_cons_of_mem _ hother)
      rw [after]
      split
      · exact hold
      · rename_i path hpath
        rw [if_neg (h file List.mem_cons_self path hpath)]
        exact hold

theorem mem_opened {c : Collector} {file : FormFile} {path : Str}
    (hfile : file ∈ c.files) (hpath : file.path = some path) :
    path ∈ c.opened :=
  List.mem_filterMap.mpr ⟨file, hfile, hpath⟩

theorem respectsMode_of_opensAllowed {c : Collector}
    (h : volume.OpensAllowed target c) :
    volume.RespectsMode target.mode c.files := by
  constructor
  · intro hmode f text hf
    rw [after_eq, hf]
    intro file hfile path hpath heq
    have hallowed := h.allowed path (mem_opened hfile hpath)
    rw [hmode, heq, hf] at hallowed
    cases hallowed
  · intro hmode f hf
    rw [after_eq, hf]
    intro file hfile path hpath heq
    have hallowed := h.allowed path (mem_opened hfile hpath)
    rw [hmode, heq, hf] at hallowed
    cases hallowed
  · intro hmode file hfile
    cases hpath : file.path with
    | none => rfl
    | some path =>
        have hallowed := h.allowed path (mem_opened hfile hpath)
        rw [hmode] at hallowed
        cases hallowed

/-- Whatever the body is and however it is cut, at every byte of it: `add` has
left what existed before as it was, `replace` has made nothing that did not
exist, and `ignore` has opened nothing. -/
theorem respectsMode_throughout (volume : Volume File)
    (isDirectory : Str -> Bool) (openError : List Str -> Str -> Ec)
    (room : List Str -> Str -> Option Nat) (boundary : Str)
    (target : FormTarget) (cutting : List Str) :
    (Reader.initial boundary target).Throughout
      (volume.fileSystem isDirectory openError room)
      (fun c => volume.RespectsMode target.mode c.files) cutting := by
  apply Reader.throughout_mono fun c => respectsMode_of_opensAllowed
  apply Reader.throughout_of_kept (keptByPut_opensAllowed volume target)
  exact ⟨rfl, fun path hpath => absurd hpath List.not_mem_nil⟩

end Volume

end Multipart
end CisWebui
