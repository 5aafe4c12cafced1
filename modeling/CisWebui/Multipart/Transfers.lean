import Mathlib.Data.List.Forall2
import CisWebui.Http.DownloadLinks
import CisWebui.Multipart.Modes
import CisWebui.Multipart.Uploads

/-!
# From an upload to a download

A file that has been sent to a directory of a project with a 200 comes back, byte for
byte, to everyone who may read the project and follows the link that the listing of the
directory shows for it.
-/

namespace CisWebui
namespace Multipart

open Cpp FilesystemPath Foundation
open Http (FileEnv FileHandler FormTarget Granted Handled Mode OpenResult
  ProjectFile Request RightsEnv Route Segment)
open Http.MultipartFormHandler (handleForm)
open Reader (ComesTo Harmless answer_directory_iff answer_ignore_iff boundaryOf comesTo_whole
  contentTypeOf init init_eq initial ready_initial run_of_harmless)

/-!
## Places
-/

/-- A place for a file: a directory of a project, with a name. -/
structure Place where
  project : Segment
  dirs : List Segment
  name : Segment

namespace Place

def file (place : Place) : ProjectFile :=
  match place.dirs with
  | [] => { project := place.project, first := place.name, rest := [], executable := false }
  | first :: rest =>
      { project := place.project
        first := first
        rest := rest ++ [place.name]
        executable := false }

/-- The directory as the route of a request gives it. -/
def dir (place : Place) : Str :=
  (Segment.joined place.dirs).tail

theorem segments_file (place : Place) :
    place.file.segments = place.project :: (place.dirs ++ [place.name]) := by
  unfold file ProjectFile.segments
  cases place.dirs with
  | nil => rfl
  | cons first rest => rfl

/-- The directory behind a path, with the name behind it. -/
theorem append_dir_name (place : Place) (path : Str) :
    append (append path place.dir) place.name.text =
      Segment.below path (place.dirs ++ [place.name]) := by
  unfold dir
  cases place.dirs with
  | nil =>
      have hnone : append path [] = stem path := by
        rw [append_eq_stem rfl, List.append_nil]
      show append (append path []) place.name.text = append path place.name.text
      rw [hnone, append_eq_stem place.name.isAbsolute_text,
        append_eq_stem place.name.isAbsolute_text, stem_stem]
  | cons first rest =>
      have htail : (Segment.joined (first :: rest)).tail =
          first.text ++ Segment.joined rest := rfl
      have hbelow : append path (first.text ++ Segment.joined rest) =
          Segment.below path (first :: rest) := by
        rw [append_eq_stem (first.isAbsolute_text_append _), Segment.below_cons,
          List.append_assoc]
      rw [htail, hbelow]
      unfold Segment.below
      rw [List.foldl_append]
      rfl

end Place

/-!
## Uploads
-/

/-- The two ways to send files. -/
inductive Form where
  | upload
  | replace
deriving DecidableEq, Repr

namespace Form

def mode : Form -> Mode
  | upload => Mode.add
  | replace => Mode.replace

def route : Form -> Str -> Str -> Route
  | upload => Route.upload
  | replace => Route.replace

def handle : Form -> Str -> RightsEnv -> Http.DiskView -> Request -> RequestContext ->
    Str -> Str -> Handled FormTarget
  | upload => Http.MultipartFormHandler.upload
  | replace => Http.MultipartFormHandler.replace

theorem handle_eq (form : Form) :
    exists allowed, form.handle = handleForm form.mode allowed := by
  cases form with
  | upload => exact ⟨Verb.get, rfl⟩
  | replace => exact ⟨Verb.post, rfl⟩

theorem mode_cases (form : Form) : form.mode = Mode.add ∨ form.mode = Mode.replace := by
  cases form with
  | upload => exact Or.inl rfl
  | replace => exact Or.inr rfl

end Form

/-- The body goes to the directory of the place, in the pieces of the cutting, and is
answered with a 200. -/
structure Uploaded (root : RootDir) (form : Form) (place : Place) (fs : FileSystem)
    (rights : RightsEnv) (req : Request) (ctx : RequestContext) (cutting : List Str)
    (target : FormTarget) (upload : Upload) : Prop where
  routed : Http.Router.route req.target =
    some (form.route place.project.text place.dir)
  accepted : (form.handle root.path rights (fs.disk []) req ctx place.project.text
    place.dir).bodyRead = some target
  run : exists r, init (contentTypeOf req) target = Except.ok r ∧
    r.run fs cutting = Except.ok upload
  answered : upload.answer target.mode = some Status.ok

/-- The body is a form of the parts, and its pieces do not break the reader. -/
structure FormOf (fs : FileSystem) (req : Request) (target : FormTarget)
    (cutting : List Str) (parts : List Part) : Prop where
  boundary : boundaryOf (contentTypeOf req) ≠ []
  valid : forall part, part ∈ parts -> part.Valid
  framed : Framed (boundaryOf (contentTypeOf req)) cutting.flatten (parts.map Part.text)
  harmless : Harmless fs (initial (boundaryOf (contentTypeOf req)) target) cutting

/-- Where a file with the name of the place is written to. -/
theorem filePath_of_uploaded {root : RootDir} {form : Form} {place : Place} {fs : FileSystem}
    {rights : RightsEnv} {req : Request} {ctx : RequestContext} {cutting : List Str}
    {target : FormTarget} {upload : Upload}
    (h : Uploaded root form place fs rights req ctx cutting target upload)
    (hplain : Http.PlainPath place.file) :
    target.filePath place.name.text = (place.file.entry root).path := by
  rcases form.handle_eq with ⟨allowed, hhandle⟩
  have haccepted := h.accepted
  rw [hhandle] at haccepted
  rcases Http.handleForm_bodyRead_iff.mp haccepted with ⟨_, htarget⟩
  have hpath : append target.dir place.name.text = (place.file.entry root).path := by
    rw [← htarget]
    show append (append (append root.path place.project.text) place.dir) place.name.text =
      Segment.below root.path place.file.segments
    rw [place.append_dir_name, place.segments_file]
    rfl
  unfold FormTarget.filePath
  rw [hpath, ← place.file.pathCat_path, Http.cStr_pathCat,
    cStr_of_noNul hplain.right.left]

/-!
## What is in the files
-/

namespace Volume

variable {File : Type} [DecidableEq File] (volume : Volume File)

/-- What the file of a path is opened with behind an upload. -/
def openFile (files : List FormFile) (path : Str) : OpenResult :=
  match volume.after files (volume.leadsTo path) with
  | some content => OpenResult.opened content
  | none => OpenResult.noSuchFile

/-- The newest file that a path leads to is what is read there. -/
theorem after_newest {newer older : List FormFile} {file : FormFile} {path : Str}
    (hpath : file.path = some path)
    (hnewer : forall other, other ∈ newer -> forall p, other.path = some p ->
      volume.leadsTo p ≠ volume.leadsTo path) :
    volume.after (newer ++ file :: older) (volume.leadsTo path) = some file.written := by
  induction newer with
  | nil =>
      rw [List.nil_append, after, hpath]
      exact if_pos rfl
  | cons other rest ih =>
      have hrest := ih fun o ho => hnewer o (List.mem_cons_of_mem other ho)
      rw [List.cons_append, after]
      cases hother : other.path with
      | none => exact hrest
      | some p =>
          dsimp only
          rw [if_neg (hnewer other List.mem_cons_self p hother)]
          exact hrest

end Volume

/-- The part among the parts is the part among the file parts. -/
theorem fileParts_split {before later : List Part} {part : Part} {file : Str × Str}
    (hfile : part.file = some file) :
    fileParts (before ++ part :: later) =
      fileParts before ++ part :: fileParts later := by
  unfold fileParts
  rw [List.filter_append, List.filter_cons_of_pos]
  rw [hfile]
  rfl

/-- What is read at the path of a file part, if no later one has gone to the same
file. -/
theorem openFile_of_allKept {File : Type} [DecidableEq File] {volume : Volume File}
    {cwd : List Str} {target : FormTarget} {upload : Upload} {before later : List Part}
    {part : Part} {filename contentType : Str}
    (hkept : AllKept cwd target (before ++ part :: later) upload)
    (hfile : part.file = some (filename, contentType))
    (hlater : forall other name type, other ∈ later -> other.file = some (name, type) ->
      volume.leadsTo (target.filePath name) ≠ volume.leadsTo (target.filePath filename)) :
    volume.openFile upload.files (target.filePath filename) =
      OpenResult.opened part.body := by
  unfold AllKept at hkept
  rw [fileParts_split hfile] at hkept
  have hrest := List.forall₂_drop_append _ _ _ hkept.flip
  rcases List.forall₂_cons_right_iff.mp hrest with ⟨file, newer, hpart, hnewer, hfiles⟩
  let older := upload.files.reverse.take (fileParts before).length
  have hnewest : upload.files = newer.reverse ++ file :: older.reverse := by
    have hall : upload.files.reverse = older ++ file :: newer := by
      rw [← hfiles, List.take_append_drop]
    rw [← List.reverse_reverse upload.files, hall, List.reverse_append,
      List.reverse_cons, List.append_assoc, List.singleton_append]
  rcases hpart with ⟨name, type, hnamed, hpath, _, hwritten⟩
  rw [hfile] at hnamed
  cases hnamed
  unfold Volume.openFile
  rw [hnewest, volume.after_newest hpath ?_, hwritten]
  intro other hother p hp
  rcases List.mem_iff_get.mp (List.mem_reverse.mp hother) with ⟨n, hn⟩
  have hn' : n.1 < (fileParts later).length := by
    rw [← hnewer.length_eq]
    exact n.2
  rcases hnewer.get n.2 hn' with ⟨name, type, hnamed, hopened, _, _⟩
  have hsame : p = target.filePath name := by
    rw [← hn] at hp
    exact Option.some.inj (hp.symm.trans hopened)
  rw [hsame]
  apply hlater _ name type _ hnamed
  exact (List.mem_filter.mp (List.get_mem _ _)).left

/-!
## Downloads
-/

/-- Everyone who may read the project gets the content by the link. -/
def Downloads (root : RootDir) (file : ProjectFile) (openFile : Str -> OpenResult)
    (content : Str) : Prop :=
  exists project inside,
    Http.Router.route (file.link root) = some (Route.download project inside) ∧
      forall rights env req ctx, env.openFile = openFile -> req.method = Verb.get ->
        req.target = file.link root -> Granted rights ctx project ProjectRights.read ->
          exists response,
            (Http.DownloadHandler.handle root.path rights env req ctx project
              inside).handled.sent = [response] ∧
            response.status = Status.ok ∧ response.body = content

/-- The file that is opened is what is sent. -/
theorem sent_of_opened {h : FileHandler} {env : FileEnv} {req : Request}
    {ctx : RequestContext} {path opened content : Str}
    (hopened : (h.singleFile env req ctx path).opened = some opened)
    (hcontent : env.openFile opened = OpenResult.opened content) :
    exists response, (h.singleFile env req ctx path).handled.sent = [response] ∧
      response.status = Status.ok ∧ response.body = content := by
  rw [FileHandler.singleFile_opened] at hopened
  split at hopened
  · next hget =>
      cases hopened
      unfold FileHandler.singleFile
      rw [if_pos hget]
      dsimp only
      rw [hcontent]
      exact ⟨_, rfl, rfl, rfl⟩
  · cases hopened

theorem downloads_of_openFile {root : RootDir} {file : ProjectFile}
    {openFile : Str -> OpenResult} {content : Str} (hplain : Http.PlainPath file)
    (hcontent : openFile (file.entry root).path = OpenResult.opened content) :
    Downloads root file openFile content := by
  have hlink : Http.LinkOpens root file := Http.linkOpens_of_plainPath hplain
  rcases hlink with ⟨project, inside, hroute, hopens⟩
  refine ⟨project, inside, hroute, ?_⟩
  intro rights env req ctx henv hget htarget hgranted
  have hopened := hopens rights env req ctx hget htarget hgranted
  unfold Http.DownloadHandler.handle at hopened ⊢
  rw [if_pos hget, Http.refusal_eq_none_iff.mpr hgranted] at hopened ⊢
  exact sent_of_opened hopened (by rw [henv]; exact hcontent)

/-!
## There and back
-/

/-- A 200 keeps the file parts of a body that can be stored. -/
theorem allKept_of_uploaded {root : RootDir} {form : Form} {place : Place} {fs : FileSystem}
    {rights : RightsEnv} {req : Request} {ctx : RequestContext} {cutting : List Str}
    {target : FormTarget} {upload : Upload} {parts : List Part}
    (h : Uploaded root form place fs rights req ctx cutting target upload)
    (hform : FormOf fs req target cutting parts) (cwd : List Str)
    (hstorable : Storable cwd fs target parts) :
    AllKept cwd target parts upload := by
  rcases h.run with ⟨r, hr, hupload⟩
  rw [init_eq hform.boundary] at hr
  cases hr
  rw [run_of_harmless cutting _ (ready_initial _ target) hform.harmless] at hupload
  cases hupload
  have hanswered := h.answered
  have hcomes : ComesTo fs target parts _ := comesTo_whole hform.framed hform.valid
  rcases form.handle_eq with ⟨allowed, hhandle⟩
  have haccepted := h.accepted
  rw [hhandle] at haccepted
  rcases Http.handleForm_bodyRead_iff.mp haccepted with ⟨_, htarget⟩
  have hmode : target.mode =
      if fs.isDirectory (cStr target.dir) then form.mode else Mode.ignore := by
    rw [← htarget]
    rfl
  unfold Storable at hstorable
  split at hstorable
  · next hdir =>
      rw [if_pos hdir] at hmode
      refine (answer_directory_iff cwd hcomes ?_).mpr hstorable hanswered
      rw [hmode]
      exact form.mode_cases
  · next hdir =>
      rw [if_neg hdir] at hmode
      exact (answer_ignore_iff cwd hcomes hmode).mpr hstorable hanswered

/-- What has been sent to a place with a 200 is downloaded from there. -/
theorem downloads_of_uploaded {File : Type} [DecidableEq File] {root : RootDir} {form : Form}
    {place : Place} (volume : Volume File) {isDirectory : Str -> Bool}
    {openError : List Str -> Str -> Ec} {room : List Str -> Str -> Option Nat}
    {rights : RightsEnv} {req : Request} {ctx : RequestContext} {cutting : List Str}
    {target : FormTarget} {upload : Upload}
    (huploaded : Uploaded root form place (volume.fileSystem isDirectory openError room) rights req
      ctx cutting target upload)
    {before later : List Part} {part : Part}
    (hform : FormOf (volume.fileSystem isDirectory openError room) req target cutting
      (before ++ part :: later))
    (cwd : List Str)
    (hstorable : Storable cwd (volume.fileSystem isDirectory openError room) target
      (before ++ part :: later))
    {contentType : Str} (hfile : part.file = some (place.name.text, contentType))
    (hlater : forall other name type, other ∈ later -> other.file = some (name, type) ->
      volume.leadsTo (target.filePath name) ≠
        volume.leadsTo (target.filePath place.name.text))
    (hplain : Http.PlainPath place.file) :
    Downloads root place.file (volume.openFile upload.files) part.body := by
  have hkept := allKept_of_uploaded huploaded hform cwd hstorable
  have hopen := openFile_of_allKept hkept hfile hlater
  rw [filePath_of_uploaded huploaded hplain] at hopen
  exact downloads_of_openFile hplain hopen

def sampleRoot : RootDir where
  path := str "/srv"
  nonempty := by decide
  noNul := by decide

def samplePlace : Place where
  project :=
    { text := str "web"
      nonempty := by decide
      noSlash := by decide
      notHere := by decide
      notUp := by decide }
  dirs :=
    [{ text := str "files"
       nonempty := by decide
       noSlash := by decide
       notHere := by decide
       notUp := by decide }]
  name :=
    { text := str "n"
      nonempty := by decide
      noSlash := by decide
      notHere := by decide
      notUp := by decide }

def emptyVolume : Volume Str where
  leadsTo := id
  content := fun _ => none

def sampleUpload : Upload where
  values :=
    [{ name := str "g", isFile := true, content := str "m" },
      { name := str "f", isFile := true, content := str "n" },
      { name := str "d", isFile := false, content := str "1" }]
  files :=
    [{ name := str "m", path := some (str "/srv/web/files/m"), written := str "y" },
      { name := str "n", path := some (str "/srv/web/files/n"),
        written := str "x\r\n--A" }]
  outcome := Outcome.stored

/-- The first of two files of a body in six pieces. -/
theorem downloads_of_uploaded_sample :
    Downloads sampleRoot samplePlace.file (emptyVolume.openFile sampleUpload.files)
      (str "x\r\n--A") := by
  let fs := emptyVolume.fileSystem (fun _ => true) (fun _ _ => none) (fun _ _ => none)
  let target : FormTarget := { dir := str "/srv/web/files", mode := Mode.add }
  have huploaded : Uploaded sampleRoot Form.upload samplePlace fs Reader.sampleRights
      Reader.sampleRequest Reader.sampleContext Reader.sampleCutting target sampleUpload := by
    constructor
    · decide +kernel
    · decide
    · exact ⟨initial (str "B") target, by decide, by decide +kernel⟩
    · decide
  have hform : FormOf fs Reader.sampleRequest target Reader.sampleCutting
      ([{ name := str "d", file := none, body := str "1" }] ++ Reader.samplePart ::
        [{ name := str "g", file := some (str "m", str "t"), body := str "y" }]) := by
    constructor
    · decide
    · exact Reader.valid_sampleParts
    · exact Reader.framed_sampleParts
    · decide +kernel
  have hstorable : Storable [] fs target Reader.sampleParts := by
    have hdir : fs.isDirectory (cStr target.dir) = true := rfl
    rw [Storable, if_pos hdir]
    intro _
    refine ⟨⟨?_, ?_⟩, ⟨?_, ?_⟩, trivial⟩
    · rw [NamesInside, if_neg (by decide)]
      exact Or.inr (by decide)
    · intro room hroom
      cases hroom
    · rw [NamesInside, if_neg (by decide)]
      exact Or.inr (by decide)
    · intro room hroom
      cases hroom
  refine downloads_of_uploaded emptyVolume huploaded hform [] hstorable rfl ?_ (by decide)
  intro other name type hother hfile
  rw [List.mem_singleton] at hother
  subst hother
  cases hfile
  decide

end Multipart
end CisWebui
