import CisWebui.Http.FileHandler

/-!
# Uploads

`multipart_form_handler` checks the request and asks for a multipart body; the
files of the body are written into a directory of the project while it is
read.
-/

namespace CisWebui
namespace Http

open Cpp FilesystemPath

/-- `value_type::mode` -/
inductive Mode where
  | add
  | replace
  | addOrReplace
  | ignore
deriving DecidableEq, Repr

/-- What the reader finds on disk, by the path the system gets. -/
structure DiskView where
  isDirectory : Str -> Bool
  fileExists : Str -> Bool

/-- The part of the body value that decides which files are opened. -/
structure FormTarget where
  dir : Str
  mode : Mode
deriving DecidableEq, Repr

namespace FormTarget

/-- `dir_ / filename`, as the system gets it. -/
def filePath (target : FormTarget) (filename : Str) : Str :=
  cStr (append target.dir filename)

/-- The branches at the end of a filename: the file is opened when the mode
allows it. -/
def opens (target : FormTarget) (disk : DiskView) (filename : Str) : Bool :=
  match target.mode with
  | Mode.ignore => false
  | Mode.replace => disk.fileExists (target.filePath filename)
  | Mode.add => !disk.fileExists (target.filePath filename)
  | Mode.addOrReplace => true

end FormTarget

/-- A value of the body as `handle_body` sees it. -/
structure FormValue where
  isFile : Bool
  written : Bool
deriving DecidableEq, Repr

namespace MultipartFormHandler

/-- The first callback: a directory that is none turns the mode to `ignore`. -/
def prepareBody (disk : DiskView) (mode : Mode) (dir : Str) : FormTarget :=
  { dir := dir
    mode := if disk.isDirectory (cStr dir) then mode else Mode.ignore }

/-- The directory of a request. -/
def formDir (filesRoot project dir : Str) : Str :=
  append (append filesRoot project) dir

/-- `upload` and `replace`, which differ in the mode and in the verb they name
when they refuse another one. -/
def handleForm (mode : Mode) (allowed : Verb) (filesRoot : Str)
    (rights : RightsEnv) (disk : DiskView) (req : Request)
    (ctx : RequestContext) (project dir : Str) : Handled FormTarget :=
  if req.method = Verb.post then
    if (str "multipart/form-data").isPrefixOf
        ((req.find (str "Content-Type")).getD []) then
      match refusal rights ctx project ProjectRights.write with
      | some status => Handled.refuse ctx status
      | none =>
          Handled.readBody ctx
            (prepareBody disk mode (formDir filesRoot project dir))
    else
      Handled.refuse ctx Status.badRequest
  else
    Handled.refuseMethod ctx allowed

def upload : Str -> RightsEnv -> DiskView -> Request -> RequestContext ->
    Str -> Str -> Handled FormTarget :=
  handleForm Mode.add Verb.get

def replace : Str -> RightsEnv -> DiskView -> Request -> RequestContext ->
    Str -> Str -> Handled FormTarget :=
  handleForm Mode.replace Verb.post

/-- The status of `handle_body`; the last file that was not written decides. -/
def bodyStatus (mode : Mode) (values : List FormValue) : Status :=
  values.foldl (fun status value =>
    if value.isFile ∧ ¬ value.written then
      match mode with
      | Mode.replace => Status.notFound
      | Mode.add => Status.conflict
      | _ => status
    else
      status) Status.ok

def handleBody (req : Request) (mode : Mode) (values : List FormValue) :
    Response where
  status := bodyStatus mode values
  version := req.version
  fields := [(str "Content-Type", str "text/html")]
  keepAlive := req.keepAlive
  body := []

end MultipartFormHandler

end Http
end CisWebui
