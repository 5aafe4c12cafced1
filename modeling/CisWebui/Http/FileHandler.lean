import CisWebui.Cpp.FilesystemPath
import CisWebui.Http.Exchange

/-!
# Files

`file_handler` serves the files below a directory to anyone, and
`download_handler` those of a project to its readers.  Both open the file at
`path_cat(directory, path)`.
-/

namespace CisWebui
namespace Http

open Cpp FilesystemPath

/-- `path_cat` on a POSIX system -/
def pathCat (base path : Str) : Str :=
  if base = [] then path
  else if endsInSlash base then base.dropLast ++ path
  else base ++ path

/-- How `file_body::value_type::open` ends. -/
inductive OpenResult where
  | opened (content : Str)
  | noSuchFile
  | failed (ec : ErrorCode)
deriving DecidableEq, Repr

/-- What the handlers find outside: the files, by the path they are opened
with, and the types `mime_type` gives to paths. -/
structure FileEnv where
  openFile : Str -> OpenResult
  mimeType : Str -> Str

/-- What a handler did, and the path it opened. -/
structure Served where
  handled : Handled Unit
  opened : Option Str

/-- The filename as a stream prints a path. -/
def quoted (p : Str) : Str :=
  str "\"" ++
    p.flatMap (fun c => if c = chr '"' ∨ c = chr '\\' then [chr '\\', c] else [c]) ++
    str "\""

structure FileHandler where
  docRoot : Str
  download : Bool

namespace FileHandler

def contentDisposition (h : FileHandler) (fullPath : Str) : Str :=
  if h.download then
    str "attachment; filename=" ++ quoted (filename fullPath)
  else
    str "inline"

def singleFile (h : FileHandler) (env : FileEnv) (req : Request)
    (ctx : RequestContext) (path : Str) : Served :=
  if req.method = Verb.get then
    let fullPath := pathCat h.docRoot path
    let opened := cStr fullPath
    match env.openFile opened with
    | OpenResult.noSuchFile =>
        { handled := Handled.refuse ctx Status.notFound, opened := some opened }
    | OpenResult.failed ec =>
        { handled :=
            Handled.refuse { ctx with error := ec.message }
              Status.internalServerError
          opened := some opened }
    | OpenResult.opened content =>
        { handled :=
            Handled.respond ctx
              { status := Status.ok
                version := req.version
                fields :=
                  [(str "Content-Type", env.mimeType fullPath),
                    (str "Content-Disposition", h.contentDisposition fullPath)]
                keepAlive := req.keepAlive
                body := content }
          opened := some opened }
  else
    { handled := Handled.refuseMethod ctx Verb.get, opened := none }

/-- `file_handler::operator()` -/
def handle (h : FileHandler) (env : FileEnv) (req : Request)
    (ctx : RequestContext) : Served :=
  h.singleFile env req ctx req.target

theorem singleFile_opened (h : FileHandler) (env : FileEnv) (req : Request)
    (ctx : RequestContext) (path : Str) :
    (h.singleFile env req ctx path).opened =
      if req.method = Verb.get then some (cStr (pathCat h.docRoot path))
      else none := by
  unfold singleFile
  by_cases hget : req.method = Verb.get
  · rw [if_pos hget, if_pos hget]
    dsimp only
    cases env.openFile (cStr (pathCat h.docRoot path)) <;> rfl
  · rw [if_neg hget, if_neg hget]

end FileHandler

/-- What the handlers of project files ask the rights manager. -/
structure RightsEnv where
  checkProjectRight : Str -> Str -> Fallible (Option ProjectRights)

/-- The login and rights checks of the handlers of project files: the status
of the refusal, if there is one. -/
def refusal (rights : RightsEnv) (ctx : RequestContext) (project : Str)
    (right : ProjectRights -> Bool) : Option Status :=
  match ctx.clientInfo with
  | none => some Status.forbidden
  | some client =>
      match rights.checkProjectRight client.email project with
      | Except.error _ => some Status.internalServerError
      | Except.ok none => some Status.forbidden
      | Except.ok (some granted) =>
          if right granted then none else some Status.forbidden

namespace DownloadHandler

/-- The path below the files of all projects. -/
def projectPath (project file : Str) : Str :=
  append (append (str "/") project) file

/-- `download_handler::operator()`; its files are served with
`download_` set. -/
def handle (filesRoot : Str) (rights : RightsEnv) (env : FileEnv)
    (req : Request) (ctx : RequestContext) (project file : Str) : Served :=
  if req.method = Verb.get then
    match refusal rights ctx project ProjectRights.read with
    | some status => { handled := Handled.refuse ctx status, opened := none }
    | none =>
        FileHandler.singleFile { docRoot := filesRoot, download := true } env req
          ctx (projectPath project file)
  else
    { handled := Handled.refuseMethod ctx Verb.get, opened := none }

end DownloadHandler

end Http
end CisWebui
