import CisWebui.Http.MultipartFormHandler
import CisWebui.Http.Router
import CisWebui.RootDir

/-!
# Confinement

Which requests open only files below the directory they were granted: the
static files below `doc_root`, and the files of a project below the directory
of the project.
-/

namespace CisWebui
namespace Http

open Cpp FilesystemPath Foundation

/-- A target in origin form: it starts with a slash, and the parser lets no
control character and no blank through. -/
structure OriginTarget where
  text : Str
  absolute : isAbsolute text = true
  printable : forall c, c ∈ text -> chr ' ' < c ∧ c ≠ 127

/-!
## Static files
-/

theorem isAbsolute_pathCat (root : RootDir) {path : Str}
    (hpath : isAbsolute path = true) :
    isAbsolute (pathCat root.path path) = isAbsolute root.path := by
  unfold pathCat
  rw [if_neg root.nonempty]
  split
  · rename_i hslash
    rcases exists_of_endsInSlash hslash with ⟨q, hq⟩
    rw [hq, List.dropLast_concat]
    cases q with
    | nil => simpa [isAbsolute] using hpath
    | cons c rest => rfl
  · cases hroot : root.path with
    | nil => exact absurd hroot root.nonempty
    | cons c rest => rfl

theorem names_pathCat (root : RootDir) {path : Str}
    (hpath : isAbsolute path = true) :
    names (pathCat root.path path) = names root.path ++ names path := by
  rcases exists_of_isAbsolute hpath with ⟨rest, rfl⟩
  unfold pathCat
  rw [if_neg root.nonempty]
  split
  · rename_i hslash
    rcases exists_of_endsInSlash hslash with ⟨q, hq⟩
    rw [hq, List.dropLast_concat, names_append_slash, names_append_slash,
      names_nil, List.append_nil, names_slash_cons]
  · rw [names_append_slash, names_slash_cons]

theorem resolved_pathCat (root : RootDir) {path : Str}
    (hpath : isAbsolute path = true) (cwd : List Str) :
    resolved cwd (pathCat root.path path) =
      LexicalPath.resolve (resolved cwd root.path) (components path) := by
  rw [resolved, isAbsolute_pathCat root hpath, components,
    names_pathCat root hpath, List.map_append, LexicalPath.resolve_append]
  rfl

theorem cStr_pathCat (root : RootDir) (path : Str) :
    cStr (pathCat root.path path) = pathCat root.path (cStr path) := by
  unfold pathCat
  rw [if_neg root.nonempty, if_neg root.nonempty]
  split
  · apply cStr_append_of_noNul
    intro hmem
    exact root.noNul (List.mem_of_mem_dropLast hmem)
  · exact cStr_append_of_noNul root.noNul path

theorem OriginTarget.noNul (target : OriginTarget) : 0 ∉ target.text := by
  intro hmem
  exact absurd (target.printable 0 hmem).left (by decide)

/-- The handler of the catch-all route. -/
def staticFiles (root : RootDir) : FileHandler where
  docRoot := root.path
  download := false

/-- Whatever the catch-all route opens for the target is inside the
directory. -/
def StaticConfined (cwd : List Str) (root : RootDir) (env : FileEnv)
    (req : Request) (ctx : RequestContext) (target : OriginTarget) : Prop :=
  Router.route target.text = some Route.files ->
    forall path,
      ((staticFiles root).handle env { req with target := target.text }
        ctx).opened = some path ->
      Inside cwd (resolved cwd root.path) path

/-- The catch-all route stays inside its directory exactly when the components
of every target it is asked to get stay under it. -/
theorem staticConfined_iff (cwd : List Str) (root : RootDir) (env : FileEnv)
    (req : Request) (ctx : RequestContext) (target : OriginTarget) :
    StaticConfined cwd root env req ctx target <->
      (Router.route target.text = some Route.files -> req.method = Verb.get ->
        LexicalPath.StaysUnder (resolved cwd root.path)
          (components target.text)) := by
  have hopened :
      ((staticFiles root).handle env { req with target := target.text }
        ctx).opened =
        if req.method = Verb.get then some (pathCat root.path target.text)
        else none := by
    rw [FileHandler.handle, FileHandler.singleFile_opened, staticFiles,
      cStr_pathCat, cStr_of_noNul target.noNul]
  have hinside : Inside cwd (resolved cwd root.path)
      (pathCat root.path target.text) <->
      LexicalPath.StaysUnder (resolved cwd root.path)
        (components target.text) := by
    rw [Inside, resolved_pathCat root target.absolute,
      LexicalPath.prefix_resolve_iff]
  constructor
  · intro h hroute hget
    exact hinside.mp (h hroute _ (by rw [hopened, if_pos hget]))
  · intro h hroute path hpath
    rw [hopened] at hpath
    split at hpath
    · rename_i hget
      cases hpath
      exact hinside.mpr (h hroute hget)
    · cases hpath

/-- The database next to the served directory can be fetched. -/
theorem staticConfined_not_everywhere :
    ¬ forall cwd root env req ctx target,
      StaticConfined cwd root env req ctx target := by
  intro h
  let root : RootDir :=
    { path := str "/srv/www", nonempty := by decide, noNul := by decide }
  let target : OriginTarget :=
    { text := str "/../db.sqlite"
      absolute := by decide
      printable := by
        have hall : (str "/../db.sqlite").all
            (fun c => chr ' ' < c && c ≠ 127) = true := by
          decide
        intro c hc
        simpa using List.all_eq_true.mp hall c hc }
  let env : FileEnv :=
    { openFile := fun _ => OpenResult.opened (str "users")
      mimeType := fun _ => str "application/text" }
  let req : Request :=
    { method := Verb.get
      target := target.text
      fields := []
      version := 11
      keepAlive := false }
  let ctx : RequestContext :=
    { clientInfo := none
      cookies := []
      resStatus := Status.unknown
      allowedVerbs := []
      error := [] }
  have hinside : Inside [] (resolved [] root.path) (str "/srv/www/../db.sqlite") :=
    h [] root env req ctx target (by decide) _ (by decide)
  exact absurd hinside (by decide)

/-!
## Project files
-/

/-- The path `rest` below the project, as the system gets it, leads into the
project: either it is relative and stays under the project, or it is absolute
and leads there from `start`. -/
def LeadsInto (start dir : List Str) (project rest : Str) : Prop :=
  if isAbsolute rest then
    dir <+: (LexicalPath.normal (components rest)).apply start
  else
    0 ∉ project ∧ LexicalPath.StaysUnder dir (components rest)

/-- The files of the body a handler has opened for writing, for the filenames
the reader meets. -/
def formOpened (handled : Handled FormTarget) (disk : DiskView)
    (filenames : List Str) : List Str :=
  match handled.bodyRead with
  | none => []
  | some target =>
      (filenames.filter fun name => target.opens disk name).map target.filePath

theorem cStr_append_project {project rest : Str} (hnul : 0 ∈ project)
    (hrest : isAbsolute rest = false) :
    cStr (append project rest) = cStr project := by
  have hne : project ≠ [] := List.ne_nil_of_mem hnul
  unfold append
  rw [if_neg (by simp [hrest])]
  split <;> exact cStr_append_of_nul hnul _

theorem component_of_nul {name : Str} (hnul : 0 ∈ name) :
    component name = Component.name name := by
  unfold component
  rw [if_neg, if_neg]
  · rintro rfl
    exact absurd hnul (by decide)
  · rintro rfl
    exact absurd hnul (by decide)

theorem projectDir_eq {cwd : List Str} {root : RootDir} {project : Str}
    (hslash : slash ∉ project) :
    projectDir cwd root project =
      LexicalPath.resolve (resolved cwd root.path) (components project) := by
  rw [projectDir, resolved_append (isAbsolute_of_not_mem hslash)]

/-- A name with a NUL is cut short, and so leads to another directory. -/
theorem not_prefix_of_nul {cwd : List Str} {root : RootDir} {project : Str}
    (hslash : slash ∉ project) (hnul : 0 ∈ project) :
    ¬ projectDir cwd root project <+:
      LexicalPath.resolve (resolved cwd root.path)
        (components (cStr project)) := by
  have hcut : slash ∉ cStr project := fun h => hslash (mem_of_mem_cStr h)
  have hdir : projectDir cwd root project =
      resolved cwd root.path ++ [project] := by
    rw [projectDir_eq hslash, components, names_of_not_mem hslash,
      if_neg (List.ne_nil_of_mem hnul), List.map_singleton,
      component_of_nul hnul]
    rfl
  rw [hdir, components, names_of_not_mem hcut]
  intro hinside
  have hlength := hinside.length_le
  rw [List.length_append, List.length_singleton] at hlength
  split at hinside
  · rename_i hempty
    rw [if_pos hempty, List.map_nil, LexicalPath.resolve_nil] at hlength
    omega
  · rename_i hempty
    rw [if_neg hempty] at hlength
    rw [List.map_singleton, LexicalPath.resolve_cons, LexicalPath.resolve_nil]
      at hinside hlength
    cases hcomponent : component (cStr project) with
    | here =>
        rw [hcomponent, LexicalPath.move] at hlength
        omega
    | up =>
        rw [hcomponent, LexicalPath.move, List.length_dropLast] at hlength
        omega
    | name cut =>
        rw [hcomponent, LexicalPath.move, List.prefix_append_right_inj,
          List.cons_prefix_cons, component_eq_name hcomponent] at hinside
        rw [hinside.left] at hnul
        exact nul_not_mem_cStr project hnul

theorem inside_formPath_iff (cwd : List Str) (root : RootDir)
    {project : Str} (rest : Str) (hslash : slash ∉ project) :
    Inside cwd (projectDir cwd root project)
        (cStr (append (append root.path project) rest)) <->
      LeadsInto [] (projectDir cwd root project) project (cStr rest) := by
  unfold LeadsInto
  rw [isAbsolute_cStr]
  cases hrest : isAbsolute rest with
  | true =>
      have habs : isAbsolute (cStr rest) = true := by
        rw [isAbsolute_cStr, hrest]
      rw [append_of_isAbsolute hrest, if_pos rfl, Inside,
        resolved_of_isAbsolute habs, LexicalPath.resolve_eq_apply]
  | false =>
      rw [if_neg (by simp)]
      by_cases hnul : 0 ∈ project
      · have hcut : slash ∉ cStr project := fun h => hslash (mem_of_mem_cStr h)
        rw [append_assoc, cStr_append root.noNul,
          cStr_append_project hnul hrest, Inside,
          resolved_append (isAbsolute_of_not_mem hcut)]
        constructor
        · intro h
          exact absurd h (not_prefix_of_nul hslash hnul)
        · intro h
          exact absurd hnul h.left
      · have hbase : 0 ∉ append root.path project :=
          nul_not_mem_append root.noNul hnul
        have hrel : isAbsolute (cStr rest) = false := by
          rw [isAbsolute_cStr, hrest]
        rw [cStr_append hbase, Inside, resolved_append hrel, projectDir,
          LexicalPath.prefix_resolve_iff]
        constructor
        · intro h
          exact ⟨hnul, h⟩
        · intro h
          exact h.right

theorem inside_downloadPath_iff (cwd : List Str) (root : RootDir)
    {project : Str} (file : Str) (hslash : slash ∉ project) :
    Inside cwd (projectDir cwd root project)
        (cStr (pathCat root.path (DownloadHandler.projectPath project file))) <->
      LeadsInto (resolved cwd root.path) (projectDir cwd root project) project
        (cStr file) := by
  have habsolute : forall q, isAbsolute (append (append (str "/") project) q) = true := by
    intro q
    rw [isAbsolute_append, isAbsolute_append]
    rfl
  have hcut : isAbsolute (cStr (DownloadHandler.projectPath project file)) = true := by
    rw [isAbsolute_cStr]
    exact habsolute file
  rw [cStr_pathCat, Inside, resolved_pathCat root hcut, LeadsInto,
    isAbsolute_cStr]
  cases hfile : isAbsolute file with
  | true =>
      rw [if_pos rfl, DownloadHandler.projectPath, append_of_isAbsolute hfile,
        LexicalPath.resolve_eq_apply]
  | false =>
      have hproject : isAbsolute project = false := isAbsolute_of_not_mem hslash
      rw [if_neg (by simp), DownloadHandler.projectPath]
      by_cases hnul : 0 ∈ project
      · have hcut : slash ∉ cStr project := fun h => hslash (mem_of_mem_cStr h)
        have hnames : components
            (cStr (append (append (str "/") project) file)) =
            components (cStr project) := by
          rw [append_assoc, cStr_append (by decide), cStr_append_project hnul hfile,
            components, names_append (isAbsolute_of_not_mem hcut)]
          rfl
        rw [hnames]
        constructor
        · intro h
          exact absurd h (not_prefix_of_nul hslash hnul)
        · intro h
          exact absurd hnul h.left
      · have hbase : 0 ∉ append (str "/") project :=
          nul_not_mem_append (by decide) hnul
        have hrel : isAbsolute (cStr file) = false := by
          rw [isAbsolute_cStr, hfile]
        have hnames : components
            (cStr (append (append (str "/") project) file)) =
            components project ++ components (cStr file) := by
          rw [cStr_append hbase, components, names_append hrel,
            names_append hproject, List.map_append, List.map_append]
          rfl
        rw [hnames, LexicalPath.resolve_append, ← projectDir_eq hslash,
          LexicalPath.prefix_resolve_iff]
        constructor
        · intro h
          exact ⟨hnul, h⟩
        · intro h
          exact h.right

/-- The user is logged in and has the right on the project. -/
def Granted (rights : RightsEnv) (ctx : RequestContext) (project : Str)
    (right : ProjectRights -> Bool) : Prop :=
  exists client granted, ctx.clientInfo = some client ∧
    rights.checkProjectRight client.email project = Except.ok (some granted) ∧
    right granted = true

theorem refusal_eq_none_iff {rights : RightsEnv} {ctx : RequestContext}
    {project : Str} {right : ProjectRights -> Bool} :
    refusal rights ctx project right = none <->
      Granted rights ctx project right := by
  unfold refusal Granted
  cases hclient : ctx.clientInfo with
  | none => simp
  | some client =>
      cases hcheck : rights.checkProjectRight client.email project with
      | error ec => simp [hcheck]
      | ok found =>
          cases found with
          | none => simp [hcheck]
          | some granted =>
              by_cases hright : right granted = true
              · simp [hcheck, hright]
              · simp [hcheck, hright]

/-- The request passes the checks of `upload` and `replace`. -/
def AcceptsForm (rights : RightsEnv) (req : Request) (ctx : RequestContext)
    (project : Str) : Prop :=
  req.method = Verb.post ∧
    (str "multipart/form-data").isPrefixOf
      ((req.find (str "Content-Type")).getD []) = true ∧
    Granted rights ctx project ProjectRights.write

theorem handleForm_bodyRead_iff {mode : Mode} {allowed : Verb} {filesRoot : Str}
    {rights : RightsEnv} {disk : DiskView} {req : Request}
    {ctx : RequestContext} {project dir : Str} {target : FormTarget} :
    (MultipartFormHandler.handleForm mode allowed filesRoot rights disk req ctx
        project dir).bodyRead = some target <->
      AcceptsForm rights req ctx project ∧
        MultipartFormHandler.prepareBody disk mode
          (MultipartFormHandler.formDir filesRoot project dir) = target := by
  unfold MultipartFormHandler.handleForm AcceptsForm
  rw [← refusal_eq_none_iff]
  by_cases hpost : req.method = Verb.post
  · by_cases htype : (str "multipart/form-data").isPrefixOf
        ((req.find (str "Content-Type")).getD []) = true
    · rw [if_pos hpost, if_pos htype]
      cases refusal rights ctx project ProjectRights.write with
      | none => simp [hpost, htype]
      | some status => simp [Handled.refuse]
    · rw [if_pos hpost, if_neg htype]
      simp [Handled.refuse, htype]
  · rw [if_neg hpost]
    simp [Handled.refuseMethod, Handled.refuse, hpost]

theorem handleDownload_opened_iff {filesRoot : Str} {rights : RightsEnv}
    {env : FileEnv} {req : Request} {ctx : RequestContext}
    {project file path : Str} :
    (DownloadHandler.handle filesRoot rights env req ctx project file).opened =
        some path <->
      (req.method = Verb.get ∧ Granted rights ctx project ProjectRights.read) ∧
        cStr (pathCat filesRoot (DownloadHandler.projectPath project file)) =
          path := by
  unfold DownloadHandler.handle
  rw [← refusal_eq_none_iff]
  by_cases hget : req.method = Verb.get
  · rw [if_pos hget]
    cases refusal rights ctx project ProjectRights.read with
    | none =>
        rw [FileHandler.singleFile_opened, if_pos hget]
        simp [hget]
    | some status => simp
  · rw [if_neg hget]
    simp [hget]

/-!
## The routes of a project
-/

theorem slash_not_mem_boundString {text : Str} {group : Router.Group}
    (h : Router.boundString text = some group) : slash ∉ group.matched := by
  simp only [Router.boundString] at h
  split at h
  · cases h
  · cases h
    intro hmem
    have hall := List.all_eq_true.mp List.all_takeWhile slash hmem
    revert hall
    decide

/-- The project of a route that serves or stores files. -/
def Route.project : Route -> Option Str
  | Route.upload project _ => some project
  | Route.replace project _ => some project
  | Route.download project _ => some project
  | _ => none

/-- The project of the route has no slash in it. -/
def SegmentProject (r : Route) : Prop :=
  forall project, r.project = some project -> slash ∉ project

theorem segmentProject_projectFile {name target : Str}
    {make : Str -> Str -> Route}
    (hmake : forall project file, (make project file).project = some project) :
    forall r, Router.projectFile name target make = some r ->
      SegmentProject r := by
  intro r h project hproject
  rcases Option.bind_eq_some_iff.mp h with ⟨text, _, h⟩
  rcases Option.bind_eq_some_iff.mp h with ⟨group, hgroup, h⟩
  rcases Option.bind_eq_some_iff.mp h with ⟨text, _, h⟩
  rcases Option.bind_eq_some_iff.mp h with ⟨file, _, h⟩
  cases h
  rw [hmake] at hproject
  cases hproject
  exact slash_not_mem_boundString hgroup

theorem segmentProject_projectOnly {name target : Str}
    {make : Str -> Str -> Route}
    (hmake : forall project file, (make project file).project = some project) :
    forall r, Router.projectOnly name target make = some r ->
      SegmentProject r := by
  intro r h project hproject
  rcases Option.bind_eq_some_iff.mp h with ⟨text, _, h⟩
  rcases Option.bind_eq_some_iff.mp h with ⟨group, hgroup, h⟩
  split at h
  · cases h
    rw [hmake] at hproject
    cases hproject
    exact slash_not_mem_boundString hgroup
  · cases h

theorem segmentProject_webhook {name target : Str} {apiProvider : Api} :
    forall r, Router.webhook name apiProvider target = some r ->
      SegmentProject r := by
  intro r h project hproject
  rcases Option.bind_eq_some_iff.mp h with ⟨text, _, h⟩
  rcases Option.bind_eq_some_iff.mp h with ⟨email, _, h⟩
  rcases Option.bind_eq_some_iff.mp h with ⟨text, _, h⟩
  rcases Option.bind_eq_some_iff.mp h with ⟨group, _, h⟩
  rcases Option.bind_eq_some_iff.mp h with ⟨text, _, h⟩
  rcases Option.bind_eq_some_iff.mp h with ⟨job, _, h⟩
  rcases Option.bind_eq_some_iff.mp h with ⟨query, _, h⟩
  cases h
  cases hproject

theorem segmentProject_rest {target : Str} :
    forall r, ((if target = str "/" then some Route.root else none)
      <|> Router.catchAll target) = some r -> SegmentProject r := by
  apply Router.forall_orElse
  · intro r h project hproject
    split at h
    · cases h
      cases hproject
    · cases h
  · intro r h project hproject
    rcases Option.bind_eq_some_iff.mp h with ⟨text, _, h⟩
    split at h
    · cases h
      cases hproject
    · cases h

theorem segmentProject_route {target : Str} :
    forall r, Router.route target = some r -> SegmentProject r := by
  have hupload : forall p d, (Route.upload p d).project = some p := fun _ _ => rfl
  have hreplace : forall p d, (Route.replace p d).project = some p := fun _ _ => rfl
  have hdownload : forall p f, (Route.download p f).project = some p := fun _ _ => rfl
  unfold Router.route
  exact Router.forall_orElse (segmentProject_projectFile hupload)
    (Router.forall_orElse (segmentProject_projectOnly hupload)
      (Router.forall_orElse (segmentProject_projectFile hreplace)
        (Router.forall_orElse (segmentProject_projectOnly hreplace)
          (Router.forall_orElse (segmentProject_projectFile hdownload)
            (Router.forall_orElse segmentProject_webhook
              (Router.forall_orElse segmentProject_webhook
                (Router.forall_orElse segmentProject_webhook
                  segmentProject_rest)))))))

/-- Whatever a request to the files of a project opens is inside the directory
of the project; `filenames` are those of the body. -/
def ProjectConfined (cwd : List Str) (root : RootDir) (rights : RightsEnv)
    (disk : DiskView) (env : FileEnv) (req : Request) (ctx : RequestContext)
    (filenames : List Str) : Prop :=
  match Router.route req.target with
  | some (Route.upload project dir) =>
      forall path, path ∈ formOpened
          (MultipartFormHandler.upload root.path rights disk req ctx project dir)
          disk filenames ->
        Inside cwd (projectDir cwd root project) path
  | some (Route.replace project dir) =>
      forall path, path ∈ formOpened
          (MultipartFormHandler.replace root.path rights disk req ctx project dir)
          disk filenames ->
        Inside cwd (projectDir cwd root project) path
  | some (Route.download project file) =>
      forall path,
        (DownloadHandler.handle root.path rights env req ctx project file).opened =
          some path ->
        Inside cwd (projectDir cwd root project) path
  | _ => True

/-- Every file of the form that the mode allows to be opened leads into the
project. -/
def FormLeadsInto (cwd : List Str) (root : RootDir) (rights : RightsEnv)
    (disk : DiskView) (req : Request) (ctx : RequestContext) (mode : Mode)
    (project dir : Str) (filenames : List Str) : Prop :=
  AcceptsForm rights req ctx project ->
    forall filename, filename ∈ filenames ->
      (MultipartFormHandler.prepareBody disk mode
        (MultipartFormHandler.formDir root.path project dir)).opens disk
          filename = true ->
      LeadsInto [] (projectDir cwd root project) project
        (cStr (append dir filename))

def AsksInside (cwd : List Str) (root : RootDir) (rights : RightsEnv)
    (disk : DiskView) (req : Request) (ctx : RequestContext)
    (filenames : List Str) : Prop :=
  match Router.route req.target with
  | some (Route.upload project dir) =>
      FormLeadsInto cwd root rights disk req ctx Mode.add project dir filenames
  | some (Route.replace project dir) =>
      FormLeadsInto cwd root rights disk req ctx Mode.replace project dir filenames
  | some (Route.download project file) =>
      req.method = Verb.get -> Granted rights ctx project ProjectRights.read ->
        LeadsInto (resolved cwd root.path) (projectDir cwd root project) project
          (cStr file)
  | _ => True

theorem formConfined_iff {cwd : List Str} {root : RootDir} {rights : RightsEnv}
    {disk : DiskView} {req : Request} {ctx : RequestContext} {mode : Mode}
    {allowed : Verb} {project dir : Str} {filenames : List Str}
    (hslash : slash ∉ project) :
    (forall path, path ∈ formOpened
        (MultipartFormHandler.handleForm mode allowed root.path rights disk req
          ctx project dir) disk filenames ->
      Inside cwd (projectDir cwd root project) path) <->
      FormLeadsInto cwd root rights disk req ctx mode project dir filenames := by
  have hinside : forall filename,
      Inside cwd (projectDir cwd root project)
        ((MultipartFormHandler.prepareBody disk mode
          (MultipartFormHandler.formDir root.path project dir)).filePath
            filename) <->
        LeadsInto [] (projectDir cwd root project) project
          (cStr (append dir filename)) := by
    intro filename
    rw [← inside_formPath_iff cwd root (append dir filename) hslash,
      ← append_assoc]
    rfl
  unfold FormLeadsInto formOpened
  constructor
  · intro h haccepts filename hmem hopens
    have hbody : (MultipartFormHandler.handleForm mode allowed root.path rights
        disk req ctx project dir).bodyRead =
          some (MultipartFormHandler.prepareBody disk mode
            (MultipartFormHandler.formDir root.path project dir)) :=
      handleForm_bodyRead_iff.mpr ⟨haccepts, rfl⟩
    apply (hinside filename).mp
    apply h
    rw [hbody]
    exact List.mem_map_of_mem (List.mem_filter.mpr ⟨hmem, hopens⟩)
  · intro h path hpath
    split at hpath
    · cases hpath
    · rename_i target hbody
      rcases handleForm_bodyRead_iff.mp hbody with ⟨haccepts, rfl⟩
      rcases List.mem_map.mp hpath with ⟨filename, hfilename, rfl⟩
      rcases List.mem_filter.mp hfilename with ⟨hmem, hopens⟩
      exact (hinside filename).mpr (h haccepts filename hmem hopens)

/-- A request to the files of a project stays inside the project exactly when
what it may open leads there. -/
theorem projectConfined_iff (cwd : List Str) (root : RootDir)
    (rights : RightsEnv) (disk : DiskView) (env : FileEnv) (req : Request)
    (ctx : RequestContext) (filenames : List Str) :
    ProjectConfined cwd root rights disk env req ctx filenames <->
      AsksInside cwd root rights disk req ctx filenames := by
  unfold ProjectConfined AsksInside
  cases hroute : Router.route req.target with
  | none => exact Iff.rfl
  | some r =>
      cases r with
      | upload project dir =>
          exact formConfined_iff (segmentProject_route _ hroute _ rfl)
      | replace project dir =>
          exact formConfined_iff (segmentProject_route _ hroute _ rfl)
      | download project file =>
          have hinside := inside_downloadPath_iff cwd root file
            (segmentProject_route _ hroute _ rfl)
          constructor
          · intro h hget hgranted
            exact hinside.mp
              (h _ (handleDownload_opened_iff.mpr ⟨⟨hget, hgranted⟩, rfl⟩))
          · intro h path hpath
            rcases handleDownload_opened_iff.mp hpath with ⟨⟨hget, hgranted⟩, rfl⟩
            exact hinside.mpr (h hget hgranted)
      | webhooks apiProvider email project job queryString => exact Iff.rfl
      | root => exact Iff.rfl
      | files => exact Iff.rfl

/-- A reader of one project fetches a file of another. -/
theorem projectConfined_not_everywhere :
    ¬ forall cwd root rights disk env req ctx filenames,
      ProjectConfined cwd root rights disk env req ctx filenames := by
  intro h
  let root : RootDir :=
    { path := str "/cis/jobs", nonempty := by decide, noNul := by decide }
  let rights : RightsEnv :=
    { checkProjectRight := fun _ project =>
        if project = str "web" then
          Except.ok (some { read := true, write := false, execute := false })
        else
          Except.ok none }
  let disk : DiskView :=
    { isDirectory := fun _ => true, fileExists := fun _ => true }
  let env : FileEnv :=
    { openFile := fun _ => OpenResult.opened (str "key")
      mimeType := fun _ => str "application/text" }
  let req : Request :=
    { method := Verb.get
      target := str "/download/web/../vault/key"
      fields := []
      version := 11
      keepAlive := false }
  let ctx : RequestContext :=
    { clientInfo := some
        { email := str "dev@cis", activeToken := [], apiAccessKey := [] }
      cookies := []
      resStatus := Status.unknown
      allowedVerbs := []
      error := [] }
  have hroute : Router.route req.target =
      some (Route.download (str "web") (str "../vault/key")) := by
    decide
  have hconfined := h [] root rights disk env req ctx []
  simp only [ProjectConfined, hroute] at hconfined
  have hinside : Inside [] (projectDir [] root (str "web"))
      (str "/cis/jobs/web/../vault/key") :=
    hconfined _ (by decide)
  exact absurd hinside (by decide)

end Http
end CisWebui
