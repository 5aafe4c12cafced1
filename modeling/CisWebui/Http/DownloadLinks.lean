import CisWebui.Http.Confinement
import CisWebui.Websocket.Handlers

/-!
# Download links

`make_dir_entry` puts the path of an entry behind `/download` as it is, and a
request for the link is taken apart by the router.  Which links lead back to the
file they were made for.
-/

namespace CisWebui
namespace Http

open Cpp FilesystemPath

/-- A component of the path of a file. -/
structure Segment where
  text : Str
  nonempty : text ≠ []
  noSlash : slash ∉ text
  notHere : text ≠ str "."
  notUp : text ≠ str ".."

/-- A regular file inside a project. -/
structure ProjectFile where
  project : Segment
  first : Segment
  rest : List Segment
  executable : Bool

namespace Segment

/-- The segments with a slash in front of each. -/
def joined (segments : List Segment) : Str :=
  segments.flatMap fun segment => slash :: segment.text

/-- The segments appended to a path one by one. -/
def below (base : Str) (segments : List Segment) : Str :=
  segments.foldl (fun path segment => append path segment.text) base

theorem isAbsolute_text (segment : Segment) : isAbsolute segment.text = false :=
  isAbsolute_of_not_mem segment.noSlash

theorem isAbsolute_text_append (segment : Segment) (behind : Str) :
    isAbsolute (segment.text ++ behind) = false := by
  cases htext : segment.text with
  | nil => exact absurd htext segment.nonempty
  | cons c text =>
      have hfirst := segment.isAbsolute_text
      rw [htext] at hfirst
      exact hfirst

theorem endsInSlash_append_text (path : Str) (segment : Segment) :
    endsInSlash (path ++ segment.text) = false := by
  rw [endsInSlash_append segment.nonempty]
  apply Bool.eq_false_iff.mpr
  intro hslash
  rcases exists_of_endsInSlash hslash with ⟨q, hq⟩
  apply segment.noSlash
  rw [hq]
  simp

theorem append_text_ne_nil (path : Str) (segment : Segment) :
    path ++ segment.text ≠ [] := by
  intro h
  exact segment.nonempty (List.append_eq_nil_iff.mp h).right

/-- A path that takes a separator takes the segments as they are joined. -/
theorem below_of_not_endsInSlash (segments : List Segment) :
    forall {path : Str}, path ≠ [] -> endsInSlash path = false ->
      below path segments = path ++ joined segments := by
  induction segments with
  | nil =>
      intro path _ _
      exact (List.append_nil path).symm
  | cons segment rest ih =>
      intro path hne hslash
      have hhead : append path segment.text = path ++ [slash] ++ segment.text := by
        rw [append_eq_stem segment.isAbsolute_text, stem,
          if_neg (by simp [hne, hslash])]
      have hrest : below (append path segment.text) rest =
          append path segment.text ++ joined rest := by
        rw [hhead]
        exact ih (append_text_ne_nil _ segment) (endsInSlash_append_text _ segment)
      calc
        below path (segment :: rest)
            = append path segment.text ++ joined rest := hrest
        _ = path ++ joined (segment :: rest) := by
            rw [hhead, joined, joined, List.flatMap_cons]
            simp

theorem below_cons (path : Str) (segment : Segment) (rest : List Segment) :
    below path (segment :: rest) = stem path ++ segment.text ++ joined rest := by
  have hhead : append path segment.text = stem path ++ segment.text :=
    append_eq_stem segment.isAbsolute_text
  show below (append path segment.text) rest = _
  rw [hhead]
  exact below_of_not_endsInSlash rest (append_text_ne_nil _ segment)
    (endsInSlash_append_text _ segment)

theorem below_slash (segment : Segment) (rest : List Segment) :
    append (str "/") (below [] (segment :: rest)) = joined (segment :: rest) := by
  have hrelative : isAbsolute (below [] (segment :: rest)) = false := by
    rw [below_cons]
    exact segment.isAbsolute_text_append _
  calc
    append (str "/") (below [] (segment :: rest))
        = str "/" ++ ([] ++ segment.text ++ joined rest) := by
        rw [append_eq_stem hrelative, below_cons]
        rfl
    _ = joined (segment :: rest) := by
        rw [joined, joined, List.flatMap_cons]
        rfl

theorem endsInSlash_below (path : Str) (segments : List Segment)
    (hne : segments ≠ []) : endsInSlash (below path segments) = false := by
  induction segments generalizing path with
  | nil => exact absurd rfl hne
  | cons segment rest ih =>
      cases rest with
      | nil =>
          show endsInSlash (append path segment.text) = false
          rw [append_eq_stem segment.isAbsolute_text]
          exact endsInSlash_append_text _ segment
      | cons next rest => exact ih _ (List.cons_ne_nil next rest)

theorem names_below (segments : List Segment) (path : Str) :
    names (below path segments) = names path ++ segments.map Segment.text := by
  induction segments generalizing path with
  | nil => exact (List.append_nil _).symm
  | cons segment rest ih =>
      show names (below (append path segment.text) rest) = _
      rw [ih, names_append segment.isAbsolute_text,
        names_of_not_mem segment.noSlash, if_neg segment.nonempty,
        List.append_assoc]
      rfl

theorem isAbsolute_below (segments : List Segment) (path : Str) :
    isAbsolute (below path segments) = isAbsolute path := by
  induction segments generalizing path with
  | nil => rfl
  | cons segment rest ih =>
      show isAbsolute (below (append path segment.text) rest) = _
      rw [ih, isAbsolute_append, segment.isAbsolute_text, Bool.or_false]

end Segment

/-!
## The path in the link
-/

theorem mismatch_append (common as bs : List Str) :
    mismatch (common ++ as) (common ++ bs) = mismatch as bs := by
  induction common with
  | nil => rfl
  | cons c common ih =>
      rw [List.cons_append, List.cons_append, mismatch, if_pos rfl]
      exact ih

/-- Segments below a base lead back to themselves. -/
theorem lexicallyRelative_below (base : Str) (segment : Segment)
    (rest : List Segment) :
    lexicallyRelative (Segment.below base (segment :: rest)) base =
      Segment.below [] (segment :: rest) := by
  let texts := (segment :: rest).map Segment.text
  let common := (if isAbsolute base then [[slash]] else []) ++ names base
  have hentry : elements (Segment.below base (segment :: rest)) =
      common ++ texts := by
    rw [elements, Segment.isAbsolute_below, Segment.names_below,
      Segment.endsInSlash_below _ _ (List.cons_ne_nil _ _)]
    simp [common, texts]
  have htrailing : exists trailing, elements base = common ++ trailing ∧
      (trailing = [] ∨ trailing = [[]]) := by
    apply Exists.intro (if names base ≠ [] ∧ endsInSlash base then [[]] else [])
    constructor
    · rfl
    · split
      · exact Or.inr rfl
      · exact Or.inl rfl
  rcases htrailing with ⟨trailing, hbase, htrailing⟩
  have hmismatch : mismatch (elements (Segment.below base (segment :: rest)))
      (elements base) = (texts, trailing) := by
    rw [hentry, hbase, mismatch_append]
    rcases htrailing with rfl | rfl
    · rfl
    · show mismatch (segment.text :: rest.map Segment.text) [[]] = _
      rw [mismatch, if_neg segment.nonempty]
      rfl
  have hdepth : depth trailing = 0 := by
    rcases htrailing with rfl | rfl
    · rfl
    · rfl
  have htexts : ¬ (texts = [] ∨ texts = [[]]) := by
    rintro (h | h)
    · exact absurd h (List.cons_ne_nil _ _)
    · exact segment.nonempty (List.cons.inj h).left
  rw [lexicallyRelative, Segment.isAbsolute_below, if_neg (by simp), hmismatch]
  show (if depth trailing = 0 ∧ (texts = [] ∨ texts = [[]]) then str "."
    else if depth trailing < 0 then []
    else (List.replicate (depth trailing).toNat (str "..") ++ texts).foldl
      append []) = _
  rw [if_neg (by simp [htexts]), hdepth, if_neg (by decide)]
  show texts.foldl append [] = _
  rw [Segment.below, List.foldl_map]

namespace ProjectFile

def segments (file : ProjectFile) : List Segment :=
  file.project :: file.first :: file.rest

/-- The path of the file below the projects root. -/
def path (file : ProjectFile) : Str :=
  Segment.joined file.segments

/-- The file as an iteration of its directory finds it. -/
def entry (root : RootDir) (file : ProjectFile) : Websocket.DirEntry where
  path := Segment.below root.path file.segments
  kind := Websocket.EntryKind.regular file.executable

def link (root : RootDir) (file : ProjectFile) : Str :=
  (Websocket.makeDirEntry root.path (file.entry root)).link

/-- The path of the file below its project. -/
def inside (file : ProjectFile) : Str :=
  file.first.text ++ Segment.joined file.rest

theorem link_eq (root : RootDir) (file : ProjectFile) :
    file.link root = str "/download" ++ file.path := by
  show str "/download" ++ append (str "/") (lexicallyRelative
    (Segment.below root.path file.segments) root.path) = _
  rw [segments, lexicallyRelative_below, Segment.below_slash]
  rfl

theorem pathCat_path (root : RootDir) (file : ProjectFile) :
    pathCat root.path file.path = (file.entry root).path := by
  show pathCat root.path file.path = Segment.below root.path file.segments
  rw [segments, Segment.below_cons, pathCat, if_neg root.nonempty, stem, path,
    Segment.joined, segments, List.flatMap_cons]
  cases hslash : endsInSlash root.path with
  | true =>
      rcases exists_of_endsInSlash hslash with ⟨q, hq⟩
      rw [if_pos rfl, if_pos (Or.inr rfl), hq, List.dropLast_concat]
      simp [Segment.joined]
  | false =>
      rw [if_neg (by simp), if_neg (by simp [root.nonempty])]
      simp [Segment.joined]

theorem path_eq (file : ProjectFile) :
    file.path = str "/" ++ file.project.text ++ str "/" ++ file.inside := by
  simp [path, inside, segments, Segment.joined]
  rfl

end ProjectFile

/-!
## The route of a link
-/

namespace Router

theorem wholeString_eq_some_iff {text matched : Str} :
    wholeString text = some matched <->
      matched = text ∧ text ≠ [] ∧ text.all isAnyChar = true := by
  unfold wholeString
  split
  · rename_i h
    constructor
    · intro heq
      exact ⟨(Option.some.inj heq).symm, h⟩
    · rintro ⟨rfl, _⟩
      rfl
  · rename_i h
    constructor
    · intro heq
      cases heq
    · rintro ⟨_, h'⟩
      exact absurd h' h

/-- What the route of downloads matches. -/
theorem projectFile_download_iff {text project file : Str} :
    projectFile (str "download") (str "/download" ++ text) Route.download =
        some (Route.download project file) <->
      text = str "/" ++ project ++ str "/" ++ file ∧
        (project ≠ [] ∧ forall c, c ∈ project -> c ≠ chr '?' ∧ c ≠ slash) ∧
        file ≠ [] ∧ file.all isAnyChar = true := by
  constructor
  · intro h
    rcases Option.bind_eq_some_iff.mp h with ⟨behind, hbehind, h⟩
    rcases Option.bind_eq_some_iff.mp h with ⟨group, hgroup, h⟩
    rcases Option.bind_eq_some_iff.mp h with ⟨tail, htail, h⟩
    rcases Option.bind_eq_some_iff.mp h with ⟨whole, hwhole, h⟩
    cases h
    rcases wholeString_eq_some_iff.mp hwhole with ⟨rfl, hfile⟩
    rcases boundString_eq_some_iff.mp hgroup with ⟨rfl, hne, hbound, _⟩
    have hsuffix := literal_eq_some_iff.mp htail
    have htext := literal_eq_some_iff.mp hbehind
    constructor
    · have hwhole : str "/download" ++ text =
          str "/download" ++ (str "/" ++ group.matched ++ str "/" ++ file) := by
        rw [htext, hsuffix]
        simp [str]
      exact List.append_cancel_left hwhole
    · exact ⟨⟨hne, hbound⟩, hfile⟩
  · rintro ⟨rfl, ⟨hne, hbound⟩, hfile⟩
    have hbehind : literal (str "/" ++ str "download" ++ str "/")
        (str "/download" ++ (str "/" ++ project ++ str "/" ++ file)) =
          some (project ++ (str "/" ++ file)) := by
      rw [literal_eq_some_iff]
      simp [str]
    have hgroup : boundString (project ++ (str "/" ++ file)) =
        some { matched := project, suffix := str "/" ++ file } := by
      apply boundString_eq_some_iff.mpr
      refine ⟨rfl, hne, hbound, ?_⟩
      intro c hc
      exact Or.inr (Option.some.inj hc).symm
    have htail : literal (str "/") (str "/" ++ file) = some file :=
      literal_eq_some_iff.mpr rfl
    have hwhole : wholeString file = some file :=
      wholeString_eq_some_iff.mpr ⟨rfl, hfile⟩
    simp only [projectFile, hbehind, hgroup, htail, hwhole, Option.bind_eq_bind,
      Option.bind_some]
    rfl

/-- A target below `/download` goes to the route of downloads or is a static
file. -/
theorem route_download (target : Str) :
    route (str "/download" ++ target) =
      (projectFile (str "download") (str "/download" ++ unescapeUri target)
          Route.download <|>
        catchAll (str "/download" ++ unescapeUri target)) := by
  have hplain : forall c, c ∈ str "/download" -> c ≠ chr '+' ∧ c ≠ chr '%' :=
    List.all_iff_forall_prop.mp (by decide)
  unfold route
  rw [unescapeUri_append_of_forall hplain]
  rfl

theorem route_download_iff {target project file : Str} :
    route (str "/download" ++ target) = some (Route.download project file) <->
      projectFile (str "download") (str "/download" ++ unescapeUri target)
        Route.download = some (Route.download project file) := by
  rw [route_download]
  cases projectFile (str "download") (str "/download" ++ unescapeUri target)
      Route.download with
  | some r => exact Iff.rfl
  | none =>
      apply iff_of_false
      · intro h
        have hcatch : catchAll (str "/download" ++ unescapeUri target) =
            some (Route.download project file) := h
        generalize str "/download" ++ unescapeUri target = whole at hcatch
        rcases Option.bind_eq_some_iff.mp hcatch with ⟨rest, _, h⟩
        split at h
        · cases h
        · cases h
      · intro h
        cases h

end Router

/-!
## Links that open their file
-/

/-- A request for the link is passed to the handler of downloads, which opens
the file for everyone who may read the project it is asked for. -/
def LinkOpens (root : RootDir) (file : ProjectFile) : Prop :=
  exists project inside,
    Router.route (file.link root) = some (Route.download project inside) ∧
      forall rights env req ctx, req.method = Verb.get ->
        req.target = file.link root ->
        Granted rights ctx project ProjectRights.read ->
        (DownloadHandler.handle root.path rights env req ctx project
          inside).opened = some (file.entry root).path

/-- The path is unescaped to itself and given to the system uncut, and the
expression of the route matches it. -/
def PlainPath (file : ProjectFile) : Prop :=
  (chr '+' ∉ file.path ∧ hasEscape file.path = false) ∧ 0 ∉ file.path ∧
    chr '?' ∉ file.project.text ∧ file.inside.all Router.isAnyChar = true

instance (file : ProjectFile) : Decidable (PlainPath file) :=
  inferInstanceAs (Decidable (_ ∧ _))

/-- What the handler opens is decided by the path put together again. -/
theorem handleDownload_opens_iff {filesRoot : Str} {target path project file : Str} :
    (forall rights env req ctx, req.method = Verb.get -> req.target = target ->
        Granted rights ctx project ProjectRights.read ->
        (DownloadHandler.handle filesRoot rights env req ctx project
          file).opened = some path) <->
      cStr (pathCat filesRoot (DownloadHandler.projectPath project file)) =
        path := by
  constructor
  · intro h
    let rights : RightsEnv :=
      { checkProjectRight := fun _ _ =>
          Except.ok (some { read := true, write := false, execute := false }) }
    let env : FileEnv :=
      { openFile := fun _ => OpenResult.noSuchFile, mimeType := fun _ => [] }
    let req : Request :=
      { method := Verb.get
        target := target
        fields := []
        version := 11
        keepAlive := false }
    let ctx : RequestContext :=
      { clientInfo := some { email := [], activeToken := [], apiAccessKey := [] }
        cookies := []
        resStatus := Status.unknown
        allowedVerbs := []
        error := [] }
    have hgranted : Granted rights ctx project ProjectRights.read :=
      ⟨_, _, rfl, rfl, rfl⟩
    exact (handleDownload_opened_iff.mp
      (h rights env req ctx rfl rfl hgranted)).right
  · intro h rights env req ctx hget _ hgranted
    exact handleDownload_opened_iff.mpr ⟨⟨hget, hgranted⟩, h⟩

theorem pathCat_injective (root : RootDir) {p q : Str}
    (h : pathCat root.path p = pathCat root.path q) : p = q := by
  unfold pathCat at h
  rw [if_neg root.nonempty, if_neg root.nonempty] at h
  split at h
  · exact List.append_cancel_left h
  · exact List.append_cancel_left h

/-- The handler puts the two pieces together as they stood in the target, unless
the second one is absolute. -/
theorem projectPath_eq {project file : Str} (hne : project ≠ [])
    (hslash : slash ∉ project) (hfile : isAbsolute file = false) :
    DownloadHandler.projectPath project file =
      str "/" ++ project ++ str "/" ++ file := by
  have hhead : append (str "/") project = str "/" ++ project := by
    rw [append_eq_stem (isAbsolute_of_not_mem hslash)]
    rfl
  have hends : endsInSlash (str "/" ++ project) = false := by
    rw [endsInSlash_append hne]
    apply Bool.eq_false_iff.mpr
    intro hends
    rcases exists_of_endsInSlash hends with ⟨q, rfl⟩
    simp at hslash
  rw [DownloadHandler.projectPath, hhead, append_eq_stem hfile, stem,
    if_neg (by simp [hends, hne])]
  rfl

/-- The first slash behind a segment is where the segment ends. -/
theorem eq_of_append_slash {p q r s : Str} (hp : slash ∉ p) (hr : slash ∉ r)
    (h : p ++ slash :: q = r ++ slash :: s) : p = r ∧ q = s := by
  induction p generalizing r with
  | nil =>
      cases r with
      | nil => exact ⟨rfl, (List.cons.inj h).right⟩
      | cons d r =>
          have hd : slash = d := (List.cons.inj h).left
          exact absurd (by simp [hd]) hr
  | cons c p ih =>
      cases r with
      | nil =>
          have hc : c = slash := (List.cons.inj h).left
          exact absurd (by simp [hc]) hp
      | cons d r =>
          rcases List.cons.inj h with ⟨rfl, htail⟩
          rcases ih (fun hmem => hp (List.mem_cons_of_mem c hmem))
            (fun hmem => hr (List.mem_cons_of_mem c hmem)) htail with ⟨rfl, hq⟩
          exact ⟨rfl, hq⟩

/-- The pieces of an unescaped target give the path of the file only if the
target was that path. -/
theorem path_of_recombined {root : RootDir} {file : ProjectFile}
    {project inside : Str} (hne : project ≠ []) (hslash : slash ∉ project)
    (htarget : unescapeUri file.path =
      str "/" ++ project ++ str "/" ++ inside)
    (hopened : cStr (pathCat root.path
      (DownloadHandler.projectPath project inside)) = (file.entry root).path) :
    unescapeUri file.path = file.path ∧ 0 ∉ file.path := by
  have hcut : cStr (DownloadHandler.projectPath project inside) = file.path := by
    rw [cStr_pathCat, ← file.pathCat_path root] at hopened
    exact pathCat_injective root hopened
  have hprefix : file.path <+: DownloadHandler.projectPath project inside := by
    rw [← hcut]
    exact List.takeWhile_prefix _
  have hshort := length_unescapeUri_le file.path
  rw [htarget] at hshort
  cases hinside : isAbsolute inside with
  | true =>
      -- an absolute piece stands alone, and is shorter than the target
      have hlength := hprefix.length_le
      rw [DownloadHandler.projectPath, append_of_isAbsolute hinside] at hlength
      simp only [List.length_append] at hshort
      have hslash : 0 < (str "/").length := by
        decide
      omega
  | false =>
      rw [projectPath_eq hne hslash hinside] at hprefix
      have heq : file.path = str "/" ++ project ++ str "/" ++ inside :=
        hprefix.eq_of_length_le hshort
      constructor
      · rw [htarget, ← heq]
      · rw [← hcut]
        exact nul_not_mem_cStr _

theorem plainPath_of_linkOpens {root : RootDir} {file : ProjectFile}
    (h : LinkOpens root file) : PlainPath file := by
  rw [LinkOpens, file.link_eq] at h
  simp only [handleDownload_opens_iff, Router.route_download_iff,
    Router.projectFile_download_iff] at h
  rw [PlainPath, ← unescapeUri_eq_self_iff]
  rcases h with ⟨project, inside, ⟨htarget, ⟨hne, hbound⟩, _, hany⟩, hopened⟩
  have hslash : slash ∉ project := fun hmem => (hbound slash hmem).right rfl
  rcases path_of_recombined hne hslash htarget hopened with ⟨hplain, hnul⟩
  rw [hplain, file.path_eq] at htarget
  have hsplit : file.project.text ++ slash :: file.inside =
      project ++ slash :: inside := by
    rw [List.append_assoc, List.append_assoc, List.append_assoc,
      List.append_assoc] at htarget
    exact List.append_cancel_left htarget
  rcases eq_of_append_slash file.project.noSlash hslash hsplit with
    ⟨hproject, hinside⟩
  rw [hproject, hinside]
  refine ⟨hplain, hnul, ?_, hany⟩
  intro hmem
  exact (hbound _ hmem).left rfl

theorem linkOpens_of_plainPath {root : RootDir} {file : ProjectFile}
    (h : PlainPath file) : LinkOpens root file := by
  rw [PlainPath, ← unescapeUri_eq_self_iff] at h
  rw [LinkOpens, file.link_eq]
  simp only [handleDownload_opens_iff, Router.route_download_iff,
    Router.projectFile_download_iff]
  rcases h with ⟨hplain, hnul, hquery, hany⟩
  have hrelative : isAbsolute file.inside = false :=
    file.first.isAbsolute_text_append _
  have hinside : file.inside ≠ [] := by
    intro h
    exact file.first.nonempty (List.append_eq_nil_iff.mp h).left
  exists file.project.text
  exists file.inside
  constructor
  · constructor
    · rw [hplain, file.path_eq]
    constructor
    · constructor
      · exact file.project.nonempty
      · intro c hc
        constructor
        · rintro rfl
          exact hquery hc
        · rintro rfl
          exact file.project.noSlash hc
    · exact ⟨hinside, hany⟩
  · rw [projectPath_eq file.project.nonempty file.project.noSlash hrelative,
      ← file.path_eq, cStr_pathCat, cStr_of_noNul hnul, file.pathCat_path]

/-- A link opens its file exactly when the path has nothing in it that is
unescaped, cut, or left out by the route. -/
theorem linkOpens_iff (root : RootDir) (file : ProjectFile) :
    LinkOpens root file <-> PlainPath file :=
  ⟨plainPath_of_linkOpens, linkOpens_of_plainPath⟩

/-- The link to a file with a plus sign in its name asks for another file. -/
theorem linkOpens_not_everywhere :
    ¬ forall root file, LinkOpens root file := by
  intro h
  let root : RootDir :=
    { path := str "/cis/projects", nonempty := by decide, noNul := by decide }
  let project : Segment :=
    { text := str "web"
      nonempty := by decide
      noSlash := by decide
      notHere := by decide
      notUp := by decide }
  let name : Segment :=
    { text := str "a+b.log"
      nonempty := by decide
      noSlash := by decide
      notHere := by decide
      notUp := by decide }
  let file : ProjectFile :=
    { project := project, first := name, rest := [], executable := false }
  have hplain : ¬ PlainPath file := by
    decide
  exact hplain (plainPath_of_linkOpens (h root file))

end Http
end CisWebui
