import CisWebui.FsCacheRuns
import CisWebui.Websocket.ProjectDirectories

/-!
# Runs of projects and directories

The rows beside the directories through runs of requests, and what an
administrator gets done by them.
-/

namespace CisWebui
namespace Websocket

open Cpp FilesystemPath Foundation ProjectStore

/-!
## Runs
-/

namespace ProjectStore

/-- A request that leaves rows and directories in step: a project that is added
has a name that a directory can have, one that is removed has a name, and the
generic requests make, move and remove no directory in the root. -/
def Steady (root : RootDir) (s : ProjectStore) (e : TreeEvent) : Prop :=
  match e.request with
  | TreeRequest.projectAdd project =>
      FsCache.Ordinary project ∧
        MakesOnly root s.files (append (str "/") project) fun name => name = project
  | TreeRequest.projectRemove project _ => project ≠ []
  | TreeRequest.newDir path => MakesOnly root s.files path fun _ => False
  | TreeRequest.move oldPath newPath =>
      MovesNone root s.files (concat root.path oldPath) (concat root.path newPath)
  | TreeRequest.remove path => SparesDirectories root s.files (concat root.path path)

variable {validCron : Str -> Bool} {root : RootDir} {s : ProjectStore} {e : TreeEvent}

theorem unchanged_server (hrooted : Rooted root s.cache) : Unchanged root s s.server :=
  ⟨rfl, rfl, hrooted⟩

theorem kept_after (hs : InStep root s) (hrooted : Rooted root s.cache)
    (hsteady : Steady root s e) : Kept root (s.after validCron e) := by
  have h := unchanged_server hrooted
  rcases e with ⟨ctx, request, now, isDirectory⟩
  cases request with
  | projectAdd project =>
      rcases hsteady with ⟨hordinary, hmakes⟩
      rcases FsCache.ordinary_iff_exists.mp hordinary with ⟨name, rfl⟩
      exact kept_addCisProject hs hmakes h
  | projectRemove project hdecoded =>
      have hplain : PlainName project := by
        refine ⟨hsteady, ?_⟩
        simpa [validatePathFragment] using hdecoded
      exact kept_removeCisProject hplain hs h
  | newDir path => exact kept_newDirectory hs hsteady h
  | move oldPath newPath => exact kept_moveFsEntry hs hsteady h
  | remove path => exact kept_removeFsEntry hs hsteady h

/-- Right after the start the tree has the entries of the root. -/
theorem reloaded_started {files : FileSystem} (now : Int)
    (hroot : files.tree.IsDirectory (files.locate root.path)) :
    exists node, (FsNode.fresh now 4).update files.disk now invalidationTime root.path =
        (Except.ok (), node) ∧
      FsNode.Reloaded files now 4 (files.locate root.path) (FsNode.fresh now 4) node := by
  have hsettled : ¬ (FsNode.fresh now 4).Settled now invalidationTime := by
    rintro ⟨hstate, _⟩
    cases hstate
  exact FsNode.reloaded_update hsettled (FsNode.tidy_fresh now 4) (by decide) hroot

theorem mem_projectNames (root : RootDir) (now : Int) (files : FileSystem) (name : Str) :
    name ∈ projectNames files root.path
        ((FsNode.fresh now 4).update files.disk now invalidationTime root.path).2 <->
      exists entry : EntryName, entry.text = name ∧ HasDirectory root files name := by
  have hstatus : forall entry : EntryName,
      files.disk.status (cStr (append root.path entry.text)) = some FileType.directory <->
        HasDirectory root files entry.text := by
    intro entry
    rw [FileSystem.status_disk, files.locate_append root.noNul, Option.some_inj,
      FileSystem.fileType_eq_directory_iff]
    rfl
  have hlisted : forall node : FsNode, name ∈ projectNames files root.path node <->
      exists entry, entry ∈ node.children.map Prod.fst ∧ entry.text = name ∧
        HasDirectory root files name := by
    intro node
    unfold projectNames
    rw [List.mem_map]
    constructor
    · rintro ⟨entry, hmem, rfl⟩
      rcases List.mem_filter.mp hmem with ⟨hchild, hdir⟩
      exact ⟨entry, hchild, rfl, (hstatus entry).mp (by simpa using hdir)⟩
    · rintro ⟨entry, hchild, rfl, hdir⟩
      refine ⟨entry, List.mem_filter.mpr ⟨hchild, ?_⟩, rfl⟩
      simpa using (hstatus entry).mpr hdir
  rw [hlisted]
  constructor
  · rintro ⟨entry, _, hname, hdir⟩
    exact ⟨entry, hname, hdir⟩
  · rintro ⟨entry, rfl, hdir⟩
    have hroot : files.tree.IsDirectory (files.locate root.path) :=
      FileTree.isDirectory_of_exists_append [entry.text] (by simp) hdir.exists
    rcases reloaded_started now hroot with ⟨node, hupdate, hreloaded⟩
    rw [hupdate]
    refine ⟨entry, ?_, rfl, hdir⟩
    have hchild := hreloaded.present entry hdir.exists
    exact List.mem_map_of_mem (FsNode.mem_of_child hchild)

theorem started_inStep (root : RootDir) (now : Int) (files : FileSystem)
    (database : Database) : InStep root (started root now files database) := by
  intro name
  unfold started
  rw [CisManager.live_refreshProjects, mem_projectNames]

def rootSettings (root : RootDir) : CacheSettings where
  root := root
  maxCachingLevel := 4
  invalidationTime := invalidationTime
  levels := by decide
  time := by decide

theorem describes_started (root : RootDir) (now : Int) (files : FileSystem)
    (database : Database) :
    (rootSettings root).Describes (started root now files database).cache where
  path := rfl
  levels := rfl
  time := rfl
  tidy := FsNode.tidy_update files now invalidationTime root.path (FsNode.tidy_fresh now 4)

/-- A directory in the root is found after the start, at any time. -/
theorem found_started {files : FileSystem} (now : Int) (database : Database)
    {name : EntryName} (hdir : HasDirectory root files name.text) (then' : Int) :
    ((started root now files database).cache.find files.disk then'
      (slash :: name.text)).1 = Except.ok (some (Found.node [name])) := by
  have hcache := describes_started root now files database
  let path : ValidPath :=
    { text := slash :: name.text
      absolute := rfl }
  have hparts : FsCache.parts path.text = [name.text] :=
    parts_of_plainName ⟨name.nonempty, name.noSlash⟩
  have hordinary : forall part, part ∈ FsCache.parts path.text -> FsCache.Ordinary part := by
    intro part hpart
    rw [hparts, List.mem_singleton] at hpart
    exact FsCache.ordinary_iff_exists.mpr ⟨name, hpart.symm⟩
  have hnames : [name].map EntryName.text =
      (started root now files database).cache.treeParts path.text := by
    rw [FsCache.treeParts, hparts]
    rfl
  have hexists : files.tree.Exists (files.locate
      (concat (started root now files database).cache.path path.text)) := by
    have hname : [name].map EntryName.text = FsCache.parts path.text := hparts.symm
    rw [FsCache.locate_of_names hcache path hname]
    exact hdir.exists
  have hroot : files.tree.IsDirectory (files.locate root.path) :=
    FileTree.isDirectory_of_exists_append [name.text] (by simp) hdir.exists
  have hopen : ¬ (started root now files database).cache.Blocked then'
      (started root now files database).cache.root
      ((started root now files database).cache.treeParts path.text) := by
    rcases reloaded_started now hroot with ⟨node, hupdate, hreloaded⟩
    have hnode : (started root now files database).cache.root = node := by
      show ((FsNode.fresh now 4).update _ _ _ _).2 = node
      rw [hupdate]
    rw [← hnames, List.map_singleton, FsCache.Blocked, hnode,
      hreloaded.present name hdir.exists]
    intro h
    exact h.right
  rcases FsCache.find_of_not_blocked hcache hnames hordinary hexists hopen with
    ⟨found, cache, hfind, _, ⟨_, rfl⟩ | ⟨hlong, _⟩⟩
  · exact congrArg Prod.fst hfind
  · have hlevels : 4 <= (FsCache.parts path.text).length := hlong
    rw [hparts, List.length_singleton] at hlevels
    omega

/-- On the way of names from the root to a path only the first one is directly in
the root. -/
theorem makesOnly_of_names {files : FileSystem} {path : Str} {allowed : Str -> Prop}
    (habsolute : isAbsolute root.path = true) {names : List Str}
    (hnames : components (cStr (concat root.path path)) =
      (files.locate root.path ++ names).map Component.name)
    (hfirst : forall name, names.head? = some name ->
      files.tree.Exists (files.locate root.path ++ [name]) ∨ allowed name) :
    MakesOnly root files path allowed := by
  intro done name rest entry hpath hplace
  rw [isAbsolute_concat, habsolute, if_pos rfl] at hplace
  rw [hnames] at hpath
  rcases List.map_eq_append_iff.mp hpath with ⟨before, behind, hsplit, rfl, hbehind⟩
  rcases List.map_eq_cons_iff.mp hbehind with ⟨first, later, rfl, hfirst', _⟩
  cases hfirst'
  have hlast : before ++ [name] = files.locate root.path ++ [entry.text] := by
    rw [← hplace, ← List.map_singleton, ← List.map_append,
      FileSystem.resolve_names, List.nil_append]
  have hhead : names = entry.text :: later := by
    refine @List.append_cancel_left _ (files.locate root.path) _ _ ?_
    rw [hsplit, ← List.singleton_append, ← List.append_assoc, hlast, List.append_assoc,
      List.singleton_append]
  apply hfirst
  rw [hhead, List.head?_cons]

/-!
## Requests of an administrator
-/

section Administrators

variable {now : Op -> Int} {isDirectory : Bool} {w : Server Holdings} {email : Str}
  {project : Str} {rest : List Str} {right : ProjectRights -> Bool}

theorem run_isAdmin
    (hadmin : RightsManager.isAdmin none email w.outer.database = Except.ok true) :
    (isAdmin email).run (managers now isDirectory) w = (Except.ok (Except.ok true), w) := by
  rw [← hadmin]
  rfl

theorem isAdmin_onlyProjects {database database' : Database}
    (h : CisManager.OnlyProjects database database') (email : Str) :
    RightsManager.isAdmin none email database' =
      RightsManager.isAdmin none email database := by
  unfold RightsManager.isAdmin AuthManager.withEmail
  rw [h.users]

/-- An administrator may do anything to a path that names a project. -/
theorem run_withPathRight_admin {path : Str} {action : Handler}
    (hadmin : RightsManager.isAdmin none email w.outer.database = Except.ok true)
    (hproject : elements path = [slash] :: project :: rest)
    (hright : right RightsManager.allRights = true) :
    (withPathRight email path right action).run (managers now isDirectory) w =
      action.run (managers now isDirectory) w := by
  have hrights : (getPathRights email path).run (managers now isDirectory) w =
      (Except.ok (Except.ok (some RightsManager.allRights)), w) := by
    unfold getPathRights
    rw [hproject]
    dsimp only
    rw [Program.run_bind, run_isAdmin hadmin]
    rfl
  have hallows : allows right (some RightsManager.allRights) = true := hright
  unfold withPathRight
  rw [Program.run_bind, hrights]
  dsimp only [checkEc]
  rw [if_pos hallows]

theorem checkProjectRight_admin {database : Database}
    (hadmin : RightsManager.isAdmin none email database = Except.ok true)
    (hlive : CisManager.Live database project) :
    RightsManager.checkProjectRight none email project database =
      Except.ok (some RightsManager.allRights) := by
  rcases hlive with ⟨found, hfound, rfl, _⟩
  unfold RightsManager.isAdmin at hadmin
  unfold RightsManager.checkProjectRight
  rw [RightsManager.withName_of_mem hfound]
  split at hadmin
  · rename_i user huser
    have hrow : user.row.admin = true := Except.ok.inj hadmin
    rw [huser]
    dsimp only
    rw [if_pos hrow]
    rfl
  · cases Except.ok.inj hadmin

/-- And so to a project that is there. -/
theorem run_withRight_admin {β : Type} {b : β} {missing : Handler} {action : β -> Handler}
    (hadmin : RightsManager.isAdmin none email w.outer.database = Except.ok true)
    (hlive : CisManager.Live w.outer.database project)
    (hright : right RightsManager.allRights = true) :
    (withRight email project right (some b) missing action).run (managers now isDirectory) w =
      (action b).run (managers now isDirectory) w := by
  have hasked : (checkProjectRight email project).run (managers now isDirectory) w =
      (Except.ok (Except.ok (some RightsManager.allRights)), w) := by
    rw [← checkProjectRight_admin hadmin hlive]
    rfl
  have hallows : allows right (some RightsManager.allRights) = true := hright
  unfold withRight
  rw [Program.run_bind, hasked]
  dsimp only [checkEc]
  rw [if_pos hallows]

variable (now) in
/-- A lookup does not find a project whose entry is not a directory. -/
theorem perform_missingProject (project : Str) (w : Server Holdings) :
    exists cache, (managers now false).perform (Op.call (Call.getProjectInfo project)) w =
        (Except.ok none, { w with cache := cache }) ∧
      FsCache.SameSettings w.cache cache := by
  rcases find_cases (now (Op.call (Call.getProjectInfo project))) (slash :: project) w with
    ⟨found, cache, hfind, hsame, _⟩
  refine ⟨cache, ?_, hsame⟩
  show w.getProject _ false project = _
  unfold Server.getProject
  rw [hfind]
  cases found with
  | none => rfl
  | some found => rfl

/-- What is found for a project is kept until the project is removed. -/
theorem perform_foundProject {found : Found}
    (h : (w.cache.find w.outer.files.disk (now (Op.call (Call.getProjectInfo project)))
      (slash :: project)).1 = Except.ok (some found)) :
    exists entry cache,
      (managers now true).perform (Op.call (Call.getProjectInfo project)) w =
        (Except.ok (some entry),
          { w with outer := { w.outer with project := some found }, cache := cache }) ∧
      FsCache.SameSettings w.cache cache := by
  rcases find_cases (now (Op.call (Call.getProjectInfo project))) (slash :: project) w with
    ⟨answer, cache, hfind, hsame, hanswer⟩
  rw [hanswer] at h
  cases h
  let entry := Server.dirEntry (site (now (Op.call (Call.getProjectInfo project))))
    { w with cache := cache } found
  refine ⟨entry, cache, ?_, hsame⟩
  show w.getProject _ true project = _
  unfold Server.getProject
  rw [hfind]
  rfl

/-- A request whose handler has been run to a success. -/
theorem step_of_after {t : ProjectStore} {success : Success}
    (hafter : s.after validCron e = w)
    (hreplied : w.outer.replied = some (Reply.success success)) (ht : ofServer w = t) :
    step validCron s e = some t := by
  unfold step
  rw [hafter]
  dsimp only
  rw [hreplied, ht]
  rfl

variable {ctx : RequestContext} {client : ClientInfo} {files : FileSystem}

/-- An administrator may make a directory anywhere below the root. -/
theorem step_newDir {path : Str} (hclient : ctx.clientInfo = some client)
    (hadmin : RightsManager.isAdmin none client.email s.database = Except.ok true)
    (hvalid : validatePath path = true)
    (hproject : elements path = [slash] :: project :: rest)
    (hmade : s.files.createDirectories (concat s.cache.path path) = some files) :
    exists cache, step validCron s
        { ctx := ctx
          request := TreeRequest.newDir path
          now := now
          isDirectory := isDirectory } =
      some { files := files, database := s.database, cache := cache } := by
  have happly : (Effect.createDirectories (s.server.below path)).apply
      s.server.outer.files = some files := hmade
  rcases change_made (now (Op.call (Call.createDirectory path))) [path] happly with
    ⟨cache, hchange, _⟩
  have hcall : Program.run (managers now isDirectory)
      (call (Call.createDirectory path) : Action (Cached (Fallible Unit))) s.server =
        (Except.ok (Except.ok (Except.ok ())), _) := run_call hchange
  have hafter : s.after validCron
      { ctx := ctx
        request := TreeRequest.newDir path
        now := now
        isDirectory := isDirectory } =
      { s.server with
        outer :=
          { s.server.outer with
            files := files
            replied := some (Reply.success Success.fsEntryNewDir) }
        cache := cache } := by
    show ((newDirectory ctx path).run (managers now isDirectory) s.server).2 = _
    unfold newDirectory withPath
    rw [hclient]
    dsimp only
    rw [if_pos hvalid, run_withPathRight_admin hadmin hproject rfl, run_surely_ok hcall]
    rfl
  exact ⟨cache, step_of_after hafter rfl rfl⟩

/-- And move what is below a project to below a project. -/
theorem step_move {oldPath newPath oldProject newProject : Str}
    {oldRest newRest : List Str} (hclient : ctx.clientInfo = some client)
    (hadmin : RightsManager.isAdmin none client.email s.database = Except.ok true)
    (hvalid : (validatePath oldPath && validatePath newPath) = true)
    (hold : elements oldPath = [slash] :: oldProject :: oldRest)
    (hnew : elements newPath = [slash] :: newProject :: newRest)
    (hmoved : s.files.rename (concat s.cache.path oldPath) (concat s.cache.path newPath) =
      some files) :
    exists cache, step validCron s
        { ctx := ctx
          request := TreeRequest.move oldPath newPath
          now := now
          isDirectory := isDirectory } =
      some { files := files, database := s.database, cache := cache } := by
  have happly : (Effect.rename (s.server.below oldPath) (s.server.below newPath)).apply
      s.server.outer.files = some files := hmoved
  rcases change_made (now (Op.call (Call.moveEntry oldPath newPath))) [oldPath, newPath]
    happly with ⟨cache, hchange, _⟩
  have hcall : Program.run (managers now isDirectory)
      (call (Call.moveEntry oldPath newPath) : Action (Cached (Fallible Unit))) s.server =
        (Except.ok (Except.ok (Except.ok ())), _) := run_call hchange
  have hafter : s.after validCron
      { ctx := ctx
        request := TreeRequest.move oldPath newPath
        now := now
        isDirectory := isDirectory } =
      { s.server with
        outer :=
          { s.server.outer with
            files := files
            replied := some (Reply.success Success.fsEntryMove) }
        cache := cache } := by
    show ((moveFsEntry ctx oldPath newPath).run (managers now isDirectory) s.server).2 = _
    unfold moveFsEntry withPath moveEntry
    rw [hclient]
    dsimp only
    rw [if_pos hvalid, run_withPathRight_admin hadmin hold rfl,
      run_withPathRight_admin hadmin hnew rfl, run_surely_ok hcall]
    rfl
  exact ⟨cache, step_of_after hafter rfl rfl⟩

/-- And add a project that is not found to be a directory. -/
theorem step_projectAdd (hclient : ctx.clientInfo = some client)
    (hadmin : RightsManager.isAdmin none client.email s.database = Except.ok true)
    (hmade : s.files.createDirectories
      (concat s.cache.path (append (str "/") project)) = some files) :
    exists database cache, step validCron s
        { ctx := ctx
          request := TreeRequest.projectAdd project
          now := now
          isDirectory := false } =
      some { files := files, database := database, cache := cache } ∧
      CisManager.OnlyProjects s.database database ∧
      cache.path = s.cache.path := by
  rcases CisManager.live_createProject project s.database with ⟨database, hcreate, _⟩
  have honly := CisManager.onlyProjects_createProject none (Except.ok ()) project s.database
  rw [hcreate] at honly
  rcases perform_missingProject now project s.server with ⟨looked, hlookup, hlooked⟩
  let w : Server Holdings := { s.server with cache := looked }
  have happly : (Effect.createDirectories (w.below (append (str "/") project))).apply
      w.outer.files = some files := by
    show s.files.createDirectories (concat looked.path _) = _
    rw [hlooked.left]
    exact hmade
  rcases change_made (now (Op.call (Call.createProject project)))
    [append (str "/") project] happly with ⟨cache, hchange, hsame⟩
  have hperform : (managers now false).perform (Op.call (Call.createProject project)) w =
      (Except.ok (Except.ok ()),
        { w with
          outer := { w.outer with files := files, database := database }
          cache := cache }) := by
    show w.createProject _ project = _
    unfold Server.createProject
    dsimp only
    rw [hchange]
    dsimp only
    have hcreate : CisManager.createProject none (Except.ok ()) project w.outer.database =
        (Except.ok (), database) := hcreate
    rw [hcreate]
    rfl
  have hafter : s.after validCron
      { ctx := ctx
        request := TreeRequest.projectAdd project
        now := now
        isDirectory := false } =
      { s.server with
        outer :=
          { s.server.outer with
            files := files
            database := database
            replied := some (Reply.success Success.cisProjectAdd) }
        cache := cache } := by
    show ((addCisProject ctx project).run (managers now false) s.server).2 = _
    unfold addCisProject
    rw [hclient]
    dsimp only
    rw [run_surely_ok (run_call hlookup)]
    dsimp only
    have hadmin : RightsManager.isAdmin none client.email w.outer.database =
        Except.ok true := hadmin
    rw [Program.run_bind, run_isAdmin hadmin]
    dsimp only [checkEc]
    rw [if_pos rfl, run_surely_ok (run_call hperform)]
    rfl
  exact ⟨database, cache, step_of_after hafter rfl rfl, honly,
    hsame.left.trans hlooked.left⟩

/-- And remove one that is found. -/
theorem step_projectRemove {name : EntryName} (hclient : ctx.clientInfo = some client)
    (hadmin : RightsManager.isAdmin none client.email s.database = Except.ok true)
    (hlive : CisManager.Live s.database name.text)
    (hdecoded : validatePathFragment name.text = true)
    (hfound : (s.cache.find s.files.disk (now (Op.call (Call.getProjectInfo name.text)))
      (slash :: name.text)).1 = Except.ok (some (Found.node [name]))) :
    exists database cache, step validCron s
        { ctx := ctx
          request := TreeRequest.projectRemove name.text hdecoded
          now := now
          isDirectory := true } =
      some
        { files := s.files.removeAll (append s.cache.path name.text)
          database := database
          cache := cache } ∧
      CisManager.OnlyProjects s.database database ∧
      cache.path = s.cache.path := by
  rcases perform_foundProject hfound (w := s.server) with ⟨entry, looked, hlookup, hlooked⟩
  let w : Server Holdings :=
    { s.server with
      outer := { s.server.outer with project := some (Found.node [name]) }
      cache := looked }
  have hlive : CisManager.Live w.outer.database name.text := hlive
  have hadmin : RightsManager.isAdmin none client.email w.outer.database =
      Except.ok true := hadmin
  have hperform : (managers now true).perform (Op.call (Call.removeProject entry)) w =
      (Except.ok (Except.ok ()), (w.removeProject entry).2) := rfl
  have hafter : s.after validCron
      { ctx := ctx
        request := TreeRequest.projectRemove name.text hdecoded
        now := now
        isDirectory := true } =
      { (w.removeProject entry).2 with
        outer :=
          { (w.removeProject entry).2.outer with
            replied := some (Reply.success Success.cisProjectRemove) } } := by
    show ((removeCisProject ctx name.text).run (managers now true) s.server).2 = _
    unfold removeCisProject
    rw [hclient]
    dsimp only
    rw [run_surely_ok (run_call hlookup), run_withRight_admin hadmin hlive rfl,
      run_surely_ok (run_call hperform)]
    rfl
  have hplace : looked.foundPath (Found.node [name]) = append s.cache.path name.text :=
    hlooked.foundPath_eq _
  refine ⟨(w.removeProject entry).2.outer.database, (w.removeProject entry).2.cache,
    step_of_after hafter rfl ?_, ?_, ?_⟩
  · rw [← hplace]
    rfl
  · exact CisManager.onlyProjects_removeProject none _ _
  · have hcache : FsCache.SameSettings looked (w.removeProject entry).2.cache :=
      (FsCache.sameSettings_alterFound looked FsNode.remove (Found.node [name])).trans
        (FsCache.sameSettings_alterFound _ FsNode.invalidate (Found.node []))
    exact hcache.left.trans hlooked.left

end Administrators

/-!
## The rows along a run
-/

/-- The rows that are not deleted stay those of the directories in the root, as
long as every request leaves them in step. -/
theorem inStep_of_steady (validCron : Str -> Bool) (root : RootDir) (now : Int)
    (files : FileSystem) (database : Database) (es : List TreeEvent)
    (h : (system validCron root now files database).EveryStep (Steady root)
      (started root now files database) es) :
    (system validCron root now files database).EveryState (InStep root)
      (started root now files database) es := by
  have hstep : forall s e t, InStep root s ∧ Rooted root s.cache -> Steady root s e ->
      (system validCron root now files database).step s e = some t ->
      InStep root t ∧ Rooted root t.cache := by
    rintro s e t ⟨hs, hrooted⟩ hsteady hstep
    have hkept : Kept root (s.after validCron e) := kept_after hs hrooted hsteady
    have hafter : (if succeeded (s.after validCron e).outer.replied then
        some (ofServer (s.after validCron e)) else none) = some t := hstep
    split at hafter
    · cases hafter
      exact ⟨hkept.inStep, hkept.rooted⟩
    · cases hafter
  apply EventSystem.everyState_mono (P := fun s => InStep root s ∧ Rooted root s.cache)
  · intro s hs
    exact hs.left
  · exact EventSystem.everyState_of_everyStep hstep
      ⟨started_inStep root now files database, rfl, rfl⟩ h

/-- A directory that is made in the root without a project has no row. -/
theorem not_inStep_of_made {files : FileSystem} {cache : FsCache} (hs : InStep root s)
    {name : EntryName} (hmissing : ¬ HasDirectory root s.files name.text)
    (hmade : s.files.createDirectories
      (concat root.path (append (str "/") name.text)) = some files) :
    ¬ InStep root { files := files, database := s.database, cache := cache } := by
  intro h
  have hlive : CisManager.Live s.database name.text :=
    (h name.text).mpr ⟨name, rfl, hasDirectory_made hmade⟩
  rcases (hs name.text).mp hlive with ⟨_, _, hdir⟩
  exact hmissing hdir

/-!
## An administrator
-/

def sampleRoot : RootDir where
  path := str "/p"
  nonempty := by decide
  noNul := by decide

/-- The root with one project in it. -/
def sampleFiles : FileSystem where
  tree :=
    (FileTree.bare.add [] (str "p") FileKind.directory (by decide)).add [str "p"]
      (str "x") FileKind.directory (by decide)
  cwd := []

def sampleDatabase : Database :=
  (Database.empty.init none (str "root") (str "secret")).2

/-- A request of the administrator. -/
def sampleEvent (request : TreeRequest) (isDirectory : Bool) : TreeEvent where
  ctx :=
    { clientInfo := some
        { email := str "root", activeToken := str "t", apiAccessKey := [] }
      cookies := []
      resStatus := Status.unknown
      allowedVerbs := []
      error := [] }
  request := request
  now _ := 0
  isDirectory := isDirectory

def sampleNewDir (path : Str) : TreeEvent :=
  sampleEvent (TreeRequest.newDir path) true

theorem isAdmin_started (root : RootDir) (now : Int) (files : FileSystem)
    (database : Database) (email : Str) :
    RightsManager.isAdmin none email (started root now files database).database =
      RightsManager.isAdmin none email database :=
  isAdmin_onlyProjects (CisManager.onlyProjects_refreshProjects none _ database) email

theorem step_sampleNewDir {path : Str} {project : Str} {rest : List Str}
    (hvalid : validatePath path = true)
    (hproject : elements path = [slash] :: project :: rest) {files : FileSystem}
    (hmade : sampleFiles.createDirectories (concat sampleRoot.path path) = some files) :
    exists cache, step (fun _ => true) (started sampleRoot 0 sampleFiles sampleDatabase)
        (sampleNewDir path) =
      some
        { files := files
          database := (started sampleRoot 0 sampleFiles sampleDatabase).database
          cache := cache } := by
  have hadmin : RightsManager.isAdmin none (str "root")
      (started sampleRoot 0 sampleFiles sampleDatabase).database = Except.ok true := by
    rw [isAdmin_started]
    decide
  have hclient : (sampleNewDir path).ctx.clientInfo = some
      { email := str "root", activeToken := str "t", apiAccessKey := [] } := rfl
  exact step_newDir hclient hadmin hvalid hproject hmade

/-- Two projects, and a directory in the first one. -/
def sampleProjects : FileSystem where
  tree :=
    (sampleFiles.tree.add [str "p", str "x"] (str "a") FileKind.directory
      (by decide)).add [str "p"] (str "z") FileKind.directory (by decide)
  cwd := []

def sampleProject : EntryName where
  text := str "z"
  nonempty := by decide
  noSlash := by decide
  noNul := by decide
  notHere := by decide
  notUp := by decide

def sampleEvents : List TreeEvent :=
  [ sampleEvent (TreeRequest.projectRemove sampleProject.text (by decide)) true,
    sampleEvent (TreeRequest.projectAdd (str "y")) false,
    sampleEvent (TreeRequest.move (str "/x/a") (str "/x/b")) true ]

theorem steady_sampleEvents (s : ProjectStore) {e : TreeEvent} (he : e ∈ sampleEvents) :
    Steady sampleRoot s e := by
  rcases List.mem_cons.mp he with rfl | he
  · exact List.cons_ne_nil _ _
  rcases List.mem_cons.mp he with rfl | he
  · refine ⟨by decide, ?_⟩
    have hnames : components (cStr (concat sampleRoot.path
        (append (str "/") (str "y")))) =
        (s.files.locate sampleRoot.path ++ [str "y"]).map Component.name := rfl
    apply makesOnly_of_names (by decide) hnames
    intro name hname
    cases hname
    exact Or.inr rfl
  cases List.mem_singleton.mp he
  -- both paths are longer than that of an entry of the root
  have hold : s.files.locate (concat sampleRoot.path (str "/x/a")) =
      [str "p", str "x", str "a"] := rfl
  have hnew : s.files.locate (concat sampleRoot.path (str "/x/b")) =
      [str "p", str "x", str "b"] := rfl
  refine Or.inr ⟨?_, ?_⟩
  · intro entry _ hprefix
    rw [hold] at hprefix
    have hlength := hprefix.length_le
    rw [List.length_append] at hlength
    have htwo : 3 <= 1 + 1 := hlength
    omega
  · intro entry rest hbelow _
    rw [hnew] at hbelow
    have hlength := congrArg List.length hbelow
    rw [List.length_append, List.length_append] at hlength
    have htwo : 1 + 1 = 3 + rest.length := hlength
    omega

/-- All three requests succeed. -/
theorem runFrom_sampleEvents {M : EventSystem ProjectStore TreeEvent}
    (hM : M.step = step validCron) (hfiles : s.files = sampleProjects)
    (hpath : s.cache.path = str "/p")
    (hadmin : RightsManager.isAdmin none (str "root") s.database = Except.ok true)
    (hlive : CisManager.Live s.database sampleProject.text)
    (hfound : (s.cache.find s.files.disk 0 (slash :: sampleProject.text)).1 =
      Except.ok (some (Found.node [sampleProject]))) :
    exists t, M.runFrom s sampleEvents = some t := by
  have hclient : (sampleNewDir []).ctx.clientInfo = some
      { email := str "root", activeToken := str "t", apiAccessKey := [] } := rfl
  have hdone : (((sampleProjects.removeAll
      (append (str "/p") sampleProject.text)).createDirectories
        (concat (str "/p") (append (str "/") (str "y")))).bind fun files =>
          files.rename (concat (str "/p") (str "/x/a"))
            (concat (str "/p") (str "/x/b"))).isSome = true := by
    decide
  rcases Option.isSome_iff_exists.mp hdone with ⟨moved, hdone⟩
  rcases Option.bind_eq_some_iff.mp hdone with ⟨made, hmade, hmoved⟩
  have hremove : exists database cache, step validCron s
      (sampleEvent (TreeRequest.projectRemove sampleProject.text (by decide)) true) =
        some
          { files := s.files.removeAll (append s.cache.path sampleProject.text)
            database := database
            cache := cache } ∧
      CisManager.OnlyProjects s.database database ∧ cache.path = s.cache.path := by
    apply step_projectRemove hclient hadmin hlive
    exact hfound
  rcases hremove with ⟨database, cache, hremove, honly, hkept⟩
  rw [hfiles, hpath] at hremove
  have hadmin := (isAdmin_onlyProjects honly (str "root")).trans hadmin
  have hadd : exists database' cache', step validCron
      { files := sampleProjects.removeAll (append (str "/p") sampleProject.text)
        database := database
        cache := cache }
      (sampleEvent (TreeRequest.projectAdd (str "y")) false) =
        some { files := made, database := database', cache := cache' } ∧
      CisManager.OnlyProjects database database' ∧ cache'.path = cache.path := by
    apply step_projectAdd hclient hadmin
    rw [hkept, hpath]
    exact hmade
  rcases hadd with ⟨database', cache', hadd, honly', hkept'⟩
  have hadmin := (isAdmin_onlyProjects honly' (str "root")).trans hadmin
  have hmove : exists cache'', step validCron
      { files := made, database := database', cache := cache' }
      (sampleEvent (TreeRequest.move (str "/x/a") (str "/x/b")) true) =
        some { files := moved, database := database', cache := cache'' } := by
    apply step_move hclient hadmin (by decide) rfl rfl
    rw [hkept', hkept, hpath]
    exact hmoved
  rcases hmove with ⟨cache'', hmove⟩
  refine ⟨{ files := moved, database := database', cache := cache'' }, ?_⟩
  rw [sampleEvents, EventSystem.runFrom_cons, hM, hremove, Option.bind_some,
    EventSystem.runFrom_cons, hM, hadd, Option.bind_some, EventSystem.runFrom_cons, hM,
    hmove, Option.bind_some, EventSystem.runFrom_nil]

/-- A project is removed, another one is added, and a directory is moved. -/
theorem inStep_of_steady_sample :
    (exists s, (system (fun _ => true) sampleRoot 0 sampleProjects sampleDatabase).runFrom
      (started sampleRoot 0 sampleProjects sampleDatabase) sampleEvents = some s) ∧
    (system (fun _ => true) sampleRoot 0 sampleProjects sampleDatabase).EveryState
      (InStep sampleRoot) (started sampleRoot 0 sampleProjects sampleDatabase)
      sampleEvents := by
  constructor
  · have hdir : HasDirectory sampleRoot sampleProjects sampleProject.text := by
      unfold HasDirectory
      decide
    have hlive := (started_inStep sampleRoot 0 sampleProjects sampleDatabase _).mpr
      ⟨sampleProject, rfl, hdir⟩
    have hadmin : RightsManager.isAdmin none (str "root")
        (started sampleRoot 0 sampleProjects sampleDatabase).database = Except.ok true := by
      rw [isAdmin_started]
      decide
    exact runFrom_sampleEvents rfl rfl rfl hadmin hlive
      (found_started 0 sampleDatabase hdir 0)
  · apply inStep_of_steady
    apply EventSystem.everyStep_of_forall
    exact fun s e he => steady_sampleEvents s he

/-- A directory in the root. -/
theorem inStep_not_everywhere :
    ¬ forall validCron root now files database es,
      (system validCron root now files database).EveryState (InStep root)
        (started root now files database) es := by
  intro h
  let name : EntryName :=
    { text := str "y"
      nonempty := by decide
      noSlash := by decide
      noNul := by decide
      notHere := by decide
      notUp := by decide }
  have hmissing : ¬ HasDirectory sampleRoot sampleFiles name.text := by
    unfold HasDirectory
    decide
  have hmade : (sampleFiles.createDirectories
      (concat sampleRoot.path (append (str "/") name.text))).isSome = true := by
    decide
  rcases Option.isSome_iff_exists.mp hmade with ⟨files, hfiles⟩
  have hproject : elements (append (str "/") name.text) = [slash] :: str "y" :: [] := by
    decide
  rcases step_sampleNewDir (by decide) hproject hfiles with ⟨cache, hstep⟩
  have hstarted := started_inStep sampleRoot 0 sampleFiles sampleDatabase
  have hafter := (h (fun _ => true) sampleRoot 0 sampleFiles sampleDatabase
    [sampleNewDir (append (str "/") name.text)]).right _ hstep
  exact not_inStep_of_made hstarted hmissing hfiles hafter

end ProjectStore

end Websocket
end CisWebui
