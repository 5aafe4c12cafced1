import CisWebui.FsCacheListings
import CisWebui.Websocket.ProjectDirectories

/-!
# Refreshing the projects

`refresh_projects` marks every row as deleted and takes the mark from those
whose directories the cache lists.  Rights go by the numbers of the rows.
-/

namespace CisWebui
namespace CisManager

open Cpp Foundation Database RightsManager

/-!
## Rows and their numbers
-/

def identity (r : Record Project) : Nat × Str :=
  (r.id, r.row.name)

/-- The rows are still there, under their numbers and names, and the new ones
have a name from the list that no row has had. -/
structure Grown (listed : Str -> Prop) (db db' : Database) : Prop where
  kept : forall r, r ∈ db.projects.records ->
    exists r', r' ∈ db'.projects.records ∧ identity r' = identity r
  added : forall r', r' ∈ db'.projects.records ->
    (exists r, r ∈ db.projects.records ∧ identity r = identity r') ∨
      listed r'.row.name ∧ db.projects.Fresh Project.name r'.row.name

/-- What a refresh makes of the database if these projects are on disk. -/
structure Reconciled (onDisk : Str -> Prop) (db db' : Database) : Prop where
  live : forall name, Live db' name <-> onDisk name
  rows : Grown onDisk db db'
  others : OnlyProjects db db'

section Rows

variable {db db' db'' : Database} {listed listed' : Str -> Prop}

theorem Grown.refl (db : Database) : Grown listed db db where
  kept := fun r hr => ⟨r, hr, rfl⟩
  added := fun r' hr' => Or.inl ⟨r', hr', rfl⟩

theorem Grown.mono (h : Grown listed db db')
    (hlisted : forall name, listed name -> listed' name) : Grown listed' db db' where
  kept := h.kept
  added := by
    intro r' hr'
    rcases h.added r' hr' with hold | ⟨hname, hfresh⟩
    · exact Or.inl hold
    · exact Or.inr ⟨hlisted _ hname, hfresh⟩

theorem Grown.trans (h : Grown listed db db') (h' : Grown listed db' db'') :
    Grown listed db db'' where
  kept := by
    intro r hr
    rcases h.kept r hr with ⟨r', hr', hsame⟩
    rcases h'.kept r' hr' with ⟨r'', hr'', hsame'⟩
    exact ⟨r'', hr'', hsame'.trans hsame⟩
  added := by
    intro r'' hr''
    rcases h'.added r'' hr'' with ⟨r', hr', hsame'⟩ | ⟨hname, hfresh⟩
    · have hnames : r'.row.name = r''.row.name := congrArg Prod.snd hsame'
      rcases h.added r' hr' with ⟨r, hr, hsame⟩ | hnew
      · exact Or.inl ⟨r, hr, hsame.trans hsame'⟩
      · rw [hnames] at hnew
        exact Or.inr hnew
    · refine Or.inr ⟨hname, ?_⟩
      intro r hr hsame
      rcases h.kept r hr with ⟨r', hr', hidentity⟩
      have hnames : r'.row.name = r.row.name := congrArg Prod.snd hidentity
      exact hfresh r' hr' (hnames.trans hsame)

theorem identity_changeIf (p : Record Project -> Bool) (deleted : Bool)
    (r : Record Project) :
    identity (Table.changeIf p (fun project => { project with deleted := deleted }) r) =
      identity r := by
  unfold Table.changeIf
  split
  · rfl
  · rfl

theorem grown_setDeleted (db : Database) (p : Record Project -> Bool) (deleted : Bool) :
    Grown listed db (db.setDeleted p deleted) where
  kept := by
    intro r hr
    exact ⟨_, Table.mem_update.mpr ⟨r, hr, rfl⟩, identity_changeIf p deleted r⟩
  added := by
    intro r' hr'
    rcases Table.mem_update.mp hr' with ⟨r, hr, rfl⟩
    exact Or.inl ⟨r, hr, (identity_changeIf p deleted r).symm⟩

theorem grown_enterProject {name : Str} (h : enterProject db name = Except.ok db')
    (hname : listed name) : Grown listed db db' := by
  unfold enterProject at h
  split at h
  · rename_i hnone
    have hprojects := (insertProject_ok h).left
    constructor
    · intro r hr
      rw [hprojects]
      exact ⟨r, Table.mem_insert.mpr (Or.inl hr), rfl⟩
    · intro r' hr'
      rw [hprojects] at hr'
      rcases Table.mem_insert.mp hr' with hold | rfl
      · exact Or.inl ⟨r', hold, rfl⟩
      · exact Or.inr ⟨hname, fresh_of_withName hnone⟩
  · cases h
    exact grown_setDeleted _ _ _
  · cases h
    exact Grown.refl _

theorem grown_foldlM {names : List Str} (h : names.foldlM enterProject db = Except.ok db')
    (hnames : forall name, name ∈ names -> listed name) : Grown listed db db' := by
  induction names generalizing db with
  | nil =>
      cases h
      exact Grown.refl _
  | cons name rest ih =>
      rcases enterProject_of_foldlM_cons h with ⟨entered, henter, hrest⟩
      have hfirst := grown_enterProject henter (hnames name List.mem_cons_self)
      exact hfirst.trans
        (ih hrest fun other hother => hnames other (List.mem_cons_of_mem _ hother))

end Rows

theorem refreshProjects_ok (names : List Str) (db : Database) :
    exists db', names.foldlM enterProject (db.setDeleted (fun _ => true) true) =
        Except.ok db' ∧
      refreshProjects none names db = (Except.ok (), db') := by
  rcases live_foldlM names (db.setDeleted (fun _ => true) true) with ⟨db', hfold, _⟩
  refine ⟨db', hfold, ?_⟩
  unfold refreshProjects
  rw [hfold]
  rfl

theorem reconciled_refreshProjects (names : List Str) (db : Database) :
    Reconciled (fun name => name ∈ names) db (refreshProjects none names db).2 where
  live := live_refreshProjects names db
  rows := by
    rcases refreshProjects_ok names db with ⟨db', hfold, hrefreshed⟩
    rw [hrefreshed]
    exact (grown_setDeleted db _ _).trans (grown_foldlM hfold fun _ hname => hname)
  others := onlyProjects_refreshProjects none names db

/-!
## A second refresh
-/

/-- The same rows, but for their marks. -/
structure SameRows (db db' : Database) : Prop where
  identities : db'.projects.records.map identity = db.projects.records.map identity
  last : db'.projects.last = db.projects.last

section SecondRefresh

variable {db db' db'' : Database}

theorem SameRows.trans (h : SameRows db db') (h' : SameRows db' db'') :
    SameRows db db'' where
  identities := h'.identities.trans h.identities
  last := h'.last.trans h.last

theorem sameRows_setDeleted (db : Database) (p : Record Project -> Bool)
    (deleted : Bool) : SameRows db (db.setDeleted p deleted) where
  identities := by
    show (db.projects.records.map _).map identity = _
    rw [List.map_map]
    exact List.map_congr_left fun r _ => identity_changeIf p deleted r
  last := rfl

/-- There is a row of that name, with or without the mark. -/
def Named (db : Database) (name : Str) : Prop :=
  exists r, r ∈ db.projects.records ∧ r.row.name = name

theorem SameRows.named (h : SameRows db db') {name : Str} (hnamed : Named db name) :
    Named db' name := by
  rcases hnamed with ⟨r, hr, hname⟩
  have hmem : identity r ∈ db'.projects.records.map identity := by
    rw [h.identities]
    exact List.mem_map_of_mem hr
  rcases List.mem_map.mp hmem with ⟨r', hr', hsame⟩
  exact ⟨r', hr', (congrArg Prod.snd hsame).trans hname⟩

theorem Live.named {name : Str} (h : Live db name) : Named db name := by
  rcases h with ⟨r, hr, hname, _⟩
  exact ⟨r, hr, hname⟩

/-- Only a name without a row gets a new one. -/
theorem sameRows_enterProject {name : Str} (hnamed : Named db name)
    (h : enterProject db name = Except.ok db') : SameRows db db' := by
  rcases hnamed with ⟨r, hr, rfl⟩
  unfold enterProject at h
  rw [withName_of_mem hr] at h
  cases h
  exact sameRows_setDeleted _ _ _

theorem sameRows_foldlM {names : List Str}
    (hnamed : forall name, name ∈ names -> Named db name)
    (h : names.foldlM enterProject db = Except.ok db') : SameRows db db' := by
  induction names generalizing db with
  | nil =>
      cases h
      exact ⟨rfl, rfl⟩
  | cons name rest ih =>
      rcases enterProject_of_foldlM_cons h with ⟨entered, henter, hrest⟩
      have hfirst := sameRows_enterProject (hnamed name List.mem_cons_self) henter
      refine hfirst.trans (ih ?_ hrest)
      intro other hother
      exact hfirst.named (hnamed other (List.mem_cons_of_mem _ hother))

/-- The row of a number and a name, marked by a list of names. -/
def marked (names : List Str) (entry : Nat × Str) : Record Project where
  id := entry.1
  row := { name := entry.2, deleted := !decide (entry.2 ∈ names) }

/-- A row is live under its name only by itself. -/
theorem live_name_iff {r : Record Project} (hr : r ∈ db.projects.records) :
    Live db r.row.name <-> r.row.deleted = false := by
  constructor
  · intro h
    rcases h with ⟨other, hother, hname, hlive⟩
    rw [db.unique_name r other hr hother hname.symm]
    exact hlive
  · exact fun hlive => ⟨r, hr, rfl, hlive⟩

/-- Where the live names are known, so are the marks. -/
theorem records_eq_marked {names : List Str}
    (hlive : forall name, Live db name <-> name ∈ names) :
    db.projects.records =
      (db.projects.records.map identity).map (marked names) := by
  have hmarked : forall r, r ∈ db.projects.records -> marked names (identity r) = r := by
    intro r hr
    have hmem := (hlive r.row.name).symm.trans (live_name_iff hr)
    have hmark : (!decide (r.row.name ∈ names)) = r.row.deleted := by
      cases hdeleted : r.row.deleted <;> simp [hmem, hdeleted]
    unfold marked identity
    dsimp only
    rw [hmark]
  rw [List.map_map]
  exact ((List.map_congr_left hmarked).trans (List.map_id _)).symm

theorem eq_of_tables (h : OnlyProjects db db')
    (hrecords : db'.projects.records = db.projects.records)
    (hlast : db'.projects.last = db.projects.last) : db' = db := by
  rcases h with ⟨husers, hrights, htokens, hkeys⟩
  rcases db with ⟨users, ⟨records, last, _, _⟩, rights, tokens, keys⟩
  rcases db' with ⟨users', ⟨records', last', _, _⟩, rights', tokens', keys'⟩
  cases husers
  cases hrights
  cases htokens
  cases hkeys
  cases hrecords
  cases hlast
  rfl

/-- A refresh with the same projects on disk leaves the database as it is. -/
theorem refreshProjects_again {names names' : List Str}
    (hnames : forall name, name ∈ names' <-> name ∈ names) (db : Database) :
    let db' := (refreshProjects none names db).2
    refreshProjects none names' db' = (Except.ok (), db') := by
  intro db'
  have hlive : forall name, Live db' name <-> name ∈ names :=
    live_refreshProjects names db
  rcases refreshProjects_ok names' db' with ⟨db'', hfold, hrefreshed⟩
  have hmarked := sameRows_setDeleted db' (fun _ => true) true
  have hrows : SameRows db' db'' := by
    refine hmarked.trans (sameRows_foldlM ?_ hfold)
    intro name hname
    exact hmarked.named ((hlive name).mpr ((hnames name).mp hname)).named
  have hothers : OnlyProjects db' db'' := by
    have h := onlyProjects_refreshProjects none names' db'
    rw [hrefreshed] at h
    exact h
  have hlive' : forall name, Live db'' name <-> name ∈ names := by
    intro name
    have h := live_refreshProjects names' db' name
    rw [hrefreshed] at h
    exact h.trans (hnames name)
  have hrecords : db''.projects.records = db'.projects.records := by
    rw [records_eq_marked hlive', records_eq_marked hlive, hrows.identities]
  rw [hrefreshed, eq_of_tables hothers hrecords hrows.last]

end SecondRefresh

end CisManager

namespace Websocket
namespace ProjectStore

open Cpp FilesystemPath Foundation FsNode

/-!
## The loop over the cache
-/

/-- `project::is_entry`; the entry has been loaded from the same disk. -/
def isEntry (s : ProjectStore) (name : EntryName) : Bool :=
  s.files.disk.status (cStr (append s.cache.path name.text)) = some FileType.directory

/-- `refresh_projects`; an error of the database is thrown. -/
def refreshProjects (s : ProjectStore) (fault : Option ErrorCode) (now : Int) :
    Cached (Fallible Unit) × ProjectStore :=
  match s.cache.beginRoot s.files.disk now with
  | (Except.error _, cache) => (Except.error Failure.lookup, { s with cache := cache })
  | (Except.ok position, cache) =>
      let names := (position.visited.filter s.isEntry).map EntryName.text
      let (answer, database) := CisManager.refreshProjects fault names s.database
      (Except.ok answer, { s with database := database, cache := cache })

/-- The manager as it is constructed, with its cache. -/
def constructed (root : RootDir) (now : Int) (files : FileSystem)
    (database : Database) : ProjectStore where
  files := files
  database := database
  cache :=
    { path := root.path
      maxCachingLevel := 4
      invalidationTime := invalidationTime
      root := FsNode.fresh now 4 }

/-- No child of the root is gone, and once it is synchronised it has a child for
every entry. -/
structure Loaded (root : RootDir) (files : FileSystem) (cache : FsCache) : Prop where
  path : cache.path = root.path
  tidy : Tidy 4 cache.root
  live : forall child, child ∈ cache.root.children -> isDeleted child = false
  complete : cache.root.state = NodeState.sync -> forall name : EntryName,
    files.tree.Exists (files.locate root.path ++ [name.text]) ->
      exists child, (name, child) ∈ cache.root.children

section Loop

variable {root : RootDir} {files : FileSystem} {cache : FsCache} {s : ProjectStore}

theorem loaded_constructed (root : RootDir) (now : Int) (files : FileSystem)
    (database : Database) : Loaded root files (constructed root now files database).cache where
  path := rfl
  tidy := tidy_fresh now 4
  live := fun _ h => by cases h
  complete := fun h => by cases h

/-- `begin` leaves the root loaded, with a child for every entry. -/
theorem loaded_update (h : Loaded root files cache) (now : Int) :
    exists node,
      cache.root.update files.disk now cache.invalidationTime cache.path =
          (Except.ok (), node) ∧
        Loaded root files { cache with root := node } ∧
        forall name : EntryName,
          files.tree.Exists (files.locate root.path ++ [name.text]) ->
            exists child, (name, child) ∈ node.children := by
  by_cases hsettled : cache.root.Settled now cache.invalidationTime
  · exact ⟨_, update_settled hsettled _ _, h, h.complete hsettled.left⟩
  rw [h.path]
  by_cases hdir : files.tree.IsDirectory (files.locate root.path)
  · rcases reloaded_update hsettled h.tidy (by decide) hdir with ⟨node, hupdate, hnode⟩
    have hcomplete : forall name : EntryName,
        files.tree.Exists (files.locate root.path ++ [name.text]) ->
          exists child, (name, child) ∈ node.children :=
      fun name hname => ⟨_, mem_of_child (hnode.present name hname)⟩
    refine ⟨node, hupdate, ⟨rfl, hnode.tidy, ?_, fun _ => hcomplete⟩, hcomplete⟩
    intro child hchild
    have hrenewed := hnode.child_eq
      ((lookup_eq_some_iff hnode.tidy.sorted).mpr ⟨hchild, rfl⟩)
    unfold isDeleted
    rcases renewed_cases fun entry hentry => h.tidy.child hentry with
      ⟨entry, _, hsync, heq⟩ | heq
    · rw [hrenewed, heq, hsync]
      rfl
    · rw [hrenewed, heq]
      rfl
  · rcases update_of_not_directory hsettled hdir with ⟨node, hupdate, hchildren, hlevel⟩
    have hnothing : forall name : EntryName,
        ¬ files.tree.Exists (files.locate root.path ++ [name.text]) := by
      intro name hname
      exact hdir (FileTree.isDirectory_of_exists_append [name.text] (by simp) hname)
    refine ⟨node, hupdate, ⟨rfl, tidy_of_children h.tidy hlevel hchildren, ?_, ?_⟩, ?_⟩
    · intro child hchild
      rw [hchildren] at hchild
      exact h.live child hchild
    · exact fun _ name hname => absurd hname (hnothing name)
    · exact fun name hname => absurd hname (hnothing name)

/-- A loop over children none of which is gone comes by all of them. -/
theorem visited_of_live {children : List (EntryName × FsNode)}
    (hlive : forall child, child ∈ children -> isDeleted child = false) :
    (Position.inTree children).visited = children.map Prod.fst := by
  cases children with
  | nil => exact Position.visited_inTree_nil
  | cons first rest =>
      have hall : rest.filter (fun child => !isDeleted child) = rest := by
        rw [List.filter_eq_self]
        intro child hchild
        rw [hlive child (List.mem_cons_of_mem _ hchild)]
        rfl
      rw [Position.visited_inTree_cons, hall, List.map_cons]

theorem isEntry_iff (h : s.cache.path = root.path) (name : EntryName) :
    s.isEntry name = true <-> HasDirectory root s.files name.text := by
  unfold isEntry
  rw [decide_eq_true_eq, h, FileSystem.status_disk, s.files.locate_append root.noNul,
    Option.some_inj, FileSystem.fileType_eq_directory_iff]
  rfl

/-- A directory of this name is in the root. -/
def OnDisk (root : RootDir) (files : FileSystem) (name : Str) : Prop :=
  exists entry : EntryName, entry.text = name ∧ HasDirectory root files name

/-- The loop comes by the directories in the root, and leaves a cache that has
been loaded. -/
theorem refreshProjects_eq (h : Loaded root s.files s.cache) (now : Int) :
    exists names cache,
      (forall name, name ∈ names <-> OnDisk root s.files name) ∧
        Loaded root s.files cache ∧
        s.refreshProjects none now =
          (Except.ok (CisManager.refreshProjects none names s.database).1,
            { s with
              database := (CisManager.refreshProjects none names s.database).2
              cache := cache }) := by
  rcases loaded_update h now with ⟨node, hupdate, hloaded, hcomplete⟩
  have hbegin : s.cache.beginRoot s.files.disk now =
      (Except.ok (Position.inTree node.children), { s.cache with root := node }) := by
    rw [FsCache.beginRoot, hupdate]
  refine ⟨((Position.inTree node.children).visited.filter s.isEntry).map EntryName.text,
    { s.cache with root := node }, ?_, hloaded, ?_⟩
  · intro name
    rw [visited_of_live hloaded.live, List.mem_map]
    constructor
    · intro hname
      rcases hname with ⟨entry, hentry, rfl⟩
      have hdir := (List.mem_filter.mp hentry).right
      exact ⟨entry, rfl, (isEntry_iff h.path entry).mp hdir⟩
    · intro hname
      rcases hname with ⟨entry, rfl, hdir⟩
      rcases hcomplete entry hdir.exists with ⟨child, hchild⟩
      refine ⟨entry, List.mem_filter.mpr ⟨?_, (isEntry_iff h.path entry).mpr hdir⟩, rfl⟩
      exact List.mem_map_of_mem hchild
  · unfold refreshProjects
    rw [hbegin]

/-- The refresh at the end of the constructor leaves what requests start from. -/
theorem refreshProjects_constructed (root : RootDir) (now : Int) (files : FileSystem)
    (database : Database) :
    ((constructed root now files database).refreshProjects none now).2 =
      started root now files database := by
  rcases loaded_update (loaded_constructed root now files database) now with
    ⟨node, hupdate, hloaded, _⟩
  have hnode : (FsNode.fresh now 4).update files.disk now invalidationTime root.path =
      (Except.ok (), node) := hupdate
  have hvisited := visited_of_live hloaded.live
  unfold refreshProjects started projectNames FsCache.beginRoot constructed
  dsimp only
  rw [hnode]
  dsimp only
  rw [hvisited]
  rfl

/-- A refresh of a manager that has just been constructed reconciles the rows with
the directories in the root, and another one behind it changes nothing. -/
theorem refreshProjects_reconciles (root : RootDir) (files : FileSystem)
    (database : Database) (constructedAt first second : Int) :
    exists s', (constructed root constructedAt files database).refreshProjects none first =
        (Except.ok (Except.ok ()), s') ∧
      s'.files = files ∧
      CisManager.Reconciled (OnDisk root files) database s'.database ∧
      exists s'', s'.refreshProjects none second = (Except.ok (Except.ok ()), s'') ∧
        s''.database = s'.database := by
  let start := constructed root constructedAt files database
  have hstart : Loaded root start.files start.cache :=
    loaded_constructed root constructedAt files database
  rcases refreshProjects_eq hstart first with ⟨names, cache, hnames, hloaded, hfirst⟩
  have hreconciled := CisManager.reconciled_refreshProjects names database
  rcases CisManager.refreshProjects_ok names database with ⟨db', _, hdatabase⟩
  let s' : ProjectStore := { files := files, database := db', cache := cache }
  have hloaded' : Loaded root s'.files s'.cache := hloaded
  rcases refreshProjects_eq hloaded' second with ⟨names', cache', hnames', _, hsecond⟩
  have hsame : forall name, name ∈ names' <-> name ∈ names :=
    fun name => (hnames' name).trans (hnames name).symm
  have hagain := CisManager.refreshProjects_again hsame database
  rw [hdatabase] at hreconciled hagain
  refine ⟨s', ?_, rfl, ?_, { s' with cache := cache' }, ?_, rfl⟩
  · rw [hfirst]
    show (Except.ok (CisManager.refreshProjects none names database).1,
      ({ files := files
         database := (CisManager.refreshProjects none names database).2
         cache := cache } : ProjectStore)) = _
    rw [hdatabase]
  · exact
      { live := fun name => (hreconciled.live name).trans (hnames name)
        rows := hreconciled.rows.mono fun name => (hnames name).mp
        others := hreconciled.others }
  · rw [hsecond, hagain]

end Loop

end ProjectStore
end Websocket
end CisWebui
