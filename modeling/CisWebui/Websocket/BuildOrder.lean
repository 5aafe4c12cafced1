import CisWebui.Cis.JobRun
import CisWebui.Foundation.StableSort
import CisWebui.FsCacheListings
import CisWebui.Websocket.Replies

/-!
# The order of the builds

What a job shows of its directory: the loop of `get_build_list` over the children in the
cache, and the listing that the handler reverses and sorts.  The order is followed from
the scan of the directory to the reply.
-/

namespace CisWebui
namespace Websocket
namespace BuildOrder

open Cpp FilesystemPath Foundation FsNode

/-!
## Builds and other entries
-/

/-- `^\d{6}$` -/
def buildMask (name : Str) : Bool :=
  name.length = 6 ∧ name.all Cis.isDigit = true

/-- `build::is_entry` -/
def isEntry (entry : DirEntry) : Bool :=
  entry.kind = EntryKind.directory ∧ buildMask (filename entry.path) = true

/-- What the disk says about the entries of a directory: their kinds, and what the
files in a build tell of it. -/
structure Contents where
  kind : EntryName -> EntryKind
  info : EntryName -> BuildInfo

namespace Contents

variable (contents : Contents) (directory : Str)

def entry (name : EntryName) : DirEntry where
  path := append directory name.text
  kind := contents.kind name

/-- The body of the loop of `get_build_list`. -/
def listed (name : EntryName) : Listed :=
  if isEntry (contents.entry directory name) then
    Listed.build (contents.entry directory name) (contents.info name)
  else
    Listed.plain (contents.entry directory name)

/-- A directory whose name is exactly six digits. -/
def IsBuild (name : EntryName) : Prop :=
  contents.kind name = EntryKind.directory ∧ buildMask name.text = true

end Contents

/-- `job::get_build_list` of the job that the names lead to. -/
def getBuildList (cache : FsCache) (disk : Disk) (now : Int) (contents : Contents)
    (job : List EntryName) : Cached (List Listed) :=
  match (cache.beginFound disk now (Found.node job)).1 with
  | Except.error _ => Except.error Failure.lookup
  | Except.ok position => Except.ok (position.visited.map (contents.listed (cache.nodePath job)))

/-- The comparison of `std::stable_sort`. -/
def compare (lhs rhs : FsEntry) : Bool :=
  isBuild lhs && !isBuild rhs

theorem buildsFirst_eq_stableSort (entries : List FsEntry) :
    buildsFirst entries = stableSort compare entries.reverse :=
  (stableSort_two_valued isBuild entries.reverse).symm

/-!
## The children of a job
-/

/-- The children are nodes of these entries, in the order of their names, and none of
them is deleted. -/
structure Shows (children : List (EntryName × FsNode)) (entries : List EntryName) : Prop where
  ordered : (children.map Prod.fst).Pairwise fun a b => a.text < b.text
  listed : (children.map Prod.fst).Perm entries
  live : forall child, child ∈ children -> isDeleted child = false

theorem live_merge {olds news : List (EntryName × FsNode)}
    (hnews : forall child, child ∈ news -> isDeleted child = false) :
    forall child, child ∈ merge olds news -> isDeleted child = false := by
  induction olds, news using merge.induct with
  | case1 news =>
      rw [merge]
      exact hnews
  | case2 olds hne =>
      rw [merge]
      · exact hnews
      · exact hne
  | case3 old olds new news hlt ih =>
      rw [merge, if_pos hlt]
      exact ih hnews
  | case4 old olds new news hlt heq ih =>
      rw [merge, if_neg hlt, if_pos heq]
      intro child hchild
      rcases List.mem_cons.mp hchild with rfl | hrest
      · have hnew := hnews new (List.mem_cons_self ..)
        unfold takeOver
        split
        · rename_i hsync
          simp [isDeleted, hsync]
        · exact hnew
      · exact ih (fun child hmem => hnews child (List.mem_cons_of_mem _ hmem)) child hrest
  | case5 old olds new news hlt hne ih =>
      rw [merge, if_neg hlt, if_neg hne]
      intro child hchild
      rcases List.mem_cons.mp hchild with rfl | hrest
      · exact hnews child (List.mem_cons_self ..)
      · exact ih (fun child hmem => hnews child (List.mem_cons_of_mem _ hmem)) child hrest

/-- A scan that goes through leaves such children, whatever was there before. -/
theorem shows_load {disk : Disk} {path : Str} {node : FsNode} {entries : List EntryName}
    (hscans : Scans disk path node) (hscan : Enumerated disk path entries) (now : Int) :
    exists node', node.load disk now path = (Except.ok (), node') ∧
      node'.cachingLevel = node.cachingLevel ∧ Shows node'.children entries := by
  have hnames : listedNames disk path = entries := by
    rw [listedNames, hscan.listing]
  refine ⟨_, load_of_answered hscans (hnames ▸ hscan.answered) now, rfl, ?_⟩
  rw [hnames]
  have hspec := newChildren_spec hscan.once (fresh now (node.cachingLevel - 1))
  constructor
  · exact sorted_iff_map.mp (sorted_merge hspec.left)
  · rw [map_fst_merge]
    exact map_fst_newChildren hscan.once _
  · apply live_merge
    intro child hchild
    rw [isDeleted, ((hspec.right child).mp hchild).right]
    rfl

/-- The node of the job is reloaded now, or it is as it was loaded before; the scan saw
these entries. -/
inductive FreshlyLoaded (cache : FsCache) (disk : Disk) (now : Int) (job : List EntryName)
    (entries : List EntryName) : Prop where
  | due (node : FsNode) (found : cache.root.descendant job = some node)
      (level : 1 < node.cachingLevel)
      (due : ¬ node.Settled now cache.invalidationTime)
      (directory : disk.status (cStr (cache.nodePath job)) = some FileType.directory)
      (scan : Enumerated disk (cache.nodePath job) entries)
  | settled (old : FsNode) (disk' : Disk) (before : Int)
      (found : cache.root.descendant job =
        some (old.load disk' before (cache.nodePath job)).2)
      (level : 1 < old.cachingLevel)
      (settled : (old.load disk' before (cache.nodePath job)).2.Settled now
        cache.invalidationTime)
      (directory : disk'.status (cStr (cache.nodePath job)) = some FileType.directory)
      (scan : Enumerated disk' (cache.nodePath job) entries)

theorem visited_of_live {children : List (EntryName × FsNode)}
    (h : forall child, child ∈ children -> isDeleted child = false) :
    (Position.inTree (skipFirst children)).visited = children.map Prod.fst := by
  cases children with
  | nil => exact Position.visited_inTree_nil
  | cons first rest =>
      have hrest : (rest.filter fun child => !isDeleted child) = rest := by
        rw [List.filter_eq_self]
        intro child hchild
        rw [h child (List.mem_cons_of_mem _ hchild)]
        rfl
      rw [skipFirst, h first (List.mem_cons_self ..), if_neg Bool.false_ne_true,
        Position.visited_inTree_cons, hrest, List.map_cons]

theorem shows_update {cache : FsCache} {disk : Disk} {now : Int}
    {job entries : List EntryName} (h : FreshlyLoaded cache disk now job entries) :
    exists node node', cache.root.descendant job = some node ∧ 1 < node.cachingLevel ∧
      node.update disk now cache.invalidationTime (cache.nodePath job) =
          (Except.ok (), node') ∧
        Shows node'.children entries := by
  cases h with
  | due node found level due directory scan =>
      have hscans : Scans disk (cache.nodePath job) { node with lastUpdated := now } :=
        ⟨directory, Nat.ne_of_gt level⟩
      rcases shows_load hscans scan now with ⟨node', hload, _, hshows⟩
      refine ⟨node, node', found, level, ?_, hshows⟩
      rw [update_eq, if_neg due, directory]
      exact hload
  | settled old disk' before found level settled directory scan =>
      have hscans : Scans disk' (cache.nodePath job) old := ⟨directory, Nat.ne_of_gt level⟩
      rcases shows_load hscans scan before with ⟨node', hload, hlevel, hshows⟩
      rw [hload] at found settled
      refine ⟨node', node', found, ?_, update_settled settled disk _, hshows⟩
      rw [hlevel]
      exact level

/-- The loop of `get_build_list` sees the entries in the order of their names. -/
theorem getBuildList_of_freshlyLoaded {cache : FsCache} {disk : Disk} {now : Int}
    {job entries : List EntryName} (h : FreshlyLoaded cache disk now job entries)
    (contents : Contents) :
    exists names : List EntryName,
      getBuildList cache disk now contents job =
          Except.ok (names.map (contents.listed (cache.nodePath job))) ∧
        names.Pairwise (fun a b => a.text < b.text) ∧ names.Perm entries := by
  rcases shows_update h with ⟨node, node', hfound, hlevel, hupdate, hshows⟩
  have hbegin : (cache.beginFound disk now (Found.node job)).1 =
      Except.ok (Position.inTree (skipFirst node'.children)) := by
    rw [FsCache.beginFound, hfound]
    dsimp only
    rw [if_pos hlevel, hupdate]
  refine ⟨node'.children.map Prod.fst, ?_, hshows.ordered, hshows.listed⟩
  rw [getBuildList, hbegin]
  dsimp only
  rw [visited_of_live hshows.live]

/-!
## The reply
-/

/-- The builds come before all other entries, and each of the two parts has its names
from the last to the first. -/
def NewestFirst (contents : Contents) (directory root : Str) (entries : List EntryName)
    (shown : List FsEntry) : Prop :=
  exists builds others : List EntryName,
    shown = (builds ++ others).map
        (fun name => makeListedEntry root (contents.listed directory name)) ∧
      shown.map FsEntry.name = (builds ++ others).map EntryName.text ∧
        (builds ++ others).Perm entries ∧
          (forall name, name ∈ builds -> contents.IsBuild name) ∧
            (forall name, name ∈ others -> ¬ contents.IsBuild name) ∧
              builds.Pairwise (fun a b => b.text < a.text) ∧
                others.Pairwise (fun a b => b.text < a.text)

section Order

variable (contents : Contents) (directory root : Str)

theorem filename_entry (name : EntryName) :
    filename (contents.entry directory name).path = name.text :=
  filename_append directory name.noSlash

theorem isEntry_iff (name : EntryName) :
    isEntry (contents.entry directory name) = true <-> contents.IsBuild name := by
  unfold isEntry Contents.IsBuild
  rw [filename_entry, decide_eq_true_eq]
  rfl

theorem isBuild_makeDirEntry (entry : DirEntry) : isBuild (makeDirEntry root entry) = false := by
  unfold makeDirEntry isBuild entryMeta
  cases entry.kind with
  | directory => rfl
  | regular executable => rfl
  | other => rfl

theorem isBuild_listed (name : EntryName) :
    isBuild (makeListedEntry root (contents.listed directory name)) =
      isEntry (contents.entry directory name) := by
  unfold Contents.listed
  cases hentry : isEntry (contents.entry directory name) with
  | true => rfl
  | false => exact isBuild_makeDirEntry root _

theorem name_listed (name : EntryName) :
    (makeListedEntry root (contents.listed directory name)).name = name.text := by
  rw [← filename_entry contents directory name]
  unfold Contents.listed
  split
  · rfl
  · rfl

/-- The reversed listing is sorted so that the builds come first. -/
theorem newestFirst_buildsFirst {names entries : List EntryName}
    (hordered : names.Pairwise fun a b => a.text < b.text) (hperm : names.Perm entries) :
    NewestFirst contents directory root entries
      (buildsFirst ((names.map (contents.listed directory)).map (makeListedEntry root))) := by
  let shown := fun name => makeListedEntry root (contents.listed directory name)
  let builds := names.reverse.filter fun name => isBuild (shown name)
  let others := names.reverse.filter fun name => !isBuild (shown name)
  have hreversed : names.reverse.Pairwise fun a b => b.text < a.text :=
    List.pairwise_reverse.mpr hordered
  have hshown : buildsFirst ((names.map (contents.listed directory)).map (makeListedEntry root)) =
      (builds ++ others).map shown := by
    rw [buildsFirst, List.map_map, ← List.map_reverse, List.filter_map, List.filter_map,
      ← List.map_append]
    rfl
  have hbuild : forall name, isBuild (shown name) = true <-> contents.IsBuild name := by
    intro name
    rw [isBuild_listed, isEntry_iff]
  refine ⟨builds, others, hshown, ?_, ?_, ?_, ?_, hreversed.filter _, hreversed.filter _⟩
  · rw [hshown, List.map_map]
    apply List.map_congr_left
    intro name _
    exact name_listed contents directory root name
  · exact (List.filter_append_perm _ _).trans ((List.reverse_perm names).trans hperm)
  · intro name hname
    exact (hbuild name).mp (List.mem_filter.mp hname).right
  · intro name hname hisBuild
    have hnot := (List.mem_filter.mp hname).right
    rw [(hbuild name).mpr hisBuild] at hnot
    cases hnot

end Order

/-- The listing that the job's directory gives is the answer of the call. -/
def Lists (listed : Cached (List Listed)) : (op : Op) -> op.Answer -> Prop
  | Op.call (Call.getBuildList _), answer => answer = listed
  | _, _ => True

/-- The client may read the project, and what is asked of the job is found. -/
def Admits (listed : Cached (List Listed)) : (op : Op) -> op.Answer -> Prop
  | Op.call (Call.getJobInfo _ _), answer => exists info, answer = Except.ok (some info)
  | Op.call (Call.checkProjectRight _ _), answer =>
      exists rights : ProjectRights, answer = Except.ok (some rights) ∧ rights.read = true
  | Op.call (Call.getBuildList _), answer => answer = listed
  | Op.call (Call.getScriptEntry _), answer => Returned answer
  | Op.call (Call.getParamsEntry _), answer => Returned answer
  | Op.call (Call.getConfEntry _), answer => exists conf, answer = Except.ok (some conf)
  | _, _ => True

/-- What `get_job_info` says of the entries is in order. -/
def SaysNewestFirst (contents : Contents) (directory : Str) (entries : List EntryName) :
    Op -> Prop
  | Op.reply (Reply.success (Success.cisJobInfo _ shown _)) =>
      exists root, NewestFirst contents directory root entries shown
  | _ => True

/-- The replies of a trace. -/
def sent (t : List Asked) : List Reply :=
  t.filterMap fun e =>
    match e.1 with
    | Op.reply r => some r
    | Op.replyMoved r => some r
    | _ => none

/-- There is one reply, and it shows the entries in order. -/
def ShowsNewestFirst (contents : Contents) (directory : Str) (entries : List EntryName)
    (t : List Asked) : Prop :=
  exists params shown properties root,
    sent t = [Reply.success (Success.cisJobInfo params shown properties)] ∧
      NewestFirst contents directory root entries shown

section Handler

variable {contents : Contents} {directory : Str} {entries : List EntryName}
  {answers : (op : Op) -> op.Answer -> Prop}

theorem onlyGiven_jobProperties (root : Str) (job : DirEntry) :
    (jobProperties root job).OnlyGiven (SaysNewestFirst contents directory entries) answers := by
  refine ⟨trivial, fun script _ => ?_⟩
  cases script with
  | error f => trivial
  | ok script =>
      refine ⟨trivial, fun params _ => ?_⟩
      cases params with
      | error f => trivial
      | ok params =>
          refine ⟨trivial, fun conf _ => ?_⟩
          cases conf with
          | error f => trivial
          | ok conf =>
              cases conf with
              | none => trivial
              | some conf => trivial

theorem onlyGiven_getJobInfo {names : List EntryName}
    (hordered : names.Pairwise fun a b => a.text < b.text) (hperm : names.Perm entries)
    (ctx : RequestContext) (project job : Str) :
    (getJobInfo ctx project job).OnlyGiven (SaysNewestFirst contents directory entries)
      (Lists (Except.ok (names.map (contents.listed directory)))) := by
  rw [getJobInfo]
  cases ctx.clientInfo with
  | none =>
      refine ⟨trivial, fun found _ => ?_⟩
      cases found with
      | error f => trivial
      | ok found => exact ⟨trivial, fun _ _ => trivial⟩
  | some client =>
      refine ⟨trivial, fun found _ => ?_⟩
      cases found with
      | error f => trivial
      | ok found =>
          refine ⟨trivial, fun perm _ => ?_⟩
          cases perm with
          | error ec => exact ⟨trivial, fun _ _ => trivial⟩
          | ok perm =>
              show Program.OnlyGiven _ _ (if allows ProjectRights.read perm then _ else _)
              split
              · cases found with
                | none => exact ⟨trivial, fun _ _ => trivial⟩
                | some info =>
                    refine ⟨trivial, fun root _ => ⟨trivial, ?_⟩⟩
                    intro listed hlisted
                    cases hlisted
                    show (jobProperties root info.entry >>= fun properties =>
                      send (Success.cisJobInfo info.params _ properties)).OnlyGiven _ _
                    apply Program.onlyGiven_bind (onlyGiven_jobProperties root info.entry)
                    intro properties
                    exact ⟨⟨root, newestFirst_buildsFirst contents directory root hordered hperm⟩,
                      fun _ _ => trivial⟩
              · exact ⟨trivial, fun _ _ => trivial⟩

/-- A client who may read the project gets its reply. -/
theorem shows_getJobInfo {names : List EntryName}
    (hordered : names.Pairwise fun a b => a.text < b.text) (hperm : names.Perm entries)
    {ctx : RequestContext} {client : ClientInfo} (hclient : ctx.clientInfo = some client)
    (project job : Str) :
    (getJobInfo ctx project job).Every
      (Admits (Except.ok (names.map (contents.listed directory))))
      fun ending t => ending = Except.ok () ∧
        ShowsNewestFirst contents directory entries t := by
  rw [getJobInfo, hclient]
  intro found hfound
  rcases hfound with ⟨info, rfl⟩
  intro perm hgranted
  rcases hgranted with ⟨rights, rfl, hread⟩
  show (if rights.read then _ else _ : Handler).Every _ _
  rw [if_pos hread]
  intro root _ listed hlisted
  cases hlisted
  intro script hscript
  rcases hscript with ⟨script, rfl⟩
  intro params hparams
  rcases hparams with ⟨params, rfl⟩
  intro conf hconf
  rcases hconf with ⟨conf, rfl⟩
  intro _ _
  exact ⟨rfl, _, _, _, root, rfl,
    newestFirst_buildsFirst contents directory root hordered hperm⟩

end Handler

/-- A client who may read the project gets one reply, which shows the entries of the job
in order; and whatever else is answered, a job is not shown otherwise. -/
theorem getJobInfo_newestFirst {cache : FsCache} {disk : Disk} {now : Int}
    {place entries : List EntryName} (h : FreshlyLoaded cache disk now place entries)
    (contents : Contents) (ctx : RequestContext) (project job : Str) :
    (forall client, ctx.clientInfo = some client ->
        (getJobInfo ctx project job).Every
          (Admits (getBuildList cache disk now contents place))
          fun ending t => ending = Except.ok () ∧
            ShowsNewestFirst contents (cache.nodePath place) entries t) ∧
      (getJobInfo ctx project job).Every (Lists (getBuildList cache disk now contents place))
        fun _ t => forall e, e ∈ t ->
          SaysNewestFirst contents (cache.nodePath place) entries e.1 := by
  rcases getBuildList_of_freshlyLoaded h contents with ⟨names, hlisted, hordered, hperm⟩
  rw [hlisted]
  constructor
  · intro client hclient
    exact shows_getJobInfo hordered hperm hclient project job
  · exact Program.every_of_onlyGiven (onlyGiven_getJobInfo hordered hperm ctx project job)

/-- A name of six digits. -/
def numbered (digit : Fin 10) : EntryName where
  text := str "00000" ++ [UInt8.ofNat (48 + digit)]
  nonempty := by
    revert digit
    decide
  noSlash := by
    revert digit
    decide
  noNul := by
    revert digit
    decide
  notHere := by
    revert digit
    decide
  notUp := by
    revert digit
    decide

/-- Three builds, two other entries, and a file with the name of a build. -/
def sampleEntries : List EntryName :=
  [numbered 2, nameB, numbered 7, sampleName, numbered 1, numbered 4]

def sampleContents : Contents where
  kind := fun name =>
    if name = nameB ∨ name = numbered 4 then EntryKind.regular false
    else EntryKind.directory
  info := fun _ => { status := none, exitMessage := none, sessionId := none, date := none }

/-- A job in a cache that has not loaded it yet. -/
theorem freshlyLoaded_sample :
    FreshlyLoaded (FsCache.sampleListing NodeState.init) (FsCache.uniformDisk sampleEntries) 6
      [sampleName] sampleEntries :=
  FreshlyLoaded.due { fresh 5 2 with state := NodeState.init } rfl (by decide)
    (by decide) rfl (enumerated_uniformDisk _ (by decide))

theorem getJobInfo_newestFirst_sample :
    (getJobInfo loggedInContext (str "p") (str "a")).Every
        (Admits (getBuildList (FsCache.sampleListing NodeState.init)
          (FsCache.uniformDisk sampleEntries) 6 sampleContents [sampleName]))
        (fun ending t => ending = Except.ok () ∧
          ShowsNewestFirst sampleContents
            ((FsCache.sampleListing NodeState.init).nodePath [sampleName]) sampleEntries t) :=
  (getJobInfo_newestFirst freshlyLoaded_sample sampleContents loggedInContext (str "p")
    (str "a")).left _ rfl

end BuildOrder
end Websocket
end CisWebui
