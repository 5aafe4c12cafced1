import CisWebui.FsCacheReloads

/-!
# Listings

The loops from `begin` to `end`, for the cache itself and for an iterator into
it.  Entries that are gone stay in the tree as deleted children; each of the
three places that a loop comes by has its own way to skip them.
-/

namespace CisWebui

open Cpp FilesystemPath Foundation

namespace FsNode

def isDeleted (entry : EntryName × FsNode) : Bool :=
  entry.2.state = NodeState.deleted

/-- The children that are not deleted, in their order. -/
structure ListsLive (children : List (EntryName × FsNode))
    (visited : List EntryName) : Prop where
  live : forall name, name ∈ visited <->
    exists child, (name, child) ∈ children ∧ child.state ≠ NodeState.deleted
  ordered : visited.Pairwise fun a b => a.text < b.text

end FsNode

open FsNode

/-- What an `fs_iterator` has in front of it: children of a node, or entries of
a directory on disk.  The end has nothing in front of it. -/
inductive Position where
  | inTree (rest : List (EntryName × FsNode))
  | onDisk (directory : Str) (rest : List EntryName)

namespace Position

def current : Position -> Option EntryName
  | inTree rest => rest.head?.map Prod.fst
  | onDisk _ rest => rest.head?

/-- `fs_iterator::operator++`; an iterator of the disk that reports an error
becomes the end. -/
def next : Position -> Position
  | inTree rest => inTree (rest.tail.dropWhile isDeleted)
  | onDisk directory rest => onDisk directory rest.tail

def size : Position -> Nat
  | inTree rest => rest.length
  | onDisk _ rest => rest.length

theorem size_next {p : Position} {name : EntryName} (h : p.current = some name) :
    p.next.size < p.size := by
  cases p with
  | inTree rest =>
      cases rest with
      | nil => cases h
      | cons entry rest =>
          have hle := (List.dropWhile_suffix isDeleted (l := rest)).length_le
          exact Nat.lt_succ_of_le hle
  | onDisk directory rest =>
      cases rest with
      | nil => cases h
      | cons entry rest => exact Nat.lt_succ_self rest.length

/-- The entries a loop visits that steps on until it gets to the end. -/
def visited (p : Position) : List EntryName :=
  match _h : p.current with
  | none => []
  | some name => name :: p.next.visited
termination_by p.size
decreasing_by exact size_next _h

theorem visited_inTree_nil : (inTree []).visited = [] := by
  rw [visited]
  rfl

theorem visited_inTree (entry : EntryName × FsNode)
    (rest : List (EntryName × FsNode)) :
    (inTree (entry :: rest)).visited =
      entry.1 :: (inTree (rest.dropWhile isDeleted)).visited := by
  rw [visited]
  rfl

/-- The first child is visited whatever its state, and behind it those that are
not deleted. -/
theorem visited_inTree_cons (entry : EntryName × FsNode)
    (rest : List (EntryName × FsNode)) :
    (inTree (entry :: rest)).visited =
      entry.1 :: (rest.filter fun child => !isDeleted child).map Prod.fst := by
  rw [visited_inTree]
  congr 1
  induction rest with
  | nil => exact visited_inTree_nil
  | cons child rest ih =>
      cases hchild : isDeleted child with
      | true =>
          rw [List.dropWhile_cons_of_pos hchild, ih,
            List.filter_cons_of_neg (by simp [hchild])]
      | false =>
          rw [List.dropWhile_cons_of_neg (by simp [hchild]), visited_inTree, ih,
            List.filter_cons_of_pos (by simp [hchild]), List.map_cons]

end Position

/-!
## begin
-/

/-- The first child is skipped if it is deleted. -/
def FsNode.skipFirst : List (EntryName × FsNode) -> List (EntryName × FsNode)
  | [] => []
  | first :: rest => if isDeleted first then rest else first :: rest

/-- What a loop goes through: the cache, or an iterator. -/
inductive Range where
  | whole
  | below (found : Found)

namespace FsCache

/-- `fs_cache::begin` -/
def beginRoot (cache : FsCache) (disk : Disk) (now : Int) :
    Except FilesystemError Position × FsCache :=
  match cache.root.update disk now cache.invalidationTime cache.path with
  | (Except.error e, root) => (Except.error e, { cache with root := root })
  | (Except.ok (), root) =>
      (Except.ok (Position.inTree root.children), { cache with root := root })

/-- `fs_iterator::begin`; an iterator that is not the end has a node. -/
def beginFound (cache : FsCache) (disk : Disk) (now : Int) :
    Found -> Except FilesystemError Position × FsCache
  | Found.listed path =>
      (Except.ok (Position.onDisk path (listedNames disk path)), cache)
  | Found.node names =>
      let path := cache.nodePath names
      match cache.root.descendant names with
      | none => (Except.ok (Position.inTree []), cache)
      | some node =>
          if 1 < node.cachingLevel then
            match node.update disk now cache.invalidationTime path with
            | (Except.error e, node) =>
                (Except.error e,
                  { cache with root := cache.root.alter (fun _ => node) names })
            | (Except.ok (), node) =>
                (Except.ok (Position.inTree (skipFirst node.children)),
                  { cache with root := cache.root.alter (fun _ => node) names })
          else
            (Except.ok (Position.onDisk path (listedNames disk path)), cache)

def beginRange (cache : FsCache) (disk : Disk) (now : Int) :
    Range -> Except FilesystemError Position × FsCache
  | Range.whole => cache.beginRoot disk now
  | Range.below found => cache.beginFound disk now found

end FsCache

namespace Range

/-- The node that the range is made of. -/
def node (cache : FsCache) : Range -> Option FsNode
  | whole => some cache.root
  | below (Found.node names) => cache.root.descendant names
  | below (Found.listed _) => none

/-- How many deleted children `begin` can skip. -/
def skips : Range -> Nat
  | whole => 0
  | below _ => 1

/-- Where the loop begins. -/
def first (children : List (EntryName × FsNode)) :
    Range -> List (EntryName × FsNode)
  | whole => children
  | below _ => skipFirst children

theorem first_suffix (children : List (EntryName × FsNode)) (range : Range) :
    range.first children <:+ children := by
  cases range with
  | whole => exact List.suffix_rfl
  | below found =>
      cases children with
      | nil => exact List.suffix_rfl
      | cons first rest =>
          unfold Range.first skipFirst
          dsimp only
          split
          · exact List.suffix_cons first rest
          · exact List.suffix_rfl

/-- What the loop begins behind is deleted. -/
theorem filter_first (children : List (EntryName × FsNode)) (range : Range) :
    (range.first children).filter (fun child => !isDeleted child) =
      children.filter fun child => !isDeleted child := by
  cases range with
  | whole => rfl
  | below found =>
      cases children with
      | nil => rfl
      | cons first rest =>
          unfold Range.first skipFirst
          dsimp only
          split
          · rename_i hdeleted
            rw [List.filter_cons_of_neg (by simp [hdeleted])]
          · rfl

/-- The loop begins at a child that is not deleted, or at the end, exactly when
it can skip those in front. -/
theorem head_first_iff (children : List (EntryName × FsNode)) (range : Range) :
    (forall child, (range.first children).head? = some child ->
        isDeleted child = false) <->
      (children.takeWhile isDeleted).length <= range.skips := by
  have hone : forall (list : List (EntryName × FsNode)),
      (forall child, list.head? = some child -> isDeleted child = false) <->
        (list.takeWhile isDeleted).length <= 0 := by
    intro list
    cases list with
    | nil => simp
    | cons first rest =>
        rw [List.takeWhile_cons]
        cases hfirst : isDeleted first <;> simp [hfirst]
  cases range with
  | whole => exact hone children
  | below found =>
      cases children with
      | nil => simp [first, skipFirst]
      | cons child rest =>
          unfold first skipFirst skips
          dsimp only
          rw [List.takeWhile_cons]
          cases hchild : isDeleted child with
          | true =>
              rw [if_pos rfl, if_pos rfl, hone rest, List.length_cons]
              omega
          | false => simp [hchild]

end Range

namespace FsCache

/-- A range over a node that is synchronised and fresh begins at its children,
and nothing is reloaded. -/
theorem beginRange_settled {cache : FsCache} {range : Range} {node : FsNode}
    {now : Int} (disk : Disk) (hnode : range.node cache = some node)
    (hlevel : 1 < node.cachingLevel)
    (hsettled : node.Settled now cache.invalidationTime) :
    (cache.beginRange disk now range).1 =
      Except.ok (Position.inTree (range.first node.children)) := by
  cases range with
  | whole =>
      cases hnode
      rw [beginRange, beginRoot, update_settled hsettled]
      rfl
  | below found =>
      cases found with
      | listed path => cases hnode
      | node names =>
          have hfound : cache.root.descendant names = some node := hnode
          rw [beginRange, beginFound, hfound]
          dsimp only
          rw [if_pos hlevel, update_settled hsettled]
          rfl

/-- Without a deleted child in front, the loop visits what it should. -/
theorem listsLive_filter {children : List (EntryName × FsNode)}
    (hsorted : Sorted children) :
    ListsLive children
      ((children.filter fun child => !isDeleted child).map Prod.fst) := by
  constructor
  · intro name
    rw [List.mem_map]
    constructor
    · intro h
      rcases h with ⟨entry, hentry, hname⟩
      rcases List.mem_filter.mp hentry with ⟨hmem, hlive⟩
      subst hname
      exact ⟨entry.2, hmem, by simpa [isDeleted] using hlive⟩
    · intro h
      rcases h with ⟨child, hmem, hlive⟩
      refine ⟨(name, child), List.mem_filter.mpr ⟨hmem, ?_⟩, rfl⟩
      simpa [isDeleted] using hlive
  · apply List.pairwise_map.mpr
    exact List.Pairwise.filter _ hsorted

/-- A loop that begins at a deleted child visits it. -/
theorem not_listsLive_of_head {children rest : List (EntryName × FsNode)}
    {entry : EntryName × FsNode} (hsorted : Sorted children)
    (hmem : entry ∈ children) (hdeleted : isDeleted entry = true) :
    ¬ ListsLive children (Position.inTree (entry :: rest)).visited := by
  intro h
  have hvisited : entry.1 ∈ (Position.inTree (entry :: rest)).visited := by
    rw [Position.visited_inTree_cons]
    exact List.mem_cons_self
  rcases (h.live entry.1).mp hvisited with ⟨child, hchild, hlive⟩
  have hfirst := (lookup_eq_some_iff hsorted).mpr ⟨hmem, rfl⟩
  have hsecond := (lookup_eq_some_iff hsorted).mpr ⟨hchild, rfl⟩
  have heq : entry = (entry.1, child) :=
    Option.some.inj (hfirst.symm.trans hsecond)
  rw [heq] at hdeleted
  exact hlive (by simpa [isDeleted] using hdeleted)

/-- The loop over a synchronised and fresh node visits exactly the children that
are not deleted when no more of them are deleted in front than `begin` can
skip: none in the cache itself, and one below an iterator. -/
theorem listsLive_visited_iff (cache : FsCache) (disk : Disk) (now : Int)
    (range : Range) (node : FsNode) (hnode : range.node cache = some node)
    (hlevel : 1 < node.cachingLevel)
    (hsettled : node.Settled now cache.invalidationTime)
    (hsorted : Sorted node.children) :
    (exists position,
        (cache.beginRange disk now range).1 = Except.ok position ∧
          ListsLive node.children position.visited) <->
      (node.children.takeWhile isDeleted).length <= range.skips := by
  have hbegin := beginRange_settled disk hnode hlevel hsettled
  have hvisits : (exists position,
      (cache.beginRange disk now range).1 = Except.ok position ∧
        ListsLive node.children position.visited) <->
      ListsLive node.children
        (Position.inTree (range.first node.children)).visited := by
    rw [hbegin]
    constructor
    · intro h
      rcases h with ⟨position, hposition, hlists⟩
      cases hposition
      exact hlists
    · intro h
      exact ⟨_, rfl, h⟩
  have hfilter := range.filter_first node.children
  have hsuffix := range.first_suffix node.children
  rw [hvisits, ← range.head_first_iff]
  cases hfirst : range.first node.children with
  | nil =>
      rw [hfirst, List.filter_nil] at hfilter
      have hlists := listsLive_filter hsorted
      rw [← hfilter] at hlists
      constructor
      · intro _ child hchild
        cases hchild
      · intro _
        rw [Position.visited_inTree_nil]
        exact hlists
  | cons entry rest =>
      rw [hfirst] at hfilter hsuffix
      constructor
      · intro hlists child hchild
        cases hchild
        cases hdeleted : isDeleted entry with
        | false => rfl
        | true =>
            have hmem := hsuffix.subset List.mem_cons_self
            exact absurd hlists (not_listsLive_of_head hsorted hmem hdeleted)
      · intro hlive
        have hentry := hlive entry rfl
        have hlists := listsLive_filter hsorted
        rw [← hfilter, List.filter_cons_of_pos (by simp [hentry]),
          List.map_cons] at hlists
        rw [Position.visited_inTree_cons]
        exact hlists

/-- A cache that has been loaded at time 5, with one entry in this state. -/
def sampleListing (state : NodeState) : FsCache where
  path := str "/p"
  maxCachingLevel := 3
  invalidationTime := 10
  root :=
    { state := NodeState.sync
      lastUpdated := 5
      cachingLevel := 3
      children := [(sampleName, { fresh 5 2 with state := state })] }

/-- A directory whose first and third entries are deleted. -/
def sampleRow : FsNode where
  state := NodeState.sync
  lastUpdated := 5
  cachingLevel := 2
  children :=
    [(sampleName, { fresh 5 1 with state := NodeState.deleted }),
      (nameB, fresh 5 1),
      (nameC, { fresh 5 1 with state := NodeState.deleted }),
      (nameD, { fresh 5 1 with state := NodeState.sync })]

/-- A cache that has been loaded at time 5, with this directory. -/
def sampleRows : FsCache where
  path := str "/p"
  maxCachingLevel := 3
  invalidationTime := 10
  root :=
    { state := NodeState.sync
      lastUpdated := 5
      cachingLevel := 3
      children := [(sampleName, sampleRow)] }

theorem listsLive_visited_iff_sample :
    exists position,
      (sampleRows.beginRange closedDisk 6 (Range.below (Found.node [sampleName]))).1 =
          Except.ok position ∧
        ListsLive sampleRow.children position.visited :=
  (listsLive_visited_iff sampleRows closedDisk 6 (Range.below (Found.node [sampleName]))
    sampleRow rfl (by decide) (by decide) (by decide)).mpr (by decide)

/-- The only entry is gone, and the loop over the cache visits it. -/
theorem listsLive_visited_not_everywhere :
    ¬ forall (cache : FsCache) (disk : Disk) (now : Int) (range : Range)
        (node : FsNode), range.node cache = some node ->
        1 < node.cachingLevel -> node.Settled now cache.invalidationTime ->
        Sorted node.children ->
        exists position,
          (cache.beginRange disk now range).1 = Except.ok position ∧
            ListsLive node.children position.visited := by
  intro h
  have hlists := h (sampleListing NodeState.deleted) closedDisk 6 Range.whole
    (sampleListing NodeState.deleted).root rfl (by decide) (by decide)
    (List.pairwise_singleton _ _)
  rcases hlists with ⟨position, hposition, hlists⟩
  cases hposition
  exact not_listsLive_of_head (List.pairwise_singleton _ _)
    List.mem_cons_self (by decide) hlists

end FsCache

end CisWebui
