import Mathlib.Data.Fin.Basic
import Mathlib.Order.Fin.Basic
import CisWebui.Cpp.Bytes
import CisWebui.Foundation.EventSystem
import CisWebui.Foundation.SortedMap

/-!
# The close handlers of a queue

`websocket_queue` keeps the handlers to call when the connection is closed in a
map, under ids that it hands out.  A new id is made from the last key of the
map, and a key that is taken is not put in again.
-/

namespace CisWebui
namespace Net

open Foundation

/-- `uint32_t` -/
abbrev CloseHandlerId := Fin (2 ^ 32)

/-- `close_handlers_` -/
abbrev CloseHandlers (Handler : Type) := SortedMap CloseHandlerId Handler

namespace CloseHandlers

variable {Handler : Type}

/-- `add_close_handler` -/
def add (handlers : CloseHandlers Handler) (handler : Handler) :
    CloseHandlers Handler × CloseHandlerId :=
  match handlers.last? with
  | none => (handlers.emplace 0 handler, 0)
  | some (key, _) => (handlers.emplace (key - 1) handler, key - 1)

/-- `remove_close_handler` -/
def remove (handlers : CloseHandlers Handler) (id : CloseHandlerId) :
    CloseHandlers Handler :=
  handlers.erase id

/-- `close`: the handlers in the order of their calls. -/
def close (handlers : CloseHandlers Handler) : List Handler :=
  handlers.entries.map Prod.snd

end CloseHandlers

/-!
## Registrations
-/

inductive CloseHandlerCall (Handler : Type) where
  | add (handler : Handler)
  | remove (id : CloseHandlerId)

/-- A queue, and what its callers have registered: the ids they were given and
have not removed, each with its handler. -/
structure Registrations (Handler : Type) where
  handlers : CloseHandlers Handler
  registered : List (CloseHandlerId × Handler)

namespace Registrations

variable {Handler : Type}

def initial : Registrations Handler where
  handlers := SortedMap.empty
  registered := []

def ids (s : Registrations Handler) : List CloseHandlerId :=
  s.registered.map Prod.fst

/-- A call; only an id that has been given and not been removed is removed. -/
def step (s : Registrations Handler) :
    CloseHandlerCall Handler -> Option (Registrations Handler)
  | CloseHandlerCall.add handler =>
      let added := s.handlers.add handler
      some
        { handlers := added.1
          registered := s.registered ++ [(added.2, handler)] }
  | CloseHandlerCall.remove id =>
      if id ∈ s.ids then
        some
          { handlers := s.handlers.remove id
            registered := s.registered.filter fun entry => entry.1 ≠ id }
      else
        none

def system (Handler : Type) :
    EventSystem (Registrations Handler) (CloseHandlerCall Handler) where
  init := initial
  step := step

/-- No two handlers have one id, every handler is stored under its own, and
`close` calls exactly the registered ones, each once. -/
structure Faithful (s : Registrations Handler) : Prop where
  distinct : s.ids.Nodup
  stored : forall {id handler}, (id, handler) ∈ s.registered ->
    s.handlers.find? id = some handler
  closes : s.handlers.close.Perm (s.registered.map Prod.snd)

/-- The id below the largest one is free; below zero is the largest number. -/
def RoomBelow (s : Registrations Handler) : CloseHandlerCall Handler -> Prop
  | CloseHandlerCall.add _ =>
      forall id, id ∈ s.ids -> (forall other, other ∈ s.ids -> other <= id) ->
        ¬ id - 1 ∈ s.ids
  | CloseHandlerCall.remove _ => True

/-!
## The map and the registrations
-/

/-- The map has the registrations and nothing else. -/
def Mirrors (s : Registrations Handler) : Prop :=
  s.handlers.entries.Perm s.registered

section Mirrors

variable {s t : Registrations Handler}

theorem has_iff (h : s.Mirrors) {id : CloseHandlerId} :
    s.handlers.Has id <-> id ∈ s.ids := by
  unfold SortedMap.Has ids
  rw [List.mem_map]
  constructor
  · rintro ⟨handler, hmem⟩
    exact ⟨(id, handler), h.mem_iff.mp hmem, rfl⟩
  · rintro ⟨⟨id', handler⟩, hmem, rfl⟩
    exact ⟨handler, h.mem_iff.mpr hmem⟩

theorem faithful_of_mirrors (h : s.Mirrors) : s.Faithful where
  distinct := (h.map Prod.fst).nodup_iff.mp s.handlers.nodup_keys
  stored := by
    intro id handler hmem
    exact SortedMap.find?_eq_some_iff.mpr (h.mem_iff.mpr hmem)
  closes := h.map Prod.snd

/-- An added handler gets an id, which is free just when there is room. -/
theorem add_eq (h : s.Mirrors) (handler : Handler) :
    exists id, s.handlers.add handler = (s.handlers.emplace id handler, id) ∧
      (s.RoomBelow (CloseHandlerCall.add handler) <-> ¬ id ∈ s.ids) := by
  unfold CloseHandlers.add
  cases hlast : s.handlers.last? with
  | none =>
      refine ⟨0, rfl, ?_⟩
      have hnil : s.registered = [] := by
        have hperm : s.handlers.entries.Perm s.registered := h
        rw [SortedMap.eq_nil_of_last? hlast] at hperm
        exact hperm.nil_eq.symm
      have hids : s.ids = [] := by
        rw [ids, hnil, List.map_nil]
      unfold RoomBelow
      rw [hids]
      simp
  | some last =>
      rcases last with ⟨key, value⟩
      refine ⟨key - 1, rfl, ?_⟩
      have hkey : key ∈ s.ids := (has_iff h).mp ⟨value, SortedMap.mem_of_last? hlast⟩
      have hlargest : forall other, other ∈ s.ids -> other <= key := by
        intro other hother
        rcases (has_iff h).mpr hother with ⟨value', hmem⟩
        exact SortedMap.le_of_last? hlast hmem
      constructor
      · intro hroom
        exact hroom key hkey hlargest
      · intro hfree id hid hgreatest
        have hsame : id = key := le_antisymm (hlargest id hid) (hgreatest key hkey)
        rw [hsame]
        exact hfree

theorem mirrors_step {call : CloseHandlerCall Handler} (h : s.Mirrors)
    (hroom : s.RoomBelow call) (hstep : s.step call = some t) : t.Mirrors := by
  cases call with
  | add handler =>
      rcases add_eq h handler with ⟨id, hadd, hfree⟩
      have hnew : ¬ s.handlers.Has id := by
        rw [has_iff h]
        exact hfree.mp hroom
      cases hstep
      rw [hadd]
      have hperm := SortedMap.perm_emplace hnew handler
      exact (hperm.trans (h.cons (id, handler))).trans
        (List.perm_append_singleton _ _).symm
  | remove id =>
      rw [step] at hstep
      split at hstep
      · cases hstep
        exact h.filter _
      · cases hstep

theorem roomBelow_of_faithful {call : CloseHandlerCall Handler} (h : s.Mirrors)
    (hstep : s.step call = some t) (ht : t.Faithful) : s.RoomBelow call := by
  cases call with
  | add handler =>
      rcases add_eq h handler with ⟨id, hadd, hfree⟩
      apply hfree.mpr
      intro hmem
      cases hstep
      have hdistinct : ((s.registered ++ [((s.handlers.add handler).2, handler)]).map
          Prod.fst).Nodup := ht.distinct
      rw [hadd, List.map_append, List.nodup_append] at hdistinct
      exact hdistinct.right.right id hmem id (List.mem_singleton_self id) rfl
  | remove id => trivial

end Mirrors

/-- In a run of calls every handler is registered as it should be just when every
new handler finds room below the largest id. -/
theorem everyState_faithful_iff (calls : List (CloseHandlerCall Handler)) :
    (system Handler).EveryState Faithful initial calls <->
      (system Handler).EveryStep RoomBelow initial calls := by
  refine @EventSystem.everyState_iff_everyStep _ _ (system Handler) Mirrors Faithful
    RoomBelow ?_ ?_ ?_ initial calls ?_
  · intro s call t hs hroom hstep
    exact mirrors_step hs hroom hstep
  · intro s call t hs hstep ht
    exact roomBelow_of_faithful hs hstep ht
  · intro s hs
    exact faithful_of_mirrors hs
  · exact List.Perm.refl _

/-- Four handlers: the last two get the same id. -/
theorem everyState_faithful_not_everywhere :
    ¬ forall calls : List (CloseHandlerCall Nat),
      (system Nat).EveryState Faithful initial calls := by
  intro h
  have hall := h [CloseHandlerCall.add 1, CloseHandlerCall.add 2,
    CloseHandlerCall.add 3, CloseHandlerCall.add 4]
  have hlast := EventSystem.everyState_last hall rfl
  exact absurd hlast.distinct (by decide)

end Registrations

end Net
end CisWebui
