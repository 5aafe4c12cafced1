import CisWebui.Multipart.PartText

/-!
# The beginning of a part

The message parser goes through its states in one direction, so that where it is
tells what it has read: a beginning of the header, a name that has begun, or a
header and something of a body.  It reads what some part begins with, and it
stays where it is at a byte that no part goes on with.
-/

namespace CisWebui
namespace Multipart

open Cpp
open Foundation

/-!
## Parts and their beginnings
-/

namespace Part

/-- What comes before the name. -/
def nameHeader : Str :=
  str "Content-Disposition: form-data; name=\""

end Part

def IsPart (text : Str) : Prop :=
  exists part : Part, part.Valid ∧ text = part.text

/-- Some part begins with the text. -/
def Begins (text : Str) : Prop :=
  exists part : Part, part.Valid ∧ text <+: part.text

/-- The beginning of a part up to the quote that ends its filename. -/
def NamesFile (text : Str) : Prop :=
  exists name filename : Str, ¬ chr '"' ∈ name ∧ ¬ chr '"' ∈ filename ∧
    text = Part.nameHeader ++ name ++ str "\"; filename=\"" ++ filename ++ [chr '"']

namespace MessageState

/-- The name of the part is not complete. -/
def nameless : MessageState -> Bool
  | start => true
  | contentDisposition => true
  | name => true
  | _ => false

/-- The order in which the states are gone through. -/
def rank : MessageState -> Nat
  | start => 0
  | contentDisposition => 1
  | name => 2
  | maybeFilename => 3
  | filename => 4
  | filenameBody => 5
  | contentType => 6
  | contentTypeBody => 7
  | preBody => 8
  | body => 9

theorem nameless_iff (state : MessageState) : state.nameless = true <-> state.rank <= 2 := by
  cases state <;> decide

end MessageState

namespace MessageParser

theorem rank_le_expect {state : MessageState} {p : MessageParser} (c : UInt8)
    {next : MessageState} {event : MessageEvent} (hp : state.rank <= p.state.rank)
    (h : state.rank <= next.rank) : state.rank <= (p.expect c next event).parser.state.rank := by
  unfold expect
  split
  · split
    · exact h
    · exact hp
  · exact hp

theorem rank_le_handleMessageChar (p : MessageParser) (c : UInt8) :
    p.state.rank <= (p.handleMessageChar c).parser.state.rank := by
  rcases p with ⟨state, transition⟩
  unfold handleMessageChar
  cases state with
  | start => exact Nat.zero_le _
  | contentDisposition => exact rank_le_expect c le_rfl (by simp [MessageState.rank])
  | name =>
      dsimp only
      split <;> simp [MessageState.rank]
  | maybeFilename =>
      dsimp only
      split
      · simp [MessageState.rank, goReset]
      · split <;> simp [MessageState.rank, goReset, trNext]
  | filename => exact rank_le_expect c le_rfl (by simp [MessageState.rank])
  | filenameBody =>
      dsimp only
      split <;> simp [MessageState.rank, goReset]
  | contentType => exact rank_le_expect c le_rfl (by simp [MessageState.rank])
  | contentTypeBody =>
      dsimp only
      split <;> simp [MessageState.rank, goReset, trNext]
  | preBody => exact rank_le_expect c le_rfl (by simp [MessageState.rank])
  | body => exact le_rfl

theorem rank_le_run (text : Str) : forall {p q : MessageParser} {marks : List Mark},
    Transducer.run read p text = some (q, marks) -> p.state.rank <= q.state.rank := by
  induction text with
  | nil =>
      intro p q marks h
      cases h
      exact le_rfl
  | cons c text ih =>
      intro p q marks h
      rcases Transducer.exists_of_run_cons h with ⟨r, u, v, hread, hrest, -⟩
      have hstep := rank_le_handleMessageChar p c
      rw [read] at hread
      split at hread
      · cases hread
      · cases hread
        exact hstep.trans (ih hrest)

/-- What is read of a literal is a beginning of it. -/
theorem run_literal_prefix {state next : MessageState} {event : MessageEvent}
    (h : Expects state next event) (front : Str) {rest : Str} (hrest : ¬ rest = []) :
    Transducer.run read ⟨state, front ++ rest⟩ front =
      some (⟨state, rest⟩, silent front) := by
  induction front with
  | nil => rfl
  | cons c front ih =>
      have hstep : read ⟨state, c :: (front ++ rest)⟩ c =
          some (⟨state, front ++ rest⟩, silent [c]) := by
        rcases List.exists_cons_of_ne_nil (List.append_ne_nil_of_right_ne_nil front hrest)
          with ⟨d, more, hmore⟩
        rw [hmore]
        exact read_expect h c d more
      rw [List.cons_append, Transducer.run_cons_of_step hstep, ih]
      rfl

theorem exists_rest_of_run_literal {state next : MessageState} {event : MessageEvent}
    (h : Expects state next event) (hrank : state.rank < next.rank) (literal : Str)
    (hne : ¬ literal = []) : forall {text : Str} {q : MessageParser} {marks : List Mark},
      Transducer.run read ⟨state, literal⟩ text = some (q, marks) -> q.state = state ->
      exists rest, ¬ rest = [] ∧ literal = text ++ rest := by
  induction literal with
  | nil => exact absurd rfl hne
  | cons c rest ih =>
      intro text q marks hrun hq
      cases text with
      | nil => exact ⟨c :: rest, hne, rfl⟩
      | cons d text =>
          rcases Transducer.exists_of_run_cons hrun with ⟨p, u, v, hread, hlast, -⟩
          by_cases heq : d = c
          · subst heq
            cases rest with
            | nil =>
                rw [read_expect_last h] at hread
                cases hread
                have hle := rank_le_run text hlast
                rw [hq] at hle
                exact absurd hrank (Nat.not_lt.mpr hle)
            | cons e rest =>
                rw [read_expect h] at hread
                cases hread
                rcases ih (by simp) hlast hq with ⟨more, hmore, heq⟩
                exact ⟨more, hmore, by rw [heq]; rfl⟩
          · rw [read_expect_ne h heq] at hread
            cases hread

/-- A value that goes on. -/
theorem run_value_part {state : MessageState} {stop : UInt8} {next : MessageParser}
    {event : MessageEvent} (h : Collects state stop next event) {value : Str}
    (hvalue : ¬ stop ∈ value) :
    Transducer.run read ⟨state, []⟩ value = some (⟨state, []⟩, silent value) := by
  induction value with
  | nil => rfl
  | cons c rest ih =>
      rw [List.mem_cons, not_or] at hvalue
      have hne : ¬ c = stop := fun heq => hvalue.left heq.symm
      have hstep : read ⟨state, []⟩ c = some (⟨state, []⟩, silent [c]) := by
        simp [read, h c, hne, silent]
      rw [Transducer.run_cons_of_step hstep, ih hvalue.right]
      rfl

theorem not_mem_of_run_value {state : MessageState} {stop : UInt8} {next : MessageParser}
    {event : MessageEvent} (h : Collects state stop next event)
    (hrank : state.rank < next.state.rank) {text : Str} {q : MessageParser}
    {marks : List Mark} (hrun : Transducer.run read ⟨state, []⟩ text = some (q, marks))
    (hq : q.state = state) : ¬ stop ∈ text := by
  intro hstop
  rcases List.eq_append_cons_of_mem hstop with ⟨value, rest, rfl, hvalue⟩
  rw [List.append_cons] at hrun
  rcases Transducer.exists_of_run_append hrun with ⟨p, u, v, hp, hrest, -⟩
  rw [run_value h hvalue] at hp
  cases hp
  have hle := rank_le_run rest hrest
  rw [hq] at hle
  exact absurd hrank (Nat.not_lt.mpr hle)

/-!
## To the end of a header
-/

/-- What is left of the literal, where there is one. -/
structure Intact (p : MessageParser) : Prop where
  left : p.transition <:+ literal p.state
  none_iff : p.transition = [] <-> literal p.state = []

theorem intact_expect {state next : MessageState} {event : MessageEvent}
    (h : Expects state next event) (hnext : literal next = []) {transition : Str} {c : UInt8}
    (hp : Intact ⟨state, transition⟩)
    (hok : (handleMessageChar ⟨state, transition⟩ c).failed = false) :
    (handleMessageChar ⟨state, transition⟩ c).parser.Intact := by
  rw [h] at hok ⊢
  unfold expect at hok ⊢
  split
  · split
    · rename_i htail
      exact ⟨by rw [htail]; exact List.nil_suffix, by simp [htail, hnext]⟩
    · rename_i htail
      refine ⟨(List.tail_suffix transition).trans hp.left, iff_of_false htail ?_⟩
      intro hnone
      have hnil : transition = [] := hp.none_iff.mpr hnone
      apply htail
      change transition.tail = []
      rw [hnil]
      rfl
  · rename_i hhead
    rw [if_neg hhead] at hok
    cases hok

theorem intact_value (state : MessageState) (h : literal state = []) :
    Intact ⟨state, []⟩ :=
  ⟨List.nil_suffix, iff_of_true rfl h⟩

theorem intact_literal {state : MessageState} : Intact ⟨state, literal state⟩ :=
  ⟨List.suffix_rfl, Iff.rfl⟩

theorem intact_preBody :
    Intact ⟨MessageState.preBody, (literal MessageState.preBody).tail⟩ :=
  ⟨List.tail_suffix (literal MessageState.preBody), by decide⟩

theorem intact_handleMessageChar {p : MessageParser} (hp : p.Intact) {c : UInt8}
    (hok : (p.handleMessageChar c).failed = false) :
    (p.handleMessageChar c).parser.Intact := by
  rcases p with ⟨state, transition⟩
  cases state with
  | start => exact intact_expect expects_contentDisposition rfl intact_literal hok
  | contentDisposition => exact intact_expect expects_contentDisposition rfl hp hok
  | name =>
      have hnone : transition = [] := hp.none_iff.mpr rfl
      subst hnone
      rw [collects_name]
      split
      · exact intact_value _ rfl
      · exact intact_value _ rfl
  | maybeFilename =>
      unfold handleMessageChar at hok ⊢
      dsimp only at hok ⊢
      split
      · exact intact_literal
      · split
        · exact intact_preBody
        · exact hp
  | filename => exact intact_expect expects_filename rfl hp hok
  | filenameBody =>
      have hnone : transition = [] := hp.none_iff.mpr rfl
      subst hnone
      rw [collects_filenameBody]
      split
      · exact intact_literal
      · exact intact_value _ rfl
  | contentType => exact intact_expect expects_contentType rfl hp hok
  | contentTypeBody =>
      have hnone : transition = [] := hp.none_iff.mpr rfl
      subst hnone
      rw [collects_contentTypeBody]
      split
      · exact intact_preBody
      · exact intact_value _ rfl
  | preBody => exact intact_expect expects_preBody rfl hp hok
  | body => exact hp

theorem intact_run (text : Str) : forall {p q : MessageParser} {marks : List Mark},
    p.Intact -> Transducer.run read p text = some (q, marks) -> q.Intact := by
  induction text with
  | nil =>
      intro p q marks hp h
      cases h
      exact hp
  | cons c text ih =>
      intro p q marks hp h
      rcases Transducer.exists_of_run_cons h with ⟨r, u, v, hread, hrest, -⟩
      rw [read] at hread
      split at hread
      · cases hread
      · rename_i hok
        cases hread
        exact ih (intact_handleMessageChar hp (Bool.not_eq_true _ ▸ hok)) hrest

/-- Something leads on to a body. -/
def Completes (p : MessageParser) : Prop :=
  exists more marks, Transducer.run read p more = some (⟨MessageState.body, []⟩, marks)

theorem completes_of_run {p q : MessageParser} {text : Str} {marks : List Mark}
    (hrun : Transducer.run read p text = some (q, marks)) (hq : q.Completes) :
    p.Completes := by
  rcases hq with ⟨more, last, hmore⟩
  exact ⟨text ++ more, marks ++ last, Transducer.run_append hrun hmore⟩

theorem completes_literal {state next : MessageState} {event : MessageEvent}
    (h : Expects state next event) {transition : Str} (hp : Intact ⟨state, transition⟩)
    (hstate : ¬ literal state = []) (hnext : Completes ⟨next, []⟩) :
    Completes ⟨state, transition⟩ := by
  rcases List.eq_nil_or_concat' transition with rfl | ⟨front, c, rfl⟩
  · exact absurd (hp.none_iff.mp rfl) hstate
  · exact completes_of_run (run_literal h front c) hnext

theorem completes_value {state : MessageState} {stop : UInt8} {next : MessageParser}
    {event : MessageEvent} (h : Collects state stop next event) {transition : Str}
    (hp : Intact ⟨state, transition⟩) (hstate : literal state = [])
    (hnext : next.Completes) : Completes ⟨state, transition⟩ := by
  have hnone : transition = [] := hp.none_iff.mpr hstate
  subst hnone
  exact completes_of_run (run_value h (List.not_mem_nil (a := stop))) hnext

/-- From every state there is a way to a body. -/
theorem completes_of_intact {p : MessageParser} (hp : p.Intact) : p.Completes := by
  have hbody : Completes ⟨MessageState.body, []⟩ := ⟨[], [], rfl⟩
  have hpreBody : forall {transition}, Intact ⟨MessageState.preBody, transition⟩ ->
      Completes ⟨MessageState.preBody, transition⟩ :=
    fun h => completes_literal expects_preBody h (by decide) hbody
  have hcontentType : forall {transition}, Intact ⟨MessageState.contentType, transition⟩ ->
      Completes ⟨MessageState.contentType, transition⟩ :=
    fun h => completes_literal expects_contentType h (by decide)
      (completes_value collects_contentTypeBody (intact_value _ rfl) rfl
        (hpreBody intact_preBody))
  have hfilename : forall {transition}, Intact ⟨MessageState.filename, transition⟩ ->
      Completes ⟨MessageState.filename, transition⟩ :=
    fun h => completes_literal expects_filename h (by decide)
      (completes_value collects_filenameBody (intact_value _ rfl) rfl
        (hcontentType intact_literal))
  have hmaybe : Completes ⟨MessageState.maybeFilename, []⟩ :=
    completes_of_run (Transducer.run_singleton read_return) (hpreBody intact_preBody)
  have hdisposition : forall {transition},
      Intact ⟨MessageState.contentDisposition, transition⟩ ->
      Completes ⟨MessageState.contentDisposition, transition⟩ :=
    fun h => completes_literal expects_contentDisposition h (by decide)
      (completes_value collects_name (intact_value _ rfl) rfl hmaybe)
  rcases p with ⟨state, transition⟩
  cases state with
  | start =>
      have hrun := run_literal expects_contentDisposition
        (str "Content-Disposition: form-data; name=") (chr '"')
      have hstart : Transducer.run read ⟨MessageState.start, transition⟩
          (str "Content-Disposition: form-data; name=" ++ [chr '"']) = _ :=
        (run_start rfl).trans hrun
      exact completes_of_run hstart
        (completes_value collects_name (intact_value _ rfl) rfl hmaybe)
  | contentDisposition => exact hdisposition hp
  | name => exact completes_value collects_name hp rfl hmaybe
  | maybeFilename =>
      have hnone : transition = [] := hp.none_iff.mpr rfl
      subst hnone
      exact hmaybe
  | filename => exact hfilename hp
  | filenameBody =>
      exact completes_value collects_filenameBody hp rfl (hcontentType intact_literal)
  | contentType => exact hcontentType hp
  | contentTypeBody =>
      exact completes_value collects_contentTypeBody hp rfl (hpreBody intact_preBody)
  | preBody => exact hpreBody hp
  | body =>
      have hnone : transition = [] := hp.none_iff.mpr rfl
      subst hnone
      exact hbody

end MessageParser

/-!
## Reading from the start of a part
-/

/-- The parser has read the text from the start of a part. -/
def Reads (text : Str) (p : MessageParser) : Prop :=
  exists marks, Transducer.run MessageParser.read {} text = some (p, marks)

section

variable {p q : MessageParser} {text more held : Str} {marks : List Mark}

theorem reads_nil : Reads [] {} :=
  ⟨[], rfl⟩

theorem reads_append (hp : Reads text p)
    (hrun : Transducer.run MessageParser.read p more = some (q, marks)) :
    Reads (text ++ more) q := by
  rcases hp with ⟨first, hfirst⟩
  exact ⟨first ++ marks, Transducer.run_append hfirst hrun⟩

theorem reads_unique (hp : Reads text p) (hq : Reads text q) : p = q := by
  rcases hp with ⟨first, hfirst⟩
  rcases hq with ⟨second, hsecond⟩
  rw [hfirst] at hsecond
  exact congrArg Prod.fst (Option.some.inj hsecond)

theorem exists_reads (hq : Reads (text ++ more) q) : exists p, Reads text p := by
  rcases hq with ⟨all, hall⟩
  rcases Transducer.exists_of_run_append hall with ⟨p, u, v, hp, -, -⟩
  exact ⟨p, u, hp⟩

theorem run_of_reads (hp : Reads text p) (hq : Reads (text ++ more) q) :
    exists marks, Transducer.run MessageParser.read p more = some (q, marks) := by
  rcases hp with ⟨first, hfirst⟩
  rcases hq with ⟨all, hall⟩
  rcases Transducer.exists_of_run_append hall with ⟨r, u, v, hr, hmore, -⟩
  rw [hfirst] at hr
  cases hr
  exact ⟨v, hmore⟩

theorem reads_part {part : Part} (hvalid : part.Valid) :
    Reads part.text ⟨MessageState.body, []⟩ :=
  ⟨part.marks, MessageParser.run_part rfl hvalid⟩

/-- A text that ends in a body is that of a part. -/
theorem exists_part_of_reads (hp : Reads text p) (hbody : p.state = MessageState.body) :
    exists part : Part, part.Valid ∧ text = part.text ∧ p = ⟨MessageState.body, []⟩ := by
  rcases hp with ⟨marks, hrun⟩
  rcases MessageParser.exists_part rfl hrun hbody with ⟨part, hvalid, htext⟩
  have hpart := MessageParser.run_part (p := {}) rfl hvalid
  rw [← htext, hrun] at hpart
  cases hpart
  exact ⟨part, hvalid, htext, rfl⟩

theorem isPart_iff (hp : Reads text p) : p.state = MessageState.body <-> IsPart text := by
  constructor
  · intro hbody
    rcases exists_part_of_reads hp hbody with ⟨part, hvalid, htext, -⟩
    exact ⟨part, hvalid, htext⟩
  · rintro ⟨part, hvalid, rfl⟩
    rw [reads_unique hp (reads_part hvalid)]

/-- What the parser gets through is what some part begins with. -/
theorem begins_iff : Begins text <-> exists p, Reads text p := by
  constructor
  · rintro ⟨part, hvalid, rest, hrest⟩
    have hpart := reads_part hvalid
    rw [← hrest] at hpart
    exact exists_reads hpart
  · rintro ⟨p, marks, hrun⟩
    have hp := MessageParser.intact_run text MessageParser.intact_literal hrun
    rcases MessageParser.completes_of_intact hp with ⟨more, last, hmore⟩
    rcases exists_part_of_reads (reads_append ⟨marks, hrun⟩ hmore) rfl with
      ⟨part, hvalid, htext, -⟩
    exact ⟨part, hvalid, more, htext⟩

/-- A text that ends in the header of a part before its name has begun, or in
the name with bytes held back. -/
def StopsAt (text held : Str) : Prop :=
  (exists rest, ¬ rest = [] ∧ Part.nameHeader = text ++ rest) ∨
    (¬ held = [] ∧ exists name, ¬ chr '"' ∈ name ∧ text = Part.nameHeader ++ name)

theorem stopsAt_of_reads (hp : Reads text p) (hname : p.state.nameless = true)
    (hheld : ¬ (p.state = MessageState.name ∧ held = [])) : StopsAt text held := by
  rcases hp with ⟨marks, hrun⟩
  cases text with
  | nil => exact Or.inl ⟨Part.nameHeader, by decide, rfl⟩
  | cons c text =>
      rw [MessageParser.run_start rfl] at hrun
      by_cases hstate : p.state = MessageState.contentDisposition
      · exact Or.inl (MessageParser.exists_rest_of_run_literal
          MessageParser.expects_contentDisposition (by decide) Part.nameHeader (by decide)
          hrun hstate)
      · right
        rcases MessageParser.after_literal MessageParser.expects_contentDisposition
          (str "Content-Disposition: form-data; name=") (chr '"') hrun hstate with
          ⟨name, more, htext, hrest⟩
        have hin : p.state = MessageState.name := by
          have hle := MessageParser.rank_le_run name hrest
          have hlt := (MessageState.nameless_iff _).mp hname
          revert hle hlt hstate
          cases p.state <;> simp [MessageState.rank]
        refine ⟨fun hnone => hheld ⟨hin, hnone⟩, name, ?_, htext⟩
        exact MessageParser.not_mem_of_run_value MessageParser.collects_name (by decide)
          hrest hin

theorem reads_of_stopsAt (h : StopsAt text held) : exists p, Reads text p ∧
    p.state.nameless = true ∧ ¬ (p.state = MessageState.name ∧ held = []) := by
  rcases h with ⟨rest, hrest, hheader⟩ | ⟨hheld, name, hname, rfl⟩
  · cases text with
    | nil => exact ⟨{}, reads_nil, rfl, by simp⟩
    | cons c text =>
        have hrun := MessageParser.run_literal_prefix
          MessageParser.expects_contentDisposition (c :: text) hrest
        rw [← hheader] at hrun
        refine ⟨_, ⟨_, (MessageParser.run_start rfl).trans hrun⟩, rfl, by simp⟩
  · have hrun := Transducer.run_append
      (MessageParser.run_literal MessageParser.expects_contentDisposition
        (str "Content-Disposition: form-data; name=") (chr '"'))
      (MessageParser.run_value_part MessageParser.collects_name hname)
    exact ⟨⟨MessageState.name, []⟩, ⟨_, (MessageParser.run_start rfl).trans hrun⟩, rfl,
      fun hnone => hheld hnone.right⟩

end

end Multipart
end CisWebui
