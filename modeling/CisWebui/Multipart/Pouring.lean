import CisWebui.Multipart.Mending

/-!
# Texts poured together

The end of a part is never refused, so the text before a delimiter and the text
behind it are one for the message parser until they are a part.  What the two
parsers make of a body after its opening line is told by its texts, the bytes
held back at each place, and the bytes that are struck out.
-/

namespace CisWebui
namespace Multipart

open Cpp
open Foundation Foundation.PrefixMatching

/-!
## Over the tokens
-/

theorem take_of_step {h last : Headers} {token : Token} (hstep : h.step token = some last) :
    Headers.take (h, false) token = (last, false) := by
  unfold Headers.step at hstep
  unfold Headers.take
  cases token with
  | messageBegin =>
      cases hstep
      rfl
  | messageEnd =>
      dsimp only at hstep ⊢
      split at hstep
      · cases hstep
      · cases hstep
        rfl
  | byte b =>
      dsimp only at hstep ⊢
      split
      · rename_i hmessage
        rw [if_pos hmessage] at hstep
        split at hstep
        · cases hstep
        · rename_i hfailed
          cases hstep
          simp [hfailed]
      · rename_i hmessage
        rw [if_neg hmessage] at hstep
        cases hstep
        rfl

/-- Where no token is refused, no error stands. -/
theorem takeAll_of_steps {toks : List Token} : forall {h last : Headers},
    h.steps toks = some last -> Headers.takeAll (h, false) toks = (last, false) := by
  induction toks with
  | nil =>
      intro h last hsteps
      cases hsteps
      rfl
  | cons token rest ih =>
      intro h last hsteps
      change (h.step token).bind (fun q => q.steps rest) = some last at hsteps
      rcases Option.bind_eq_some_iff.mp hsteps with ⟨q, htoken, hrest⟩
      change Headers.takeAll (Headers.take (h, false) token) rest = (last, false)
      rw [take_of_step htoken]
      exact ih hrest

theorem scans_of_goOn {body : Str} : forall {s : Scanner} {h : Headers}
    {x : Scanner × Headers} {toks : List Token},
    Transducer.run goOn (s, h) body = some (x, toks) ->
      Transducer.run Scanner.scan s body = some (x.1, toks) := by
  induction body with
  | nil =>
      intro s h x toks hrun
      cases hrun
      rfl
  | cons b rest ih =>
      intro s h x toks hrun
      rcases Transducer.exists_of_run_cons hrun with ⟨y, u, v, hgo, hrest, rfl⟩
      rw [Transducer.run_cons_of_step (goOn_eq_some_iff.mp hgo).left, ih hrest, Option.map_some]

theorem goOn_of_steps {body : Str} : forall {s y : Scanner} {h last : Headers}
    {toks : List Token}, Transducer.run Scanner.scan s body = some (y, toks) ->
      h.steps toks = some last ->
      Transducer.run goOn (s, h) body = some ((y, last), toks) := by
  induction body with
  | nil =>
      intro s y h last toks hscan hsteps
      cases hscan
      cases hsteps
      rfl
  | cons b rest ih =>
      intro s y h last toks hscan hsteps
      rcases Transducer.exists_of_run_cons hscan with ⟨z, u, v, hb, hrest, rfl⟩
      rw [Headers.steps_append] at hsteps
      rcases Option.bind_eq_some_iff.mp hsteps with ⟨q, hu, hv⟩
      have hgo : goOn (s, h) b = some ((z, q), u) :=
        goOn_eq_some_iff.mpr ⟨hb, takeAll_of_steps hu⟩
      rw [Transducer.run_cons_of_step hgo, ih hrest hv, Option.map_some]

/-- Where no byte is refused, the headers are where the lenient run has them. -/
theorem last_of_steps {body : Str} {s : Scanner} {h last : Headers}
    {x : Scanner × Headers} {toks : List Token}
    (hrun : Transducer.run goOn (s, h) body = some (x, toks))
    (hsteps : h.steps toks = some last) : x.2 = last := by
  have hother := goOn_of_steps (scans_of_goOn hrun) hsteps
  rw [hrun] at hother
  exact congrArg (fun next => next.1.2) (Option.some.inj hother)

/-!
## What comes of the texts
-/

/-- The bytes of a text that have come in behind `text`, what is left of those
let go, and those held back; each byte lets go what the delimiter can no longer
begin with.  The flag tells whether any are struck out. -/
inductive Feeds (boundary text : Str) : Str -> Str -> Str -> Bool -> Prop where
  | nil : Feeds boundary text [] [] [] false
  | byte {u left held w more held' : Str} {c : UInt8} {struck struck' : Bool} :
      Feeds boundary text u left held struck ->
      LongestOverlap (delimiter boundary) (u ++ [c]) held'.length ->
      held ++ [c] = w ++ held' -> Mends (text ++ left) w more struck' ->
      Feeds boundary text (u ++ [c]) (left ++ more) held' (struck || struck')

/-- What the header goes on with behind a text that a delimiter ends: nothing
where the text completes a part, or all that there is so far. -/
inductive Ends (boundary before t : Str) : Str -> Bool -> Prop where
  | whole {left : Str} {struck : Bool} :
      Feeds boundary before (t ++ (delimiter boundary).dropLast) left
        (delimiter boundary).dropLast struck ->
      IsPart (before ++ left) -> Ends boundary before t [] struck
  | cut {left : Str} {struck : Bool} :
      Feeds boundary before (t ++ (delimiter boundary).dropLast) left
        (delimiter boundary).dropLast struck ->
      ¬ IsPart (before ++ left) -> Ends boundary before t (before ++ left) true

/-- A body after its opening line, or after a delimiter, cut at the delimiters
and poured together behind `before`: what is left begun at the end, the bytes
held back, and whether it is flawed.  It is where a byte is struck out, where a
delimiter comes before a part is complete, and where the last one is not
closed. -/
inductive Pours (boundary : Str) : Str -> Str -> Str -> Str -> Bool -> Prop where
  | unended {before text left held : Str} {struck : Bool} :
      ¬ delimiter boundary <:+: text -> Feeds boundary before text left held struck ->
      Pours boundary before text (before ++ left) held true
  | broken {before t after held : Str} {flawed : Bool} :
      Delimits (delimiter boundary) t -> Ends boundary before t after flawed ->
      held ∈ [[], str "-", str "\r"] ->
      Pours boundary before (t ++ delimiter boundary ++ held) after held true
  | closed {before t after : Str} {flawed : Bool} (epilogue : Str) :
      Delimits (delimiter boundary) t -> Ends boundary before t after flawed ->
      Pours boundary before (t ++ delimiter boundary ++ (str "--" ++ epilogue)) after []
        flawed
  | more {before t after rest left held : Str} {flawed flawed' : Bool} :
      Delimits (delimiter boundary) t -> Ends boundary before t after flawed ->
      Pours boundary after rest left held flawed' ->
      Pours boundary before (t ++ delimiter boundary ++ (str "\r\n" ++ rest)) left held
        (flawed || flawed')

/-!
## Bytes without a delimiter
-/

namespace Scanner

variable {boundary u : Str} {state : StreamState} {x : Scanner}

/-- The states a part is read in. -/
def InPart (state : StreamState) : Prop :=
  state = StreamState.firstMessage ∨ state = StreamState.encapsulation

theorem delimOf_inPart (h : InPart state) :
    delimOf boundary state = delimiter boundary := by
  rcases h with h | h <;> rw [h, delimOf]

theorem searching_inPart (h : InPart state) : Searching boundary state := by
  rw [Searching, delimOf_inPart h]
  exact two_le_length_delimiter boundary

theorem passed_append_pending {delim : Str} (h : Searches x delim u) :
    x.passed u ++ x.pending = u := by
  rw [h.pending_eq, passed, List.take_append_drop]

/-- A byte lets go what is not held back. -/
theorem scan_held (hstate : InPart state) (hx : Inside x boundary state u) {c : UInt8}
    (hfree : ¬ delimiter boundary <:+ u ++ [c]) :
    exists y w, x.scan c = some (y, bytes w) ∧ Inside y boundary state (u ++ [c]) ∧
      x.pending ++ [c] = w ++ y.pending ∧
      LongestOverlap (delimiter boundary) (u ++ [c]) y.pending.length := by
  rw [← delimOf_inPart hstate] at hfree ⊢
  rcases scan_free (searching_inPart hstate) hx hfree with ⟨y, w, hscan, hy, hpassed⟩
  refine ⟨y, w, hscan, hy, ?_, ?_⟩
  · refine @List.append_cancel_left _ (x.passed u) _ _ ?_
    rw [← List.append_assoc, ← List.append_assoc, passed_append_pending hx.searches, hpassed,
      passed_append_pending hy.searches]
  · rw [length_pending hy.searches]
    exact hy.searches.tracks.matched

/-- Before the last byte of a delimiter the others are held back. -/
theorem pending_of_delimits (hstate : InPart state) {t : Str}
    (hx : Inside x boundary state (t ++ (delimiter boundary).dropLast))
    (ht : Delimits (delimiter boundary) t) : x.pending = (delimiter boundary).dropLast := by
  have hmatched := hx.searches.tracks.matched
  rw [delimOf_inPart hstate] at hmatched
  have hi := longestOverlap_unique hmatched (longestOverlap_of_delimits ht)
  rw [hx.searches.pending_eq, hi, List.length_append, List.length_dropLast,
    Nat.add_sub_cancel, List.drop_left]

theorem scans_broken (h : Waits x boundary StreamState.maybeEndOrEncapsulation [])
    {held : Str} (hheld : held ∈ [[], str "-", str "\r"]) :
    exists y, Transducer.run scan x held = some (y, []) ∧ y.pending = held ∧
      ¬ y.parser.state = StreamState.epilogue := by
  rcases x with ⟨p, pending⟩
  rcases h with ⟨hstate, -, hpending⟩
  change pending = [] at hpending
  change p.state = _ at hstate
  subst hpending
  have hdash : str "-" = [chr '-'] := rfl
  have hreturn : str "\r" = [chr '\r'] := rfl
  have hne : ¬ chr '\r' = chr '-' := by decide
  simp only [List.mem_cons, List.not_mem_nil, or_false] at hheld
  rcases hheld with rfl | rfl | rfl
  · exact ⟨⟨p, []⟩, rfl, rfl, by simp [hstate]⟩
  · exact ⟨⟨{ p with state := StreamState.maybeEnd }, [chr '-']⟩, by
      simp [hdash, Transducer.run_cons, scan, StreamParser.handleChar, hstate,
        StreamStep.tokens, bytes], rfl, by simp⟩
  · exact ⟨⟨{ p with state := StreamState.maybeEncapsulation }, [chr '\r']⟩, by
      simp [hreturn, hne, Transducer.run_cons, scan, StreamParser.handleChar, hstate,
        StreamStep.tokens, bytes], rfl, by simp⟩

theorem broken_or_next (h : Waits x boundary StreamState.maybeEndOrEncapsulation [])
    {text : Str} {y : Scanner} {toks : List Token}
    (hscan : Transducer.run scan x text = some (y, toks)) :
    text ∈ [[], str "-", str "\r"] ∨ (exists rest, text = str "--" ++ rest) ∨
      exists rest, text = str "\r\n" ++ rest := by
  cases text with
  | nil => simp
  | cons c text =>
      rcases Transducer.exists_of_run_cons hscan with ⟨z, u, v, hnext, hlast, -⟩
      cases text with
      | nil =>
          left
          rcases scan_after_delimiter h hnext with ⟨rfl, -⟩ | ⟨rfl, -⟩
          · decide
          · decide
      | cons d rest =>
          right
          rcases Transducer.exists_of_run_cons hlast with ⟨after, _, _, hafter, -, -⟩
          rcases scan_after_delimiter h hnext with ⟨rfl, hstate⟩ | ⟨rfl, hstate⟩
          · rw [scan_maybeEnd hstate hafter]
            exact Or.inl ⟨rest, rfl⟩
          · rw [scan_maybeEncapsulation hstate hafter]
            exact Or.inr ⟨rest, rfl⟩

end Scanner

theorem takeAll_bytes_inside (w : Str) : forall (p : MessageParser) (failed : Bool),
    exists q failed', Headers.takeAll (⟨true, p⟩, failed) (bytes w) = (⟨true, q⟩, failed') := by
  induction w with
  | nil => exact fun p failed => ⟨p, failed, rfl⟩
  | cons b w ih => exact fun p failed => ih _ _

section

variable {boundary text before : Str} {state : StreamState} {x : Scanner}
  {p : MessageParser}

theorem feeds_of_goOn (hstate : Scanner.InPart state)
    (hx : Scanner.Inside x boundary state []) (hp : Behind before p) (u : Str) :
    forall {y : Scanner × Headers} {toks : List Token}, ¬ delimiter boundary <:+: u ->
      Transducer.run goOn (x, ⟨true, p⟩) u = some (y, toks) ->
      exists q left struck, y.2 = ⟨true, q⟩ ∧
        Feeds boundary before u left y.1.pending struck ∧ Behind (before ++ left) q ∧
        Scanner.Inside y.1 boundary state u := by
  induction u using List.reverseRecOn with
  | nil =>
      intro y toks _ hrun
      cases hrun
      refine ⟨p, [], false, rfl, ?_, ?_, hx⟩
      · have hnone : x.pending = [] := by
          rw [hx.searches.pending_eq, List.drop_nil]
        rw [hnone]
        exact Feeds.nil
      · rwa [List.append_nil]
  | append_singleton u c ih =>
      intro y toks hfree hrun
      rcases Transducer.exists_of_run_append hrun with ⟨z, s, t, hfront, hlast, -⟩
      have hbefore : ¬ delimiter boundary <:+: u :=
        fun h => hfree (h.trans (List.prefix_append u [c]).isInfix)
      rcases ih hbefore hfront with ⟨q, left, struck, hz, hfeeds, hq, hinside⟩
      rcases Transducer.exists_of_run_cons hlast with ⟨y', v, v', hgo, hnil, -⟩
      cases hnil
      rcases goOn_eq_some_iff.mp hgo with ⟨hscan, htaken⟩
      rcases Scanner.scan_held hstate hinside (fun h => hfree h.isInfix) with
        ⟨next, w, hscan', hnext, hheld, hlongest⟩
      rw [hscan] at hscan'
      cases hscan'
      have htaken : Headers.takeAll (⟨true, q⟩, false) (bytes w) = (y.2, false) := by
        rw [← hz]
        exact htaken
      rcases takeAll_bytes_inside w q false with ⟨q', failed, hq'⟩
      rw [hq'] at htaken
      rcases Prod.mk.inj htaken with ⟨hparser, rfl⟩
      rcases mends_of_takeAll w hq hq' with ⟨more, struck', hmends, hbehind, -⟩
      refine ⟨q', left ++ more, struck || struck', hparser.symm,
        Feeds.byte hfeeds hlongest hheld hmends, ?_, hnext⟩
      rwa [← List.append_assoc]

theorem goOn_of_feeds (hstate : Scanner.InPart state)
    (hx : Scanner.Inside x boundary state []) (hp : Behind before p) {u left held : Str}
    {struck : Bool} (h : Feeds boundary before u left held struck) :
    ¬ delimiter boundary <:+: u -> exists y q toks,
      Transducer.run goOn (x, ⟨true, p⟩) u = some ((y, ⟨true, q⟩), toks) ∧
        Behind (before ++ left) q ∧ y.pending = held ∧
        Scanner.Inside y boundary state u ∧
        (struck = true -> Headers.steps ⟨true, p⟩ toks = none) := by
  induction h with
  | nil =>
      intro _
      refine ⟨x, p, [], rfl, ?_, ?_, hx, by simp⟩
      · rwa [List.append_nil]
      · rw [hx.searches.pending_eq, List.drop_nil]
  | @byte u left held w more held' c struck struck' _ hlongest hheld hmends ih =>
      intro hfree
      have hbefore : ¬ delimiter boundary <:+: u :=
        fun h => hfree (h.trans (List.prefix_append u [c]).isInfix)
      rcases ih hbefore with ⟨z, q, toks, hrun, hq, rfl, hinside, hsteps⟩
      rcases Scanner.scan_held hstate hinside (fun h => hfree h.isInfix) with
        ⟨y, w', hscan, hy, hheld', hlongest'⟩
      have hlength := longestOverlap_unique hlongest' hlongest
      rw [hheld] at hheld'
      rcases List.append_inj' hheld' hlength.symm with ⟨rfl, rfl⟩
      rcases takeAll_of_mends hmends hq (by simp : false = true -> _) with
        ⟨q', htake, hbehind, hnone⟩
      have hgo : goOn (z, ⟨true, q⟩) c = some ((y, ⟨true, q'⟩), bytes w) :=
        goOn_eq_some_iff.mpr ⟨hscan, htake⟩
      refine ⟨y, q', toks ++ bytes w, ?_, ?_, rfl, hy, ?_⟩
      · exact Transducer.run_append hrun (Transducer.run_singleton hgo)
      · rwa [← List.append_assoc]
      · intro hstruck
        rw [Headers.steps_append]
        cases hfirst : Headers.steps ⟨true, p⟩ toks with
        | none => rfl
        | some last =>
            have hlast := last_of_steps hrun hfirst
            rw [Option.bind_some, ← hlast]
            rcases Bool.or_eq_true_iff.mp hstruck with hearly | hlate
            · rw [hsteps hearly] at hfirst
              cases hfirst
            · exact hnone hlate

/-!
## Texts that a delimiter ends
-/

theorem delimiter_split (boundary : Str) : exists c,
    (delimiter boundary).dropLast ++ [c] = delimiter boundary :=
  ⟨_, List.dropLast_append_getLast (delimiter_ne_nil boundary)⟩

/-- The last byte of a delimiter. -/
theorem goOn_end (hstate : Scanner.InPart state) {t : Str}
    (hx : Scanner.Inside x boundary state (t ++ (delimiter boundary).dropLast)) {c : UInt8}
    (hc : (delimiter boundary).dropLast ++ [c] = delimiter boundary) :
    exists y, goOn (x, ⟨true, p⟩) c = some ((y, ⟨false, p.handleMessageEnd.parser⟩),
        Token.messageEnd :: bytes (delimiter boundary)) ∧
      Scanner.Waits y boundary StreamState.maybeEndOrEncapsulation [] := by
  have hsuffix : delimiter boundary <:+ t ++ (delimiter boundary).dropLast ++ [c] := by
    rw [List.append_assoc, hc]
    exact List.suffix_append t _
  rcases Scanner.scan_end hstate hx hsuffix with ⟨y, hscan, hy⟩
  refine ⟨y, goOn_eq_some_iff.mpr ⟨hscan, ?_⟩, hy⟩
  have hbytes := takeAll_of_steps
    (Headers.steps_bytes_outside p.handleMessageEnd.parser (delimiter boundary))
  exact hbytes

theorem ends_of_goOn (hstate : Scanner.InPart state)
    (hx : Scanner.Inside x boundary state []) (hp : Behind before p) {t : Str}
    (ht : Delimits (delimiter boundary) t) {y : Scanner × Headers} {toks : List Token}
    (hrun : Transducer.run goOn (x, ⟨true, p⟩) (t ++ delimiter boundary) = some (y, toks)) :
    exists q after flawed, y.2 = ⟨false, q⟩ ∧ Ends boundary before t after flawed ∧
      Behind after q ∧ Scanner.Waits y.1 boundary StreamState.maybeEndOrEncapsulation [] := by
  rcases delimiter_split boundary with ⟨c, hc⟩
  rw [← hc, ← List.append_assoc] at hrun
  rcases Transducer.exists_of_run_append hrun with ⟨z, u, v, hfront, hlast, -⟩
  rcases feeds_of_goOn hstate hx hp _ ht hfront with
    ⟨q, left, struck, hz, hfeeds, hq, hinside⟩
  rcases z with ⟨z, h⟩
  change h = _ at hz
  subst hz
  rw [Scanner.pending_of_delimits hstate hinside ht] at hfeeds
  rcases goOn_end hstate hinside hc with ⟨y', hgo, hy'⟩
  rw [Transducer.run_singleton hgo] at hlast
  cases hlast
  rcases behind_handleMessageEnd hq with ⟨hbody, hend⟩ | ⟨hbody, hend⟩
  · rw [hend]
    exact ⟨_, _, _, rfl, Ends.whole hfeeds ((isPart_of_behind hq).mp hbody), behind_nil, hy'⟩
  · rw [hend]
    exact ⟨_, _, _, rfl,
      Ends.cut hfeeds (fun hpart => hbody ((isPart_of_behind hq).mpr hpart)), hq, hy'⟩

theorem goOn_of_ends (hstate : Scanner.InPart state)
    (hx : Scanner.Inside x boundary state []) (hp : Behind before p) {t after : Str}
    {flawed : Bool} (ht : Delimits (delimiter boundary) t)
    (h : Ends boundary before t after flawed) : exists y q toks,
      Transducer.run goOn (x, ⟨true, p⟩) (t ++ delimiter boundary) =
          some ((y, ⟨false, q⟩), toks) ∧
        Behind after q ∧ Scanner.Waits y boundary StreamState.maybeEndOrEncapsulation [] ∧
        (flawed = true -> Headers.steps ⟨true, p⟩ toks = none) := by
  rcases delimiter_split boundary with ⟨c, hc⟩
  have hall : forall {y q toks z},
      Transducer.run goOn (x, ⟨true, p⟩) (t ++ (delimiter boundary).dropLast) =
        some ((y, ⟨true, q⟩), toks) ->
      goOn (y, ⟨true, q⟩) c = some ((z, ⟨false, q.handleMessageEnd.parser⟩),
        Token.messageEnd :: bytes (delimiter boundary)) ->
      Transducer.run goOn (x, ⟨true, p⟩) (t ++ delimiter boundary) =
        some ((z, ⟨false, q.handleMessageEnd.parser⟩),
          toks ++ Token.messageEnd :: bytes (delimiter boundary)) := by
    intro y q toks z hrun hgo
    have hall := Transducer.run_append hrun (Transducer.run_singleton hgo)
    rwa [List.append_assoc, hc] at hall
  cases h with
  | whole hfeeds hpart =>
      rcases goOn_of_feeds hstate hx hp hfeeds ht with
        ⟨y, q, toks, hrun, hq, -, hinside, hsteps⟩
      rcases goOn_end hstate hinside hc with ⟨z, hgo, hz⟩
      rcases behind_handleMessageEnd hq with ⟨_, hend⟩ | ⟨hbody, _⟩
      · refine ⟨z, _, _, hall hrun hgo, ?_, hz, ?_⟩
        · rw [hend]
          exact behind_nil
        · intro hflawed
          rw [Headers.steps_append, hsteps hflawed]
          rfl
      · exact absurd ((isPart_of_behind hq).mpr hpart) hbody
  | cut hfeeds hpart =>
      rcases goOn_of_feeds hstate hx hp hfeeds ht with
        ⟨y, q, toks, hrun, hq, -, hinside, hsteps⟩
      rcases goOn_end hstate hinside hc with ⟨z, hgo, hz⟩
      rcases behind_handleMessageEnd hq with ⟨hbody, _⟩ | ⟨hbody, hend⟩
      · exact absurd ((isPart_of_behind hq).mp hbody) hpart
      · refine ⟨z, _, _, hall hrun hgo, ?_, hz, ?_⟩
        · rw [hend]
          exact hq
        · intro _
          rw [Headers.steps_append]
          cases hfirst : Headers.steps ⟨true, p⟩ toks with
          | none => rfl
          | some last =>
              have hlast := last_of_steps hrun hfirst
              rw [Option.bind_some, ← hlast]
              change (Headers.step ⟨true, q⟩ Token.messageEnd).bind _ = none
              rw [Headers.step, MessageParser.handleMessageEnd, if_neg hbody, if_pos rfl]
              rfl

end

/-!
## After the opening line
-/

section

variable {boundary before text left held : Str} {flawed : Bool} {x : Scanner}
  {state : StreamState} {p : MessageParser}

/-- What may come between a delimiter and the end of the body. -/
theorem goOn_broken (hx : Scanner.Waits x boundary StreamState.maybeEndOrEncapsulation [])
    (hheld : held ∈ [[], str "-", str "\r"]) (q : MessageParser) : exists y,
      Transducer.run goOn (x, ⟨false, q⟩) held = some ((y, ⟨false, q⟩), []) ∧
        y.pending = held ∧ ¬ y.parser.state = StreamState.epilogue := by
  rcases Scanner.scans_broken hx hheld with ⟨y, hbroken, hpending, hy⟩
  exact ⟨y, goOn_of_steps hbroken (Headers.steps_bytes_outside q []), hpending, hy⟩

theorem goOn_close (hx : Scanner.Waits x boundary StreamState.maybeEndOrEncapsulation [])
    (epilogue : Str) (q : MessageParser) : exists y toks,
      Transducer.run goOn (x, ⟨false, q⟩) (str "--" ++ epilogue) =
          some ((y, ⟨false, q⟩), toks) ∧ y.pending = [] := by
  rcases Scanner.scans_close hx with ⟨y, hclose, hy⟩
  have hsteps : Headers.steps ⟨false, q⟩ (bytes (str "--") ++ bytes epilogue) =
      some ⟨false, q⟩ := by
    rw [Headers.steps_append, Headers.steps_bytes_outside]
    exact Headers.steps_bytes_outside q epilogue
  have hscan := Transducer.run_append hclose (Scanner.scans_epilogue epilogue hy)
  exact ⟨y, _, goOn_of_steps hscan hsteps, hy.pending_eq⟩

theorem goOn_next (hx : Scanner.Waits x boundary StreamState.maybeEndOrEncapsulation [])
    (q : MessageParser) : exists y toks,
      Transducer.run goOn (x, ⟨false, q⟩) (str "\r\n") = some ((y, ⟨true, q⟩), toks) ∧
        Scanner.Inside y boundary StreamState.encapsulation [] ∧
        Headers.steps ⟨false, q⟩ toks = some ⟨true, q⟩ := by
  rcases Scanner.scans_next hx with ⟨y, hnext, hy⟩
  have hsteps : Headers.steps ⟨false, q⟩ (bytes (str "\r\n") ++ [Token.messageBegin]) =
      some ⟨true, q⟩ := by
    rw [Headers.steps_append, Headers.steps_bytes_outside]
    rfl
  exact ⟨y, _, goOn_of_steps hnext hsteps, hy, hsteps⟩

theorem goOn_of_pours (h : Pours boundary before text left held flawed) :
    forall {x : Scanner} {state : StreamState} {p : MessageParser},
      Scanner.InPart state -> Scanner.Inside x boundary state [] -> Behind before p ->
      exists y toks, Transducer.run goOn (x, ⟨true, p⟩) text = some (y, toks) ∧
        Behind left y.2.parser ∧ y.1.pending = held ∧
        (flawed = true -> Headers.steps ⟨true, p⟩ toks = none ∨
          ¬ y.1.parser.state = StreamState.epilogue) := by
  induction h with
  | @unended before text left held struck hfree hfeeds =>
      intro x state p hstate hx hp
      rcases goOn_of_feeds hstate hx hp hfeeds hfree with
        ⟨y, q, toks, hrun, hq, hheld, hinside, -⟩
      refine ⟨(y, ⟨true, q⟩), toks, hrun, hq, hheld, ?_⟩
      intro _
      right
      rw [hinside.state_eq]
      rcases hstate with rfl | rfl <;> decide
  | @broken before t after held flawed ht hends hheld =>
      intro x state p hstate hx hp
      rcases goOn_of_ends hstate hx hp ht hends with ⟨y, q, toks, hrun, hq, hy, -⟩
      rcases goOn_broken hy hheld q with ⟨z, hbroken, hpending, hz⟩
      exact ⟨(z, ⟨false, q⟩), _, Transducer.run_append hrun hbroken, hq, hpending,
        fun _ => Or.inr hz⟩
  | @closed before t after flawed epilogue ht hends =>
      intro x state p hstate hx hp
      rcases goOn_of_ends hstate hx hp ht hends with ⟨y, q, toks, hrun, hq, hy, hsteps⟩
      rcases goOn_close hy epilogue q with ⟨z, more, hclose, hpending⟩
      refine ⟨(z, ⟨false, q⟩), _, Transducer.run_append hrun hclose, hq, hpending, ?_⟩
      intro hflawed
      left
      rw [Headers.steps_append, hsteps hflawed]
      rfl
  | @more before t after rest left held flawed flawed' ht hends _ ih =>
      intro x state p hstate hx hp
      rcases goOn_of_ends hstate hx hp ht hends with ⟨y, q, toks, hrun, hq, hy, hsteps⟩
      rcases goOn_next hy q with ⟨z, gap, hnext, hz, hgap⟩
      rcases ih (Or.inr rfl) hz hq with ⟨last, more, hrest, hlast, hheld, hflawed⟩
      refine ⟨last, _, Transducer.run_append hrun (Transducer.run_append hnext hrest),
        hlast, hheld, ?_⟩
      intro hor
      rw [Headers.steps_append]
      cases hfirst : Headers.steps ⟨true, p⟩ toks with
      | none => exact Or.inl rfl
      | some h =>
          have hh := last_of_steps hrun hfirst
          rw [Option.bind_some, ← hh]
          rw [Headers.steps_append, hgap, Option.bind_some]
          rcases Bool.or_eq_true_iff.mp hor with hearly | hlate
          · rw [hsteps hearly] at hfirst
            cases hfirst
          · exact hflawed hlate

/-- The texts are read off one by one, each with its delimiter. -/
theorem pours_of_goOn (n : Nat) : forall (text : Str) {before : Str} {x : Scanner}
    {state : StreamState} {p : MessageParser}, text.length <= n ->
    Scanner.InPart state -> Scanner.Inside x boundary state [] -> Behind before p ->
    forall y toks, Transducer.run goOn (x, ⟨true, p⟩) text = some (y, toks) ->
      exists left flawed, Pours boundary before text left y.1.pending flawed ∧
        Behind left y.2.parser := by
  have hunended : forall (text : Str) {before : Str} {x : Scanner} {state : StreamState}
      {p : MessageParser}, Scanner.InPart state -> Scanner.Inside x boundary state [] ->
      Behind before p -> ¬ delimiter boundary <:+: text ->
      forall y toks, Transducer.run goOn (x, ⟨true, p⟩) text = some (y, toks) ->
        exists left flawed, Pours boundary before text left y.1.pending flawed ∧
          Behind left y.2.parser := by
    intro text before x state p hstate hx hp hfree y toks hrun
    rcases feeds_of_goOn hstate hx hp text hfree hrun with
      ⟨q, left, struck, hy, hfeeds, hq, -⟩
    rw [hy]
    exact ⟨_, true, Pours.unended hfree hfeeds, hq⟩
  induction n with
  | zero =>
      intro text before x state p hlen hstate hx hp y toks hrun
      have hnil : text = [] := List.eq_nil_of_length_eq_zero (by omega)
      subst hnil
      have hfree : ¬ delimiter boundary <:+: [] := by
        rw [List.infix_nil]
        exact delimiter_ne_nil boundary
      exact hunended [] hstate hx hp hfree y toks hrun
  | succ n ih =>
      intro text before x state p hlen hstate hx hp y toks hrun
      rcases free_or_delimits (delimiter_ne_nil boundary) text with hfree | ⟨t, rest, rfl, ht⟩
      · exact hunended text hstate hx hp hfree y toks hrun
      rcases Transducer.exists_of_run_append hrun with ⟨z, u, v, hpart, hrest, -⟩
      rcases ends_of_goOn hstate hx hp ht hpart with ⟨q, after, flawed, hz, hends, hq, hwaits⟩
      rcases z with ⟨z, h⟩
      change h = _ at hz
      subst hz
      rcases Scanner.broken_or_next hwaits (scans_of_goOn hrest) with hheld | ⟨more, rfl⟩ | ⟨more, rfl⟩
      · rcases goOn_broken hwaits hheld q with ⟨w, hbroken, hpending, -⟩
        rw [hbroken] at hrest
        cases hrest
        refine ⟨after, true, ?_, hq⟩
        rw [hpending]
        exact Pours.broken ht hends hheld
      · rcases goOn_close hwaits more q with ⟨w, toks', hclose, hpending⟩
        rw [hclose] at hrest
        cases hrest
        refine ⟨after, flawed, ?_, hq⟩
        rw [hpending]
        exact Pours.closed more ht hends
      · rcases goOn_next hwaits q with ⟨w, gap, hnext, hw, -⟩
        rcases Transducer.exists_of_run_append hrest with ⟨w', s, s', hw', hlast, -⟩
        rw [hnext] at hw'
        cases hw'
        have hshort : more.length <= n := by
          have hdelim := two_le_length_delimiter boundary
          simp only [List.length_append] at hlen
          omega
        rcases ih more hshort (Or.inr rfl) hw hq y s' hlast with
          ⟨left, flawed', hpours, hleft⟩
        exact ⟨left, _, Pours.more ht hends hpours, hleft⟩

/-!
## Without a flaw
-/

theorem eq_of_feeds {u : Str} {struck : Bool} (h : Feeds boundary before u left held struck)
    (hstruck : struck = false) : left ++ held = u := by
  induction h with
  | nil => rfl
  | byte _ _ hheld hmends ih =>
      rw [Bool.or_eq_false_iff] at hstruck
      rw [eq_of_mends hmends hstruck.right, List.append_assoc, ← hheld, ← List.append_assoc,
        ih hstruck.left]

/-- A text behind nothing that ends without a flaw is a part. -/
theorem isPart_of_ends {t after : Str} (h : Ends boundary [] t after false) :
    IsPart t ∧ after = [] := by
  cases h with
  | whole hfeeds hpart =>
      have hall := eq_of_feeds hfeeds rfl
      rw [List.append_cancel_right hall] at hpart
      exact ⟨hpart, rfl⟩

theorem parts_of_pours (h : Pours boundary before text left held flawed)
    (hbefore : before = []) (hflawed : flawed = false) : exists parts : List Part,
      (forall part, part ∈ parts -> part.Valid) ∧
        Parts boundary text (parts.map Part.text) := by
  induction h with
  | unended => cases hflawed
  | broken => cases hflawed
  | closed epilogue ht hends =>
      subst hbefore hflawed
      rcases isPart_of_ends hends with ⟨⟨part, hvalid, rfl⟩, -⟩
      exact ⟨[part], by simpa using hvalid, Parts.last epilogue ht⟩
  | more ht hends _ ih =>
      rw [Bool.or_eq_false_iff] at hflawed
      rcases hflawed with ⟨rfl, hrest⟩
      subst hbefore
      rcases isPart_of_ends hends with ⟨⟨part, hvalid, rfl⟩, hafter⟩
      rcases ih hafter hrest with ⟨parts, hall, hparts⟩
      exact ⟨part :: parts, by simpa using ⟨hvalid, hall⟩, Parts.more ht hparts⟩

/-!
## Without a quote
-/

/-- What is held back begins the delimiter. -/
theorem held_of_feeds {u : Str} {struck : Bool} (h : Feeds boundary before u left held struck) :
    held <:+ u ∧ held <+: delimiter boundary := by
  induction h with
  | nil => exact ⟨List.suffix_rfl, List.nil_prefix⟩
  | @byte u left held w more held' c struck struck' _ hlongest hheld _ ih =>
      have hsuffix : held' <:+ u ++ [c] := by
        rcases ih.left with ⟨front, rfl⟩
        rw [List.append_assoc, hheld, ← List.append_assoc]
        exact List.suffix_append (front ++ w) held'
      have hoverlap := hlongest.left
      have hdrop := List.suffix_iff_eq_drop.mp hoverlap.right
      rw [List.length_take_of_le hoverlap.left, ← List.suffix_iff_eq_drop.mp hsuffix] at hdrop
      refine ⟨hsuffix, ?_⟩
      rw [← hdrop]
      exact List.take_prefix _ _

/-- Bytes are struck out for a boundary with a quote only. -/
theorem quote_mem_of_struck {u : Str} {struck : Bool}
    (h : Feeds boundary before u left held struck) (hstruck : struck = true) :
    chr '"' ∈ boundary := by
  induction h with
  | nil => cases hstruck
  | @byte u left held w more held' c struck struck' hfeeds _ hheld hmends ih =>
      rcases Bool.or_eq_true_iff.mp hstruck with hearly | hlate
      · exact ih hearly
      have hcount : 2 <= (held ++ [c]).count (chr '"') := by
        rw [hheld]
        exact (quotes_of_mends hmends hlate).trans ((List.sublist_append_left w held').count_le _)
      have hmem : chr '"' ∈ held := by
        rw [List.count_append] at hcount
        have hlast : [c].count (chr '"') <= 1 := List.count_le_length
        exact List.count_pos_iff.mp (by omega)
      have hdelim := (held_of_feeds hfeeds).right.subset hmem
      unfold delimiter at hdelim
      rcases List.mem_append.mp hdelim with hdashes | hboundary
      · exact absurd hdashes (by decide)
      · exact hboundary

end

end Multipart
end CisWebui
