import CisWebui.Multipart.Pouring

/-!
# Malformed bodies that are accepted

What a body looks like that the reader accepts although it is not well formed.
-/

namespace CisWebui
namespace Multipart

open Cpp
open Foundation Foundation.PrefixMatching
open Http (FormTarget Mode)

/-!
## What slips through
-/

/-- What is accepted and not well formed: a body without an opening line, and a
flawed one that stops where no part is looked for. -/
inductive Slips (boundary : Str) : Str -> Prop where
  | unopened {body : Str} : ¬ opening boundary <:+: body -> Slips boundary body
  | poured {preamble rest left held : Str} :
      Delimits (opening boundary) preamble -> Pours boundary [] rest left held true ->
      StopsAt left held -> Slips boundary (preamble ++ opening boundary ++ rest)

variable {boundary body : Str}

/-- A body without an opening line is not well formed. -/
theorem infix_of_wellFormed (h : WellFormed boundary body) : opening boundary <:+: body := by
  rcases h with ⟨parts, -, hframed⟩
  cases hframed with
  | @intro preamble rest _ _ => exact ⟨preamble, rest, rfl⟩

/-- Both parsers behind the opening line. -/
theorem goOn_opening {preamble : Str} (h : Delimits (opening boundary) preamble) :
    exists y toks, Transducer.run goOn (Scanner.start boundary, {})
        (preamble ++ opening boundary) = some ((y, ⟨true, {}⟩), toks) ∧
      Scanner.Inside y boundary StreamState.firstMessage [] ∧
      Headers.steps {} toks = some ⟨true, {}⟩ := by
  rcases Scanner.exists_preamble boundary with ⟨x, hx, hstart⟩
  rcases Scanner.scans_opening hx h with ⟨y, hopening, hy⟩
  have hcons : exists c rest, preamble ++ opening boundary = c :: rest :=
    List.exists_cons_of_ne_nil (List.append_ne_nil_of_right_ne_nil _ (opening_ne_nil boundary))
  rcases hcons with ⟨c, rest, hcons⟩
  rw [hcons] at hopening ⊢
  have hsteps : Headers.steps {} (bytes (c :: rest) ++ [Token.messageBegin]) =
      some ⟨true, {}⟩ := by
    rw [Headers.steps_append, Headers.steps_bytes_outside]
    rfl
  exact ⟨y, _, goOn_of_steps ((hstart c rest).trans hopening) hsteps, hy, hsteps⟩

/-- A body without an opening line leaves both parsers where they are. -/
theorem goOn_of_unopened (hfree : ¬ opening boundary <:+: body) :
    exists y toks, Transducer.run goOn (Scanner.start boundary, {}) body =
      some ((y, {}), toks) := by
  cases body with
  | nil => exact ⟨_, _, rfl⟩
  | cons c rest =>
      rcases Scanner.exists_preamble boundary with ⟨x, hx, hstart⟩
      rcases Scanner.scans_free (Scanner.searching_preamble boundary) (c :: rest) x [] hx hfree
        with ⟨y, w, hscan, -, -⟩
      exact ⟨y, _, goOn_of_steps ((hstart c rest).trans hscan)
        (Headers.steps_bytes_outside {} w)⟩

theorem slips_of_goOn {x : Scanner × Headers} {toks : List Token}
    (hrun : Transducer.run goOn (Scanner.start boundary, {}) body = some (x, toks))
    (hstops : Stops x) (hwrong : ¬ WellFormed boundary body) : Slips boundary body := by
  rcases free_or_delimits (opening_ne_nil boundary) body with hfree | ⟨t, rest, rfl, ht⟩
  · exact Slips.unopened hfree
  rcases goOn_opening ht with ⟨y, first, hopening, hy, -⟩
  rcases Transducer.exists_of_run_append hrun with ⟨y', u, v, hy', hrest, -⟩
  rw [hopening] at hy'
  cases hy'
  rcases pours_of_goOn rest.length rest le_rfl (Or.inl rfl) hy behind_nil x v hrest with
    ⟨left, flawed, hpours, hbehind⟩
  have hends := (stopsAt_iff hbehind).mpr hstops
  cases flawed with
  | true => exact Slips.poured ht hpours hends
  | false =>
      rcases parts_of_pours hpours rfl rfl with ⟨parts, hvalid, hparts⟩
      exact absurd ⟨parts, hvalid, Framed.intro ht hparts⟩ hwrong

/-- What slips through goes through both parsers, and they are not the parsers of
a well-formed body. -/
theorem goOn_of_slips (h : Slips boundary body) : ¬ WellFormed boundary body ∧
    exists x toks, Transducer.run goOn (Scanner.start boundary, {}) body = some (x, toks) ∧
      Stops x := by
  cases h with
  | unopened hfree =>
      rcases goOn_of_unopened hfree with ⟨y, toks, hrun⟩
      exact ⟨fun hwell => hfree (infix_of_wellFormed hwell), (y, {}), toks, hrun, rfl, by simp⟩
  | poured hpreamble hpours hends =>
      rcases goOn_opening hpreamble with ⟨y, first, hopening, hy, hfirst⟩
      rcases goOn_of_pours hpours (Or.inl rfl) hy behind_nil with
        ⟨x, toks, hrest, hbehind, rfl, hflawed⟩
      have hrun := Transducer.run_append hopening hrest
      refine ⟨?_, x, _, hrun, (stopsAt_iff hbehind).mp hends⟩
      rw [← parsed_iff_wellFormed]
      rintro ⟨s, all, last, hscan, hepilogue, hsteps⟩
      rw [scans_of_goOn hrun] at hscan
      cases hscan
      rw [Headers.steps_append, hfirst, Option.bind_some] at hsteps
      rcases hflawed rfl with hnone | hopen
      · rw [hnone] at hsteps
        cases hsteps
      · exact hopen hepilogue

namespace Reader

theorem opensAll_emptyDisk : OpensAll emptyDisk sampleTarget :=
  ⟨fun _ _ => rfl, fun _ _ => rfl⟩

/-- What is accepted is well formed, unless it slips through; what slips through
is accepted where all files can be opened. -/
theorem accepts_wellFormed_iff (boundary body : Str) :
    (forall fs target, Accepts fs target boundary body -> WellFormed boundary body) <->
      ¬ Slips boundary body := by
  constructor
  · intro h hslips
    rcases goOn_of_slips hslips with ⟨hwrong, x, toks, hrun, hx⟩
    exact hwrong (h emptyDisk sampleTarget (accepts_of_goOn opensAll_emptyDisk hrun hx))
  · intro h fs target haccepts
    rcases exists_goOn_of_accepts haccepts with ⟨x, toks, hrun, hx⟩
    by_contra hwrong
    exact h (slips_of_goOn hrun hx hwrong)

theorem length_of_wellFormed (h : WellFormed boundary body) :
    40 <= body.length := by
  rcases h with ⟨parts, -, hframed⟩
  cases hframed with
  | intro _ hparts =>
      cases hts : parts.map Part.text with
      | nil =>
          rw [hts] at hparts
          cases hparts
      | cons t ts =>
          cases parts with
          | nil => cases hts
          | cons part parts =>
              rcases List.cons.inj hts with ⟨rfl, -⟩
              have htext : 40 <= part.text.length := by
                simp [Part.text, str]
                omega
              rw [hts] at hparts
              cases hparts <;> simp only [List.length_append] <;> omega

/-- A delimiter in place of a header: the part is neither complete nor refused. -/
theorem accepts_wellFormed_not_everywhere :
    ¬ (Accepts emptyDisk sampleTarget (str "B") (str "--B\r\n\r\n--B--") ->
      WellFormed (str "B") (str "--B\r\n\r\n--B--")) := by
  intro h
  have haccepts : Accepts emptyDisk sampleTarget (str "B")
      (str "--B\r\n\r\n--B--") := by
    rw [accepts_iff]
    decide +kernel
  have hlen := length_of_wellFormed (h haccepts)
  revert hlen
  decide

end Reader

end Multipart
end CisWebui
