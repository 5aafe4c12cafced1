import CisWebui.Multipart.Scanner

/-!
# The frame of a multipart body

A multipart body is a preamble, the opening line, the parts with a delimiter
after each of them, the two dashes of the last delimiter, and an epilogue.  A
delimiter ends a part where it first occurs.

The scanner gets to its epilogue on exactly these bodies, and its tokens carry
the texts of the parts.
-/

namespace CisWebui
namespace Multipart

open Cpp
open Foundation Foundation.PrefixMatching

/-- What follows the opening line, with the texts of its parts. -/
inductive Parts (boundary : Str) : Str -> List Str -> Prop where
  | last {t : Str} (epilogue : Str) :
      Delimits (delimiter boundary) t ->
      Parts boundary (t ++ delimiter boundary ++ (str "--" ++ epilogue)) [t]
  | more {t rest : Str} {ts : List Str} :
      Delimits (delimiter boundary) t -> Parts boundary rest ts ->
      Parts boundary (t ++ delimiter boundary ++ (str "\r\n" ++ rest)) (t :: ts)

/-- A body with a preamble and the texts of its parts. -/
inductive Framed (boundary : Str) : Str -> List Str -> Prop where
  | intro {preamble rest : Str} {ts : List Str} :
      Delimits (opening boundary) preamble -> Parts boundary rest ts ->
      Framed boundary (preamble ++ opening boundary ++ rest) ts

/-- The tokens of the parts, each but the last followed by a beginning. -/
inductive Carries : List Token -> List Str -> Prop where
  | last (t gap : Str) : Carries (bytes t ++ Token.messageEnd :: bytes gap) [t]
  | more {toks : List Token} {ts : List Str} (t gap : Str) :
      Carries toks ts ->
      Carries (bytes t ++ Token.messageEnd :: bytes gap ++
        Token.messageBegin :: toks) (t :: ts)

namespace Scanner

variable {boundary : Str} {x : Scanner}

/-!
## From the frame to the tokens
-/

theorem scans_parts {text : Str} {ts : List Str} (h : Parts boundary text ts) :
    forall (x : Scanner) (state : StreamState),
      state = StreamState.firstMessage ∨ state = StreamState.encapsulation ->
      Inside x boundary state [] ->
      exists y toks, Transducer.run scan x text = some (y, toks) ∧ Carries toks ts ∧
        Waits y boundary StreamState.epilogue [] := by
  induction h with
  | @last t epilogue ht =>
      intro x state hstate hx
      rcases scans_part hstate hx ht with ⟨y, hpart, hy⟩
      rcases scans_close hy with ⟨z, hclose, hz⟩
      have hall := Transducer.run_append hpart
        (Transducer.run_append hclose (scans_epilogue epilogue hz))
      refine ⟨z, _, hall, ?_, hz⟩
      have hcarries := Carries.last t
        (delimiter boundary ++ (str "--" ++ epilogue))
      simpa [bytes] using hcarries
  | @more t rest ts ht _ ih =>
      intro x state hstate hx
      rcases scans_part hstate hx ht with ⟨y, hpart, hy⟩
      rcases scans_next hy with ⟨z, hnext, hz⟩
      rcases ih z StreamState.encapsulation (Or.inr rfl) hz with
        ⟨w, toks, hrest, htoks, hw⟩
      have hall := Transducer.run_append hpart (Transducer.run_append hnext hrest)
      refine ⟨w, _, hall, ?_, hw⟩
      have hcarries := Carries.more t (delimiter boundary ++ str "\r\n") htoks
      simpa [bytes] using hcarries

/-- On a non-empty body the scanner starts as if it were in the preamble. -/
theorem exists_preamble (boundary : Str) :
    exists x, Inside x boundary StreamState.preamble [] ∧
      forall c rest, Transducer.run scan (start boundary) (c :: rest) =
        Transducer.run scan x (c :: rest) := by
  refine ⟨_, inside_trInit (searching_preamble boundary) (setUp_init boundary),
    ?_⟩
  intro c rest
  rfl

theorem scans_framed {body : Str} {ts : List Str}
    (h : Framed boundary body ts) :
    exists y pre toks, Transducer.run scan (start boundary) body =
        some (y, bytes pre ++ Token.messageBegin :: toks) ∧ Carries toks ts ∧
      Waits y boundary StreamState.epilogue [] := by
  cases h with
  | @intro preamble rest ts hpreamble hparts =>
      rcases exists_preamble boundary with ⟨x, hx, hstart⟩
      rcases scans_opening hx hpreamble with ⟨y, hopening, hy⟩
      rcases scans_parts hparts y StreamState.firstMessage (Or.inl rfl) hy with
        ⟨z, toks, hrest, htoks, hz⟩
      have hall := Transducer.run_append hopening hrest
      refine ⟨z, preamble ++ opening boundary, toks, ?_, htoks, hz⟩
      have hcons : exists c more, preamble ++ opening boundary ++ rest =
          c :: more := by
        apply List.exists_cons_of_ne_nil
        simp [opening, str]
      rcases hcons with ⟨c, more, hbody⟩
      rw [hbody, hstart, ← hbody, hall]
      simp

/-!
## From the scanner to the frame
-/

/-- A byte after a delimiter has to be one of two. -/
theorem scan_after_delimiter
    (h : Waits x boundary StreamState.maybeEndOrEncapsulation []) {c : UInt8}
    {next : Scanner × List Token} (hscan : x.scan c = some next) :
    c = chr '-' ∧ next.1.parser.state = StreamState.maybeEnd ∨
      c = chr '\r' ∧ next.1.parser.state = StreamState.maybeEncapsulation := by
  rw [scan, StreamParser.handleChar, h.state_eq] at hscan
  by_cases hdash : c = chr '-'
  · left
    simp [hdash] at hscan
    exact ⟨hdash, by rw [← hscan]⟩
  · by_cases hcr : c = chr '\r'
    · right
      have hne : ¬ chr '\r' = chr '-' := by decide
      simp [hcr, hne] at hscan
      exact ⟨hcr, by rw [← hscan]⟩
    · simp [hdash, hcr] at hscan

theorem scan_maybeEnd (h : x.parser.state = StreamState.maybeEnd) {c : UInt8}
    {next : Scanner × List Token} (hscan : x.scan c = some next) :
    c = chr '-' := by
  rw [scan, StreamParser.handleChar, h] at hscan
  by_contra hne
  simp [hne] at hscan

theorem scan_maybeEncapsulation
    (h : x.parser.state = StreamState.maybeEncapsulation) {c : UInt8}
    {next : Scanner × List Token} (hscan : x.scan c = some next) :
    c = chr '\n' := by
  rw [scan, StreamParser.handleChar, h] at hscan
  by_contra hne
  simp [hne] at hscan

theorem close_or_next
    (h : Waits x boundary StreamState.maybeEndOrEncapsulation [])
    {text : Str} {y : Scanner} {toks : List Token}
    (hscan : Transducer.run scan x text = some (y, toks))
    (hy : y.parser.state = StreamState.epilogue) :
    (exists rest, text = str "--" ++ rest) ∨
      exists rest, text = str "\r\n" ++ rest := by
  cases text with
  | nil =>
      cases hscan
      rw [h.state_eq] at hy
      cases hy
  | cons c text =>
      rcases Transducer.exists_of_run_cons hscan with
        ⟨z, u, v, hnext, hlast, -⟩
      cases text with
      | nil =>
          cases hlast
          rcases scan_after_delimiter h hnext with ⟨-, hstate⟩ | ⟨-, hstate⟩
          · rw [hstate] at hy
            cases hy
          · rw [hstate] at hy
            cases hy
      | cons d rest =>
          rcases Transducer.exists_of_run_cons hlast with
            ⟨after, _, _, hafter, -, -⟩
          rcases scan_after_delimiter h hnext with ⟨hc, hstate⟩ | ⟨hc, hstate⟩
          · left
            have hd := scan_maybeEnd hstate hafter
            exact ⟨rest, by rw [hc, hd]; rfl⟩
          · right
            have hd := scan_maybeEncapsulation hstate hafter
            exact ⟨rest, by rw [hc, hd]; rfl⟩

/-- What a part text and its delimiter leave to scan is shorter, so the parts
are read off one by one. -/
theorem parts_of_scans (n : Nat) :
    forall (text : Str) (x : Scanner) (state : StreamState),
      text.length <= n ->
      state = StreamState.firstMessage ∨ state = StreamState.encapsulation ->
      Inside x boundary state [] ->
      forall y toks, Transducer.run scan x text = some (y, toks) ->
        y.parser.state = StreamState.epilogue ->
        exists ts, Parts boundary text ts ∧ Carries toks ts := by
  induction n with
  | zero =>
      intro text x state hlen hstate hx y toks hscan hy
      have hnil : text = [] := List.eq_nil_of_length_eq_zero (by omega)
      subst hnil
      cases hscan
      rw [hx.state_eq] at hy
      rcases hstate with hstate | hstate
      · rw [hstate] at hy
        cases hy
      · rw [hstate] at hy
        cases hy
  | succ n ih =>
      intro text x state hlen hstate hx y toks hscan hy
      have hof : delimOf boundary state = delimiter boundary := by
        rcases hstate with h | h <;> rw [h, delimOf]
      have hs : Searching boundary state := by
        rw [Searching, hof]
        exact two_le_length_delimiter boundary
      rcases free_or_delimits (delimiter_ne_nil boundary) text with hfree | ⟨t, rest, rfl, ht⟩
      · -- Without a delimiter the scanner stays in the part.
        rw [← hof] at hfree
        rcases scans_free hs text x [] hx (by simpa using hfree) with
          ⟨z, w, hall, hz, -⟩
        rw [hscan] at hall
        cases hall
        rw [hz.state_eq] at hy
        rcases hstate with hstate | hstate
        · rw [hstate] at hy
          cases hy
        · rw [hstate] at hy
          cases hy
      · rcases scans_part hstate hx ht with ⟨z, hpart, hz⟩
        rcases Transducer.exists_of_run_append hscan with ⟨z', s, u, hz', hrest, rfl⟩
        rw [hpart] at hz'
        cases hz'
        rcases close_or_next hz hrest hy with ⟨more, rfl⟩ | ⟨more, rfl⟩
        · rcases scans_close hz with ⟨w, hclose, hw⟩
          have hall := Transducer.run_append hclose (scans_epilogue more hw)
          rw [hrest] at hall
          cases hall
          refine ⟨[t], Parts.last more ht, ?_⟩
          have hcarries := Carries.last t
            (delimiter boundary ++ (str "--" ++ more))
          simpa [bytes] using hcarries
        · rcases scans_next hz with ⟨w, hnext, hw⟩
          rcases Transducer.exists_of_run_append hrest with ⟨w', v, u', hw', hlast, rfl⟩
          rw [hnext] at hw'
          cases hw'
          have hshort : more.length <= n := by
            have hdelim := two_le_length_delimiter boundary
            simp only [List.length_append] at hlen
            omega
          rcases ih more w StreamState.encapsulation hshort (Or.inr rfl) hw y u'
            hlast hy with ⟨ts, hparts, htoks⟩
          refine ⟨t :: ts, Parts.more ht hparts, ?_⟩
          have hcarries := Carries.more t (delimiter boundary ++ str "\r\n") htoks
          simpa [bytes] using hcarries

/-- The scanner recognises the frame: it gets to its epilogue exactly on a
preamble, an opening line, parts and an epilogue. -/
theorem framed_of_scans {body : Str} {y : Scanner} {toks : List Token}
    (hscan : Transducer.run scan (start boundary) body = some (y, toks))
    (hy : y.parser.state = StreamState.epilogue) :
    exists ts pre inner, Framed boundary body ts ∧
      toks = bytes pre ++ Token.messageBegin :: inner ∧ Carries inner ts := by
  cases body with
  | nil =>
      cases hscan
      cases hy
  | cons c rest =>
      rcases exists_preamble boundary with ⟨x, hx, hstart⟩
      rw [hstart] at hscan
      rcases free_or_delimits (opening_ne_nil boundary) (c :: rest) with
        hfree | ⟨t, more, hbody, ht⟩
      · rcases scans_free (searching_preamble boundary) (c :: rest) x [] hx
          (by simpa [delimOf] using hfree) with ⟨z, w, hall, hz, -⟩
        rw [hscan] at hall
        cases hall
        rw [hz.state_eq] at hy
        cases hy
      · rw [hbody] at hscan ⊢
        rcases scans_opening hx ht with ⟨z, hopening, hz⟩
        rcases Transducer.exists_of_run_append hscan with ⟨z', s, u, hz', hrest, rfl⟩
        rw [hopening] at hz'
        cases hz'
        rcases parts_of_scans more.length more z StreamState.firstMessage
          le_rfl (Or.inl rfl) hz y u hrest hy with ⟨ts, hparts, htoks⟩
        exact ⟨ts, t ++ opening boundary, u, Framed.intro ht hparts,
          by simp, htoks⟩

end Scanner

end Multipart
end CisWebui
