import CisWebui.Multipart.Failures
import CisWebui.Multipart.HeldBytes

/-!
# What the pieces bring

The delimiter search sees every byte of a body once, however it is cut; what it
lets go comes from the bytes that `put` holds back, and these may be wrong ones.
As long as no wrong byte gets into a part, the upload is that of the parts: what
is let go before the first part or with a delimiter goes nowhere.
-/

namespace CisWebui
namespace Multipart

open Cpp
open Foundation
open Http (FormTarget Mode)

/-- The delimiter search over a piece, and what `put` holds back behind it. -/
def Scanner.scanPiece (s : Scanner) (chunk : Str) : Option (Scanner × List Token) :=
  (Transducer.run scan s chunk).bind fun next =>
    (s.parser.handleAll chunk).map fun last =>
      (⟨last.1, Reader.nextPending (s.pending ++ chunk) s.pending chunk.length last.2⟩,
        next.2)

namespace Reader

/-- The pieces let go of the tokens, from the bytes held back and their own, up to
one that brings an error.  None before it ends in a name with nothing held back. -/
inductive Brings (fs : FileSystem) : Reader -> List Str -> List Token -> Prop where
  | done (r : Reader) : Brings fs r [] []
  | failed {r : Reader} {chunk : Str} {s : Scanner} {u : List Token} (rest : List Str)
      (v : List Token) :
      Transducer.run Scanner.scan r.scanner chunk = some (s, u) ->
      u.foldlM (Collector.takeOk fs) r.collector = none ->
      Brings fs r (chunk :: rest) (u ++ v)
  | piece {r : Reader} {chunk : Str} {rest : List Str} {s : Scanner} {d : Collector}
      {u v : List Token} :
      r.scanner.scanPiece chunk = some (s, u) ->
      u.foldlM (Collector.takeOk fs) r.collector = some d ->
      ¬ (Reader.mk s d).CutsName -> Brings fs ⟨s, d⟩ rest v ->
      Brings fs r (chunk :: rest) (u ++ v)

/-- What the pieces bring to the parts are the texts. -/
def BringsTexts (fs : FileSystem) (target : FormTarget) (boundary : Str)
    (cutting : List Str) (ts : List Str) : Prop :=
  exists pre inner, Carries inner ts ∧
    Brings fs (initial boundary target) cutting (bytes pre ++ Token.messageBegin :: inner)

variable {fs : FileSystem} {boundary : Str}

/-!
## One piece
-/

theorem exists_of_scanPiece {s t : Scanner} {chunk : Str} {u : List Token}
    (h : s.scanPiece chunk = some (t, u)) : exists q p n,
      Transducer.run Scanner.scan s chunk = some (q, u) ∧
        s.parser.handleAll chunk = some (p, n) ∧
        t = ⟨p, nextPending (s.pending ++ chunk) s.pending chunk.length n⟩ := by
  rcases Option.bind_eq_some_iff.mp h with ⟨⟨q, v⟩, hscan, hmap⟩
  rcases Option.map_eq_some_iff.mp hmap with ⟨⟨p, n⟩, hall, hnext⟩
  cases hnext
  exact ⟨q, p, n, hscan, hall, rfl⟩

/-- What `put` makes of a piece without an error. -/
theorem exists_put_of_piece {r : Reader} (hplaced : Placed boundary r) {chunk : Str}
    {s : Scanner} {d : Collector} {u : List Token}
    (hpiece : r.scanner.scanPiece chunk = some (s, u))
    (htake : u.foldlM (Collector.takeOk fs) r.collector = some d)
    (hcut : ¬ (Reader.mk s d).CutsName) :
    exists out, r.put fs chunk = Except.ok out ∧ out.ec = none ∧ out.reader = ⟨s, d⟩ := by
  rcases exists_of_scanPiece hpiece with ⟨q, p, n, hscan, hall, rfl⟩
  have hfeed := feedAll_of_takeOk chunk hscan htake
  have hok : (r.feedAll fs chunk).2 = none := by rw [hfeed]
  rcases handleAll_feedAll chunk r hplaced.sized hok with ⟨m, hall', hle, hrest⟩
  rw [hall] at hall'
  cases hall'
  have hlength := length_nextPending hle
  have hcut' : ¬ (r.feedAll fs chunk).1.CutsName := by
    rintro ⟨hwritable, hstate, hpending⟩
    rw [hrest, List.drop_eq_nil_iff, List.length_append] at hpending
    rw [hfeed] at hwritable hstate
    refine hcut ⟨hwritable, hstate, List.length_eq_zero_iff.mp ?_⟩
    rw [hlength]
    omega
  rcases put_of_ok hplaced hok hcut' with ⟨out, hput, hec, -, hcollector, -, -, -⟩
  rcases exists_of_put hplaced hput hec with ⟨k, hall', -, hpending⟩
  rw [hall] at hall'
  rw [hfeed] at hcollector
  refine ⟨out, hput, hec, ?_⟩
  rcases out with ⟨⟨⟨parser, pending⟩, collector⟩, nwritten, ec⟩
  dsimp only at hcollector hpending hall' ⊢
  cases hall'
  rw [hcollector, hpending]

/-- A piece whose tokens bring an error fails. -/
theorem exists_put_of_failed {r : Reader} (hplaced : Placed boundary r) {chunk : Str}
    {s : Scanner} {u : List Token}
    (hscan : Transducer.run Scanner.scan r.scanner chunk = some (s, u))
    (hsteps : ¬ r.collector.headers.steps u = none)
    (htake : u.foldlM (Collector.takeOk fs) r.collector = none) :
    exists out e, r.put fs chunk = Except.ok out ∧ out.ec = some e := by
  have hfailed := feedAll_of_not_takeOk chunk hscan hsteps htake
  rcases Option.ne_none_iff_exists'.mp hfailed with ⟨e, he⟩
  rcases put_of_error hplaced he with ⟨out, hput, hec, -⟩
  exact ⟨out, e, hput, hec⟩

theorem headers_of_takeOk {c d : Collector} {u v : List Token}
    (htake : u.foldlM (Collector.takeOk fs) c = some d)
    (hsteps : ¬ c.headers.steps (u ++ v) = none) : ¬ d.headers.steps v = none := by
  rcases Option.ne_none_iff_exists'.mp hsteps with ⟨last, hlast⟩
  rw [Headers.steps_append] at hlast
  rcases Option.bind_eq_some_iff.mp hlast with ⟨next, hnext, hrest⟩
  have hheaders : (Collector.takeAll fs (c, none) u).1.headers = next :=
    Collector.headers_takeAll u hnext
  rw [Collector.takeAll_of_takeOk u htake] at hheaders
  rw [hheaders, hrest]
  simp

/-!
## A run of pieces
-/

theorem run_of_brings {r : Reader} {cutting : List Str} {toks : List Token}
    (h : Brings fs r cutting toks) :
    Placed boundary r -> ¬ r.collector.headers.steps toks = none ->
      match toks.foldlM (Collector.takeOk fs) r.collector with
      | some d => exists s, r.run fs cutting = Except.ok (Reader.mk s d).close
      | none => exists (last : Reader) (e : Nat),
          r.run fs cutting = Except.ok (last.upload (Outcome.putFailed e)) := by
  induction h with
  | done r =>
      intro _ _
      exact ⟨r.scanner, rfl⟩
  | @failed r chunk s u rest v hscan htake =>
      intro hplaced hsteps
      have hsteps' : ¬ r.collector.headers.steps u = none := by
        intro hnone
        rw [Headers.steps_append, hnone] at hsteps
        exact hsteps rfl
      rcases exists_put_of_failed hplaced hscan hsteps' htake with ⟨out, e, hput, hec⟩
      have hnone : (u ++ v).foldlM (Collector.takeOk fs) r.collector = none := by
        rw [List.foldlM_append, htake]
        rfl
      rw [hnone]
      refine ⟨out.reader, e, ?_⟩
      rw [run, hput]
      dsimp only [Except.bind]
      rw [hec]
  | @piece r chunk rest s d u v hpiece htake hcut _ ih =>
      intro hplaced hsteps
      rcases exists_put_of_piece hplaced hpiece htake hcut with ⟨out, hput, hec, hreader⟩
      have hplaced' := placed_put hplaced hput hec
      rw [hreader] at hplaced'
      have hlater := ih hplaced' (headers_of_takeOk htake hsteps)
      rw [Collector.foldlM_append_some htake, run, hput]
      dsimp only [Except.bind]
      rw [hec, hreader]
      exact hlater

/-- Harmless pieces of a body with right headers bring its tokens. -/
theorem brings_of_harmless (cutting : List Str) : forall {r : Reader} {s : Scanner}
    {toks : List Token}, Ready boundary r -> Harmless fs r cutting ->
      Transducer.run Scanner.scan r.scanner cutting.flatten = some (s, toks) ->
      ¬ r.collector.headers.steps toks = none -> Brings fs r cutting toks := by
  induction cutting with
  | nil =>
      intro r s toks _ _ hscan _
      cases hscan
      exact Brings.done r
  | cons chunk rest ih =>
      intro r s toks hready hharmless hscan hsteps
      rw [List.flatten_cons] at hscan
      rcases Transducer.exists_of_run_append hscan with ⟨t, u, v, hu, hv, rfl⟩
      rw [Harmless] at hharmless
      cases htake : u.foldlM (Collector.takeOk fs) r.collector with
      | none => exact Brings.failed rest v hu htake
      | some d =>
          have hfeed := feedAll_of_takeOk chunk hu htake
          have hok : (r.feedAll fs chunk).2 = none := by rw [hfeed]
          rw [if_pos hok] at hharmless
          rcases hharmless with ⟨⟨hcut, hshort⟩, hrest⟩
          rcases handleAll_feedAll chunk r hready.placed.sized hok with
            ⟨n, hall, hle, hpending⟩
          have hready' := ready_feedAll hready hok
          rw [hfeed] at hcut hshort hrest hall hpending hready'
          dsimp only at hshort hall hpending
          have hheld : nextPending (r.scanner.pending ++ chunk) r.scanner.pending
              chunk.length n = t.pending := by
            rw [hpending] at hshort ⊢
            rw [List.length_drop, List.length_append] at hshort
            exact nextPending_eq hle hshort
          have hpiece : r.scanner.scanPiece chunk = some (t, u) := by
            rw [Scanner.scanPiece, hu, Option.bind_some, hall, Option.map_some, hheld]
          exact Brings.piece hpiece htake hcut
            (ih hready' hrest hv (headers_of_takeOk htake hsteps))

/-!
## The upload of the parts
-/

variable {target : FormTarget} {parts : List Part}

/-- The tokens of a body with the texts of the parts leave behind what the parts
do. -/
theorem takeOk_carries {inner : List Token}
    (hcarries : Carries inner (parts.map Part.text))
    (hvalid : forall part, part ∈ parts -> part.Valid) (pre : Str) :
    (bytes pre ++ Token.messageBegin :: inner).foldlM (Collector.takeOk fs)
        { target := target } =
      (parts.foldlM (Collector.leave fs) { target := target }).map
        fun d => d.waiting false := by
  have hfresh : Collector.Fresh { target := target } := ⟨rfl, rfl, rfl⟩
  have hparts : inner.foldlM (Collector.takeOk fs) _ = _ :=
    Collector.takeOk_parts hcarries { target := target } parts hfresh hvalid rfl
  have hpre : (bytes pre).foldlM (Collector.takeOk fs) { target := target } = _ :=
    Collector.takeOk_bytes_outside rfl rfl pre
  rw [Collector.foldlM_append_some hpre]
  exact hparts

theorem steps_carries {inner : List Token}
    (hcarries : Carries inner (parts.map Part.text))
    (hvalid : forall part, part ∈ parts -> part.Valid) (pre : Str) :
    ¬ Headers.steps {} (bytes pre ++ Token.messageBegin :: inner) = none := by
  rcases Headers.exists_steps hcarries {} parts rfl hvalid rfl with ⟨last, hlast⟩
  rw [Headers.steps_append, Headers.steps_bytes_outside, Option.bind_some]
  change ¬ Headers.steps ⟨true, {}⟩ inner = none
  rw [hlast]
  simp

theorem fresh_leaveAll (parts : List Part) : forall {c d : Collector},
    c.Fresh -> parts.foldlM (Collector.leave fs) c = some d -> d.Fresh := by
  induction parts with
  | nil =>
      intro c d hfresh h
      cases h
      exact hfresh
  | cons part parts ih =>
      intro c d hfresh h
      rw [List.foldlM_cons] at h
      rcases Option.bind_eq_some_iff.mp h with ⟨e, he, hrest⟩
      exact ih (Collector.fresh_leave hfresh he) hrest

/-- What an upload of the parts comes to: what they leave behind, or the error of
one that cannot be opened. -/
def ComesTo (fs : FileSystem) (target : FormTarget) (parts : List Part)
    (upload : Upload) : Prop :=
  match parts.foldlM (Collector.leave fs) { target := target } with
  | some d =>
      upload = { values := d.values, files := d.files, outcome := Outcome.stored }
  | none => exists e, upload.outcome = Outcome.putFailed e

/-- Pieces that bring the texts of the parts make the upload of the parts. -/
theorem comesTo_of_brings {cutting : List Str}
    (hbrings : BringsTexts fs target boundary cutting (parts.map Part.text))
    (hvalid : forall part, part ∈ parts -> part.Valid) :
    exists upload, (initial boundary target).run fs cutting = Except.ok upload ∧
      ComesTo fs target parts upload := by
  rcases hbrings with ⟨pre, inner, hcarries, hbrings⟩
  have htakes : (bytes pre ++ Token.messageBegin :: inner).foldlM (Collector.takeOk fs)
      { target := target } = _ := takeOk_carries hcarries hvalid pre
  have hrun := run_of_brings hbrings (ready_initial boundary target).placed
    (steps_carries hcarries hvalid pre)
  change match (bytes pre ++ Token.messageBegin :: inner).foldlM (Collector.takeOk fs)
      { target := target } with
    | some d => _
    | none => _ at hrun
  rw [htakes] at hrun
  cases hleave : parts.foldlM (Collector.leave fs) { target := target } with
  | none =>
      rw [hleave] at hrun
      rcases hrun with ⟨last, e, hlast⟩
      refine ⟨_, hlast, ?_⟩
      rw [ComesTo, hleave]
      exact ⟨e, rfl⟩
  | some d =>
      rw [hleave] at hrun
      rcases hrun with ⟨s, hlast⟩
      have hfresh := fresh_leaveAll parts ⟨rfl, rfl, rfl⟩ hleave
      have hfinish : (Reader.mk s (d.waiting false)).finish = none :=
        if_pos hfresh.state_eq
      refine ⟨_, hlast, ?_⟩
      rw [ComesTo, hleave, close, hfinish]
      rfl

/-- Harmless pieces of a well-formed body bring its texts. -/
theorem bringsTexts_of_harmless {cutting : List Str}
    (hframed : Framed boundary cutting.flatten (parts.map Part.text))
    (hvalid : forall part, part ∈ parts -> part.Valid)
    (hharmless : Harmless fs (initial boundary target) cutting) :
    BringsTexts fs target boundary cutting (parts.map Part.text) := by
  rcases Scanner.scans_framed hframed with ⟨s, pre, inner, hscan, hcarries, -⟩
  exact ⟨pre, inner, hcarries, brings_of_harmless cutting (ready_initial boundary target)
    hharmless hscan (steps_carries hcarries hvalid pre)⟩

end Reader

end Multipart
end CisWebui
