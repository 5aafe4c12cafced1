import CisWebui.Multipart.Bytewise

/-!
# Cutting a body into pieces

The body reaches the reader in the pieces the connection delivers.  What the
upload comes to should not depend on where they end.

It does not when every piece is harmless: it does not end inside a name with
nothing held back, it is at least as long as what is held back after it, and if
it brings an error, no value is being copied then.
-/

namespace CisWebui
namespace Multipart

open Cpp
open Http (FormTarget Mode)

/-- How the reading of a body ends. -/
inductive Outcome where
  | stored
  | putFailed (e : Nat)
  | finishFailed (e : Nat)
deriving DecidableEq, Repr

/-- What is left of a body: the values, the files with the bytes written to
them, and the outcome. -/
structure Upload where
  values : List Value
  files : List FormFile
  outcome : Outcome
deriving DecidableEq, Repr

namespace Reader

def upload (r : Reader) (outcome : Outcome) : Upload where
  values := r.collector.values
  files := r.collector.files
  outcome := outcome

/-- `finish`, after the last piece. -/
def close (r : Reader) : Upload :=
  match r.finish with
  | none => r.upload Outcome.stored
  | some e => r.upload (Outcome.finishFailed e)

/-- One `put` for every piece, until one fails. -/
def run (fs : FileSystem) : Reader -> List Str -> Except Fault Upload
  | r, [] => Except.ok r.close
  | r, chunk :: rest =>
      (r.put fs chunk).bind fun out =>
        match out.ec with
        | none => run fs out.reader rest
        | some e => Except.ok (out.reader.upload (Outcome.putFailed e))

/-- The upload of the bytewise reader. -/
def whole (fs : FileSystem) (r : Reader) (body : Str) : Upload :=
  let last := r.feedAll fs body
  match last.2 with
  | none => last.1.close
  | some e => last.1.upload (Outcome.putFailed e)

/-- A piece that brings the reader to `last`. -/
def HarmlessPiece (last : Reader) (chunk : Str) : Prop :=
  ¬ last.CutsName ∧ last.scanner.pending.length <= chunk.length

/-- Every piece up to the first error is harmless, and the error comes outside
the values. -/
def Harmless (fs : FileSystem) : Reader -> List Str -> Prop
  | _, [] => True
  | r, chunk :: rest =>
      if (r.feedAll fs chunk).2 = none then
        HarmlessPiece (r.feedAll fs chunk).1 chunk ∧
          Harmless fs (r.feedAll fs chunk).1 rest
      else
        (r.feedAll fs chunk).1.collector.isWritable = false

instance (last : Reader) (chunk : Str) : Decidable (HarmlessPiece last chunk) :=
  inferInstanceAs (Decidable (¬ last.CutsName ∧
    last.scanner.pending.length <= chunk.length))

instance decidableHarmless (fs : FileSystem) :
    (r : Reader) -> (cutting : List Str) -> Decidable (Harmless fs r cutting)
  | _, [] => isTrue trivial
  | r, chunk :: rest =>
      have := decidableHarmless fs (r.feedAll fs chunk).1 rest
      inferInstanceAs (Decidable (
        if (r.feedAll fs chunk).2 = none then
          HarmlessPiece (r.feedAll fs chunk).1 chunk ∧
            Harmless fs (r.feedAll fs chunk).1 rest
        else
          (r.feedAll fs chunk).1.collector.isWritable = false))

variable {fs : FileSystem} {boundary : Str}

theorem feedAll_append (r : Reader) (a b : Str) :
    r.feedAll fs (a ++ b) =
      if (r.feedAll fs a).2 = none then (r.feedAll fs a).1.feedAll fs b
      else r.feedAll fs a := by
  induction a generalizing r with
  | nil => rfl
  | cons c rest ih =>
      rw [List.cons_append, feedAll, feedAll]
      by_cases hok : (r.feed fs c).2 = none
      · rw [if_pos hok, if_pos hok]
        exact ih _
      · rw [if_neg hok, if_neg hok, if_neg hok]

/-- Harmless pieces leave the upload as the bytewise reader has it. -/
theorem run_of_harmless (cutting : List Str) :
    forall r : Reader, Ready boundary r -> Harmless fs r cutting ->
      r.run fs cutting = Except.ok (r.whole fs cutting.flatten) := by
  induction cutting with
  | nil =>
      intro r _ _
      rfl
  | cons chunk rest ih =>
      intro r hready hharmless
      rw [Harmless] at hharmless
      rw [run, whole, List.flatten_cons, feedAll_append]
      by_cases hec : (r.feedAll fs chunk).2 = none
      · rw [if_pos hec] at hharmless ⊢
        rcases hharmless with ⟨⟨hname, hheld⟩, hrest⟩
        rcases put_of_ok hready.placed hec hname with
          ⟨out, hput, hout, -, hcollector, hparser, -, hpending⟩
        have hreader : out.reader = (r.feedAll fs chunk).1 := by
          rcases out with ⟨⟨⟨parser, pending⟩, collector⟩, nwritten, ec⟩
          dsimp only at hcollector hparser hpending ⊢
          rw [hcollector, hparser, hpending hheld]
        rw [hput]
        dsimp only [Except.bind]
        rw [hout, hreader]
        exact ih _ (ready_feedAll hready hec) hrest
      · rw [if_neg hec] at hharmless ⊢
        rcases Option.ne_none_iff_exists'.mp hec with ⟨e, he⟩
        rcases put_of_error hready.placed he with ⟨out, hput, hout, hcollector⟩
        rw [hput]
        dsimp only [Except.bind]
        rw [hout, he]
        simp only [upload, hcollector hharmless]

/-- Two harmless cuttings of a body come to the same upload. -/
theorem chunking_of_harmless (fs : FileSystem) (boundary : Str)
    (target : FormTarget) (a b : List Str) (hbody : a.flatten = b.flatten)
    (ha : Harmless fs (initial boundary target) a)
    (hb : Harmless fs (initial boundary target) b) :
    (initial boundary target).run fs a = (initial boundary target).run fs b := by
  have hready := ready_initial boundary target
  rw [run_of_harmless a _ hready ha, run_of_harmless b _ hready hb, hbody]

/-- A disk without files that lets everything be opened and written. -/
def emptyDisk : FileSystem where
  isDirectory := fun _ => true
  fileExists := fun _ _ => false
  openError := fun _ _ => none
  room := fun _ _ => none

def sampleTarget : FormTarget where
  dir := str "/srv"
  mode := Mode.add

def sampleHeader : Str :=
  str "--B\r\nContent-Disposition: form-data; name=\"a\"\r\n\r\n"

theorem chunking_of_harmless_sample :
    (initial (str "B") sampleTarget).run emptyDisk
        [sampleHeader, str "\r\nx\r\n-", str "-B--"] =
      (initial (str "B") sampleTarget).run emptyDisk
        [sampleHeader ++ str "\r\nx\r\n--B--"] :=
  chunking_of_harmless emptyDisk (str "B") sampleTarget _ _ (by decide)
    (by decide +kernel) (by decide +kernel)

/-- Two cuts inside what looks like a delimiter: the second byte held back is
lost for a copy of the first. -/
theorem chunking_not_everywhere :
    exists a b : List Str, a.flatten = b.flatten ∧
      (a ++ b).all (fun chunk => chunk ≠ []) = true ∧
      ¬ (initial (str "B") sampleTarget).run emptyDisk a =
        (initial (str "B") sampleTarget).run emptyDisk b :=
  ⟨[sampleHeader, str "\r", str "\n", str "x", str "\r\n--B--"],
    [sampleHeader ++ str "\r\nx\r\n--B--"], by decide, by decide,
    by decide +kernel⟩

end Reader

end Multipart
end CisWebui
