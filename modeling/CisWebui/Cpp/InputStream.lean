import Mathlib.Data.List.TakeWhile
import CisWebui.Cpp.Bytes

/-!
# Input streams

`std::ifstream` with its state bits, and `std::getline`.  A stream that could not
be opened fails at once; one whose file cannot be read, as a directory, goes bad
where it tries to; neither ever comes to the end of its file.
-/

namespace CisWebui
namespace Cpp

/-- What comes of opening a file and reading it: it cannot be opened, or it gives
some bytes and behind them its end or a read error. -/
inductive FileOutcome where
  | unopened
  | opened (contents : Str) (readError : Bool)
deriving DecidableEq, Repr

/-- `std::ifstream`: the bytes in front of it, whether reading fails behind them,
and its bits. -/
structure InputStream where
  left : Str := []
  readError : Bool := false
  eofBit : Bool := false
  failBit : Bool := false
  badBit : Bool := false
deriving DecidableEq, Repr

namespace InputStream

def ofFile : FileOutcome -> InputStream
  | FileOutcome.unopened => { failBit := true }
  | FileOutcome.opened contents readError => { left := contents, readError := readError }

def good (s : InputStream) : Bool :=
  !s.eofBit && !s.failBit && !s.badBit

def eof (s : InputStream) : Bool :=
  s.eofBit

/-- `std::getline` into an empty string.  The exception that a read error raises in
the buffer is caught and sets the bad bit. -/
def getline (delim : UInt8) (s : InputStream) : Str × InputStream :=
  if s.good then
    let line := s.left.takeWhile fun c => c ≠ delim
    match s.left.dropWhile fun c => c ≠ delim with
    | _ :: rest => (line, { s with left := rest })
    | [] =>
        (line,
          { s with
            left := []
            eofBit := !s.readError
            badBit := s.readError
            failBit := line = [] })
  else
    ([], { s with failBit := true })

/-- A stream at the front of a text, with no bit set. -/
def at' (text : Str) (readError : Bool) : InputStream where
  left := text
  readError := readError

/-- No read gets anywhere, and the end of the file is not seen. -/
def Stuck (s : InputStream) : Prop :=
  s.eofBit = false ∧ s.good = false

theorem forall_ne_of_not_mem {delim : UInt8} {line : Str} (h : delim ∉ line) :
    forall c, c ∈ line -> decide (c ≠ delim) = true := by
  intro c hc
  rw [decide_eq_true_eq]
  intro heq
  exact h (heq ▸ hc)

/-- In front of the delimiter the line ends, and the delimiter is taken with it. -/
theorem getline_separator {delim : UInt8} {line : Str} (h : delim ∉ line) (rest : Str)
    (readError : Bool) :
    (at' (line ++ delim :: rest) readError).getline delim = (line, at' rest readError) := by
  have hline := forall_ne_of_not_mem h
  have htake : (line ++ delim :: rest).takeWhile (fun c => c ≠ delim) = line := by
    rw [List.takeWhile_append_of_pos hline, List.takeWhile_cons_of_neg (by simp),
      List.append_nil]
  have hdrop : (line ++ delim :: rest).dropWhile (fun c => c ≠ delim) = delim :: rest := by
    rw [List.dropWhile_append_of_pos hline, List.dropWhile_cons_of_neg (by simp)]
  rw [getline, if_pos (by rfl)]
  simp only [at', htake, hdrop]

/-- Without the delimiter the line goes to the end. -/
theorem getline_last {delim : UInt8} {line : Str} (h : delim ∉ line) (readError : Bool) :
    (at' line readError).getline delim =
      (line,
        { left := []
          readError := readError
          eofBit := !readError
          badBit := readError
          failBit := line = [] }) := by
  have hline := forall_ne_of_not_mem h
  rw [getline, if_pos (by rfl)]
  simp only [at', List.takeWhile_eq_self_iff.mpr hline, List.dropWhile_eq_nil_iff.mpr hline]

theorem getline_of_not_good {s : InputStream} (h : s.good = false) (delim : UInt8) :
    s.getline delim = ([], { s with failBit := true }) := by
  rw [getline, h]
  rfl

/-- Reading does not free a stream that is stuck. -/
theorem stuck_getline {s : InputStream} (h : s.Stuck) (delim : UInt8) :
    (s.getline delim).2.Stuck := by
  rw [getline_of_not_good h.right]
  exact ⟨h.left, by simp [good]⟩

end InputStream
end Cpp
end CisWebui
