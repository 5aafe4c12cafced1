import CisWebui.Multipart.Uploads

/-!
# The boundary of a content type

The constructor of the reader takes everything after the first equals sign of
the content type for the boundary.  Here are the content types a request can
have, as lists of parameters, and what the constructor makes of them.
-/

namespace CisWebui
namespace Multipart

open Cpp
open Http (toLower)
open Reader (boundaryOf)

/-!
## Parameters
-/

def isLetter (c : UInt8) : Bool :=
  (chr 'a' <= c && c <= chr 'z') || (chr 'A' <= c && c <= chr 'Z')

/-- The bytes a token is made of. -/
def isTokenByte (c : UInt8) : Bool :=
  isLetter c || (chr '0' <= c && c <= chr '9') ||
    (str "!#$%&'*+-.^_`|~").contains c

/-- Tabs, blanks and what is visible. -/
def isQuotable (c : UInt8) : Bool :=
  c = 9 || (32 <= c && c != 127)

@[ext]
structure ParameterToken where
  text : Str
  nonempty : text ≠ []
  bytes : forall c, c ∈ text -> isTokenByte c = true

instance decidableEqParameterToken : DecidableEq ParameterToken := fun a b =>
  decidable_of_iff (a.text = b.text) ParameterToken.ext_iff.symm

/-- What stands between quotes: bytes that stand for themselves, and bytes
behind a backslash. -/
inductive QuotedByte where
  | plain (c : UInt8) (quotable : isQuotable c = true)
      (unquoted : c ≠ chr '"' ∧ c ≠ chr '\\')
  | escaped (c : UInt8) (quotable : isQuotable c = true)
deriving DecidableEq

namespace QuotedByte

def text : QuotedByte -> Str
  | plain c _ _ => [c]
  | escaped c _ => [chr '\\', c]

def byte : QuotedByte -> UInt8
  | plain c _ _ => c
  | escaped c _ => c

theorem length_text_pos (q : QuotedByte) : 1 <= q.text.length := by
  cases q <;> simp [text]

end QuotedByte

inductive ParameterValue where
  | token (t : ParameterToken)
  | quoted (content : List QuotedByte)
deriving DecidableEq

namespace ParameterValue

def text : ParameterValue -> Str
  | token t => t.text
  | quoted content =>
      str "\"" ++ content.flatMap QuotedByte.text ++ str "\""

/-- What the value is without its quotes and backslashes. -/
def unquoted : ParameterValue -> Str
  | token t => t.text
  | quoted content => content.map QuotedByte.byte

def isToken : ParameterValue -> Bool
  | token _ => true
  | quoted _ => false

theorem text_of_isToken {v : ParameterValue} (h : v.isToken = true) :
    v.text = v.unquoted := by
  cases v with
  | token t => rfl
  | quoted content => cases h

theorem length_bytes_le (content : List QuotedByte) :
    content.length <= (content.flatMap QuotedByte.text).length := by
  induction content with
  | nil => rfl
  | cons q rest ih =>
      have hq := q.length_text_pos
      rw [List.flatMap_cons, List.length_append, List.length_cons]
      omega

/-- The quotes make a quoted value longer than what it stands for. -/
theorem length_unquoted_lt {v : ParameterValue} (h : v.isToken = false) :
    v.unquoted.length < v.text.length := by
  cases v with
  | token t => cases h
  | quoted content =>
      have hle := length_bytes_le content
      simp only [unquoted, text, List.length_map, List.length_append]
      have hquote : (str "\"").length = 1 := rfl
      omega

theorem length_unquoted_le (v : ParameterValue) :
    v.unquoted.length <= v.text.length := by
  cases h : v.isToken with
  | true => rw [text_of_isToken h]
  | false => exact Nat.le_of_lt (length_unquoted_lt h)

end ParameterValue

/-- Blanks and tabs around a semicolon. -/
structure Blanks where
  text : Str
  bytes : forall c, c ∈ text -> c = 32 ∨ c = 9
deriving DecidableEq

structure Parameter where
  before : Blanks
  after : Blanks
  name : ParameterToken
  value : ParameterValue
deriving DecidableEq

namespace Parameter

/-- The parameter up to its equals sign. -/
def head (p : Parameter) : Str :=
  p.before.text ++ str ";" ++ p.after.text ++ p.name.text

def text (p : Parameter) : Str :=
  p.head ++ str "=" ++ p.value.text

/-- Names of parameters are compared without regard to case. -/
def isBoundary (p : Parameter) : Bool :=
  p.name.text.map toLower = str "boundary"

theorem length_value_lt (p : Parameter) :
    p.value.text.length < p.text.length := by
  have heq : (str "=").length = 1 := rfl
  simp only [text, List.length_append]
  omega

end Parameter

/-- A content type that says `multipart/form-data`. -/
structure ContentType where
  mediaType : Str
  parameters : List Parameter
  formData : mediaType.map toLower = str "multipart/form-data"

namespace ContentType

def text (ct : ContentType) : Str :=
  ct.mediaType ++ ct.parameters.flatMap Parameter.text

/-- The parameter that gives the boundary. -/
def boundary (ct : ContentType) : Option Parameter :=
  ct.parameters.find? Parameter.isBoundary

/-!
## What the constructor stores
-/

theorem not_equals_of_tokenByte {c : UInt8} (h : isTokenByte c = true) :
    c ≠ chr '=' := by
  intro heq
  subst heq
  exact absurd h (by decide)

theorem not_equals_mediaType (ct : ContentType) :
    ¬ chr '=' ∈ ct.mediaType := by
  intro hmem
  have hlower : toLower (chr '=') ∈ ct.mediaType.map toLower :=
    List.mem_map_of_mem hmem
  rw [ct.formData] at hlower
  exact absurd hlower (by decide)

theorem not_equals_blanks (blanks : Blanks) : ¬ chr '=' ∈ blanks.text := by
  intro hmem
  exact absurd (blanks.bytes _ hmem) (by decide)

theorem not_equals_head (p : Parameter) : ¬ chr '=' ∈ p.head := by
  have hname : ¬ chr '=' ∈ p.name.text := by
    intro hmem
    exact not_equals_of_tokenByte (p.name.bytes _ hmem) rfl
  have hsemicolon : ¬ chr '=' ∈ str ";" := by
    decide
  simp only [Parameter.head, List.mem_append, not_or]
  exact ⟨⟨⟨not_equals_blanks p.before, hsemicolon⟩, not_equals_blanks p.after⟩,
    hname⟩

/-- Without an equals sign before it, the first one is this one. -/
theorem boundaryOf_append {before : Str} (h : ¬ chr '=' ∈ before)
    (rest : Str) : boundaryOf (before ++ str "=" ++ rest) = rest := by
  have hskip : forall b, b ∈ before -> decide (b ≠ chr '=') = true := by
    intro b hb
    rw [decide_eq_true_eq]
    intro heq
    exact h (heq ▸ hb)
  unfold boundaryOf
  rw [List.append_assoc, List.dropWhile_append_of_pos hskip]
  rfl

/-- The value of the first parameter, as it is written, and all that follows
it. -/
theorem boundaryOf_text {ct : ContentType} {p : Parameter}
    {rest : List Parameter} (h : ct.parameters = p :: rest) :
    boundaryOf ct.text = p.value.text ++ rest.flatMap Parameter.text := by
  have hbefore : ¬ chr '=' ∈ ct.mediaType ++ p.head := by
    rw [List.mem_append, not_or]
    exact ⟨not_equals_mediaType ct, not_equals_head p⟩
  have htext : ct.text = (ct.mediaType ++ p.head) ++ str "=" ++
      (p.value.text ++ rest.flatMap Parameter.text) := by
    simp only [text, h, List.flatMap_cons, Parameter.text, List.append_assoc]
  rw [htext, boundaryOf_append hbefore]

theorem eq_nil_of_length_le {rest : List Parameter}
    (h : (rest.flatMap Parameter.text).length <= 0) : rest = [] := by
  cases rest with
  | nil => rfl
  | cons q rest =>
      have hq := q.length_value_lt
      rw [List.flatMap_cons, List.length_append] at h
      omega

theorem length_text_le {p : Parameter} {rest : List Parameter}
    (h : p ∈ rest) :
    p.text.length <= (rest.flatMap Parameter.text).length := by
  rcases List.append_of_mem h with ⟨front, back, hrest⟩
  rw [hrest, List.flatMap_append, List.flatMap_cons, List.length_append,
    List.length_append]
  omega

/-- The stored boundary is long enough for the value of any parameter only when
there is no other and the value has no quotes. -/
theorem alone_of_boundaryOf {ct : ContentType} {p : Parameter}
    (hmem : p ∈ ct.parameters)
    (hstored : boundaryOf ct.text = p.value.unquoted) :
    ct.parameters = [p] ∧ p.value.isToken = true := by
  have hle := p.value.length_unquoted_le
  cases hparams : ct.parameters with
  | nil =>
      rw [hparams] at hmem
      cases hmem
  | cons first rest =>
      have hlength := congrArg List.length
        ((boundaryOf_text hparams).symm.trans hstored)
      rw [List.length_append] at hlength
      rw [hparams, List.mem_cons] at hmem
      rcases hmem with hfirst | hrest
      · subst hfirst
        refine ⟨?_, ?_⟩
        · have hrest : rest = [] := eq_nil_of_length_le (by omega)
          rw [hrest]
        · cases htoken : p.value.isToken with
          | true => rfl
          | false =>
              have hlt := ParameterValue.length_unquoted_lt htoken
              omega
      · have hlong := length_text_le hrest
        have hvalue := p.length_value_lt
        omega

theorem boundaryOf_of_alone {ct : ContentType} {p : Parameter}
    (halone : ct.parameters = [p]) (htoken : p.value.isToken = true) :
    boundaryOf ct.text = p.value.unquoted := by
  rw [boundaryOf_text halone, List.flatMap_nil, List.append_nil,
    ParameterValue.text_of_isToken htoken]

/-- The constructor stores the boundary of the content type exactly when the
boundary is the only parameter and its value has no quotes. -/
theorem boundaryOf_eq_unquoted_iff (ct : ContentType) (p : Parameter)
    (hboundary : ct.boundary = some p) :
    boundaryOf ct.text = p.value.unquoted <->
      ct.parameters = [p] ∧ p.value.isToken = true := by
  constructor
  · intro hstored
    exact alone_of_boundaryOf (List.mem_of_find?_eq_some hboundary) hstored
  · intro h
    exact boundaryOf_of_alone h.left h.right

/-- ` charset=utf-8` and ` boundary=x`, behind their semicolons. -/
def sampleCharset : Parameter where
  before := ⟨[], fun c hc => absurd hc (List.not_mem_nil)⟩
  after := ⟨[32], fun c hc => Or.inl (List.mem_singleton.mp hc)⟩
  name := ⟨str "charset", by decide, List.all_eq_true.mp (by decide)⟩
  value := ParameterValue.token
    ⟨str "utf-8", by decide, List.all_eq_true.mp (by decide)⟩

def sampleBoundary : Parameter where
  before := ⟨[], fun c hc => absurd hc (List.not_mem_nil)⟩
  after := ⟨[32], fun c hc => Or.inl (List.mem_singleton.mp hc)⟩
  name := ⟨str "boundary", by decide, List.all_eq_true.mp (by decide)⟩
  value := ParameterValue.token
    ⟨str "x", by decide, List.all_eq_true.mp (by decide)⟩

def sampleOf (parameters : List Parameter) : ContentType where
  mediaType := str "multipart/form-data"
  parameters := parameters
  formData := by decide

example : (sampleOf [sampleCharset, sampleBoundary]).text =
    str "multipart/form-data; charset=utf-8; boundary=x" := by
  decide

theorem boundaryOf_eq_unquoted_iff_sample :
    boundaryOf (sampleOf [sampleBoundary]).text = str "x" :=
  (boundaryOf_eq_unquoted_iff (sampleOf [sampleBoundary]) sampleBoundary
    (by decide)).mpr ⟨rfl, rfl⟩

/-- With a character set before the boundary, what is stored begins with the
character set. -/
theorem boundaryOf_eq_unquoted_not_everywhere :
    ¬ forall (ct : ContentType) (p : Parameter), ct.boundary = some p ->
        boundaryOf ct.text = p.value.unquoted := by
  intro h
  have hstored := h (sampleOf [sampleCharset, sampleBoundary]) sampleBoundary
    (by decide)
  exact absurd hstored (by decide)

end ContentType

end Multipart
end CisWebui
