import CisWebui.Http.RequestUtil
import CisWebui.RequestContext

/-!
# Routes

`make_http_router`: the routes in the order they are added, each matched
against the whole unescaped target.  The groups of the expressions exclude the
characters that end them, so every group matches in one way only.
-/

namespace CisWebui
namespace Http

open Cpp

/-- `webhooks_handler::api` -/
inductive Api where
  | github
  | gitlab
  | plain
deriving DecidableEq, Repr

/-- The handler a target is passed to, with the groups it matched. -/
inductive Route where
  | upload (project dir : Str)
  | replace (project dir : Str)
  | download (project file : Str)
  | webhooks (apiProvider : Api) (email project job queryString : Str)
  | root
  | files
deriving DecidableEq, Repr

namespace Router

/-!
## Pieces of the expressions
-/

/-- The text behind a literal. -/
def literal : Str -> Str -> Option Str
  | [], text => some text
  | _ :: _, [] => none
  | c :: rest, d :: text => if c = d then literal rest text else none

theorem literal_eq_some_iff {word text rest : Str} :
    literal word text = some rest <-> text = word ++ rest := by
  induction word generalizing text with
  | nil => exact ⟨Option.some.inj, congrArg some⟩
  | cons c word ih =>
      cases text with
      | nil => simp [literal]
      | cons d text =>
          rw [literal, List.cons_append, List.cons.injEq]
          rcases eq_or_ne c d with rfl | hne
          · rw [if_pos rfl, ih]
            simp
          · rw [if_neg hne]
            simp [Ne.symm hne]

/-- What a group matched, and the text behind it. -/
structure Group where
  matched : Str
  suffix : Str
deriving DecidableEq, Repr

/-- `([^?/]+)` -/
def boundString (text : Str) : Option Group :=
  let bound := fun c => c ≠ chr '?' ∧ c ≠ chr '/'
  let matched := text.takeWhile fun c => bound c
  if matched = [] then
    none
  else
    some { matched := matched, suffix := text.dropWhile fun c => bound c }

theorem boundString_eq_some_iff {text : Str} {group : Group} :
    boundString text = some group <->
      text = group.matched ++ group.suffix ∧ group.matched ≠ [] ∧
        (forall c, c ∈ group.matched -> c ≠ chr '?' ∧ c ≠ chr '/') ∧
        forall c, group.suffix.head? = some c -> c = chr '?' ∨ c = chr '/' := by
  let bound : UInt8 -> Bool := fun c => c ≠ chr '?' ∧ c ≠ chr '/'
  have hbound : forall c, bound c = true <-> c ≠ chr '?' ∧ c ≠ chr '/' := by
    intro c
    simp [bound]
  have hvalue : boundString text =
      if text.takeWhile bound = [] then none
      else some
        { matched := text.takeWhile bound, suffix := text.dropWhile bound } := by
    rfl
  rw [hvalue]
  constructor
  · intro h
    split at h
    · cases h
    · rename_i hne
      cases h
      constructor
      · exact (List.takeWhile_append_dropWhile).symm
      constructor
      · exact hne
      constructor
      · intro c hc
        exact (hbound c).mp (List.all_eq_true.mp List.all_takeWhile c hc)
      · intro c hc
        have hnot := List.head?_dropWhile_not bound text
        rw [hc] at hnot
        have hc' : ¬ (c ≠ chr '?' ∧ c ≠ chr '/') := by
          intro hyes
          simp [(hbound c).mpr hyes] at hnot
        rcases eq_or_ne c (chr '?') with heq | hne
        · exact Or.inl heq
        · rcases eq_or_ne c (chr '/') with heq | hne'
          · exact Or.inr heq
          · exact absurd ⟨hne, hne'⟩ hc'
  · rintro ⟨rfl, hne, hmatched, hsuffix⟩
    have htake : (group.matched ++ group.suffix).takeWhile bound =
        group.matched := by
      rw [List.takeWhile_append_of_pos fun c hc => (hbound c).mpr (hmatched c hc)]
      cases hs : group.suffix with
      | nil => simp
      | cons c rest =>
          have hc := hsuffix c (by rw [hs]; rfl)
          rw [List.takeWhile_cons_of_neg, List.append_nil]
          rw [hbound]
          rintro ⟨hc1, hc2⟩
          rcases hc with hc | hc
          · exact hc1 hc
          · exact hc2 hc
    have hdrop := List.takeWhile_append_dropWhile (p := bound)
      (l := group.matched ++ group.suffix)
    rw [htake, List.append_cancel_left_eq] at hdrop
    rw [htake, hdrop, if_neg hne]

/-- `.`, which leaves out the ends of lines. -/
def isAnyChar (c : UInt8) : Bool :=
  c ≠ chr '\n' ∧ c ≠ chr '\r'

/-- `(.+)$` -/
def wholeString (text : Str) : Option Str :=
  if text ≠ [] ∧ text.all isAnyChar then some text else none

/-- Where the expression of a query string stands. -/
inductive QueryState where
  | keyStart
  | key
  | valueStart
  | value

/-- `(?:[^=]+)\=(?:[^&]+)(?:\&(?:[^=]+)\=(?:[^&]+))*$` -/
def isQuery : QueryState -> Str -> Bool
  | QueryState.value, [] => true
  | _, [] => false
  | QueryState.keyStart, c :: rest => c ≠ chr '=' && isQuery QueryState.key rest
  | QueryState.key, c :: rest =>
      if c = chr '=' then
        isQuery QueryState.valueStart rest
      else
        isQuery QueryState.key rest
  | QueryState.valueStart, c :: rest =>
      c ≠ chr '&' && isQuery QueryState.value rest
  | QueryState.value, c :: rest =>
      if c = chr '&' then
        isQuery QueryState.keyStart rest
      else
        isQuery QueryState.value rest

/-- The optional query string at the end of the webhook routes. -/
def queryString : Str -> Option Str
  | [] => some []
  | c :: rest =>
      if c = chr '?' ∧ isQuery QueryState.keyStart rest then
        some (c :: rest)
      else
        none

/-!
## The routes
-/

/-- `/name/([^?/]+)/(.+)` -/
def projectFile (name target : Str) (make : Str -> Str -> Route) :
    Option Route := do
  let text ← literal (str "/" ++ name ++ str "/") target
  let project ← boundString text
  let text ← literal (str "/") project.suffix
  let file ← wholeString text
  return make project.matched file

/-- `/name/([^?/]+)`; the handler's directory defaults to the empty string. -/
def projectOnly (name target : Str) (make : Str -> Str -> Route) :
    Option Route := do
  let text ← literal (str "/" ++ name ++ str "/") target
  let project ← boundString text
  if project.suffix = [] then some (make project.matched []) else none

/-- `/users/([^?/]+)/webhooks/name/([^?/]+)/([^?/]+)(\?..)?` -/
def webhook (name : Str) (apiProvider : Api) (target : Str) : Option Route := do
  let text ← literal (str "/users/") target
  let email ← boundString text
  let text ← literal (str "/webhooks/" ++ name ++ str "/") email.suffix
  let project ← boundString text
  let text ← literal (str "/") project.suffix
  let job ← boundString text
  let query ← queryString job.suffix
  return Route.webhooks apiProvider email.matched project.matched job.matched query

/-- `/.*` -/
def catchAll (target : Str) : Option Route := do
  let text ← literal (str "/") target
  if text.all isAnyChar then some Route.files else none

/-- The first route that matches the unescaped target. -/
def route (target : Str) : Option Route :=
  let unescaped := unescapeUri target
  projectFile (str "upload") unescaped Route.upload
    <|> projectOnly (str "upload") unescaped Route.upload
    <|> projectFile (str "replace") unescaped Route.replace
    <|> projectOnly (str "replace") unescaped Route.replace
    <|> projectFile (str "download") unescaped Route.download
    <|> webhook (str "github") Api.github unescaped
    <|> webhook (str "gitlab") Api.gitlab unescaped
    <|> webhook (str "plain") Api.plain unescaped
    <|> (if unescaped = str "/" then some Route.root else none)
    <|> catchAll unescaped

/-- What holds of the routes of two attempts holds of that of the first that
succeeds. -/
theorem forall_orElse {P : Route -> Prop} {a b : Option Route}
    (ha : forall r, a = some r -> P r) (hb : forall r, b = some r -> P r) :
    forall r, (a <|> b) = some r -> P r := by
  intro r h
  cases a with
  | none => exact hb r h
  | some first => exact ha r h

end Router

end Http
end CisWebui
