import CisWebui.Base64
import CisWebui.Http.RequestUtil
import CisWebui.RequestContext

/-!
# Cookies

The expression that takes a cookie header apart, the parser built on it, and
the way of a token from the header to the authentication manager.
-/

namespace CisWebui
namespace Http

open Cpp

/-!
## The expression

`(?:\t| )*(.*?)=(.*?)($|;|,(?! ))`: blanks, a name, a value and its end.  Both
groups are lazy, and a dot is no line end.
-/

def isBlank (c : UInt8) : Bool :=
  c == chr '\t' || c == chr ' '

def isLineEnd (c : UInt8) : Bool :=
  c == chr '\n' || c == chr '\r'

/-- `$|;|,(?! )` at the start of the text: what is behind it. -/
def matchEnd : Str -> Option Str
  | [] => some []
  | c :: rest =>
      if c = chr ';' ∨ (c = chr ',' ∧ rest.head? ≠ some (chr ' ')) then some rest
      else none

/-- `(.*?)($|;|,(?! ))`: the value, and what is behind its end. -/
def matchValue : Str -> Option (Str × Str)
  | [] => some ([], [])
  | c :: rest =>
      match matchEnd (c :: rest) with
      | some suffix => some ([], suffix)
      | none =>
          if isLineEnd c then none
          else (matchValue rest).map fun found => (c :: found.1, found.2)

/-- `(.*?)=` and the value behind it; the first equals sign that leads to a
match ends the name. -/
def matchName : Str -> Option QueryMatch
  | [] => none
  | c :: rest =>
      let longer :=
        if isLineEnd c then none
        else (matchName rest).map fun found => { found with key := c :: found.key }
      if c = chr '=' then
        match matchValue rest with
        | some (value, suffix) => some { key := [], value := value, suffix := suffix }
        | none => longer
      else
        longer

/-- `cookies_regex` at the start of the text; a name with blanks in front of it
matches only where one without them does. -/
def matchCookie (text : Str) : Option QueryMatch :=
  matchName (text.dropWhile isBlank)

/-- `cookies_regex`, searched for from left to right. -/
def searchCookie : Str -> Option QueryMatch
  | [] => matchCookie []
  | c :: rest => (matchCookie (c :: rest)).orElse fun _ => searchCookie rest

theorem suffix_length_of_matchValue {text : Str} {found : Str × Str}
    (h : matchValue text = some found) : found.2.length <= text.length := by
  induction text generalizing found with
  | nil =>
      cases h
      exact Nat.le_refl 0
  | cons c rest ih =>
      simp only [matchValue] at h
      split at h
      · rename_i suffix hend
        cases h
        simp only [matchEnd] at hend
        split at hend
        · cases hend
          exact Nat.le_succ rest.length
        · cases hend
      · split at h
        · cases h
        · rcases Option.map_eq_some_iff.mp h with ⟨inner, hinner, rfl⟩
          have hle := ih hinner
          exact Nat.le_succ_of_le hle

theorem suffix_length_of_matchName {text : Str} {found : QueryMatch}
    (h : matchName text = some found) : found.suffix.length < text.length := by
  induction text generalizing found with
  | nil => cases h
  | cons c rest ih =>
      have hlonger : forall {found : QueryMatch},
          (if isLineEnd c then none
            else (matchName rest).map fun found =>
              { found with key := c :: found.key }) = some found ->
            found.suffix.length < (c :: rest).length := by
        intro found hfound
        split at hfound
        · cases hfound
        · rcases Option.map_eq_some_iff.mp hfound with ⟨inner, hinner, rfl⟩
          have hlt := ih hinner
          exact Nat.lt_succ_of_lt hlt
      simp only [matchName] at h
      split at h
      · split at h
        · rename_i value suffix hvalue
          cases h
          exact Nat.lt_succ_of_le (suffix_length_of_matchValue hvalue)
        · exact hlonger h
      · exact hlonger h

theorem suffix_length_of_searchCookie {text : Str} {found : QueryMatch}
    (h : searchCookie text = some found) :
    found.suffix.length < text.length := by
  have hmatch : forall {text : Str}, matchCookie text = some found ->
      found.suffix.length < text.length := by
    intro text hfound
    exact Nat.lt_of_lt_of_le (suffix_length_of_matchName hfound)
      (List.dropWhile_suffix _).length_le
  induction text with
  | nil => exact hmatch h
  | cons c rest ih =>
      rw [searchCookie] at h
      cases hfirst : matchCookie (c :: rest) with
      | some first =>
          rw [hfirst] at h
          cases h
          exact hmatch hfirst
      | none =>
          rw [hfirst] at h
          exact Nat.lt_succ_of_lt (ih h)

/-- The loop of `parse_cookies`. -/
def parseCookiesFrom (result : List (Str × Str)) (text : Str) :
    List (Str × Str) :=
  match h : searchCookie text with
  | none => result
  | some found =>
      have := suffix_length_of_searchCookie h
      parseCookiesFrom (insertParam result found.key (unescapeUri found.value))
        found.suffix
termination_by text.length

/-- `parse_cookies` -/
def parseCookies (cookies : Str) : List (Str × Str) :=
  parseCookiesFrom [] cookies

/-!
## The handlers
-/

/-- `cookie_parser::parse`, with the first `Cookie` header of the request. -/
def parseCookieHeader (header : Option Str) (ctx : RequestContext) :
    RequestContext :=
  { ctx with cookies := parseCookies (header.getD []) }

/-- The token `handle_authenticate` calls `authenticate` with. -/
def presentedToken (ctx : RequestContext) : Option Str :=
  ctx.cookies.lookup (str "auth_token")

def handleAuthenticate (authenticate : Str -> Fallible (Option Str))
    (ctx : RequestContext) : RequestContext × HandleResult :=
  match presentedToken ctx with
  | none => (ctx, HandleResult.next)
  | some token =>
      match authenticate token with
      | Except.error _ =>
          ({ ctx with resStatus := Status.internalServerError },
            HandleResult.error)
      | Except.ok none => (ctx, HandleResult.next)
      | Except.ok (some email) =>
          ({ ctx with
              clientInfo :=
                some { email := email, activeToken := [], apiAccessKey := [] } },
            HandleResult.next)

/-!
## The way of a header
-/

/-- The text of a cookie's name or value in a header: no separator of cookies,
and no line end. -/
def CookieText (text : Str) : Prop :=
  forall c, c ∈ text ->
    c ≠ chr '=' ∧ c ≠ chr ';' ∧ c ≠ chr ',' ∧ isLineEnd c = false

/-- The text of a value, which may have equals signs in it. -/
def ValueText (text : Str) : Prop :=
  forall c, c ∈ text -> c ≠ chr ';' ∧ c ≠ chr ',' ∧ isLineEnd c = false

/-- `name=value` -/
def pairText (cookie : Str × Str) : Str :=
  cookie.1 ++ chr '=' :: cookie.2

/-- The cookies of a header, separated by `; `. -/
def cookieHeader : List (Str × Str) -> Str
  | [] => []
  | [cookie] => pairText cookie
  | cookie :: rest => pairText cookie ++ (str "; " ++ cookieHeader rest)

/-- What `parse_cookies` makes of a cookie. -/
def parsedCookie (cookie : Str × Str) : Str × Str :=
  (cookie.1.dropWhile isBlank, unescapeUri cookie.2)

theorem valueText_of_cookieText {text : Str} (h : CookieText text) :
    ValueText text :=
  fun c hc => (h c hc).right

theorem matchValue_append {value rest suffix : Str} (hvalue : ValueText value)
    (hend : matchEnd rest = some suffix) :
    matchValue (value ++ rest) = some (value, suffix) := by
  induction value with
  | nil =>
      cases rest with
      | nil =>
          cases hend
          rfl
      | cons c rest =>
          show matchValue (c :: rest) = some ([], suffix)
          simp only [matchValue, hend]
  | cons c value ih =>
      rcases hvalue c List.mem_cons_self with ⟨hsemicolon, hcomma, hline⟩
      have hgoOn : matchEnd (c :: (value ++ rest)) = none := by
        simp [matchEnd, hsemicolon, hcomma]
      have hrest := ih fun d hd => hvalue d (List.mem_cons_of_mem c hd)
      show matchValue (c :: (value ++ rest)) = some (c :: value, suffix)
      simp [matchValue, hgoOn, hline, hrest]

theorem matchName_append {name rest value suffix : Str}
    (hname : CookieText name) (hvalue : matchValue rest = some (value, suffix)) :
    matchName (name ++ chr '=' :: rest) =
      some { key := name, value := value, suffix := suffix } := by
  induction name with
  | nil =>
      show matchName (chr '=' :: rest) = _
      simp [matchName, hvalue]
  | cons c name ih =>
      rcases hname c List.mem_cons_self with ⟨hequals, _, _, hline⟩
      have hrest := ih fun d hd => hname d (List.mem_cons_of_mem c hd)
      show matchName (c :: (name ++ chr '=' :: rest)) = _
      simp [matchName, hequals, hline, hrest]

theorem dropWhile_pair {blanks name : Str} (rest : Str)
    (hblanks : forall c, c ∈ blanks -> isBlank c = true) :
    (blanks ++ (name ++ chr '=' :: rest)).dropWhile isBlank =
      name.dropWhile isBlank ++ chr '=' :: rest := by
  rw [List.dropWhile_append_of_pos hblanks]
  induction name with
  | nil => rfl
  | cons c name ih =>
      rw [List.cons_append, List.dropWhile_cons, List.dropWhile_cons]
      split
      · exact ih
      · rfl

theorem searchCookie_of_matchCookie {text : Str} {found : QueryMatch}
    (h : matchCookie text = some found) : searchCookie text = some found := by
  cases text with
  | nil => exact h
  | cons c rest =>
      rw [searchCookie, h]
      rfl

theorem parseCookiesFrom_of_match {result : List (Str × Str)} {text : Str}
    {found : QueryMatch} (h : matchCookie text = some found) :
    parseCookiesFrom result text =
      parseCookiesFrom
        (insertParam result found.key (unescapeUri found.value)) found.suffix := by
  have hsearch := searchCookie_of_matchCookie h
  rw [parseCookiesFrom]
  split
  · rename_i hnone
    rw [hsearch] at hnone
    cases hnone
  · rename_i other hother
    rw [hsearch] at hother
    cases hother
    rfl

/-- A cookie that can be sent. -/
def Sendable (cookie : Str × Str) : Prop :=
  CookieText cookie.1 ∧ ValueText cookie.2

theorem matchCookie_pair {cookie : Str × Str} {blanks suffix : Str} (rest : Str)
    (hcookie : Sendable cookie)
    (hblanks : forall c, c ∈ blanks -> isBlank c = true)
    (hend : matchEnd rest = some suffix) :
    matchCookie (blanks ++ (pairText cookie ++ rest)) =
      some
        { key := (parsedCookie cookie).1, value := cookie.2, suffix := suffix } := by
  have hname : CookieText (cookie.1.dropWhile isBlank) := by
    intro c hc
    exact hcookie.left c ((List.dropWhile_suffix isBlank).subset hc)
  have htext : pairText cookie ++ rest =
      cookie.1 ++ chr '=' :: (cookie.2 ++ rest) := by
    simp [pairText]
  rw [matchCookie, htext, dropWhile_pair _ hblanks]
  exact matchName_append hname (matchValue_append hcookie.right hend)

/-- The cookies of a header are inserted one after the other. -/
theorem parseCookiesFrom_header (cookies : List (Str × Str)) {cookie : Str × Str}
    (blanks : Str) (hcookies : forall c, c ∈ cookie :: cookies -> Sendable c)
    (hblanks : forall c, c ∈ blanks -> isBlank c = true)
    (result : List (Str × Str)) :
    parseCookiesFrom result (blanks ++ cookieHeader (cookie :: cookies)) =
      ((cookie :: cookies).map parsedCookie).foldl
        (fun params c => insertParam params c.1 c.2) result := by
  have hfirst : Sendable cookie := hcookies cookie List.mem_cons_self
  induction cookies generalizing cookie blanks result with
  | nil =>
      have hmatch := matchCookie_pair [] hfirst hblanks rfl
      rw [List.append_nil] at hmatch
      rw [cookieHeader, parseCookiesFrom_of_match hmatch, parseCookiesFrom]
      rfl
  | cons next rest ih =>
      have hmatch := matchCookie_pair (str "; " ++ cookieHeader (next :: rest))
        hfirst hblanks rfl
      have hspace : forall c, c ∈ [chr ' '] -> isBlank c = true :=
        List.all_iff_forall_prop.mp (by decide)
      have hrest : forall c, c ∈ next :: rest -> Sendable c :=
        fun c hc => hcookies c (List.mem_cons_of_mem cookie hc)
      rw [cookieHeader, parseCookiesFrom_of_match hmatch]
      · exact ih _ hrest hspace _ (hrest next List.mem_cons_self)
      · intro h
        cases h

theorem lookup_singleton_of_ne {key value k : Str} (hne : k ≠ key) :
    [(key, value)].lookup k = none := by
  rw [List.lookup_cons, beq_false_of_ne hne]
  rfl

/-- The first value of a key stays. -/
theorem lookup_insertParam (params : List (Str × Str)) (key value k : Str) :
    (insertParam params key value).lookup k =
      (params.lookup k).or ([(key, value)].lookup k) := by
  unfold insertParam
  split
  · rename_i hsome
    rcases eq_or_ne k key with rfl | hne
    · rcases Option.isSome_iff_exists.mp hsome with ⟨first, hfirst⟩
      rw [hfirst, Option.some_or]
    · rw [lookup_singleton_of_ne hne, Option.or_none]
  · exact List.lookup_append

theorem lookup_foldl_insertParam (cookies params : List (Str × Str)) (k : Str) :
    (cookies.foldl (fun params c => insertParam params c.1 c.2) params).lookup k =
      (params.lookup k).or (cookies.lookup k) := by
  induction cookies generalizing params with
  | nil =>
      rw [List.foldl_nil, List.lookup_nil, Option.or_none]
  | cons c rest ih =>
      have hcons : (c :: rest).lookup k =
          ([(c.1, c.2)].lookup k).or (rest.lookup k) := by
        rw [← List.lookup_append]
        rfl
      rw [List.foldl_cons, ih, lookup_insertParam, hcons, Option.or_assoc]

/-!
## Tokens
-/

/-- The cookie a token is sent in. -/
def tokenCookie (bytes : Str) : Str × Str :=
  (str "auth_token", base64Encode bytes)

theorem sendable_tokenCookie (bytes : Str) : Sendable (tokenCookie bytes) := by
  constructor
  · show forall c, c ∈ str "auth_token" -> _
    exact List.all_iff_forall_prop.mp (by decide)
  · intro c hc
    rcases plainByte_base64Encode hc with ⟨hsemicolon, hcomma, hlf, hcr, _⟩
    refine ⟨hsemicolon, hcomma, ?_⟩
    simp [isLineEnd, hlf, hcr]

/-- The token that the authentication manager is asked about. -/
theorem presentedToken_eq {before after : List (Str × Str)} (bytes : Str)
    (hbefore : forall c, c ∈ before -> Sendable c)
    (hafter : forall c, c ∈ after -> Sendable c) (ctx : RequestContext) :
    presentedToken (parseCookieHeader
        (some (cookieHeader (before ++ tokenCookie bytes :: after))) ctx) =
      ((before.map parsedCookie).lookup (str "auth_token")).or
        (some (unescapeUri (base64Encode bytes))) := by
  have hall : forall c, c ∈ before ++ tokenCookie bytes :: after ->
      Sendable c := by
    intro c hc
    rcases List.mem_append.mp hc with hold | htail
    · exact hbefore c hold
    · rcases List.mem_cons.mp htail with rfl | hnew
      · exact sendable_tokenCookie bytes
      · exact hafter c hnew
  have hparse : parseCookies (cookieHeader (before ++ tokenCookie bytes :: after)) =
      ((before ++ tokenCookie bytes :: after).map parsedCookie).foldl
        (fun params c => insertParam params c.1 c.2) [] := by
    cases hcookies : before ++ tokenCookie bytes :: after with
    | nil => simp at hcookies
    | cons cookie rest =>
        rw [hcookies] at hall
        exact parseCookiesFrom_header rest [] hall
          (fun c hc => absurd hc List.not_mem_nil) []
  show (parseCookies (cookieHeader (before ++ tokenCookie bytes :: after))).lookup
    (str "auth_token") = _
  rw [hparse, lookup_foldl_insertParam, List.lookup_nil, Option.none_or,
    List.map_append, List.lookup_append]
  rfl

/-- When the token of a header survives: no cookie before it has its name, and
no six bits of it are written as a plus sign; or there is such a cookie, with
the same token in it. -/
def Survives (before : List (Str × Str)) (bytes : Str) : Prop :=
  match (before.map parsedCookie).lookup (str "auth_token") with
  | none => 62 ∉ base64Sextets bytes
  | some value => value = base64Encode bytes

/-- The token in a cookie header is the one that is looked up exactly when it
has no plus sign, as long as no other cookie takes its place. -/
theorem tokenCookie_survives_iff {before after : List (Str × Str)} (bytes : Str)
    (hbefore : forall c, c ∈ before -> CookieText c.1 ∧ CookieText c.2)
    (hafter : forall c, c ∈ after -> CookieText c.1 ∧ CookieText c.2)
    (ctx : RequestContext) :
    presentedToken (parseCookieHeader
        (some (cookieHeader (before ++ tokenCookie bytes :: after))) ctx) =
        some (base64Encode bytes) <->
      Survives before bytes := by
  have hsendable : forall {cookies : List (Str × Str)},
      (forall c, c ∈ cookies -> CookieText c.1 ∧ CookieText c.2) ->
        forall c, c ∈ cookies -> Sendable c := by
    intro cookies h c hc
    exact ⟨(h c hc).left, valueText_of_cookieText (h c hc).right⟩
  have hpercent : forall c, c ∈ base64Encode bytes -> c ≠ chr '%' :=
    fun c hc => (plainByte_base64Encode hc).right.right.right.right
  rw [presentedToken_eq bytes (hsendable hbefore) (hsendable hafter) ctx, Survives]
  cases (before.map parsedCookie).lookup (str "auth_token") with
  | some value =>
      rw [Option.some_or, Option.some.injEq]
  | none =>
      rw [Option.none_or, Option.some.injEq,
        unescapeUri_eq_self_iff_of_forall hpercent, plus_mem_base64Encode_iff]

/-- The context of a request before its cookies are parsed. -/
def freshContext : RequestContext where
  clientInfo := none
  cookies := []
  resStatus := Status.unknown
  allowedVerbs := []
  error := []

/-- A token of zeros, sent behind another cookie. -/
theorem tokenCookie_survives_sample :
    presentedToken (parseCookieHeader
        (some (cookieHeader ([(str "lang", str "en")] ++
          tokenCookie (List.replicate 32 0) :: []))) freshContext) =
      some (base64Encode (List.replicate 32 0)) := by
  have hbefore : forall c : Str × Str, c ∈ [(str "lang", str "en")] ->
      CookieText c.1 ∧ CookieText c.2 := by
    intro c hc
    rw [List.mem_singleton.mp hc]
    constructor
    · exact List.all_iff_forall_prop.mp (by decide)
    · exact List.all_iff_forall_prop.mp (by decide)
  apply (tokenCookie_survives_iff _ hbefore
    (fun c hc => absurd hc List.not_mem_nil) freshContext).mpr
  show 62 ∉ base64Sextets (List.replicate 32 0)
  decide

/-- The first six bits of the token are written as a plus sign. -/
theorem tokenCookie_survives_not_everywhere :
    ¬ forall bytes : Str, bytes.length = 32 ->
      presentedToken (parseCookieHeader
          (some (cookieHeader [tokenCookie bytes])) freshContext) =
        some (base64Encode bytes) := by
  intro h
  let bytes : Str := 0xf8 :: List.replicate 31 0
  have htoken := h bytes (by decide)
  have hnone : forall c : Str × Str, c ∈ [] -> Sendable c :=
    fun c hc => absurd hc List.not_mem_nil
  have heq := presentedToken_eq bytes hnone hnone freshContext
  have hboth : some (base64Encode bytes) = some (unescapeUri (base64Encode bytes)) :=
    htoken.symm.trans heq
  have hhead : (base64Encode bytes).head? =
      (unescapeUri (base64Encode bytes)).head? :=
    congrArg List.head? (Option.some.inj hboth)
  revert hhead
  decide

end Http
end CisWebui
