import CisWebui.Http.WebhooksHandler
import CisWebui.Websocket.Handlers

/-!
# The arguments of a job

The two ways to start a job fill its declared parameters, each with a loop of
its own: `prepare_params` for an event of a webhook, and `run_job` for a request
of a client.
-/

namespace CisWebui
namespace Http
namespace WebhooksHandler

open Cpp

/-- `prepare_params`, with what `parse_request_query` does. -/
def preparedWith (parse : Str -> List (Str × Str)) (env : HookEnv) (hook : Hook)
    (file : Str) : List (Str × Str) :=
  match env.jobParams hook.project hook.job with
  | none => []
  | some params => params.map (prepareParam hook file (parse hook.queryString))

theorem prepareParams_eq (env : HookEnv) (hook : Hook) (file : Str) :
    prepareParams env hook file = preparedWith parseRequestQuery env hook file :=
  rfl

/-- The names that `prepare_params` knows itself. -/
def ownNames : List Str :=
  [str "webhook_query_string", str "webhook_request_body", str "webhook_event_type",
    str "webhook_raw_event_type"]

/-- One pair for each declared parameter, with the default where no value is
given. -/
def filled (given declared : List (Str × Str)) : List (Str × Str) :=
  declared.map fun param => (param.1, (given.lookup param.1).getD param.2)

/-- A job that the event finds, and values for some of its parameters; the others
have a default. -/
structure Startable (env : HookEnv) (hook : Hook)
    (given declared : List (Str × Str)) : Prop where
  found : env.jobParams hook.project hook.job = some (declared.map Prod.fst)
  others : forall param, param ∈ declared -> param.1 ∉ ownNames
  defaults : forall param, param ∈ declared -> given.lookup param.1 = none ->
    param.2 ≠ []

theorem prepareParam_of_some {hook : Hook} {file name value : Str}
    {given : List (Str × Str)} (h : given.lookup name = some value) :
    prepareParam hook file given name = (name, value) := by
  rw [prepareParam, h]

/-- A parameter without a value gets no name either. -/
theorem prepareParam_of_none {hook : Hook} {file name : Str}
    {given : List (Str × Str)} (h : given.lookup name = none)
    (hname : name ∉ ownNames) : prepareParam hook file given name = ([], []) := by
  simp only [ownNames, List.mem_cons, List.not_mem_nil, or_false, not_or] at hname
  rcases hname with ⟨hquery, hbody, htype, hraw⟩
  rw [prepareParam, h]
  dsimp only
  rw [if_neg hquery, if_neg hbody, if_neg htype, if_neg hraw]

/-- The other loop, where all defaults that it needs are there. -/
theorem runJobParams_eq {given declared : List (Str × Str)}
    (h : forall param, param ∈ declared -> given.lookup param.1 = none ->
      param.2 ≠ []) :
    Websocket.runJobParams given declared = some (filled given declared) := by
  induction declared with
  | nil => rfl
  | cons param rest ih =>
      have hrest := ih fun other hother => h other (List.mem_cons_of_mem _ hother)
      rcases param with ⟨name, defaultValue⟩
      rw [Websocket.runJobParams]
      cases hvalue : given.lookup name with
      | some value =>
          dsimp only
          rw [hrest, filled, filled, List.map_cons, hvalue]
          rfl
      | none =>
          have hdefault := h (name, defaultValue) List.mem_cons_self hvalue
          dsimp only
          rw [if_neg hdefault, hrest, filled, filled, List.map_cons, hvalue]
          rfl

/-- The slots of the declared parameters are filled exactly when each of them has
a value. -/
theorem map_prepareParam_eq_iff {hook : Hook} {file : Str}
    {given declared : List (Str × Str)}
    (hothers : forall param, param ∈ declared -> param.1 ∉ ownNames)
    (hdefaults : forall param, param ∈ declared -> given.lookup param.1 = none ->
      param.2 ≠ []) :
    (declared.map Prod.fst).map (prepareParam hook file given) =
        filled given declared <->
      forall param, param ∈ declared -> given.lookup param.1 ≠ none := by
  have hslot : forall param, param ∈ declared ->
      (prepareParam hook file given param.1 =
          (param.1, (given.lookup param.1).getD param.2) <->
        given.lookup param.1 ≠ none) := by
    intro param hparam
    cases hvalue : given.lookup param.1 with
    | some value =>
        rw [prepareParam_of_some hvalue]
        exact iff_of_true rfl (Option.some_ne_none value)
    | none =>
        rw [prepareParam_of_none hvalue (hothers param hparam)]
        apply iff_of_false
        · intro heq
          exact hdefaults param hparam hvalue (congrArg Prod.snd heq).symm
        · exact fun hne => hne rfl
  rw [filled, List.map_map, List.map_inj_left]
  constructor
  · intro h param hparam
    exact (hslot param hparam).mp (h param hparam)
  · intro h param hparam
    exact (hslot param hparam).mpr (h param hparam)

/-- An event builds the arguments that a request with the same values builds,
exactly when every declared parameter has a value. -/
theorem preparedWith_eq_runJobParams_iff (parse : Str -> List (Str × Str))
    {env : HookEnv} {hook : Hook} {declared : List (Str × Str)} (file : Str)
    (h : Startable env hook (parse hook.queryString) declared) :
    (Websocket.runJobParams (parse hook.queryString) declared =
          some (preparedWith parse env hook file) ∧
        preparedWith parse env hook file =
          filled (parse hook.queryString) declared) <->
      forall param, param ∈ declared ->
        (parse hook.queryString).lookup param.1 ≠ none := by
  rw [runJobParams_eq h.defaults, preparedWith, h.found]
  dsimp only
  rw [← map_prepareParam_eq_iff h.others h.defaults]
  constructor
  · exact And.right
  · exact fun heq => ⟨congrArg some heq.symm, heq⟩

/-- The job of the samples, with a parameter or two. -/
def sampleEnv (params : List Str) : HookEnv where
  getUserInfo := fun _ => Except.ok none
  checkProjectRight := fun _ _ => Except.ok none
  hmacSha1 := fun _ _ => []
  jobParams := fun _ _ => some params
  currentPath := []
  freshName := 0

def sampleHook : Hook where
  ctx :=
    { clientInfo := none
      cookies := []
      resStatus := Status.unknown
      allowedVerbs := []
      error := [] }
  project := str "web"
  job := str "deploy"
  queryString := str "?x\\=1&\\&branch\\=main"
  rawEvent := str "push"
  ev := HookEvent.push

/-- The expressions want a backslash in front of every separator. -/
theorem parseRequestQuery_sampleHook :
    parseRequestQuery sampleHook.queryString =
      [(str "?x", str "1"), (str "branch", str "main")] := by
  have hbegin : searchQueryBegin sampleHook.queryString =
      some
        { key := str "?x"
          value := str "1"
          suffix := str "&\\&branch\\=main" } := by
    decide
  have hentry : searchQueryEntry (str "&\\&branch\\=main") =
      some { key := str "branch", value := str "main", suffix := [] } := by
    decide
  unfold parseRequestQuery
  rw [hbegin]
  dsimp only
  rw [parseQueryEntries_of_some hentry, parseQueryEntries_of_none (by decide)]
  decide

theorem preparedWith_eq_runJobParams_sample :
    Websocket.runJobParams (parseRequestQuery sampleHook.queryString)
        [(str "branch", str "dev")] =
      some (preparedWith parseRequestQuery (sampleEnv [str "branch"]) sampleHook []) := by
  have h : Startable (sampleEnv [str "branch"]) sampleHook
      (parseRequestQuery sampleHook.queryString) [(str "branch", str "dev")] :=
    { found := rfl
      others := by decide
      defaults := by
        rw [parseRequestQuery_sampleHook]
        decide }
  refine ((preparedWith_eq_runJobParams_iff parseRequestQuery [] h).mpr ?_).left
  rw [parseRequestQuery_sampleHook]
  decide

/-- The default of the second parameter is left out. -/
theorem preparedWith_eq_runJobParams_not_everywhere :
    ¬ forall (parse : Str -> List (Str × Str)) (env : HookEnv) (hook : Hook)
      (declared : List (Str × Str)) (file : Str),
      Startable env hook (parse hook.queryString) declared ->
        Websocket.runJobParams (parse hook.queryString) declared =
            some (preparedWith parse env hook file) ∧
          preparedWith parse env hook file =
            filled (parse hook.queryString) declared := by
  intro h
  have hequal := h parseRequestQuery (sampleEnv [str "branch", str "level"]) sampleHook
    [(str "branch", str "dev"), (str "level", str "1")] []
    { found := rfl
      others := by decide
      defaults := by
        rw [parseRequestQuery_sampleHook]
        decide }
  have hfilled := hequal.right
  unfold preparedWith at hfilled
  rw [parseRequestQuery_sampleHook] at hfilled
  exact absurd hfilled (by decide)

end WebhooksHandler
end Http
end CisWebui
