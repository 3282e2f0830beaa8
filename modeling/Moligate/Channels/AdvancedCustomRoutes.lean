import Mathlib.Data.Finset.Preimage
import Mathlib.Data.Fintype.EquivFin
import Moligate.Channels.AdvancedCustom
import Moligate.Foundation.Call

namespace Moligate.Channels.AdvancedCustom

open Foundation Strings Call List

structure RouteAuth where
  (type name value : String)

/-- A route with the fields that only its validation reads. -/
structure Route extends AdvancedCustomRoute where
  upstreamPath : String
  converter : String := ""
  auth : Option RouteAuth := none

structure PathModelState where
  catchAllIndex : Option ℕ := none
  modelIndexes : List (String × ℕ) := []

variable (rt : Runtime) (parse : String → Option (String × String))

def Route.path (r : Route) : String := rt.trimSpace r.incomingPath

def Route.names (r : Route) : List String := normalizeAdvancedCustomRouteModels rt r.models

def atRoute (index : ℕ) (text : String) : String :=
  s!"advanced_custom.advanced_routes[{index}]{text}"

def atModel (index : ℕ) (incomingPath model text : String) : String :=
  atRoute index s!".models {text} for incoming_path {incomingPath}: {model}"

def validateRouteModelRule (index : ℕ) (incomingPath model : String) : Call String Unit :=
  if !hasPrefix model "re:" then ok ()
  else do
    let pattern := trimPrefix model "re:"
    check (atModel index incomingPath model "regex is empty") (pattern ≠ "")
    check (atModel index incomingPath model "regex is invalid") (rt.matchString pattern).isSome

def addModels (index : ℕ) (incomingPath : String) :
    List String → List String → List (String × ℕ) → Call String (List (String × ℕ))
  | [], _, modelIndexes => ok modelIndexes
  | model :: models, seenInRoute, modelIndexes => do
    validateRouteModelRule rt index incomingPath model
    check (atModel index incomingPath model "contains duplicate model") (model ∉ seenInRoute)
    match modelIndexes.lookup model with
    | some i => fail (atModel index incomingPath model s!"overlaps with advanced_routes[{i}]")
    | none =>
      addModels index incomingPath models (model :: seenInRoute) ((model, index) :: modelIndexes)

def validateRouteModels (index : ℕ) (route : Route) (paths : String → PathModelState) :
    Call String (String → PathModelState) := do
  let incomingPath := route.path rt
  let normalizedModels := route.names rt
  let text := if normalizedModels = [] then "already exists" else "route must be last"
  check (atRoute index s!".models catch-all {text} for incoming_path: {incomingPath}")
    (paths incomingPath).catchAllIndex.isNone
  -- without models the loop is over at once
  let modelIndexes ← addModels rt index incomingPath normalizedModels []
    (paths incomingPath).modelIndexes
  let catchAllIndex := if normalizedModels = [] then some index else none
  pure (Function.update paths incomingPath { catchAllIndex, modelIndexes })

/-- `parse` gives the scheme and the host of a URL. -/
def validateUpstreamTarget (index : ℕ) (upstreamPath : String) : Call String Unit :=
  let noTarget := atRoute index ".upstream_path must be a full URL or a path starting with /"
  if hasPrefix upstreamPath "/" then check noTarget (!hasPrefix upstreamPath "//")
  else do
    let (scheme, host) ← required noTarget (parse upstreamPath)
    check noTarget (scheme ≠ "" && host ≠ "")
    check (atRoute index ".upstream_path must use http or https")
      (scheme.toLower ∈ ["http", "https"])

/-- The registered converters, each with the incoming paths that it takes. -/
def converters : List (String × (String → Bool)) :=
  [("none", fun _ ↦ true),
    ("anthropic_messages_to_openai_chat_completions", (· = "/v1/messages")),
    ("openai_chat_completions_to_anthropic_messages", (· = "/v1/chat/completions")),
    ("openai_chat_completions_to_openai_responses", (· = "/v1/chat/completions")),
    ("openai_chat_completions_to_gemini_generate_content", (· = "/v1/chat/completions")),
    ("openai_responses_to_openai_chat_completions", (· = "/v1/responses")),
    ("openai_responses_to_gemini_generate_content", (· = "/v1/responses")),
    ("gemini_generate_content_to_openai_chat_completions", fun path ↦
      contains path ":generateContent" || contains path ":streamGenerateContent")]

def validateConverter (index : ℕ) (incomingPath converter : String) : Call String Unit := do
  let fits ← required (atRoute index s!".converter is not registered: {converter}")
    (converters.lookup converter)
  check (atRoute index s!".converter does not match incoming_path: {converter}")
    (if incomingPath = "/v1/alpha/search" then converter = "none" else fits incomingPath)

def validateRouteAuth (index : ℕ) : Option RouteAuth → Call String Unit
  | none => ok ()
  | some auth =>
    if rt.trimSpace auth.type = "none" then ok ()
    else do
      check (atRoute index s!".auth.type is invalid: {auth.type}")
        (rt.trimSpace auth.type ∈ ["header", "query"])
      check (atRoute index ".auth.name is required") (rt.trimSpace auth.name ≠ "")
      check (atRoute index ".auth.value is required") (rt.trimSpace auth.value ≠ "")

structure Validation where
  paths : String → PathModelState := fun _ ↦ {}
  modelListRouteIndex : Option ℕ := none

def validateModelListRoute (index : ℕ) (route : Route) (converter : String) :
    Option ℕ → Call String (Option ℕ)
  | some i => fail (atRoute index s!" duplicates the /v1/models route at advanced_routes[{i}]")
  | none => do
    check (atRoute index ".models must be empty for /v1/models") (route.names rt).isEmpty
    check (atRoute index ".converter must be none for /v1/models") (converter = "none")
    check (atRoute index (".upstream_path must not contain " ++ advancedCustomModelPlaceholder ++
      " for /v1/models"))
      (!contains (rt.trimSpace route.upstreamPath) advancedCustomModelPlaceholder)
    pure (some index)

def validateRoute (v : Validation) : Route × ℕ → Call String Validation
  | (route, i) => do
    let incomingPath := route.path rt
    let upstreamPath := rt.trimSpace route.upstreamPath
    let converter :=
      if rt.trimSpace route.converter = "" then "none" else rt.trimSpace route.converter
    check (atRoute i ".incoming_path is required") (incomingPath ≠ "")
    check (atRoute i ".incoming_path must start with /") (hasPrefix incomingPath "/")
    check (atRoute i ".incoming_path must not include query") (!contains incomingPath "?")
    let modelListRouteIndex ← (if incomingPath = "/v1/models" then
      validateModelListRoute rt i route converter else ok) v.modelListRouteIndex
    let paths ← validateRouteModels rt i route v.paths
    check (atRoute i ".upstream_path is required") (upstreamPath ≠ "")
    validateUpstreamTarget parse i upstreamPath
    validateConverter i incomingPath converter
    validateRouteAuth rt i route.auth
    pure { paths, modelListRouteIndex }

def validate (config : Option (List Route)) : Call String Unit := do
  let routes ← required "advanced_custom is required" config
  check "advanced_custom requires at least one route" (!routes.isEmpty)
  let _ ← routes.zipIdx.foldlM (validateRoute rt parse) {}

/-- What the validation has noted of a route. -/
def Noted (paths : String → PathModelState) (r : Route) : Prop :=
  (r.names rt = [] → (paths (r.path rt)).catchAllIndex ≠ none) ∧
  r.names rt ⊆ (paths (r.path rt)).modelIndexes.map Prod.fst

/-- No earlier route of the same path takes every model or a model of the route. -/
def Apart (done : List Route) (route : Route) : Prop :=
  ∀ r ∈ done, r.path rt = route.path rt → r.names rt ≠ [] ∧ (route.names rt).Disjoint (r.names rt)

variable {rt parse} {index : ℕ} {incomingPath model : String} {models seen : List String}
  {old new : List (String × ℕ)} {v v' : Validation} {done before after routes : List Route}
  {route : Route} {paths paths' : String → PathModelState}

theorem addModels_spec (h : addModels rt index incomingPath models seen old = ok new) :
    models.Disjoint (old.map Prod.fst) ∧ models ++ old.map Prod.fst ⊆ new.map Prod.fst := by
  induction models generalizing seen old with
  | nil =>
    cases h
    exact ⟨disjoint_nil_left _, Subset.refl _⟩
  | cons model models ih =>
    rw [addModels, bind_eq_ok] at h
    obtain ⟨_, -, h⟩ := h
    rw [bind_eq_ok] at h
    obtain ⟨_, -, h⟩ := h
    split at h
    · cases h
    next hnone =>
      obtain ⟨hapart, hnew⟩ := ih h
      rw [map_cons, disjoint_cons_right] at hapart
      refine ⟨disjoint_cons_left.2 ⟨fun hold ↦ ?_, hapart.2⟩, fun m hm ↦ hnew ?_⟩
      · obtain ⟨entry, hentry, rfl⟩ := mem_map.1 hold
        simpa using lookup_eq_none_iff.1 hnone entry hentry
      · simpa [or_left_comm] using hm

theorem validateRoute_spec (h : validateRoute rt parse v (route, index) = ok v')
    (hnoted : ∀ r ∈ done, Noted rt v.paths r) :
    (∀ r ∈ done ++ [route], Noted rt v'.paths r) ∧ Apart rt done route := by
  simp only [validateRoute, validateRouteModels, bind_eq_ok, check_eq_ok, pure_eq_ok,
    Option.isNone_iff_eq_none] at h
  obtain ⟨_, -, _, -, _, -, _, -, _, ⟨_, hfirst, new, hnew, rfl⟩, _, -, _, -, _, -, _, -, rfl⟩ := h
  obtain ⟨hapart, hkeep⟩ := addModels_spec hnew
  have hsame (r) (hr : r ∈ done) (hpath : r.path rt = route.path rt) : r.names rt ≠ [] ∧
      r.names rt ⊆ (v.paths (route.path rt)).modelIndexes.map Prod.fst :=
    ⟨fun hnone ↦ (hnoted r hr).1 hnone (hpath ▸ hfirst), hpath ▸ (hnoted r hr).2⟩
  refine ⟨forall_mem_append.2 ⟨fun r hr ↦ ?_, forall_mem_singleton.2 ?_⟩, fun r hr hpath ↦
    ⟨(hsame r hr hpath).1, disjoint_of_subset_right (hsame r hr hpath).2 hapart⟩⟩
  · by_cases hpath : r.path rt = route.path rt
    · obtain ⟨hsome, hold⟩ := hsame r hr hpath
      simpa [Noted, hpath, hsome] using Subset.trans hold (append_subset.1 hkeep).2
    · simpa [Noted, Function.update_of_ne hpath] using hnoted r hr
  · simpa [Noted] using (append_subset.1 hkeep).1

theorem validated_apart (h : (routes.zipIdx index).foldlM (validateRoute rt parse) v = ok v')
    (hnoted : ∀ r ∈ done, Noted rt v.paths r) (hroutes : routes = before ++ route :: after) :
    Apart rt (done ++ before) route := by
  induction routes generalizing index v done before with
  | nil => simp at hroutes
  | cons first rest ih =>
    rw [zipIdx_cons, foldlM_cons, bind_eq_ok] at h
    obtain ⟨w, hfirst, h⟩ := h
    obtain ⟨hnoted', hapart⟩ := validateRoute_spec hfirst hnoted
    cases before with
    | nil =>
      cases hroutes
      rwa [append_nil]
    | cons _ before =>
      obtain ⟨rfl, hrest⟩ := cons.inj hroutes
      simpa using ih h hnoted' hrest

theorem matchAdvancedCustomRouteModel_plain
    (hplain : ∀ m ∈ route.models, hasPrefix (rt.trimSpace m) "re:" = false) :
    matchAdvancedCustomRouteModel rt route.models model = true ↔
      route.names rt = [] ∨ model ∈ route.names rt := by
  have hrule : ∀ rule ∈ route.names rt,
      matchAdvancedCustomRouteModelRule rt rule model = decide (rule = model) := by
    intro rule hrule
    obtain ⟨m, hm, rfl⟩ := mem_map.1 (mem_filter.1 hrule).1
    simp [matchAdvancedCustomRouteModelRule, hplain m hm]
  rw [matchAdvancedCustomRouteModel, Bool.or_eq_true, List.isEmpty_iff, any_eq_true]
  refine or_congr_right ⟨fun ⟨rule, hmem, h⟩ ↦ ?_, fun h ↦ ⟨model, h, by simp [hrule model h]⟩⟩
  rw [hrule rule hmem, decide_eq_true_iff] at h
  exact h ▸ hmem

theorem exists_model_apart (htrim : rt.trimSpace = trimSpace) (hapart : Apart rt before route) :
    ∃ model, (route.names rt = [] ∨ rt.trimSpace model ∈ route.names rt) ∧
      ∀ r ∈ before, r.path rt = route.path rt → rt.trimSpace model ∉ r.names rt := by
  cases hnames : route.names rt with
  | nil =>
    -- one of infinitely many names that trimming keeps
    let name (n : ℕ) := String.ofList (replicate n 'a')
    have hname (n) : trimSpace (name n) = name n := by simp [name, trimSpace, isSpace]
    have hinj : Function.Injective name := fun m n h ↦ by
      simpa [name] using congrArg (fun s ↦ s.toList.length) h
    let taken := before.flatMap (Route.names rt)
    obtain ⟨n, hn⟩ := Infinite.exists_notMem_finset (taken.toFinset.preimage name hinj.injOn)
    refine ⟨name n, .inl rfl, fun r hr _ hold ↦ hn ?_⟩
    rw [htrim, hname] at hold
    exact Finset.mem_preimage.2 (mem_toFinset.2 (mem_flatMap.2 ⟨r, hr, hold⟩))
  | cons m ms =>
    have hm : m ∈ route.names rt := by simp [hnames]
    obtain ⟨model, -, rfl⟩ := mem_map.1 (mem_filter.1 hm).1
    exact ⟨model, .inr mem_cons_self, fun r hr hpath ↦ (hapart r hr hpath).2 hm⟩

def plainRuntime : Runtime where
  trimSpace := trimSpace
  matchString _ := none
  unmarshalArray _ := none
  sortSlice _ ids := ids
  sortSlice_perm _ _ := .rfl

def geminiRoute (method : String) : AdvancedCustomRoute :=
  ⟨"/v1beta/models/" ++ advancedCustomModelPlaceholder ++ method, []⟩

end Moligate.Channels.AdvancedCustom
