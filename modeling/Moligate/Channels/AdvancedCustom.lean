import Mathlib
import Moligate.Foundation.Strings

namespace Moligate.Channels

open Foundation Strings

/-- What the code takes from its platform: the functions of the standard library, with the regular
expressions and the JSON parser. `sortSlice` is not stable, so it is only known to permute. -/
structure Runtime where
  trimSpace : String → String
  /-- `none` for a pattern that does not compile. -/
  matchString : String → Option (String → Bool)
  /-- The texts of the elements of a JSON array. -/
  unmarshalArray : String → Option (List String)
  sortSlice : (ℤ → ℤ → Bool) → List ℤ → List ℤ
  sortSlice_perm : ∀ less ids, (sortSlice less ids).Perm ids

structure AdvancedCustomRoute where
  incomingPath : String
  models : List String
  deriving DecidableEq

structure AdvancedCustomConfig where
  routes : List AdvancedCustomRoute
  deriving DecidableEq

variable (rt : Runtime)

def advancedCustomModelPlaceholder : String := "\x7bmodel\x7d"

def normalizeAdvancedCustomRouteModels (models : List String) : List String :=
  (models.map rt.trimSpace).filter (· ≠ "")

def matchAdvancedCustomRouteModelRule (rule model : String) : Bool :=
  if !hasPrefix rule "re:" then rule = model
  else
    let pattern := trimPrefix rule "re:"
    if pattern = "" then false
    else
      match rt.matchString pattern with
      | none => false
      | some re => re model

def matchAdvancedCustomRouteModel (models : List String) (model : String) : Bool :=
  let normalizedModels := normalizeAdvancedCustomRouteModels rt models
  normalizedModels.isEmpty ||
    normalizedModels.any fun rule ↦ matchAdvancedCustomRouteModelRule rt rule model

def matchAdvancedCustomIncomingPathTemplate (configuredPath requestPath : String) : Bool :=
  if !contains configuredPath advancedCustomModelPlaceholder then
    configuredPath = requestPath
  else
    match split configuredPath advancedCustomModelPlaceholder with
    | [before, after] =>
      if !hasPrefix requestPath before || !hasSuffix requestPath after then false
      else
        let model := trimSuffix (trimPrefix requestPath before) after
        model ≠ "" && !contains model "/"
    | _ => false

def matchAdvancedCustomIncomingPath (configuredPath requestPath : String) : Bool :=
  matchAdvancedCustomIncomingPathTemplate configuredPath requestPath ||
    if contains configuredPath ":generateContent" then
      matchAdvancedCustomIncomingPathTemplate
        (replaceFirst configuredPath ":generateContent" ":streamGenerateContent")
        requestPath
    else false

def AdvancedCustomConfig.matchPathForModel (config : AdvancedCustomConfig)
    (requestPath model : String) : Option AdvancedCustomRoute :=
  config.routes.find? fun route ↦
    matchAdvancedCustomIncomingPath (rt.trimSpace route.incomingPath) requestPath &&
      matchAdvancedCustomRouteModel rt route.models (rt.trimSpace model)

def AdvancedCustomConfig.supportsPathForModel (config : AdvancedCustomConfig)
    (requestPath model : String) : Bool :=
  (config.matchPathForModel rt requestPath model).isSome

end Moligate.Channels
