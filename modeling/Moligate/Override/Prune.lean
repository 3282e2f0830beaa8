import Mathlib.Data.List.Basic

namespace Moligate.Override

open Option

/-- A decoded JSON value; numbers and booleans are only passed on. -/
inductive Json (ν : Type)
  | null | scalar (value : ν) | string (value : String)
  | array (items : List (Json ν)) | object (fields : List (String × Json ν))

structure ConditionOperation where
  (path value : String)
  (invert passMissingKey : Bool)

/-- `isAnd` is whether the logic is `AND`. -/
structure PruneObjectsOptions where
  conditions : List ConditionOperation
  (isAnd recursive : Bool)

variable {ν : Type} (o : PruneObjectsOptions) (context : String → Option (Json ν))

def compareEqual (target : String) : Json ν → Option Bool
  | .null => some false
  | .string value => some (value = target)
  | _ => none

def checkSingleCondition (fields : List (String × Json ν)) (c : ConditionOperation) : Option Bool :=
  match (fields.lookup c.path).or (context c.path) with
  | none => some c.passMissingKey
  | some value => (compareEqual c.value value).map (· ^^ c.invert)

def checkConditions (fields : List (String × Json ν)) : Option Bool :=
  if o.conditions.isEmpty then some true
  else (o.conditions.mapM (checkSingleCondition context fields)).map fun results ↦
    if o.isAnd then results.all id else results.any id

mutual

def pruneObjectsNode (isRoot : Bool) : Json ν → Option (Option (Json ν))
  | .array items => (pruneItems items).map fun items ↦ some (.array items)
  | .object fields =>
    (checkConditions o context fields).bind fun shouldDrop ↦
      if shouldDrop && !isRoot then some none
      else if !o.recursive then some (some (.object fields))
      else (pruneFields fields).map fun fields ↦ some (.object fields)
  | node => some (some node)

def pruneItems : List (Json ν) → Option (List (Json ν))
  | [] => some []
  | item :: items => (pruneObjectsNode false item).bind fun next ↦
      (pruneItems items).map (next.toList ++ ·)

def pruneFields : List (String × Json ν) → Option (List (String × Json ν))
  | [] => some []
  | (key, child) :: fields => (pruneObjectsNode false child).bind fun next ↦
      (pruneFields fields).map ((next.map (key, ·)).toList ++ ·)

end

/-- At the empty path; the root is never dropped. -/
def pruneObjects (root : Json ν) : Option (Json ν) :=
  (pruneObjectsNode o context true root).map (·.getD .null)

/-! ### What pruning is for -/

/-- Whether an object's fields meet one condition. -/
def ConditionOperation.holds (fields : List (String × Json ν)) (c : ConditionOperation) : Bool :=
  match fields.lookup c.path with
  | none => c.passMissingKey
  | some (.string value) => (value = c.value) ^^ c.invert
  | some _ => c.invert

/-- Whether a value is an object that satisfies the conditions. -/
def selected : Json ν → Bool
  | .object fields => if o.isAnd then o.conditions.all (·.holds fields)
      else o.conditions.any (·.holds fields)
  | _ => false

mutual

/-- The value without the selected objects below it. -/
def without : Json ν → Json ν
  | .array items => .array (withoutItems items)
  | .object fields => .object (withoutFields fields)
  | node => node

def withoutItems : List (Json ν) → List (Json ν)
  | [] => []
  | item :: items =>
    if selected o item then withoutItems items else without item :: withoutItems items

def withoutFields : List (String × Json ν) → List (String × Json ν)
  | [] => []
  | (key, child) :: fields =>
    if selected o child then withoutFields fields
    else (key, without child) :: withoutFields fields

end

/-- `Within v w`: the value `w` is `v` or stands below it. -/
inductive Within : Json ν → Json ν → Prop
  | self {v} : Within v v
  | item {items v w} : v ∈ items → Within v w → Within (.array items) w
  | field {fields key v w} : (key, v) ∈ fields → Within v w → Within (.object fields) w

/-- Recursive pruning by conditions on keys that the request context does not have. -/
structure Recursive : Prop where
  recursive : o.recursive = true
  nonempty : o.conditions ≠ []
  absent : ∀ c ∈ o.conditions, context c.path = none

/-! ### Pruning is exact -/

variable {o} {context} {fields : List (String × Json ν)} {b : Bool}

theorem lookup_withoutFields {key : String}
    (h : ∀ v, fields.lookup key = some v → selected o v = false ∧ without o v = v) :
    (withoutFields o fields).lookup key = fields.lookup key := by
  induction fields with
  | nil => rfl
  | cons field fields ih =>
    obtain ⟨k, child⟩ := field
    rw [List.lookup_cons] at h ⊢
    rw [withoutFields]
    by_cases hk : key == k
    · simp only [hk] at h
      obtain ⟨hs, hw⟩ := h child rfl
      simp [hs, hw, hk, List.lookup_cons]
    · simp only [hk] at h ⊢
      split <;> simp [List.lookup_cons, hk, ih h]

/-- A condition that is checked without an error looks at a missing key, a null or a
string, none of which pruning touches. -/
theorem checkSingleCondition_spec {c : ConditionOperation} (hc : context c.path = none)
    (h : checkSingleCondition context fields c = some b) :
    b = c.holds fields ∧ checkSingleCondition context (withoutFields o fields) c = some b := by
  have hkeep : (withoutFields o fields).lookup c.path = fields.lookup c.path := by
    refine lookup_withoutFields fun v hv ↦ ?_
    cases v <;> simp_all [checkSingleCondition, compareEqual, selected, without]
  refine ⟨?_, by rwa [checkSingleCondition, hkeep]⟩
  rw [checkSingleCondition, hc, or_none] at h
  rw [ConditionOperation.holds]
  cases hv : fields.lookup c.path with
  | none => simp_all
  | some v => cases v <;> simp_all [compareEqual]

theorem mapM_spec {α : Type} {f g : α → Option Bool} {p : α → Bool} {cs : List α} {bs : List Bool}
    (h : cs.mapM f = some bs) (hf : ∀ c ∈ cs, ∀ b, f c = some b → b = p c ∧ g c = some b) :
    bs = cs.map p ∧ cs.mapM g = some bs := by
  induction cs generalizing bs with
  | nil => simp_all
  | cons c cs ih =>
    simp only [List.mapM_cons, bind_eq_bind, bind_eq_some_iff, pure_def, some.injEq] at h
    obtain ⟨b, hb, bs, hbs, rfl⟩ := h
    obtain ⟨rfl, hg⟩ := hf c (by simp) b hb
    obtain ⟨rfl, hgs⟩ := ih hbs fun c hc ↦ hf c (by simp [hc])
    simp [hg, hgs]

theorem checkConditions_spec (ho : Recursive o context)
    (h : checkConditions o context fields = some b) :
    b = selected o (.object fields) ∧
      checkConditions o context (withoutFields o fields) = some b := by
  simp only [checkConditions, List.isEmpty_iff, ho.nonempty, if_false, map_eq_some_iff] at h ⊢
  obtain ⟨bs, hbs, rfl⟩ := h
  obtain ⟨rfl, hg⟩ := mapM_spec hbs fun c hc b ↦ checkSingleCondition_spec (o := o) (ho.absent c hc)
  refine ⟨?_, _, hg, rfl⟩
  simp [selected, List.all_map, List.any_map, Function.comp_def]

mutual

theorem pruneObjectsNode_spec (ho : Recursive o context) (isRoot : Bool) : ∀ (v : Json ν) {r},
    pruneObjectsNode o context isRoot v = some r →
    r = (if selected o v && !isRoot then none else some (without o v)) ∧
      ∀ out ∈ r, selected o out = selected o v ∧ pruneObjectsNode o context isRoot out = some r ∧
        ∀ w, Within out w → w = out ∨ selected o w = false
  | .null, r, h | .scalar _, r, h | .string _, r, h => by
    obtain rfl := some.inj h
    simpa [selected, without, pruneObjectsNode] using fun w hw ↦ by cases hw; exact .inl rfl
  | .array items, r, h => by
    obtain ⟨out, hout, rfl⟩ := map_eq_some_iff.1 h
    obtain ⟨rfl, hagain, hclean⟩ := pruneItems_spec ho items hout
    refine ⟨rfl, ?_⟩
    rintro _ ⟨⟩
    refine ⟨rfl, by rw [pruneObjectsNode, hagain]; rfl, fun w hw ↦ ?_⟩
    cases hw with
    | self => exact .inl rfl
    | item hv hw => exact .inr (hclean _ hv _ hw)
  | .object fields, r, h => by
    obtain ⟨b, hb, h⟩ := bind_eq_some_iff.1 h
    obtain ⟨rfl, hb'⟩ := checkConditions_spec ho hb
    split at h <;> rename_i hdrop
    · obtain rfl := some.inj h
      simp [hdrop]
    rw [ho.recursive] at h
    obtain ⟨out, hout, rfl⟩ := map_eq_some_iff.1 h
    obtain ⟨rfl, hagain, hclean⟩ := pruneFields_spec ho fields hout
    refine ⟨(if_neg hdrop).symm, ?_⟩
    rintro _ ⟨⟩
    refine ⟨(checkConditions_spec ho hb').1.symm, ?_, fun w hw ↦ ?_⟩
    · rw [pruneObjectsNode, hb', bind_some, if_neg hdrop, ho.recursive, hagain]
      rfl
    cases hw with
    | self => exact .inl rfl
    | field hv hw => exact .inr (hclean _ _ hv _ hw)

theorem pruneItems_spec (ho : Recursive o context) : ∀ (items : List (Json ν)) {out},
    pruneItems o context items = some out →
    out = withoutItems o items ∧ pruneItems o context out = some out ∧
      ∀ v ∈ out, ∀ w, Within v w → selected o w = false
  | [], out, h => by
    obtain rfl := some.inj h
    simp [withoutItems, pruneItems]
  | item :: items, out, h => by
    obtain ⟨next, hnext, h⟩ := bind_eq_some_iff.1 h
    obtain ⟨rest, hrest, rfl⟩ := map_eq_some_iff.1 h
    obtain ⟨rfl, hagain, hclean⟩ := pruneItems_spec ho items hrest
    obtain ⟨rfl, hnode⟩ := pruneObjectsNode_spec ho false item hnext
    cases hs : selected o item <;> grind [withoutItems, pruneItems]

theorem pruneFields_spec (ho : Recursive o context) : ∀ (fields : List (String × Json ν)) {out},
    pruneFields o context fields = some out →
    out = withoutFields o fields ∧ pruneFields o context out = some out ∧
      ∀ key v, (key, v) ∈ out → ∀ w, Within v w → selected o w = false
  | [], out, h => by
    obtain rfl := some.inj h
    simp [withoutFields, pruneFields]
  | (key, child) :: fields, out, h => by
    obtain ⟨next, hnext, h⟩ := bind_eq_some_iff.1 h
    obtain ⟨rest, hrest, rfl⟩ := map_eq_some_iff.1 h
    obtain ⟨rfl, hagain, hclean⟩ := pruneFields_spec ho fields hrest
    obtain ⟨rfl, hnode⟩ := pruneObjectsNode_spec ho false child hnext
    cases hs : selected o child <;> simp only [hs] at hnode ⊢ <;> grind [withoutFields, pruneFields]

end

def redacting : PruneObjectsOptions := ⟨[⟨"type", "redacted", false, false⟩], true, true⟩

def redacted : Json Unit := .object [("type", .string "redacted")]

end Moligate.Override
