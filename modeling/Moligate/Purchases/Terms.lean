import Moligate.Purchases.Checkout
import Moligate.Subscription.Requests.Others

namespace Moligate.Purchases.Checkout

open Foundation Subscription Subscription.Requests List String

/-- What the normalisations use of `strings.TrimSpace` and `strings.ToLower`. -/
structure TextLaws (rt : Runtime) : Prop extends StringLaws rt where
  lower_chars : ∃ f : Char → Char, ∀ s, rt.toLower s = ofList (s.toList.map f)
  trim_size : ∀ s, (rt.trimSpace s).utf8ByteSize ≤ s.utf8ByteSize
  quota : rt.trimSpace (rt.toLower "quota") = "quota"

section

variable {α κ : Type*} [DecidableEq κ] {key : α → κ} {norm : α → α} {valid : α → Bool}
  {xs ys : List α}

theorem firstOfEach_of_nodup (h : (xs.map key).Nodup) : firstOfEach key xs = xs := by
  induction xs using reverseRecOn with
  | nil => rfl
  | append_singleton xs x ih =>
    rw [map_append, map_singleton, nodup_append] at h
    obtain ⟨hxs, -, hdisjoint⟩ := h
    have hx : key x ∉ xs.map key := fun hmem ↦
      hdisjoint _ hmem _ (mem_singleton_self _) rfl
    have ih := ih hxs
    rw [firstOfEach] at ih
    rw [firstOfEach, foldl_append, ih, foldl_cons, foldl_nil, if_neg hx]

theorem normalized_sublist (hnorm : ∀ x, valid (norm x) = true → norm (norm x) = norm x)
    (hys : ys.Sublist (firstOfEach key ((xs.map norm).filter valid))) :
    firstOfEach key ((ys.map norm).filter valid) = ys := by
  have hfixed (y : α) (hy : y ∈ ys) : norm y = y ∧ valid y = true := by
    obtain ⟨hmem, hvalid⟩ := mem_filter.1 (mem_of_mem_firstOfEach (hys.subset hy))
    obtain ⟨x, -, rfl⟩ := mem_map.1 hmem
    exact ⟨hnorm x hvalid, hvalid⟩
  have hmap : ys.map norm = ys :=
    (map_congr_left fun y hy ↦ (hfixed y hy).1).trans (map_id' ys)
  rw [hmap, filter_eq_self.2 fun y hy ↦ (hfixed y hy).2]
  exact firstOfEach_of_nodup ((firstOfEach_nodup key _).sublist (hys.map key))

theorem normalized_take {n : ℕ} (hnorm : ∀ x, valid (norm x) = true → norm (norm x) = norm x)
    (hys : ys = (firstOfEach key ((xs.map norm).filter valid)).take n) :
    (firstOfEach key ((ys.map norm).filter valid)).take n = ys := by
  rw [normalized_sublist hnorm (hys ▸ take_sublist n _), hys, take_take, min_self]

end

section

variable {n : ℕ} {s : String}

private abbrev keepBytes (n : ℕ) (kept : List Char × ℕ) (c : Char) : List Char × ℕ :=
  if kept.2 + c.utf8Size ≤ n then (kept.1 ++ [c], kept.2 + c.utf8Size) else (kept.1, n + 1)

theorem mem_of_mem_truncateBytes {c : Char} (h : c ∈ (truncateBytes n s).toList) :
    c ∈ s.toList := by
  rw [truncateBytes, toList_ofList] at h
  refine foldlRecOn s.toList (keepBytes n)
    (motive := fun kept ↦ ∀ c ∈ kept.1, c ∈ s.toList) (fun _ h ↦ absurd h not_mem_nil) ?_ c h
  intro kept hkept d hd c hc
  simp only [keepBytes] at hc
  split_ifs at hc with hfits
  · rcases mem_append.1 hc with hc | hc
    · exact hkept c hc
    · exact mem_singleton.1 hc ▸ hd
  · exact hkept c hc

theorem truncateBytes_size : (truncateBytes n s).utf8ByteSize ≤ n := by
  -- the counter is at least the size of what has been kept
  have hfold := foldlRecOn s.toList (keepBytes n)
    (motive := fun kept ↦ (ofList kept.1).utf8ByteSize ≤ n ∧
      (ofList kept.1).utf8ByteSize ≤ kept.2) (b := ([], 0)) ⟨by simp, by simp⟩ (by
    intro kept hkept c _
    simp only [keepBytes]
    split_ifs with hfits
    · simp only [ofList_append, utf8ByteSize_append]
      have hc : (ofList [c]).utf8ByteSize = c.utf8Size := by simp
      omega
    · exact ⟨hkept.1, hkept.1.trans (Nat.le_succ n)⟩)
  exact hfold.1

end

variable {rt : Runtime} (hlaws : TextLaws rt)
include hlaws

theorem trim_lower_idem (s : String) :
    rt.trimSpace (rt.toLower (rt.trimSpace (rt.toLower s))) = rt.trimSpace (rt.toLower s) := by
  rw [hlaws.trim_lower (rt.trimSpace _), hlaws.trim_trim, hlaws.trim_lower, hlaws.lower_lower]

theorem normalizeBonusResource_idem (r : BonusResource)
    (h : (normalizeBonusResource rt r).isValid = true) :
    normalizeBonusResource rt (normalizeBonusResource rt r) = normalizeBonusResource rt r := by
  obtain ⟨htrim, hlower⟩ := normalizeBonusResource_key hlaws.toStringLaws r
  have hkey : (normalizeBonusResource rt r).resourceKey ≠ "" := by
    intro hempty
    simp [BonusResource.isValid, hempty] at h
  have htype : rt.trimSpace (rt.toLower (normalizeBonusResource rt r).resourceType) =
      (normalizeBonusResource rt r).resourceType := by
    simp only [normalizeBonusResource]
    split_ifs
    · exact hlaws.quota
    · exact trim_lower_idem hlaws r.resourceType
  have hsome : (normalizeBonusResource rt r).resourceType ≠ "" := by
    intro hempty
    simp [BonusResource.isValid, hempty] at h
  have hmodel : rt.trimSpace (normalizeBonusResource rt r).modelName =
      (normalizeBonusResource rt r).modelName := hlaws.trim_trim r.modelName
  have hdisplay : rt.trimSpace (normalizeBonusResource rt r).displayName =
      (normalizeBonusResource rt r).displayName := hlaws.trim_trim r.displayName
  generalize normalizeBonusResource rt r = r' at *
  simp [normalizeBonusResource, hlower, htrim, htype, hmodel, hdisplay, if_neg hkey, if_neg hsome]

omit hlaws in
theorem normalizeSubscriptionModelFamily_of_size {family : String}
    (h : (rt.trimSpace (rt.toLower family)).utf8ByteSize ≤ 32) :
    normalizeSubscriptionModelFamily rt family = rt.trimSpace (rt.toLower family) := by
  simp only [normalizeSubscriptionModelFamily]
  rw [if_neg (by omega)]

theorem lower_normalizeSubscriptionModelFamily (family : String) :
    rt.toLower (normalizeSubscriptionModelFamily rt family) =
      normalizeSubscriptionModelFamily rt family := by
  obtain ⟨f, hf⟩ := hlaws.lower_chars
  have hlowered : rt.toLower (rt.trimSpace (rt.toLower family)) = rt.trimSpace (rt.toLower family) := by
    rw [hlaws.trim_lower, hlaws.lower_lower]
  simp only [normalizeSubscriptionModelFamily]
  split_ifs
  · -- every character of the lowered family is its own lower case, and so in each part of it
    have hchars := congrArg toList hlowered
    rw [hf, toList_ofList] at hchars
    have hfixed (c : Char) (hc : c ∈ (rt.trimSpace (rt.toLower family)).toList) : f c = c :=
      map_inj_left.1 (hchars.trans (map_id' _).symm) c hc
    rw [hf, map_congr_left fun c hc ↦ hfixed c (mem_of_mem_truncateBytes hc), map_id',
      ofList_toList]
  · exact hlowered

omit hlaws in
theorem normalizeSubscriptionModelFamily_size (family : String) :
    (normalizeSubscriptionModelFamily rt family).utf8ByteSize ≤ 32 := by
  simp only [normalizeSubscriptionModelFamily]
  split_ifs with hlong
  · exact truncateBytes_size
  · omega

/-- The cut can leave spaces at the end, which the second normalisation takes away; the third
changes nothing. -/
theorem normalizeSubscriptionModelFamily_twice (family : String) :
    normalizeSubscriptionModelFamily rt (normalizeSubscriptionModelFamily rt family) =
      rt.trimSpace (rt.toLower (normalizeSubscriptionModelFamily rt family)) := by
  refine normalizeSubscriptionModelFamily_of_size ?_
  rw [lower_normalizeSubscriptionModelFamily hlaws]
  exact (hlaws.trim_size _).trans (normalizeSubscriptionModelFamily_size family)

/-- The plan that an order gives back has gone through the normalisation twice since it was loaded,
and its subscriptions are those of the loaded plan. -/
theorem newSubscription_captured (stored : CatalogPlan) (id now userId : ℤ) (group : String) :
    newSubscription rt id now userId
        (normalizeDefaults rt (normalizeDefaults rt (normalizeDefaults rt stored))).toPlan group =
      newSubscription rt id now userId (normalizeDefaults rt stored).toPlan group := by
  have hrated : rt.trimSpace (rt.toLower (normalizeSubscriptionModelFamily rt
        (normalizeSubscriptionModelFamily rt
          (normalizeSubscriptionModelFamily rt stored.modelFamily)))) =
      rt.trimSpace (rt.toLower (normalizeSubscriptionModelFamily rt stored.modelFamily)) := by
    rw [normalizeSubscriptionModelFamily_twice hlaws (normalizeSubscriptionModelFamily rt _),
      trim_lower_idem hlaws, normalizeSubscriptionModelFamily_twice hlaws, trim_lower_idem hlaws]
  have hgroups (groups : List String) : normalizeSubscriptionGroups rt
      (normalizeSubscriptionGroups rt groups) = normalizeSubscriptionGroups rt groups :=
    normalized_sublist (fun g _ ↦ hlaws.trim_trim g) (List.Sublist.refl _)
  have hmodels (models : List String) : normalizeSubscriptionModels rt
      (normalizeSubscriptionModels rt models) = normalizeSubscriptionModels rt models :=
    normalized_take (fun m _ ↦ hlaws.trim_trim m) rfl
  have hresources (rs : List BonusResource) : normalizeSubscriptionBonusResources rt
      (normalizeSubscriptionBonusResources rt rs) = normalizeSubscriptionBonusResources rt rs :=
    normalized_take (normalizeBonusResource_idem hlaws) rfl
  have hfamily : normalizeSubscriptionModelFamily rt (normalizeSubscriptionModelFamily rt
      (normalizeSubscriptionModelFamily rt (normalizeSubscriptionModelFamily rt
        stored.modelFamily))) = normalizeSubscriptionModelFamily rt
      (normalizeSubscriptionModelFamily rt stored.modelFamily) := by
    rw [normalizeSubscriptionModelFamily, hrated, ← normalizeSubscriptionModelFamily]
  simp only [newSubscription, Plan.effectiveBillingRatio, resourceGrants, normalizeDefaults,
    hgroups, hmodels, hresources, hfamily, hrated]
  rfl

end Moligate.Purchases.Checkout
