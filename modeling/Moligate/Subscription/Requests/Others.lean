import Moligate.Subscription.Purchase
import Moligate.Subscription.Requests.Model

namespace Moligate.Subscription.Requests

open Foundation Common Option Call List BonusResource Bool Table

variable {rt : Runtime} {k : String} {db db' : Db} {r : Request} {i : ℤ} {plans : Plans} {now : ℤ}

def requestOf : Op → Option String
  | .preConsume req => some req.requestId
  | .refund requestId => some requestId
  | .postConsume _ _ | .postConsumeResource .. | .resetDue _ => none

theorem keepsTerms_of_untouched (h : Untouched i db db') : KeepsTerms i db db' := by
  rw [KeepsTerms, h.find]

theorem keepsTerms_of_moves {amount : ℤ} (h : MovesRow rt plans now i amount db db') :
    KeepsTerms i db db' := by
  obtain ⟨row, row', cleared, hfind, hfind', -, hmove⟩ := h
  rw [KeepsTerms, hfind, hfind', map_some, hmove.terms, map_some]

theorem keepsTerms_of_resource (h : Untouched i db db' ∨ GrantsOnly i db db') :
    KeepsTerms i db db' := by
  rcases h with h | h
  · exact keepsTerms_of_untouched h
  · obtain ⟨row, row', hfind, hfind', hterms, -⟩ := h.result
    rw [KeepsTerms, hfind, hfind', map_some, hterms, map_some]

theorem keepsTerms_of_postConsume {id delta : ℤ}
    (h : postConsumeDeltaTx rt plans now db id delta = .ok db') (i : ℤ) : KeepsTerms i db db' := by
  obtain ⟨-, hmoves, hframe⟩ := postConsumeDeltaTx_moves h
  by_cases hi : i = id
  · exact keepsTerms_of_moves (hi ▸ hmoves)
  · exact keepsTerms_of_untouched (hframe i hi)

theorem keepsTerms_of_refund {record : PreConsumeRecord}
    (h : refundRecord rt plans now db record = .ok db') (i : ℤ) : KeepsTerms i db db' := by
  rw [refundRecord] at h
  split_ifs at h
  · exact keepsTerms_of_untouched (ok.inj h ▸ .refl i db)
  · exact keepsTerms_of_resource (postConsumeResourceDeltaTx_row h i)
  · exact keepsTerms_of_resource (postConsumeResourceDeltaTx_row h i)
  · exact keepsTerms_of_postConsume h i

theorem performOp_frame (hwf : ∀ row ∈ db.subs.rows, GrantsWellFormed rt row)
    (hop : requestOf r.op ≠ some k) (h : performOp rt db r = .ok db') :
    db'.records.find k = db.records.find k ∧ ∀ i, KeepsTerms i db db' := by
  have hrefl (i : ℤ) : KeepsTerms i db db := keepsTerms_of_untouched (.refl i db)
  obtain ⟨now, plans, op⟩ := r
  cases op with
  | preConsume req =>
    obtain ⟨⟨db₁, result⟩, hpre, hout⟩ := bind_eq_ok.1 h
    cases hout
    constructor
    · obtain ⟨_, -, hpre⟩ := bind_eq_ok.1 hpre
      split at hpre
      · obtain ⟨_, -, hout⟩ := bind_eq_ok.1 hpre
        rw [(Prod.mk.inj (pure_eq_ok.1 hout)).1]
      obtain ⟨_, -, hloop⟩ := bind_eq_ok.1 hpre
      cases preConsumeLoop_outcome candidates_nodup
        (fun c hc ↦ find_of_mem (mem_candidates.1 hc).1)
        (fun c hc ↦ hwf c (mem_candidates.1 hc).1) hloop with
      | charged record row b hnew hrecord hkeep =>
        exact hkeep k fun he ↦ hop (congrArg some he.symm)
      | replayed record hrecord hstatus hrecords => rw [hrecords]
    · intro i
      rcases (preConsume_effect hpre).1 i with huntouched | ⟨amount, hmoves, -⟩
      · exact keepsTerms_of_untouched huntouched
      · exact keepsTerms_of_moves hmoves
  | postConsume id delta =>
    simp only [performOp, postConsumeUserSubscriptionDelta] at h
    split_ifs at h
    · cases h
      exact ⟨rfl, hrefl⟩
    · exact ⟨by rw [(postConsumeDeltaTx_moves h).1], keepsTerms_of_postConsume h⟩
  | postConsumeResource id key type delta =>
    simp only [performOp, postConsumeUserSubscriptionResourceDelta, postConsumeGrantDelta] at h
    split_ifs at h
    · cases h
      exact ⟨rfl, hrefl⟩
    · exact ⟨by rw [(postConsumeResourceDeltaTx_still h).1], fun i ↦
        keepsTerms_of_resource (postConsumeResourceDeltaTx_row h i)⟩
  | refund requestId =>
    simp only [performOp, refundSubscriptionPreConsume, bind_eq_ok, required_eq_ok] at h
    obtain ⟨_, -, record, hrecord, h⟩ := h
    split_ifs at h
    · cases h
      exact ⟨rfl, hrefl⟩
    · obtain ⟨db₁, hdb, hout⟩ := bind_eq_ok.1 h
      cases hout
      have hkey : record.requestId = requestId := key_of_find hrecord
      have hne : k ≠ record.requestId := fun he ↦ hop (congrArg some (he.trans hkey).symm)
      have hsaved : (db₁.records.save { record with status := .refunded }).find k =
          db₁.records.find k := find_save_of_ne hne
      have hkeeps (i : ℤ) : KeepsTerms i db db₁ := keepsTerms_of_refund hdb i
      exact ⟨hsaved.trans (by rw [(refundRecord_effect hdb).1]), hkeeps⟩
  | resetDue limit =>
    obtain ⟨⟨db₁, n⟩, hreset, hout⟩ := bind_eq_ok.1 h
    cases hout
    refine ⟨by rw [(resetDue_effect hreset).1], fun i ↦ ?_⟩
    rcases (resetDue_effect hreset).2 i with huntouched | hmoves
    · exact keepsTerms_of_untouched huntouched
    · exact keepsTerms_of_moves hmoves

/-- The calls of other requests that wait for the locks of this one are among the `others`. -/
theorem othersMay_of_performOp {π : Type} {w : World π}
    (hwf : ∀ row ∈ w.db.subs.rows, GrantsWellFormed rt row ∧ row.id ≤ w.lastId)
    (hop : requestOf r.op ≠ some k) (h : performOp rt w.db r = .ok db')
    (hlocks : ∀ row ∈ w.db.subs.rows, w.rowLocks row.id ≠ none → db'.subs.find row.id = some row) :
    othersMay rt k w db' w.lastId = true := by
  simp only [othersMay, and_eq_true, decide_eq_true_eq, List.all_eq_true, or_eq_true]
  obtain ⟨hrecord, hkeeps⟩ := performOp_frame (fun row hrow ↦ (hwf row hrow).1) hop h
  refine ⟨⟨⟨hrecord, le_refl _⟩, fun row' hrow' ↦ ?_⟩, fun row hrow ↦ ?_⟩
  · have hterms := hkeeps row'.id
    rw [KeepsTerms, find_of_mem hrow', map_some] at hterms
    obtain ⟨row, hrow, heq⟩ := map_eq_some_iff.1 hterms.symm
    have hmem := hwf row (find_mem hrow)
    rw [hrow]
    exact ⟨⟨terms_id heq ▸ hmem.2, hmem.1.of_terms heq.symm⟩,
      decide_eq_true (identity_of_terms heq.symm)⟩
  · by_cases hlock : w.rowLocks row.id = none
    · exact .inl (by simp [hlock])
    · exact .inr (hlocks row hrow hlock)

/-- What `strings.TrimSpace` and `strings.ToLower` do to each other's results. -/
structure StringLaws (rt : Runtime) : Prop where
  trim_trim : ∀ s, rt.trimSpace (rt.trimSpace s) = rt.trimSpace s
  lower_lower : ∀ s, rt.toLower (rt.toLower s) = rt.toLower s
  trim_lower : ∀ s, rt.trimSpace (rt.toLower s) = rt.toLower (rt.trimSpace s)

theorem firstOfEach_nodup {α κ : Type*} [DecidableEq κ] (key : α → κ) (xs : List α) :
    ((firstOfEach key xs).map key).Nodup := by
  refine foldlRecOn xs _ (motive := fun kept : List α ↦ (kept.map key).Nodup) nodup_nil ?_
  intro kept hkept x _
  split_ifs with hmem
  · exact hkept
  · rw [map_append, map_singleton]
    exact hkept.append (nodup_singleton _) (by simpa using hmem)

theorem mem_of_mem_firstOfEach {α κ : Type*} [DecidableEq κ] {key : α → κ} {xs : List α} {y : α}
    (h : y ∈ firstOfEach key xs) : y ∈ xs := by
  refine foldlRecOn xs _ (motive := fun kept : List α ↦ ∀ y ∈ kept, y ∈ xs)
    (fun _ h ↦ absurd h not_mem_nil) ?_ y h
  intro kept hkept x hx y hy
  split_ifs at hy with hmem
  · exact hkept y hy
  · rcases mem_append.1 hy with hy | hy
    · exact hkept y hy
    · exact mem_singleton.1 hy ▸ hx

theorem normalizeBonusResource_key (hlaws : StringLaws rt) (r : BonusResource) :
    rt.trimSpace (normalizeBonusResource rt r).resourceKey =
        (normalizeBonusResource rt r).resourceKey ∧
      rt.toLower (normalizeBonusResource rt r).resourceKey =
        (normalizeBonusResource rt r).resourceKey := by
  simp only [normalizeBonusResource]
  split_ifs
  · exact ⟨by rw [hlaws.trim_lower, hlaws.trim_trim], hlaws.lower_lower _⟩
  · exact ⟨hlaws.trim_trim _, by rw [← hlaws.trim_lower, hlaws.lower_lower]⟩

/-- A purchase gives a subscription grants that its refunds can find. -/
theorem newSubscription_wellFormed {id userId : ℤ} {plan : Plan} {group : String}
    {row : SubscriptionRow} (hlaws : StringLaws rt)
    (h : newSubscription rt id now userId plan group = .ok row) :
    GrantsWellFormed rt row.toUserSubscription := by
  obtain ⟨-, -, -, -, -, -, -, -, -, hgrants⟩ := newSubscription_spec h
  have hmem (r : BonusResource)
      (hr : r ∈ normalizeSubscriptionBonusResources rt plan.bonusResources) :
      r.isValid = true ∧ rt.trimSpace r.resourceKey = r.resourceKey ∧
        rt.toLower r.resourceKey = r.resourceKey := by
    have hr := mem_filter.1 (mem_of_mem_firstOfEach (mem_of_mem_take hr))
    obtain ⟨r₀, -, rfl⟩ := mem_map.1 hr.1
    exact ⟨hr.2, normalizeBonusResource_key hlaws r₀⟩
  have hids : row.resourceGrants.map ResourceGrant.identity =
      (normalizeSubscriptionBonusResources rt plan.bonusResources).map
        fun r ↦ r.grant.identity := by
    rw [hgrants, resourceGrants, List.map_map]
    rfl
  refine ⟨fun n hn ↦ ?_, ?_⟩
  · rw [hids] at hn
    obtain ⟨r, hr, rfl⟩ := mem_map.1 hn
    obtain ⟨hvalid, htrim, hlower⟩ := hmem r hr
    have hne : r.resourceKey ≠ "" := by
      simp only [isValid, and_eq_true, not_eq_true', or_eq_false_iff,
        decide_eq_false_iff_not] at hvalid
      exact hvalid.1.1.1.1
    change rt.trimSpace (rt.toLower r.resourceKey) = r.resourceKey ∧
      rt.trimSpace r.resourceKey ≠ "" ∧ r.resourceKey ≠ ""
    rw [hlower, htrim]
    exact ⟨rfl, hne, hne⟩
  · rw [hids]
    -- valid resources have one of two types, so that their grants differ when they do
    have hnodup := (firstOfEach_nodup (fun r : BonusResource ↦ (r.resourceKey, r.resourceType))
      ((plan.bonusResources.map (normalizeBonusResource rt)).filter isValid)).sublist
        ((take_sublist subscriptionMaxBonusResources _).map _)
    refine List.Nodup.of_map (fun n : ResourceType × String ↦
      (n.2, if n.1 = .imageCount then "image_count" else "quota")) ?_
    rw [List.map_map]
    convert hnodup using 1
    refine map_congr_left fun r hr ↦ ?_
    have hvalid := (hmem r hr).1
    simp only [isValid, and_eq_true, or_eq_true, decide_eq_true_eq] at hvalid
    rcases hvalid.1.2 with htype | htype <;> simp [grant, ResourceGrant.identity, htype]

end Moligate.Subscription.Requests
