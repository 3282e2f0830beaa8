import Moligate.Subscription.Buckets

namespace Moligate.Subscription

open Foundation Common List ResourceGrant Call

variable {rt : Runtime} {plans : Plans} {now amount used : ℤ} {db db' : Db}
  {row c s s' : UserSubscription} {r : ResetResult} {req : PreConsumeRequest}
  {resource : Option Entitlement} {result : PreConsumeResult} {grant : ResourceGrant} {index : ℕ}

def ResourceGrant.identity (g : ResourceGrant) : ResourceType × String :=
  (g.resourceType, g.resourceKey)

/-- The grants of a subscription as the purchase stores them: normalized, non-empty keys, and no
two grants with the same key and type. -/
structure GrantsWellFormed (rt : Runtime) (s : UserSubscription) : Prop where
  normalized : ∀ id ∈ s.resourceGrants.map identity,
    rt.trimSpace (rt.toLower id.2) = id.2 ∧ rt.trimSpace id.2 ≠ "" ∧ id.2 ≠ ""
  nodup : (s.resourceGrants.map identity).Nodup

theorem identity_of_terms (h : s'.terms = s.terms) :
    s'.resourceGrants.map identity = s.resourceGrants.map identity := by
  have := congrArg (fun t ↦ t.resourceGrants.map identity) h
  simp only [UserSubscription.terms, map_map] at this
  exact this

theorem GrantsWellFormed.of_terms (h : GrantsWellFormed rt s) (hterms : s'.terms = s.terms) :
    GrantsWellFormed rt s' := by
  have hid := identity_of_terms hterms
  exact ⟨hid ▸ h.normalized, hid ▸ h.nodup⟩

theorem findIdx_of_nodup {α β : Type*} [DecidableEq β] {f : α → β} {xs : List α} {n : ℕ} {x : α}
    (hn : (xs.map f).Nodup) (hx : xs[n]? = some x) : xs.findIdx? (fun y ↦ f y = f x) = some n := by
  induction xs generalizing n with
  | nil => simp at hx
  | cons y ys ih =>
    rw [map_cons, nodup_cons] at hn
    cases n with
    | zero =>
      obtain rfl : y = x := by simpa using hx
      simp [findIdx?_cons]
    | succ n =>
      have hne : f y ≠ f x := fun he ↦
        hn.1 (he ▸ mem_map_of_mem (mem_of_getElem? hx))
      simp [findIdx?_cons, hne, ih hn.2 hx]

theorem GrantsWellFormed.find (h : GrantsWellFormed rt s)
    (hgrant : s.resourceGrants[index]? = some grant) (htype : grant.resourceType = .quota) :
    s.resourceGrants.findIdx? (isQuotaGrant grant.resourceKey) = some index := by
  rw [← findIdx_of_nodup h.nodup hgrant]
  congr 1
  funext g
  simp [isQuotaGrant, identity, htype]

theorem usageHasCapacity_range {limit : ℤ} (h : usageHasCapacity limit used amount = true) :
    0 < amount ∧ 0 ≤ used ∧ used + amount ≤ maxInt64 := by
  rw [usageHasCapacity] at h
  split at h
  · simp at h
  · omega

theorem chooseGrant_spec {grants : List ResourceGrant} {modelName : String} {charge : ℤ}
    (h : chooseGrant rt grants modelName resource amount = .grant index charge)
    (hgrant : grants[index]? = some grant) :
    usageHasCapacity grant.amount grant.used charge = true ∧
      (grant.resourceType = .quota → charge = amount) := by
  unfold chooseGrant at h
  split at h
  · simp at h
  rename_i ent
  dsimp only at h
  split at h
  next i hi =>
    obtain ⟨rfl, rfl⟩ := GrantChoice.grant.inj h
    obtain ⟨hlt, hp, -⟩ := findIdx?_eq_some_iff_getElem.1 hi
    rw [getElem?_eq_getElem hlt, Option.some.injEq] at hgrant
    rw [hgrant, Bool.and_eq_true, Bool.and_eq_true, decide_eq_true_eq] at hp
    refine ⟨hp.2, fun ht ↦ ?_⟩
    rw [Entitlement.charge, if_pos (hp.1.1 ▸ ht)]
  · split at h <;> simp at h

/-- A reservation that was just made: its record, and the bucket that it was charged to. Image
generations are counted apart from the price. -/
structure Reserved (rt : Runtime) (requestId : String) (db db' : Db) (result : PreConsumeResult) :
    Prop where
  record : ∃ record, db'.records.find requestId = some record ∧ record.status = .consumed ∧
    record.userSubscriptionId = result.userSubscriptionId ∧
    record.preConsumed = result.preConsumed ∧ record.resourceKey = result.resourceKey ∧
    record.resourceType = result.resourceType ∧
    record.resourceAmount = result.resourcePreConsumed
  bucket : result.resourceType = some .imageCount ∧ result.resourceKey ≠ "" ∨ ∃ b used, 0 ≤ used ∧
    Holds db' result.userSubscriptionId b (used + result.preConsumed) ∧
    db'.taken = db.taken + result.preConsumed ∧
    (b = .primary ∧ result.resourceKey = "" ∨
      b = .grant result.resourceKey ∧ result.resourceType = some .quota ∧
        result.resourcePreConsumed = result.preConsumed ∧
        rt.trimSpace (rt.toLower result.resourceKey) = result.resourceKey ∧
        rt.trimSpace result.resourceKey ≠ "" ∧ result.resourceKey ≠ "")

theorem ChargedTo.reserved {record : PreConsumeRecord} {primary taken : ℤ}
    {records : Table PreConsumeRecord.requestId} {cleared : Period → Bool}
    (hfind : db.subs.find row.id = some row) (hr : ResetSpec rt row now r)
    (hwf : GrantsWellFormed rt row) (hcreate : db.records.create record = some records)
    (h : ChargedTo rt req resource r record s primary taken result) :
    Reserved rt req.requestId db ({ db with records }.use s now cleared primary taken) result := by
  have hid : r.sub.id = row.id := terms_id hr.terms
  have hrecord : records.find req.requestId = some record := by
    rw [← h.requestId]
    exact (Table.find_create hcreate).trans (if_pos rfl)
  cases h with
  | @grant amount charge used index grant hchoose hgrant hused =>
    refine ⟨⟨_, hrecord, rfl, rfl, rfl, rfl, rfl, rfl⟩, ?_⟩
    have hwf' := hwf.of_terms hr.terms
    obtain ⟨hnorm, htrim, hkey⟩ :=
      hwf'.normalized grant.identity (mem_map_of_mem (mem_of_getElem? hgrant))
    cases htype : grant.resourceType with
    | imageCount => exact .inl ⟨rfl, hkey⟩
    | quota =>
      obtain ⟨hcap, hcharge⟩ := chooseGrant_spec hchoose hgrant
      obtain rfl := hcharge htype
      obtain ⟨hpos, hnonneg, hrange⟩ := usageHasCapacity_range hcap
      obtain ⟨rfl, -⟩ := applyUsageDelta_exact (by omega) (by omega) hused
      refine .inr ⟨.grant grant.resourceKey, grant.used, hnonneg, ⟨by dsimp only; omega, hrange,
        _, Table.find_save_of_key rfl (hid ▸ hfind), hr.version,
        setGrantUsed_holds (hwf'.find hgrant htype) hgrant _⟩, ?_, .inr ⟨rfl, ?_⟩⟩
      · simp only [Db.use]
        omega
      · exact ⟨rfl, rfl, hnorm, htrim, hkey⟩
  | primary hcap hsub =>
    refine ⟨⟨_, hrecord, rfl, rfl, rfl, rfl, rfl, rfl⟩, .inr ?_⟩
    obtain ⟨hterms, hversion, hcharged⟩ := chargePrimary_spec hcap hsub
    have hprimary : usageHasCapacity r.sub.amountTotal r.sub.amountUsed primary = true := by
      simp only [hasPrimaryCapacity, Bool.and_eq_true] at hcap
      exact hcap.1.1.1
    obtain ⟨hpos, hnonneg, hrange⟩ := usageHasCapacity_range hprimary
    obtain ⟨heq, -⟩ := applyUsageDelta_exact (by omega) (by omega)
      (chargePrimary_eq_ok.1 hsub).total
    have hsubid : s.id = r.sub.id := terms_id hterms
    refine ⟨.primary, r.sub.amountUsed, hnonneg, ⟨by dsimp only; omega, hrange, s, ?_,
      hversion ▸ hr.version, heq, fun p hp ↦ ?_⟩, ?_, .inl ⟨rfl, rfl⟩⟩
    · exact Table.find_save_of_key hsubid (hid ▸ hfind)
    · rw [terms_period hterms] at hp
      exact (hcharged p hp).after
    · simp only [Db.use]
      omega

theorem preConsumeLoop_reserved {cs : List UserSubscription}
    (hnodup : (cs.map UserSubscription.id).Nodup) (hfind : ∀ c ∈ cs, db.subs.find c.id = some c)
    (hwf : ∀ c ∈ cs, GrantsWellFormed rt c) (hfresh : db.records.find req.requestId = none)
    (h : preConsumeLoop rt plans now req resource db cs = .ok (db', result)) :
    Reserved rt req.requestId db db' result := by
  refine preConsumeLoop_rule (motive := fun db cs ↦ (∀ c ∈ cs, GrantsWellFormed rt c) →
    db.records.find req.requestId = none → Reserved rt req.requestId db db' result)
    ?_ ?_ hnodup hfind h hwf hfresh
  · intro db c cs hc htry hwf hfresh
    cases tryCandidate_tried htry with
    | replayed _ _ hrecord => cases hfresh.symm.trans hrecord
    | charged _ hr hcreate hcharge =>
      exact hcharge.reserved hc hr.spec (hwf c mem_cons_self) hcreate
  · intro db db₁ c cs hc hnew htry ih hwf hfresh
    have hpassed : db₁.records = db.records ∧ db₁.taken = db.taken := by
      cases tryCandidate_tried htry with
      | skipped => exact ⟨rfl, rfl⟩
      | passed => exact ⟨rfl, add_zero _⟩
    have hrest := ih (fun d hd ↦ hwf d (mem_cons_of_mem c hd)) (hpassed.1 ▸ hfresh)
    exact ⟨hrest.record, by rw [← hpassed.2]; exact hrest.bucket⟩

theorem preConsume_reserved (hfresh : db.records.find req.requestId = none)
    (hwf : ∀ row ∈ db.subs.rows, GrantsWellFormed rt row)
    (h : preConsumeUserSubscription rt plans now db req = .ok (db', result)) :
    rt.trimSpace req.requestId ≠ "" ∧ Reserved rt req.requestId db db' result := by
  obtain ⟨_, hcheck, h⟩ := bind_eq_ok.1 h
  refine ⟨?_, ?_⟩
  · simp only [checkRequest, bind_eq_ok, check_eq_ok] at hcheck
    obtain ⟨_, -, _, hid, -⟩ := hcheck
    simpa using hid
  · simp only [hfresh] at h
    obtain ⟨_, -, hloop⟩ := bind_eq_ok.1 h
    exact preConsumeLoop_reserved candidates_nodup
      (fun c hc ↦ Table.find_of_mem (mem_candidates.1 hc).1)
      (fun c hc ↦ hwf c (mem_candidates.1 hc).1) hfresh hloop

end Moligate.Subscription
