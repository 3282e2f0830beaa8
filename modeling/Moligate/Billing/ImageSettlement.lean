import Moligate.Billing.Session
import Moligate.Foundation.Tx
import Moligate.Subscription.Counters

namespace Moligate.Billing

open Foundation Common Subscription Call

section

variable (rt : Runtime) (m : Moment)

/-- The transaction of `SettleUserSubscriptionImageResourceDeltaWithQuota`, statement by statement:
the reset has saved its row before the grant and the overage are looked at. -/
def settleImageStatements (userSubscriptionId : ℤ) (resourceKey : String)
    (resourceDelta quotaPerImage : ℤ) : Tx Db (Option SubscriptionError) ℤ := do
  let db ← .get
  let row ← .required (some .recordNotFound) (db.subs.find userSubscriptionId)
  let r ← .ofExcept (resetBeforeSettle rt m.plans m.now row).toExcept
  .modify fun db ↦ { db with subs := db.subs.save r.stored }
  let key := rt.trimSpace (rt.toLower resourceKey)
  let index ← .required (some .imageGrantNotFound) (r.sub.resourceGrants.findIdx? fun g ↦
    g.resourceType = .imageCount && g.resourceKey = key)
  let grant ← .required (some .imageGrantNotFound) r.sub.resourceGrants[index]?
  let share := grantShare grant resourceDelta
  let used ← .ofExcept ((applyUsageDelta grant.used share).mapError (some ∘ .imageUpdateFailed))
  let out ← .ofExcept
    (chargeOverage (setGrantUsed r.sub index used) (resourceDelta - share) quotaPerImage).toExcept
  let taken := used - grant.used + (out.1.amountUsed - r.sub.amountUsed)
  .modify fun db ↦ db.use out.1 m.now r.cleared out.2 taken
  pure out.2

def runImageSettlement (db : Db) (userSubscriptionId : ℤ) (resourceKey : String)
    (resourceDelta quotaPerImage : ℤ) : Except (Option SubscriptionError) ℤ × Db :=
  if userSubscriptionId ≤ 0 then (.error (some .invalidUserSubscriptionId), db)
  else if rt.trimSpace resourceKey = "" then (.error (some .resourceKeyEmpty), db)
  else if resourceDelta = minInt64 ∨ maxQuota < resourceDelta ∨ resourceDelta < -maxQuota then
    (.error (some .imageDeltaExceedsLimit), db)
  else if quotaPerImage < 0 ∨ maxQuota < quotaPerImage then
    (.error (some .imageUnitExceedsLimit), db)
  else if resourceDelta = 0 then (.ok 0, db)
  else (settleImageStatements rt m userSubscriptionId resourceKey resourceDelta quotaPerImage).run db

def imageUnitFor (f : SubscriptionFunding) (delta : ℤ) : Except SubscriptionError ℤ :=
  if delta ≤ 0 then .ok 0
  else if f.resourcePreConsumed ≤ 0 ∨ f.preConsumed ≤ 0 then .error .imageUnitMissing
  else imageUnit f

/-- `settleImageCount` with the database and the funding that it leaves, also when it fails. -/
def runSettleImageCount (f : SubscriptionFunding) (db : Db) (actual : ℤ) :
    Except (Option SubscriptionError) ℤ × SubscriptionFunding × Db :=
  match f.resource.filter fun r ↦ r.resourceType = .imageCount with
  | none => (.ok 0, f, db)
  | some r =>
    if actual < 0 ∨ maxImageN < actual then (.error (some .invalidImageCount), f, db)
    else if f.imageCountSettled then (.ok f.imageQuotaSettled, f, db)
    else if actual - f.resourcePreConsumed = 0 then
      (.ok 0, { f with imageCountSettled := true }, db)
    else
      match imageUnitFor f (actual - f.resourcePreConsumed) with
      | .error e => (.error (some e), f, db)
      | .ok unit =>
        match runImageSettlement rt m db f.subscriptionId r.resourceKey
          (actual - f.resourcePreConsumed) unit with
        | (.error e, db) => (.error e, f, db)
        | (.ok applied, db) =>
          (.ok applied,
            { f with
              imageCountSettled := true
              resourcePreConsumed := actual
              imageQuotaSettled := applied }, db)

end

variable {rt : Runtime} {m : Moment} {f f' : SubscriptionFunding} {db db' : Db}
  {row row' : UserSubscription} {r : ResetResult} {i delta unit n actual : ℤ} {key : String}

structure OverageCharged (s : UserSubscription) (quota : ℤ) (s' : UserSubscription) : Prop where
  nonneg : 0 ≤ quota
  terms : s'.terms = s.terms
  grants : s'.resourceGrants = s.resourceGrants
  counter : ∀ x, s.counts x = true → s'.counter x = s.counter x + quota
  limit : ∀ x, 0 < s.limit x → s'.counter x ≤ max (s.limit x) (s.counter x)

theorem OverageCharged.refl (s : UserSubscription) : OverageCharged s 0 s where
  nonneg := le_rfl
  terms := rfl
  grants := rfl
  counter _ _ := (add_zero _).symm
  limit _ _ := le_max_right _ _

theorem chargeOverage_spec {s s' : UserSubscription} {overage quota : ℤ} (hoverage : 0 ≤ overage)
    (h : chargeOverage s overage unit = .ok (s', quota)) :
    quota = unit * overage ∧ OverageCharged s quota s' := by
  rw [chargeOverage] at h
  split_ifs at h with hnone hunit
  · cases h
    obtain rfl : overage = 0 := by omega
    exact ⟨(mul_zero unit).symm, .refl s⟩
  · have hquota : 0 < unit * overage := mul_pos (by omega) (by omega)
    split at h
    iterate 2 exact nomatch h
    rename_i sub hsub
    cases h
    obtain ⟨hdrawn, hlimit⟩ := applySubscriptionQuotaDelta_drawn hsub
    refine ⟨rfl, hquota.le, hdrawn.terms, by rw [hdrawn.rest], fun x hx ↦ ?_, fun x hx ↦ ?_⟩
    · obtain ⟨hcounter, -, -, -, hexact⟩ := applyUsageDelta_spec (hdrawn.counter hx)
      exact hexact (by omega) (by simp only [minInt64]; omega)
    · refine le_max_of_le_left ?_
      cases x with
      | total => exact (hlimit hquota).1 hx
      | period p => exact (hlimit hquota).2 p hx

theorem grantShare_le (grant : ResourceGrant) (delta : ℤ) : grantShare grant delta ≤ delta := by
  rw [grantShare]
  split_ifs
  · exact min_le_left _ _
  · exact min_le_left _ _
  · exact le_rfl

theorem grantShare_nonpos (grant : ResourceGrant) (hdelta : delta ≤ 0) :
    grantShare grant delta = delta := by
  rw [grantShare, if_neg (by omega)]

theorem grantShare_full (grant : ResourceGrant) (delta : ℤ) :
    (delta - grantShare grant delta ≠ 0 →
        0 < grant.amount ∧ grant.amount ≤ grant.used + grantShare grant delta) ∧
      (0 < grant.amount →
        grant.used + grantShare grant delta ≤ max grant.amount grant.used) := by
  rw [grantShare]
  split_ifs <;> omega

/-- A transaction that commits has done what the settlement of the tables does in one step. -/
theorem settleImageStatements_ok
    (h : (settleImageStatements rt m i key delta unit).run db = (.ok n, db')) :
    settleImageResourceDeltaTx rt m.plans m.now db i key delta unit = .ok (db', n) := by
  have h := Tx.run_ok h
  simp only [settleImageStatements, Tx.get_bind, Tx.required_bind_eq_ok, Tx.ofExcept_bind_eq_ok,
    Tx.modify_bind, toExcept_eq_ok, mapError_eq_ok] at h
  obtain ⟨row, hrow, r, hr, index, hindex, grant, hgrant, used, hused, ⟨sub, quota⟩, hout, h⟩ := h
  obtain ⟨rfl, rfl⟩ := h
  have hid : r.stored.id = sub.id := by
    have hoverage : 0 ≤ delta - grantShare grant delta := Int.sub_nonneg.2 (grantShare_le grant delta)
    have hterms := (chargeOverage_spec hoverage hout).2.terms.trans
      (setGrantUsed_spec r.sub index used).1
    rw [terms_id (resetBeforeSettle_terms hr).2, terms_id (hterms.trans (resetBeforeSettle_terms hr).1)]
  simp only [settleImageResourceDeltaTx, bind_eq_ok, required_eq_ok, ofExcept_eq_ok, mapError_eq_ok]
  refine ⟨row, hrow, r, hr, index, hindex, grant, hgrant, used, hused, (sub, quota), hout, ?_⟩
  rw [pure_eq_ok]
  simp only [Db.use, Prod.mk.injEq, and_true]
  rw [Table.save_save hid]

theorem runImageSettlement_ok (h : runImageSettlement rt m db i key delta unit = (.ok n, db')) :
    settleUserSubscriptionImageResourceDeltaWithQuota rt m.plans m.now db i key delta unit =
      .ok (db', n) := by
  rw [runImageSettlement] at h
  rw [settleUserSubscriptionImageResourceDeltaWithQuota]
  split_ifs at h ⊢
  iterate 4 simp at h
  · obtain ⟨hn, rfl⟩ := Prod.mk.inj h
    rw [Except.ok.inj hn]
  · exact settleImageStatements_ok h

variable {e : Option SubscriptionError} {res : FundingResource} {grant : ResourceGrant} {index : ℕ}

theorem runImageSettlement_error
    (h : runImageSettlement rt m db i key delta unit = (.error e, db')) : db' = db := by
  rw [runImageSettlement] at h
  split_ifs at h
  iterate 5 exact (Prod.mk.inj h).2.symm
  · exact Tx.run_error h

theorem imageUnitFor_ok (h : imageUnitFor f delta = .ok unit) :
    (delta ≤ 0 || 0 < f.resourcePreConsumed && 0 < f.preConsumed) = true ∧
      (if 0 < delta then imageUnit f else .ok 0) = .ok unit := by
  rw [imageUnitFor] at h
  split_ifs at h with hdelta hreserved
  · simp [hdelta, not_lt.2 hdelta, h]
  · have hpos : 0 < f.resourcePreConsumed ∧ 0 < f.preConsumed := by omega
    simp [hpos, not_le.1 hdelta, h]

theorem toInt_of_strictUnit {value : Float64} {op : String}
    (h : (match strictQuota (saturateQuota value op) with
      | .error c => .error (.clamp c)
      | .ok unit => .ok unit : Except SubscriptionError ℤ) = .ok unit) : unit = value.toInt := by
  split at h
  · exact nomatch h
  next hstrict => rw [← Except.ok.inj h, toInt_of_strictQuota hstrict]

theorem imageUnit_eq_round (h : imageUnit f = .ok unit) :
    unit = roundDecimal
      (round ((f.preConsumed : ℚ) / f.resourcePreConsumed * 10 ^ 16) / 10 ^ 16) :=
  toInt_of_strictUnit h

/-- The price of an image is the exact quotient to the nearest integer: the 16 decimal places of
the division do not move it. -/
theorem imageUnit_exact (hr : 0 < f.resourcePreConsumed) (hmax : f.resourcePreConsumed ≤ maxImageN)
    (hp : 0 < f.preConsumed) (h : imageUnit f = .ok unit) :
    unit = roundDecimal ((f.preConsumed : ℚ) / f.resourcePreConsumed) := by
  have hplaces : (10 ^ 16 : ℚ) = 2 * ((5 * 10 ^ 15 : ℤ) : ℚ) := by norm_num
  have hround := floor_round_add_half (p := f.preConsumed) (h := 5 * 10 ^ 15) hr
    (by simp only [maxImageN] at hmax; omega)
  rw [← hplaces] at hround
  have hr₀ : (0 : ℚ) < f.resourcePreConsumed := Int.cast_pos.2 hr
  have hp₀ : (0 : ℚ) < f.preConsumed := Int.cast_pos.2 hp
  have hquotient : (0 : ℚ) ≤ f.preConsumed / f.resourcePreConsumed := by positivity
  have hrounded : (0 : ℚ) ≤
      round ((f.preConsumed : ℚ) / f.resourcePreConsumed * 10 ^ 16) / 10 ^ 16 := by
    have hint : 0 ≤ round ((f.preConsumed : ℚ) / f.resourcePreConsumed * 10 ^ 16) := by
      rw [round_eq]
      exact Int.floor_nonneg.2 (by positivity)
    have hcast : (0 : ℚ) ≤ round ((f.preConsumed : ℚ) / f.resourcePreConsumed * 10 ^ 16) :=
      Int.cast_nonneg hint
    positivity
  rw [imageUnit_eq_round h, roundDecimal_of_nonneg hrounded, hround,
    roundDecimal_of_nonneg hquotient]

theorem imageResource_eq (hres : f.resource = some res) (htype : res.resourceType = .imageCount) :
    (f.resource.filter fun r ↦ r.resourceType = .imageCount) = some res := by
  simp [hres, htype]

theorem runSettleImageCount_fresh (hres : f.resource = some res)
    (htype : res.resourceType = .imageCount) (hfresh : f.imageCountSettled = false)
    (h : runSettleImageCount rt m f db actual = (.ok n, f', db')) :
    0 ≤ actual ∧ actual ≤ maxImageN ∧
      (actual = f.resourcePreConsumed ∧ n = 0 ∧ db' = db ∧
          f' = { f with imageCountSettled := true } ∨
        actual ≠ f.resourcePreConsumed ∧
          ∃ unit, imageUnitFor f (actual - f.resourcePreConsumed) = .ok unit ∧
          runImageSettlement rt m db f.subscriptionId res.resourceKey
            (actual - f.resourcePreConsumed) unit = (.ok n, db') ∧
          f' = { f with
            imageCountSettled := true
            resourcePreConsumed := actual
            imageQuotaSettled := n }) := by
  have hfilter := imageResource_eq hres htype
  simp only [runSettleImageCount, hfilter] at h
  split_ifs at h with hrange hsettled hzero
  · simp at h
  · rw [hfresh] at hsettled
    exact nomatch hsettled
  · obtain ⟨rfl, rfl, rfl⟩ := h
    exact ⟨by omega, by omega, .inl ⟨by omega, rfl, rfl, rfl⟩⟩
  · cases hunit : imageUnitFor f (actual - f.resourcePreConsumed) with
    | error e => simp [hunit] at h
    | ok unit =>
      rcases hrun : runImageSettlement rt m db f.subscriptionId res.resourceKey
        (actual - f.resourcePreConsumed) unit with ⟨_ | applied, db₁⟩
      · simp [hunit, hrun] at h
      · simp only [hunit, hrun, Prod.mk.injEq, Except.ok.injEq] at h
        obtain ⟨rfl, rfl, rfl⟩ := h
        exact ⟨by omega, by omega, .inr ⟨by omega, unit, rfl, hrun, rfl⟩⟩

theorem settleImageCount_of_run (hres : f.resource = some res)
    (htype : res.resourceType = .imageCount) (hfresh : f.imageCountSettled = false)
    (h : runSettleImageCount rt m f db actual = (.ok n, f', db')) :
    f.settleImageCount rt m db actual = .ok (db', f', n) := by
  have hfilter := imageResource_eq hres htype
  obtain ⟨hmin, hmax, hcases⟩ := runSettleImageCount_fresh hres htype hfresh h
  have hcheck : (decide (0 ≤ actual) && decide (actual ≤ maxImageN)) = true := by
    simp [hmin, hmax]
  simp only [SubscriptionFunding.settleImageCount, hfilter, bind_eq_ok, check_eq_ok,
    hfresh, Bool.false_eq_true, if_false]
  refine ⟨(), hcheck, ?_⟩
  rcases hcases with ⟨rfl, rfl, rfl, rfl⟩ | ⟨hne, unit, hunit, hrun, rfl⟩
  · rw [if_pos (sub_self _)]
    rfl
  · obtain ⟨hreserved, hprice⟩ := imageUnitFor_ok hunit
    rw [if_neg (sub_ne_zero.2 hne)]
    simp only [bind_eq_ok, check_eq_ok, ofExcept_eq_ok]
    exact ⟨(), hreserved, unit, hprice, (db', n), runImageSettlement_ok hrun, rfl⟩

def isImageGrant (rt : Runtime) (resourceKey : String) (g : ResourceGrant) : Bool :=
  g.resourceType = .imageCount && g.resourceKey = rt.trimSpace (rt.toLower resourceKey)

/-- A settlement has charged `g` further images to the grant, and `quota` to the primary quota for
`o` that the grant does not cover. A counter that was above its limit before may stay there. -/
structure ImagesCharged (row : UserSubscription) (index : ℕ) (grant : ResourceGrant)
    (g o quota : ℤ) (row' : UserSubscription) : Prop where
  grants : row'.resourceGrants =
    row.resourceGrants.modify index fun x ↦ { x with used := grant.used + g }
  counter : ∀ x, row.counts x = true → row'.counter x = row.counter x + quota
  full : o ≠ 0 → 0 < grant.amount ∧ grant.amount ≤ grant.used + g
  grantLimit : 0 < grant.amount → grant.used + g ≤ max grant.amount grant.used
  limit : ∀ x, 0 < row.limit x → row'.counter x ≤ max (row.limit x) (row.counter x)

theorem counts_of_limit {x : Counter} (h : 0 < row.limit x) : row.counts x = true := by
  cases x with
  | total => rfl
  | period p => exact decide_eq_true h

theorem limit_of_terms (h : row'.terms = row.terms) (x : Counter) : row'.limit x = row.limit x := by
  cases x with
  | total => exact (congrArg UserSubscription.amountTotal h :)
  | period p => exact terms_period h p

/-- The grant takes its share exactly as long as it holds what is given back. -/
theorem settled_share {used : ℤ} (hheld : 0 ≤ grant.used + delta) (hmin : delta ≠ minInt64)
    (h : applyUsageDelta grant.used (grantShare grant delta) = .ok used) :
    used = grant.used + grantShare grant delta := by
  obtain ⟨hnonneg, -, -, -, hexact⟩ := applyUsageDelta_spec h
  rcases le_total delta 0 with hdelta | hdelta
  · rw [grantShare_nonpos grant hdelta] at hexact ⊢
    exact hexact hheld hmin
  · have hshare : 0 ≤ grantShare grant delta := by
      rw [grantShare]
      split_ifs <;> omega
    exact hexact (by omega) (by simp only [minInt64]; omega)

theorem settleImageResourceDeltaTx_charged (hrow : db.subs.find i = some row)
    (hindex : row.resourceGrants.findIdx? (isImageGrant rt key) = some index)
    (hgrant : row.resourceGrants[index]? = some grant)
    (hdue : ∀ x, row.counts x = true → counterDue rt m.plans m.now row x = false)
    (hheld : 0 ≤ grant.used + delta) (hmin : delta ≠ minInt64)
    (h : settleImageResourceDeltaTx rt m.plans m.now db i key delta unit = .ok (db', n)) :
    ∃ row' g o, db'.subs.find i = some row' ∧ g + o = delta ∧ n = unit * o ∧
      ImagesCharged row index grant g o n row' ∧ (o ≠ 0 → 0 < delta) := by
  simp only [settleImageResourceDeltaTx, bind_eq_ok, required_eq_ok,
    ofExcept_eq_ok, mapError_eq_ok] at h
  obtain ⟨row₁, hrow₁, r, hr, index₁, hindex₁, grant₁, hgrant₁, used, hused, ⟨sub, quota⟩, hout,
    hdb⟩ := h
  obtain rfl : row = row₁ := Option.some.inj (hrow.symm.trans hrow₁)
  rw [resetBeforeSettle_grants (hdue .total rfl) hr] at hindex₁ hgrant₁
  obtain rfl : index = index₁ := Option.some.inj (hindex.symm.trans hindex₁)
  obtain rfl : grant = grant₁ := Option.some.inj (hgrant.symm.trans hgrant₁)
  cases hdb
  set share := grantShare grant delta with hshare
  have hle : share ≤ delta := grantShare_le grant delta
  obtain ⟨hquota, hcharged⟩ := chargeOverage_spec (Int.sub_nonneg.2 hle) hout
  have hexact : used = grant.used + share := settled_share hheld hmin hused
  have hterms : sub.terms = row.terms :=
    hcharged.terms.trans ((setGrantUsed_spec r.sub index used).1.trans (resetBeforeSettle_terms hr).1)
  have hid : sub.id = i := (terms_id hterms).trans (Table.key_of_find hrow)
  have hbase : ∀ x, row.counts x = true →
      (setGrantUsed r.sub index used).counter x = row.counter x := by
    intro x hx
    rw [setGrantUsed_counter, (resetBeforeSettle_counter hx hr).1, counterBase, hdue x hx]
    rfl
  have hsame : (setGrantUsed r.sub index used).terms = row.terms :=
    (setGrantUsed_spec r.sub index used).1.trans (resetBeforeSettle_terms hr).1
  have hcharge : ImagesCharged row index grant share (delta - share) quota sub := by
    refine ⟨?_, fun x hx ↦ ?_, (grantShare_full grant delta).1, (grantShare_full grant delta).2,
      fun x hx ↦ ?_⟩
    · rw [hcharged.grants, setGrantUsed, resetBeforeSettle_grants (hdue .total rfl) hr, hexact]
    · rw [← hbase x hx]
      exact hcharged.counter x (by rwa [counts_of_terms hsame])
    · have hlimit := hcharged.limit x (by rwa [limit_of_terms hsame])
      rwa [limit_of_terms hsame, hbase x (counts_of_limit hx)] at hlimit
  refine ⟨sub, share, delta - share, ?_, by omega, hquota, hcharge, fun ho ↦ ?_⟩
  · exact Table.find_save_of_key hid hrow
  · by_contra hneg
    exact ho (by rw [hshare, grantShare_nonpos grant (not_lt.1 hneg), sub_self])

theorem ImagesCharged.refl (hgrant : row.resourceGrants[index]? = some grant) :
    ImagesCharged row index grant 0 0 0 row where
  grants := by
    refine List.ext_getElem? fun n ↦ ?_
    by_cases hn : index = n
    · subst hn
      simp [hgrant]
    · simp [hn]
  counter _ _ := (add_zero _).symm
  full h := absurd rfl h
  grantLimit _ := by rw [add_zero]; exact le_max_right _ _
  limit _ _ := le_max_right _ _

theorem runSettleImageCount_error (h : runSettleImageCount rt m f db actual = (.error e, f', db')) :
    f' = f ∧ db' = db := by
  simp only [runSettleImageCount] at h
  split at h
  · simp at h
  rename_i res hres
  split_ifs at h
  · cases h
    exact ⟨rfl, rfl⟩
  iterate 2 cases h
  split at h
  · cases h
    exact ⟨rfl, rfl⟩
  · split at h
    next hrun =>
      cases h
      exact ⟨rfl, runImageSettlement_error hrun⟩
    · cases h

theorem runSettleImageCount_again (hres : f.resource = some res)
    (htype : res.resourceType = .imageCount) (hsettled : f.imageCountSettled = true)
    (hrange : 0 ≤ actual ∧ actual ≤ maxImageN) :
    runSettleImageCount rt m f db actual = (.ok f.imageQuotaSettled, f, db) := by
  have hfilter := imageResource_eq hres htype
  simp only [runSettleImageCount, hfilter]
  rw [if_neg (by omega), if_pos hsettled]

/-- A reservation of images that is not settled yet, the grant that holds it, and no reset that
would come before its settlement at `m`. -/
structure ImagesReserved (rt : Runtime) (m : Moment) (f : SubscriptionFunding) (db : Db)
    (row : UserSubscription) (index : ℕ) (grant : ResourceGrant) : Prop where
  resource : ∃ res, f.resource = some res ∧ res.resourceType = .imageCount ∧
    row.resourceGrants.findIdx? (isImageGrant rt res.resourceKey) = some index
  unsettled : f.imageCountSettled = false ∧ f.imageQuotaSettled = 0
  find : db.subs.find f.subscriptionId = some row
  get : row.resourceGrants[index]? = some grant
  held : f.resourcePreConsumed ≤ grant.used
  noReset : ∀ x, row.counts x = true → counterDue rt m.plans m.now row x = false

theorem image_settlement_exact {index : ℕ} {grant : ResourceGrant}
    (hreserved : ImagesReserved rt m f db row index grant) (actual : ℤ) :
    (∀ n f' db', runSettleImageCount rt m f db actual = (.ok n, f', db') →
      (∃ row' g o, db'.subs.find f.subscriptionId = some row' ∧
        g + o = actual - f.resourcePreConsumed ∧
        n = roundDecimal ((f.preConsumed : ℚ) / f.resourcePreConsumed) * o ∧
        ImagesCharged row index grant g o n row') ∧
      ∀ m' db'' again, 0 ≤ again → again ≤ maxImageN →
        runSettleImageCount rt m' f' db'' again = (.ok n, f', db'')) ∧
    ∀ e f' db', runSettleImageCount rt m f db actual = (.error e, f', db') →
      f' = f ∧ db' = db := by
  obtain ⟨res, hres, htype, hindex⟩ := hreserved.resource
  obtain ⟨hfresh, hquota⟩ := hreserved.unsettled
  refine ⟨fun n f' db' h ↦ ?_, fun e f' db' h ↦ runSettleImageCount_error h⟩
  obtain ⟨hmin, hmax, hsame | ⟨-, unit, hunit, hrun, rfl⟩⟩ :=
    runSettleImageCount_fresh hres htype hfresh h
  · obtain ⟨hactual, rfl, rfl, rfl⟩ := hsame
    refine ⟨⟨row, 0, 0, hreserved.find, by omega, (mul_zero _).symm, .refl hreserved.get⟩, ?_⟩
    intro m' db'' again h₀ h₁
    rw [runSettleImageCount_again (f := { f with imageCountSettled := true }) hres htype rfl
      ⟨h₀, h₁⟩]
    exact Prod.ext (congrArg Except.ok hquota) rfl
  · have hheld := hreserved.held
    obtain ⟨row', g, o, hrow', hsum, rfl, hcharged, hmore⟩ :
        ∃ row' g o, db'.subs.find f.subscriptionId = some row' ∧
          g + o = actual - f.resourcePreConsumed ∧ n = unit * o ∧
          ImagesCharged row index grant g o n row' ∧ (o ≠ 0 → 0 < actual - f.resourcePreConsumed) := by
      have hsettle := runImageSettlement_ok hrun
      rw [settleUserSubscriptionImageResourceDeltaWithQuota] at hsettle
      split_ifs at hsettle with hid hkey hrange hunit hzero
      · cases hsettle
        exact ⟨row, 0, 0, hreserved.find, by omega, (mul_zero _).symm, .refl hreserved.get,
          fun h ↦ absurd rfl h⟩
      · exact settleImageResourceDeltaTx_charged hreserved.find hindex hreserved.get
          hreserved.noReset (by omega) (by omega) hsettle
    refine ⟨⟨row', g, o, hrow', hsum, ?_, hcharged⟩, fun m' db'' again h₀ h₁ ↦ ?_⟩
    · by_cases hzero : o = 0
      · rw [hzero, mul_zero, mul_zero]
      -- only additional images have a price
      · have hdelta := hmore hzero
        rw [imageUnitFor, if_neg (not_le.2 hdelta)] at hunit
        split_ifs at hunit with hpaid
        rw [imageUnit_exact (by omega) (by omega) (by omega) hunit]
    exact runSettleImageCount_again (by exact hres) htype rfl ⟨h₀, h₁⟩

def plainRuntime : Runtime := ⟨0, .finite, id, id⟩

def imageGrant (used : ℤ) : ResourceGrant := ⟨"image", .imageCount, "image", 5, used⟩

def imageRow (amountUsed used : ℤ) : UserSubscription where
  id := 1
  userId := 1
  planId := 1
  amountTotal := 10
  amountUsed
  daily := {}
  weekly := {}
  monthly := {}
  periodResetAnchorVersion := 1
  startTime := 0
  endTime := 100
  status := .active
  lastResetTime := 0
  nextResetTime := 0
  applicableGroups := []
  modelFamily := ""
  includedModels := []
  billingRatio := .finite 1
  resourceGrants := [imageGrant used]

def imageDb (row : UserSubscription) : Db where
  subs := ⟨[row], by simp⟩
  records := ⟨[], List.nodup_nil⟩
  history := []
  taken := 0

def imageFunding : SubscriptionFunding where
  requestId := "r"
  userId := 1
  modelName := "image"
  effectiveGroup := ""
  amount := 5
  request := none
  pricing := none
  subscriptionId := 1
  preConsumed := 5
  resource := some ⟨"image", .imageCount, 2⟩
  resourcePreConsumed := 2

def plainMoment : Moment := ⟨10, fun _ ↦ some ⟨1, "never", 0⟩⟩

theorem imagesReserved_example (amountUsed used : ℤ) (h : 2 ≤ used) :
    ImagesReserved plainRuntime plainMoment imageFunding (imageDb (imageRow amountUsed used))
      (imageRow amountUsed used) 0 (imageGrant used) where
  resource := ⟨_, rfl, rfl, rfl⟩
  unsettled := ⟨rfl, rfl⟩
  find := rfl
  get := rfl
  held := h
  noReset x hx := by
    match x with
    | .total => rfl
    | .period .daily | .period .weekly | .period .monthly => exact nomatch hx

/-- A third and a fourth image, for which the grant has one place left: the other one is charged
at 3, the rounded price of an image. -/
theorem image_settlement_exact_overage :
    ∃ f' db', runSettleImageCount plainRuntime plainMoment imageFunding (imageDb (imageRow 2 4)) 4 =
        (.ok 3, f', db') ∧
      runSettleImageCount plainRuntime plainMoment f' db' 4 = (.ok 3, f', db') := by
  have hout : (runSettleImageCount plainRuntime plainMoment imageFunding
      (imageDb (imageRow 2 4)) 4).1 = .ok 3 := by decide +kernel
  rcases hrun : runSettleImageCount plainRuntime plainMoment imageFunding
    (imageDb (imageRow 2 4)) 4 with ⟨out, f', db'⟩
  rw [hrun] at hout
  obtain rfl : out = .ok 3 := hout
  have hexact := (image_settlement_exact (imagesReserved_example 2 4 (by decide)) 4).1 3 f' db' hrun
  exact ⟨f', db', rfl, hexact.2 plainMoment db' 4 (by decide) (by decide)⟩

/-- A subscription that was taken over with more use than its limit stays above it when an image is
given back. -/
theorem image_settlement_leaves_counter_over_limit :
    ImagesReserved plainRuntime plainMoment imageFunding (imageDb (imageRow 20 2)) (imageRow 20 2) 0
        (imageGrant 2) ∧
      ∃ n f' db' row', runSettleImageCount plainRuntime plainMoment imageFunding
          (imageDb (imageRow 20 2)) 1 = (.ok n, f', db') ∧ db'.subs.find 1 = some row' ∧
        0 < row'.limit .total ∧ row'.limit .total < row'.counter .total :=
  ⟨imagesReserved_example 20 2 (by decide), _, _, _, _, rfl, rfl, by decide, by decide⟩

end Moligate.Billing
