import Moligate.Subscription.Effects

namespace Moligate.Subscription

open Foundation Common Option Call

inductive Bucket where
  | primary
  | grant (key : String)

def isQuotaGrant (key : String) (g : ResourceGrant) : Bool :=
  g.resourceType = .quota && g.resourceKey = key

def UserSubscription.holds (row : UserSubscription) (used : ℤ) : Bucket → Prop
  | .primary => row.amountUsed = used ∧
      ∀ p, 0 < (row.period p).amount → 0 ≤ (row.period p).used
  | .grant key => ∃ index grant, row.resourceGrants.findIdx? (isQuotaGrant key) = some index ∧
      row.resourceGrants[index]? = some grant ∧ grant.used = used

structure Holds (db : Db) (i : ℤ) (b : Bucket) (used : ℤ) : Prop where
  nonneg : 0 ≤ used
  range : used ≤ maxInt64
  row : ∃ row, db.subs.find i = some row ∧
    periodResetAnchorVersion ≤ row.periodResetAnchorVersion ∧ row.holds used b

/-- No reset of the primary quota is due: there is no plan, it never resets, or its next reset is
set and still ahead. -/
def quiet (rt : Runtime) (plans : Plans) (now : ℤ) (row : UserSubscription) : Bool :=
  match if 0 < row.planId then plans row.planId else none with
  | none => true
  | some plan => normalizeResetPeriod rt plan.quotaResetPeriod = .never ||
      0 < row.nextResetTime && now < row.nextResetTime

variable {rt : Runtime} {plans : Plans} {now i delta used current : ℤ} {db db' : Db}
  {row s s' : UserSubscription} {r : ResetResult} {b : Bucket}

theorem applyUsageDelta_exact (hmax : current ≤ maxInt64) (hsum : 0 ≤ current + delta)
    (h : applyUsageDelta current delta = .ok used) : used = current + delta ∧ used ≤ maxInt64 := by
  obtain ⟨h₀, -, -, h₃, h₄⟩ := applyUsageDelta_spec h
  have heq := h₄ hsum (by simp only [minInt64, maxInt64] at *; omega)
  refine ⟨heq, ?_⟩
  rw [applyUsageDelta] at h
  split at h
  · simp at h
  split at h
  · split at h
    · simp at h
    · omega
  · have := h₃ (by omega)
    omega

theorem applyUsageDelta_returns (hcurrent : 0 ≤ current) (hdelta : delta ≤ 0) :
    ∃ used, applyUsageDelta current delta = .ok used := by
  rw [applyUsageDelta, if_neg (by omega), if_neg (by omega)]
  split <;> exact ⟨_, rfl⟩

theorem applyPeriodDelta_returns {p : Period} {q : PeriodQuota} (hq : 0 < q.amount → 0 ≤ q.used)
    (hdelta : delta ≤ 0) : ∃ q', applyPeriodDelta delta p q = .ok q' := by
  rw [applyPeriodDelta]
  split
  next hpos =>
    obtain ⟨used, hused⟩ := applyUsageDelta_returns (hq hpos) hdelta
    rw [hused]
    exact ⟨_, rfl⟩
  · exact ⟨q, rfl⟩

theorem applySubscriptionQuotaDelta_returns (hused : 0 ≤ s.amountUsed)
    (hperiod : ∀ p, 0 < (s.period p).amount → 0 ≤ (s.period p).used) (hdelta : delta ≤ 0) :
    ∃ s', applySubscriptionQuotaDelta s delta = .ok s' := by
  obtain ⟨used, h₁⟩ := applyUsageDelta_returns hused hdelta
  obtain ⟨daily, h₂⟩ := applyPeriodDelta_returns (p := .daily) (hperiod .daily) hdelta
  obtain ⟨weekly, h₃⟩ := applyPeriodDelta_returns (p := .weekly) (hperiod .weekly) hdelta
  obtain ⟨monthly, h₄⟩ := applyPeriodDelta_returns (p := .monthly) (hperiod .monthly) hdelta
  simp only [UserSubscription.period] at h₂ h₃ h₄
  refine ⟨{ s with amountUsed := used, daily, weekly, monthly }, ?_⟩
  simp only [applySubscriptionQuotaDelta, bind_eq_ok, ofExcept_eq_ok,
    mapError_eq_ok, h₁, h₂, h₃, h₄, Except.ok.injEq, exists_eq_left', checkQuotaLimits,
    if_neg (not_lt.2 hdelta), pure_eq_ok]
  exact ⟨(), trivial, trivial⟩

theorem quiet_reset (hversion : periodResetAnchorVersion ≤ row.periodResetAnchorVersion)
    (hquiet : quiet rt plans now row = true) (h : resetBeforeSettle rt plans now row = .ok r) :
    r.sub.amountUsed = row.amountUsed ∧ r.sub.nextResetTime = row.nextResetTime ∧
      periodResetAnchorVersion ≤ r.sub.periodResetAnchorVersion ∧ r.sub.terms = row.terms ∧
      ∀ p, 0 < (row.period p).amount → 0 ≤ (row.period p).used → 0 ≤ (r.sub.period p).used := by
  rw [resetBeforeSettle] at h
  rw [quiet] at hquiet
  split at h
  next plan hplan =>
    rw [hplan] at hquiet
    have hreset := ofOption_eq_ok.1 h
    obtain ⟨s₁, changed, st, hprimary, -, hsub, -, -⟩ := maybeReset_inv hreset
    have hspec := maybeReset_spec hreset
    rw [migrate_of_version hversion, resetPrimary, if_neg] at hprimary
    · cases hprimary
      refine ⟨by rw [hsub]; rfl, by rw [hsub]; rfl, hspec.version, hspec.terms, ?_⟩
      intro p hp hused
      rw [(hspec.period p hp).used]
      split
      · exact le_rfl
      · exact hused
    · simp only [Bool.or_eq_true, decide_eq_true_eq, Bool.and_eq_true] at hquiet
      rintro ⟨hnever, hdue⟩
      rcases hquiet with hq | ⟨hq₁, hq₂⟩
      · exact hnever hq
      · omega
  · cases h
    exact ⟨rfl, rfl, hversion, rfl, fun _ _ h ↦ h⟩

structure Moved (i : ℤ) (b : Bucket) (used delta : ℤ) (db db' : Db) : Prop where
  holds : Holds db' i b (used + delta)
  taken : db'.taken = db.taken + delta
  records : db'.records = db.records
  plan : ∀ row row', db.subs.find i = some row → db'.subs.find i = some row' →
    row'.planId = row.planId ∧ row'.nextResetTime = row.nextResetTime

theorem Moved.refl (hb : Holds db i b used) : Moved i b used 0 db db where
  holds := by rwa [add_zero]
  taken := (add_zero _).symm
  records := rfl
  plan row row' h h' := by
    obtain rfl := some.inj (h.symm.trans h')
    exact ⟨rfl, rfl⟩

theorem postConsumeDeltaTx_taken (hdelta : 0 < delta)
    (h : postConsumeDeltaTx rt plans now db i delta = .ok db') :
    db'.taken = db.taken + delta ∧ db'.records = db.records := by
  simp only [postConsumeDeltaTx, bind_eq_ok] at h
  obtain ⟨row, -, r, -, sub, hsub, hout⟩ := h
  cases hout
  obtain ⟨h₀, -, -, -, h₄⟩ := applyUsageDelta_spec (applySubscriptionQuotaDelta_drawn hsub).1.total
  have := h₄ (by omega) (by simp only [minInt64]; omega)
  exact ⟨by simp only [Db.use]; omega, rfl⟩

theorem postConsumeDeltaTx_moved (hb : Holds db i .primary used) (hsum : 0 ≤ used + delta)
    (hquiet : ∀ row, db.subs.find i = some row → quiet rt plans now row = true)
    (h : postConsumeDeltaTx rt plans now db i delta = .ok db') :
    Moved i .primary used delta db db' := by
  obtain ⟨row, hfind, hversion, rfl, hperiod⟩ := hb.row
  simp only [postConsumeDeltaTx, bind_eq_ok, required_eq_ok, hfind, some.injEq,
    exists_eq_left'] at h
  obtain ⟨r, hr, sub, hsub, hout⟩ := h
  cases hout
  obtain ⟨hused, hnext, hversion', hterms, hnonneg⟩ := quiet_reset hversion (hquiet row hfind) hr
  obtain ⟨hsubterms, hsubversion, hcharged⟩ := applySubscriptionQuotaDelta_spec hsub
  have hdrawn := (applySubscriptionQuotaDelta_drawn hsub).1
  have hsubnext : sub.nextResetTime = r.sub.nextResetTime := by rw [hdrawn.rest]
  have hamount := hdrawn.total
  rw [hused] at hamount
  obtain ⟨heq, hrange⟩ := applyUsageDelta_exact hb.range hsum hamount
  have hid : sub.id = i := (terms_id (hsubterms.trans hterms)).trans (Table.key_of_find hfind)
  have hsaved : (db.subs.save sub).find i = some sub := Table.find_save_of_key hid hfind
  refine ⟨⟨hsum, heq ▸ hrange, sub, hsaved, hsubversion ▸ hversion', heq, ?_⟩, ?_, rfl, ?_⟩
  · intro p hp
    rw [terms_period hsubterms] at hp
    exact (hcharged p hp).after
  · simp only [Db.use, hused]
    omega
  · intro row₁ row' h₁ h'
    obtain rfl := some.inj (hfind.symm.trans h₁)
    obtain rfl := some.inj (hsaved.symm.trans h')
    exact ⟨(congrArg UserSubscription.planId (hsubterms.trans hterms) :), hsubnext.trans hnext⟩

theorem postConsumeDeltaTx_returns (hb : Holds db i .primary used) (hdelta : delta ≤ 0)
    (hquiet : ∀ row, db.subs.find i = some row → quiet rt plans now row = true)
    (e : SubscriptionError) : postConsumeDeltaTx rt plans now db i delta ≠ .fail e := by
  intro h
  obtain ⟨row, hfind, hversion, rfl, hperiod⟩ := hb.row
  simp only [postConsumeDeltaTx, bind_eq_fail, hfind, required, ok.injEq,
    exists_eq_left', reduceCtorEq, false_or, pure_ne_fail, and_false, exists_false,
    or_false] at h
  rcases h with h | ⟨r, hr, h⟩
  · rw [resetBeforeSettle] at h
    split at h
    · exact ofOption_ne_fail h
    · simp at h
  · obtain ⟨hused, -, -, hterms, hnonneg⟩ := quiet_reset hversion (hquiet row hfind) hr
    obtain ⟨sub, hsub⟩ := applySubscriptionQuotaDelta_returns (s := r.sub) (hused ▸ hb.nonneg)
      (fun p hp ↦ hnonneg p (terms_period hterms p ▸ hp) (hperiod p (terms_period hterms p ▸ hp)))
      hdelta
    rw [hsub] at h
    simp at h

theorem findIdx_modify {α : Type*} {f : α → α} {P : α → Bool} (hf : ∀ x, P (f x) = P x)
    (xs : List α) (n : ℕ) : (xs.modify n f).findIdx? P = xs.findIdx? P := by
  induction xs generalizing n with
  | nil => simp
  | cons x xs ih =>
    cases n with
    | zero => simp [List.findIdx?_cons, hf]
    | succ n => simp [List.findIdx?_cons, ih]

variable {key : String}

theorem setGrantUsed_holds {index : ℕ} {grant : ResourceGrant}
    (hindex : s.resourceGrants.findIdx? (isQuotaGrant key) = some index)
    (hgrant : s.resourceGrants[index]? = some grant) (used : ℤ) :
    (setGrantUsed s index used).holds used (.grant key) := by
  refine ⟨index, { grant with used }, ?_, ?_, rfl⟩
  · rw [← hindex]
    exact findIdx_modify (f := fun g ↦ { g with used }) (P := isQuotaGrant key) (fun _ ↦ rfl) _ _
  · simp [setGrantUsed, hgrant]

theorem postConsumeResourceDeltaTx_moved (hkey : rt.trimSpace (rt.toLower key) = key)
    (hb : Holds db i (.grant key) used) (hsum : 0 ≤ used + delta)
    (h : postConsumeResourceDeltaTx rt db i key .quota delta = .ok db') :
    Moved i (.grant key) used delta db db' := by
  obtain ⟨row, hfind, hversion, index, grant, hindex, hgrant, rfl⟩ := hb.row
  simp only [postConsumeResourceDeltaTx, bind_eq_ok, required_eq_ok, hfind,
    some.injEq, exists_eq_left', hkey, ofExcept_eq_ok, mapError_eq_ok] at h
  obtain ⟨index', hindex', grant', hgrant', used, hused, _, -, hout⟩ := h
  cases hout
  obtain rfl : index = index' := some.inj (hindex.symm.trans hindex')
  obtain rfl : grant = grant' := some.inj (hgrant.symm.trans hgrant')
  obtain ⟨rfl, hrange⟩ := applyUsageDelta_exact hb.range hsum hused
  have hid : (setGrantUsed row index (grant.used + delta)).id = i :=
    (Table.key_of_find hfind : row.id = i)
  have hsaved : (db.subs.save (setGrantUsed row index (grant.used + delta))).find i =
      some (setGrantUsed row index (grant.used + delta)) := Table.find_save_of_key hid hfind
  refine ⟨⟨hsum, hrange, _, hsaved, hversion, setGrantUsed_holds hindex hgrant _⟩, ?_, rfl, ?_⟩
  · dsimp only
    omega
  · intro row₁ row' h₁ h'
    obtain rfl := some.inj (hfind.symm.trans h₁)
    obtain rfl := some.inj (hsaved.symm.trans h')
    exact ⟨rfl, rfl⟩

theorem postConsumeResourceDeltaTx_returns (hkey : rt.trimSpace (rt.toLower key) = key)
    (hb : Holds db i (.grant key) used) (hdelta : delta ≤ 0) (e : SubscriptionError) :
    postConsumeResourceDeltaTx rt db i key .quota delta ≠ .fail e := by
  intro h
  obtain ⟨row, hfind, -, index, grant, hindex, hgrant, rfl⟩ := hb.row
  obtain ⟨used, hused⟩ := applyUsageDelta_returns hb.nonneg hdelta
  have hindex' : row.resourceGrants.findIdx? (fun g ↦
      g.resourceType = .quota && g.resourceKey = key) = some index := hindex
  simp [postConsumeResourceDeltaTx, hfind, required, hkey, hindex', hgrant,
    hused, Except.mapError, Call.ofExcept, Call.check, not_lt.2 hdelta] at h

end Moligate.Subscription
