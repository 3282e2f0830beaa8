import Moligate.Affiliate.Redemption

namespace Moligate.Affiliate

open Foundation Redemption List

def pointsOf (p : AffiliateCommissionSettlement → Bool) (ss : List AffiliateCommissionSettlement) :
    ℤ := ((ss.filter p).map AffiliateCommissionSettlement.settledPoints).sum

def settledIn (k : ℤ) : List AffiliateCommissionSettlement → ℤ :=
  pointsOf fun s ↦ s.commissionId = k

def walletIn (k : ℤ) : List AffiliateCommissionSettlement → ℤ :=
  pointsOf fun s ↦ s.commissionId = k && s.settlementType = .wallet

def walletOf (u : ℤ) : List AffiliateCommissionSettlement → ℤ :=
  pointsOf fun s ↦ s.promoterId = u && s.settlementType = .wallet

def sumFor (u : ℤ) (f : Redemption → ℤ) (rs : List Redemption) : ℤ :=
  ((rs.filter fun r ↦ r.userId = u).map f).sum

section

variable {p : AffiliateCommissionSettlement → Bool} {s : AffiliateCommissionSettlement}
  {ss ss' : List AffiliateCommissionSettlement} {u : ℤ} {f : Redemption → ℤ} {rs rs' : List Redemption}

@[simp] theorem pointsOf_nil : pointsOf p [] = 0 := rfl

@[simp] theorem pointsOf_append : pointsOf p (ss ++ ss') = pointsOf p ss + pointsOf p ss' := by
  simp [pointsOf]

@[simp] theorem pointsOf_singleton : pointsOf p [s] = if p s then s.settledPoints else 0 := by
  cases h : p s <;> simp [pointsOf, h]

theorem pointsOf_eq_zero (h : ∀ s ∈ ss, p s = false) : pointsOf p ss = 0 := by
  rw [pointsOf, filter_eq_nil_iff.2 (fun s hs ↦ by simp [h s hs])]
  rfl

@[simp] theorem sumFor_nil : sumFor u f [] = 0 := rfl

@[simp] theorem sumFor_append : sumFor u f (rs ++ rs') = sumFor u f rs + sumFor u f rs' := by
  simp [sumFor]

@[simp] theorem sumFor_singleton {r : Redemption} :
    sumFor u f [r] = if r.userId = u then f r else 0 := by
  by_cases h : r.userId = u <;> simp [sumFor, h]

end

/-- A commission agrees with its settlements `ss`, and nothing is spent twice. -/
structure Sound (k : ℤ) (row : AffiliateCommission) (ss : List AffiliateCommissionSettlement) :
    Prop where
  nonneg : 0 ≤ row.settledPoints
  le : row.settledPoints ≤ row.rewardPoints
  split : row.settledPoints = row.walletRedeemedPoints + row.offlineSettledPoints
  settled : row.settledPoints = settledIn k ss
  wallet : row.walletRedeemedPoints = walletIn k ss
  status : row.status = .settled ↔ row.rewardPoints ≤ row.settledPoints

def AffiliateCommission.terms (c : AffiliateCommission) : ℤ × ℤ × ℤ :=
  (c.id, c.promoterId, c.rewardPoints)

def Process.written (p : Process) : List AffiliateCommissionSettlement :=
  match p.stage with
  | .insert _ row _ _ _ _ _ => p.inserted ++ [row]
  | _ => p.inserted

def Process.credits (p : Process) : List Redemption :=
  match p.stage with
  | .update call _ points quota _ _ | .insert call _ _ points quota _ _ =>
    if call.settlementType = .wallet then p.redeemed ++ [⟨call.userId, points, quota⟩]
    else p.redeemed
  | _ => p.redeemed

/-- The credited points of `u` that are still to be taken from the commissions. -/
def Process.outstanding (p : Process) (u : ℤ) : ℤ :=
  match p.stage with
  | .update call _ _ _ remaining _ =>
    if call.userId = u ∧ call.settlementType = .wallet then remaining else 0
  | .insert call row _ _ _ remaining _ =>
    if call.userId = u ∧ call.settlementType = .wallet then remaining - row.settledPoints else 0
  | _ => 0

/-- The commissions that the current call has read and not yet settled, with its user. -/
def Process.snapshot (p : Process) : List (ℤ × AffiliateCommission) :=
  match p.stage with
  | .credit call rows _ _ _ | .update call rows _ _ _ _ | .insert call _ rows _ _ _ _ =>
    rows.map fun c ↦ (call.userId, c)
  | _ => []

variable {τ : Type*} [DecidableEq τ]

/-- What holds of the committed tables, with the quotas as they were in `start`. -/
structure Ledger (quotaPerUnit : ℚ) (start db : Db τ) : Prop where
  sound : ∀ k ∈ db.ids, (db.commissions.committed k).id = k ∧
    Sound k (db.commissions.committed k) db.settlements
  promoter : ∀ s ∈ db.settlements,
    s.promoterId = (db.commissions.committed s.commissionId).promoterId
  points : ∀ u, walletOf u db.settlements =
    walletOf u start.settlements + sumFor u points db.redemptions
  quota : ∀ u, db.users.committed u =
    (start.users.committed u).map (· + sumFor u quota db.redemptions)
  quotes : ∀ r ∈ db.redemptions, quoteAffiliateRewardPoints quotaPerUnit r.points = .ok r.quota

/-- What holds of an open transaction: its versions of the rows agree with the settlements that it
sees, and its credits are covered by what it has taken and has still to take. -/
structure Open (quotaPerUnit : ℚ) (t : τ) (db : Db τ) (p : Process) : Prop where
  rows : ∀ k row, db.commissions.own t k = some row → k ∈ db.ids ∧
    row.terms = (db.commissions.committed k).terms ∧ Sound k row (db.settlements ++ p.written)
  written : ∀ s ∈ p.written, (db.commissions.own t s.commissionId).isSome ∧
    s.promoterId = (db.commissions.committed s.commissionId).promoterId
  balances : db.users.Pending t fun u ↦ sumFor u quota p.credits
  quotes : ∀ r ∈ p.credits, quoteAffiliateRewardPoints quotaPerUnit r.points = .ok r.quota
  planned : ∀ call rows points quota todo, p.stage = .credit call rows points quota todo →
    quoteAffiliateRewardPoints quotaPerUnit points = .ok quota
  points : ∀ u, walletOf u p.written + p.outstanding u = sumFor u points p.credits
  snapshot : ∀ c ∈ p.snapshot, c.2.id ∈ db.ids ∧
    c.2.terms = (db.commissions.committed c.2.id).terms ∧ c.2.promoterId = c.1

def TxInv (quotaPerUnit : ℚ) (t : τ) (db : Db τ) (p : Process) : Prop :=
  (∃ e, p.stage = .failed e) ∨ Open quotaPerUnit t db p

structure Affects (t : τ) (db db' : Db τ) : Prop where
  ids : db'.ids = db.ids
  commissions : ∀ t' ≠ t, ∀ k, db'.commissions.own t' k = db.commissions.own t' k
  users : ∀ t' ≠ t, ∀ u, db'.users.own t' u = db.users.own t' u
  terms : ∀ k, (db'.commissions.committed k).terms = (db.commissions.committed k).terms
  balances : ∀ u, db.users.own t u = none → db'.users.committed u = db.users.committed u
  settlements : ∃ new, db'.settlements = db.settlements ++ new ∧
    ∀ s ∈ new, (db.commissions.own t s.commissionId).isSome

variable {quotaPerUnit : ℚ} {start db db' : Db τ} {t t' : τ} {p p' : Process} {k : ℤ}
  {row : AffiliateCommission} {ss ss' : List AffiliateCommissionSettlement}

theorem Affects.refl : Affects t db db where
  ids := rfl
  commissions _ _ _ := rfl
  users _ _ _ := rfl
  terms _ := rfl
  balances _ _ := rfl
  settlements := ⟨[], by simp, by simp⟩

theorem Sound.congr (h : Sound k row ss) (hsettled : settledIn k ss' = settledIn k ss)
    (hwallet : walletIn k ss' = walletIn k ss) : Sound k row ss' :=
  ⟨h.nonneg, h.le, h.split, h.settled.trans hsettled.symm, h.wallet.trans hwallet.symm, h.status⟩

theorem Sound.insert {new : List AffiliateCommissionSettlement} (h : Sound k row (ss ++ ss'))
    (hne : ∀ s ∈ new, s.commissionId ≠ k) : Sound k row (ss ++ new ++ ss') := by
  have hsettled : settledIn k new = 0 := pointsOf_eq_zero fun s hs ↦ by simp [hne s hs]
  have hwallet : walletIn k new = 0 := pointsOf_eq_zero fun s hs ↦ by simp [hne s hs]
  apply h.congr
  · simp only [settledIn, pointsOf_append] at hsettled ⊢
    omega
  · simp only [walletIn, pointsOf_append] at hwallet ⊢
    omega

theorem Sound.append (h : Sound k row ss) (hne : ∀ s ∈ ss', s.commissionId ≠ k) :
    Sound k row (ss ++ ss') := by
  have happend : Sound k row (ss ++ []) := by rwa [append_nil]
  have hinsert := happend.insert hne
  rwa [append_nil] at hinsert

theorem Open.stable (hne : t ≠ t') (h : Open quotaPerUnit t' db p) (ha : Affects t db db') :
    Open quotaPerUnit t' db' p := by
  obtain ⟨new, hsettlements, hnew⟩ := ha.settlements
  refine ⟨?_, ?_, ?_, h.quotes, h.planned, h.points, ?_⟩
  · intro k row hrow
    rw [ha.commissions t' hne.symm] at hrow
    obtain ⟨hk, hterms, hsound⟩ := h.rows k row hrow
    refine ⟨ha.ids ▸ hk, hterms.trans (ha.terms k).symm, ?_⟩
    rw [hsettlements]
    refine hsound.insert ?_
    rintro s hs rfl
    obtain ⟨r, hr⟩ := Option.isSome_iff_exists.1 (hnew s hs)
    exact hne.symm (Rows.own_unique hrow hr)
  · intro s hs
    obtain ⟨hown, hpromoter⟩ := h.written s hs
    refine ⟨by rwa [ha.commissions t' hne.symm], hpromoter.trans ?_⟩
    exact congrArg (·.2.1) (ha.terms s.commissionId).symm
  · refine h.balances.stable (ha.users t' hne.symm) fun u hu ↦ ha.balances u ?_
    exact Rows.own_eq_none_of_other (Option.isSome_iff_ne_none.1 hu) hne.symm
  · intro c hc
    obtain ⟨hid, hterms, hpromoter⟩ := h.snapshot c hc
    exact ⟨ha.ids ▸ hid, hterms.trans (ha.terms c.2.id).symm, hpromoter⟩

theorem TxInv.stable (hne : t ≠ t') (h : TxInv quotaPerUnit t' db p) (ha : Affects t db db') :
    TxInv quotaPerUnit t' db' p :=
  h.imp_right fun ho ↦ ho.stable hne ha

theorem Open.congr (h : Open quotaPerUnit t db p) (hwritten : p'.written = p.written)
    (hcredits : p'.credits = p.credits) (houtstanding : ∀ u, p'.outstanding u = p.outstanding u)
    (hplanned : ∀ call rows points quota todo, p'.stage = .credit call rows points quota todo →
      quoteAffiliateRewardPoints quotaPerUnit points = .ok quota)
    (hsnapshot : ∀ c ∈ p'.snapshot, c.2.id ∈ db.ids ∧
      c.2.terms = (db.commissions.committed c.2.id).terms ∧ c.2.promoterId = c.1) :
    Open quotaPerUnit t db p' where
  rows := by rw [hwritten]; exact h.rows
  written := by rw [hwritten]; exact h.written
  balances := by rw [hcredits]; exact h.balances
  quotes := by rw [hcredits]; exact h.quotes
  planned := hplanned
  points u := by rw [hwritten, hcredits, houtstanding]; exact h.points u
  snapshot := hsnapshot

theorem Open.read (hI : Ledger quotaPerUnit start db) (h : Open quotaPerUnit t db p)
    (hk : k ∈ db.ids) : (db.commissions.read t k).terms = (db.commissions.committed k).terms ∧
      Sound k (db.commissions.read t k) (db.settlements ++ p.written) := by
  cases hown : db.commissions.own t k with
  | some row =>
    rw [Rows.read_of_own hown]
    exact (h.rows k row hown).2
  | none =>
    rw [Rows.read_of_not_own hown]
    refine ⟨rfl, (hI.sound k hk).2.append fun s hs he ↦ ?_⟩
    have := (h.written s hs).1
    rw [he, hown] at this
    simp at this

variable {n : ℤ} {c : AffiliateCommission}

theorem nextRecord_spec {rows rest : List AffiliateCommission} {remaining : ℤ}
    (h : nextRecord rows remaining = some (c, n, rest)) :
    c ∈ rows ∧ (∀ d ∈ rest, d ∈ rows) ∧ 0 < n ∧ n ≤ c.rewardPoints - c.settledPoints := by
  induction rows with
  | nil => simp [nextRecord] at h
  | cons d rows ih =>
    rw [nextRecord] at h
    split at h
    · simp at h
    split at h
    · obtain ⟨hc, hrest, hn⟩ := ih h
      exact ⟨mem_cons_of_mem d hc, fun e he ↦ mem_cons_of_mem d (hrest e he), hn⟩
    next hremaining hpending =>
      simp only [Option.some.injEq, Prod.mk.injEq] at h
      obtain ⟨rfl, rfl, rfl⟩ := h
      rw [pendingAffiliateRewardPoints] at hpending ⊢
      exact ⟨mem_cons_self, fun e he ↦ mem_cons_of_mem d he, by omega, by omega⟩

theorem settleRecord_sound {call : Consume} {quota wallet : ℤ} (h : Sound k row ss)
    (hreward : c.rewardPoints = row.rewardPoints) (hsame : row.settledPoints = c.settledPoints)
    (hpos : 0 < n) (hle : n ≤ c.rewardPoints - c.settledPoints) :
    Sound k (settleRecord call.settlementType c row n quota)
      (ss ++ [⟨k, call.userId, call.settlementType, n, wallet⟩]) := by
  have hnonneg := h.nonneg
  have hsplit := h.split
  have hsettled := h.settled
  have hwallet := h.wallet
  simp only [settledIn, walletIn] at hsettled hwallet
  cases hty : call.settlementType with
  | wallet =>
    constructor <;> simp only [settleRecord, settledIn, walletIn, pointsOf_append,
      pointsOf_singleton, decide_true, Bool.and_self, if_true]
    any_goals omega
    split <;> simp <;> omega
  | offlineCashback =>
    constructor <;> simp only [settleRecord, settledIn, walletIn, pointsOf_append,
      pointsOf_singleton, decide_true, reduceCtorEq, decide_false, Bool.and_false, if_true,
      Bool.false_eq_true, if_false]
    any_goals omega
    split <;> simp <;> omega

end Moligate.Affiliate
