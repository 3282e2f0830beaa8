import Moligate.Billing.Funding

namespace Moligate.Billing

open Foundation Common Subscription Option Call Session RelayInfo

inductive SessionCall where
  | reserve (targetQuota : ℤ)
  | settle (actualQuota : ℤ)
  | refund

def invoke (rt : Runtime) (w : Reply) (c : Env × SessionCall) : Option Reply :=
  match c.2 with
  | .reserve targetQuota => w.session.reserve rt c.1 w.acc targetQuota
  | .settle actualQuota => w.session.settle rt c.1 w.acc actualQuota
  | .refund => w.session.refund rt c.1 w.acc

def fundingTaken (start acc : Accounts) : ℤ :=
  start.wallet - acc.wallet + (acc.db.taken - start.db.taken)

def tokenTaken (start acc : Accounts) : ℤ := start.token - acc.token

def RelayInfo.tokenShare (info : RelayInfo) (quota : ℤ) : ℤ := if info.isPlayground then 0 else quota

def Funding.Calm (rt : Runtime) (env : Env) (db : Db) : Funding → Prop
  | .wallet _ => True
  | .subscription f => Billing.Calm rt f env.first db ∧ Billing.Calm rt f env.second db

def Funding.Covers (actualQuota : ℤ) : Funding → Prop
  | .wallet _ => True
  | .subscription _ => 0 ≤ actualQuota

/-- The calls that the session accounts for: a refunded session is not settled to another amount
than its reservation, and no quota reset comes between a reservation from a subscription and the
call that gives some of it back. -/
def Regular (rt : Runtime) (w : Reply) (c : Env × SessionCall) : Prop :=
  w.session.settled = false →
    match c.2 with
    | .settle actualQuota =>
      if w.session.refunded then actualQuota = w.session.preConsumedQuota
      else actualQuota < w.session.preConsumedQuota →
        w.session.funding.Calm rt c.1 w.acc.db ∧ w.session.funding.Covers actualQuota
    | _ => w.session.refunded = false → w.session.funding.Calm rt c.1 w.acc.db

def Session.Secured (rt : Runtime) (s : Session) (db : Db) : Prop :=
  match s.funding with
  | .wallet consumed => consumed = s.preConsumedQuota ∧ s.tokenConsumed = s.preConsumedQuota
  | .subscription f => s.preConsumedQuota = f.preConsumed + s.extraReserved ∧
      Backed rt f s.extraReserved db

/-- Neither settled nor refunded: exactly the reservation is taken. -/
structure Open (rt : Runtime) (start : Accounts) (s : Session) (acc : Accounts) : Prop where
  settled : s.settled = false
  refunded : s.refunded = false
  fundingSettled : s.fundingSettled = false
  nonneg : 0 ≤ s.preConsumedQuota
  extra_nonneg : 0 ≤ s.extraReserved
  funding_eq : fundingTaken start acc = s.preConsumedQuota
  token_eq : tokenTaken start acc = s.info.tokenShare s.preConsumedQuota
  tokenConsumed : s.info.isPlayground = false → s.tokenConsumed = s.preConsumedQuota
  secured : s.Secured rt acc.db

def Funding.isImage : Funding → Bool
  | .wallet _ => false
  | .subscription f => f.isImage

structure Final (start : Accounts) (quota : ℤ) (w : Reply) : Prop where
  ended : w.session.settled = true ∨
    w.session.refunded = true ∧ w.session.fundingSettled = false ∧ w.session.funding.isImage = false
  funding_eq : fundingTaken start w.acc = quota
  token_eq : tokenTaken start w.acc = w.session.info.tokenShare quota

variable {rt : Runtime} {env : Env} {start acc acc' : Accounts} {s : Session} {w w' : Reply}
  {quota delta : ℤ} {c : Env × SessionCall} {info : RelayInfo}

@[simp] theorem RelayInfo.tokenShare_zero : info.tokenShare 0 = 0 := by
  simp [tokenShare]

theorem preConsumeTokenQuota_ok {reserved : Bool}
    (h : preConsumeTokenQuota info reserved acc quota = .ok acc') :
    acc'.wallet = acc.wallet ∧ acc'.db = acc.db ∧
      acc'.token = acc.token - info.tokenShare quota := by
  rw [preConsumeTokenQuota] at h
  split at h
  · simp at h
  split at h
  next hp =>
    cases h
    simp [tokenShare, hp]
  next hp =>
    split at h
    · cases h
      simp [tokenShare, hp]
    · simp at h

theorem increaseTokenQuota_eq (info : RelayInfo) (acc : Accounts) (quota : ℤ) :
    (increaseTokenQuota info acc quota).wallet = acc.wallet ∧
      (increaseTokenQuota info acc quota).db = acc.db ∧
      (increaseTokenQuota info acc quota).token = acc.token + info.tokenShare quota := by
  rw [increaseTokenQuota, tokenShare]
  split <;> simp

section

variable (ho : Open rt start s acc) {funding : Funding}
include ho

theorem settleFunding_taken {d : ℤ}
    (hdown : delta < 0 → s.funding.Calm rt env acc.db ∧ s.funding.Covers (s.preConsumedQuota + delta))
    (h : s.settleFunding rt env acc delta = .ok (funding, acc', d)) :
    d = delta ∧ acc'.token = acc.token ∧
      fundingTaken start acc' = fundingTaken start acc + delta := by
  have hsec := ho.secured
  rw [Session.Secured] at hsec
  rw [settleFunding, ho.fundingSettled, if_neg Bool.false_ne_true] at h
  cases hf : s.funding with
  | wallet consumed =>
    simp only [hf, ok.injEq, Prod.mk.injEq] at h
    obtain ⟨-, rfl, rfl⟩ := h
    refine ⟨rfl, rfl, ?_⟩
    simp only [fundingTaken]
    omega
  | subscription f =>
    simp only [hf, Funding.Calm, Funding.Covers] at h hsec hdown
    obtain ⟨hquota, hbacked⟩ := hsec
    rw [hbacked.not_isImage, if_neg Bool.false_ne_true] at h
    obtain ⟨db, hadjust, hout⟩ := bind_eq_ok.1 h
    obtain ⟨-, rfl, rfl⟩ : _ ∧ _ ∧ _ := by simpa using pure_eq_ok.1 hout
    have htaken := hbacked.settle
      (fun hneg ↦ ⟨(hdown hneg).1.1, hquota ▸ (hdown hneg).2⟩) (mapFail_eq_ok.1 hadjust)
    refine ⟨rfl, rfl, ?_⟩
    simp only [fundingTaken, htaken]
    omega

theorem settle_open
    (hdown : quota < s.preConsumedQuota → s.funding.Calm rt env acc.db ∧ s.funding.Covers quota)
    (h : s.settle rt env acc quota = some w) :
    w.session = s ∧ w.acc = acc ∨ w.error = none ∧ w.session.settled = true ∧
      Final start quota w := by
  rw [settle, ho.settled, if_neg Bool.false_ne_true] at h
  split at h
  · simp at h
  · cases h
    exact .inl ⟨rfl, rfl⟩
  rename_i funding acc₁ d hfunding
  cases h
  obtain ⟨rfl, htoken, htaken⟩ := settleFunding_taken ho
    (fun hneg ↦ by
      obtain ⟨hcalm, hcovers⟩ := hdown (by omega)
      exact ⟨hcalm, by rwa [add_sub_cancel]⟩) hfunding
  obtain ⟨hw, hdb, hk⟩ := increaseTokenQuota_eq s.info acc₁ (-(quota - s.preConsumedQuota))
  refine .inr ⟨rfl, rfl, ⟨.inl rfl, ?_, ?_⟩⟩
  · have := ho.funding_eq
    simp only [fundingTaken] at htaken this ⊢
    rw [hw, hdb]
    omega
  · have := ho.token_eq
    simp only [tokenTaken, tokenShare] at this hk ⊢
    rw [hk]
    split_ifs at this ⊢ <;> omega

theorem refundFunding_taken (hcalm : s.funding.Calm rt env acc.db)
    (h : s.refundFunding rt env acc = some acc') :
    acc'.token = acc.token ∧ fundingTaken start acc' = 0 := by
  have hsec := ho.secured
  have htaken := ho.funding_eq
  rw [Session.Secured] at hsec
  rw [refundFunding] at h
  cases hf : s.funding with
  | wallet consumed =>
    simp only [hf, some.injEq] at h hsec
    have := ho.nonneg
    simp only [fundingTaken] at htaken
    split at h
    all_goals
      subst h
      refine ⟨rfl, ?_⟩
      simp only [fundingTaken]
      omega
  | subscription f =>
    simp only [hf, Funding.Calm] at h hsec hcalm
    obtain ⟨hquota, hbacked⟩ := hsec
    obtain ⟨hok, hfail⟩ := hbacked.refund hcalm.1
    obtain ⟨db₁, h₁, h₂⟩ := bind_eq_some_iff.1 h
    obtain ⟨hgone, hcalm', record, b, used, hof, hb, hle⟩ := hok db₁ (orKeep_eq_some hfail h₁)
    split at h₂
    next hextra =>
      obtain ⟨db₂, h₃, rfl⟩ := map_eq_some_iff.1 h₂
      have hneg : -s.extraReserved ≤ 0 := by omega
      have hadjust := orKeep_eq_some (adjust_returns hof hb hneg hextra.2 (hcalm' _ hcalm.2)) h₃
      have := (adjust_moved hof hb (by omega) (hcalm' _ hcalm.2) hadjust).1.taken
      refine ⟨rfl, ?_⟩
      simp only [fundingTaken] at htaken ⊢
      omega
    next hextra =>
      cases h₂
      have hzero : s.extraReserved = 0 := by
        have h₀ := hbacked.extra_nonneg
        have hid := hbacked.id
        by_contra hne
        exact hextra ⟨by omega, hid (by omega)⟩
      refine ⟨rfl, ?_⟩
      simp only [fundingTaken] at htaken ⊢
      omega

theorem Open.not_isImage : s.funding.isImage = false := by
  have hsec := ho.secured
  rw [Session.Secured] at hsec
  cases hf : s.funding with
  | wallet consumed => rfl
  | subscription f =>
    simp only [hf] at hsec
    exact hsec.2.not_isImage

theorem refund_open (hcalm : s.funding.Calm rt env acc.db) (h : s.refund rt env acc = some w) :
    w.error = none ∧ (w.session = s ∧ w.acc = acc ∨
      w.session.refunded = true ∧ Final start 0 w) := by
  rw [refund] at h
  split at h
  · cases h
    exact ⟨rfl, .inl ⟨rfl, rfl⟩⟩
  obtain ⟨acc₁, hacc, rfl⟩ := map_eq_some_iff.1 h
  obtain ⟨htoken, htaken⟩ := refundFunding_taken ho hcalm hacc
  obtain ⟨hw, hdb, hk⟩ := increaseTokenQuota_eq s.info acc₁ s.tokenConsumed
  refine ⟨rfl, .inr ⟨rfl, ⟨.inr ⟨rfl, ho.fundingSettled, ho.not_isImage⟩, ?_, ?_⟩⟩⟩
  · split
    · rw [fundingTaken, hw, hdb]
      exact htaken
    · exact htaken
  · have hopen := ho.token_eq
    have hnonneg := ho.nonneg
    have hconsumed := ho.tokenConsumed
    simp only [tokenTaken, tokenShare_zero] at hopen ⊢
    -- The playground has taken nothing from the token and gives nothing back.
    cases hp : s.info.isPlayground with
    | false =>
      simp only [tokenShare, hp, Bool.false_eq_true, if_false] at hopen hk
      have := hconsumed hp
      split <;> omega
    | true =>
      simp only [tokenShare, hp, if_true] at hopen hk
      split <;> omega

theorem reserveFunding_secured (hdelta : 0 < delta) (hcalm : s.funding.Calm rt env acc.db)
    (h : s.reserveFunding rt env acc delta = .ok (funding, acc')) :
    acc'.token = acc.token ∧ fundingTaken start acc' = fundingTaken start acc + delta ∧
      funding.Calm rt env acc'.db ∧
      Session.Secured rt { s with
        funding
        preConsumedQuota := s.preConsumedQuota + delta
        tokenConsumed := s.tokenConsumed + delta
        extraReserved := s.extraReserved + delta } acc'.db := by
  have hsec := ho.secured
  rw [Session.Secured] at hsec
  rw [reserveFunding] at h
  cases hf : s.funding with
  | wallet consumed =>
    simp only [hf, ok.injEq, Prod.mk.injEq] at h hsec
    obtain ⟨rfl, rfl⟩ := h
    refine ⟨rfl, ?_, trivial, ?_⟩
    · simp only [fundingTaken]
      omega
    · simp only [Session.Secured]
      omega
  | subscription f =>
    simp only [hf, Funding.Calm] at h hsec hcalm
    obtain ⟨hquota, hbacked⟩ := hsec
    obtain ⟨db, hadjust, hout⟩ := bind_eq_ok.1 h
    obtain ⟨rfl, rfl⟩ : _ ∧ _ := by simpa using pure_eq_ok.1 hout
    have hextra := ho.extra_nonneg
    obtain ⟨hbacked', htaken, hcalm'⟩ :=
      hbacked.adjust (by omega) hcalm.1 (mapFail_eq_ok.1 hadjust)
    refine ⟨rfl, ?_, ⟨hcalm' _ hcalm.1, hcalm' _ hcalm.2⟩, ?_, hbacked'⟩
    · simp only [fundingTaken, htaken]
      omega
    · dsimp only
      omega

end

theorem rollbackFundingReserve_secured (start : Accounts) {funding : Funding}
    {out : Funding × Accounts} (hdelta : 0 < delta) (hextra : 0 ≤ s.extraReserved)
    (hcalm : funding.Calm rt env acc.db)
    (hsec : Session.Secured rt { s with
      funding
      preConsumedQuota := s.preConsumedQuota + delta
      tokenConsumed := s.tokenConsumed + delta
      extraReserved := s.extraReserved + delta } acc.db)
    (h : rollbackFundingReserve rt env acc funding delta = some out) :
    out.2.token = acc.token ∧ fundingTaken start out.2 = fundingTaken start acc - delta ∧
      Session.Secured rt { s with funding := out.1 } out.2.db := by
  cases funding with
  | wallet consumed =>
    simp only [Session.Secured] at hsec
    cases h
    refine ⟨rfl, ?_, ?_⟩
    · simp only [fundingTaken]
      omega
    · simp only [Session.Secured]
      omega
  | subscription f =>
    simp only [Session.Secured, Funding.Calm] at hsec hcalm
    obtain ⟨hquota, hbacked⟩ := hsec
    obtain ⟨db, hdb, rfl⟩ := map_eq_some_iff.1 h
    have hid := hbacked.id (by omega)
    have hadjust := orKeep_eq_some (hbacked.adjust_returns (by omega) hid hcalm.2) hdb
    obtain ⟨hbacked', htaken, -⟩ := hbacked.adjust (by omega) hcalm.2 hadjust
    rw [add_neg_cancel_right] at hbacked'
    refine ⟨rfl, ?_, ?_, hbacked'⟩
    · simp only [fundingTaken, htaken]
      omega
    · dsimp only
      omega

theorem reserve_open (ho : Open rt start s acc) (hcalm : s.funding.Calm rt env acc.db)
    (h : s.reserve rt env acc quota = some w) :
    Open rt start w.session w.acc ∧ w.session.info = s.info ∧
      (w.error ≠ none → w.session.preConsumedQuota = s.preConsumedQuota) := by
  rw [reserve] at h
  split at h
  · cases h
    exact ⟨ho, rfl, fun _ ↦ rfl⟩
  rename_i hcond
  simp only [Bool.or_eq_true, decide_eq_true_eq, not_or, not_le] at hcond
  have hdelta : 0 < quota - s.preConsumedQuota := by omega
  dsimp only at h
  split at h
  · simp at h
  · cases h
    exact ⟨ho, rfl, fun _ ↦ rfl⟩
  rename_i funding acc₁ hfunding
  obtain ⟨htoken, htaken, hcalm', hsec⟩ :=
    reserveFunding_secured ho hdelta hcalm hfunding
  have hfund := ho.funding_eq
  have hopen := ho.token_eq
  split at h
  next e he =>
    obtain ⟨out, hout, rfl⟩ := map_eq_some_iff.1 h
    obtain ⟨htoken', htaken', hsec'⟩ :=
      rollbackFundingReserve_secured start hdelta ho.extra_nonneg hcalm' hsec hout
    refine ⟨⟨ho.settled, ho.refunded, ho.fundingSettled, ho.nonneg, ho.extra_nonneg,
      ?_, ?_, ho.tokenConsumed, hsec'⟩, rfl, fun _ ↦ rfl⟩
    · dsimp only
      omega
    · rw [tokenTaken, htoken', htoken]
      exact hopen
  next acc₂ hacc =>
    cases h
    obtain ⟨hw, hdb, hk⟩ := preConsumeTokenQuota_ok hacc
    have hnonneg := ho.nonneg
    have hextra := ho.extra_nonneg
    refine ⟨⟨ho.settled, ho.refunded, ho.fundingSettled, ?_, ?_, ?_, ?_, ?_, ?_⟩, rfl,
      fun hne ↦ absurd rfl hne⟩
    · dsimp only
      omega
    · dsimp only
      omega
    · simp only [fundingTaken] at htaken hfund ⊢
      rw [hw, hdb]
      omega
    · simp only [tokenTaken, tokenShare] at hopen hk ⊢
      split_ifs at hopen hk ⊢ <;> omega
    · intro hp
      have := ho.tokenConsumed hp
      dsimp only
      omega
    · rw [hdb]
      exact hsec

theorem invoke_final (hf : Final start quota w) (hreg : Regular rt w c)
    (h : invoke rt w c = some w') : Final start quota w' ∧ w'.error = none := by
  have hkeep : Final start quota { session := w.session, acc := w.acc } :=
    { hf with }
  rw [invoke] at h
  rw [Regular] at hreg
  cases hs : w.session.settled with
  | true =>
    cases hc : c.2
    all_goals
      simp only [hc, reserve, settle, refund, hs, Bool.true_or, if_true] at h
      exact some.inj h ▸ ⟨hkeep, rfl⟩
  | false =>
    obtain ⟨hr, hunsettled, himage⟩ := hf.ended.resolve_left (by simp [hs])
    cases hc : c.2 with
    | reserve | refund =>
      simp only [hc, reserve, refund, hr, Bool.or_true, Bool.true_or, if_true] at h
      exact some.inj h ▸ ⟨hkeep, rfl⟩
    | settle q =>
      have hq : q = w.session.preConsumedQuota := by simpa [hs, hc, hr] using hreg
      have hfund : w.session.settleFunding rt c.1 w.acc 0 = .ok (w.session.funding, w.acc, 0) := by
        rw [settleFunding, hunsettled, if_neg Bool.false_ne_true]
        cases hfu : w.session.funding with
        | wallet consumed => simp
        | subscription f =>
          rw [hfu, Funding.isImage] at himage
          simp [himage, SubscriptionFunding.adjust, mapFail]
      simp only [hc, settle, hs, Bool.false_eq_true, if_false, hq, sub_self, hfund,
        neg_zero, some.injEq] at h
      subst h
      obtain ⟨hw, hdb, hk⟩ := increaseTokenQuota_eq w.session.info w.acc 0
      rw [tokenShare_zero, add_zero] at hk
      refine ⟨⟨.inl rfl, ?_, ?_⟩, rfl⟩
      · rw [fundingTaken, hw, hdb]
        exact hf.funding_eq
      · rw [tokenTaken, hk]
        exact hf.token_eq

end Moligate.Billing
