import Moligate.Billing.Ledger
import Moligate.Subscription.Windows

namespace Moligate.Billing

open Foundation Common Subscription Option RelayInfo

variable {rt : Runtime} {env : Env} {start acc acc' : Accounts} {s : Session} {w w' : Reply}
  {quota : ℤ} {c : Env × SessionCall}

/-- A funding source that nothing was reserved from: the request has its own id, and the grants of
the subscriptions are stored as purchases store them. -/
def Funding.Fresh (rt : Runtime) (db : Db) : Funding → Prop
  | .wallet consumed => consumed = 0
  | .subscription f => db.records.find f.requestId = none ∧
      ∀ row ∈ db.subs.rows, GrantsWellFormed rt row

structure TokenOnly (start : Accounts) (quota : ℤ) (s : Session) (acc : Accounts) : Prop where
  settled : s.settled = false
  refunded : s.refunded = false
  fundingSettled : s.fundingSettled = false
  extraReserved : s.extraReserved = 0
  nonneg : 0 ≤ quota
  tokenConsumed : s.tokenConsumed = quota
  wallet : acc.wallet = start.wallet
  db : acc.db = start.db
  token : tokenTaken start acc = s.info.tokenShare quota

variable {f : SubscriptionFunding} {s' : Session}

theorem reconcile_funding (h : s.reconcile rt env acc f quota = some (acc', .ok s')) :
    s'.funding = .subscription f ∧ 0 < f.preConsumed := by
  rw [Session.reconcile] at h
  dsimp only at h
  split at h
  · simp [Session.abandon] at h
  rename_i hpos
  refine ⟨?_, not_le.1 hpos⟩
  split at h
  · obtain ⟨-, rfl⟩ : _ ∧ _ := by simpa using h
    rfl
  split at h
  · split at h
    · simp [Session.abandon] at h
    · obtain ⟨-, rfl⟩ : _ ∧ _ := by simpa using h
      rfl
  · obtain ⟨-, rfl⟩ : _ ∧ _ := by simpa using h
    rfl

theorem TokenOnly.reserved {consumed : ℤ} {acc₁ : Accounts} (ht : TokenOnly start quota s acc)
    (hw : acc₁.wallet = acc.wallet) (htaken : acc₁.db.taken = start.db.taken + f.preConsumed)
    (hbacked : Backed rt f 0 acc₁.db) (hpos : 0 < f.preConsumed)
    (htoken : tokenTaken start acc₁ = s.info.tokenShare f.preConsumed)
    (hconsumed : s.info.isPlayground = false → consumed = f.preConsumed) :
    Open rt start { s with
      funding := .subscription f, preConsumedQuota := f.preConsumed, tokenConsumed := consumed }
      acc₁ := by
  refine ⟨ht.settled, ht.refunded, ht.fundingSettled, hpos.le, ht.extraReserved.ge, ?_, htoken,
    hconsumed, ?_, ?_⟩
  · rw [fundingTaken, hw, ht.wallet, htaken, sub_self, zero_add, add_sub_cancel_left]
  · rw [ht.extraReserved, add_zero]
  · exact ht.extraReserved ▸ hbacked

theorem reconcile_open {db : Db} (ht : TokenOnly start quota s acc)
    (htaken : db.taken = start.db.taken + f.preConsumed) (hbacked : Backed rt f 0 db)
    (h : s.reconcile rt env { acc with db } f quota = some (acc', .ok s')) :
    Open rt start s' acc' := by
  have htoken := ht.token
  have hconsumed := ht.tokenConsumed
  rw [Session.reconcile] at h
  dsimp only at h
  split at h
  · simp [Session.abandon] at h
  rename_i hpos
  rw [not_le] at hpos
  split at h
  next hp =>
    obtain ⟨rfl, hs⟩ := Prod.mk.inj (some.inj h)
    cases hs
    refine ht.reserved rfl htaken hbacked hpos ?_ ?_
    · simpa [tokenTaken, tokenShare, hp] using htoken
    · intro hp'
      simp [hp] at hp'
  next hp =>
    -- the token is charged with the difference to what it has paid, in either direction
    have hcharged {acc₁ : Accounts} (hw : acc₁.wallet = acc.wallet) (hdb : acc₁.db = db)
        (hk : acc₁.token = acc.token - (f.preConsumed - quota)) :
        Open rt start { s with
          funding := .subscription f
          preConsumedQuota := f.preConsumed
          tokenConsumed := s.tokenConsumed + (f.preConsumed - quota) } acc₁ := by
      refine ht.reserved hw (hdb ▸ htaken) (hdb ▸ hbacked) hpos ?_ fun _ ↦ by omega
      simp only [tokenShare, hp, Bool.false_eq_true, if_false, tokenTaken] at htoken ⊢
      omega
    split at h
    · split at h
      · simp [Session.abandon] at h
      next acc₁ hacc =>
        obtain ⟨rfl, hs⟩ := Prod.mk.inj (some.inj h)
        cases hs
        obtain ⟨hw, hdb, hk⟩ := preConsumeTokenQuota_ok hacc
        exact hcharged hw hdb (by simpa [tokenShare, hp] using hk)
    · obtain ⟨rfl, hs⟩ := Prod.mk.inj (some.inj h)
      cases hs
      obtain ⟨hw, hdb, hk⟩ :=
        increaseTokenQuota_eq s.info { acc with db } (-(f.preConsumed - quota))
      exact hcharged hw hdb (by simpa [tokenShare, hp, sub_eq_add_neg] using hk)

theorem preConsumeFunding_open (ht : TokenOnly start quota s acc)
    (hfresh : s.funding.Fresh rt start.db)
    (h : s.preConsumeFunding rt env acc quota = some (acc', .ok s'))
    (himage : s'.funding.isImage = false) : Open rt start s' acc' := by
  have hnonneg := ht.nonneg
  rw [Session.preConsumeFunding] at h
  cases hf : s.funding with
  | wallet consumed =>
    simp only [hf, Funding.Fresh] at h hfresh
    have hfund : fundingTaken start acc = 0 := by
      rw [fundingTaken, ht.wallet, ht.db, sub_self, sub_self, add_zero]
    split at h
    · obtain ⟨rfl, hs⟩ := Prod.mk.inj (some.inj h)
      cases hs
      refine ⟨ht.settled, ht.refunded, ht.fundingSettled, hnonneg, ht.extraReserved.ge, ?_,
        ht.token, fun _ ↦ ht.tokenConsumed, ?_⟩
      · dsimp only
        omega
      · simp only [Session.Secured]
        exact ⟨by omega, ht.tokenConsumed⟩
    · split at h
      · obtain ⟨rfl, hs⟩ := Prod.mk.inj (some.inj h)
        cases hs
        refine ⟨ht.settled, ht.refunded, ht.fundingSettled, hnonneg, ht.extraReserved.ge, ?_,
          ht.token, fun _ ↦ ht.tokenConsumed, rfl, ht.tokenConsumed⟩
        simp only [fundingTaken] at hfund ⊢
        omega
      · simp at h
  | subscription f =>
    simp only [hf, Funding.Fresh] at h hfresh
    split at h
    · simp at h
    · simp at h
    rename_i db f' hrun
    rw [ht.db] at hrun
    have hfunding := reconcile_funding h
    rw [hfunding.1, Funding.isImage] at himage
    obtain ⟨hbacked, htaken⟩ := run_backed hfresh.1 hfresh.2 hrun himage hfunding.2
    exact reconcile_open ht htaken hbacked h

theorem preConsume_open {info : RelayInfo} {funding : Funding} (hquota : 0 ≤ quota)
    (hfresh : funding.Fresh rt start.db)
    (h : Session.preConsume rt env { info, funding } start quota = some (acc, .ok s))
    (himage : s.funding.isImage = false) : Open rt start s acc := by
  rw [Session.preConsume] at h
  generalize Session.shouldTrust { info, funding } = trusted at h
  have heff : 0 ≤ if trusted = true then 0 else quota := by split <;> omega
  generalize (if trusted = true then 0 else quota) = effective at h heff
  split at h
  · split at h
    · simp at h
    next acc₁ hacc =>
      obtain ⟨hw, hdb, hk⟩ := preConsumeTokenQuota_ok hacc
      refine preConsumeFunding_open ⟨rfl, rfl, rfl, rfl, heff, rfl, hw, hdb, ?_⟩ hfresh h himage
      rw [tokenTaken, hk, sub_sub_cancel]
  · obtain rfl : effective = 0 := by omega
    refine preConsumeFunding_open ⟨rfl, rfl, rfl, rfl, le_rfl, rfl, rfl, rfl, ?_⟩ hfresh h himage
    rw [tokenTaken, sub_self, tokenShare_zero]

def Standing (rt : Runtime) (start : Accounts) (w : Reply) : Prop :=
  Open rt start w.session w.acc ∨ ∃ quota, Final start quota w

theorem invoke_open (ho : Open rt start w.session w.acc) (hreg : Regular rt w c)
    (h : invoke rt w c = some w') : Standing rt start w' ∧
      (∀ q, c.2 = .settle q → w'.session.settled = true → Final start q w') ∧
      (c.2 = .refund → w'.session.refunded = true → Final start 0 w') ∧
      (w'.error ≠ none → fundingTaken start w'.acc = fundingTaken start w.acc ∧
        tokenTaken start w'.acc = tokenTaken start w.acc) := by
  have hreg := hreg ho.settled
  rw [invoke] at h
  cases hc : c.2 with
  | reserve t =>
    rw [hc] at h hreg
    obtain ⟨ho', hinfo, herror⟩ := reserve_open ho (hreg ho.refunded) h
    refine ⟨.inl ho', fun q hq ↦ by simp at hq, fun hr ↦ by simp at hr, fun he ↦ ?_⟩
    rw [ho'.funding_eq, ho'.token_eq, ho.funding_eq, ho.token_eq, hinfo, herror he]
    exact ⟨rfl, rfl⟩
  | settle q =>
    simp only [hc, ho.refunded, Bool.false_eq_true, if_false] at h hreg
    rcases settle_open ho hreg h with ⟨hs, ha⟩ | ⟨herror, hsettled, hfinal⟩
    · have ho' : Open rt start w'.session w'.acc := by rwa [hs, ha]
      refine ⟨.inl ho', fun q _ hq ↦ ?_, fun hr ↦ by simp at hr, fun _ ↦ by simp [ha]⟩
      simp [ho'.settled] at hq
    · refine ⟨.inr ⟨q, hfinal⟩, fun q' hq' _ ↦ ?_, fun hr ↦ by simp at hr,
        fun he ↦ absurd herror he⟩
      exact SessionCall.settle.inj hq' ▸ hfinal
  | refund =>
    rw [hc] at h hreg
    obtain ⟨herror, hcase⟩ := refund_open ho (hreg ho.refunded) h
    rcases hcase with ⟨hs, ha⟩ | ⟨hrefunded, hfinal⟩
    · have ho' : Open rt start w'.session w'.acc := by rwa [hs, ha]
      refine ⟨.inl ho', fun q hq ↦ by simp at hq, fun _ hr ↦ ?_, fun _ ↦ by simp [ha]⟩
      simp [ho'.refunded] at hr
    · exact ⟨.inr ⟨0, hfinal⟩, fun q hq ↦ by simp at hq, fun _ _ ↦ hfinal,
        fun he ↦ absurd herror he⟩

theorem reserve_info (h : s.reserve rt env acc quota = some w) : w.session.info = s.info := by
  rw [Session.reserve] at h
  split at h
  · exact some.inj h ▸ rfl
  dsimp only at h
  split at h
  · simp at h
  · exact some.inj h ▸ rfl
  · split at h
    · obtain ⟨out, -, rfl⟩ := map_eq_some_iff.1 h
      rfl
    · exact some.inj h ▸ rfl

theorem invoke_info (h : invoke rt w c = some w') : w'.session.info = w.session.info := by
  rw [invoke] at h
  split at h
  · exact reserve_info h
  · rw [Session.settle] at h
    split at h
    · exact some.inj h ▸ rfl
    split at h
    · simp at h
    · exact some.inj h ▸ rfl
    · exact some.inj h ▸ rfl
  · rw [Session.refund] at h
    split at h
    · exact some.inj h ▸ rfl
    · obtain ⟨acc₁, -, rfl⟩ := map_eq_some_iff.1 h
      rfl

/-- A session takes what it was settled to, or nothing after a refund, and stays there; a call that
fails takes nothing. -/
theorem session_conserves {info : RelayInfo} {funding : Funding} {w₁ w₂ w₃ : Reply}
    {before after : List (Env × SessionCall)} (hquota : 0 ≤ quota)
    (hfresh : funding.Fresh rt start.db)
    (hpre : Session.preConsume rt env { info, funding } start quota = some (acc, .ok s))
    (himage : s.funding.isImage = false)
    (hreg : Guarded (invoke rt) (Regular rt) { session := s, acc } (before ++ c :: after))
    (h₁ : exec (invoke rt) { session := s, acc } before = some w₁)
    (h₂ : invoke rt w₁ c = some w₂) (h₃ : exec (invoke rt) w₂ after = some w₃) :
    (w₁.session.settled = false → w₁.session.refunded = false →
      (∀ q, c.2 = .settle q → w₂.session.settled = true →
        fundingTaken start w₃.acc = q ∧ tokenTaken start w₃.acc = s.info.tokenShare q) ∧
      (c.2 = .refund → w₂.session.refunded = true →
        fundingTaken start w₃.acc = 0 ∧ tokenTaken start w₃.acc = 0)) ∧
    (w₂.error ≠ none → fundingTaken start w₂.acc = fundingTaken start w₁.acc ∧
      tokenTaken start w₂.acc = tokenTaken start w₁.acc) := by
  have hstart : Standing rt start { session := s, acc } :=
    .inl (preConsume_open hquota hfresh hpre himage)
  have hstanding : Standing rt start w₁ := by
    refine exec_invariant (fun _ _ _ hw hok h ↦ ?_) hstart hreg.left h₁
    rcases hw with ho | ⟨quota, hf⟩
    · exact (invoke_open ho hok h).1
    · exact .inr ⟨quota, (invoke_final hf hok h).1⟩
  obtain ⟨hc, hafter⟩ := hreg.right h₁
  have hlast {q : ℤ} (hf : Final start q w₂) : Final start q w₃ :=
    exec_invariant (fun _ _ _ hw hok h ↦ (invoke_final hw hok h).1) hf (hafter w₂ h₂) h₃
  have hinfo₁ : w₁.session.info = s.info :=
    exec_invariant (I := fun w ↦ w.session.info = s.info)
      (fun _ _ _ hw _ h ↦ (invoke_info h).trans hw) rfl hreg.left h₁
  have hinfo₃ : w₃.session.info = s.info :=
    exec_invariant (I := fun w ↦ w.session.info = s.info)
      (fun _ _ _ hw _ h ↦ (invoke_info h).trans hw) ((invoke_info h₂).trans hinfo₁)
      (hafter w₂ h₂) h₃
  rcases hstanding with ho | ⟨q, hf⟩
  · obtain ⟨-, hsettle, hrefund, herror⟩ := invoke_open ho hc h₂
    refine ⟨fun _ _ ↦ ⟨fun q hq hs ↦ ?_, fun hr hs ↦ ?_⟩, herror⟩
    · have := hlast (hsettle q hq hs)
      exact ⟨this.funding_eq, hinfo₃ ▸ this.token_eq⟩
    · have := hlast (hrefund hr hs)
      exact ⟨this.funding_eq, this.token_eq.trans tokenShare_zero⟩
  · refine ⟨fun hs hr ↦ ?_, fun he ↦ absurd (invoke_final hf hc h₂).2 he⟩
    exact absurd hf.ended (by simp [hs, hr])

namespace Example

def info : RelayInfo where
  isPlayground := false
  tokenUnlimited := false
  forcePreConsume := false
  tokenQuota := 100
  userQuota := 100
  trustQuota := 0
  actualImageCount := none
  otherRatioN := none

def moment : Moment := ⟨11, fun id ↦ some ⟨id, "never", 0⟩⟩

def calmEnv : Env := { first := moment, second := moment }

def accounts : Accounts := ⟨100, 100, Subscription.Example.world.db⟩

def request : SubscriptionFunding where
  requestId := "a"
  userId := 1
  modelName := "gpt"
  effectiveGroup := "default"
  amount := 40
  request := none
  pricing := none

end Example

open Example Subscription.Example in
/-- A wallet session of 10 that is refunded and then settled to 15: the refund gave everything
back, and the settlement takes 5 from the user and the token again. -/
theorem settle_after_refund_charges :
    ∃ s acc w₁ w₂, Session.preConsume utc calmEnv { info, funding := .wallet 0 } accounts 10 =
        some (acc, .ok s) ∧
      exec (invoke utc) { session := s, acc } [(calmEnv, .refund)] = some w₁ ∧
      w₁.session.refunded = true ∧
      (fundingTaken accounts w₁.acc, tokenTaken accounts w₁.acc) = (0, 0) ∧
      exec (invoke utc) w₁ [(calmEnv, .settle 15)] = some w₂ ∧
      (fundingTaken accounts w₂.acc, tokenTaken accounts w₂.acc) = (5, 5) := by
  refine ⟨_, _, _, _, rfl, rfl, rfl, ?_, rfl, ?_⟩
  · decide
  · decide

open Example Subscription.Example in
/-- A session on a subscription: 40 are reserved, then 60, and 50 are settled. -/
theorem session_conserves_subscription :
    ∃ s acc w₁ w₂,
      Session.preConsume utc calmEnv { info, funding := .subscription request } accounts 40 =
        some (acc, .ok s) ∧
      exec (invoke utc) { session := s, acc } [(calmEnv, .reserve 60)] = some w₁ ∧
      invoke utc w₁ (calmEnv, .settle 50) = some w₂ ∧
      fundingTaken accounts w₂.acc = 50 ∧ tokenTaken accounts w₂.acc = 50 := by
  have hcalm (db : Db) (funding : Funding) : funding.Calm utc calmEnv db := by
    have hquiet (row : UserSubscription) : quiet utc moment.plans moment.now row = true := by
      have hnever : normalizeResetPeriod utc "never" = .never := by decide
      rw [quiet]
      split
      · rfl
      next plan hplan =>
        split at hplan
        · cases hplan
          simp [hnever]
        · simp at hplan
    cases funding with
    | wallet consumed => trivial
    | subscription f => exact ⟨fun _ row _ ↦ hquiet row, fun _ row _ ↦ hquiet row⟩
  have hfresh : (Funding.subscription request).Fresh utc accounts.db := by
    refine ⟨rfl, fun row hrow ↦ ?_⟩
    obtain rfl : row = dayAndHalf := by simpa [accounts, world] using hrow
    exact ⟨fun id hid ↦ by simp [dayAndHalf] at hid, List.nodup_nil⟩
  obtain ⟨s, acc, w₁, w₂, hpre, himage, hinfo, h₁, hopen, hrefunded, h₂, hsettled⟩ :
      ∃ s acc w₁ w₂,
        Session.preConsume utc calmEnv { info, funding := .subscription request } accounts 40 =
          some (acc, .ok s) ∧ s.funding.isImage = false ∧ s.info = info ∧
        invoke utc { session := s, acc } (calmEnv, .reserve 60) = some w₁ ∧
        w₁.session.settled = false ∧ w₁.session.refunded = false ∧
        invoke utc w₁ (calmEnv, .settle 50) = some w₂ ∧ w₂.session.settled = true :=
    ⟨_, _, _, _, rfl, rfl, rfl, rfl, rfl, rfl, rfl, rfl⟩
  have hrun : exec (invoke utc) { session := s, acc } [(calmEnv, .reserve 60)] = some w₁ :=
    exec_cons.2 ⟨w₁, h₁, rfl⟩
  have hreg : Guarded (invoke utc) (Regular utc) { session := s, acc }
      ([(calmEnv, .reserve 60)] ++ (calmEnv, .settle 50) :: []) := by
    refine ⟨fun _ _ ↦ hcalm _ _, fun t ht ↦ ⟨fun _ ↦ ?_, fun _ _ ↦ trivial⟩⟩
    obtain rfl := some.inj (h₁.symm.trans ht)
    simp only [hrefunded, Bool.false_eq_true, if_false]
    refine fun _ ↦ ⟨hcalm _ _, ?_⟩
    cases w₁.session.funding with
    | wallet consumed => trivial
    | subscription f => exact (by decide : (0 : ℤ) ≤ 50)
  have hall := session_conserves (by decide) hfresh hpre himage hreg hrun h₂ rfl
  refine ⟨s, acc, w₁, w₂, hpre, hrun, h₂, ?_⟩
  have := (hall.1 hopen hrefunded).1 50 rfl hsettled
  rwa [hinfo] at this

end Moligate.Billing
