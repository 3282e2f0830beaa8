import Moligate.Affiliate.Invariant
import Moligate.Foundation.Call

namespace Moligate.Affiliate

open Foundation List Rows Process Config

variable {τ : Type*} [DecidableEq τ] {quotaPerUnit : ℚ} {start db db' : Db τ} {t t' : τ}
  {p p' : Process} {k : ℤ}

structure Resting (p : Process) : Prop where
  written : p.written = p.inserted
  credits : p.credits = p.redeemed
  outstanding : ∀ u, p.outstanding u = 0

def Stage.Rests : Stage → Prop
  | .idle | .select _ | .calls _ => True
  | _ => False

theorem resting_of_rests (h : p.stage.Rests) : Resting p := by
  cases hstage : p.stage with
  | idle | select _ | calls _ =>
    exact ⟨by rw [written, hstage], by rw [credits, hstage], fun u ↦ by rw [outstanding, hstage]⟩
  | _ => simp [hstage, Stage.Rests] at h

theorem Open.of_resting {stage : Stage} (h : Open quotaPerUnit t db p) (hr : Resting p)
    (hstage : stage.Rests) : Open quotaPerUnit t db (p.goto stage) := by
  have hr' : Resting (p.goto stage) := resting_of_rests hstage
  refine h.congr (hr'.written.trans hr.written.symm) (hr'.credits.trans hr.credits.symm)
    (fun u ↦ (hr'.outstanding u).trans (hr.outstanding u).symm) ?_ ?_
  · intro call rows points quota todo hcontra
    rw [show stage = _ from hcontra] at hstage
    exact hstage.elim
  · intro c hc
    cases stage with
    | idle | select _ | calls _ => simp [Process.snapshot, Process.goto] at hc
    | _ => exact hstage.elim

theorem begin_rests {txn : Txn} {stage : Stage} (h : txn.begin = .ok stage) : stage.Rests := by
  cases txn with
  | redeem userId ids points =>
    rw [Txn.begin] at h
    obtain ⟨ids, -, rfl⟩ := except_map_eq_ok.1 h
    trivial
  | offlineCashback promoterId points =>
    rw [Txn.begin] at h
    split_ifs at h
    exact Except.ok.inj h ▸ trivial
  | settle ids =>
    rw [Txn.begin] at h
    split at h
    · simp at h
    · simp at h
    · exact Except.ok.inj h ▸ trivial

variable {call : Consume} {rows : List AffiliateCommission} {points quota : ℤ} {todo : List Consume}

theorem plan_quote (h : call.plan quotaPerUnit rows = .ok (points, quota)) :
    quoteAffiliateRewardPoints quotaPerUnit points = .ok quota := by
  rw [Consume.plan] at h
  dsimp only at h
  generalize call.requested.getD _ = n at h
  split_ifs at h
  obtain ⟨q, hq, hout⟩ := except_map_eq_ok.1 h
  cases hout
  exact hq

theorem Open.fresh (hcommissions : ∀ k, db.commissions.own t k = none)
    (husers : ∀ u, db.users.own t u = none) : Open quotaPerUnit t db {} where
  rows k row h := by simp [hcommissions] at h
  written := nofun
  balances := .of_unlocked husers
  quotes := nofun
  planned := nofun
  points _ := rfl
  snapshot := nofun

theorem rollbackStep_affects : Affects t db (rollbackStep db t) where
  ids := rfl
  commissions _ ht _ := own_rollback_other ht
  users _ ht _ := own_rollback_other ht
  terms _ := rfl
  balances _ _ := rfl
  settlements := ⟨[], by simp [rollbackStep], by simp⟩

section

variable (h : Open quotaPerUnit t db p)
include h

theorem creditStep_inv (hI : Ledger quotaPerUnit start db) (hstage : p.stage = .credit call rows points quota todo)
    (huser : call.settlementType = .wallet → (db.users.read t call.userId).isSome)
    (hstep : creditStep db t p call quota (.update call rows points quota points todo) =
      some (db', p')) :
    Ledger quotaPerUnit start db' ∧ TxInv quotaPerUnit t db' p' ∧ Affects t db db' := by
  have hwritten : p.written = p.inserted := by rw [written, hstage]
  have hcredits : p.credits = p.redeemed := by rw [credits, hstage]
  have houtstanding (u : ℤ) : p.outstanding u = 0 := by rw [outstanding, hstage]
  have hsnapshot : p.snapshot = rows.map fun c ↦ (call.userId, c) := by
    rw [snapshot, hstage]
  have hrows := h.rows
  have howned := h.written
  have hread := h.snapshot
  rw [hwritten] at hrows howned
  rw [hsnapshot] at hread
  rw [creditStep] at hstep
  split at hstep
  next hty =>
    obtain ⟨users, hcredit, hout⟩ := Option.map_eq_some_iff.1 hstep
    cases hout
    obtain ⟨hpending, hcommitted, hothers⟩ := h.balances.credit (huser hty) hcredit
    refine ⟨{ hI with quota := hcommitted ▸ hI.quota }, .inr ?_, ⟨rfl, fun _ _ _ ↦ rfl, hothers,
      fun _ ↦ rfl, fun u _ ↦ congrFun hcommitted u, ⟨[], by simp, by simp⟩⟩⟩
    have hcredits' : (p.goto (.update call rows points quota points todo)).credits =
        p.redeemed ++ [⟨call.userId, points, quota⟩] := if_pos hty
    refine ⟨hrows, howned, ?_, ?_, by rintro _ _ _ _ _ ⟨⟩, ?_, hread⟩
    · have hsum : (fun u ↦ sumFor u Redemption.quota
          (p.goto (.update call rows points quota points todo)).credits) =
          fun u ↦ sumFor u Redemption.quota p.credits + if u = call.userId then quota else 0 := by
        funext u
        rw [hcredits', hcredits, sumFor_append, sumFor_singleton]
        simp [eq_comm]
      rw [hsum]
      exact hpending
    · intro r hr
      rw [hcredits', mem_append, mem_singleton] at hr
      rcases hr with hr | rfl
      · exact h.quotes r (hcredits ▸ hr)
      · exact h.planned _ _ _ _ _ hstage
    · intro u
      have := h.points u
      rw [houtstanding, hcredits, hwritten] at this
      rw [hcredits', sumFor_append, sumFor_singleton, ← this, add_zero]
      congr 1
      simp [outstanding, goto, hty]
  next hty =>
    split at hstep
    · cases hstep
      refine ⟨hI, .inr (h.congr ?_ ?_ ?_ (by rintro _ _ _ _ _ ⟨⟩) hread), .refl⟩
      · rw [hwritten]
        rfl
      · rw [hcredits]
        simp [credits, goto, hty]
      · intro u
        rw [houtstanding]
        simp [outstanding, goto, hty]
    · cases hstep
      exact ⟨hI, .inl ⟨_, rfl⟩, .refl⟩

theorem Open.settle {row : AffiliateCommission} (inserted : AffiliateCommissionSettlement)
    (hid : inserted.commissionId ∈ db.ids)
    (hterms : row.terms = (db.commissions.committed inserted.commissionId).terms)
    (hsound : Sound inserted.commissionId row (db.settlements ++ p.written ++ [inserted]))
    (hpromoter : inserted.promoterId = (db.commissions.committed inserted.commissionId).promoterId)
    (hwritten : p'.written = p.written ++ [inserted]) (hcredits : p'.credits = p.credits)
    (hplanned : ∀ call rows points quota todo, p'.stage ≠ .credit call rows points quota todo)
    (hpoints : ∀ u, walletOf u [inserted] + p'.outstanding u = p.outstanding u)
    (hsnapshot : ∀ c ∈ p'.snapshot, c.2.id ∈ db.ids ∧
      c.2.terms = (db.commissions.committed c.2.id).terms ∧ c.2.promoterId = c.1) :
    Open quotaPerUnit t
      { db with commissions := db.commissions.write t inserted.commissionId row } p' where
  rows k row' hown := by
    rw [hwritten, ← append_assoc]
    by_cases hk : k = inserted.commissionId
    · subst hk
      rw [own_write_self, Option.some.injEq] at hown
      exact hown ▸ ⟨hid, hterms, hsound⟩
    · rw [own_write_of_ne hk] at hown
      obtain ⟨hk', hterms, hs⟩ := h.rows k row' hown
      refine ⟨hk', hterms, hs.append fun s hs ↦ ?_⟩
      rw [mem_singleton.1 hs]
      exact Ne.symm hk
  written s hs := by
    rw [hwritten, mem_append, mem_singleton] at hs
    by_cases hk : s.commissionId = inserted.commissionId
    · refine ⟨by rw [hk, own_write_self]; rfl, ?_⟩
      rcases hs with hs | rfl
      · exact (h.written s hs).2
      · exact hpromoter
    · rcases hs with hs | rfl
      · rw [own_write_of_ne hk]
        exact h.written s hs
      · exact absurd rfl hk
  balances := hcredits ▸ h.balances
  quotes := hcredits ▸ h.quotes
  planned call rows points quota todo hstage := absurd hstage (hplanned call rows points quota todo)
  points u := by
    have hu := h.points u
    rw [← hpoints u] at hu
    rw [hcredits, hwritten, ← hu]
    simp [walletOf, add_assoc]
  snapshot := hsnapshot

theorem read_terms (k : ℤ) :
    (db.commissions.read t k).terms = (db.commissions.committed k).terms := by
  cases hown : db.commissions.own t k with
  | none => rw [read_of_not_own hown]
  | some row =>
    rw [read_of_own hown]
    exact (h.rows k row hown).2.1

theorem finishCall_inv {remaining : ℤ}
    (hstage : p.stage = .update call rows points quota remaining todo) :
    TxInv quotaPerUnit t db (finishCall p call points quota remaining todo) := by
  rw [finishCall]
  split
  · exact .inl ⟨_, rfl⟩
  rename_i hzero
  rw [not_not] at hzero
  refine .inr (h.congr ?_ ?_ ?_ nofun nofun)
  · rw [written, written, hstage]
  · rw [credits, credits, hstage]
  · intro u
    rw [outstanding, outstanding, hstage]
    simp [hzero]

end

/-- A record that is updated is still as it was read, and a user who redeems exists. -/
def Fresh (t : τ) (db : Db τ) (p : Process) : Prop :=
  match p.stage with
  | .credit call _ _ _ _ =>
    call.settlementType = .wallet → (db.users.read t call.userId).isSome
  | .update _ rows _ _ remaining _ => (nextRecord rows remaining).all fun next ↦
      (db.commissions.read t next.1.id).settledPoints = next.1.settledPoints
  | _ => True

instance : Decidable (Fresh t db p) := by
  unfold Fresh
  split <;> infer_instance

section

variable (hI : Ledger quotaPerUnit start db)
include hI

theorem consumeStep_inv (h : Open quotaPerUnit t db p) (hr : Resting p) :
    TxInv quotaPerUnit t db (consumeStep db t quotaPerUnit p call todo) := by
  rw [consumeStep]
  split
  · exact .inl ⟨_, rfl⟩
  · exact .inl ⟨_, rfl⟩
  rename_i points quota _ hplan
  refine .inr (h.congr hr.written.symm hr.credits.symm (fun u ↦ (hr.outstanding u).symm) ?_ ?_)
  · intro call' rows' points' quota' todo' hstage
    obtain ⟨-, -, rfl, rfl, -⟩ := Stage.credit.inj hstage
    exact plan_quote hplan
  · intro c hc
    obtain ⟨d, hd, rfl⟩ := mem_map.1 hc
    rw [Db.selectCommissions, mem_insertionSort, mem_filter, mem_map] at hd
    obtain ⟨⟨k, hk, hread⟩, hsel⟩ := hd
    have hterms := (h.read hI hk).1
    rw [hread] at hterms
    have hid : d.id = k := (congrArg (·.1) hterms).trans (hI.sound k hk).1
    simp only [Consume.selects, Bool.and_eq_true, decide_eq_true_eq] at hsel
    exact ⟨hid ▸ hk, hid ▸ hterms, hsel.1.1⟩

theorem updateStep_inv {rest : List AffiliateCommission} {remaining n : ℤ} {c : AffiliateCommission}
    (h : Open quotaPerUnit t db p)
    (hstage : p.stage = .update call rows points quota remaining todo)
    (hnext : nextRecord rows remaining = some (c, n, rest))
    (hsame : (db.commissions.read t c.id).settledPoints = c.settledPoints)
    (hstep : updateStep db t quotaPerUnit p call c n
      (fun row ↦ .insert call row rest points quota remaining todo) = some (db', p')) :
    Ledger quotaPerUnit start db' ∧ TxInv quotaPerUnit t db' p' ∧ Affects t db db' := by
  have hread := h.snapshot
  rw [show p.snapshot = rows.map fun c ↦ (call.userId, c) by rw [snapshot, hstage]] at hread
  obtain ⟨hmem, hrest, hpos, hle⟩ := nextRecord_spec hnext
  obtain ⟨hid, hterms, hpromoter⟩ := hread (call.userId, c) (mem_map_of_mem hmem)
  obtain ⟨hterms', hsound⟩ := h.read hI hid
  rw [updateStep] at hstep
  split at hstep
  · cases hstep
    exact ⟨hI, .inl ⟨_, rfl⟩, .refl⟩
  rename_i walletQuota hquote
  dsimp only at hstep
  split at hstep
  · simp at hstep
  rename_i hfree
  rw [Bool.not_eq_true, Bool.not_eq_false'] at hfree
  split at hstep
  · cases hstep
    refine ⟨{ hI with }, .inr ?_, ⟨rfl,
      fun t' ht k ↦ own_write_other hfree ht, fun _ _ _ ↦ rfl, fun _ ↦ rfl,
      fun _ _ ↦ rfl, ⟨[], by simp, by simp⟩⟩⟩
    refine h.settle ⟨c.id, call.userId, call.settlementType, n,
      if call.settlementType = .wallet then walletQuota else 0⟩ hid
      (.trans (by cases call.settlementType <;> rfl) hterms') (settleRecord_sound hsound ?_ hsame hpos hle)
      (hpromoter.symm.trans (congrArg (·.2.1) hterms)) ?_ ?_ (by rintro _ _ _ _ _ ⟨⟩) ?_ ?_
    · exact congrArg (·.2.2) (hterms.trans hterms'.symm)
    · rw [show p.written = p.inserted by rw [written, hstage]]
      rfl
    · rw [credits, credits, hstage]
      rfl
    · intro u
      simp only [walletOf, pointsOf_singleton, outstanding, goto, hstage]
      by_cases hu : call.userId = u ∧ call.settlementType = .wallet
      · simp [hu.1, hu.2]
      · rw [if_neg hu, if_neg hu, if_neg]
        · omega
        · simpa using hu
    · intro d hd
      obtain ⟨e, he, rfl⟩ := mem_map.1 hd
      exact hread _ (mem_map_of_mem (hrest e he))
  · cases hstep
    exact ⟨hI, .inl ⟨_, rfl⟩, .refl⟩

theorem commitStep_ledger (h : Open quotaPerUnit t db p) (hr : Resting p) :
    Ledger quotaPerUnit start (commitStep db t p) where
  sound k hk := by
    obtain ⟨hterms, hsound⟩ := h.read hI hk
    rw [hr.written] at hsound
    exact ⟨(congrArg (·.1) hterms).trans (hI.sound k hk).1, hsound⟩
  promoter s hs := by
    have hterms := congrArg (·.2.1) (read_terms h s.commissionId)
    refine Eq.trans ?_ hterms.symm
    rcases mem_append.1 hs with hs | hs
    · exact hI.promoter s hs
    · exact (h.written s (hr.written ▸ hs)).2
  points u := by
    have hpoints := h.points u
    rw [hr.written, hr.outstanding, hr.credits, add_zero] at hpoints
    simp only [commitStep, walletOf, pointsOf_append, sumFor_append] at hpoints ⊢
    have := hI.points u
    simp only [walletOf] at this
    omega
  quota u := by
    change db.users.read t u = _
    rw [h.balances.read, hI.quota, hr.credits, Option.map_map]
    simp only [commitStep, sumFor_append]
    congr 1
    funext balance
    exact add_assoc _ _ _
  quotes r hmem := by
    rcases mem_append.1 hmem with hmem | hmem
    · exact hI.quotes r hmem
    · exact h.quotes r (hr.credits ▸ hmem)

theorem perform_inv {a : Action} (hL : TxInv quotaPerUnit t db p) (hG : Fresh t db p)
    (h : perform quotaPerUnit t a db p = some (db', p')) :
    Ledger quotaPerUnit start db' ∧ TxInv quotaPerUnit t db' p' ∧ Affects t db db' := by
  have hopen (hstage : ∀ e, p.stage ≠ .failed e) : Open quotaPerUnit t db p :=
    hL.resolve_left fun ⟨e, he⟩ ↦ hstage e he
  unfold perform at h
  split at h
  next txn hstage =>
    have ho := hopen (by simp [hstage])
    split at h
    · cases h
      exact ⟨hI, hL, .refl⟩
    next stage hbegin =>
      cases h
      refine ⟨hI, .inr (ho.of_resting (resting_of_rests (by rw [hstage]; trivial)) ?_), .refl⟩
      exact begin_rests hbegin
  · cases h
    refine ⟨{ hI with }, .inr ?_, rollbackStep_affects⟩
    exact .fresh (fun _ ↦ own_rollback_self) (fun _ ↦ own_rollback_self)
  next ids calls hstage =>
    obtain ⟨q, hq, hout⟩ := Option.map_eq_some_iff.1 h
    cases hout
    have ho := hopen (by simp [hstage])
    refine ⟨hI, ?_, .refl⟩
    rw [selectStep] at hq
    split at hq
    · cases hq
      exact .inl ⟨_, rfl⟩
    · split at hq
      · cases hq
        exact .inr (ho.of_resting (resting_of_rests (by rw [hstage]; trivial)) trivial)
      · simp at hq
  next hstage =>
    cases h
    have ho := hopen (by simp [hstage])
    have hr := resting_of_rests (p := p) (by rw [hstage]; trivial)
    refine ⟨commitStep_ledger hI ho hr, .inr ?_, rfl, fun _ ht _ ↦ own_commit_other ht,
      fun _ ht _ ↦ own_commit_other ht, fun k ↦ read_terms ho k, fun _ hu ↦ read_of_not_own hu,
      p.inserted, rfl, fun s hs ↦ (ho.written s (hr.written ▸ hs)).1⟩
    exact .fresh (fun _ ↦ own_commit_self) (fun _ ↦ own_commit_self)
  next call todo hstage =>
    cases h
    have ho := hopen (by simp [hstage])
    exact ⟨hI, consumeStep_inv hI ho (resting_of_rests (by rw [hstage]; trivial)), .refl⟩
  next call rows points quota todo hstage =>
    have ho := hopen (by simp [hstage])
    rw [Fresh, hstage] at hG
    exact creditStep_inv ho hI hstage hG h
  next call rows points quota remaining todo hstage =>
    have ho := hopen (by simp [hstage])
    rw [Fresh, hstage] at hG
    split at h
    · cases h
      exact ⟨hI, finishCall_inv ho hstage, .refl⟩
    next c n rest hnext =>
      exact updateStep_inv hI ho hstage hnext (by simpa [hnext] using hG) h
  next call row rows points quota remaining todo hstage =>
    cases h
    have ho := hopen (by simp [hstage])
    refine ⟨hI, .inr (ho.congr ?_ ?_ ?_ (by simp) ?_), .refl⟩
    · rw [written, written, hstage]
    · rw [credits, credits, hstage]
    · intro u
      rw [outstanding, outstanding, hstage]
    · have hs := ho.snapshot
      rw [snapshot, hstage] at hs
      exact hs
  · simp at h
  · simp at h
  · cases h
    exact ⟨hI, .inl ⟨_, rfl⟩, .refl⟩
  · simp at h

end

structure Initial (c : Config (Db τ) τ Process) : Prop where
  sound : ∀ k ∈ c.shared.ids, (c.shared.commissions.committed k).id = k ∧
    Sound k (c.shared.commissions.committed k) c.shared.settlements
  promoter : ∀ s ∈ c.shared.settlements,
    s.promoterId = (c.shared.commissions.committed s.commissionId).promoterId
  redemptions : c.shared.redemptions = []
  commissions : ∀ t k, c.shared.commissions.own t k = none
  users : ∀ t u, c.shared.users.own t u = none
  idle : ∀ t, c.thread t = {}

theorem Initial.holds {c : Config (Db τ) τ Process} (h : Initial c) :
    Config.Holds (Ledger quotaPerUnit c.shared) (TxInv quotaPerUnit) c := by
  refine ⟨⟨h.sound, h.promoter, fun u ↦ ?_, fun u ↦ ?_, fun r hr ↦ ?_⟩, fun t ↦ .inr ?_⟩
  · simp [h.redemptions]
  · simp [h.redemptions]
  · simp [h.redemptions] at hr
  · rw [h.idle]
    exact .fresh (h.commissions t) (h.users t)

/-- In every interleaving of redemptions, cashbacks and settlements whose updates meet the record
as it was read, every commission agrees with its settlements, and a wallet is credited with the
quotes of the points that were taken from commissions for it. -/
theorem rewardPoints_spent_once {c c' : Config (Db τ) τ Process} {as : List (τ × Action)}
    (hinit : Initial c)
    (hfresh : Guarded (step (perform quotaPerUnit))
      (fun c a ↦ Fresh a.1 c.shared (c.thread a.1)) c as)
    (hrun : exec (step (perform quotaPerUnit)) c as = some c') :
    (∀ k ∈ c'.shared.ids,
      Sound k (c'.shared.commissions.committed k) c'.shared.settlements) ∧
    (∀ u, c'.shared.users.committed u = (c.shared.users.committed u).map
        (· + sumFor u Redemption.quota c'.shared.redemptions) ∧
      walletOf u c'.shared.settlements = walletOf u c.shared.settlements +
        sumFor u Redemption.points c'.shared.redemptions) ∧
    ∀ r ∈ c'.shared.redemptions, quoteAffiliateRewardPoints quotaPerUnit r.points = .ok r.quota := by
  have hheld : Config.Holds (Ledger quotaPerUnit c.shared) (TxInv quotaPerUnit) c' :=
    exec_holds (fun t a db p db' p' hI hL hG h ↦ perform_inv hI hL hG h)
      (fun t t' db db' p hne hL hR ↦ hL.stable hne hR) hinit.holds hfresh hrun
  have hledger := hheld.1
  exact ⟨fun k hk ↦ (hledger.sound k hk).2, fun u ↦ ⟨hledger.quota u, hledger.points u⟩,
    hledger.quotes⟩

namespace Example

def config : Config (Db ℕ) ℕ Process where
  shared :=
    { ids := [1]
      commissions := .ofCommitted fun k ↦
        { id := k, promoterId := 7, rewardPoints := 10, createdAt := 0 }
      users := .ofCommitted fun _ ↦ some 0
      settlements := []
      redemptions := [] }
  thread := fun _ ↦ {}

def redeemSix : Action := .start (.redeem 7 [] (some 6))

def rest (t : ℕ) : List (ℕ × Action) := List.replicate 5 (t, .next)

end Example

open Example in
/-- Two redemptions of six points read the same commission of ten: both succeed, twelve points are
settled, the commission is still pending and the wallet is credited for twelve. -/
theorem redemptions_overspend :
    (exec (step (perform 5)) config
      ([(1, redeemSix), (2, redeemSix), (1, .next), (2, .next)] ++ rest 1 ++ rest 2)).map
      (fun c ↦ ((c.shared.commissions.committed 1).settledPoints,
        (c.shared.commissions.committed 1).rewardPoints,
        (c.shared.commissions.committed 1).status, c.shared.users.committed 7,
        c.shared.redemptions)) =
    some (12, 10, .pending, some 60, [⟨7, 6, 30⟩, ⟨7, 6, 30⟩]) := by
  decide +kernel

open Example in
/-- One redemption after the other: the second takes the four points that are left. -/
theorem rewardPoints_spent_once_serial :
    ∃ c', exec (step (perform 5)) config
        ([(1, redeemSix), (1, .next)] ++ rest 1 ++
          [(2, .start (.redeem 7 [] none)), (2, .next)] ++ rest 2) = some c' ∧
      Sound 1 (c'.shared.commissions.committed 1) c'.shared.settlements ∧
      c'.shared.ids = [1] := by
  have hinit : Initial config := by
    refine ⟨fun k hk ↦ ⟨rfl, ?_⟩, fun s hs ↦ ?_, rfl, fun _ _ ↦ rfl, fun _ _ ↦ rfl, fun _ ↦ rfl⟩
    · obtain rfl : k = 1 := by simpa [config] using hk
      exact ⟨by decide, by decide, rfl, rfl, rfl, by decide⟩
    · simp [config] at hs
  obtain ⟨c', hrun, hids⟩ : ∃ c', exec (step (perform 5)) config
      ([(1, redeemSix), (1, .next)] ++ rest 1 ++
        [(2, .start (.redeem 7 [] none)), (2, .next)] ++ rest 2) = some c' ∧ c'.shared.ids = [1] :=
    Option.map_eq_some_iff.1 (by decide +kernel)
  refine ⟨c', hrun, ?_, hids⟩
  exact (rewardPoints_spent_once hinit (by decide +kernel) hrun).1 1 (by simp [hids])

end Moligate.Affiliate
