import Moligate.Cdk.Orders

namespace Moligate.Cdk

open Foundation Option List Rows System

variable {π : Type} [DecidableEq π] {trimSpace : String → String}

structure SameOrder (o o' : AffiliateCdkOrder) : Prop where
  id : o'.id = o.id
  tradeNo : o'.tradeNo = o.tradeNo
  quantity : o'.quantity = o.quantity
  codeQuota : o'.codeQuota = o.codeQuota

theorem SameOrder.refl {o : AffiliateCdkOrder} : SameOrder o o := ⟨rfl, rfl, rfl, rfl⟩

def codesOf (redemptions : List Redemption) (o : AffiliateCdkOrder) : List Redemption :=
  redemptions.filter (isCodeOf o.id)

/-- As many codes as the order has paid for, of the quota it has paid for; none before that. -/
structure Issued (o : AffiliateCdkOrder) (codes : List Redemption) : Prop where
  count : (codes.length : ℤ) = if o.status = .success then o.quantity else 0
  quota : ∀ r ∈ codes, r.quota = o.codeQuota

structure Consistent (w : World π) : Prop where
  keyed : ∀ t o, w.orders.committed t = some o → o.tradeNo = t
  ids : ∀ t t' o o', w.orders.committed t = some o → w.orders.committed t' = some o' →
    o.id = o'.id → t = t'
  issued : ∀ t o, w.orders.committed t = some o → Issued o (codesOf w.redemptions o)
  completed : ∀ t ∈ w.completed, ∃ o, w.orders.committed t = some o ∧ o.status = .success

def Known (w : World π) (order : AffiliateCdkOrder) : Prop :=
  ∃ o, w.orders.committed order.tradeNo = some o ∧ SameOrder o order

def Writes (row : AffiliateCdkOrder) (codes : List Redemption) : Prop :=
  Issued row codes ∧ ∀ r ∈ codes, isCodeOf row.id r = true

def Locks (w : World π) (p : π) (t : String) (row : AffiliateCdkOrder) : Prop :=
  w.orders.own p t = some (some row) ∧ ∀ k ≠ t, w.orders.own p k = none

def NoLocks (w : World π) (p : π) : Prop := ∀ k, w.orders.own p k = none

def Stage.Holds (p : π) (w : World π) : Stage → Prop
  | .countCodes _ order | .createCodes _ order =>
    NoLocks w p ∧ Known w order ∧ 0 < order.quantity
  | .save row codes => NoLocks w p ∧ Known w row ∧ Writes row codes
  | .commit row codes =>
    Locks w p row.tradeNo row ∧ Writes row codes ∧
      ∃ o, w.orders.committed row.tradeNo = some o ∧ SameOrder o row ∧ o.status = .pending
  | .idle | .findOrder _ | .findExpiring _ _ | .done _ => NoLocks w p

/-- An order is saved over a row that is still pending. -/
def pendingAtSave (w : World π) : Stage → Bool
  | .save row _ => (w.orders.committed row.tradeNo).any (·.status = .pending)
  | _ => true

def Keeps (p : π) (w w' : World π) : Prop :=
  (∀ q k, q ≠ p → w'.orders.own q k = w.orders.own q k) ∧
    (∀ q k, q ≠ p → w.orders.own q k ≠ none →
      w'.orders.committed k = w.orders.committed k) ∧
    ∀ t o, w.orders.committed t = some o → ∃ o', w'.orders.committed t = some o' ∧ SameOrder o o'

variable {p : π} {w w' : World π}

theorem Keeps.of_orders (h : w'.orders = w.orders) : Keeps p w w' := by
  refine ⟨fun q k _ ↦ by rw [h], fun q k _ _ ↦ by rw [h], fun t o ho ↦ ⟨o, h ▸ ho, .refl⟩⟩

theorem Known.stable {order : AffiliateCdkOrder} (h : Known w order) (hkeeps : Keeps p w w') :
    Known w' order := by
  obtain ⟨o, ho, hsame⟩ := h
  obtain ⟨o', ho', hsame'⟩ := hkeeps.2.2 _ o ho
  refine ⟨o', ho', ?_⟩
  exact ⟨hsame.id.trans hsame'.id.symm, hsame.tradeNo.trans hsame'.tradeNo.symm,
    hsame.quantity.trans hsame'.quantity.symm, hsame.codeQuota.trans hsame'.codeQuota.symm⟩

theorem NoLocks.stable {q : π} (h : NoLocks w q) (hpq : p ≠ q) (hkeeps : Keeps p w w') :
    NoLocks w' q := fun k ↦ by
  rw [hkeeps.1 q k hpq.symm]
  exact h k

theorem Stage.Holds.stable {q : π} {stage : Stage} (hpq : p ≠ q) (h : stage.Holds q w)
    (hkeeps : Keeps p w w') : stage.Holds q w' := by
  cases stage with
  | countCodes | createCodes | save =>
    exact ⟨h.1.stable hpq hkeeps, h.2.1.stable hkeeps, h.2.2⟩
  | commit row codes =>
    obtain ⟨⟨hown, hnone⟩, hwrites, o, ho, hsame, hpending⟩ := h
    have hlocked : w.orders.own q row.tradeNo ≠ none := by simp [hown]
    refine ⟨⟨(hkeeps.1 q _ hpq.symm).trans hown, fun k hk ↦ ?_⟩, hwrites, o, ?_, hsame, hpending⟩
    · rw [hkeeps.1 q k hpq.symm]
      exact hnone k hk
    · rw [hkeeps.2.1 q _ hpq.symm hlocked, ho]
  | idle | findOrder _ | findExpiring _ _ | done _ => exact NoLocks.stable h hpq hkeeps

section

variable {p : π} {w : World π} {row order : AffiliateCdkOrder} {codes : List Redemption}
  {args : CompleteArgs} {fails : Bool} {now : ℤ}

abbrev Safe (p : π) (w : World π) (out : World π × Stage) : Prop :=
  Config.Safe Consistent Stage.Holds Keeps p w out

variable {stage : Stage} {out : World π × Stage} {o : AffiliateCdkOrder}

variable (hw : Consistent w)
include hw

theorem Safe.stay (h : stage.Holds p w) : Safe p w (w, stage) := ⟨hw, h, .of_orders rfl⟩

theorem safe_findOrder (hl : NoLocks w p) : Safe p w (findOrder w p args fails) := by
  rw [findOrder]
  split
  · exact .stay hw hl
  rename_i order hread
  rw [read_of_not_own (hl _)] at hread
  split_ifs with _ _ hsuccess _ hinvalid
  · exact .stay hw hl
  · exact .stay hw hl
  · refine ⟨{ hw with completed := fun t ht ↦ ?_ }, hl, .of_orders rfl⟩
    rcases mem_cons.1 ht with rfl | ht
    · exact ⟨order, hread, hsuccess⟩
    · exact hw.completed t ht
  · exact .stay hw hl
  · exact .stay hw hl
  · exact .stay hw ⟨hl, ⟨order, hw.keyed _ order hread ▸ hread, .refl⟩, by omega⟩

omit hw in
theorem writes_newCodes {uuid : ℕ → String} (hquantity : 0 < order.quantity) :
    Writes (completed trimSpace args order now) (newCodes order now uuid) := by
  refine ⟨⟨?_, fun r hr ↦ ?_⟩, fun r hr ↦ ?_⟩
  · rw [newCodes, length_map, length_range]
    exact Int.toNat_of_nonneg hquantity.le
  all_goals
    obtain ⟨i, -, rfl⟩ := mem_map.1 hr
    simp [newCode, completed, isCodeOf]

theorem safe_findExpiring {tradeNo : String} {provider : Option TopUps.PaymentProvider}
    (hl : NoLocks w p) : Safe p w (w, findExpiring w p tradeNo provider now fails) := by
  rw [findExpiring]
  split
  · exact .stay hw hl
  rename_i order hread
  rw [read_of_not_own (hl _)] at hread
  split_ifs
  iterate 3 exact .stay hw hl
  · refine .stay hw ⟨hl, ⟨order, hw.keyed _ order hread ▸ hread, ⟨rfl, rfl, rfl, rfl⟩⟩, ?_⟩
    exact ⟨⟨rfl, fun _ hr ↦ absurd hr not_mem_nil⟩, fun _ hr ↦ absurd hr not_mem_nil⟩

theorem safe_rollback {r : Except CdkOrderError Unit} :
    Safe p w ({ w with orders := w.orders.rollback p }, .done r) where
  shared := { hw with }
  own _ := own_rollback_self
  others := ⟨fun _ _ hq ↦ own_rollback_other hq, fun _ _ _ _ ↦ rfl, fun _ o ho ↦ ⟨o, ho, .refl⟩⟩

theorem safe_saveRow (h : (Stage.save row codes).Holds p w)
    (hpending : pendingAtSave w (.save row codes) = true)
    (hout : saveRow w p row codes fails = some out) : Safe p w out := by
  obtain ⟨hl, ⟨o, ho, hsame⟩, hwrites⟩ := h
  rw [saveRow] at hout
  split_ifs at hout with hfree
  · cases hout
    exact safe_rollback hw
  · cases hout
    have hfree : w.orders.free p row.tradeNo = true := by simpa using hfree
    rw [pendingAtSave, ho] at hpending
    refine ⟨{ hw with }, ?_, ?_⟩
    · refine ⟨⟨own_write_self, fun k hk ↦ ?_⟩, hwrites, o, ho, hsame,
        of_decide_eq_true hpending⟩
      exact (own_write_of_ne hk).trans (hl k)
    · exact ⟨fun q k hq ↦ own_write_other hfree hq, fun _ _ _ _ ↦ rfl,
        fun _ o ho ↦ ⟨o, ho, .refl⟩⟩

omit hw in
theorem committed_of_locks {t k : String} (h : Locks w p t row) :
    (w.orders.commit p).committed k = some o ↔
      k = t ∧ o = row ∨ k ≠ t ∧ w.orders.committed k = some o := by
  by_cases hk : k = t
  · subst hk
    simp [read_of_own h.1, eq_comm]
  · simp [read_of_not_own (h.2 k hk), hk]

omit hw in
theorem codesOf_append {redemptions : List Redemption}
    (hcodes : ∀ r ∈ codes, isCodeOf row.id r = true) :
    codesOf (redemptions ++ codes) o =
      codesOf redemptions o ++ if o.id = row.id then codes else [] := by
  rw [codesOf, filter_append, codesOf]
  congr 1
  split
  next hid => exact filter_eq_self.2 fun r hr ↦ hid ▸ hcodes r hr
  next hid =>
    refine filter_eq_nil_iff.2 fun r hr h ↦ hid ?_
    have hr := hcodes r hr
    simp only [isCodeOf, Bool.and_eq_true, decide_eq_true_eq] at h hr
    exact h.2.symm.trans hr.2

theorem consistent_commit (hlocks : Locks w p row.tradeNo row) (hwrites : Writes row codes)
    (ho : w.orders.committed row.tradeNo = some o) (hsame : SameOrder o row)
    (hpending : o.status = .pending) : Consistent (commitRow w p row codes false).1 := by
  have hnone : codesOf w.redemptions o = [] := by
    have hcount := (hw.issued _ o ho).count
    rw [if_neg (by simp [hpending])] at hcount
    exact length_eq_zero_iff.1 (by omega)
  have hbefore (t : String) (o' : AffiliateCdkOrder)
      (h : (w.orders.commit p).committed t = some o') :
      ∃ o₀, w.orders.committed t = some o₀ ∧ o'.id = o₀.id := by
    rcases (committed_of_locks hlocks).1 h with ⟨rfl, rfl⟩ | ⟨-, h⟩
    · exact ⟨o, ho, hsame.id⟩
    · exact ⟨o', h, rfl⟩
  refine ⟨fun t o' ho' ↦ ?_, fun t t' o₁ o₂ h₁ h₂ hid ↦ ?_, fun t o' ho' ↦ ?_, fun t ht ↦ ?_⟩
  · rcases (committed_of_locks hlocks).1 ho' with ⟨rfl, rfl⟩ | ⟨-, h⟩
    · rfl
    · exact hw.keyed t o' h
  · obtain ⟨o₁', h₁', hid₁⟩ := hbefore t o₁ h₁
    obtain ⟨o₂', h₂', hid₂⟩ := hbefore t' o₂ h₂
    exact hw.ids t t' o₁' o₂' h₁' h₂' (hid₁.symm.trans (hid.trans hid₂))
  · change Issued o' (codesOf (w.redemptions ++ codes) o')
    rw [codesOf_append hwrites.2]
    rcases (committed_of_locks hlocks).1 ho' with ⟨rfl, rfl⟩ | ⟨ht, h⟩
    · have hsameCodes : codesOf w.redemptions o' = codesOf w.redemptions o := by
        rw [codesOf, hsame.id, codesOf]
      rw [if_pos rfl, hsameCodes, hnone, nil_append]
      exact hwrites.1
    · have hid : o'.id ≠ row.id := fun hid ↦
        ht (hw.ids t _ o' o h ho (hid.trans hsame.id))
      rw [if_neg hid, append_nil]
      exact hw.issued t o' h
  · have hold (t : String) (ht : t ∈ w.completed) :
        ∃ o', (w.orders.commit p).committed t = some o' ∧ o'.status = .success := by
      obtain ⟨o', ho', hsuccess⟩ := hw.completed t ht
      refine ⟨o', (committed_of_locks hlocks).2 (.inr ⟨?_, ho'⟩), hsuccess⟩
      rintro rfl
      obtain rfl := some.inj (ho.symm.trans ho')
      rw [hpending] at hsuccess
      cases hsuccess
    change t ∈ (if row.status = .success then row.tradeNo :: w.completed else w.completed) at ht
    split at ht
    next hsuccess =>
      rcases mem_cons.1 ht with rfl | ht
      · exact ⟨row, (committed_of_locks hlocks).2 (.inl ⟨rfl, rfl⟩), hsuccess⟩
      · exact hold t ht
    · exact hold t ht

theorem safe_commitRow (h : (Stage.commit row codes).Holds p w) :
    Safe p w (commitRow w p row codes fails) := by
  obtain ⟨hlocks, hwrites, o, ho, hsame, hpending⟩ := h
  cases fails with
  | true => exact safe_rollback hw
  | false =>
    refine ⟨consistent_commit hw hlocks hwrites ho hsame hpending,
      fun k ↦ own_commit_self, fun q k hq ↦ own_commit_other hq,
      -- the row that is committed was locked, so no other transaction has locked it
      fun q k hq hk ↦ read_of_not_own (own_eq_none_of_other hk hq), fun t o' ho' ↦ ?_⟩
    by_cases ht : t = row.tradeNo
    · subst ht
      obtain rfl := some.inj (ho.symm.trans ho')
      exact ⟨row, (committed_of_locks hlocks).2 (.inl ⟨rfl, rfl⟩), hsame⟩
    · exact ⟨o', (committed_of_locks hlocks).2 (.inr ⟨ht, ho'⟩), .refl⟩

theorem safe_next {uuid : ℕ → String} (h : stage.Holds p w)
    (hpending : pendingAtSave w stage = true)
    (hout : next trimSpace w p now uuid fails stage = some out) : Safe p w out := by
  cases stage with
  | findOrder args =>
    cases hout
    exact safe_findOrder hw h
  | countCodes args order =>
    rw [next] at hout
    split_ifs at hout <;> cases hout
    · exact .stay hw h.1
    · exact .stay hw h.1
    · exact .stay hw h
  | createCodes args order =>
    obtain ⟨hl, ⟨o, ho, hsame⟩, hquantity⟩ := h
    rw [next] at hout
    split_ifs at hout <;> cases hout
    · exact .stay hw hl
    · refine .stay hw ⟨hl, ⟨o, ho, ?_⟩, writes_newCodes hquantity⟩
      exact { hsame with }
  | findExpiring tradeNo provider =>
    cases hout
    exact safe_findExpiring hw h
  | save row codes => exact safe_saveRow hw h hpending hout
  | commit row codes =>
    cases hout
    exact safe_commitRow hw h
  | idle | done _ => exact absurd hout (by simp [next])

omit hw in
theorem noLocks_of_isFree (h : stage.Holds p w) (hfree : stage.isFree = true) : NoLocks w p := by
  cases stage with
  | idle | done _ => exact h
  | _ => exact nomatch hfree

theorem safe_perform {a : Action} (h : stage.Holds p w) (hpending : pendingAtSave w stage = true)
    (hout : perform trimSpace p a w stage = some out) : Safe p w out := by
  cases a with
  | next now uuid fails => exact safe_next hw h hpending hout
  | completeAffiliateCdkOrder _ | expireAffiliateCdkOrder _ _ =>
    rw [perform] at hout
    split_ifs at hout with hfree <;> obtain rfl := some.inj hout <;>
      exact .stay hw (noLocks_of_isFree h (by simpa using hfree))

end

def start (orders : String → Option AffiliateCdkOrder) (redemptions : List Redemption) :
    Config (World π) π Stage :=
  ⟨⟨.ofCommitted orders, redemptions, []⟩, fun _ ↦ .idle⟩

/-- Whatever the interleaving, if every order is saved over a row that is still pending, a paid
order has its codes once, any other order has none, and an order that was reported as completed
stays successful. -/
theorem codes_issued_once {orders : String → Option AffiliateCdkOrder}
    {redemptions : List Redemption} {run : List (π × Action)} {c : Config (World π) π Stage}
    (hkeyed : ∀ t o, orders t = some o → o.tradeNo = t)
    (hids : ∀ t t' o o', orders t = some o → orders t' = some o' → o.id = o'.id → t = t')
    (hissued : ∀ t o, orders t = some o → Issued o (codesOf redemptions o))
    (hguard : Guarded (step trimSpace)
      (fun c a ↦ pendingAtSave c.shared (c.thread a.1) = true) (start orders redemptions) run)
    (hrun : exec (step trimSpace) (start orders redemptions) run = some c) :
    (∀ t o, c.shared.orders.committed t = some o → Issued o (codesOf c.shared.redemptions o)) ∧
      ∀ t ∈ c.shared.completed,
        ∃ o, c.shared.orders.committed t = some o ∧ o.status = .success := by
  have hstart : (start orders redemptions : Config (World π) π Stage).Holds Consistent
      Stage.Holds :=
    ⟨⟨hkeyed, hids, hissued, fun _ ht ↦ absurd ht not_mem_nil⟩, fun _ _ ↦ own_ofCommitted⟩
  have hholds := Config.exec_safe (R := Keeps)
    (fun _ _ _ _ _ hw hstage hpending h ↦ safe_perform hw hstage hpending h)
    (fun _ _ _ _ _ hpq hstage ↦ hstage.stable hpq) hstart hguard hrun
  exact ⟨hholds.1.issued, hholds.1.completed⟩

namespace Example

def order : AffiliateCdkOrder where
  id := 5
  userId := 7
  tradeNo := "CDK1"
  quantity := 2
  codeQuota := 500
  paymentMethod := "alipay"
  paymentProvider := .epay
  status := .pending
  completeTime := 0
  providerPayload := ""

def orders : String → Option AffiliateCdkOrder := fun t ↦ if t = "CDK1" then some order else none

def complete : Action := .completeAffiliateCdkOrder ⟨"CDK1", "paid", some .epay, "wxpay"⟩

def expire : Action := .expireAffiliateCdkOrder "CDK1" (some .epay)

def uuid (name : String) : ℕ → String := fun i ↦ name ++ toString i

def go (p : ℕ) : ℕ × Action := (p, .next 1000 (uuid (toString p)) false)

def serial : List (ℕ × Action) :=
  [(1, complete), go 1, go 1, go 1, go 1, go 1, (2, complete), go 2, (3, expire), go 3]

/-- Both callbacks have read the pending order and counted its codes before one of them inserts. -/
def doubled : List (ℕ × Action) :=
  [(1, complete), (2, complete), go 1, go 2, go 1, go 2, go 1, go 2, go 1, go 1, go 2, go 2]

/-- The expiry has read the pending order before the callback commits. -/
def overtaken : List (ℕ × Action) :=
  [(1, complete), (2, expire), go 2, go 1, go 1, go 1, go 1, go 1, go 2, go 2]

end Example

open Example

def outcome (tradeNo : String) (orderId : ℤ) (w : World ℕ) :
    Option TopUps.TopUpStatus × ℕ × List String :=
  ((w.orders.committed tradeNo).map (·.status), w.redemptions.countP (isCodeOf orderId), w.completed)

theorem codes_issued_once_serial :
    ∃ c : Config (World ℕ) ℕ Stage,
      exec (step id) (start orders []) serial = some c ∧
        outcome "CDK1" 5 c.shared = (some .success, 2, ["CDK1", "CDK1"]) ∧
        ∀ t o, c.shared.orders.committed t = some o →
          Issued o (codesOf c.shared.redemptions o) := by
  obtain ⟨c, hrun, h⟩ := map_eq_some_iff.1
    (show (exec (step id) (start orders []) serial).map
        (fun c ↦ outcome "CDK1" 5 c.shared) = some (some .success, 2, ["CDK1", "CDK1"]) by
      decide +kernel)
  have hfound (t : String) (o : AffiliateCdkOrder) (ho : orders t = some o) :
      t = "CDK1" ∧ o = order := by
    rw [orders] at ho
    split at ho
    next ht => exact ⟨ht, (some.inj ho).symm⟩
    · cases ho
  refine ⟨c, hrun, h, (codes_issued_once (fun t o ho ↦ ?_) (fun t t' o o' ho ho' _ ↦ ?_)
    (fun t o ho ↦ ?_) (by decide +kernel) hrun).1⟩
  · obtain ⟨rfl, rfl⟩ := hfound t o ho
    rfl
  · rw [(hfound t o ho).1, (hfound t' o' ho').1]
  · obtain ⟨rfl, rfl⟩ := hfound t o ho
    exact ⟨rfl, fun _ hr ↦ absurd hr not_mem_nil⟩

/-- Nothing locks the row between the read of the status and the save: both callbacks issue the
codes of one order, and an order that was reported as completed expires. -/
theorem codes_doubled_and_completed_expired :
    (exec (step id) (start orders []) doubled).map
        (fun c ↦ outcome "CDK1" 5 c.shared) = some (some .success, 4, ["CDK1", "CDK1"]) ∧
      (exec (step id) (start orders []) overtaken).map
        (fun c ↦ outcome "CDK1" 5 c.shared) = some (some .expired, 2, ["CDK1"]) := by
  decide +kernel

end Moligate.Cdk
