import Moligate.Purchases.Orders

namespace Moligate.Purchases

open Foundation Subscription Option List Rows Bool System

variable {π : Type} [DecidableEq π] {shop : Shop} {k m : ℤ}
  {orders₀ : String → Option SubscriptionOrder} {subs₀ : List SubscriptionRow}

/-- A plan with the id `k` allows `m` purchases to each user. -/
def Limited (k m : ℤ) (plan : Plan) : Prop := plan.id = k → plan.maxPurchasePerUser = m

def subCount (w : World π) (u k : ℤ) : ℕ := w.subs.countP (isOf u k)

def createdCount (w : World π) (u k : ℤ) : ℕ := w.created.countP fun e ↦ isOf u k e.row

structure Invariant (shop : Shop) (k m : ℤ) (orders₀ : String → Option SubscriptionOrder)
    (subs₀ : List SubscriptionRow) (w : World π) : Prop where
  subs : w.subs = subs₀ ++ w.created.map Created.row
  success : ∀ t o, w.orders.committed t = some o → o.status = .success →
    (∃ o₀, orders₀ t = some o₀ ∧ o₀.status = .success) ∨
      ∃ e ∈ w.created, e.tradeNo = some t ∧ e.row.userId = o.userId
  pending : ∀ t o plan, w.orders.committed t = some o → o.status = .pending →
    planOfOrder shop o = .ok plan → Limited k m plan
  alone : ∀ e ∈ w.counting, ∀ e' ∈ w.counting, e.planId = k → e'.planId = k →
    e.userId = e'.userId → e.thread = e'.thread
  room : ∀ e ∈ w.counting, e.planId = k → (subCount w e.userId k : ℤ) < m
  bound : ∀ u, createdCount w u k = 0 ∨ (subCount w u k : ℤ) ≤ m
  locked : ∀ e ∈ w.counting, e.locksUser = true → w.users.own e.thread e.userId ≠ none

structure Opened (k m : ℤ) (w : World π) (p : π) (job : Job) : Prop where
  orders : ∀ t, w.orders.own p t ≠ none ↔ ∃ args o, job.origin = .order args o ∧ args.tradeNo = t
  limited : Limited k m job.plan
  buyer : ∀ args o, job.origin = .order args o → o.userId = job.userId
  locked : job.locksUser = true → w.users.own p job.userId ≠ none

def HasCounted (w : World π) (p : π) (u k planId : ℤ) : Prop :=
  planId = k → ∃ e ∈ w.counting, e.thread = p ∧ e.userId = u ∧ e.planId = k

def NoOrders (w : World π) (p : π) : Prop := ∀ t, w.orders.own p t = none

def Stage.Holds (k m : ℤ) (p : π) (w : World π) : Stage → Prop
  | .idle | .lockOrder _ | .done _ => NoOrders w p
  | .lockUser job => NoOrders w p ∧ Limited k m job.plan ∧ job.locksUser = true
  | .count job => Opened k m w p job
  | .readGroup job | .setGroup job _ | .create job _ =>
    Opened k m w p job ∧ HasCounted w p job.userId k job.plan.id
  | .record job row =>
    Opened k m w p job ∧ HasCounted w p job.userId k job.plan.id ∧
      row.userId = job.userId ∧ row.planId = job.plan.id
  | .commit row tradeNo _ =>
    HasCounted w p row.userId k row.planId ∧
      ∀ t v, w.orders.own p t = some v →
        tradeNo = some t ∧ ∃ o, v = some o ∧ o.status = .success ∧ o.userId = row.userId

/-- When a transaction counts, no other one that has counted the same subscriptions is still open,
unless both lock the user. -/
def apart (w : World π) : Stage → Bool
  | .count job => w.counting.all fun e ↦
      !(e.userId = job.userId && e.planId = job.plan.id) || e.locksUser && job.locksUser
  | _ => true

structure Keeps (p : π) (w w' : World π) : Prop where
  orders : ∀ q t, q ≠ p → w'.orders.own q t = w.orders.own q t
  users : ∀ q u, q ≠ p → w'.users.own q u = w.users.own q u
  counting : ∀ e ∈ w.counting, e.thread ≠ p → e ∈ w'.counting

section

variable {p q : π} {w w' : World π} {job : Job}

theorem NoOrders.stable (h : NoOrders w q) (hq : q ≠ p) (hkeeps : Keeps p w w') :
    NoOrders w' q := fun t ↦ (hkeeps.orders q t hq).trans (h t)

theorem Opened.stable (h : Opened k m w q job) (hq : q ≠ p) (hkeeps : Keeps p w w') :
    Opened k m w' q job where
  orders t := by
    rw [hkeeps.orders q t hq]
    exact h.orders t
  limited := h.limited
  buyer := h.buyer
  locked hlocks := by
    rw [hkeeps.users q _ hq]
    exact h.locked hlocks

theorem HasCounted.stable {u planId : ℤ} (h : HasCounted w q u k planId) (hq : q ≠ p)
    (hkeeps : Keeps p w w') : HasCounted w' q u k planId := fun hk ↦ by
  obtain ⟨e, he, hthread, hkey⟩ := h hk
  exact ⟨e, hkeeps.counting e he (hthread ▸ hq), hthread, hkey⟩

theorem Stage.Holds.stable {stage : Stage} (hq : q ≠ p) (h : stage.Holds k m q w)
    (hkeeps : Keeps p w w') : stage.Holds k m q w' := by
  cases stage with
  | idle | lockOrder _ | done _ => exact NoOrders.stable h hq hkeeps
  | lockUser job => exact ⟨h.1.stable hq hkeeps, h.2⟩
  | count job => exact Opened.stable h hq hkeeps
  | readGroup job | setGroup job _ | create job _ =>
    exact ⟨h.1.stable hq hkeeps, h.2.stable hq hkeeps⟩
  | record job row => exact ⟨h.1.stable hq hkeeps, h.2.1.stable hq hkeeps, h.2.2⟩
  | commit row tradeNo topUp =>
    exact ⟨h.1.stable hq hkeeps, fun t v hv ↦ h.2 t v (hkeeps.orders q t hq ▸ hv)⟩

variable {stage : Stage} {out : World π × Stage} {currentGroup : String}

abbrev Safe (shop : Shop) (k m : ℤ) (orders₀ : String → Option SubscriptionOrder)
    (subs₀ : List SubscriptionRow) (p : π) (w : World π) (out : World π × Stage) : Prop :=
  Config.Safe (Invariant shop k m orders₀ subs₀) (Stage.Holds k m) Keeps p w out

section

variable (hw : Invariant shop k m orders₀ subs₀ w)
include hw

theorem Invariant.frame (horders : w'.orders.committed = w.orders.committed)
    (hsubs : w'.subs = w.subs) (hcreated : w'.created = w.created)
    (hcounting : ∀ e ∈ w'.counting, e ∈ w.counting)
    (hown : ∀ e ∈ w'.counting, w.users.own e.thread e.userId ≠ none →
      w'.users.own e.thread e.userId ≠ none) :
    Invariant shop k m orders₀ subs₀ w' where
  subs := by rw [hsubs, hcreated, hw.subs]
  success t o ho hs := by
    rw [hcreated]
    exact hw.success t o (horders ▸ ho) hs
  pending t o plan ho := hw.pending t o plan (horders ▸ ho)
  alone e he e' he' := hw.alone e (hcounting e he) e' (hcounting e' he')
  room e he hk := by
    rw [subCount, hsubs]
    exact hw.room e (hcounting e he) hk
  bound u := by
    rw [createdCount, hcreated, subCount, hsubs]
    exact hw.bound u
  locked e he hlocks := hown e he (hw.locked e (hcounting e he) hlocks)

theorem Safe.stay (h : stage.Holds k m p w) : Safe shop k m orders₀ subs₀ p w (w, stage) :=
  ⟨hw, h, ⟨fun _ _ _ ↦ rfl, fun _ _ _ ↦ rfl, fun _ he _ ↦ he⟩⟩

theorem safe_abort {e : OrderError} : Safe shop k m orders₀ subs₀ p w (w.abort p e) where
  shared := by
    refine hw.frame rfl rfl rfl (fun e he ↦ mem_of_mem_filter he) fun e he hown ↦ ?_
    rwa [show (w.abort p _).1.users = w.users.rollback p from rfl,
      own_rollback_other (of_decide_eq_true (mem_filter.1 he).2)]
  own _ := own_rollback_self
  others :=
    ⟨fun _ _ hq ↦ own_rollback_other hq, fun _ _ hq ↦ own_rollback_other hq,
      fun _ he hq ↦ mem_filter.2 ⟨he, decide_eq_true hq⟩⟩

theorem safe_writeOrder {t : String} {v : Option SubscriptionOrder}
    (hfree : w.orders.free p t = true)
    (h : stage.Holds k m p { w with orders := w.orders.write p t v }) :
    Safe shop k m orders₀ subs₀ p w ({ w with orders := w.orders.write p t v }, stage) where
  shared := hw.frame rfl rfl rfl (fun _ he ↦ he) fun _ _ hown ↦ hown
  own := h
  others := ⟨fun _ _ hq ↦ own_write_other hfree hq, fun _ _ _ ↦ rfl, fun _ he _ ↦ he⟩

theorem safe_writeUser {u : ℤ} {v : Option Member} (hfree : w.users.free p u = true)
    (h : stage.Holds k m p { w with users := w.users.write p u v }) :
    Safe shop k m orders₀ subs₀ p w ({ w with users := w.users.write p u v }, stage) where
  shared := hw.frame rfl rfl rfl (fun _ he ↦ he) fun _ _ hown ↦ own_write_ne_none hfree hown
  own := h
  others := ⟨fun _ _ _ ↦ rfl, fun _ _ hq ↦ own_write_other hfree hq, fun _ he _ ↦ he⟩

theorem safe_lockOrder {args : CompleteArgs} (hl : NoOrders w p)
    (hout : lockOrder shop w p args = some out) : Safe shop k m orders₀ subs₀ p w out := by
  rw [lockOrder] at hout
  split at hout
  · cases hout
  rename_i hfree
  split at hout
  · exact some.inj hout ▸ .stay hw hl
  rename_i order horder
  split_ifs at hout with _ _ hpending
  iterate 3 exact some.inj hout ▸ .stay hw hl
  · split at hout
    · exact some.inj hout ▸ .stay hw hl
    rename_i plan hplan
    cases hout
    refine safe_writeOrder hw (by simpa using hfree) ⟨fun t ↦ ⟨fun ht ↦ ?_, ?_⟩, ?_, ?_, ?_⟩
    · refine ⟨args, order, rfl, ?_⟩
      by_contra hne
      exact ht ((own_write_of_ne (Ne.symm hne)).trans (hl t))
    · rintro ⟨_, _, ⟨⟩, rfl⟩
      simp
    · exact hw.pending _ order plan horder (not_not.1 hpending) hplan
    · rintro _ _ ⟨⟩
      rfl
    · rintro ⟨⟩

theorem safe_lockUser (h : (Stage.lockUser job).Holds k m p w)
    (hout : lockUser w p job = some out) : Safe shop k m orders₀ subs₀ p w out := by
  obtain ⟨hl, hlimited, hlocks⟩ := h
  rw [lockUser] at hout
  split at hout
  · cases hout
  rename_i hfree
  have hlock (v : Option Member) : Safe shop k m orders₀ subs₀ p w
      ({ w with users := w.users.write p job.userId v }, .count job) := by
    have hnone (args : CompleteArgs) (o : SubscriptionOrder) (horigin : job.origin = .order args o) :
        False := by
      rw [Job.locksUser, horigin] at hlocks
      cases hlocks
    refine safe_writeUser hw (by simpa using hfree)
      ⟨fun t ↦ ⟨fun ht ↦ absurd (hl t) ht, ?_⟩, hlimited, fun args o horigin ↦ ?_, fun _ ↦ ?_⟩
    · rintro ⟨args, o, horigin, -⟩
      exact (hnone args o horigin).elim
    · exact (hnone args o horigin).elim
    · simp
  split at hout
  · exact some.inj hout ▸ .stay hw hl
  split at hout
  · split at hout
    · exact some.inj hout ▸ .stay hw hl
    · exact some.inj hout ▸ hlock _
  · exact some.inj hout ▸ hlock _

theorem thread_of_apart {e : Counted π} (h : Opened k m w p job)
    (hapart : apart w (.count job) = true) (he : e ∈ w.counting) (hu : e.userId = job.userId)
    (hplan : e.planId = job.plan.id) : e.thread = p := by
  have hboth := all_eq_true.1 hapart e he
  simp only [hu, hplan, decide_true, Bool.and_self, Bool.not_true, Bool.false_or,
    and_eq_true] at hboth
  obtain ⟨r, hr⟩ := ne_none_iff_exists'.1 (hw.locked e he hboth.1)
  obtain ⟨r', hr'⟩ := ne_none_iff_exists'.1 (h.locked hboth.2)
  exact own_unique (hu ▸ hr) hr'

end

theorem safe_count (hm : 0 < m) (hw : Invariant shop k m orders₀ subs₀ w) (h : Opened k m w p job)
    (hapart : apart w (.count job) = true) : Safe shop k m orders₀ subs₀ p w (count w p job) := by
  rw [count]
  split_ifs with _ _ hlimit hfull
  iterate 3 exact safe_abort hw
  · refine ⟨⟨hw.subs, hw.success, hw.pending, ?_, ?_, hw.bound, ?_⟩, ?_,
      ⟨fun _ _ _ ↦ rfl, fun _ _ _ ↦ rfl, fun _ he _ ↦ mem_cons_of_mem _ he⟩⟩
    · intro e he e' he' hk hk' hu
      rcases mem_cons.1 he with rfl | he <;> rcases mem_cons.1 he' with rfl | he'
      · rfl
      · exact (thread_of_apart hw h hapart he' hu.symm (hk'.trans hk.symm)).symm
      · exact thread_of_apart hw h hapart he hu (hk.trans hk'.symm)
      · exact hw.alone e he e' he' hk hk' hu
    · intro e he hk
      rcases mem_cons.1 he with rfl | he
      · have hplan : job.plan.id = k := hk
        rw [h.limited hplan, hplan, not_le] at hfull
        exact hfull
      · exact hw.room e he hk
    · intro e he hlocks
      rcases mem_cons.1 he with rfl | he
      · exact h.locked hlocks
      · exact hw.locked e he hlocks
    · exact ⟨{ h with }, fun hk ↦ ⟨_, mem_cons_self, rfl, rfl, hk⟩⟩
  · refine .stay hw ⟨h, fun hk ↦ ?_⟩
    rw [h.limited hk] at hlimit
    exact absurd hm hlimit

theorem safe_setGroup (hw : Invariant shop k m orders₀ subs₀ w)
    (h : (Stage.setGroup job currentGroup).Holds k m p w)
    (hout : setGroup shop w p job currentGroup = some out) :
    Safe shop k m orders₀ subs₀ p w out := by
  rw [setGroup] at hout
  split at hout
  · cases hout
  rename_i hfree
  have hfree : w.users.free p job.userId = true := by simpa using hfree
  cases hout
  obtain ⟨hopened, hcounted⟩ := h
  refine safe_writeUser hw hfree ⟨{ hopened with locked := ?_ }, hcounted⟩
  exact fun hlocks ↦ own_write_ne_none hfree (hopened.locked hlocks)

variable {now : ℤ} {row : SubscriptionRow} {tradeNo : String} {plan : SalePlan} {a : Action}

theorem own_order_of_write {t t' : String} {v v' : Option SubscriptionOrder}
    (h : ∀ t', w.orders.own p t' ≠ none → t' = t)
    (hv : (w.orders.write p t v).own p t' = some v') : t' = t ∧ v' = v := by
  by_cases ht : t' = t
  · subst ht
    rw [own_write_self] at hv
    exact ⟨rfl, (some.inj hv).symm⟩
  · rw [own_write_of_ne ht] at hv
    exact absurd (h t' (by simp [hv])) ht

section

variable (hw : Invariant shop k m orders₀ subs₀ w)
include hw

theorem safe_create (h : (Stage.create job currentGroup).Holds k m p w) :
    Safe shop k m orders₀ subs₀ p w (create shop w p job currentGroup now) := by
  rw [create]
  split
  · exact safe_abort hw
  rename_i row hrow
  obtain ⟨hopened, hcounted⟩ := h
  refine ⟨{ hw with }, ?_, ⟨fun _ _ _ ↦ rfl, fun _ _ _ ↦ rfl, fun _ he _ ↦ he⟩⟩
  obtain ⟨-, -, -, hplan, huser, -⟩ := newSubscription_spec hrow
  exact ⟨{ hopened with }, hcounted, huser, hplan⟩

theorem safe_record (h : (Stage.record job row).Holds k m p w)
    (hout : record shop w p job row now tradeNo = some out) :
    Safe shop k m orders₀ subs₀ p w out := by
  obtain ⟨hopened, hcounted, huser, hplan⟩ := h
  have hcounted' : HasCounted w p row.userId k row.planId := by
    rw [huser, hplan]
    exact hcounted
  rw [record] at hout
  split at hout
  next args order horigin =>
    have hkey (t : String) (ht : w.orders.own p t ≠ none) : t = args.tradeNo := by
      obtain ⟨args', o, h, rfl⟩ := (hopened.orders t).1 ht
      rw [horigin] at h
      cases h
      rfl
    split at hout
    · exact some.inj hout ▸ safe_abort hw
    cases hout
    obtain ⟨r, hr⟩ := ne_none_iff_exists'.1
      ((hopened.orders args.tradeNo).2 ⟨args, order, horigin, rfl⟩)
    refine safe_writeOrder hw (free_of_own hr) ⟨hcounted', fun t v hv ↦ ?_⟩
    obtain ⟨rfl, rfl⟩ := own_order_of_write hkey hv
    exact ⟨rfl, _, rfl, rfl, (hopened.buyer args order horigin).trans huser.symm⟩
  next priceAmount requiredQuota horigin =>
    have hnone (t : String) (ht : w.orders.own p t ≠ none) : t = tradeNo := by
      obtain ⟨args', o, h, rfl⟩ := (hopened.orders t).1 ht
      rw [horigin] at h
      cases h
    split_ifs at hout with _ hfree
    iterate 2 exact some.inj hout ▸ safe_abort hw
    · cases hout
      refine safe_writeOrder hw (by simpa using hfree) ⟨hcounted', fun t v hv ↦ ?_⟩
      obtain ⟨rfl, rfl⟩ := own_order_of_write hnone hv
      exact ⟨rfl, _, rfl, rfl, huser.symm⟩
  next options preview bindNow horigin =>
    cases hout
    have hlocks : job.locksUser = true := by rw [Job.locksUser, horigin]
    obtain ⟨v, hv⟩ := ne_none_iff_exists'.1 (hopened.locked hlocks)
    refine safe_writeUser hw (free_of_own hv) ⟨hcounted', fun t v hv ↦ ?_⟩
    obtain ⟨args', o, h, rfl⟩ := (hopened.orders t).1 (show w.orders.own p t ≠ none by simp [hv])
    rw [horigin] at h
    cases h

theorem safe_commit {tradeNo : Option String} {topUp : Option SubscriptionTopUp}
    (h : (Stage.commit row tradeNo topUp).Holds k m p w) :
    Safe shop k m orders₀ subs₀ p w (commit w p row tradeNo topUp) := by
  obtain ⟨hcounted, hown⟩ := h
  have hsub (u : ℤ) : (w.subs ++ [row]).countP (isOf u k) =
      subCount w u k + if isOf u k row then 1 else 0 := by
    simp [subCount, countP_cons]
  -- a stored order is the one that is committed here, or one that was there before
  have hstored (t : String) (o : SubscriptionOrder)
      (ho : (w.orders.commit p).committed t = some o) :
      (tradeNo = some t ∧ o.status = .success ∧ o.userId = row.userId) ∨
        w.orders.committed t = some o := by
    cases hv : w.orders.own p t with
    | none => exact .inr ((read_of_not_own hv).symm.trans ho)
    | some v =>
      obtain ⟨ht, o', rfl, hs⟩ := hown t v hv
      obtain rfl := some.inj ((read_of_own hv).symm.trans ho)
      exact .inl ⟨ht, hs⟩
  refine ⟨⟨?_, fun t o ho hs ↦ ?_, fun t o plan ho hpending ↦ ?_, fun e he e' he' ↦ ?_,
    fun e he hk ↦ ?_, fun u ↦ ?_, fun e he hlocks ↦ ?_⟩, fun t ↦ own_commit_self, ?_⟩
  · change w.subs ++ [row] = subs₀ ++ (w.created ++ [Created.mk tradeNo row]).map Created.row
    rw [hw.subs, map_append, append_assoc]
    rfl
  · rcases hstored t o ho with ⟨ht, -, huser⟩ | ho
    · exact .inr ⟨_, mem_append_right _ mem_cons_self, ht, huser.symm⟩
    · refine (hw.success t o ho hs).imp_right ?_
      rintro ⟨e, he, hkey⟩
      exact ⟨e, mem_append_left _ he, hkey⟩
  · rcases hstored t o ho with ⟨-, hs, -⟩ | ho
    · rw [hs] at hpending
      cases hpending
    · exact hw.pending t o plan ho hpending
  · exact hw.alone e (mem_of_mem_filter he) e' (mem_of_mem_filter he')
  · have hthread : e.thread ≠ p := of_decide_eq_true (mem_filter.1 he).2
    have he := mem_of_mem_filter he
    have hother : isOf e.userId k row = false := by
      simp only [isOf, eq_false_iff, Ne, and_eq_true, decide_eq_true_eq]
      rintro ⟨hu, hplan⟩
      obtain ⟨e', he', ht', hu', hk'⟩ := hcounted hplan
      exact hthread ((hw.alone e he e' he' hk hk' (hu.symm.trans hu'.symm)).trans ht')
    change ((w.subs ++ [row]).countP (isOf e.userId k) : ℤ) < m
    rw [hsub, hother]
    exact hw.room e he hk
  · change createdCount (commit w p row tradeNo topUp).1 u k = 0 ∨
      ((w.subs ++ [row]).countP (isOf u k) : ℤ) ≤ m
    by_cases hrow : isOf u k row = true
    · obtain ⟨rfl, hplan⟩ : row.userId = u ∧ row.planId = k := by simpa [isOf] using hrow
      right
      rw [hsub, if_pos hrow]
      obtain ⟨e, he, -, hu, hk⟩ := hcounted hplan
      exact hu ▸ hw.room e he hk
    · rw [hsub, if_neg hrow]
      refine (hw.bound u).imp_left fun hzero ↦ ?_
      rw [createdCount] at hzero ⊢
      simp [commit, hzero, hrow]
  · have hthread : e.thread ≠ p := of_decide_eq_true (mem_filter.1 he).2
    change (w.users.commit p).own e.thread e.userId ≠ none
    rw [own_commit_other hthread]
    exact hw.locked e (mem_of_mem_filter he) hlocks
  · exact ⟨fun _ _ hq ↦ own_commit_other hq, fun _ _ hq ↦ own_commit_other hq,
      fun _ he hq ↦ mem_filter.2 ⟨he, decide_eq_true hq⟩⟩

end

theorem safe_next (hm : 0 < m) (hw : Invariant shop k m orders₀ subs₀ w)
    (h : stage.Holds k m p w) (hapart : apart w stage = true)
    (hout : next shop w p now tradeNo stage = some out) : Safe shop k m orders₀ subs₀ p w out := by
  cases stage with
  | lockOrder args => exact safe_lockOrder hw h hout
  | lockUser job => exact safe_lockUser hw h hout
  | count job => exact some.inj hout ▸ safe_count hm hw h hapart
  | readGroup job => exact some.inj hout ▸ .stay hw (by rw [readGroup]; split <;> exact h)
  | setGroup job currentGroup => exact safe_setGroup hw h hout
  | create job currentGroup => exact some.inj hout ▸ safe_create hw h
  | record job row => exact safe_record hw h hout
  | commit row tradeNo topUp => exact some.inj hout ▸ safe_commit hw h
  | idle | done _ => cases hout

theorem getSubscriptionPlanById_ok {id : ℤ}
    (h : getSubscriptionPlanById shop id = .ok plan) : shop.plans id = some plan := by
  rw [getSubscriptionPlanById] at h
  split at h
  · cases h
  · split at h
    · cases h
    next hplan => exact hplan.trans (congrArg some (Except.ok.inj h))

theorem offer_ok {planId q : ℤ} (h : offer shop planId = .ok (plan, q)) :
    shop.plans planId = some plan := by
  obtain ⟨plan', hplan, h⟩ := except_bind_eq_ok.1 h
  split_ifs at h
  obtain ⟨q', -, h⟩ := except_bind_eq_ok.1 h
  cases h
  exact getSubscriptionPlanById_ok hplan

theorem bindPreview_ok {planId : ℤ} {options : BindOptions} {logged : LoggedUsage} {plan : Plan}
    {preview : UsagePreview}
    (h : bindPreview shop planId options now logged = .ok (plan, preview)) :
    ∃ sale, shop.plans planId = some sale ∧ sale.toPlan = plan := by
  obtain ⟨sale, hplan, h⟩ := except_bind_eq_ok.1 h
  obtain ⟨preview', -, h⟩ := except_bind_eq_ok.1 h
  split_ifs at h
  cases h
  exact ⟨sale, getSubscriptionPlanById_ok hplan, rfl⟩

theorem noOrders_of_isFree (h : stage.Holds k m p w) (hfree : stage.isFree = true) :
    NoOrders w p := by
  cases stage with
  | idle | done _ => exact h
  | _ => cases hfree

theorem holds_begin (hplans : ∀ id plan, shop.plans id = some plan → Limited k m plan.toPlan)
    (hl : NoOrders w p) (h : begin shop a = some stage) : stage.Holds k m p w := by
  cases a with
  | next _ _ _ => cases h
  | completeSubscriptionOrder args =>
    cases h
    split <;> exact hl
  | purchaseSubscriptionWithBalance userId planId =>
    cases h
    split
    · exact hl
    · split
      · exact hl
      next hoffer => exact ⟨hl, hplans _ _ (offer_ok hoffer), rfl⟩
  | adminBindSubscriptionWithOptions userId planId options now logged =>
    cases h
    split
    · exact hl
    split
    · exact hl
    next hpreview =>
      obtain ⟨sale, hsale, rfl⟩ := bindPreview_ok hpreview
      exact ⟨hl, hplans _ _ hsale, rfl⟩

theorem safe_perform (hm : 0 < m) (hplans : ∀ id plan, shop.plans id = some plan →
    Limited k m plan.toPlan) (hw : Invariant shop k m orders₀ subs₀ w) (h : stage.Holds k m p w)
    (hapart : apart w stage = true) (hout : perform shop p a w stage = some out) :
    Safe shop k m orders₀ subs₀ p w out := by
  unfold perform at hout
  split at hout
  · split_ifs at hout
    · exact some.inj hout ▸ safe_abort hw
    · exact safe_next hm hw h hapart hout
  · split_ifs at hout with hfree
    obtain ⟨stage', hstage, rfl⟩ := map_eq_some_iff.1 hout
    exact .stay hw (holds_begin hplans (noOrders_of_isFree h hfree) hstage)

end

def start (orders : String → Option SubscriptionOrder) (users : ℤ → Option Member)
    (subs : List SubscriptionRow) (topUps : String → Option SubscriptionTopUp) (nextId : ℤ) :
    Config (World π) π Stage :=
  ⟨⟨.ofCommitted orders, .ofCommitted users, subs, topUps, nextId, [], []⟩, fun _ ↦ .idle⟩

/-- If no two open transactions have counted the same subscriptions, but for those that lock the
user, then no user gets more than `m` subscriptions of a plan that allows `m`, and an order becomes
successful only with its subscription. -/
theorem purchases_within_limit {users : ℤ → Option Member}
    {topUps : String → Option SubscriptionTopUp} {nextId : ℤ} {run : List (π × Action)}
    {c : Config (World π) π Stage} (hm : 0 < m)
    (hplans : ∀ id plan, shop.plans id = some plan → Limited k m plan.toPlan)
    (horders : ∀ t o plan, orders₀ t = some o → planOfOrder shop o = .ok plan → Limited k m plan)
    (hguard : Guarded (step shop) (fun c a ↦ apart c.shared (c.thread a.1) = true)
      (start orders₀ users subs₀ topUps nextId) run)
    (hrun : exec (step shop) (start orders₀ users subs₀ topUps nextId) run = some c) :
    c.shared.subs = subs₀ ++ c.shared.created.map Created.row ∧
      (∀ u, (createdCount c.shared u k : ℤ) ≤ m) ∧
      ∀ t o, c.shared.orders.committed t = some o → o.status = .success →
        (∃ o₀, orders₀ t = some o₀ ∧ o₀.status = .success) ∨
          ∃ e ∈ c.shared.created, e.tradeNo = some t ∧ e.row.userId = o.userId := by
  have hstart : (start orders₀ users subs₀ topUps nextId : Config (World π) π Stage).Holds
      (Invariant shop k m orders₀ subs₀) (Stage.Holds k m) := by
    refine ⟨⟨(append_nil _).symm, fun t o ho hs ↦ .inl ⟨o, ho, hs⟩,
      fun t o plan ho _ ↦ horders t o plan ho, ?_, ?_, fun u ↦ .inl rfl, ?_⟩,
      fun _ _ ↦ own_ofCommitted⟩
    all_goals exact fun e he ↦ absurd he not_mem_nil
  obtain ⟨hw, -⟩ := Config.exec_safe (R := Keeps) (fun _ _ _ _ _ ↦ safe_perform hm hplans)
    (fun _ _ _ _ _ hpq hstage ↦ hstage.stable hpq.symm) hstart hguard hrun
  refine ⟨hw.subs, fun u ↦ ?_, hw.success⟩
  have hcount : subCount c.shared u k = subs₀.countP (isOf u k) + createdCount c.shared u k := by
    rw [subCount, hw.subs, countP_append, countP_map]
    rfl
  rcases hw.bound u with hzero | hbound <;> omega

namespace Example

def plan : SalePlan where
  id := 3
  quotaResetPeriod := "never"
  quotaResetCustomSeconds := 0
  billingRatio := .finite 1
  durationUnit := .custom
  durationValue := 0
  customSeconds := 100
  allowWalletOverflow := none
  maxPurchasePerUser := 1
  upgradeGroup := ""
  downgradeGroup := ""
  applicableGroups := []
  modelFamily := ""
  includedModels := []
  bonusResources := []
  totalAmount := 0
  dailyAmount := 0
  weeklyAmount := 0
  monthlyAmount := 0
  enabled := true
  saleEnabled := true
  priceAmount := 2
  allowBalancePay := none

def onePlan : Shop where
  rt := ⟨0, .finite, id, id⟩
  plans id := if id = 3 then some plan else none
  decodePlan _ := .ok plan.toPlan
  encodePlan _ := "plan"
  quotaPerUnit := 10

def order (tradeNo : String) : SubscriptionOrder where
  userId := 7
  planId := 3
  money := 2
  tradeNo := tradeNo
  paymentMethod := "alipay"
  paymentProvider := .epay
  status := .pending
  createTime := 1
  completeTime := 0
  providerPayload := ""
  planSnapshot := "plan"

def orders : String → Option SubscriptionOrder := fun t ↦
  if t = "A" ∨ t = "B" then some (order t) else none

def users : ℤ → Option Member := fun u ↦ if u = 7 then some ⟨100, "default"⟩ else none

def market : Config (World ℕ) ℕ Stage := start orders users [] (fun _ ↦ none) 1

def complete (tradeNo : String) : Action := .completeSubscriptionOrder ⟨tradeNo, "paid", some .epay, ""⟩

def go (p : ℕ) : ℕ × Action := (p, .next 1000 "C" false)

/-- Both callbacks have counted before one of them commits. -/
def together : List (ℕ × Action) :=
  [(1, complete "A"), (2, complete "B"), go 1, go 2, go 1, go 2, go 1, go 1, go 1, go 1, go 2, go 2,
    go 2, go 2]

def apartInTime : List (ℕ × Action) :=
  [(1, complete "A"), go 1, go 1, go 1, go 1, go 1, go 1, (2, complete "B"), go 2, go 2,
    (3, .purchaseSubscriptionWithBalance 7 3), go 3, go 3]

def outcome (w : World ℕ) : List (Option TopUps.TopUpStatus) × ℕ × Option ℤ :=
  (["A", "B"].map fun t ↦ (w.orders.committed t).map (·.status), createdCount w 7 3,
    (w.users.committed 7).map (·.quota))

end Example

open Example in
/-- Each callback locks its own order and neither locks the user. -/
theorem limit_exceeded_by_two_orders :
    plan.maxPurchasePerUser = 1 ∧
      (exec (step onePlan) market together).map (fun c ↦ outcome c.shared) =
        some ([some .success, some .success], 2, some 100) := by
  decide +kernel

open Example in
theorem purchases_within_limit_apart :
    ∃ c, exec (step onePlan) market apartInTime = some c ∧
      outcome c.shared = ([some .success, some .pending], 1, some 100) ∧
      ∀ u, (createdCount c.shared u 3 : ℤ) ≤ 1 := by
  obtain ⟨c, hrun, h⟩ := map_eq_some_iff.1
    (show (exec (step onePlan) market apartInTime).map (fun c ↦ outcome c.shared) =
        some ([some .success, some .pending], 1, some 100) by
      decide +kernel)
  refine ⟨c, hrun, h, (purchases_within_limit one_pos (fun id sale hsale ↦ ?_)
    (fun t o plan ho hplan ↦ ?_) (by decide +kernel) hrun).2.1⟩
  · change (if id = 3 then some plan else none) = some sale at hsale
    split at hsale
    · exact some.inj hsale ▸ fun _ ↦ rfl
    · cases hsale
  · change (if t = "A" ∨ t = "B" then some (order t) else none) = some o at ho
    split at ho
    · cases ho
      obtain rfl : Example.plan.toPlan = plan := Except.ok.inj hplan
      exact fun _ ↦ rfl
    · cases ho

end Moligate.Purchases
