import Moligate.Foundation.Account
import Moligate.Subscription.Charges
import Moligate.Subscription.Windows

namespace Moligate.Subscription

open Foundation Common Option List Account Entry

/-- A settlement comes with the request it settles. -/
inductive UsageOp where
  | call (op : Op) (settles : String := "")
  | adminResetUser (userId planId : ℤ) (advanceResetTime : Bool)
  | adminResetPlan (planId : ℤ) (advanceResetTime : Bool)

open UsageOp

structure UsageCall where
  now : ℤ
  plans : Plans
  op : UsageOp

/-- The tables, and for each counter of a subscription the requests that were charged to it since
its last reset and were not refunded. -/
structure UsageWorld where
  clock : ℤ
  db : Db
  accounts : ℤ → Counter → Account String

open UsageWorld

def newUse (db db' : Db) (i : ℤ) : Option Use :=
  if (db.uses i).length < (db'.uses i).length then (db'.uses i).head? else none

def UsageCall.clears (rt : Runtime) (c : UsageCall) (row : UserSubscription) (x : Counter) : Bool :=
  match c.op with
  | .call .. => counterDue rt c.plans c.now row x
  | .adminResetUser .. | .adminResetPlan .. => true

def UsageOp.post (op : UsageOp) (u : Use) (a : Account String) : Account String :=
  match op with
  | .call (.preConsume req) _ => if u.amount = 0 then a else ⟨req.requestId, u.amount, 0⟩ :: a
  | .call (.postConsume _ delta) requestId => a.add requestId delta
  | .call (.refund requestId) _ => a.close requestId
  | _ => a

def UsageWorld.commit (rt : Runtime) (w : UsageWorld) (c : UsageCall) (db : Db) : UsageWorld where
  clock := c.now
  db := db
  accounts := fun i x ↦
    match newUse w.db db i, w.db.subs.find i with
    | some u, some row => c.op.post u (if c.clears rt row x then [] else w.accounts i x)
    | _, _ => w.accounts i x

def UsageWorld.finish (rt : Runtime) (w : UsageWorld) (c : UsageCall) {ε : Type} :
    Call ε Db → Option UsageWorld
  | .diverges => none
  | .fail _ => some { w with clock := c.now }
  | .ok db => some (w.commit rt c db)

def usageStep (rt : Runtime) (w : UsageWorld) (c : UsageCall) : Option UsageWorld :=
  if w.clock ≤ c.now then
    match c.op with
    | .call op _ => w.finish rt c (performOp rt w.db ⟨c.now, c.plans, op⟩)
    | .adminResetUser userId planId advance =>
      w.finish rt c (adminResetUserSubscriptionsByPlan rt c.plans c.now w.db userId planId advance)
    | .adminResetPlan planId advance =>
      w.finish rt c (adminResetPlanSubscriptions rt c.plans c.now w.db planId advance)
  else none

/-- A settlement or a primary refund of a request at the subscription `i` comes before the counter
is reset again: the request is still open at it and no reset is due. A settlement does not take
back more than the request has used, and a refund follows no settlement. -/
def timely (rt : Runtime) (i : ℤ) (x : Counter) (w : UsageWorld) (c : UsageCall) : Bool :=
  let current := (w.db.subs.find i).all fun row ↦ !counterDue rt c.plans c.now row x
  match c.op with
  | .call (.postConsume id delta) requestId =>
    id ≠ i || delta = 0 || current &&
      ((w.accounts i x).entry requestId).any fun e ↦ 0 ≤ e.amount + delta
  | .call (.refund requestId) _ =>
    (w.db.records.find requestId).all fun record ↦
      record.userSubscriptionId ≠ i || !record.isPrimary || record.status = .refunded ||
        current && ((w.accounts i x).entry requestId).any fun e ↦ e.added = 0
  | _ => true

structure Booked (db : Db) (i : ℤ) (a : Account String) : Prop where
  nodup : a.keys.Nodup
  nonneg : ∀ e ∈ a, 0 ≤ e.amount
  recorded : ∀ e ∈ a, ∃ record, db.records.find e.key = some record ∧
    record.userSubscriptionId = i ∧ record.preConsumed = e.opened

structure Counted (i : ℤ) (x : Counter) (w : UsageWorld) (row : UserSubscription) : Prop where
  find : w.db.subs.find i = some row
  counts : row.counts x = true
  range : row.counter x ≤ maxInt64
  sum : row.counter x = (w.accounts i x).balance
  booked : Booked w.db i (w.accounts i x)

variable {rt : Runtime} {i : ℤ} {x : Counter} {w w' : UsageWorld} {c : UsageCall} {db db' : Db}
  {row row' : UserSubscription} {a : Account String} {u : Use}

theorem Booked.nil : Booked db i [] := ⟨nodup_nil, by simp, by simp⟩

theorem Booked.keep (h : Booked db i a) (hrecords : KeepsCharges db db') : Booked db' i a := by
  refine { h with recorded := fun e he ↦ ?_ }
  obtain ⟨record, hfind, hi, hopened⟩ := h.recorded e he
  obtain ⟨record', hfind', hi', hopened'⟩ := hrecords e.key record hfind
  exact ⟨record', hfind', hi'.trans hi, hopened'.trans hopened⟩

def UsageWorld.base (rt : Runtime) (w : UsageWorld) (c : UsageCall) (row : UserSubscription)
    (i : ℤ) (x : Counter) : Account String :=
  if c.clears rt row x then [] else w.accounts i x

theorem Booked.base (h : Booked db i (w.accounts i x)) : Booked db i (w.base rt c row i x) := by
  rw [UsageWorld.base]
  split
  · exact .nil
  · exact h

variable {k : String} {op : Op} {now : ℤ} {plans : Plans}

theorem Booked.open (h : Booked db i a) (hrec : Recorded k i u.amount db db')
    (hrecords : KeepsCharges db db') : Booked db' i (⟨k, u.amount, 0⟩ :: a) := by
  have hnew : k ∉ a.keys := by
    intro hk
    obtain ⟨e, he, rfl⟩ := mem_map.1 hk
    obtain ⟨record, hfind, -⟩ := h.recorded e he
    simp [hrec.new] at hfind
  refine ⟨nodup_cons.2 ⟨hnew, h.nodup⟩, ?_, ?_⟩
  · intro e he
    rcases mem_cons.1 he with rfl | he
    · simpa [amount] using hrec.pos.le
    · exact h.nonneg e he
  · intro e he
    rcases mem_cons.1 he with rfl | he
    · obtain ⟨record, hfind, hi, hamount, -⟩ := hrec.record
      exact ⟨record, hfind, hi, hamount⟩
    · exact (h.keep hrecords).recorded e he

theorem Booked.add {d : ℤ} {e : Entry String} (h : Booked db i a) (he : a.entry k = some e)
    (hd : 0 ≤ e.amount + d) : Booked db i (a.add k d) := by
  refine ⟨keys_add a k d ▸ h.nodup, fun e' he' ↦ ?_, fun e' he' ↦ ?_⟩
  · obtain ⟨f, hf, rfl⟩ := mem_map.1 he'
    by_cases hk : f.key = k
    · have hsame : f = e := inj_on_of_nodup_map h.nodup hf (mem_of_entry he)
        (hk.trans (key_of_entry he).symm)
      rw [amount_add_self d hk, hsame]
      exact hd
    · rw [add_of_ne d hk]
      exact h.nonneg f hf
  · obtain ⟨f, hf, rfl⟩ := mem_map.1 he'
    simpa using h.recorded f hf

theorem Booked.close (h : Booked db i a) (k : String) : Booked db i (a.close k) where
  nodup := h.nodup.sublist (List.filter_sublist.map _)
  nonneg e he := h.nonneg e (mem_close.1 he).1
  recorded e he := h.recorded e (mem_close.1 he).1

section

variable (h : Counted i x w row)
include h

theorem Counted.still (hstill : Still i w.db db) (hbooked : Booked db i (w.accounts i x)) :
    ∃ row', Counted i x (w.commit rt c db) row' := by
  obtain ⟨row', hfind, hterms, hcounter⟩ := hstill.row row h.find
  have haccount : (w.commit rt c db).accounts i x = w.accounts i x := by
    simp [commit, newUse, hstill.uses]
  refine ⟨row', hfind, counts_of_terms hterms x ▸ h.counts, hcounter x ▸ h.range, ?_, ?_⟩
  · rw [hcounter, haccount, h.sum]
  · rw [haccount]
    exact hbooked

theorem Counted.used (hfind : db.subs.find i = some row') (huses : db.uses i = u :: w.db.uses i)
    (hterms : row'.terms = row.terms)
    (htally : Tally (if c.clears rt row x then 0 else row.counter x) u.amount (row'.counter x))
    (hbalance : (c.op.post u (w.base rt c row i x)).balance =
      (w.base rt c row i x).balance + u.amount)
    (hbooked : Booked db i (c.op.post u (w.base rt c row i x))) :
    ∃ row', Counted i x (w.commit rt c db) row' := by
  have haccount : (w.commit rt c db).accounts i x = c.op.post u (w.base rt c row i x) := by
    simp [commit, newUse, huses, h.find, base]
  have hbase : (if c.clears rt row x then 0 else row.counter x) =
      (w.base rt c row i x).balance := by
    rw [base]
    split
    · rfl
    · exact h.sum
  have hrange : (w.base rt c row i x).balance ≤ maxInt64 := by
    rw [← hbase]
    split
    · decide
    · exact h.range
  have hnonneg := balance_nonneg hbooked.nonneg
  rw [hbalance] at hnonneg
  obtain ⟨hsum, hmax⟩ := (hbase ▸ htally) hrange hnonneg
  refine ⟨row', hfind, counts_of_terms hterms x ▸ h.counts, hmax, ?_, ?_⟩
  · rw [haccount, hbalance, hsum]
  · rw [haccount]
    exact hbooked

theorem Counted.moved {amount : ℤ} (hmoves : MovesRow rt plans now i amount w.db db)
    (hpost : ∀ u : Use, u.amount = amount → ((call op k).post u
      (w.base rt ⟨now, plans, .call op k⟩ row i x)).balance =
      (w.base rt ⟨now, plans, .call op k⟩ row i x).balance + amount ∧
      Booked db i ((call op k).post u (w.base rt ⟨now, plans, .call op k⟩ row i x))) :
    ∃ row', Counted i x (w.commit rt ⟨now, plans, .call op k⟩ db) row' := by
  obtain ⟨row₁, row', cleared, hfind, hfind', huses, hmove⟩ := hmoves
  obtain rfl : row = row₁ := some.inj (h.find.symm.trans hfind)
  obtain ⟨hbalance, hbooked⟩ := hpost ⟨i, now, cleared, amount⟩ rfl
  exact h.used hfind' huses hmove.terms (hmove.tally h.counts) hbalance hbooked

theorem Counted.preConsume {req : PreConsumeRequest}
    (heffect : ReserveEffect rt plans now req.requestId i w.db db) (hrecords : KeepsCharges w.db db)
    : ∃ row', Counted i x (w.commit rt ⟨now, plans, .call (.preConsume req) k⟩ db) row' := by
  rcases heffect with huntouched | ⟨amount, hmoves, hamount⟩
  · exact h.still huntouched.still (h.booked.keep hrecords)
  refine h.moved hmoves fun u hu ↦ ?_
  subst hu
  rcases hamount with hzero | hrec
  · simp only [post, hzero, if_true, add_zero]
    exact ⟨trivial, h.booked.base.keep hrecords⟩
  · simp only [post, if_neg hrec.pos.ne', balance_cons]
    refine ⟨?_, h.booked.base.open hrec hrecords⟩
    rw [amount]
    ring

omit h in
theorem base_of_current (hfind : w.db.subs.find i = some row)
    (hcurrent : ((w.db.subs.find i).all fun row ↦ !counterDue rt plans now row x) = true) :
    w.base rt ⟨now, plans, .call op k⟩ row i x = w.accounts i x := by
  rw [hfind, all_some, Bool.not_eq_true'] at hcurrent
  rw [base, UsageCall.clears, hcurrent]
  rfl

theorem Counted.settled {id delta : ℤ}
    (hok : timely rt i x w ⟨now, plans, .call (.postConsume id delta) k⟩ = true)
    (hop : postConsumeUserSubscriptionDelta rt plans now w.db id delta = .ok db) :
    ∃ row', Counted i x (w.commit rt ⟨now, plans, .call (.postConsume id delta) k⟩ db) row' := by
  rw [postConsumeUserSubscriptionDelta] at hop
  split at hop
  · simp at hop
  split at hop
  · cases hop
    exact h.still (Untouched.refl i _).still h.booked
  rename_i hdelta
  obtain ⟨hrecords, hmoves, hframe⟩ := postConsumeDeltaTx_moves hop
  have hkeep : KeepsCharges w.db db := .of_eq hrecords
  by_cases hi : id = i
  · subst hi
    simp only [timely, ne_eq, not_true_eq_false, decide_false, hdelta, Bool.or_self,
      Bool.false_or, Bool.and_eq_true] at hok
    obtain ⟨e, he, hamount⟩ := (any_eq_true _ _).1 hok.2
    have hamount : 0 ≤ e.amount + delta := of_decide_eq_true hamount
    refine h.moved hmoves fun u hu ↦ ?_
    rw [base_of_current h.find hok.1]
    exact ⟨balance_add h.booked.nodup he, (h.booked.add he hamount).keep hkeep⟩
  · exact h.still (hframe i (Ne.symm hi)).still (h.booked.keep hkeep)

theorem Counted.refunded {k' : String}
    (hok : timely rt i x w ⟨now, plans, .call (.refund k) k'⟩ = true)
    (hop : refundSubscriptionPreConsume rt plans now w.db k = .ok db) :
    ∃ row', Counted i x (w.commit rt ⟨now, plans, .call (.refund k) k'⟩ db) row' := by
  obtain ⟨hkeep, record, hrecord, heffect⟩ := refund_effect hop
  simp only [timely, hrecord, all_some, Bool.or_eq_true, Bool.and_eq_true,
    decide_eq_true_eq, Bool.not_eq_true'] at hok
  rcases heffect i with hstill | ⟨hi, hprimary, hstatus, hmoves⟩
  · exact h.still hstill (h.booked.keep hkeep)
  simp only [hi, hprimary, hstatus, ne_eq, not_true_eq_false, reduceCtorEq, false_or] at hok
  obtain ⟨e, he, hadded⟩ := (any_eq_true _ _).1 hok.2
  have hadded : e.added = 0 := of_decide_eq_true hadded
  obtain ⟨record', hrecord', -, hopened⟩ := h.booked.recorded e (mem_of_entry he)
  rw [key_of_entry he, hrecord] at hrecord'
  cases hrecord'
  refine h.moved hmoves fun u hu ↦ ?_
  rw [base_of_current h.find hok.1]
  refine ⟨?_, (h.booked.close k).keep hkeep⟩
  change (close _ k).balance = _
  rw [balance_close h.booked.nodup he, amount, hadded, hopened]
  ring

theorem Counted.cleared (hclears : ∀ row, c.clears rt row x = true)
    (hpost : ∀ u a, c.op.post u a = a) (hrecords : db.records = w.db.records)
    (heffect : Untouched i w.db db ∨ ClearsRow i w.db db) :
    ∃ row', Counted i x (w.commit rt c db) row' := by
  rcases heffect with huntouched | ⟨row₁, row', now, cleared, hfind, hfind', huses, hterms, hzero⟩
  · exact h.still huntouched.still (h.booked.keep (.of_eq hrecords))
  obtain rfl : row = row₁ := some.inj (h.find.symm.trans hfind)
  refine h.used hfind' huses hterms (.of_eq ?_) ?_ ?_
  · rw [hclears, hzero]
    rfl
  · rw [hpost]
    simp
  · rw [hpost]
    exact h.booked.base.keep (.of_eq hrecords)

theorem performOp_counted (hok : timely rt i x w ⟨now, plans, .call op k⟩ = true)
    (hop : performOp rt w.db ⟨now, plans, op⟩ = .ok db) :
    ∃ row', Counted i x (w.commit rt ⟨now, plans, .call op k⟩ db) row' := by
  cases op with
  | preConsume req =>
    obtain ⟨⟨db₁, result⟩, hpre, hout⟩ := Call.bind_eq_ok.1 hop
    cases hout
    obtain ⟨heffect, hrecords⟩ := preConsume_effect hpre
    exact h.preConsume (heffect i) hrecords.charges
  | postConsume id delta => exact h.settled hok hop
  | postConsumeResource id key type delta =>
    simp only [performOp, postConsumeUserSubscriptionResourceDelta, postConsumeGrantDelta] at hop
    split_ifs at hop
    · cases hop
      exact h.still (Untouched.refl i _).still h.booked
    · obtain ⟨hrecords, hstill⟩ := postConsumeResourceDeltaTx_still hop
      exact h.still (hstill i) (h.booked.keep (.of_eq hrecords))
  | refund requestId => exact h.refunded hok hop
  | resetDue limit =>
    obtain ⟨⟨db₁, n⟩, hreset, hout⟩ := Call.bind_eq_ok.1 hop
    cases hout
    obtain ⟨hrecords, heffect⟩ := resetDue_effect hreset
    rcases heffect i with huntouched | hmoves
    · exact h.still huntouched.still (h.booked.keep (.of_eq hrecords))
    · refine h.moved hmoves fun u hu ↦ ?_
      simp only [post, add_zero]
      exact ⟨trivial, h.booked.base.keep (.of_eq hrecords)⟩

end

theorem usageStep_counted (h : ∃ row, Counted i x w row) (hok : timely rt i x w c = true)
    (hstep : usageStep rt w c = some w') : ∃ row, Counted i x w' row := by
  obtain ⟨row, h⟩ := h
  have hfinish : ∀ {ε : Type} {call : Call ε Db}, w.finish rt c call = some w' →
      (∀ db, call = .ok db → ∃ row, Counted i x (w.commit rt c db) row) →
      ∃ row, Counted i x w' row := by
    intro ε call hfinish hcommit
    cases call with
    | diverges => simp [finish] at hfinish
    | fail e =>
      cases hfinish
      exact ⟨row, h.find, h.counts, h.range, h.sum, h.booked⟩
    | ok db =>
      cases hfinish
      exact hcommit db rfl
  obtain ⟨now, plans, op⟩ := c
  rw [usageStep] at hstep
  split at hstep
  · cases op with
    | call op k => exact hfinish hstep fun db hop ↦ performOp_counted h hok hop
    | adminResetUser userId planId advance =>
      refine hfinish hstep fun db hop ↦ ?_
      obtain ⟨hrecords, heffect⟩ := adminResetUser_effect hop
      exact h.cleared (fun _ ↦ rfl) (fun _ _ ↦ rfl) hrecords (heffect i)
    | adminResetPlan planId advance =>
      refine hfinish hstep fun db hop ↦ ?_
      obtain ⟨hrecords, heffect⟩ := adminResetPlan_effect hop
      exact h.cleared (fun _ ↦ rfl) (fun _ _ ↦ rfl) hrecords (heffect i)
  · simp at hstep

/-- In every run whose settlements and refunds come before the next reset of the counter, it is
the sum of what the requests charged since its last reset have used. -/
theorem counter_eq_charges (hfind : w.db.subs.find i = some row) (hcounts : row.counts x = true)
    (hzero : row.counter x = 0) (hnew : w.accounts i x = []) {cs : List UsageCall}
    (hok : Guarded (usageStep rt) (fun w c ↦ timely rt i x w c = true) w cs)
    (hrun : exec (usageStep rt) w cs = some w') :
    ∃ row', w'.db.subs.find i = some row' ∧ row'.counter x = (w'.accounts i x).balance := by
  have hinit : Counted i x w row :=
    { find := hfind
      counts := hcounts
      range := by rw [hzero]; decide
      sum := by rw [hzero, hnew]; rfl
      booked := by rw [hnew]; exact .nil }
  obtain ⟨row', h⟩ := exec_invariant (I := fun w ↦ ∃ row, Counted i x w row)
    (fun _ _ _ h ho hs ↦ usageStep_counted h ho hs) ⟨row, hinit⟩ hok hrun
  exact ⟨row', h.find, h.sum⟩

namespace Example

def tenDays : UserSubscription := { dayAndHalf with endTime := 864001 }

def ledger : UsageWorld where
  clock := 0
  db := ⟨⟨[tenDays], by decide⟩, ⟨[], List.nodup_nil⟩, [], 0⟩
  accounts := fun _ _ ↦ []

def usage (now : ℤ) (op : Op) (settles : String := "") : UsageCall where
  now := now
  plans := fun id ↦ some ⟨id, "never", 0⟩
  op := .call op settles

def reserve (requestId : String) (amount : ℤ) : Op :=
  .preConsume { requestId, userId := 1, modelName := "gpt", amount }

end Example

open Example in
/-- A refund after the daily reset takes the charge of the day before from the use of the day. -/
theorem refund_after_reset :
    ledger.db.subs.find 1 = some tenDays ∧ tenDays.counter (.period .daily) = 0 ∧
    ledger.accounts 1 (.period .daily) = [] ∧
    (exec (usageStep utc) ledger [usage 10 (reserve "a" 60), usage 86411 (reserve "b" 50),
      usage 86421 (.refund "a")]).map (fun w ↦
        ((w.db.subs.find 1).map fun row ↦ row.counter (.period .daily),
          w.accounts 1 (.period .daily))) = some (some 0, [⟨"b", 50, 0⟩]) := by
  decide +kernel

open Example in
theorem counter_eq_charges_refund :
    ∃ w' row', exec (usageStep utc) ledger [usage 10 (reserve "a" 60), usage 20 (reserve "b" 30),
        usage 30 (.postConsume 1 (-10)) "b", usage 40 (.refund "a")] = some w' ∧
      w'.accounts 1 (.period .daily) = [⟨"b", 30, -10⟩] ∧ w'.db.subs.find 1 = some row' ∧
      row'.counter (.period .daily) = (w'.accounts 1 (.period .daily)).balance := by
  obtain ⟨w', hrun, haccount⟩ := map_eq_some_iff.1 (show
    (exec (usageStep utc) ledger [usage 10 (reserve "a" 60), usage 20 (reserve "b" 30),
      usage 30 (.postConsume 1 (-10)) "b", usage 40 (.refund "a")]).map
        (·.accounts 1 (.period .daily)) = some [⟨"b", 30, -10⟩] by decide +kernel)
  have hstart : ledger.db.subs.find 1 = some tenDays := by decide
  obtain ⟨row', hfind, hsum⟩ := counter_eq_charges (x := .period .daily) hstart (by decide)
    (by decide) rfl (by decide +kernel) hrun
  exact ⟨w', row', hrun, haccount, hfind, hsum⟩

end Moligate.Subscription
