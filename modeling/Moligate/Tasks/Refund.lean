import Moligate.Tasks.Terminal

namespace Moligate.Tasks

open Foundation Option Function Goroutine Function System Bill

def refundsOf (i : ℤ) (ledger : List Entry) : List Entry :=
  ledger.filter fun e ↦ e.taskId = i && e.kind = .refund

def refundedBefore (t : Task) (amount : ℤ) : BillStep → List Entry
  | .funding => []
  | .token => [⟨t.id, .refund, .funding, amount⟩]
  | .clear =>
    ⟨t.id, .refund, .funding, amount⟩ ::
      if t.hasToken then [⟨t.id, .refund, .token, t.quota⟩] else []

abbrev refundEntries (t : Task) (amount : ℤ) : List Entry := refundedBefore t amount .clear

structure View where
  row : Option Task
  refunds : List Entry
  bills : ℕ → Option Bill

def Goroutine.billFor (g : Goroutine) (i : ℤ) : Option Bill := g.bill.filter fun b ↦ b.task.id = i

def View.of (db : Db) (i : ℤ) (bills : ℕ → Option Bill) : View :=
  ⟨db.rows i, refundsOf i db.ledger, bills⟩

def System.view (c : System) (i : ℤ) : View := .of c.shared i fun p ↦ (c.thread p).billFor i

inductive Progress (t : Task) (amount : ℤ) : View → Prop
  | live (row : Task) (status : row.status.isTerminal = false) (charge : SameCharge t row) :
      Progress t amount ⟨some row, [], fun _ ↦ none⟩
  | succeeded (row : Task) (bills : ℕ → Option Bill) (status : row.status = .success)
      (settlement : ∀ p b, bills p = some b → b.actual.isSome) :
      Progress t amount ⟨some row, [], bills⟩
  | refunding (row : Task) (p : ℕ) (b : Bill) (status : row.status = .failure)
      (refund : b.actual = none) (charge : SameCharge t b.task) :
      Progress t amount ⟨some row, refundedBefore t amount b.step, update (fun _ ↦ none) p (some b)⟩
  | refunded (row : Task) (status : row.status = .failure) (quota : row.quota = 0) :
      Progress t amount ⟨some row, refundEntries t amount, fun _ ↦ none⟩

structure Tracked (t : Task) (amount : ℤ) (c : System) : Prop where
  progress : Progress t amount (c.view t.id)
  copies : ∀ p copy, (c.thread p).job.Holds copy → copy.id = t.id →
    copy.status.isTerminal = false → SameCharge t copy
  bills : ∀ p b, (c.thread p).bill = some b → b.task.status.isTerminal = true

/-- The guard of a run: answers are only written over copies that are not terminal, and the task is
not failed in a way that has no refund. -/
def Refundable (rt : Runtime) (i : ℤ) (c : System) (a : ℕ × Action) : Prop :=
  (c.thread a.1).job.LiveCopy rt a.2 ∧ a.2.Careful ∧ i ∉ (c.thread a.1).job.bulkIds a.2

instance {rt : Runtime} {i : ℤ} {c : System} {a : ℕ × Action} : Decidable (Refundable rt i c a) := by
  unfold Refundable
  infer_instance

variable {rt : Runtime} {db db' : Db} {a : Action} {g g' : Goroutine} {i amount : ℤ}
  {t row copy copy' : Task} {b : Bill}

theorem SameCharge.trans (h : SameCharge t copy) (h' : SameCharge copy copy') :
    SameCharge t copy' :=
  ⟨h'.quota.trans h.quota, h'.funding.trans h.funding, h'.hasToken.trans h.hasToken, h'.legacy⟩

variable {v : View} {p : ℕ} {accepted : Bool} {bills : ℕ → Option Bill} {job : Job}

theorem Progress.of_live (h : Progress t amount v) (hrow : v.row = some row)
    (hlive : row.status.isTerminal = false) :
    v = ⟨some row, [], fun _ ↦ none⟩ ∧ SameCharge t row := by
  obtain ⟨hfailure, hsuccess⟩ := not_isTerminal hlive
  cases h with
  | live row' status charge =>
    cases hrow
    exact ⟨rfl, charge⟩
  | succeeded row' _ status =>
    cases hrow
    exact absurd status hsuccess
  | refunding _ _ _ status | refunded _ status =>
    cases hrow
    exact absurd status hfailure

theorem Progress.of_bill (h : Progress t amount v) (hb : v.bills p = some b) :
    (∃ row, v.row = some row ∧ row.status = .success ∧ v.refunds = [] ∧
      ∀ q b', v.bills q = some b' → b'.actual.isSome) ∨
    ∃ row, v.row = some row ∧ row.status = .failure ∧ b.actual = none ∧ SameCharge t b.task ∧
      v.refunds = refundedBefore t amount b.step ∧
      v.bills = update (fun _ ↦ none) p (some b) := by
  cases h with
  | live | refunded => cases hb
  | succeeded row bills status settlement => exact .inl ⟨row, rfl, status, rfl, settlement⟩
  | refunding row q b' status refund charge =>
    dsimp only at hb
    by_cases hq : p = q
    · subst hq
      rw [update_self] at hb
      cases hb
      exact .inr ⟨row, rfl, status, refund, charge, rfl, rfl⟩
    · rw [update_of_ne hq] at hb
      cases hb

theorem refundsOf_record {e : Entry} : refundsOf i (db.record e).ledger =
    if e.taskId = i ∧ e.kind = .refund then refundsOf i db.ledger ++ [e]
    else refundsOf i db.ledger := by
  rw [refundsOf, Db.record, List.filter_append]
  split
  next h => simp [h.1, h.2, refundsOf]
  next h => simp [h, refundsOf]

theorem ledger_updateQuota {quota : ℤ} : (db.updateQuota i quota).ledger = db.ledger := by
  unfold Db.updateQuota
  split <;> rfl

theorem refundsOf_advance (h : b.task.id ≠ i ∨ b.actual.isSome) :
    refundsOf i (b.advance accepted db).1.ledger = refundsOf i db.ledger := by
  have hentry {account : Account} {x : ℤ} :
      ¬ ((b.entry account x).taskId = i ∧ (b.entry account x).kind = .refund) := by
    rcases h with h | h
    · exact fun hi ↦ h hi.1
    · simp [entry, kind, h]
  unfold advance
  split
  · split
    · rfl
    · rw [refundsOf_record, if_neg hentry]
  · split
    · rw [refundsOf_record, if_neg hentry]
    · rfl
  · rw [ledger_updateQuota]

theorem progress_same {bill : Option Bill} (h : Progress t amount (.of db t.id bills))
    (hrow : db'.rows t.id = db.rows t.id)
    (hrefunds : refundsOf t.id db'.ledger = refundsOf t.id db.ledger) (hbill : bills p = bill) :
    Progress t amount (.of db' t.id (update bills p bill)) := by
  rw [← hbill, update_eq_self, View.of, hrow, hrefunds]
  exact h

theorem billFor_eq_none (h : g.bill = none) : g.billFor i = none := by
  rw [billFor, h, filter_none]

theorem progress_refunding (hid : b.task.id = t.id) (hrow : db.rows t.id = some row)
    (hstatus : row.status = .failure) (hactual : b.actual = none) (hcharge : SameCharge t b.task)
    (hrefunds : refundsOf t.id db.ledger = refundedBefore t amount b.step) :
    Progress t amount (.of db t.id (update (fun _ ↦ none) p (billFor ⟨job, some b⟩ t.id))) := by
  have hbill : billFor ⟨job, some b⟩ t.id = some b := by simp [billFor, hid]
  rw [hbill, View.of, hrow, hrefunds]
  exact .refunding row p b hstatus hactual hcharge

theorem refund_progress (hid : b.task.id = t.id) (hfunding : taskRefundFunding t = some amount)
    (hrow : db.rows t.id = some row) (hstatus : row.status = .failure) (hactual : b.actual = none)
    (hcharge : SameCharge t b.task)
    (hrefunds : refundsOf t.id db.ledger = refundedBefore t amount b.step) :
    Progress t amount (.of (b.advance accepted db).1 t.id
      (update (fun _ ↦ none) p (billFor ⟨job, (b.advance accepted db).2⟩ t.id))) := by
  have hentry (account : Account) (x : ℤ) : b.entry account x = ⟨t.id, .refund, account, x⟩ := by
    simp [entry, kind, hactual, hid]
  cases hstep : b.step with
  | funding =>
    have hadvance : b.advance accepted db =
        (db.record ⟨t.id, .refund, .funding, amount⟩, some { b with step := .token }) := by
      have hsame : taskRefundFunding b.task = some amount := by
        rw [← hfunding, taskRefundFunding, taskRefundFunding, hcharge.funding, hcharge.quota]
      simp [advance, hstep, fundingAmount, hactual, hsame, hentry]
    rw [hadvance]
    refine progress_refunding hid hrow hstatus hactual hcharge ?_
    rw [refundsOf_record, if_pos ⟨rfl, rfl⟩, hrefunds, hstep]
    rfl
  | token =>
    have hadvance : b.advance accepted db =
        (if t.hasToken then db.record ⟨t.id, .refund, .token, t.quota⟩ else db,
          some { b with step := .clear }) := by
      simp [advance, hstep, tokenAmount, hactual, hentry, hcharge.hasToken, hcharge.quota]
    rw [hadvance]
    refine progress_refunding hid ?_ hstatus hactual hcharge ?_
    · split <;> exact hrow
    · cases htoken : t.hasToken with
      | true =>
        rw [if_pos rfl, refundsOf_record, if_pos ⟨rfl, rfl⟩, hrefunds, hstep]
        simp [refundedBefore, htoken]
      | false =>
        rw [if_neg Bool.false_ne_true, hrefunds, hstep]
        simp [refundedBefore, htoken]
  | clear =>
    have hadvance : b.advance accepted db = (db.updateQuota t.id 0, none) := by
      simp [advance, hstep, hactual, hid]
    rw [hadvance, billFor_eq_none rfl, View.of, rows_updateQuota hrow, ledger_updateQuota,
      hrefunds, hstep, update_eq_self_iff.2 rfl]
    exact .refunded _ hstatus rfl

theorem written_progress {bill : Option Bill} (hid : copy'.id = t.id) (hquota : t.quota ≠ 0)
    (hcharge : SameCharge t copy') (hrefunds : refundsOf t.id db.ledger = [])
    (hopens : ∀ b, bill = some b → b.Opens copy')
    (hrefund : copy'.status = .failure → bill = refundTaskQuota copy') :
    Progress t amount (.of (db.save copy') t.id
      (update (fun _ ↦ none) p (billFor ⟨job, bill⟩ t.id))) := by
  have hrow : (db.save copy').rows t.id = some copy' := hid ▸ rows_save_self
  by_cases hfailure : copy'.status = .failure
  · have hbill : bill = some ⟨copy', none, .funding⟩ := by
      rw [hrefund hfailure, refundTaskQuota, hcharge.quota, if_neg hquota]
    rw [hbill]
    exact progress_refunding hid hrow hfailure rfl hcharge hrefunds
  · by_cases hsuccess : copy'.status = .success
    · rw [View.of, hrow, Db.save, hrefunds]
      refine .succeeded copy' _ hsuccess fun q b hb ↦ ?_
      by_cases hq : q = p
      · rw [hq, update_self, billFor, filter_eq_some_iff] at hb
        rcases (hopens b hb.1).kind with ⟨_, hf⟩ | ⟨hsome, _⟩
        · exact absurd hf hfailure
        · exact hsome
      · rw [update_of_ne hq] at hb
        cases hb
    · have hlive : copy'.status.isTerminal = false := by
        simp [TaskStatus.isTerminal, hfailure, hsuccess]
      have hbill : bill = none := by
        cases hb : bill with
        | none => rfl
        | some b => exact absurd (hopens b hb).isTerminal (by simp [hlive])
      rw [hbill, billFor_eq_none rfl, update_eq_self_iff.2 rfl, View.of, hrow, Db.save, hrefunds]
      exact .live copy' hlive hcharge

theorem settlement_progress (hrow : db.rows t.id = some row) (hstatus : row.status = .success)
    (hrefunds : refundsOf t.id db.ledger = [])
    (hbills : ∀ q b, bills q = some b → b.actual.isSome) (hb : b.actual.isSome) :
    Progress t amount (.of (b.advance accepted db).1 t.id
      (update bills p (billFor ⟨job, (b.advance accepted db).2⟩ t.id))) := by
  obtain ⟨row', hrow', hstatus', _⟩ := @rows_advance db t.id row b accepted hrow
  rw [View.of, hrow', refundsOf_advance (.inr hb), hrefunds]
  refine .succeeded row' _ (hstatus'.trans hstatus) fun q b' hb' ↦ ?_
  by_cases hq : q = p
  · rw [hq, update_self, billFor, filter_eq_some_iff] at hb'
    rw [(advance_task hb'.1).2]
    exact hb
  · rw [update_of_ne hq] at hb'
    exact hbills q b' hb'

theorem Move.progress (hm : Move a db g db' g') (hcareful : a.Careful)
    (hbulk : t.id ∉ g.job.bulkIds a) (hquota : t.quota ≠ 0)
    (hfunding : taskRefundFunding t = some amount)
    (hcopies : ∀ copy, g.job.Holds copy → copy.id = t.id → copy.status.isTerminal = false →
      SameCharge t copy)
    (hbills : bills p = g.billFor t.id) (h : Progress t amount (.of db t.id bills)) :
    Progress t amount (.of db' t.id (update bills p (g'.billFor t.id))) := by
  cases hm with
  | rest job' idle =>
    exact progress_same h rfl rfl (by rw [hbills, billFor_eq_none idle, billFor_eq_none rfl])
  | fail reason job' idle =>
    refine progress_same h ?_ rfl (by rw [hbills, billFor_eq_none idle, billFor_eq_none rfl])
    simp [Db.taskBulkUpdateByID, if_neg hbulk]
  | turn copy turn job' idle holds_copy live outcome =>
    rw [billFor_eq_none idle] at hbills
    cases outcome with
    | kept => exact progress_same h rfl rfl (by rw [hbills, billFor_eq_none rfl])
    | written row copy' bill row_eq status id opens charge refund =>
      by_cases hid : copy.id = t.id
      · have hcharge := hcopies copy holds_copy hid live
        rw [hid] at row_eq
        obtain ⟨hview, _⟩ := h.of_live row_eq (status ▸ live)
        obtain ⟨_, hrefunds, rfl⟩ := View.mk.inj hview
        exact written_progress (id.trans hid) hquota
          (hcharge.trans (charge hcareful hcharge.legacy)) hrefunds opens
          (refund hcareful hcharge.legacy)
      · have hne : t.id ≠ copy'.id := fun heq ↦ hid (id ▸ heq.symm)
        refine progress_same h (rows_save_of_ne hne) rfl ?_
        rw [hbills, eq_comm, billFor, filter_eq_none_iff]
        intro b hb
        simp [(opens b hb).task, hne.symm]
  | bill b accepted job' bill_eq =>
    rw [billFor, bill_eq] at hbills
    by_cases hid : b.task.id = t.id
    · rw [filter_some, if_pos (decide_eq_true hid)] at hbills
      rcases h.of_bill hbills with ⟨row, hrow, hstatus, hrefunds, hsettle⟩ |
        ⟨row, hrow, hstatus, hactual, hcharge, hrefunds, hall⟩
      · exact settlement_progress hrow hstatus hrefunds hsettle (hsettle p b hbills)
      · obtain rfl : bills = _ := hall
        rw [update_idem]
        exact refund_progress hid hfunding hrow hstatus hactual hcharge hrefunds
    · refine progress_same h (rows_advance_of_ne (Ne.symm hid)) (refundsOf_advance (.inl hid)) ?_
      rw [hbills, filter_some, if_neg (by simpa using hid), eq_comm, billFor, filter_eq_none_iff]
      intro b' hb'
      simp [(advance_task hb').1, hid]

theorem Move.bill_terminal (hm : Move a db g db' g')
    (hbill : ∀ b, g.bill = some b → b.task.status.isTerminal = true) :
    ∀ b, g'.bill = some b → b.task.status.isTerminal = true := by
  intro b' hb'
  cases hm with
  | rest | fail => cases hb'
  | turn copy turn job' idle holds_copy live outcome =>
    cases outcome with
    | kept => cases hb'
    | written row copy' bill _ _ _ opens =>
      rw [(opens b' hb').task]
      exact (opens b' hb').isTerminal
  | bill b accepted job' bill_eq =>
    rw [(advance_task hb').1]
    exact hbill b bill_eq

theorem Move.copies (hm : Move a db g db' g') (hcareful : a.Careful)
    (hrow : ∀ row, db.rows t.id = some row → row.status.isTerminal = false → SameCharge t row)
    (hbill : ∀ b, g.bill = some b → b.task.status.isTerminal = true)
    (hcopies : ∀ copy, g.job.Holds copy → copy.id = t.id → copy.status.isTerminal = false →
      SameCharge t copy) :
    ∀ copy, g'.job.Holds copy → copy.id = t.id → copy.status.isTerminal = false →
      SameCharge t copy := by
  intro x hx hid hlive
  cases hm with
  | rest job' idle holds =>
    rcases holds x hx with hx | hx
    · exact hcopies x hx hid hlive
    · exact hrow x (hid ▸ hx) hlive
  | fail reason job' idle holds => exact hcopies x (holds x hx) hid hlive
  | turn copy turn job' idle holds_copy live outcome holds =>
    rcases holds x hx with hx | rfl
    · exact hcopies x hx hid hlive
    cases outcome with
    | kept copy' id charge | written row copy' bill row_eq status id opens charge =>
      have hcharge := hcopies copy holds_copy (id ▸ hid) live
      exact hcharge.trans (charge hcareful hcharge.legacy)
  | bill b accepted job' bill_eq holds =>
    rcases holds x hx with hx | rfl
    · exact hcopies x hx hid hlive
    · have hterminal : b.cleared.status.isTerminal = true := hbill b bill_eq
      rw [hlive] at hterminal
      cases hterminal

theorem Tracked.step {d d' : System} {x : ℕ × Action} (hquota : t.quota ≠ 0)
    (hfunding : taskRefundFunding t = some amount) (h : Tracked t amount d)
    (hg : Refundable rt t.id d x) (hstep : step rt d x = some d') : Tracked t amount d' := by
  obtain ⟨hlive, hcareful, hbulk⟩ := hg
  obtain ⟨hmove, hothers⟩ := step_move hlive hstep
  have hrow (row : Task) (hrow : d.shared.rows t.id = some row)
      (hlive : row.status.isTerminal = false) : SameCharge t row :=
    (h.progress.of_live hrow hlive).2
  refine ⟨?_, fun p ↦ ?_, fun p ↦ ?_⟩
  · have hbills : (fun p ↦ (d'.thread p).billFor t.id) =
        update (fun p ↦ (d.thread p).billFor t.id) x.1 ((d'.thread x.1).billFor t.id) := by
      rw [eq_update_iff]
      exact ⟨rfl, fun q hq ↦ by rw [hothers q hq]⟩
    rw [view, hbills]
    exact hmove.progress hcareful hbulk hquota hfunding (h.copies x.1) rfl h.progress
  · by_cases hp : p = x.1
    · rw [hp]
      exact hmove.copies hcareful hrow (h.bills x.1) (h.copies x.1)
    · rw [hothers p hp]
      exact h.copies p
  · by_cases hp : p = x.1
    · rw [hp]
      exact hmove.bill_terminal (h.bills x.1)
    · rw [hothers p hp]
      exact h.bills p

theorem Progress.of_failure (h : Progress t amount v) (hrow : v.row = some row)
    (hstatus : row.status = .failure) (hbills : ∀ p, v.bills p = none) :
    v.refunds = refundEntries t amount ∧ row.quota = 0 := by
  cases h with
  | live row' status =>
    cases hrow
    exact absurd hstatus (not_isTerminal status).1
  | succeeded row' _ status =>
    cases hrow
    rw [status] at hstatus
    cases hstatus
  | refunding row' p b =>
    have := hbills p
    dsimp only at this
    rw [update_self] at this
    cases this
  | refunded row' _ quota =>
    cases hrow
    exact ⟨rfl, quota⟩

theorem Progress.not_refunded (h : Progress t amount v)
    (hstatus : ∀ row, v.row = some row → row.status ≠ .failure) : v.refunds = [] := by
  cases h with
  | live => rfl
  | succeeded => rfl
  | refunding row _ _ status | refunded row status => exact absurd status (hstatus row rfl)

def ReachesFailure (rt : Runtime) (c : System) (run : List (ℕ × Action)) (i : ℤ) : Prop :=
  ∃ before after d row, run = before ++ after ∧ exec (step rt) c before = some d ∧
    d.shared.rows i = some row ∧ row.status = .failure

/-- In every interleaving in which answers are only written over copies that are not terminal and
the task is not failed by a bulk update, by a realtime answer or after Suno has moved it before the
cutoff, a charged task that fails is refunded once, and one that does not is not refunded. -/
theorem failed_task_refunded_once {c : System} {run : List (ℕ × Action)}
    (hrow : db.rows t.id = some t) (hlive : t.status.isTerminal = false) (hquota : 0 < t.quota)
    (hsubmit : taskRefundLegacyCutoff ≤ t.submitTime) (hledger : refundsOf t.id db.ledger = [])
    (hfunding : taskRefundFunding t = some amount)
    (hg : Guarded (step rt) (Refundable rt t.id) (.start db) run)
    (hrun : exec (step rt) (.start db) run = some c) :
    (ReachesFailure rt (.start db) run t.id → (∀ p, (c.thread p).bill = none) →
      refundsOf t.id c.shared.ledger = refundEntries t amount ∧
        (c.shared.rows t.id).map Task.quota = some 0) ∧
    (¬ ReachesFailure rt (.start db) run t.id → refundsOf t.id c.shared.ledger = []) := by
  have hlegacy : t.isLegacy = false := by
    simp only [Task.isLegacy, isLegacyTime, Bool.and_eq_false_iff, decide_eq_false_iff_not]
    omega
  have hstart : Tracked t amount (.start db) := by
    refine ⟨?_, fun p copy h ↦ h.elim, fun p b h ↦ by cases h⟩
    have := @Progress.live t amount t hlive ⟨rfl, rfl, rfl, hlegacy⟩
    rwa [← hrow, ← hledger] at this
  have htracked : Tracked t amount c :=
    exec_invariant (fun d x d' hd hx h ↦ hd.step hquota.ne' hfunding hx h) hstart hg hrun
  constructor
  · rintro ⟨before, after, d, row, rfl, hd, hdrow, hfailure⟩ hbills
    obtain ⟨d', hd', hc⟩ := exec_append.1 hrun
    obtain rfl : d = d' := some.inj (hd.symm.trans hd')
    obtain ⟨row', hrow', hfailure'⟩ :=
      status_kept (fun _ _ hx ↦ ⟨hx.1, fun hmem ↦ absurd hmem hx.2.2⟩) rfl
        ⟨row, hdrow, hfailure⟩ (hg.right hd) hc
    obtain ⟨hrefunds, hzero⟩ := htracked.progress.of_failure hrow' hfailure'
      fun p ↦ billFor_eq_none (hbills p)
    refine ⟨hrefunds, ?_⟩
    rw [hrow', map_some, hzero]
  · intro hnever
    refine htracked.progress.not_refunded fun row hcrow hfailure ↦ hnever ?_
    exact ⟨run, [], c, row, (List.append_nil run).symm, hrun, hcrow, hfailure⟩

open Example in
/-- The channel of a video task is gone: the poller fails its row, and nothing gives its quota
back. -/
theorem channel_failure_without_refund :
    (exec (step runtime) (.start (database (task (.video "kling"))))
      [(0, .startPolling (.video "kling") [1]), (0, .failChannel 7 ["up_1"])]).map
      (fun c ↦ (billing c, (c.thread 0).bill)) = some ((some (.failure, 500), []), none) := by
  decide +kernel

open Example in
/-- The sweep and a poller race for the failure of a task: the sweep wins and refunds it. -/
theorem failed_task_refunded_once_race :
    ∃ c, exec (step runtime) (.start (database (task .suno)))
        (timedOut ++ [(0, sunoItem .failure "boom")] ++ payOff 1) = some c ∧
      refundsOf 1 c.shared.ledger = refunds := by
  obtain ⟨c, hrun, hbills⟩ : ∃ c, exec (step runtime) (.start (database (task .suno)))
      (timedOut ++ [(0, sunoItem .failure "boom")] ++ payOff 1) = some c ∧
      ((c.thread 0).bill, (c.thread 1).bill) = (none, none) :=
    map_eq_some_iff.1 (by decide +kernel)
  obtain ⟨hbill₀, hbill₁⟩ := Prod.mk.inj hbills
  have hidle (p : ℕ) : (c.thread p).bill = none := by
    by_cases hp : p = 0 ∨ p = 1
    · rcases hp with rfl | rfl
      · exact hbill₀
      · exact hbill₁
    rw [not_or] at hp
    rw [Config.exec_thread_of_not_mem (fun a ha ↦ ?_) hrun]
    · rfl
    · have : ∀ a ∈ timedOut ++ [(0, sunoItem .failure "boom")] ++ payOff 1,
          a.1 = 0 ∨ a.1 = 1 := by decide +kernel
      rcases this a ha with h | h <;> simp [h, hp]
  have hfails : ReachesFailure runtime (.start (database (task .suno)))
      (timedOut ++ [(0, sunoItem .failure "boom")] ++ payOff 1) 1 := by
    obtain ⟨d, hd, hrow⟩ := bind_eq_some_iff.1
      (show (exec (step runtime) (.start (database (task .suno))) timedOut).bind
        (fun c ↦ c.shared.rows 1) = some (timeOut 1900000000 60 (task .suno)) by decide +kernel)
    exact ⟨timedOut, _, d, _, List.append_assoc _ _ _, hd, hrow, rfl⟩
  have hrefunds := failed_task_refunded_once (t := task .suno)
    (show (database (task .suno)).rows 1 = some (task .suno) by decide +kernel) rfl
    (by decide) (by decide) rfl rfl (by decide +kernel) hrun
  exact ⟨c, hrun, (hrefunds.1 hfails hidle).1⟩

end Moligate.Tasks
