import Moligate.Subscription.Requests.Others

namespace Moligate.Subscription.Requests

open Foundation Common Option Table List

variable {π : Type} {rt : Runtime} {k : String}

def Leaves (rt : Runtime) (t : Commit) : Prop :=
  ∀ i, LeavesRow rt t.plans t.now i t.before t.after

structure Moves (rt : Runtime) (i : ℤ) (b : Bucket) (delta : ℤ) (t : Commit) : Prop where
  row : ShiftsRow rt t.plans t.now i b delta t.before t.after
  frame : ∀ j ≠ i, LeavesRow rt t.plans t.now j t.before t.after

def AtMostOne (rt : Runtime) (ts : List Commit) : Prop :=
  ts.Pairwise fun t t' ↦ Leaves rt t ∨ Leaves rt t'

theorem AtMostOne.cons {ts : List Commit} {t : Commit} (h : AtMostOne rt ts)
    (ht : Leaves rt t ∨ ∀ t' ∈ ts, Leaves rt t') : AtMostOne rt (t :: ts) := by
  refine pairwise_cons.2 ⟨fun t' ht' ↦ ?_, h⟩
  exact ht.imp id fun hall ↦ hall t' ht'

/-- The transactions that the record accounts for. -/
structure Account (rt : Runtime) (w : World π) (record : PreConsumeRecord) (b : Bucket) : Prop where
  held : Held record
  id : record.userSubscriptionId ≤ w.lastId
  bucket : ∀ row, w.db.subs.find record.userSubscriptionId = some row →
    bucketOf rt record (names row) = some b
  served : ∀ t ∈ w.served, Answers record t.result ∧ t.late = false ∧ (Leaves rt t.toCommit ∨
    Moves rt record.userSubscriptionId b (heldAmount record) t.toCommit)
  refunds : ∀ t ∈ w.refunds, record.status = .refunded ∧ (Leaves rt t ∨
    Moves rt record.userSubscriptionId b (-heldAmount record) t)
  charged_once : AtMostOne rt (w.served.map Served.toCommit)
  refunded_once : AtMostOne rt w.refunds

structure Invariant (rt : Runtime) (k : String) (w : World π) : Prop where
  wellFormed : ∀ row ∈ w.db.subs.rows, GrantsWellFormed rt row
  ids : ∀ row ∈ w.db.subs.rows, row.id ≤ w.lastId
  unreserved : w.db.records.find k = none → w.served = [] ∧ w.refunds = []
  reserved : ∀ record, w.db.records.find k = some record → ∃ b, Account rt w record b

structure SameReservation (record record' : PreConsumeRecord) : Prop where
  subscription : record'.userSubscriptionId = record.userSubscriptionId
  preConsumed : record'.preConsumed = record.preConsumed
  resource : record'.resourceAmount = record.resourceAmount
  refunded : record.status = .refunded → record'.status = .refunded

section

variable {record : PreConsumeRecord} {stage : Stage} {db db' : Db} {row' : UserSubscription}
  {b : Bucket} {i lastId : ℤ} {refund : Refund}

theorem SameReservation.refl : SameReservation record record :=
  ⟨rfl, rfl, rfl, id⟩

theorem SameReservation.trans {r₁ r₂ r₃ : PreConsumeRecord} (h : SameReservation r₁ r₂)
    (h' : SameReservation r₂ r₃) : SameReservation r₁ r₃ :=
  ⟨h'.subscription.trans h.subscription, h'.preConsumed.trans h.preConsumed,
    h'.resource.trans h.resource, fun hr ↦ h'.refunded (h.refunded hr)⟩

structure Locked (p : π) (w : World π) (subs : List UserSubscription) : Prop where
  nodup : (subs.map UserSubscription.id).Nodup
  locks : ∀ s ∈ subs, w.rowLocks s.id = some p
  rows : ∀ s ∈ subs, w.db.subs.find s.id = some s

def Stage.Holds (k : String) (p : π) (w : World π) : Stage → Prop
  | .idle | .lockRecord _ => True
  | .findRecord call => call.request.requestId = k ∧ (call.late = true →
      ∃ record, w.db.records.find k = some record ∧ record.status = .refunded)
  | .findSubscription call existing => call.late = false ∧
      ∃ record, w.db.records.find k = some record ∧ SameReservation existing record
  | .lockSubscriptions call => call.request.requestId = k ∧ call.late = false
  | .createRecord call subs =>
    call.request.requestId = k ∧ call.late = false ∧ Locked p w subs
  | .commit call subs =>
    call.request.requestId = k ∧ call.late = false ∧ Locked p w subs ∧
      w.recordLock = some p ∧ w.db.records.find k = none
  | .giveBack _ record =>
    w.recordLock = some p ∧ w.db.records.find k = some record ∧ record.status ≠ .refunded

/-- What the transaction of `q` relies on: its locks, what it has locked, and the reservation. -/
structure Spares (k : String) (q : π) (w w' : World π) : Prop where
  rows : ∀ i, w.rowLocks i = some q → w'.rowLocks i = some q ∧
    ∀ row, w.db.subs.find i = some row → w'.db.subs.find i = some row
  record : w.recordLock = some q →
    w'.recordLock = some q ∧ w'.db.records.find k = w.db.records.find k
  reservation : ∀ record, w.db.records.find k = some record →
    ∃ record', w'.db.records.find k = some record' ∧ SameReservation record record'

def Keeps (k : String) (p : π) (w w' : World π) : Prop := ∀ q ≠ p, Spares k q w w'

abbrev Safe (rt : Runtime) (k : String) (p : π) (w : World π) (out : World π × Stage) : Prop :=
  Config.Safe (Invariant rt k) (Stage.Holds k) (Keeps k) p w out

variable {p q : π} {w w' : World π} {call : PreConsume} {subs : List UserSubscription}
  {out : World π × Stage} {served : List Served} {refunds : List Commit}

theorem Locked.stable (h : Locked q w subs) (hspares : Spares k q w w') : Locked q w' subs where
  nodup := h.nodup
  locks s hs := (hspares.rows s.id (h.locks s hs)).1
  rows s hs := (hspares.rows s.id (h.locks s hs)).2 s (h.rows s hs)

theorem Stage.Holds.stable (h : stage.Holds k q w) (hspares : Spares k q w w') :
    stage.Holds k q w' := by
  cases stage with
  | idle | lockRecord _ => trivial
  | findRecord call =>
    refine ⟨h.1, fun hlate ↦ ?_⟩
    obtain ⟨record, hrecord, hrefunded⟩ := h.2 hlate
    obtain ⟨record', hrecord', hsame⟩ := hspares.reservation record hrecord
    exact ⟨record', hrecord', hsame.refunded hrefunded⟩
  | findSubscription call existing =>
    obtain ⟨hlate, record, hrecord, hsame⟩ := h
    obtain ⟨record', hrecord', hsame'⟩ := hspares.reservation record hrecord
    exact ⟨hlate, record', hrecord', hsame.trans hsame'⟩
  | lockSubscriptions call => exact h
  | createRecord call subs => exact ⟨h.1, h.2.1, h.2.2.stable hspares⟩
  | commit call subs =>
    obtain ⟨hid, hlate, hlocked, hlock, hnone⟩ := h
    obtain ⟨hlock', hrecord⟩ := hspares.record hlock
    exact ⟨hid, hlate, hlocked.stable hspares, hlock', hrecord.trans hnone⟩
  | giveBack call record =>
    obtain ⟨hlock, hrecord, hstatus⟩ := h
    obtain ⟨hlock', hsame⟩ := hspares.record hlock
    exact ⟨hlock', hsame.trans hrecord, hstatus⟩

theorem Invariant.frame {rowLocks : ℤ → Option π} {recordLock : Option π} (h : Invariant rt k w) :
    Invariant rt k { w with rowLocks, recordLock } where
  __ := h
  reserved record hrecord := by
    obtain ⟨b, ha⟩ := h.reserved record hrecord
    exact ⟨b, { ha with }⟩

theorem bucketOf_keeps (h : KeepsTerms i db db')
    (hbucket : ∀ row, db.subs.find i = some row → bucketOf rt record (names row) = some b)
    (hrow' : db'.subs.find i = some row') : bucketOf rt record (names row') = some b := by
  rw [KeepsTerms, hrow', map_some] at h
  obtain ⟨row, hrow, heq⟩ := map_eq_some_iff.1 h.symm
  rw [names, identity_of_terms heq.symm]
  exact hbucket row hrow

theorem Moves.terms {delta : ℤ} {t : Commit} (h : Moves rt i b delta t) (j : ℤ) :
    KeepsTerms j t.before t.after := by
  by_cases hj : j = i
  · exact hj ▸ h.row.terms
  · exact (h.frame j hj).terms

theorem Invariant.rows (hw : Invariant rt k w) (h : ∀ i, KeepsTerms i w.db db') :
    ∀ row' ∈ db'.subs.rows, GrantsWellFormed rt row' ∧ row'.id ≤ w.lastId := by
  intro row' hrow'
  have hterms := h row'.id
  rw [KeepsTerms, find_of_mem hrow', map_some] at hterms
  obtain ⟨row, hrow, hterms⟩ := map_eq_some_iff.1 hterms.symm
  have hmem := find_mem hrow
  exact ⟨(hw.wellFormed row hmem).of_terms hterms.symm, terms_id hterms ▸ hw.ids row hmem⟩

theorem Invariant.of_account (hw : Invariant rt k w) (hterms : ∀ i, KeepsTerms i w.db w'.db)
    (hid : w'.lastId = w.lastId) (hrecord : w'.db.records.find k = some record)
    (ha : Account rt w' record b) : Invariant rt k w' := by
  have hrows := hw.rows hterms
  refine ⟨fun row h ↦ (hrows row h).1, fun row h ↦ hid ▸ (hrows row h).2, fun hnone ↦ ?_,
    fun record' hrecord' ↦ ⟨b, ?_⟩⟩
  · cases hrecord.symm.trans hnone
  · rwa [← some.inj (hrecord.symm.trans hrecord')]

theorem safe_stay (hw : Invariant rt k w) (h : stage.Holds k p w) : Safe rt k p w (w, stage) :=
  ⟨hw, h, fun _ _ ↦ ⟨fun _ hi ↦ ⟨hi, fun _ hrow ↦ hrow⟩, fun hi ↦ ⟨hi, rfl⟩,
    fun record hr ↦ ⟨record, hr, .refl⟩⟩⟩

variable [DecidableEq π]

theorem released {lock : Option π} (hq : q ≠ p) (h : lock = some q) :
    (if lock = some p then none else lock) = some q :=
  (if_neg fun he ↦ hq (some.inj (h.symm.trans he))).trans h

theorem keeps_release (hrows : ∀ i q, q ≠ p → w.rowLocks i = some q →
      ∀ row, w.db.subs.find i = some row → db.subs.find i = some row)
    (hrecord : ∀ q, q ≠ p → w.recordLock = some q → db.records.find k = w.db.records.find k)
    (hreservation : ∀ record, w.db.records.find k = some record →
      ∃ record', db.records.find k = some record' ∧ SameReservation record record') :
    Keeps k p w { w.release p with db, served, refunds } := fun q hq ↦
  ⟨fun i hi ↦ ⟨released hq hi, hrows i q hq hi⟩,
    fun hi ↦ ⟨released hq hi, hrecord q hq hi⟩, hreservation⟩

theorem keeps_release_same : Keeps k p w { w.release p with db := w.db, served, refunds } :=
  keeps_release (fun _ _ _ _ _ h ↦ h) (fun _ _ _ ↦ rfl) fun record hr ↦ ⟨record, hr, .refl⟩

theorem safe_abort (hw : Invariant rt k w) : Safe rt k p w (abort w p) :=
  ⟨hw.frame, trivial, keeps_release_same⟩

theorem invariant_charged {out : Db × PreConsumeResult} {row : UserSubscription}
    (hw : Invariant rt k w) (hlate : call.late = false) (hnew : w.db.records.find k = none)
    (hrecord : out.1.records.find k = some record) (hheld : Held record)
    (hrow : w.db.subs.find record.userSubscriptionId = some row)
    (hbucket : bucketOf rt record (names row) = some b) (hanswers : Answers record out.2)
    (hmoves : Moves rt record.userSubscriptionId b (heldAmount record)
      ⟨w.db, out.1, call.plans, call.now⟩) :
    Invariant rt k (serve w p call out).1 := by
  obtain ⟨hserved, hrefunds⟩ := hw.unreserved hnew
  have hserved' : (serve w p call out).1.served =
      [⟨⟨w.db, out.1, call.plans, call.now⟩, out.2, call.late⟩] := by
    rw [← hserved]
    rfl
  have hrefunds' : (serve w p call out).1.refunds = [] := hrefunds
  have hid : record.userSubscriptionId ≤ w.lastId :=
    (key_of_find hrow : row.id = _) ▸ hw.ids row (find_mem hrow)
  have hfound (row₁ : UserSubscription)
      (hrow₁ : w.db.subs.find record.userSubscriptionId = some row₁) :
      bucketOf rt record (names row₁) = some b := by
    rwa [← some.inj (hrow.symm.trans hrow₁)]
  refine hw.of_account hmoves.terms rfl hrecord ⟨hheld, hid,
    fun row' hrow' ↦ bucketOf_keeps (hmoves.terms _) hfound hrow', fun t ht ↦ ?_, ?_, ?_, ?_⟩
  · rw [hserved', mem_singleton] at ht
    exact ht ▸ ⟨hanswers, hlate, .inr hmoves⟩
  · simp [hrefunds']
  · rw [hserved']
    exact pairwise_singleton _ _
  · rw [hrefunds']
    exact .nil

theorem invariant_replayed {out : Db × PreConsumeResult} (hw : Invariant rt k w)
    (hlate : call.late = false) (hrecord : w.db.records.find k = some record)
    (hrecords : out.1.records = w.db.records) (hanswers : Answers record out.2)
    (hleaves : Leaves rt ⟨w.db, out.1, call.plans, call.now⟩) :
    Invariant rt k (serve w p call out).1 := by
  have hrecord' : out.1.records.find k = some record := hrecords ▸ hrecord
  have hterms (i : ℤ) : KeepsTerms i w.db out.1 := (hleaves i).terms
  obtain ⟨b, ha⟩ := hw.reserved record hrecord
  refine hw.of_account hterms rfl hrecord' ⟨ha.held, ha.id,
    fun row' hrow' ↦ bucketOf_keeps (hterms _) ha.bucket hrow', fun t ht ↦ ?_, ha.refunds,
    ha.charged_once.cons (.inl hleaves), ha.refunded_once⟩
  rcases mem_cons.1 ht with rfl | ht
  · exact ⟨hanswers, hlate, .inl hleaves⟩
  · exact ha.served t ht

/-- The reservation goes through under the lock of the record, or finds a record. -/
theorem safe_finishReserve (hw : Invariant rt k w)
    (hid : call.request.requestId = k) (hlate : call.late = false) (hlocked : Locked p w subs)
    (hrecord : w.recordLock = some p ∨ w.db.records.find k ≠ none)
    (hout : finishReserve rt w p call subs = some out) : Safe rt k p w out := by
  rw [finishReserve] at hout
  split at hout
  next res hres =>
    cases hout
    have hwf (s : UserSubscription) (hs : s ∈ subs) : GrantsWellFormed rt s :=
      hw.wellFormed s (find_mem (hlocked.rows s hs))
    have hreserves := preConsumeLoop_outcome hlocked.nodup hlocked.rows hwf hres
    have hframe := (preConsumeLoop_effect hlocked.nodup hlocked.rows hres).2.1
    rw [hid] at hreserves
    refine ⟨?_, trivial, keeps_release (fun i q hq hi row hrow ↦ ?_) (fun q hq hi ↦ ?_)
      fun record hr ↦ ⟨record, hreserves.reservation hr, .refl⟩⟩
    · cases hreserves with
      | charged record row b hnew hrecord _ _ hheld _ hrow hbucket hshifts hothers hanswers =>
        exact invariant_charged hw hlate hnew hrecord hheld hrow hbucket hanswers ⟨hshifts, hothers⟩
      | replayed record hrecord _ hrecords hrows hanswers =>
        exact invariant_replayed hw hlate hrecord hrecords hanswers hrows
    -- a row that another transaction has locked is not among the candidates
    · refine ((hframe i fun hmem ↦ ?_).find).trans hrow
      obtain ⟨s, hs, rfl⟩ := mem_map.1 hmem
      exact hq (some.inj (hi.symm.trans (hlocked.locks s hs)))
    · rcases hrecord with hp | hfound
      · exact absurd (some.inj (hi.symm.trans hp)) hq
      · obtain ⟨record, hr⟩ := ne_none_iff_exists'.1 hfound
        exact (hreserves.reservation hr).trans hr.symm
  · cases hout
    exact safe_abort hw
  · cases hout

theorem eq_of_all {o : Option π} (h : o.all (· = p) = true) (hq : o = some q) : q = p := by
  rw [hq] at h
  exact of_decide_eq_true h

theorem Keeps.of_recordLock (h : w.recordLock.all (· = p) = true) :
    Keeps k p w { w with recordLock := some p } := fun _ hq ↦
  ⟨fun _ hi ↦ ⟨hi, fun _ hrow ↦ hrow⟩, fun hi ↦ absurd (eq_of_all h hi) hq,
    fun record hr ↦ ⟨record, hr, .refl⟩⟩

section

variable (hw : Invariant rt k w)
include hw

theorem safe_createRecord (h : (Stage.createRecord call subs).Holds k p w)
    (hout : createRecord rt k w p call subs = some out) : Safe rt k p w out := by
  obtain ⟨hid, hlate, hlocked⟩ := h
  rw [createRecord] at hout
  split_ifs at hout with hsome hfree
  · exact safe_finishReserve hw hid hlate hlocked
      (.inr (isSome_iff_ne_none.1 hsome)) hout
  · split at hout
    · cases hout
      refine ⟨hw.frame, ⟨hid, hlate, { hlocked with },
        rfl, ?_⟩, .of_recordLock hfree⟩
      simpa using hsome
    · cases hout
      exact safe_abort hw
    · cases hout

theorem safe_lockSubscriptions (h : (Stage.lockSubscriptions call).Holds k p w)
    (hout : lockSubscriptions w p call = some out) : Safe rt k p w out := by
  rw [lockSubscriptions] at hout
  split_ifs at hout with hempty hfree
  · cases hout
    exact safe_abort hw
  · cases hout
    set subs := candidates call.now w.db call.request.userId with hsubs
    refine ⟨hw.frame, ⟨h.1, h.2, candidates_nodup, fun s hs ↦ ?_, fun s hs ↦ ?_⟩,
      fun q hq ↦ ⟨fun i hi ↦ ⟨?_, fun _ hrow ↦ hrow⟩, fun hi ↦ ⟨hi, rfl⟩,
        fun record hr ↦ ⟨record, hr, .refl⟩⟩⟩
    · exact if_pos (mem_map_of_mem hs)
    · exact find_of_mem (mem_candidates.1 hs).1
    · refine (if_neg fun hmem ↦ hq ?_).trans hi
      obtain ⟨s, hs, rfl⟩ := mem_map.1 hmem
      exact eq_of_all (all_eq_true.1 hfree s hs) hi

theorem safe_findRecord (h : (Stage.findRecord call).Holds k p w) :
    Safe rt k p w (findRecord k w p call) := by
  obtain ⟨hid, hlate⟩ := h
  -- a call that began after the refund finds the refunded record
  have hearly (hstatus : ∀ record, w.db.records.find k = some record → record.status ≠ .refunded) :
      call.late = false := by
    by_contra hl
    obtain ⟨record, hrecord, hrefunded⟩ := hlate (by simpa using hl)
    exact hstatus record hrecord hrefunded
  rw [findRecord]
  split
  next hnone => exact safe_stay hw ⟨hid, hearly fun record hr ↦ by cases hnone.symm.trans hr⟩
  next existing hfound =>
    split_ifs with hrefunded
    · exact safe_abort hw
    · refine safe_stay hw ⟨hearly fun record hr ↦ ?_, existing, hfound, .refl⟩
      rwa [← some.inj (hfound.symm.trans hr)]

theorem safe_findSubscription {existing : PreConsumeRecord}
    (h : (Stage.findSubscription call existing).Holds k p w) :
    Safe rt k p w (findSubscription w p call existing) := by
  obtain ⟨hlate, record, hrecord, hsame⟩ := h
  rw [findSubscription]
  split
  next result hresult =>
    have ha := (replayRecord_answers hresult).2
    have hanswers : Answers record result :=
      ⟨ha.subscription.trans hsame.subscription.symm, ha.preConsumed.trans hsame.preConsumed.symm,
        ha.resource.trans hsame.resource.symm⟩
    exact ⟨invariant_replayed hw hlate hrecord rfl hanswers fun _ ↦ .of_same rfl, trivial,
      keeps_release_same⟩
  · exact safe_abort hw

theorem safe_lockRecord (hout : lockRecord k w p refund = some out) : Safe rt k p w out := by
  rw [lockRecord] at hout
  split at hout
  · cases hout
    exact safe_abort hw
  rename_i record hrecord
  split_ifs at hout with hfree hrefunded
  · cases hout
    obtain ⟨b, ha⟩ := hw.reserved record hrecord
    have hleaves : Leaves rt ⟨w.db, w.db, refund.plans, refund.now⟩ := fun _ ↦ .of_same rfl
    refine ⟨hw.of_account (fun _ ↦ rfl) rfl hrecord ⟨ha.held, ha.id, ha.bucket, ha.served,
      fun t ht ↦ ?_, ha.charged_once, ha.refunded_once.cons (.inl hleaves)⟩, trivial,
      keeps_release_same⟩
    rcases mem_cons.1 ht with rfl | ht
    · exact ⟨hrefunded, .inl hleaves⟩
    · exact ha.refunds t ht
  · cases hout
    exact ⟨hw.frame, ⟨rfl, hrecord, hrefunded⟩, .of_recordLock hfree⟩

theorem invariant_giveBack (hrecord : w.db.records.find k = some record)
    (hstatus : record.status ≠ .refunded) (h : GivesBack rt refund.plans refund.now record w.db db)
    (hfound : (db.records.save { record with status := .refunded }).find k =
      some { record with status := .refunded }) :
    Invariant rt k (finishRefund w p refund
      { db with records := db.records.save { record with status := .refunded } }).1 := by
  obtain ⟨b, ha⟩ := hw.reserved record hrecord
  have hrefunds : w.refunds = [] :=
    eq_nil_iff_forall_not_mem.2 fun t ht ↦ hstatus (ha.refunds t ht).1
  set db' : Db := { db with records := db.records.save { record with status := .refunded } }
  have hmoves : Moves rt record.userSubscriptionId b (-heldAmount record)
      ⟨w.db, db', refund.plans, refund.now⟩ := by
    obtain ⟨row, b', hrow, hbucket, hshifts⟩ := h.bucket
    obtain rfl := some.inj ((ha.bucket row hrow).symm.trans hbucket)
    exact ⟨hshifts, fun j hj ↦ .of_same (h.frame j hj)⟩
  refine hw.of_account hmoves.terms rfl hfound ⟨ha.held, ha.id,
    fun row' hrow' ↦ bucketOf_keeps (hmoves.terms _) ha.bucket hrow', fun t ht ↦ ?_,
    fun t ht ↦ ⟨rfl, ?_⟩, ha.charged_once, ?_⟩
  · obtain ⟨⟨h₁, h₂, h₃⟩, hserved⟩ := ha.served t ht
    exact ⟨⟨h₁, h₂, h₃⟩, hserved⟩
  · change t ∈ _ :: w.refunds at ht
    rw [hrefunds, mem_singleton] at ht
    exact ht ▸ .inr hmoves
  · change AtMostOne rt (_ :: w.refunds)
    rw [hrefunds]
    exact pairwise_singleton _ _

theorem safe_giveBack (h : (Stage.giveBack refund record).Holds k p w)
    (hout : giveBack rt w p refund record = some out) : Safe rt k p w out := by
  obtain ⟨hlock, hrecord, hstatus⟩ := h
  rw [giveBack] at hout
  split_ifs at hout with hfree
  split at hout
  next db hdb =>
    cases hout
    obtain ⟨b, ha⟩ := hw.reserved record hrecord
    have hback := refundRecord_outcome ha.held hdb
    have hkey : record.requestId = k := key_of_find hrecord
    have hstored : db.records.find record.requestId = some record := by
      rw [hback.records, hkey, hrecord]
    have hfound : (db.records.save { record with status := .refunded }).find k =
        some { record with status := .refunded } := by
      rw [← hkey]
      exact find_save_self (r := { record with status := .refunded }) hstored
    refine ⟨invariant_giveBack hw hrecord hstatus hback hfound, trivial, keeps_release
      (fun i q hq hi row hrow ↦ ?_) (fun q hq hi ↦ ?_) fun record' hr ↦ ⟨_, hfound, ?_⟩⟩
    · refine (hback.frame i fun he ↦ hq ?_).trans hrow
      exact eq_of_all hfree (he ▸ hi)
    · exact absurd (some.inj (hi.symm.trans hlock)) hq
    · obtain rfl := some.inj (hrecord.symm.trans hr)
      exact ⟨rfl, rfl, rfl, fun _ ↦ rfl⟩
  · cases hout
    exact safe_abort hw
  · cases hout

theorem safe_next (h : stage.Holds k p w)
    (hout : next rt k w p stage = some out) : Safe rt k p w out := by
  cases stage with
  | idle => cases hout
  | findRecord call =>
    cases hout
    exact safe_findRecord hw h
  | findSubscription call existing =>
    cases hout
    exact safe_findSubscription hw h
  | lockSubscriptions call => exact safe_lockSubscriptions hw h hout
  | createRecord call subs => exact safe_createRecord hw h hout
  | commit call subs => exact safe_finishReserve hw h.1 h.2.1 h.2.2.1 (.inl h.2.2.2.1) hout
  | lockRecord call => exact safe_lockRecord hw hout
  | giveBack call record => exact safe_giveBack hw h hout

end

omit [DecidableEq π] in
/-- The transactions of other requests spare every transaction of this one. -/
theorem spares_others (h : othersMay rt k w db lastId = true) (q : π) :
    Spares k q w { w with db, lastId } := by
  simp only [othersMay, Bool.and_eq_true, decide_eq_true_eq, List.all_eq_true] at h
  obtain ⟨⟨⟨hrecord, -⟩, -⟩, hlocked⟩ := h
  refine ⟨fun i hi ↦ ⟨hi, fun row hrow ↦ ?_⟩, fun hi ↦ ⟨hi, hrecord⟩,
    fun record hr ↦ ⟨record, hrecord.trans hr, .refl⟩⟩
  obtain rfl := (key_of_find hrow : row.id = i)
  simpa [hi] using hlocked row (find_mem hrow)

omit [DecidableEq π] in
theorem invariant_others (hw : Invariant rt k w)
    (h : othersMay rt k w db lastId = true) : Invariant rt k { w with db, lastId } := by
  simp only [othersMay, Bool.and_eq_true, decide_eq_true_eq, List.all_eq_true] at h
  obtain ⟨⟨⟨hrecord, hlast⟩, hrows⟩, -⟩ := h
  refine ⟨fun row hrow ↦ (hrows row hrow).1.2, fun row hrow ↦ (hrows row hrow).1.1,
    fun hnone ↦ hw.unreserved (hrecord.symm.trans hnone), fun record hr ↦ ?_⟩
  obtain ⟨b, ha⟩ := hw.reserved record (hrecord.symm.trans hr)
  refine ⟨b, ha.held, ha.id.trans hlast, fun row hrow ↦ ?_, ha.served, ha.refunds,
    ha.charged_once, ha.refunded_once⟩
  -- a row with the id of the reservation is the one that was charged: ids are not given out twice
  have hid : row.id = record.userSubscriptionId := key_of_find hrow
  have hnames := (hrows row (find_mem hrow)).2
  split at hnames
  next old hold => exact of_decide_eq_true hnames ▸ ha.bucket old (hid ▸ hold)
  · have := ha.id
    have := of_decide_eq_true hnames
    omega

theorem safe_perform {a : Action} (hw : Invariant rt k w)
    (h : stage.Holds k p w) (hout : perform rt k p a w stage = some out) : Safe rt k p w out := by
  cases a with
  | preConsume request plans now =>
    rw [perform] at hout
    split_ifs at hout with hidle
    split at hout <;> cases hout
    · refine safe_stay hw ⟨of_decide_eq_true (Bool.and_eq_true_iff.1 hidle).2, fun hlate ↦ ?_⟩
      obtain ⟨record, hrecord, hrefunded⟩ := any_eq_true _ _ |>.1 hlate
      exact ⟨record, hrecord, of_decide_eq_true hrefunded⟩
    · exact safe_stay hw trivial
  | refund plans now =>
    rw [perform] at hout
    split_ifs at hout <;> cases hout <;> exact safe_stay hw trivial
  | next fails =>
    rw [perform] at hout
    split_ifs at hout
    · cases hout
      exact safe_abort hw
    · exact safe_next hw h hout
  | others db lastId =>
    rw [perform] at hout
    split_ifs at hout with hmay
    cases hout
    exact ⟨invariant_others hw hmay, h.stable (spares_others hmay p),
      fun q _ ↦ spares_others hmay q⟩

structure Idempotent (rt : Runtime) (w : World π) : Prop where
  charged_once : AtMostOne rt (w.served.map Served.toCommit)
  refunded_once : AtMostOne rt w.refunds
  bucket : ∃ i b amount, (∀ t ∈ w.served, Leaves rt t.toCommit ∨ Moves rt i b amount t.toCommit) ∧
    ∀ t ∈ w.refunds, Leaves rt t ∨ Moves rt i b (-amount) t
  answers : ∀ t ∈ w.served, ∀ t' ∈ w.served,
    t.result.userSubscriptionId = t'.result.userSubscriptionId ∧
    t.result.preConsumed = t'.result.preConsumed ∧
    t.result.resourcePreConsumed = t'.result.resourcePreConsumed
  early : ∀ t ∈ w.served, t.late = false

omit [DecidableEq π] in
theorem Invariant.idempotent (h : Invariant rt k w) : Idempotent rt w := by
  cases hrecord : w.db.records.find k with
  | none =>
    obtain ⟨hserved, hrefunds⟩ := h.unreserved hrecord
    refine ⟨?_, ?_, ⟨0, .primary, 0, ?_, ?_⟩, ?_, ?_⟩ <;> simp [hserved, hrefunds, AtMostOne]
  | some record =>
    obtain ⟨b, ha⟩ := h.reserved record hrecord
    refine ⟨ha.charged_once, ha.refunded_once, ⟨record.userSubscriptionId, b, heldAmount record,
      fun t ht ↦ (ha.served t ht).2.2, fun t ht ↦ (ha.refunds t ht).2⟩, fun t ht t' ht' ↦ ?_,
      fun t ht ↦ (ha.served t ht).2.1⟩
    obtain ⟨⟨h₁, h₂, h₃⟩, -⟩ := ha.served t ht
    obtain ⟨⟨h₁', h₂', h₃'⟩, -⟩ := ha.served t' ht'
    exact ⟨h₁.trans h₁'.symm, h₂.trans h₂'.symm, h₃.trans h₃'.symm⟩

def Stage.late : Stage → Bool
  | .findRecord call | .findSubscription call _ | .lockSubscriptions call | .createRecord call _
  | .commit call _ => call.late
  | .idle | .lockRecord _ | .giveBack _ _ => false

theorem next_late (h : stage.Holds k p w) (hlate : stage.late = true)
    (hout : next rt k w p stage = some out) : out = abort w p := by
  cases stage with
  | findRecord call =>
    obtain ⟨record, hrecord, hrefunded⟩ := h.2 hlate
    cases hout
    simp [findRecord, hrecord, if_pos hrefunded]
  | findSubscription call existing => cases h.1.symm.trans hlate
  | lockSubscriptions call => cases h.2.symm.trans hlate
  | createRecord call subs | commit call subs => cases h.2.1.symm.trans hlate
  | idle | lockRecord _ | giveBack _ _ => cases hlate

/-- Whatever the interleaving of the transactions for a new request id with each other and with
those of other requests: at most one charges a bucket, at most one gives back, to the same bucket,
all answers tell of the same reservation, and a pre-consumption that began after the refund fails
at its next statement and changes nothing. -/
theorem reservation_idempotent {db : Db} {lastId : ℤ} {run : List (π × Action)}
    {c : Config (World π) π Stage} (hnew : db.records.find k = none)
    (hwf : ∀ row ∈ db.subs.rows, GrantsWellFormed rt row ∧ row.id ≤ lastId)
    (hrun : exec (System.step rt k) (start db lastId) run = some c) :
    Idempotent rt c.shared ∧ ∀ p fails c', (c.thread p).late = true →
      System.step rt k c (p, .next fails) = some c' → c'.shared.db = c.shared.db ∧
        c'.shared.served = c.shared.served ∧ c'.thread p = .idle := by
  have hstart : (start db lastId : Config (World π) π Stage).Holds (Invariant rt k)
      (Stage.Holds k) := by
    refine ⟨⟨fun row hrow ↦ (hwf row hrow).1, fun row hrow ↦ (hwf row hrow).2,
      fun _ ↦ ⟨rfl, rfl⟩, fun record hr ↦ ?_⟩, fun _ ↦ trivial⟩
    cases hnew.symm.trans hr
  have hholds := Config.exec_safe (R := Keeps k) (G := fun _ _ _ _ ↦ True)
    (fun _ _ _ _ _ hw hstage _ ↦ safe_perform hw hstage)
    (fun _ q _ _ _ hpq hstage hkeeps ↦ hstage.stable (hkeeps q hpq.symm)) hstart
    (guarded_of_forall fun _ _ ↦ trivial) hrun
  refine ⟨hholds.1.idempotent, fun p fails c' hlate hstep ↦ ?_⟩
  have hperform := (Config.step_eq_some hstep).1
  have habort : (c'.shared, c'.thread p) = abort c.shared p := by
    rw [perform] at hperform
    split_ifs at hperform
    · exact (some.inj hperform).symm
    · exact next_late (hholds.2 p) hlate hperform
  obtain ⟨hshared, hthread⟩ := Prod.mk.inj habort
  exact ⟨by rw [hshared]; rfl, by rw [hshared]; rfl, hthread⟩

end

namespace Example

def runtime : Runtime := ⟨0, .finite, id, id⟩

def grant : ResourceGrant := ⟨"gpt-image", .imageCount, "gpt-image", 10, 2⟩

def sub : UserSubscription where
  id := 1
  userId := 7
  planId := 3
  amountTotal := 1000
  amountUsed := 0
  daily := {}
  weekly := {}
  monthly := {}
  periodResetAnchorVersion := 1
  startTime := 0
  endTime := 100000
  status := .active
  lastResetTime := 0
  nextResetTime := 0
  applicableGroups := []
  modelFamily := ""
  includedModels := []
  billingRatio := .finite 1
  resourceGrants := [grant]

def db : Db := ⟨⟨[sub], nodup_singleton _⟩, ∅, [], 0⟩

def plans : Plans := fun id ↦ some ⟨id, "never", 0⟩

def request (amount : ℤ) : PreConsumeRequest :=
  { requestId := "r", userId := 7, modelName := "gpt-image", amount := amount
    resource := some ⟨"gpt-image", "image_count", 3⟩ }

def go (p : ℕ) : ℕ × Action := (p, .next false)

/-- Both pre-consumptions find no record; the second one, with another price, gets the rows after the
first has committed and finds the duplicate. Then two refunds and a late pre-consumption. -/
def run : List (ℕ × Action) :=
  [(1, .preConsume (request 40) plans 1000), (2, .preConsume (request 50) plans 1001),
    go 1, go 2, go 1, go 1, go 1, go 2, go 2,
    (3, .refund plans 1002), (4, .refund plans 1003), go 3, go 3, go 4,
    (5, .preConsume (request 40) plans 1004)]

end Example

open Example

structure Outcome where
  answers : List (ℤ × ℤ × ℤ)
  refunds : ℕ
  used : Option (List ℤ)
  late : Bool
  deriving DecidableEq

def outcome (c : Config (World ℕ) ℕ Stage) : Outcome where
  answers := c.shared.served.map fun t ↦
    (t.result.userSubscriptionId, t.result.preConsumed, t.result.resourcePreConsumed)
  refunds := c.shared.refunds.length
  used := (c.shared.db.subs.find 1).map fun s ↦ s.resourceGrants.map (·.used)
  late := (c.thread 5).late

theorem reservation_idempotent_duplicate :
    ∃ c : Config (World ℕ) ℕ Stage,
      exec (System.step runtime "r") (start Example.db 1) run = some c ∧
        outcome c = ⟨[(1, 40, 3), (1, 40, 3)], 2, some [2], true⟩ ∧
        Idempotent runtime c.shared := by
  obtain ⟨c, hrun, h⟩ := map_eq_some_iff.1
    (show (exec (System.step runtime "r") (start Example.db 1) run).map outcome =
        some ⟨[(1, 40, 3), (1, 40, 3)], 2, some [2], true⟩ by decide +kernel)
  exact ⟨c, hrun, h, (reservation_idempotent rfl (by decide +kernel) hrun).1⟩

/-- No call changes what a subscription was bought with, or the record of another request. -/
theorem terms_kept {rt : Runtime} {k : String} {w w' : Subscription.World} {rs : List Request}
    (hwf : ∀ row ∈ w.db.subs.rows, GrantsWellFormed rt row)
    (hop : ∀ r ∈ rs, requestOf r.op ≠ some k) (hrun : exec (Subscription.step rt) w rs = some w') :
    w'.db.records.find k = w.db.records.find k ∧ ∀ i, KeepsTerms i w.db w'.db := by
  refine exec_invariant (I := fun w' : Subscription.World ↦
    w'.db.records.find k = w.db.records.find k ∧ ∀ i, KeepsTerms i w.db w'.db)
    (fun w₁ r w₂ h hop hstep ↦ ?_) ⟨rfl, fun _ ↦ rfl⟩ (guarded_of_forall hop) hrun
  rw [Subscription.step] at hstep
  split_ifs at hstep
  split at hstep <;> cases hstep
  · exact h
  next db hdb =>
    have hwf₁ (row' : UserSubscription) (hrow' : row' ∈ w₁.db.subs.rows) :
        GrantsWellFormed rt row' := by
      have hterms := h.2 row'.id
      rw [KeepsTerms, find_of_mem hrow', map_some] at hterms
      obtain ⟨row, hrow, heq⟩ := map_eq_some_iff.1 hterms.symm
      exact (hwf row (find_mem hrow)).of_terms heq.symm
    obtain ⟨hrecord, hkeeps⟩ := performOp_frame hwf₁ hop hdb
    exact ⟨hrecord.trans h.1, fun i ↦ (hkeeps i).trans (h.2 i)⟩

theorem terms_kept_reserved : ∃ w', exec (Subscription.step runtime) ⟨0, Example.db⟩
    [⟨9, plans, .preConsume (request 40)⟩] = some w' ∧ KeepsTerms 1 Example.db w'.db :=
  ⟨_, rfl, (@terms_kept runtime "s" ⟨0, Example.db⟩ _ [⟨9, plans, .preConsume (request 40)⟩]
    (by decide +kernel) (by decide) rfl).2 1⟩

end Moligate.Subscription.Requests
