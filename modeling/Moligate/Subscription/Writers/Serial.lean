import Moligate.Subscription.Writers.Effects

namespace Moligate.Subscription.Writers

open Foundation Common Option Table List Bool

variable {rt : Runtime} {τ : Type} {w w' : World τ} {t t' : τ} {x : Writer}
  {rows : List UserSubscription} {stage : Stage} {out : World τ × Stage} {db₀ db' : Db}

theorem run_of_not_begun {db : Db} (h : begin rt x = none) : run rt db x = db := by
  cases x with
  | preConsume plans now req =>
    simp only [run, performOp, preConsumeUserSubscription]
    cases hc : checkRequest rt req (req.resource.map (normalizeResource rt)) with
    | ok _ => simp only [begin, hc] at h; cases h
    | fail | diverges => rfl
  | postConsume plans now id delta =>
    have hor : id ≤ 0 ∨ delta = 0 := not_not.1 fun hnot ↦ by cases ite_eq_left_iff.1 h hnot
    change committed db (postConsumeUserSubscriptionDelta rt plans now db id delta) = db
    rw [postConsumeUserSubscriptionDelta]
    split
    · rfl
    next hid => rw [if_pos (hor.resolve_left hid)]; rfl
  | refund plans now requestId =>
    have hempty : rt.trimSpace requestId = "" :=
      not_not.1 fun hnot ↦ by cases ite_eq_left_iff.1 h hnot
    change committed db (refundSubscriptionPreConsume rt plans now db requestId) = db
    have hcheck : Call.check SubscriptionError.requestIdEmpty
        (decide (rt.trimSpace requestId ≠ "")) = .fail .requestIdEmpty := by
      simp [Call.check, hempty]
    rw [refundSubscriptionPreConsume, hcheck]
    rfl
  | adminReset plans now userId planId advance =>
    have hnot : ¬(0 < userId ∧ 0 < planId) := fun hids ↦ by cases ite_eq_right_iff.1 h hids
    have hcheck : Call.check AdminResetError.invalidUserIdOrPlanId
        (decide (0 < userId) && decide (0 < planId)) = .fail .invalidUserIdOrPlanId := by
      rw [← decide_and, decide_eq_false hnot]
      rfl
    rw [run, adminResetUserSubscriptionsByPlan, hcheck]
    rfl
  | adminInvalidate _ id | updateGroups id =>
    by_cases hid : id ≤ 0
    · rw [run, if_pos hid]
    · rw [begin, if_neg hid] at h
      cases h
  | expireUser | extend => cases h

structure Invariant (rt : Runtime) (db₀ : Db) (w : World τ) : Prop where
  leads : Leads db₀ w.log w.db
  serial : ∀ e ∈ w.log, e.after = run rt e.before e.op
  fades : ∀ e ∈ w.log, ∀ i row', e.after.subs.find i = some row' →
    ∃ row, e.before.subs.find i = some row ∧ Fades row row'

structure Spares (t : τ) (w w' : World τ) : Prop where
  keys : w'.db.subs.rows.map UserSubscription.id = w.db.subs.rows.map UserSubscription.id
  fades : ∀ i row', w'.db.subs.find i = some row' →
    ∃ row, w.db.subs.find i = some row ∧ Fades row row'
  rowLocks : ∀ i, w.rowLocks i = some t → w'.rowLocks i = some t
  rows : ∀ i, w.rowLocks i = some t → w'.db.subs.find i = w.db.subs.find i
  recordLocks : ∀ k, w.recordLocks k = some t → w'.recordLocks k = some t
  records : ∀ k, w.recordLocks k = some t → w'.db.records.find k = w.db.records.find k

def Keeps (t : τ) (w w' : World τ) : Prop := ∀ t' ≠ t, Spares t' w w'

def Locked (w : World τ) (t : τ) (rows : List UserSubscription) : Prop :=
  ∀ row ∈ rows, w.rowLocks row.id = some t

structure HoldsRecord (w : World τ) (t : τ) (record : PreConsumeRecord) : Prop where
  locked : w.recordLocks record.requestId = some t
  found : w.db.records.find record.requestId = some record
  status : record.status ≠ .refunded

def Stage.Holds (rt : Runtime) (t : τ) (w : World τ) : Stage → Prop
  | .idle => True
  | .findRecord plans now req => begin rt (.preConsume plans now req) ≠ none
  | .lock x => Locking x ∧ begin rt x ≠ none
  | .work x rows => (Locking x ∧ begin rt x ≠ none) ∧ selects w.db x = rows ∧ Locked w t rows
  | .inserted plans now req rows => begin rt (.preConsume plans now req) ≠ none ∧
      selects w.db (.preConsume plans now req) = rows ∧ Locked w t rows ∧
      w.recordLocks req.requestId = some t ∧ w.db.records.find req.requestId = none
  | .lockRecord plans now requestId => begin rt (.refund plans now requestId) ≠ none
  | .lockRow plans now record => begin rt (.refund plans now record.requestId) ≠ none ∧
      HoldsRecord w t record
  | .giveBack plans now record rows => begin rt (.refund plans now record.requestId) ≠ none ∧
      HoldsRecord w t record ∧ refundSelects w.db record = rows ∧ Locked w t rows
  | .load x => Storing x ∧ begin rt x ≠ none
  | .store x seen => (Storing x ∧ begin rt x ≠ none) ∧ (stores rt seen x).isSome = true ∧
      ∃ row, w.db.subs.find (target x) = some row ∧ row.planId = seen.planId

/-- A row that is written back after a read without a lock is the row that was read, a list of
models is extended as it was read, and no record of the request has been committed since a
pre-consumption has looked for it. -/
def Current (a : Action) (w : World τ) (stage : Stage) : Prop :=
  match a, stage with
  | .next, .work (.preConsume _ _ req) _ => w.db.records.find req.requestId = none
  | .next, .store (.updateGroups id _) seen => w.db.subs.find id = some seen
  | .next, .store (.extend _ _ _ id) seen => ∀ row ∈ w.db.subs.find id,
      row.status = seen.status ∧ row.endTime = seen.endTime ∧
        row.includedModels = seen.includedModels
  | _, _ => True

section

theorem Spares.find_none (hs : Spares t w w') {i : ℤ} (h : w.db.subs.find i = none) :
    w'.db.subs.find i = none := by
  rw [find_eq_none_iff] at h ⊢
  rwa [hs.keys]

theorem Spares.filter {p : UserSubscription → Bool} (hs : Spares t w w')
    (hp : ∀ row row', Fades row row' → p row' = true → p row = true)
    (hlocked : Locked w t (w.db.subs.rows.filter p)) :
    w'.db.subs.rows.filter p = w.db.subs.rows.filter p := by
  rw [filter_rows, filter_rows, hs.keys]
  refine congrArg (filterMap · _) (funext fun i ↦ ?_)
  cases hrow : w.db.subs.find i with
  | none => rw [hs.find_none hrow]
  | some row =>
    cases hsel : p row with
    | true =>
      have hmem : row ∈ w.db.subs.rows.filter p :=
        mem_filter.2 ⟨find_mem hrow, hsel⟩
      have hlock : w.rowLocks i = some t := key_of_find hrow ▸ hlocked row hmem
      rw [hs.rows i hlock, hrow]
    | false =>
      rw [filter_some_neg hsel]
      cases hrow' : w'.db.subs.find i with
      | none => rfl
      | some row' =>
        -- a row that was not selected has not become active since
        obtain ⟨row₀, hrow₀, hfades⟩ := hs.fades i row' hrow'
        obtain rfl := some.inj (hrow.symm.trans hrow₀)
        exact filter_some_neg (eq_false_iff.2 fun h ↦
          eq_false_iff.1 hsel (hp row row' hfades h))

theorem Spares.find (hs : Spares t w w') {i : ℤ} (hlocked : Locked w t (w.db.subs.find i).toList) :
    w'.db.subs.find i = w.db.subs.find i := by
  cases hrow : w.db.subs.find i with
  | none => exact hs.find_none hrow
  | some row =>
    have hlock := hlocked row (by rw [hrow]; exact mem_singleton_self row)
    rw [key_of_find hrow] at hlock
    rw [hs.rows i hlock, hrow]

variable {row row' : UserSubscription} {record : PreConsumeRecord}

theorem isCandidate_of_fades {now userId : ℤ} (hf : Fades row row')
    (h : isCandidate now userId row' = true) : isCandidate now userId row = true := by
  simp only [isCandidate, and_eq_true, decide_eq_true_eq] at h ⊢
  obtain ⟨hactive, hend⟩ := hf.active h.1.2
  exact ⟨⟨hf.userId ▸ h.1.1, hactive⟩, hend ▸ h.2⟩

theorem filter_candidates (now : ℤ) (db : Db) (userId : ℤ) (q : UserSubscription → Bool) :
    (candidates now db userId).filter q =
      (db.subs.rows.filter fun s ↦ q s && isCandidate now userId s).insertionSort fun a b ↦
        a.endTime < b.endTime ∨ a.endTime = b.endTime ∧ a.id ≤ b.id := by
  have : IsTrans UserSubscription fun a b ↦
      a.endTime < b.endTime ∨ a.endTime = b.endTime ∧ a.id ≤ b.id := ⟨fun a b c ↦ by omega⟩
  have : Std.Total fun a b : UserSubscription ↦
      a.endTime < b.endTime ∨ a.endTime = b.endTime ∧ a.id ≤ b.id := ⟨fun a b ↦ by omega⟩
  rw [candidates, filter_insertionSort, List.filter_filter]

theorem Spares.selects (hs : Spares t w w') (hlocked : Locked w t (selects w.db x)) :
    selects w'.db x = selects w.db x := by
  cases x with
  | preConsume plans now req =>
    refine congrArg _ (hs.filter (fun _ _ ↦ isCandidate_of_fades) fun row hrow ↦ ?_)
    exact hlocked row ((mem_insertionSort _).2 hrow)
  | postConsume | adminInvalidate => exact congrArg toList (hs.find hlocked)
  | adminReset plans now userId planId advance =>
    simp only [Writers.selects] at hlocked ⊢
    cases hplan : getSubscriptionPlanById plans planId with
    | diverges | fail => rfl
    | ok plan =>
      simp only [hplan] at hlocked
      simp only [filter_candidates] at hlocked ⊢
      refine congrArg _ (hs.filter (fun row row' hf h ↦ ?_) fun row hrow ↦ ?_)
      · rw [and_eq_true] at h ⊢
        exact ⟨hf.planId ▸ h.1, isCandidate_of_fades hf h.2⟩
      · exact hlocked row ((mem_insertionSort _).2 hrow)
  | expireUser now userId =>
    refine hs.filter (fun row row' hf h ↦ ?_) hlocked
    simp only [isExpiring, and_eq_true, decide_eq_true_eq] at h ⊢
    obtain ⟨hactive, hend⟩ := hf.active h.1.1.2
    exact ⟨⟨⟨hf.userId ▸ h.1.1.1, hactive⟩, hend ▸ h.1.2⟩, hend ▸ h.2⟩
  | refund | extend | updateGroups => rfl

theorem Spares.refundSelects (hs : Spares t w w')
    (hlocked : Locked w t (refundSelects w.db record)) :
    refundSelects w'.db record = refundSelects w.db record := by
  simp only [Writers.refundSelects] at hlocked ⊢
  split
  · rfl
  next hnot =>
    rw [if_neg hnot] at hlocked
    rw [hs.find hlocked]

theorem Locked.spared (h : Locked w t rows) (hs : Spares t w w') : Locked w' t rows :=
  fun row hrow ↦ hs.rowLocks row.id (h row hrow)

theorem HoldsRecord.spared (h : HoldsRecord w t record) (hs : Spares t w w') :
    HoldsRecord w' t record :=
  ⟨hs.recordLocks _ h.locked, (hs.records _ h.locked).trans h.found, h.status⟩

theorem Stage.Holds.spared (h : stage.Holds rt t w) (hs : Spares t w w') : stage.Holds rt t w' := by
  cases stage with
  | idle => trivial
  | findRecord | lock | lockRecord | load => exact h
  | work x rows =>
    obtain ⟨hx, rfl, hlocked⟩ := h
    exact ⟨hx, hs.selects hlocked, hlocked.spared hs⟩
  | inserted plans now req rows =>
    obtain ⟨hb, rfl, hlocked, hlock, hnone⟩ := h
    exact ⟨hb, hs.selects hlocked, hlocked.spared hs, hs.recordLocks _ hlock,
      (hs.records _ hlock).trans hnone⟩
  | lockRow plans now record => exact ⟨h.1, h.2.spared hs⟩
  | giveBack plans now record rows =>
    obtain ⟨hb, hrecord, rfl, hlocked⟩ := h
    exact ⟨hb, hrecord.spared hs, hs.refundSelects hlocked, hlocked.spared hs⟩
  | store x seen =>
    obtain ⟨hx, hstores, row, hrow, hplan⟩ := h
    refine ⟨hx, hstores, ?_⟩
    cases hrow' : w'.db.subs.find (target x) with
    | none =>
      rw [find_eq_none_iff, hs.keys, ← find_eq_none_iff, hrow] at hrow'
      cases hrow'
    | some row' =>
      obtain ⟨row₀, hrow₀, hfades⟩ := hs.fades _ row' hrow'
      obtain rfl := some.inj (hrow.symm.trans hrow₀)
      exact ⟨row', rfl, hfades.planId.trans hplan⟩

theorem Spares.of_locks (hdb : w'.db = w.db)
    (hrows : ∀ i, w.rowLocks i = some t → w'.rowLocks i = some t)
    (hrecords : ∀ k, w.recordLocks k = some t → w'.recordLocks k = some t) : Spares t w w' := by
  refine ⟨by rw [hdb], fun i row hrow ↦ ⟨row, hdb ▸ hrow, .refl row⟩, hrows, fun _ _ ↦ by rw [hdb],
    hrecords, fun _ _ ↦ by rw [hdb]⟩

theorem locked_lockRows : Locked (w.lockRows t rows) t rows :=
  fun _ hrow ↦ if_pos (mem_map_of_mem hrow)

end

section

variable [DecidableEq τ]

abbrev SafeStep (rt : Runtime) (db₀ : Db) (t : τ) (w : World τ) (out : World τ × Stage) : Prop :=
  Config.Safe (Invariant rt db₀) (fun t w stage ↦ Stage.Holds rt t w stage) Keeps t w out

variable {i : ℤ} {seen : UserSubscription} {k : String}

theorem ne_of_free (h : w.free t i = true) (ht : t' ≠ t) : w.rowLocks i ≠ some t' := by
  intro hlock
  rw [World.free, hlock] at h
  exact ht (of_decide_eq_true h)

theorem ne_of_freeRecord (h : w.freeRecord t k = true) (ht : t' ≠ t) :
    w.recordLocks k ≠ some t' := by
  intro hlock
  rw [World.freeRecord, hlock] at h
  exact ht (of_decide_eq_true h)

theorem freeRecord_of_locked (h : w.recordLocks k = some t) : w.freeRecord t k = true := by
  rw [World.freeRecord, h]
  exact decide_eq_true rfl

theorem free_of_mem_ids (h : Locked w t rows) (hi : i ∈ rows.map UserSubscription.id) :
    w.free t i = true := by
  obtain ⟨row, hrow, rfl⟩ := mem_map.1 hi
  rw [World.free, (h row hrow)]
  exact decide_eq_true rfl

omit [DecidableEq τ] in
theorem safe_stay (hI : Invariant rt db₀ w) (h : stage.Holds rt t w) :
    SafeStep rt db₀ t w (w, stage) :=
  ⟨hI, h, fun _ _ ↦ .of_locks rfl (fun _ h ↦ h) fun _ h ↦ h⟩

theorem safe_lockAll (hI : Invariant rt db₀ w) (hout : lockAll w t rows stage = some out)
    (h : stage.Holds rt t (w.lockRows t rows)) : SafeStep rt db₀ t w out := by
  obtain ⟨hfree, hout⟩ := ite_none_right_eq_some.1 hout
  cases hout
  refine ⟨{ hI with }, h, fun t' ht ↦ .of_locks rfl (fun i hi ↦ ?_) fun _ h ↦ h⟩
  refine (if_neg fun hmem ↦ ?_).trans hi
  obtain ⟨row, hrow, rfl⟩ := mem_map.1 hmem
  exact ne_of_free (all_eq_true.1 hfree row hrow) ht hi

theorem safe_lockRecord (hI : Invariant rt db₀ w) (hfree : w.freeRecord t k = true)
    (h : stage.Holds rt t (w.lockRecord t k)) : SafeStep rt db₀ t w (w.lockRecord t k, stage) := by
  refine ⟨{ hI with }, h, fun t' ht ↦ .of_locks rfl (fun _ h ↦ h) fun k' hk' ↦ ?_⟩
  refine (Function.update_of_ne (fun he ↦ ?_) _ _).trans hk'
  exact ne_of_freeRecord hfree ht (he ▸ hk')

theorem release_rowLocks (ht : t' ≠ t) (h : w.rowLocks i = some t') :
    (w.release t).rowLocks i = some t' :=
  (if_neg fun he ↦ ht (some.inj (h.symm.trans he))).trans h

theorem release_recordLocks (ht : t' ≠ t) (h : w.recordLocks k = some t') :
    (w.release t).recordLocks k = some t' :=
  (if_neg fun he ↦ ht (some.inj (h.symm.trans he))).trans h

section

variable (hI : Invariant rt db₀ w) {k : Option String} {plans : Plans} {ids : List ℤ} {now : ℤ}
include hI

/-- A call ends with the tables that it leaves when it runs alone, and has changed only what nobody
else has locked. -/
theorem safe_conclude (h : Alters ids k w.db db')
    (hids : ∀ i ∈ ids, w.free t i = true) (hk : ∀ k', k = some k' → w.freeRecord t k' = true)
    (hrun : run rt w.db x = db') : SafeStep rt db₀ t w (w.conclude t x db') := by
  refine ⟨⟨hI.leads.cons, fun e he ↦ ?_, fun e he ↦ ?_⟩, trivial, fun t' ht ↦
    ⟨h.keys, h.fades, fun _ ↦ release_rowLocks ht, fun i hi ↦ ?_, fun _ ↦ release_recordLocks ht,
      fun k' hk' ↦ ?_⟩⟩
  · rcases mem_cons.1 he with rfl | he
    · exact hrun.symm
    · exact hI.serial e he
  · rcases mem_cons.1 he with rfl | he
    · exact h.fades
    · exact hI.fades e he
  · exact h.frame i fun hmem ↦ ne_of_free (hids i hmem) ht hi
  · exact h.records k' fun he ↦ ne_of_freeRecord (hk k' he) ht hk'

theorem safe_unchanged (hrun : run rt w.db x = w.db) : SafeStep rt db₀ t w (w.conclude t x w.db) :=
  safe_conclude hI (.refl [] none w.db) (fun _ h ↦ (nomatch h)) (fun _ h ↦ (nomatch h)) hrun

theorem safe_finish {ε : Type} {result : Call ε Db} (hrun : run rt w.db x = committed w.db result)
    (halters : ∀ db', result = .ok db' → Alters ids k w.db db')
    (hids : ∀ i ∈ ids, w.free t i = true) (hk : ∀ k', k = some k' → w.freeRecord t k' = true)
    (hout : w.finish t x result = some out) : SafeStep rt db₀ t w out := by
  cases result with
  | ok db' =>
    cases hout
    exact safe_conclude hI (halters db' rfl) hids hk hrun
  | fail e =>
    cases hout
    exact safe_unchanged hI hrun
  | diverges => cases hout

theorem safe_work (hx : Locking x ∧ begin rt x ≠ none) (hselects : selects w.db x = rows)
    (hlocked : Locked w t rows)
    (hrecord : ∀ plans now req, x = .preConsume plans now req →
      w.db.records.find req.requestId = none)
    (hk : ∀ k, request x = some k → w.freeRecord t k = true)
    (hout : w.finish t x (work rt w.db rows x) = some out) : SafeStep rt db₀ t w out := by
  subst hselects
  exact safe_finish hI (run_eq_work hx.1 hx.2 hrecord) (fun _ ↦ work_alters)
    (fun _ ↦ free_of_mem_ids hlocked) hk hout

theorem safe_insertRecord {req : PreConsumeRequest}
    (hb : begin rt (.preConsume plans now req) ≠ none)
    (hselects : selects w.db (.preConsume plans now req) = rows) (hlocked : Locked w t rows)
    (hnone : w.db.records.find req.requestId = none)
    (hout : insertRecord rt w t plans now req rows = some out) : SafeStep rt db₀ t w out := by
  simp only [insertRecord, hnone, isSome_none] at hout
  obtain ⟨hfree, hout⟩ := ite_none_right_eq_some.1 hout
  split at hout
  · cases hout
    exact safe_lockRecord hI hfree ⟨hb, hselects, hlocked, Function.update_self _ _ _, hnone⟩
  next hwork =>
    cases hout
    refine safe_unchanged hI ?_
    rw [run_preConsume hb hnone, hselects, hwork]
    rfl
  · cases hout

theorem safe_lockRefund {requestId : String} (hb : begin rt (.refund plans now requestId) ≠ none)
    (hout : lockRefund w t plans now requestId = some out) : SafeStep rt db₀ t w out := by
  rw [lockRefund] at hout
  split at hout
  next hrecord =>
    cases hout
    exact safe_unchanged hI (run_refund_none fun record h ↦ by rw [hrecord] at h; cases h)
  next record hrecord =>
    obtain ⟨hfree, hout⟩ := ite_none_right_eq_some.1 hout
    obtain rfl := key_of_find hrecord
    split at hout
    next hstatus =>
      cases hout
      refine safe_unchanged hI (run_refund_none fun record' h ↦ ?_)
      obtain rfl := some.inj (hrecord.symm.trans h)
      exact hstatus
    next hstatus =>
      cases hout
      exact safe_lockRecord hI hfree ⟨hb, Function.update_self _ _ _, hrecord, hstatus⟩

theorem safe_load (hx : Storing x ∧ begin rt x ≠ none) (hout : next rt t w (.load x) = some out) :
    SafeStep rt db₀ t w out := by
  rw [next] at hout
  split at hout
  next hrow =>
    cases hout
    exact safe_unchanged hI (run_store_none hx.1 fun row h ↦ by rw [hrow] at h; cases h)
  next row hrow =>
    split at hout
    next hstores =>
      cases hout
      refine safe_unchanged hI (run_store_none hx.1 fun row' h ↦ ?_)
      obtain rfl := some.inj (hrow.symm.trans h)
      exact hstores
    next hstores =>
      cases hout
      exact safe_stay hI ⟨hx, by rw [hstores]; rfl, row, hrow, rfl⟩

end

omit [DecidableEq τ] in
/-- Under the guard a call stores what it would store if it read the row again. -/
theorem stores_current {row : UserSubscription} (hx : Storing x)
    (hcurrent : Current .next w (.store x seen)) (hrow : w.db.subs.find (target x) = some row)
    (hplan : row.planId = seen.planId) : stores rt seen x = stores rt row x := by
  cases x with
  | extend now planId added id =>
    obtain ⟨hstatus, hend, hmodels⟩ := hcurrent row hrow
    simp only [stores, extension, hstatus, hend, hmodels, hplan]
  | updateGroups id groups =>
    obtain rfl := some.inj (hcurrent.symm.trans hrow)
    rfl
  | _ => cases hx

theorem safe_store (hI : Invariant rt db₀ w) (hL : (Stage.store x seen).Holds rt t w)
    (hcurrent : Current .next w (.store x seen)) (hout : next rt t w (.store x seen) = some out) :
    SafeStep rt db₀ t w out := by
  obtain ⟨hx, hstores, row, hrow, hplan⟩ := hL
  obtain ⟨f, hf⟩ := isSome_iff_exists.1 hstores
  simp only [next, hrow, hf] at hout
  obtain ⟨hfree, hout⟩ := ite_none_right_eq_some.1 hout
  cases hout
  rw [stores_current hx.1 hcurrent hrow hplan] at hf
  obtain ⟨hid, hfades⟩ := stores_id_fades hf
  have hkey := key_of_find hrow
  refine safe_conclude hI (save_alters (hkey ▸ hrow) hid hfades rfl rfl) (fun i hi ↦ ?_)
    (fun _ h ↦ (by cases h)) (run_store hx.1 hx.2 hrow hf)
  rw [mem_singleton.1 hi, hkey]
  exact hfree

theorem safe_next (hI : Invariant rt db₀ w) (hL : stage.Holds rt t w)
    (hcurrent : Current .next w stage) (hout : next rt t w stage = some out) :
    SafeStep rt db₀ t w out := by
  cases stage with
  | idle => cases hout
  | findRecord plans now req =>
    rw [next] at hout
    split at hout
    next hrecord =>
      cases hout
      exact safe_unchanged hI (run_preConsume_found hrecord)
    · cases hout
      exact safe_stay hI ⟨trivial, hL⟩
  | lock x => exact safe_lockAll hI hout ⟨hL, rfl, locked_lockRows⟩
  | work x rows =>
    obtain ⟨hx, hselects, hlocked⟩ := hL
    cases x with
    | preConsume plans now req =>
      exact safe_insertRecord hI hx.2 hselects hlocked hcurrent hout
    | refund | extend | updateGroups => cases hx.1
    | _ =>
      exact safe_work hI hx hselects hlocked (fun _ _ _ h ↦ (nomatch h))
        (fun _ h ↦ (nomatch h)) hout
  | inserted plans now req rows =>
    obtain ⟨hb, hselects, hlocked, hlock, hnone⟩ := hL
    refine safe_work (x := .preConsume plans now req) hI ⟨trivial, hb⟩ hselects hlocked
      (fun plans' now' req' h ↦ ?_) (fun k hk ↦ ?_) hout
    · cases h
      exact hnone
    · exact some.inj hk ▸ freeRecord_of_locked hlock
  | lockRecord plans now requestId => exact safe_lockRefund hI hL hout
  | lockRow plans now record =>
    exact safe_lockAll hI hout ⟨hL.1, ⟨hL.2.locked, hL.2.found, hL.2.status⟩, rfl, locked_lockRows⟩
  | giveBack plans now record rows =>
    obtain ⟨hb, hrecord, rfl, hlocked⟩ := hL
    refine safe_finish hI (run_refund hb hrecord.found hrecord.status) (fun _ ↦ giveBack_alters)
      (fun _ ↦ free_of_mem_ids hlocked) (fun k hk ↦ ?_) hout
    exact some.inj hk ▸ freeRecord_of_locked hrecord.locked
  | load x => exact safe_load hI hL hout
  | store x seen => exact safe_store hI hL hcurrent hout

omit [DecidableEq τ] in
theorem begin_holds (h : begin rt x = some stage) : stage.Holds rt t w := by
  have hb : begin rt x ≠ none := h ▸ some_ne_none stage
  cases x with
  | preConsume plans now req =>
    simp only [begin] at h
    split at h
    · exact some.inj h ▸ hb
    · cases h
  | postConsume | adminInvalidate | updateGroups =>
    exact some.inj (ite_none_left_eq_some.1 h).2 ▸ ⟨trivial, hb⟩
  | refund plans now requestId => exact some.inj (ite_none_left_eq_some.1 h).2 ▸ hb
  | adminReset plans now userId planId advance =>
    exact some.inj (ite_none_right_eq_some.1 h).2 ▸ ⟨trivial, hb⟩
  | expireUser | extend => exact some.inj h ▸ ⟨trivial, hb⟩

theorem safe_perform {a : Action} (hI : Invariant rt db₀ w) (hL : stage.Holds rt t w)
    (hcurrent : Current a w stage) (hout : perform rt t a w stage = some out) :
    SafeStep rt db₀ t w out := by
  cases a with
  | call x =>
    obtain ⟨-, hout⟩ := ite_none_right_eq_some.1 hout
    split at hout
    next hbegin =>
      cases hout
      exact safe_unchanged hI (run_of_not_begun hbegin)
    next hbegin =>
      cases hout
      exact safe_stay hI (begin_holds hbegin)
  | next => exact safe_next hI hL hcurrent hout
  | fail =>
    obtain ⟨-, hout⟩ := ite_none_left_eq_some.1 hout
    cases hout
    exact ⟨{ hI with }, trivial, fun _ ht ↦ .of_locks rfl
      (fun _ ↦ release_rowLocks ht) fun _ ↦ release_recordLocks ht⟩

end

variable [DecidableEq τ]

omit [DecidableEq τ] in
theorem Invariant.stays_inactive {later earlier : List (Change Writer Db)} {e : Change Writer Db}
    {i : ℤ} (hI : Invariant rt db₀ w) (hlog : w.log = later ++ e :: earlier)
    (h : ∀ row, e.after.subs.find i = some row → row.status ≠ .active) :
    ∀ row, w.db.subs.find i = some row → row.status ≠ .active := by
  have hleads : Leads db₀ (later ++ e :: earlier) w.db := hlog ▸ hI.leads
  refine hleads.keeps (Q := fun db ↦ ∀ row, db.subs.find i = some row → row.status ≠ .active) h ?_
  intro change hchange hbefore row' hrow' hactive
  obtain ⟨row, hrow, hfades⟩ :=
    hI.fades change (hlog ▸ mem_append_left _ hchange) i row' hrow'
  exact hbefore row hrow (hfades.active hactive).1

/-- In every run in which the rows and models that are written after a read without a lock are
still those that were read, and in which no pre-consumption finds its record only when it inserts
it, the subscriptions are those that the same calls leave one after the other. -/
theorem subscription_writers_serial (rt : Runtime) (db₀ : Db) (actions : List (τ × Action))
    (c : Config (World τ) τ Stage)
    (hg : Guarded (step rt) (fun c a ↦ Current a.2 c.shared (c.thread a.1)) (start db₀) actions)
    (hrun : exec (step rt) (start db₀) actions = some c) :
    c.shared.db = (c.shared.log.map Change.op).foldr (fun x db ↦ run rt db x) db₀ ∧
      ∀ later e earlier i, c.shared.log = later ++ e :: earlier →
        (∀ row, e.after.subs.find i = some row → row.status ≠ .active) →
          ∀ row, c.shared.db.subs.find i = some row → row.status ≠ .active := by
  have hstart : Config.Holds (Invariant rt db₀) (fun t w stage ↦ Stage.Holds rt t w stage)
      (start db₀ : Config (World τ) τ Stage) :=
    ⟨⟨rfl, fun _ he ↦ (nomatch he), fun _ he ↦ (nomatch he)⟩, fun _ ↦ trivial⟩
  have hend := Config.exec_safe (R := Keeps) (fun _ _ _ _ _ ↦ safe_perform)
    (fun _ q _ _ _ hpq hL hR ↦ hL.spared (hR q hpq.symm)) hstart hg hrun
  exact ⟨hend.1.leads.replay hend.1.serial,
    fun later e earlier i hlog h ↦ hend.1.stays_inactive hlog h⟩

instance (a : Action) (w : World τ) (stage : Stage) : Decidable (Current a w stage) := by
  unfold Current
  split <;> infer_instance

def utcRuntime : Runtime := ⟨0, .finite, id, id⟩

def plainSubscription : UserSubscription where
  id := 1
  userId := 1
  planId := 0
  amountTotal := 0
  amountUsed := 0
  daily := {}
  weekly := {}
  monthly := {}
  periodResetAnchorVersion := 1
  startTime := 0
  endTime := 100
  status := .active
  lastResetTime := 0
  nextResetTime := 0
  applicableGroups := []
  modelFamily := ""
  includedModels := []
  billingRatio := .finite 1
  resourceGrants := []

def plainDb : Db where
  subs := ⟨[plainSubscription], nodup_singleton _⟩
  records := ∅
  history := []
  taken := 0

def charge : Writer := .postConsume (fun _ ↦ none) 10 1 5

def cancellation : Writer := .adminInvalidate 20 1

def regrouping : Writer := .updateGroups 1 ["vip"]

def usage (db : Db) : List (Status × ℤ × List String) :=
  db.subs.rows.map fun row ↦ (row.status, row.amountUsed, row.applicableGroups)

theorem subscription_writers_serial_charged :
    ∃ c, exec (step utcRuntime) (start plainDb) [(true, .call charge), (true, .next),
        (false, .call regrouping), (true, .next), (false, .next), (false, .next)] = some c ∧
      usage c.shared.db = [(.active, 5, ["vip"])] ∧
      c.shared.db = (c.shared.log.map Change.op).foldr (fun x db ↦ run utcRuntime db x) plainDb := by
  have husage : (exec (step utcRuntime) (start plainDb) [(true, .call charge), (true, .next),
      (false, .call regrouping), (true, .next), (false, .next), (false, .next)]).map
        (fun c ↦ usage c.shared.db) = some [(.active, 5, ["vip"])] := by decide +kernel
  obtain ⟨c, hrun, hc⟩ := map_eq_some_iff.1 husage
  exact ⟨c, hrun, hc, (subscription_writers_serial utcRuntime plainDb _ c (by decide +kernel)
    hrun).1⟩

/-- The change of the groups saves the row as it was before the charge and the cancellation: the
subscription is active again and the charge is lost, which no order of the calls explains. -/
theorem group_update_revives_subscription :
    (exec (step utcRuntime) (start plainDb) [(true, .call regrouping), (true, .next),
        (false, .call charge), (false, .next), (false, .next),
        (false, .call cancellation), (false, .next), (false, .next), (true, .next)]).map
        (fun c ↦ usage c.shared.db) = some [(.active, 0, ["vip"])] ∧
      ∀ calls ∈ [charge, cancellation, regrouping].permutations',
        usage (calls.foldl (run utcRuntime) plainDb) = [(.cancelled, 5, ["vip"])] := by
  constructor <;> decide +kernel

end Moligate.Subscription.Writers
