import Moligate.Subscription.Requests.Others
import Moligate.Subscription.Writers.Model

namespace Moligate.Subscription.Writers

open Foundation Common Option List Table Call UserSubscription

variable {rt : Runtime} {plans : Plans} {now : ℤ} {db db₁ db' : Db}
  {row row' : UserSubscription} {rows : List UserSubscription} {req : PreConsumeRequest}
  {resource : Option Entitlement} {ids : List ℤ}

structure Fades (row row' : UserSubscription) : Prop where
  userId : row'.userId = row.userId
  planId : row'.planId = row.planId
  active : row'.status = .active → row.status = .active ∧ row'.endTime = row.endTime

theorem Fades.refl (row : UserSubscription) : Fades row row := ⟨rfl, rfl, fun h ↦ ⟨h, rfl⟩⟩

theorem fades_of_terms (h : row'.terms = row.terms) : Fades row row' := by
  have hfield {α : Type} (f : UserSubscription → α) : f row'.terms = f row.terms := congrArg f h
  have hstatus : row'.status = row.status := hfield status
  exact ⟨hfield userId, hfield planId, fun hactive ↦ ⟨hstatus ▸ hactive, hfield endTime⟩⟩

/-- What a transaction may change: the rows with the ids `ids` and the record of one request. -/
structure Alters (ids : List ℤ) (request : Option String) (db db' : Db) : Prop where
  keys : db'.subs.rows.map UserSubscription.id = db.subs.rows.map UserSubscription.id
  frame : ∀ i ∉ ids, db'.subs.find i = db.subs.find i
  fades : ∀ i row', db'.subs.find i = some row' →
    ∃ row, db.subs.find i = some row ∧ Fades row row'
  records : ∀ k, request ≠ some k → db'.records.find k = db.records.find k

theorem Alters.refl (ids : List ℤ) (request : Option String) (db : Db) : Alters ids request db db :=
  ⟨rfl, fun _ _ ↦ rfl, fun _ row h ↦ ⟨row, h, .refl row⟩, fun _ _ ↦ rfl⟩

theorem alters_of_terms {request : Option String}
    (hkeys : db'.subs.rows.map UserSubscription.id = db.subs.rows.map UserSubscription.id)
    (hframe : ∀ i ∉ ids, db'.subs.find i = db.subs.find i)
    (hterms : ∀ i, Requests.KeepsTerms i db db')
    (hrecords : ∀ k, request ≠ some k → db'.records.find k = db.records.find k) :
    Alters ids request db db' := by
  refine ⟨hkeys, hframe, fun i row' hrow' ↦ ?_, hrecords⟩
  have hi := hterms i
  rw [Requests.KeepsTerms, hrow', map_some] at hi
  obtain ⟨row, hrow, hterms⟩ := map_eq_some_iff.1 hi.symm
  exact ⟨row, hrow, fades_of_terms hterms.symm⟩

theorem saveAll_eq_self (h : ∀ row ∈ rows, db.subs.find row.id = some row) :
    saveAll db rows = db := by
  induction rows with
  | nil => rfl
  | cons row rows ih =>
    change saveAll { db with subs := db.subs.save row } rows = db
    rw [save_eq_self (h row mem_cons_self)]
    exact ih fun r hr ↦ h r (mem_cons_of_mem row hr)

theorem Fades.trans {row'' : UserSubscription} (h : Fades row row') (h' : Fades row' row'') :
    Fades row row'' := by
  refine ⟨h'.userId.trans h.userId, h'.planId.trans h.planId, fun hactive ↦ ?_⟩
  obtain ⟨hactive', hend⟩ := h'.active hactive
  exact (h.active hactive').imp_right hend.trans

theorem Alters.trans {request : Option String} (h : Alters ids request db db₁)
    (h' : Alters ids request db₁ db') : Alters ids request db db' := by
  refine ⟨h'.keys.trans h.keys, fun i hi ↦ (h'.frame i hi).trans (h.frame i hi),
    fun i row'' hrow'' ↦ ?_, fun k hk ↦ (h'.records k hk).trans (h.records k hk)⟩
  obtain ⟨row', hrow', hfades'⟩ := h'.fades i row'' hrow''
  obtain ⟨row, hrow, hfades⟩ := h.fades i row' hrow'
  exact ⟨row, hrow, hfades.trans hfades'⟩

theorem Alters.mono {ids' : List ℤ} {request : Option String}
    (h : Alters ids request db db') (hids : ids ⊆ ids') : Alters ids' request db db' :=
  { h with frame := fun i hi ↦ h.frame i fun hmem ↦ hi (hids hmem) }

theorem save_alters (hfind : db.subs.find row.id = some row) (hid : row'.id = row.id)
    (hfades : Fades row row') (hsubs : db'.subs = db.subs.save row')
    (hrecords : db'.records = db.records) : Alters [row.id] none db db' := by
  have hother (i : ℤ) (hi : i ≠ row.id) : db'.subs.find i = db.subs.find i := by
    rw [hsubs]
    exact find_save_of_ne (hid ▸ hi)
  refine ⟨by rw [hsubs, keys_save], fun i hi ↦ hother i (ne_of_not_mem_cons hi),
    fun i r hr ↦ ?_, fun _ _ ↦ by rw [hrecords]⟩
  by_cases hi : i = row.id
  · rw [hi, hsubs, find_save_of_key hid hfind] at hr
    obtain rfl := some.inj hr
    exact ⟨row, hi ▸ hfind, hfades⟩
  · exact ⟨r, hother i hi ▸ hr, .refl r⟩

theorem saveAll_alters {f : UserSubscription → UserSubscription} (hid : ∀ row, (f row).id = row.id)
    (hfades : ∀ row, Fades row (f row)) (hnodup : (rows.map UserSubscription.id).Nodup)
    (hfind : ∀ row ∈ rows, db.subs.find row.id = some row) :
    Alters (rows.map UserSubscription.id) none db (saveAll db (rows.map f)) := by
  induction rows generalizing db with
  | nil => exact .refl _ _ _
  | cons row rows ih =>
    rw [map_cons, nodup_cons] at hnodup
    have hsave : Alters [row.id] none db { db with subs := db.subs.save (f row) } :=
      save_alters (hfind row mem_cons_self) (hid row) (hfades row) rfl rfl
    have hrows : ∀ r ∈ rows, (db.subs.save (f row)).find r.id = some r := fun r hr ↦ by
      rw [hsave.frame r.id fun h ↦ hnodup.1 (mem_singleton.1 h ▸ mem_map_of_mem hr)]
      exact hfind r (mem_cons_of_mem row hr)
    have hrest : Alters (rows.map UserSubscription.id) none
        { db with subs := db.subs.save (f row) }
        (saveAll { db with subs := db.subs.save (f row) } (rows.map f)) := ih hnodup.2 hrows
    refine (hsave.mono fun i hi ↦ ?_).trans (hrest.mono (subset_cons_self _ _))
    exact mem_singleton.1 hi ▸ mem_cons_self

section

variable {delta id : ℤ}

theorem postConsumeDeltaTx_alters
    (h : postConsumeDeltaTx rt plans now db id delta = .ok db') : Alters [id] none db db' := by
  simp only [postConsumeDeltaTx, bind_eq_ok, required_eq_ok] at h
  obtain ⟨row, hfind, r, hr, sub, hsub, hout⟩ := h
  cases hout
  obtain rfl := key_of_find hfind
  have hterms : sub.terms = row.terms :=
    (applySubscriptionQuotaDelta_spec hsub).1.trans (resetBeforeSettle_terms hr).1
  exact save_alters hfind (terms_id hterms) (fades_of_terms hterms) rfl rfl

theorem postConsumeResourceDeltaTx_alters {key : String} {type : ResourceType}
    (h : postConsumeResourceDeltaTx rt db id key type delta = .ok db') :
    Alters [id] none db db' := by
  simp only [postConsumeResourceDeltaTx, bind_eq_ok, required_eq_ok] at h
  obtain ⟨sub, hfind, index, -, grant, -, used, -, _, -, hout⟩ := h
  cases hout
  obtain rfl := key_of_find hfind
  have hterms := (setGrantUsed_spec sub index used).1
  exact save_alters hfind (terms_id hterms) (fades_of_terms hterms) rfl rfl

variable {record : PreConsumeRecord}

theorem refundRecord_alters (h : refundRecord rt plans now db record = .ok db') :
    db' = db ∨ (∃ row, db.subs.find record.userSubscriptionId = some row ∧
      refundSelects db record = [row]) ∧ Alters [record.userSubscriptionId] none db db' := by
  have hlocked {f : UserSubscription → Call SubscriptionError Db}
      (hnot : ¬(record.preConsumed ≤ 0 ∧ record.resourceAmount ≤ 0))
      (h : (required .recordNotFound (db.subs.find record.userSubscriptionId) >>= f) =
        .ok db') : ∃ row, db.subs.find record.userSubscriptionId = some row ∧
          refundSelects db record = [row] := by
    obtain ⟨row, hrow, -⟩ := bind_eq_ok.1 h
    rw [required_eq_ok] at hrow
    exact ⟨row, hrow, by rw [refundSelects, if_neg hnot, hrow, toList_some]⟩
  rw [refundRecord] at h
  split at h
  · split at h
    · exact .inl (ok.inj h).symm
    next hamount =>
      exact .inr ⟨hlocked (fun hnot ↦ hamount hnot.2) h, postConsumeResourceDeltaTx_alters h⟩
  next hpre =>
    refine .inr ?_
    split at h
    · exact ⟨hlocked (fun hnot ↦ hpre hnot.1) h, postConsumeResourceDeltaTx_alters h⟩
    · exact ⟨hlocked (fun hnot ↦ hpre hnot.1) h, postConsumeDeltaTx_alters h⟩

theorem find_of_mem_refundSelects (hrow : row ∈ refundSelects db record) :
    db.subs.find row.id = some row := by
  rw [refundSelects] at hrow
  split at hrow
  · cases hrow
  · rw [mem_toList] at hrow
    rwa [key_of_find hrow]

theorem giveBack_alters (h : giveBack rt db plans now record (refundSelects db record) = .ok db') :
    Alters ((refundSelects db record).map UserSubscription.id) (some record.requestId) db db' := by
  obtain ⟨db₁, hrefund, hout⟩ := bind_eq_ok.1 h
  rw [saveAll_eq_self fun row hrow ↦ find_of_mem_refundSelects hrow] at hrefund
  cases hout
  have hrecord (k : String) (hk : some record.requestId ≠ some k) :
      (db₁.records.save { record with status := .refunded }).find k = db₁.records.find k :=
    find_save_of_ne fun he ↦ hk (congrArg some he.symm)
  rcases refundRecord_alters hrefund with rfl | ⟨⟨row, hrow, hselects⟩, halters⟩
  · exact ⟨rfl, fun _ _ ↦ rfl, fun _ row hrow ↦ ⟨row, hrow, .refl row⟩, hrecord⟩
  · rw [hselects, map_singleton, key_of_find hrow]
    refine { halters with records := fun k hk ↦ (hrecord k hk).trans ?_ }
    exact halters.records k (some_ne_none k).symm

end

section

structure Steady (request : String) (db db' : Db) : Prop where
  keys : db'.subs.rows.map UserSubscription.id = db.subs.rows.map UserSubscription.id
  records : ∀ k ≠ request, db'.records.find k = db.records.find k

theorem Steady.refl (request : String) (db : Db) : Steady request db db := ⟨rfl, fun _ _ ↦ rfl⟩

theorem Steady.trans {request : String} (h : Steady request db db₁) (h' : Steady request db₁ db') :
    Steady request db db' :=
  ⟨h'.keys.trans h.keys, fun k hk ↦ (h'.records k hk).trans (h.records k hk)⟩

variable {result : PreConsumeResult}

theorem preConsumeLoop_steady
    (h : preConsumeLoop rt plans now req resource db rows = .ok (db', result)) :
    Steady req.requestId db db' := by
  induction rows generalizing db with
  | nil => simp [preConsumeLoop] at h
  | cons c rows ih =>
    obtain ⟨⟨db₁, out⟩, htry, hrest⟩ := bind_eq_ok.1 h
    have hstep : Steady req.requestId db db₁ := by
      cases tryCandidate_tried htry with
      | skipped => exact .refl _ _
      | passed | replayed => exact ⟨keys_save, fun _ _ ↦ rfl⟩
      | charged _ _ hcreate hcharge =>
        rw [← hcharge.requestId]
        exact ⟨keys_save, fun k hk ↦ (find_create hcreate).trans (if_neg hk)⟩
    cases out with
    | some result' =>
      cases hrest
      exact hstep
    | none => exact hstep.trans (ih hrest)

theorem preConsumeLoop_alters (hnodup : (rows.map UserSubscription.id).Nodup)
    (hfind : ∀ row ∈ rows, db.subs.find row.id = some row)
    (h : preConsumeLoop rt plans now req resource db rows = .ok (db', result)) :
    Alters (rows.map UserSubscription.id) (some req.requestId) db db' := by
  have hrow := preConsumeLoop_row (P := fun _ ↦ True) hnodup hfind (fun _ _ _ ↦ trivial) h
  have hsteady := preConsumeLoop_steady h
  refine alters_of_terms hsteady.keys (fun i hi ↦ ((hrow i).2 hi).find) (fun i ↦ ?_)
    fun k hk ↦ hsteady.records k fun he ↦ hk (congrArg some he.symm)
  rcases (hrow i).1 with huntouched | ⟨row, rfl, -, hused⟩
  · exact Requests.keepsTerms_of_untouched huntouched
  · obtain ⟨row', cleared, amount, hfind', hterms, -⟩ := hused.result
    rw [Requests.KeepsTerms, hused.find, hfind', map_some, hterms, map_some]

end

theorem resetAll_keys (rt : Runtime) (plan : SubscriptionPlan) (now : ℤ) (advance : Bool) (db : Db)
    (rows : List UserSubscription) :
    (resetAll rt plan now advance db rows).subs.rows.map UserSubscription.id =
      db.subs.rows.map UserSubscription.id := by
  induction rows generalizing db with
  | nil => rfl
  | cons row rows ih => exact (ih _).trans keys_save

variable {x : Writer}

def Locking : Writer → Prop
  | .preConsume .. | .postConsume .. | .adminReset .. | .adminInvalidate .. | .expireUser .. => True
  | .refund .. | .extend .. | .updateGroups .. => False

def request : Writer → Option String
  | .preConsume _ _ req => some req.requestId
  | .refund _ _ requestId => some requestId
  | _ => none

theorem committed_mapFail {ε ε' : Type} {c : Call ε Db} {g : ε → ε'} :
    committed db (c.mapFail g) = committed db c := by
  cases c <;> rfl

theorem committed_check {ε ε' : Type} {e : ε} {e' : ε'} {cond : Bool} :
    committed db (do Call.check e cond; pure db') = committed db (do Call.check e' cond; pure db') := by
  cases cond <;> rfl

theorem find_of_mem_selects (hrow : row ∈ selects db x) : db.subs.find row.id = some row := by
  have hcandidate {now userId : ℤ} (h : row ∈ candidates now db userId) :
      db.subs.find row.id = some row := find_of_mem (mem_candidates.1 h).1
  have hfind {i : ℤ} (h : row ∈ (db.subs.find i).toList) : db.subs.find row.id = some row := by
    rw [mem_toList] at h
    rwa [key_of_find h]
  cases x with
  | preConsume plans now req => exact hcandidate hrow
  | postConsume | adminInvalidate => exact hfind hrow
  | adminReset plans now userId planId advance =>
    simp only [selects] at hrow
    split at hrow
    · exact hcandidate (mem_filter.1 hrow).1
    · cases hrow
  | expireUser now userId => exact find_of_mem (mem_filter.1 hrow).1
  | refund | extend | updateGroups => cases hrow

theorem nodup_selects : ((selects db x).map UserSubscription.id).Nodup := by
  have hfind (i : ℤ) : ((db.subs.find i).toList.map UserSubscription.id).Nodup := by
    cases db.subs.find i <;> simp
  cases x with
  | preConsume => exact candidates_nodup
  | postConsume _ _ id | adminInvalidate _ id => exact hfind id
  | adminReset plans now userId planId advance =>
    simp only [selects]
    split
    · exact candidates_nodup.sublist (filter_sublist.map _)
    · exact nodup_nil
  | expireUser now userId => exact db.subs.nodup.sublist (filter_sublist.map _)
  | refund | extend | updateGroups => exact nodup_nil

theorem work_alters (h : work rt db (selects db x) x = .ok db') :
    Alters ((selects db x).map UserSubscription.id) (request x) db db' := by
  have hnodup : ((selects db x).map UserSubscription.id).Nodup := nodup_selects
  have hfind : ∀ row ∈ selects db x, db.subs.find row.id = some row :=
    fun row hrow ↦ find_of_mem_selects hrow
  cases x with
  | preConsume plans now req =>
    simp only [work, bind_eq_ok, mapFail_eq_ok] at h
    obtain ⟨_, -, ⟨db₁, result⟩, hloop, hout⟩ := h
    cases hout
    exact preConsumeLoop_alters hnodup hfind hloop
  | postConsume plans now id delta =>
    simp only [work, mapFail_eq_ok] at h
    rw [saveAll_eq_self hfind] at h
    obtain ⟨row, hrow, -⟩ := bind_eq_ok.1 h
    have hrow := required_eq_ok.1 hrow
    rw [selects, hrow, toList_some, map_singleton, key_of_find hrow]
    exact postConsumeDeltaTx_alters h
  | adminReset plans now userId planId advance =>
    simp only [work, bind_eq_ok, mapFail_eq_ok] at h
    obtain ⟨plan, -, _, -, hout⟩ := h
    cases hout
    obtain ⟨hrecords, heffect, hframe⟩ := resetAll_effect rt plan now advance db hnodup hfind
    refine alters_of_terms (resetAll_keys rt plan now advance db _)
      (fun i hi ↦ (hframe i hi).find) (fun i ↦ ?_) fun _ _ ↦ by rw [hrecords]
    rcases heffect i with huntouched | ⟨row, row', time, cleared, hrow, hrow', -, hterms, -⟩
    · exact Requests.keepsTerms_of_untouched huntouched
    · rw [Requests.KeepsTerms, hrow, hrow', map_some, hterms, map_some]
  | adminInvalidate now id =>
    simp only [work, bind_eq_ok] at h
    obtain ⟨_, -, hout⟩ := h
    cases hout
    exact saveAll_alters (fun _ ↦ rfl) (fun row ↦ ⟨rfl, rfl, nofun⟩) hnodup hfind
  | expireUser now userId =>
    cases h
    exact saveAll_alters (fun _ ↦ rfl) (fun row ↦ ⟨rfl, rfl, nofun⟩) hnodup hfind
  | refund | extend | updateGroups => cases h

theorem run_preConsume (hb : begin rt (.preConsume plans now req) ≠ none)
    (hrecord : db.records.find req.requestId = none) :
    run rt db (.preConsume plans now req) =
      committed db (work rt db (selects db (.preConsume plans now req))
        (.preConsume plans now req)) := by
  have hcheck : checkRequest rt req (req.resource.map (normalizeResource rt)) = .ok () := by
    cases hc : checkRequest rt req (req.resource.map (normalizeResource rt)) with
    | ok _ => rfl
    | fail | diverges => exact absurd (by simp [begin, hc]) hb
  simp only [run, performOp, preConsumeUserSubscription, hcheck, ok_bind, hrecord, work, selects]
  cases (candidates now db req.userId).isEmpty with
  | true => rfl
  | false =>
    cases preConsumeLoop rt plans now req (req.resource.map (normalizeResource rt)) db
      (candidates now db req.userId) <;> rfl

theorem run_eq_work (hx : Locking x) (hb : begin rt x ≠ none)
    (hrecord : ∀ plans now req, x = .preConsume plans now req →
      db.records.find req.requestId = none) :
    run rt db x = committed db (work rt db (selects db x) x) := by
  cases x with
  | preConsume plans now req => exact run_preConsume hb (hrecord plans now req rfl)
  | postConsume plans now id delta =>
    have hrows : ∀ row ∈ (db.subs.find id).toList, db.subs.find row.id = some row :=
      fun row hrow ↦ find_of_mem_selects (x := .postConsume plans now id delta) hrow
    obtain ⟨hid, hdelta⟩ : ¬ id ≤ 0 ∧ ¬ delta = 0 := by
      refine not_or.1 fun h ↦ hb ?_
      rw [begin, if_pos h]
    change committed db (postConsumeUserSubscriptionDelta rt plans now db id delta) = _
    rw [postConsumeUserSubscriptionDelta, if_neg hid, if_neg hdelta, work, selects,
      saveAll_eq_self hrows, committed_mapFail]
  | adminReset plans now userId planId advance =>
    have hids : 0 < userId ∧ 0 < planId := by
      by_contra h
      exact hb (by rw [begin, if_neg h])
    simp only [run, adminResetUserSubscriptionsByPlan, work, selects, hids.1, hids.2]
    cases getSubscriptionPlanById plans planId with
    | diverges | fail => rfl
    | ok plan =>
      -- the two transactions differ only in the error that they report
      exact committed_check
  | adminInvalidate now id =>
    have hid : ¬ id ≤ 0 := fun h ↦ hb (by rw [begin, if_pos h])
    rw [run, if_neg hid, work, selects]
    cases db.subs.find id <;> rfl
  | expireUser now userId => rfl
  | refund | extend | updateGroups => cases hx

variable {record : PreConsumeRecord}

theorem run_refund (hb : begin rt (.refund plans now record.requestId) ≠ none)
    (hrecord : db.records.find record.requestId = some record)
    (hstatus : record.status ≠ .refunded) :
    run rt db (.refund plans now record.requestId) =
      committed db (giveBack rt db plans now record (refundSelects db record)) := by
  rw [giveBack, saveAll_eq_self fun row hrow ↦ find_of_mem_refundSelects hrow]
  change committed db (refundSubscriptionPreConsume rt plans now db record.requestId) = _
  have hcheck : check SubscriptionError.requestIdEmpty
      (decide (rt.trimSpace record.requestId ≠ "")) = .ok () :=
    check_eq_ok.2 (decide_eq_true (fun h ↦ hb (by rw [begin, if_pos h])))
  rw [refundSubscriptionPreConsume, hcheck, hrecord]
  simp [required, if_neg hstatus]

theorem run_refund_none {requestId : String}
    (h : ∀ record, db.records.find requestId = some record → record.status = .refunded) :
    run rt db (.refund plans now requestId) = db := by
  change committed db (refundSubscriptionPreConsume rt plans now db requestId) = _
  rw [refundSubscriptionPreConsume]
  cases check SubscriptionError.requestIdEmpty (rt.trimSpace requestId ≠ "") with
  | diverges | fail => rfl
  | ok _ =>
    cases hrecord : db.records.find requestId with
    | none => rfl
    | some record =>
      have hstatus := h record hrecord
      simp only [ok_bind, required, hstatus, if_true]
      rfl

theorem run_preConsume_found (h : db.records.find req.requestId = some record) :
    run rt db (.preConsume plans now req) = db := by
  simp only [run, performOp, preConsumeUserSubscription, h]
  cases checkRequest rt req (req.resource.map (normalizeResource rt)) with
  | diverges | fail => rfl
  | ok _ =>
    cases replayRecord db record <;> rfl

def Storing : Writer → Prop
  | .extend .. | .updateGroups .. => True
  | _ => False

theorem run_store_none (hx : Storing x) (h : ∀ row, db.subs.find (target x) = some row →
    stores rt row x = none) : run rt db x = db := by
  cases x with
  | extend now planId added id =>
    simp only [run]
    cases hrow : db.subs.find id with
    | none => rfl
    | some row => simp [map_eq_none_iff.1 (h row hrow)]
  | updateGroups id groups =>
    simp only [run]
    split
    · rfl
    · cases hrow : db.subs.find id with
      | none => rfl
      | some row => exact absurd (h row hrow) (some_ne_none _)
  | _ => cases hx

variable {f : UserSubscription → UserSubscription}

theorem run_store (hx : Storing x) (hb : begin rt x ≠ none)
    (hrow : db.subs.find (target x) = some row) (hf : stores rt row x = some f) :
    run rt db x = { db with subs := db.subs.save (f row) } := by
  cases x with
  | extend now planId added id =>
    obtain ⟨merged, hmerged, rfl⟩ := map_eq_some_iff.1 hf
    change db.subs.find id = some row at hrow
    simp [run, hrow, hmerged]
  | updateGroups id groups =>
    cases hf
    change db.subs.find id = some row at hrow
    simp [run, hrow, show ¬ id ≤ 0 from fun h ↦ hb (by rw [begin, if_pos h])]
  | _ => cases hx

theorem stores_id_fades (hf : stores rt row x = some f) :
    (f row).id = row.id ∧ Fades row (f row) := by
  cases x with
  | extend now planId added id =>
    obtain ⟨merged, -, rfl⟩ := map_eq_some_iff.1 hf
    exact ⟨rfl, rfl, rfl, fun h ↦ ⟨h, rfl⟩⟩
  | updateGroups id groups =>
    cases hf
    exact ⟨rfl, rfl, rfl, fun h ↦ ⟨h, rfl⟩⟩
  | _ => cases hf

end Moligate.Subscription.Writers
