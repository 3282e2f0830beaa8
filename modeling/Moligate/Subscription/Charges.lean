import Moligate.Subscription.Counters

namespace Moligate.Subscription

open Foundation Common List Table Call

variable {rt : Runtime} {plans : Plans} {now i amount delta : ℤ} {db db₁ db' : Db}
  {row row' c : UserSubscription} {req : PreConsumeRequest} {resource : Option Entitlement}
  {r : ResetResult}

def MovesRow (rt : Runtime) (plans : Plans) (now i amount : ℤ) (db db' : Db) : Prop :=
  ∃ row row' cleared, db.subs.find i = some row ∧ db'.subs.find i = some row' ∧
    db'.uses i = ⟨i, now, cleared, amount⟩ :: db.uses i ∧ RowMove rt plans now row amount row'

theorem MovesRow.of_untouched (h : Untouched i db db₁)
    (h' : MovesRow rt plans now i amount db₁ db') : MovesRow rt plans now i amount db db' := by
  obtain ⟨row, row', cleared, hfind, hfind', huses, hmove⟩ := h'
  exact ⟨row, row', cleared, h.find ▸ hfind, hfind', h.uses ▸ huses, hmove⟩

theorem MovesRow.then_untouched (h : MovesRow rt plans now i amount db db₁)
    (h' : Untouched i db₁ db') : MovesRow rt plans now i amount db db' := by
  obtain ⟨row, row', cleared, hfind, hfind', huses, hmove⟩ := h
  exact ⟨row, row', cleared, hfind, h'.find.trans hfind', h'.uses.trans huses, hmove⟩

variable {taken id planId : ℤ} {k : String} {result : PreConsumeResult} {record : PreConsumeRecord}
  {cleared : Period → Bool} {advance : Bool} {n : ℕ}

theorem use_moves (hfind : db.subs.find row.id = some row)
    (hmove : RowMove rt plans now row amount row') :
    MovesRow rt plans now row.id amount db (db.use row' now cleared amount taken) :=
  ⟨row, row', cleared, hfind, find_use (terms_id hmove.terms) hfind, uses_use (terms_id hmove.terms),
    hmove⟩

def KeepsRecords (db db' : Db) : Prop :=
  ∀ k record, db.records.find k = some record → db'.records.find k = some record

theorem KeepsRecords.refl (db : Db) : KeepsRecords db db := fun _ _ h ↦ h

theorem KeepsRecords.trans (h : KeepsRecords db db₁) (h' : KeepsRecords db₁ db') :
    KeepsRecords db db' := fun k record hk ↦ h' k record (h k record hk)

def KeepsCharges (db db' : Db) : Prop :=
  ∀ k record, db.records.find k = some record → ∃ record', db'.records.find k = some record' ∧
    record'.userSubscriptionId = record.userSubscriptionId ∧
    record'.preConsumed = record.preConsumed

theorem KeepsRecords.charges (h : KeepsRecords db db') : KeepsCharges db db' :=
  fun k record hk ↦ ⟨record, h k record hk, rfl, rfl⟩

theorem KeepsCharges.of_eq (h : db'.records = db.records) : KeepsCharges db db' :=
  fun _ record hk ↦ ⟨record, h ▸ hk, rfl, rfl⟩

structure Recorded (requestId : String) (i amount : ℤ) (db db' : Db) : Prop where
  pos : 0 < amount
  new : db.records.find requestId = none
  record : ∃ record, db'.records.find requestId = some record ∧ record.userSubscriptionId = i ∧
    record.preConsumed = amount ∧ record.resourceAmount = 0 ∧ record.status = .consumed

theorem Recorded.mono {db₀ db₂ : Db} (h : Recorded k i amount db db')
    (hbefore : KeepsRecords db₀ db) (hafter : KeepsRecords db' db₂) :
    Recorded k i amount db₀ db₂ where
  pos := h.pos
  new := by
    cases hk : db₀.records.find k with
    | none => rfl
    | some record => exact absurd (hbefore k record hk) (by simp [h.new])
  record := by
    obtain ⟨record, hfind, hrecord⟩ := h.record
    exact ⟨record, hafter k record hfind, hrecord⟩

def ReserveEffect (rt : Runtime) (plans : Plans) (now : ℤ) (requestId : String) (i : ℤ)
    (db db' : Db) : Prop :=
  Untouched i db db' ∨ ∃ amount, MovesRow rt plans now i amount db db' ∧
    (amount = 0 ∨ Recorded requestId i amount db db')

structure TriesRow (rt : Runtime) (plans : Plans) (now : ℤ) (requestId : String)
    (c : UserSubscription) (db db' : Db) : Prop where
  effect : ReserveEffect rt plans now requestId c.id db db'
  frame : ∀ i, i ≠ c.id → Untouched i db db'
  records : KeepsRecords db db'

theorem triesRow_of_use (hfind : db.subs.find c.id = some c)
    (hmove : RowMove rt plans now c 0 row') :
    TriesRow rt plans now k c db (db.use row' now cleared 0 taken) where
  effect := .inr ⟨0, use_moves hfind hmove, .inl rfl⟩
  frame _ hi := use_other (terms_id hmove.terms ▸ hi)
  records := .refl db

theorem hasPrimaryCapacity_pos (h : hasPrimaryCapacity row amount = true) : 0 < amount := by
  simp only [hasPrimaryCapacity, Bool.and_eq_true] at h
  by_contra hneg
  simp [usageHasCapacity, not_lt.1 hneg] at h

theorem ChargedTo.move (hr : resetBeforeSettle rt plans now c = .ok r)
    (h : ChargedTo rt req resource r record row amount taken result) :
    RowMove rt plans now c amount row := by
  cases h with
  | @grant _ _ used index => exact .grant hr index used
  | primary hcap hsub => exact .charge hr hcap hsub

theorem ChargedTo.recorded (h : ChargedTo rt req resource r record row amount taken result) :
    amount = 0 ∨ 0 < amount ∧ record.userSubscriptionId = r.sub.id ∧
      record.preConsumed = amount ∧ record.resourceAmount = 0 ∧ record.status = .consumed := by
  cases h with
  | grant => exact .inl rfl
  | primary hcap => exact .inr ⟨hasPrimaryCapacity_pos hcap, rfl, rfl, rfl, rfl⟩

theorem keepsRecords_create {records : Table PreConsumeRecord.requestId}
    (hcreate : db.records.create record = some records) : KeepsRecords db { db with records } := by
  intro k old hk
  have hnone : db.records.find record.requestId = none :=
    create_isSome.1 (by simp [hcreate])
  have hne : k ≠ record.requestId := by
    rintro rfl
    simp [hnone] at hk
  exact (find_create hcreate).trans ((if_neg hne).trans hk)

theorem tryCandidate_tries {out : Option PreConsumeResult} (hfind : db.subs.find c.id = some c)
    (h : tryCandidate rt plans now db req resource c = .ok (db', out)) :
    TriesRow rt plans now req.requestId c db db' := by
  cases tryCandidate_tried h with
  | skipped => exact ⟨.inl (.refl _ _), fun i _ ↦ .refl i _, .refl _⟩
  | passed _ hr | replayed _ hr => exact triesRow_of_use hfind (.reset hr.settle)
  | @charged r record _ amount _ _ records _ hr hcreate hcharge =>
    have hmove := hcharge.move hr.settle
    have huntouched : ∀ i, Untouched i db { db with records } := fun _ ↦ .of_records records
    refine ⟨.inr ⟨amount, .of_untouched (huntouched c.id) (use_moves hfind hmove), ?_⟩,
      fun i hi ↦ (huntouched i).trans (use_other (terms_id hmove.terms ▸ hi)),
      keepsRecords_create hcreate⟩
    refine hcharge.recorded.imp_right fun ⟨hpos, hid, hrecord⟩ ↦ ?_
    rw [← hcharge.requestId]
    exact ⟨hpos, create_isSome.1 (by simp [hcreate]), record,
      (find_create hcreate).trans (if_pos rfl),
      hid.trans (terms_id hr.spec.terms), hrecord⟩

theorem ReserveEffect.of_untouched (h : Untouched i db db₁) (hrecords : KeepsRecords db db₁)
    (h' : ReserveEffect rt plans now k i db₁ db') : ReserveEffect rt plans now k i db db' := by
  rcases h' with h' | ⟨amount, hmoves, hamount⟩
  · exact .inl (h.trans h')
  · exact .inr ⟨amount, hmoves.of_untouched h, hamount.imp_right (·.mono hrecords (.refl _))⟩

theorem ReserveEffect.then_untouched (h : ReserveEffect rt plans now k i db db₁)
    (h' : Untouched i db₁ db') (hrecords : KeepsRecords db₁ db') :
    ReserveEffect rt plans now k i db db' := by
  rcases h with h | ⟨amount, hmoves, hamount⟩
  · exact .inl (h.trans h')
  · exact .inr ⟨amount, hmoves.then_untouched h', hamount.imp_right (·.mono (.refl _) hrecords)⟩

theorem preConsumeLoop_effect {cs : List UserSubscription}
    (hnodup : (cs.map UserSubscription.id).Nodup) (hfind : ∀ c ∈ cs, db.subs.find c.id = some c)
    (h : preConsumeLoop rt plans now req resource db cs = .ok (db', result)) :
    (∀ i, ReserveEffect rt plans now req.requestId i db db') ∧
      (∀ i ∉ cs.map UserSubscription.id, Untouched i db db') ∧ KeepsRecords db db' := by
  refine preConsumeLoop_rule (motive := fun db cs ↦
    (∀ i, ReserveEffect rt plans now req.requestId i db db') ∧
      (∀ i ∉ cs.map UserSubscription.id, Untouched i db db') ∧ KeepsRecords db db')
    ?_ ?_ hnodup hfind h
  · intro db c cs hc htry
    have hone := tryCandidate_tries hc htry
    refine ⟨fun i ↦ ?_, fun i hi ↦ hone.frame i fun he ↦ hi (he ▸ mem_cons_self), hone.records⟩
    by_cases hi : i = c.id
    · exact hi ▸ hone.effect
    · exact .inl (hone.frame i hi)
  · rintro db db₁ c cs hc hnew htry ⟨heffect, hout, hrecords⟩
    have hone := tryCandidate_tries hc htry
    refine ⟨fun i ↦ ?_, fun i hi ↦ ?_, hone.records.trans hrecords⟩
    · by_cases hi : i = c.id
      · exact hi ▸ hone.effect.then_untouched (hout c.id hnew) hrecords
      · exact (heffect i).of_untouched (hone.frame i hi) hone.records
    · rw [map_cons, mem_cons, not_or] at hi
      exact (hone.frame i hi.1).trans (hout i hi.2)

theorem preConsume_effect (h : preConsumeUserSubscription rt plans now db req = .ok (db', result)) :
    (∀ i, ReserveEffect rt plans now req.requestId i db db') ∧ KeepsRecords db db' := by
  obtain ⟨_, -, h⟩ := bind_eq_ok.1 h
  split at h
  · obtain ⟨_, -, hout⟩ := bind_eq_ok.1 h
    cases hout
    exact ⟨fun i ↦ .inl (.refl i _), .refl _⟩
  · obtain ⟨_, -, hloop⟩ := bind_eq_ok.1 h
    obtain ⟨heffect, -, hrecords⟩ := preConsumeLoop_effect candidates_nodup
      (fun c hc ↦ find_of_mem (mem_candidates.1 hc).1) hloop
    exact ⟨heffect, hrecords⟩

structure Still (i : ℤ) (db db' : Db) : Prop where
  row : ∀ row, db.subs.find i = some row → ∃ row', db'.subs.find i = some row' ∧
    row'.terms = row.terms ∧ ∀ x, row'.counter x = row.counter x
  uses : db'.uses i = db.uses i

theorem Untouched.still (h : Untouched i db db') : Still i db db' :=
  ⟨fun row hrow ↦ ⟨row, h.find.trans hrow, rfl, fun _ ↦ rfl⟩, h.uses⟩

theorem postConsumeDeltaTx_moves (h : postConsumeDeltaTx rt plans now db id delta = .ok db') :
    db'.records = db.records ∧ MovesRow rt plans now id delta db db' ∧
      ∀ i, i ≠ id → Untouched i db db' := by
  simp only [postConsumeDeltaTx, bind_eq_ok, required_eq_ok] at h
  obtain ⟨row, hfind, r, hr, sub, hsub, hout⟩ := h
  cases hout
  obtain rfl := key_of_find hfind
  have hmove : RowMove rt plans now row delta sub := .settle hr hsub
  exact ⟨rfl, use_moves hfind hmove, fun i hi ↦ use_other (terms_id hmove.terms ▸ hi)⟩

theorem postConsumeResourceDeltaTx_still {key : String} {type : ResourceType}
    (h : postConsumeResourceDeltaTx rt db id key type delta = .ok db') :
    db'.records = db.records ∧ ∀ i, Still i db db' := by
  simp only [postConsumeResourceDeltaTx, bind_eq_ok, required_eq_ok] at h
  obtain ⟨sub, hfind, index, -, grant, -, used, -, _, -, hout⟩ := h
  cases hout
  obtain rfl := key_of_find hfind
  have hterms := (setGrantUsed_spec sub index used).1
  refine ⟨rfl, fun i ↦ ⟨fun row hrow ↦ ?_, rfl⟩⟩
  by_cases hi : i = sub.id
  · subst hi
    obtain rfl := Option.some.inj (hfind.symm.trans hrow)
    exact ⟨_, find_save_self hfind, hterms, setGrantUsed_counter sub index used⟩
  · exact ⟨row, (find_save_of_ne (r := setGrantUsed sub index used) hi).trans hrow, rfl,
      fun _ ↦ rfl⟩

def PreConsumeRecord.isPrimary (record : PreConsumeRecord) : Bool :=
  0 < record.preConsumed && !(record.resourceKey ≠ "" && 0 < record.resourceAmount)

theorem refundRecord_effect (h : refundRecord rt plans now db record = .ok db') :
    db'.records = db.records ∧ ∀ i, Still i db db' ∨ record.userSubscriptionId = i ∧
      record.isPrimary = true ∧ MovesRow rt plans now i (-record.preConsumed) db db' := by
  rw [refundRecord] at h
  split at h
  · split at h
    · cases h
      exact ⟨rfl, fun i ↦ .inl (Untouched.refl i _).still⟩
    · exact (postConsumeResourceDeltaTx_still h).imp_right fun hstill i ↦ .inl (hstill i)
  next hpos =>
    split at h
    · exact (postConsumeResourceDeltaTx_still h).imp_right fun hstill i ↦ .inl (hstill i)
    rename_i hprimary
    obtain ⟨hrecords, hmoves, hframe⟩ := postConsumeDeltaTx_moves h
    refine ⟨hrecords, fun i ↦ ?_⟩
    by_cases hi : i = record.userSubscriptionId
    · refine .inr ⟨hi.symm, ?_, hi ▸ hmoves⟩
      rw [PreConsumeRecord.isPrimary, decide_eq_true (not_le.1 hpos)]
      simpa [or_iff_not_imp_left] using hprimary
    · exact .inl (hframe i hi).still

theorem refund_effect (h : refundSubscriptionPreConsume rt plans now db k = .ok db') :
    KeepsCharges db db' ∧ ∃ record, db.records.find k = some record ∧ ∀ i, Still i db db' ∨
      record.userSubscriptionId = i ∧ record.isPrimary = true ∧ record.status ≠ .refunded ∧
        MovesRow rt plans now i (-record.preConsumed) db db' := by
  simp only [refundSubscriptionPreConsume, bind_eq_ok, required_eq_ok] at h
  obtain ⟨_, -, record, hrecord, h⟩ := h
  split at h
  · cases h
    exact ⟨.of_eq rfl, record, hrecord, fun i ↦ .inl (Untouched.refl i _).still⟩
  rename_i hstatus
  obtain ⟨db₁, hdb, hout⟩ := bind_eq_ok.1 h
  cases hout
  obtain ⟨hrecords, heffect⟩ := refundRecord_effect hdb
  have hkey : record.requestId = k := key_of_find hrecord
  refine ⟨fun k' old hold ↦ ?_, record, hrecord, fun i ↦ ?_⟩
  · by_cases hk : k' = k
    · subst hk
      obtain rfl := Option.some.inj (hrecord.symm.trans hold)
      have hfound : db₁.records.find record.requestId = some record := by
        rw [hrecords, hkey, hrecord]
      refine ⟨{ record with status := .refunded }, ?_, rfl, rfl⟩
      rw [← hkey]
      exact find_save_self (r := { record with status := .refunded }) hfound
    · refine ⟨old, ?_, rfl, rfl⟩
      rw [find_save_of_ne (by rwa [hkey]), hrecords, hold]
  · rcases heffect i with hstill | ⟨hi, hprimary, hmoves⟩
    · exact .inl { hstill with }
    · exact .inr ⟨hi, hprimary, hstatus, hmoves.then_untouched (.of_records _)⟩

theorem resetDueLoop_effect {ss : List UserSubscription}
    (hnodup : (ss.map UserSubscription.id).Nodup) (hfind : ∀ s ∈ ss, db.subs.find s.id = some s)
    (h : resetDueLoop rt plans now db ss = .ok (db', n)) :
    db'.records = db.records ∧
      (∀ i, Untouched i db db' ∨ MovesRow rt plans now i 0 db db') ∧
      ∀ i ∉ ss.map UserSubscription.id, Untouched i db db' := by
  refine resetDueLoop_rule (motive := fun db ss ↦ (∀ s ∈ ss, db.subs.find s.id = some s) →
    db'.records = db.records ∧ (∀ i, Untouched i db db' ∨ MovesRow rt plans now i 0 db db') ∧
      ∀ i ∉ ss.map UserSubscription.id, Untouched i db db') ?_ ?_ ?_ hnodup h hfind
  · exact fun _ ↦ ⟨rfl, fun i ↦ .inl (.refl i _), fun i _ ↦ .refl i _⟩
  · intro db s rest ih hfind
    obtain ⟨hrecords, heffect, hout⟩ := ih fun t ht ↦ hfind t (mem_cons_of_mem s ht)
    exact ⟨hrecords, heffect, fun i hi ↦ hout i fun hr ↦ hi (mem_cons_of_mem _ hr)⟩
  · intro db s rest row plan r hnew hplan hrow hdue hr ih hfind
    obtain rfl : s = row := Option.some.inj ((hfind s mem_cons_self).symm.trans hrow)
    have hreset : resetBeforeSettle rt plans now s = .ok r := by
      rw [resetBeforeSettle, hplan]
      exact ofOption_eq_ok.2 hr
    have hmove : RowMove rt plans now s 0 r.stored := .reset hreset
    have hframe : ∀ i, i ≠ s.id → Untouched i db (db.use r.stored now r.cleared 0 0) :=
      fun i hi ↦ use_other (terms_id hmove.terms ▸ hi)
    obtain ⟨hrecords, heffect, hout⟩ := ih fun t ht ↦ by
      have hne : t.id ≠ s.id := fun he ↦ hnew (he ▸ mem_map_of_mem ht)
      rw [(hframe t.id hne).find]
      exact hfind t (mem_cons_of_mem s ht)
    refine ⟨hrecords, fun i ↦ ?_, fun i hi ↦ ?_⟩
    · by_cases hi : i = s.id
      · subst hi
        exact .inr ((use_moves hrow hmove).then_untouched (hout s.id hnew))
      · exact (heffect i).imp (hframe i hi).trans (·.of_untouched (hframe i hi))
    · rw [map_cons, mem_cons, not_or] at hi
      exact (hframe i hi.1).trans (hout i hi.2)

theorem resetDue_effect {limit : ℤ}
    (h : resetDueSubscriptions rt plans now db limit = .ok (db', n)) :
    db'.records = db.records ∧ ∀ i, Untouched i db db' ∨ MovesRow rt plans now i 0 db db' := by
  obtain ⟨hrecords, heffect, -⟩ := resetDueLoop_effect
    ((nodup_sorted _ _).sublist ((take_sublist _ _).map _)) (fun s hs ↦
      find_of_mem (mem_filter.1 ((mem_insertionSort _).1 (mem_of_mem_take hs))).1) h
  exact ⟨hrecords, heffect⟩

def ClearsRow (i : ℤ) (db db' : Db) : Prop :=
  ∃ row row' now cleared, db.subs.find i = some row ∧ db'.subs.find i = some row' ∧
    db'.uses i = ⟨i, now, cleared, 0⟩ :: db.uses i ∧ row'.terms = row.terms ∧
    ∀ x, row'.counter x = 0

theorem resetAll_effect (rt : Runtime) (plan : SubscriptionPlan) (now : ℤ) (advance : Bool)
    (db : Db) {subs : List UserSubscription} (hnodup : (subs.map UserSubscription.id).Nodup)
    (hfind : ∀ s ∈ subs, db.subs.find s.id = some s) :
    (resetAll rt plan now advance db subs).records = db.records ∧
      (∀ i, Untouched i db (resetAll rt plan now advance db subs) ∨
        ClearsRow i db (resetAll rt plan now advance db subs)) ∧
      ∀ i ∉ subs.map UserSubscription.id,
        Untouched i db (resetAll rt plan now advance db subs) := by
  induction subs generalizing db with
  | nil => exact ⟨rfl, fun i ↦ .inl (.refl i _), fun i _ ↦ .refl i _⟩
  | cons s rest ih =>
    rw [map_cons, nodup_cons] at hnodup
    set row' := resetUserSubscription rt s plan now advance with hrow'
    have hterms : row'.terms = s.terms := resetUserSubscription_terms s plan now advance
    have hid : row'.id = s.id := terms_id hterms
    set db₁ := db.use row' now (fun _ ↦ true) 0 0 with hdb₁
    have hframe : ∀ i, i ≠ s.id → Untouched i db db₁ := fun i hi ↦ use_other (hid ▸ hi)
    obtain ⟨hrecords, heffect, hout⟩ := ih db₁ hnodup.2 fun t ht ↦ by
      have hne : t.id ≠ s.id := fun he ↦ hnodup.1 (he ▸ mem_map_of_mem ht)
      rw [(hframe t.id hne).find]
      exact hfind t (mem_cons_of_mem s ht)
    refine ⟨hrecords, fun i ↦ ?_, fun i hi ↦ ?_⟩
    · by_cases hi : i = s.id
      · subst hi
        have hs := hfind s mem_cons_self
        have hlast := hout s.id hnodup.1
        exact .inr ⟨s, row', now, fun _ ↦ true, hs, hlast.find.trans (find_use hid hs),
          hlast.uses.trans (uses_use hid), hterms, resetUserSubscription_counter s plan now advance⟩
      · refine (heffect i).imp (hframe i hi).trans fun hclears ↦ ?_
        obtain ⟨row, row'', t, cleared, h₁, h₂, h₃, h₄⟩ := hclears
        exact ⟨row, row'', t, cleared, (hframe i hi).find ▸ h₁, h₂, (hframe i hi).uses ▸ h₃, h₄⟩
    · rw [map_cons, mem_cons, not_or] at hi
      exact (hframe i hi.1).trans (hout i hi.2)

theorem adminResetUser_effect {userId : ℤ}
    (h : adminResetUserSubscriptionsByPlan rt plans now db userId planId advance = .ok db') :
    db'.records = db.records ∧ ∀ i, Untouched i db db' ∨ ClearsRow i db db' := by
  simp only [adminResetUserSubscriptionsByPlan, bind_eq_ok] at h
  obtain ⟨_, -, plan, -, _, -, hout⟩ := h
  cases hout
  refine And.imp_right And.left (resetAll_effect rt plan now advance db ?_ fun s hs ↦ ?_)
  · exact candidates_nodup.sublist (filter_sublist.map _)
  · exact find_of_mem (mem_candidates.1 (mem_filter.1 hs).1).1

theorem adminResetPlan_effect
    (h : adminResetPlanSubscriptions rt plans now db planId advance = .ok db') :
    db'.records = db.records ∧ ∀ i, Untouched i db db' ∨ ClearsRow i db db' := by
  simp only [adminResetPlanSubscriptions, bind_eq_ok] at h
  obtain ⟨_, -, plan, -, hout⟩ := h
  cases hout
  refine And.imp_right And.left (resetAll_effect rt plan now advance db ?_ fun s hs ↦ ?_)
  · exact nodup_sorted _ _
  · exact find_of_mem (mem_filter.1 ((mem_insertionSort _).1 hs)).1

end Moligate.Subscription
