import Moligate.Subscription.Charges
import Moligate.Subscription.Reservation

namespace Moligate.Subscription.Requests

open Foundation Common List Table Call UserSubscription Option ResourceGrant

inductive Bucket where
  | primary
  | grant (index : ℕ)
  deriving DecidableEq, Repr

/-- The use of one bucket of a row moves by `delta`; nothing else of the row changes. -/
inductive Shifts (delta : ℤ) (s : UserSubscription) : Bucket → UserSubscription → Prop
  | primary {s' : UserSubscription} (h : chargePrimary s delta = .ok s') : Shifts delta s .primary s'
  | grant {index : ℕ} {grant : ResourceGrant} {used : ℤ}
      (hgrant : s.resourceGrants[index]? = some grant)
      (hused : applyUsageDelta grant.used delta = .ok used) :
      Shifts delta s (.grant index) (setGrantUsed s index used)

inductive ResetOf (rt : Runtime) (plans : Plans) (now : ℤ) (row : UserSubscription) :
    UserSubscription → Prop
  | none : ResetOf rt plans now row row
  | sub {r : ResetResult} (h : resetBeforeSettle rt plans now row = .ok r) :
      ResetOf rt plans now row r.sub
  | stored {r : ResetResult} (h : resetBeforeSettle rt plans now row = .ok r) :
      ResetOf rt plans now row r.stored

def LeavesRow (rt : Runtime) (plans : Plans) (now i : ℤ) (db db' : Db) : Prop :=
  db.subs.find i = none ∧ db'.subs.find i = none ∨
    ∃ row row', db.subs.find i = some row ∧ db'.subs.find i = some row' ∧
      ResetOf rt plans now row row'

def ShiftsRow (rt : Runtime) (plans : Plans) (now i : ℤ) (b : Bucket) (delta : ℤ) (db db' : Db) :
    Prop :=
  ∃ row base row', db.subs.find i = some row ∧ ResetOf rt plans now row base ∧
    Shifts delta base b row' ∧ db'.subs.find i = some row'

def names (s : UserSubscription) : List (ResourceType × String) :=
  s.resourceGrants.map identity

def bucketOf (rt : Runtime) (record : PreConsumeRecord)
    (names : List (ResourceType × String)) : Option Bucket :=
  if record.resourceKey = "" then some .primary
  else
    (names.findIdx? fun n ↦
      n = (record.grantType, rt.trimSpace (rt.toLower record.resourceKey))).map .grant

def heldAmount (record : PreConsumeRecord) : ℤ :=
  if record.resourceKey = "" then record.preConsumed else record.resourceAmount

structure Answers (record : PreConsumeRecord) (result : PreConsumeResult) : Prop where
  subscription : result.userSubscriptionId = record.userSubscriptionId
  preConsumed : result.preConsumed = record.preConsumed
  resource : result.resourcePreConsumed = record.resourceAmount

variable {rt : Runtime} {plans : Plans} {now i delta amount : ℤ} {db db₁ db' : Db} {b : Bucket}
  {s s' row row' base c : UserSubscription} {req : PreConsumeRequest} {r : ResetResult}
  {resource : Option Entitlement} {record : PreConsumeRecord} {k : String}

theorem Shifts.terms (h : Shifts delta s b s') : s'.terms = s.terms := by
  cases h with
  | primary h => exact (chargePrimary_eq_ok.1 h).terms
  | grant hgrant hused => exact (setGrantUsed_spec s _ _).1

theorem ResetOf.terms (h : ResetOf rt plans now row row') : row'.terms = row.terms := by
  cases h with
  | none => rfl
  | sub h => exact (resetBeforeSettle_terms h).1
  | stored h => exact (resetBeforeSettle_terms h).2

def KeepsTerms (i : ℤ) (db db' : Db) : Prop :=
  (db'.subs.find i).map terms = (db.subs.find i).map terms

theorem LeavesRow.terms (h : LeavesRow rt plans now i db db') : KeepsTerms i db db' := by
  rcases h with ⟨h, h'⟩ | ⟨row, row', h, h', hreset⟩
  · rw [KeepsTerms, h, h']
  · rw [KeepsTerms, h, h', map_some, hreset.terms, map_some]

theorem ShiftsRow.terms (h : ShiftsRow rt plans now i b delta db db') : KeepsTerms i db db' := by
  obtain ⟨row, base, row', h, hreset, hshifts, h'⟩ := h
  rw [KeepsTerms, h, h', map_some, hshifts.terms, hreset.terms, map_some]

theorem LeavesRow.of_same (h : db'.subs.find i = db.subs.find i) :
    LeavesRow rt plans now i db db' := by
  cases hfind : db.subs.find i with
  | none => exact .inl ⟨hfind, h.trans hfind⟩
  | some row => exact .inr ⟨row, row, hfind, h.trans hfind, .none⟩

theorem LeavesRow.after_same (hsame : db₁.subs.find i = db.subs.find i)
    (h : LeavesRow rt plans now i db₁ db') : LeavesRow rt plans now i db db' := by
  rwa [LeavesRow, hsame] at h

theorem ShiftsRow.after_same (hsame : db₁.subs.find i = db.subs.find i)
    (h : ShiftsRow rt plans now i b delta db₁ db') : ShiftsRow rt plans now i b delta db db' := by
  rwa [ShiftsRow, hsame] at h

/-- The grant that a reservation was charged to is the one that its refund finds. -/
theorem bucketOf_grant {index : ℕ} {grant : ResourceGrant} (hwf : GrantsWellFormed rt s)
    (hgrant : s.resourceGrants[index]? = some grant) (hkey : record.resourceKey = grant.resourceKey)
    (htype : record.resourceType = some grant.resourceType) :
    bucketOf rt record (names s) = some (.grant index) := by
  have hmem : grant.identity ∈ s.resourceGrants.map identity :=
    mem_map_of_mem (mem_of_getElem? hgrant)
  obtain ⟨hnorm, -, hne⟩ := hwf.normalized _ hmem
  have hid : (record.grantType, rt.trimSpace (rt.toLower record.resourceKey)) = grant.identity := by
    rw [PreConsumeRecord.grantType, htype, hkey]
    exact Prod.ext rfl hnorm
  rw [bucketOf, if_neg (hkey ▸ hne), hid, names, findIdx?_map]
  exact congrArg (Option.map Bucket.grant) (findIdx_of_nodup hwf.nodup hgrant)

def Held (record : PreConsumeRecord) : Prop :=
  (record.resourceKey = "" → 0 < record.preConsumed) ∧
    (record.resourceKey ≠ "" → 0 < record.resourceAmount)

/-- What a reservation under the request id `k` that goes through has done: it has charged a bucket
of one of the subscriptions `ids` together with a new record, or it has answered from the record
that was there. -/
inductive Reserves (rt : Runtime) (plans : Plans) (now : ℤ) (k : String) (ids : List ℤ)
    (db db' : Db) (result : PreConsumeResult) : Prop
  | charged (record : PreConsumeRecord) (row : UserSubscription) (b : Bucket)
      (hnew : db.records.find k = none) (hrecord : db'.records.find k = some record)
      (hkeep : ∀ k' ≠ k, db'.records.find k' = db.records.find k')
      (hstatus : record.status = .consumed) (hheld : Held record)
      (hmem : record.userSubscriptionId ∈ ids)
      (hrow : db.subs.find record.userSubscriptionId = some row)
      (hbucket : bucketOf rt record (names row) = some b)
      (hshifts : ShiftsRow rt plans now record.userSubscriptionId b (heldAmount record) db db')
      (hothers : ∀ i ≠ record.userSubscriptionId, LeavesRow rt plans now i db db')
      (hanswers : Answers record result) : Reserves rt plans now k ids db db' result
  | replayed (record : PreConsumeRecord) (hrecord : db.records.find k = some record)
      (hstatus : record.status ≠ .refunded) (hrecords : db'.records = db.records)
      (hrows : ∀ i, LeavesRow rt plans now i db db') (hanswers : Answers record result) :
      Reserves rt plans now k ids db db' result

theorem leavesRow_use {cleared : Period → Bool} {taken : ℤ} (hfind : db.subs.find c.id = some c)
    (hreset : ResetOf rt plans now c row') (i : ℤ) :
    LeavesRow rt plans now i db (db.use row' now cleared delta taken) := by
  have hid : row'.id = c.id := terms_id hreset.terms
  by_cases hi : i = c.id
  · exact .inr ⟨c, row', hi ▸ hfind, hi ▸ find_use hid hfind, hreset⟩
  · exact .of_same (use_other (hid ▸ hi)).find

variable {result : PreConsumeResult} {ids : List ℤ}

theorem replayRecord_answers (h : replayRecord db record = .ok result) :
    record.status ≠ .refunded ∧ Answers record result := by
  simp only [replayRecord, bind_eq_ok, check_eq_ok, required_eq_ok] at h
  obtain ⟨_, hstatus, sub, hsub, hout⟩ := h
  cases hout
  exact ⟨of_decide_eq_true hstatus, (key_of_find hsub :), rfl, rfl⟩

def Tries (rt : Runtime) (plans : Plans) (now : ℤ) (k : String) (c : UserSubscription)
    (db db' : Db) : Option PreConsumeResult → Prop
  | none => db'.records = db.records ∧ ∀ i, LeavesRow rt plans now i db db'
  | some result => Reserves rt plans now k [c.id] db db' result

theorem shifts_of_charged {taken primary : ℤ} (hwf : GrantsWellFormed rt c)
    (hterms : r.sub.terms = c.terms)
    (h : ChargedTo rt req resource r record row' primary taken result) :
    ∃ b, bucketOf rt record (names c) = some b ∧ Shifts (heldAmount record) r.sub b row' ∧
      Held record ∧ record.status = .consumed ∧ record.userSubscriptionId = r.sub.id ∧
      Answers record result := by
  have hnames : names r.sub = names c := identity_of_terms hterms
  cases h with
  | @grant amount charge used index grant hchoose hgrant hused =>
    have hne : grant.resourceKey ≠ "" := ((hwf.of_terms hterms).normalized _
      (mem_map_of_mem (mem_of_getElem? hgrant))).2.2
    have hpos : 0 < charge := (usageHasCapacity_range (chooseGrant_spec hchoose hgrant).1).1
    refine ⟨.grant index, hnames ▸ bucketOf_grant (hwf.of_terms hterms) hgrant rfl rfl, ?_,
      ⟨fun he ↦ absurd he hne, fun _ ↦ hpos⟩, rfl, rfl, rfl, rfl, rfl⟩
    rw [heldAmount, if_neg hne]
    exact .grant hgrant hused
  | primary hcap hsub =>
    exact ⟨.primary, if_pos rfl, .primary hsub,
      ⟨fun _ ↦ hasPrimaryCapacity_pos hcap, fun he ↦ absurd rfl he⟩, rfl, rfl, rfl, rfl, rfl⟩

theorem tryCandidate_outcome {out : Option PreConsumeResult}
    (hfind : db.subs.find c.id = some c) (hwf : GrantsWellFormed rt c)
    (h : tryCandidate rt plans now db req resource c = .ok (db', out)) :
    Tries rt plans now req.requestId c db db' out := by
  cases tryCandidate_tried h with
  | skipped => exact ⟨rfl, fun i ↦ .of_same rfl⟩
  | passed _ hr => exact ⟨rfl, leavesRow_use hfind (.stored hr.settle)⟩
  | replayed _ hr hrecord hanswer =>
    obtain ⟨hstatus, hanswers⟩ := replayRecord_answers hanswer
    exact .replayed _ hrecord hstatus rfl (leavesRow_use hfind (.stored hr.settle)) hanswers
  | @charged r record sub _ _ _ _ _ hr hcreate hcharge =>
    have hterms := (resetBeforeSettle_terms hr.settle).1
    obtain ⟨b, hbucket, hshifts, hheld, hstatus, hsub, hanswers⟩ := shifts_of_charged hwf hterms hcharge
    have hid : record.userSubscriptionId = c.id := hsub.trans (terms_id hterms)
    have hsubid : sub.id = c.id := terms_id (hshifts.terms.trans hterms)
    rw [← hcharge.requestId]
    refine .charged record c b (create_isSome.1 (by simp [hcreate])) ?_ (fun k' hk' ↦ ?_)
      hstatus hheld (by simp [hid]) (hid ▸ hfind) hbucket ?_ (fun i hi ↦ ?_) hanswers
    · exact (find_create hcreate).trans (if_pos rfl)
    · exact (find_create hcreate).trans (if_neg hk')
    · refine ⟨c, r.sub, sub, hid ▸ hfind, .sub hr.settle, hshifts, ?_⟩
      exact hid ▸ find_save_of_key hsubid hfind
    · exact .of_same (find_save_of_ne (by rwa [hsubid, ← hid]))

theorem Reserves.after_passed (hc : c.id ∉ ids) (hpassed : Tries rt plans now k c db db₁ none)
    (hbefore : ∀ i ≠ c.id, db₁.subs.find i = db.subs.find i)
    (hafter : db'.subs.find c.id = db₁.subs.find c.id)
    (h : Reserves rt plans now k ids db₁ db' result) :
    Reserves rt plans now k (c.id :: ids) db db' result := by
  have hrows (i : ℤ) (hi : LeavesRow rt plans now i db₁ db') : LeavesRow rt plans now i db db' := by
    by_cases hic : i = c.id
    · subst hic
      rw [LeavesRow, hafter]
      exact hpassed.2 c.id
    · exact hi.after_same (hbefore i hic)
  cases h with
  | charged record row b hnew hrecord hkeep hstatus hheld hmem hrow hbucket hshifts hothers hanswers =>
    have hsame := hbefore record.userSubscriptionId fun he ↦ hc (he ▸ hmem)
    exact .charged record row b (hpassed.1 ▸ hnew) hrecord
      (fun k' hk' ↦ (hkeep k' hk').trans (by rw [hpassed.1])) hstatus hheld
      (mem_cons_of_mem _ hmem) (hsame ▸ hrow) hbucket (hshifts.after_same hsame)
      (fun i hi ↦ hrows i (hothers i hi)) hanswers
  | replayed record hrecord hstatus hrecords hleaves hanswers =>
    exact .replayed record (hpassed.1 ▸ hrecord) hstatus (hrecords.trans hpassed.1)
      (fun i ↦ hrows i (hleaves i)) hanswers

theorem Reserves.mono {ids' : List ℤ} (hids : ids ⊆ ids')
    (h : Reserves rt plans now k ids db db' result) :
    Reserves rt plans now k ids' db db' result := by
  cases h with
  | charged record row b hnew hrecord hkeep hstatus hheld hmem hrow hbucket hshifts hothers hanswers =>
    exact .charged record row b hnew hrecord hkeep hstatus hheld (hids hmem) hrow hbucket hshifts
      hothers hanswers
  | replayed record hrecord hstatus hrecords hrows hanswers =>
    exact .replayed record hrecord hstatus hrecords hrows hanswers

theorem Reserves.reservation (h : Reserves rt plans now k ids db db' result)
    (hrecord : db.records.find k = some record) : db'.records.find k = some record := by
  cases h with
  | charged _ _ _ hnew => cases hnew.symm.trans hrecord
  | replayed _ _ _ hrecords => exact hrecords ▸ hrecord

theorem preConsumeLoop_outcome {cs : List UserSubscription}
    (hnodup : (cs.map UserSubscription.id).Nodup) (hfind : ∀ c ∈ cs, db.subs.find c.id = some c)
    (hwf : ∀ c ∈ cs, GrantsWellFormed rt c)
    (h : preConsumeLoop rt plans now req resource db cs = .ok (db', result)) :
    Reserves rt plans now req.requestId (cs.map UserSubscription.id) db db' result := by
  have hloop := preConsumeLoop_rule (motive := fun db cs ↦ (∀ c ∈ cs, GrantsWellFormed rt c) →
    Reserves rt plans now req.requestId (cs.map UserSubscription.id) db db' result ∧
      ∀ i ∉ cs.map UserSubscription.id, db'.subs.find i = db.subs.find i)
    ?_ ?_ hnodup hfind h hwf
  · exact hloop.1
  · intro db c cs hc htry hwf
    refine ⟨(tryCandidate_outcome hc (hwf c mem_cons_self) htry).mono (by simp), ?_⟩
    intro i hi
    exact (tryCandidate_frame hc htry i fun he ↦ hi (he ▸ mem_cons_self)).find
  · intro db db₁ c cs hc hnew htry ih hwf
    obtain ⟨hrest, hout⟩ := ih fun d hd ↦ hwf d (mem_cons_of_mem c hd)
    have hone := tryCandidate_outcome hc (hwf c mem_cons_self) htry
    have hframe (i : ℤ) (hi : i ≠ c.id) : db₁.subs.find i = db.subs.find i :=
      (tryCandidate_frame hc htry i hi).find
    refine ⟨hrest.after_passed hnew hone hframe (hout c.id hnew), fun i hi ↦ ?_⟩
    rw [map_cons, mem_cons, not_or] at hi
    exact (hout i hi.2).trans (hframe i hi.1)

structure GivesBack (rt : Runtime) (plans : Plans) (now : ℤ) (record : PreConsumeRecord)
    (db db' : Db) : Prop where
  records : db'.records = db.records
  bucket : ∃ row b, db.subs.find record.userSubscriptionId = some row ∧
    bucketOf rt record (names row) = some b ∧
    ShiftsRow rt plans now record.userSubscriptionId b (-heldAmount record) db db'
  frame : ∀ i ≠ record.userSubscriptionId, db'.subs.find i = db.subs.find i

theorem postConsumeResourceDeltaTx_outcome (hkey : record.resourceKey ≠ "")
    (h : postConsumeResourceDeltaTx rt db record.userSubscriptionId record.resourceKey
      record.grantType (-record.resourceAmount) = .ok db') :
    GivesBack rt plans now record db db' := by
  simp only [postConsumeResourceDeltaTx, bind_eq_ok, required_eq_ok,
    ofExcept_eq_ok, mapError_eq_ok] at h
  obtain ⟨sub, hfind, index, hindex, grant, hgrant, used, hused, _, -, hout⟩ := h
  cases hout
  have hid : (setGrantUsed sub index used).id = record.userSubscriptionId :=
    (terms_id (setGrantUsed_spec sub index used).1).trans (key_of_find hfind)
  have hbucket : bucketOf rt record (names sub) = some (.grant index) := by
    rw [bucketOf, if_neg hkey, names, findIdx?_map]
    refine map_eq_some_iff.2 ⟨index, ?_, rfl⟩
    rw [← hindex]
    congr 1
    funext g
    simp [identity]
  refine ⟨rfl, ⟨sub, .grant index, hfind, hbucket, sub, sub, setGrantUsed sub index used, hfind,
    .none, ?_, ?_⟩, fun i hi ↦ find_save_of_ne (by rwa [hid])⟩
  · rw [heldAmount, if_neg hkey]
    exact .grant hgrant hused
  · rw [← hid] at hfind ⊢
    exact find_save_self hfind

theorem postConsumeDeltaTx_outcome (hkey : record.resourceKey = "")
    (h : postConsumeDeltaTx rt plans now db record.userSubscriptionId (-record.preConsumed) =
      .ok db') : GivesBack rt plans now record db db' := by
  simp only [postConsumeDeltaTx, bind_eq_ok, required_eq_ok] at h
  obtain ⟨row, hfind, r, hr, sub, hsub, hout⟩ := h
  cases hout
  have hdrawn := (applySubscriptionQuotaDelta_drawn hsub).1
  have hid : sub.id = record.userSubscriptionId :=
    (terms_id (hdrawn.terms.trans (resetBeforeSettle_terms hr).1)).trans (key_of_find hfind)
  refine ⟨rfl, ⟨row, .primary, hfind, if_pos hkey, row, r.sub, sub, hfind, .sub hr, ?_, ?_⟩,
    fun i hi ↦ find_save_of_ne (by rwa [hid])⟩
  · rw [heldAmount, if_pos hkey]
    exact .primary (chargePrimary_eq_ok.2 hdrawn)
  · rw [← hid] at hfind ⊢
    exact find_save_self hfind

theorem refundRecord_outcome (hheld : Held record)
    (h : refundRecord rt plans now db record = .ok db') : GivesBack rt plans now record db db' := by
  rw [refundRecord] at h
  by_cases hkey : record.resourceKey = ""
  · rw [if_neg (not_le.2 (hheld.1 hkey)), if_neg (fun h ↦ h.1 hkey)] at h
    exact postConsumeDeltaTx_outcome hkey h
  · have hpos := hheld.2 hkey
    rw [if_neg (not_le.2 hpos), if_pos (And.intro hkey hpos), ite_self] at h
    exact postConsumeResourceDeltaTx_outcome hkey h

end Moligate.Subscription.Requests
