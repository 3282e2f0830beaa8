import Moligate.Subscription.Rows

namespace Moligate.Subscription

open Foundation Common List Call Table

variable {rt : Runtime} {plans : Plans} {now i delta : ℤ} {db db₁ db' : Db}
  {row c : UserSubscription} {req : PreConsumeRequest} {resource : Option Entitlement}

def RowEffect (rt : Runtime) (now : ℤ) (P : UserSubscription → Prop) (i : ℤ) (db db' : Db) : Prop :=
  Untouched i db db' ∨ ∃ row, row.id = i ∧ P row ∧ Used rt now row db db'

variable {P : UserSubscription → Prop}

theorem RowEffect.of_untouched (h : Untouched i db db₁) (h' : RowEffect rt now P i db₁ db') :
    RowEffect rt now P i db db' := by
  rcases h' with h' | ⟨row, rfl, hP, hused⟩
  · exact .inl (h.trans h')
  · exact .inr ⟨row, rfl, hP, hused.of_untouched h⟩

theorem RowEffect.then_untouched (h : RowEffect rt now P i db db₁) (h' : Untouched i db₁ db') :
    RowEffect rt now P i db db' := by
  rcases h with h | ⟨row, rfl, hP, hused⟩
  · exact .inl (h.trans h')
  · exact .inr ⟨row, rfl, hP, hused.then_untouched h'⟩

theorem UsesOnly.effect (h : UsesOnly rt now c db db') (hP : P c) (i : ℤ) :
    RowEffect rt now P i db db' := by
  by_cases hi : i = c.id
  · exact .inr ⟨c, hi.symm, hP, h.used⟩
  · exact .inl (h.frame i hi)

theorem tryCandidate_effect {out : Option PreConsumeResult} (hfind : db.subs.find c.id = some c)
    (hP : eligible rt req c = true → P c)
    (h : tryCandidate rt plans now db req resource c = .ok (db', out)) (i : ℤ) :
    RowEffect rt now P i db db' := by
  rcases tryCandidate_row hfind h with rfl | ⟨heligible, honly⟩
  · exact .inl (.refl i _)
  · exact honly.effect (hP heligible) i

variable {result : PreConsumeResult}

theorem preConsumeLoop_row {cs : List UserSubscription}
    (hnodup : (cs.map UserSubscription.id).Nodup) (hfind : ∀ c ∈ cs, db.subs.find c.id = some c)
    (hP : ∀ c ∈ cs, eligible rt req c = true → P c)
    (h : preConsumeLoop rt plans now req resource db cs = .ok (db', result)) (i : ℤ) :
    RowEffect rt now P i db db' ∧ (i ∉ cs.map UserSubscription.id → Untouched i db db') := by
  refine preConsumeLoop_rule (motive := fun db cs ↦ (∀ c ∈ cs, eligible rt req c = true → P c) →
    RowEffect rt now P i db db' ∧ (i ∉ cs.map UserSubscription.id → Untouched i db db'))
    ?_ ?_ hnodup hfind h hP
  · intro db c cs hc htry hP
    refine ⟨tryCandidate_effect hc (hP c mem_cons_self) htry i, fun hi ↦ ?_⟩
    exact tryCandidate_frame hc htry i fun he ↦ hi (he ▸ mem_cons_self)
  · intro db db₁ c cs hc hnew htry ih hP
    obtain ⟨heffect, hout⟩ := ih fun d hd ↦ hP d (mem_cons_of_mem c hd)
    have hframe := tryCandidate_frame hc htry i
    by_cases hi : i = c.id
    · refine ⟨?_, fun hmem ↦ absurd (hi ▸ mem_cons_self) hmem⟩
      exact (tryCandidate_effect hc (hP c mem_cons_self) htry i).then_untouched (hout (hi ▸ hnew))
    · refine ⟨heffect.of_untouched (hframe hi), fun hmem ↦ ?_⟩
      exact (hframe hi).trans (hout fun hcs ↦ hmem (mem_cons_of_mem _ hcs))

theorem mem_candidates {userId : ℤ} :
    c ∈ candidates now db userId ↔ c ∈ db.subs.rows ∧ isCandidate now userId c = true := by
  rw [candidates, mem_insertionSort, mem_filter]

theorem candidates_nodup {userId : ℤ} :
    ((candidates now db userId).map UserSubscription.id).Nodup := nodup_sorted _ _

theorem preConsume_row (h : preConsumeUserSubscription rt plans now db req = .ok (db', result))
    (i : ℤ) :
    RowEffect rt now (fun row ↦ isCandidate now req.userId row = true ∧ eligible rt req row = true)
      i db db' := by
  obtain ⟨_, -, h⟩ := bind_eq_ok.1 h
  split at h
  · obtain ⟨_, -, hout⟩ := bind_eq_ok.1 h
    cases hout
    exact .inl (.refl i _)
  · obtain ⟨_, -, hloop⟩ := bind_eq_ok.1 h
    refine (preConsumeLoop_row candidates_nodup (fun c hc ↦ ?_) (fun c hc he ↦ ?_) hloop i).1
    · exact find_of_mem (mem_candidates.1 hc).1
    · exact ⟨(mem_candidates.1 hc).2, he⟩

/-- The plan of a row is there, so that a settlement resets the row first. -/
def planned (plans : Plans) (row : UserSubscription) : Bool :=
  (if 0 < row.planId then plans row.planId else none).isSome

theorem resetBeforeSettle_terms {r : ResetResult} (h : resetBeforeSettle rt plans now row = .ok r) :
    r.sub.terms = row.terms ∧ r.stored.terms = row.terms := by
  rw [resetBeforeSettle] at h
  split at h
  · have hspec := maybeReset_spec (ofOption_eq_ok.1 h)
    exact ⟨hspec.terms, hspec.terms_stored⟩
  · cases h
    exact ⟨rfl, rfl⟩

theorem postConsumeDeltaTx_effect {id : ℤ}
    (hplan : ∀ row, id = row.id → row.id = i → db.subs.find i = some row → planned plans row = true)
    (h : postConsumeDeltaTx rt plans now db id delta = .ok db') :
    RowEffect rt now (fun row ↦ id = row.id) i db db' := by
  simp only [postConsumeDeltaTx, bind_eq_ok, required_eq_ok] at h
  obtain ⟨row, hfind, r, hr, sub, hsub, hout⟩ := h
  cases hout
  obtain rfl := key_of_find hfind
  have hcharged := applySubscriptionQuotaDelta_spec hsub
  by_cases hi : i = row.id
  · obtain ⟨plan, hp⟩ := Option.isSome_iff_exists.1 (hplan row rfl hi.symm (hi ▸ hfind))
    rw [resetBeforeSettle, hp] at hr
    have hspec := maybeReset_spec (ofOption_eq_ok.1 hr)
    exact .inr ⟨row, hi.symm, rfl, used_of_charge hfind hspec hcharged⟩
  · refine .inl (use_other ?_)
    rw [terms_id hcharged.terms, terms_id (resetBeforeSettle_terms hr).1]
    exact hi

theorem postConsumeResourceDeltaTx_row {id : ℤ} {key : String} {type : ResourceType}
    (h : postConsumeResourceDeltaTx rt db id key type delta = .ok db') (i : ℤ) :
    Untouched i db db' ∨ GrantsOnly i db db' := by
  simp only [postConsumeResourceDeltaTx, bind_eq_ok, required_eq_ok] at h
  obtain ⟨sub, hfind, index, -, grant, -, used, -, _, -, hout⟩ := h
  cases hout
  obtain ⟨hterms, hperiod, hversion⟩ := setGrantUsed_spec sub index used
  have hid : (setGrantUsed sub index used).id = id :=
    (terms_id hterms).trans (key_of_find hfind)
  by_cases hi : i = id
  · exact .inr ⟨⟨sub, setGrantUsed sub index used, hi ▸ hfind, hi ▸ find_save_of_key hid hfind,
      hterms, hperiod, hversion⟩, rfl⟩
  · exact .inl ⟨find_save_of_ne (by rwa [hid]), rfl⟩

def CallEffect (rt : Runtime) (now : ℤ) (P : UserSubscription → Prop) (i : ℤ) (db db' : Db) :
    Prop :=
  GrantsOnly i db db' ∨ RowEffect rt now P i db db'

theorem CallEffect.of_resource (h : Untouched i db db' ∨ GrantsOnly i db db') :
    CallEffect rt now P i db db' := by
  rcases h with h | h
  · exact .inr (.inl h)
  · exact .inl h

theorem refundRecord_row {record : PreConsumeRecord}
    (hplan : ∀ row, record.userSubscriptionId = row.id → row.id = i →
      db.subs.find i = some row → planned plans row = true)
    (h : refundRecord rt plans now db record = .ok db') :
    CallEffect rt now (fun row ↦ record.userSubscriptionId = row.id) i db db' := by
  rw [refundRecord] at h
  split at h
  · split at h
    · cases h
      exact .inr (.inl (.refl i _))
    · exact .of_resource (postConsumeResourceDeltaTx_row h i)
  · split at h
    · exact .of_resource (postConsumeResourceDeltaTx_row h i)
    · exact .inr (postConsumeDeltaTx_effect hplan h)

theorem refund_row {requestId : String}
    (hplan : ∀ row, (db.records.find requestId).any (·.userSubscriptionId = row.id) = true →
      row.id = i → db.subs.find i = some row → planned plans row = true)
    (h : refundSubscriptionPreConsume rt plans now db requestId = .ok db') :
    CallEffect rt now
      (fun row ↦ (db.records.find requestId).any (·.userSubscriptionId = row.id) = true)
      i db db' := by
  simp only [refundSubscriptionPreConsume, bind_eq_ok, required_eq_ok] at h
  obtain ⟨_, -, record, hrecord, h⟩ := h
  simp only [hrecord, Option.any_some, decide_eq_true_eq] at hplan ⊢
  split at h
  · cases h
    exact .inr (.inl (.refl i _))
  · obtain ⟨db₁, hdb, hout⟩ := bind_eq_ok.1 h
    cases hout
    rcases refundRecord_row hplan hdb with ⟨⟨row, row', h⟩, huses⟩ | h
    · exact .inl ⟨⟨row, row', h⟩, huses⟩
    · exact .inr (h.then_untouched (.of_records _))

theorem resetDueLoop_row {ss : List UserSubscription} {n : ℕ}
    (hnodup : (ss.map UserSubscription.id).Nodup)
    (h : resetDueLoop rt plans now db ss = .ok (db', n)) (i : ℤ) :
    RowEffect rt now (fun row ↦ isDue now row = true) i db db' ∧
      (i ∉ ss.map UserSubscription.id → Untouched i db db') := by
  refine resetDueLoop_rule (motive := fun db ss ↦
    RowEffect rt now (fun row ↦ isDue now row = true) i db db' ∧
      (i ∉ ss.map UserSubscription.id → Untouched i db db')) ?_ ?_ ?_ hnodup h
  · exact ⟨.inl (.refl i _), fun _ ↦ .refl i _⟩
  · rintro db s rest ⟨heffect, hout⟩
    exact ⟨heffect, fun hmem ↦ hout fun hr ↦ hmem (mem_cons_of_mem _ hr)⟩
  · rintro db s rest row plan r hnew - hfind hdue hr ⟨heffect, hout⟩
    have hid : row.id = s.id := key_of_find hfind
    have honly := usesOnly_of_reset (hid ▸ hfind) (maybeReset_spec hr)
    by_cases hi : i = s.id
    · refine ⟨(honly.effect hdue i).then_untouched (hout (hi ▸ hnew)), fun hmem ↦ ?_⟩
      exact absurd (hi ▸ mem_cons_self) hmem
    · have huntouched := honly.frame i (hid ▸ hi)
      refine ⟨heffect.of_untouched huntouched, fun hmem ↦ ?_⟩
      exact huntouched.trans (hout fun hr ↦ hmem (mem_cons_of_mem _ hr))

/-- Every call leaves a subscription alone, changes the use of its grants, or uses it. A call that
uses it has selected it before, and a settlement has found its plan. -/
theorem performOp_effect {r : Request}
    (hplan : ∀ row, resetsRow rt db r row = true → row.id = i → db.subs.find i = some row →
      planned r.plans row = true)
    (h : performOp rt db r = .ok db') :
    CallEffect rt r.now (fun row ↦ resetsRow rt db r row = true) i db db' := by
  obtain ⟨now, plans, op⟩ := r
  cases op with
  | preConsume req =>
    obtain ⟨⟨db₁, result⟩, hpre, hout⟩ := bind_eq_ok.1 h
    cases hout
    refine .inr ?_
    simpa [resetsRow] using preConsume_row hpre i
  | postConsume id delta =>
    simp only [performOp, postConsumeUserSubscriptionDelta] at h
    split_ifs at h
    · cases h
      exact .inr (.inl (.refl i _))
    · refine .inr ?_
      simp only [resetsRow, decide_eq_true_eq] at hplan ⊢
      exact postConsumeDeltaTx_effect hplan h
  | postConsumeResource id key type delta =>
    simp only [performOp, postConsumeUserSubscriptionResourceDelta, postConsumeGrantDelta] at h
    split_ifs at h
    · cases h
      exact .inr (.inl (.refl i _))
    · exact .of_resource (postConsumeResourceDeltaTx_row h i)
  | refund requestId => exact refund_row hplan h
  | resetDue limit =>
    obtain ⟨⟨db₁, n⟩, hreset, hout⟩ := bind_eq_ok.1 h
    cases hout
    refine .inr (resetDueLoop_row ?_ hreset i).1
    exact (nodup_sorted _ _).sublist ((take_sublist _ _).map _)

end Moligate.Subscription
