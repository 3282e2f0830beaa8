import Moligate.Billing.Session
import Moligate.Subscription.Reservation

namespace Moligate.Billing

open Foundation Common Subscription SubscriptionFunding

variable {rt : Runtime} {m : Moment} {f : SubscriptionFunding} {db db' : Db} {b : Bucket}
  {used delta : ℤ}

inductive BucketOf (rt : Runtime) (f : SubscriptionFunding) (record : PreConsumeRecord) :
    Bucket → Prop
  | primary : f.resource = none → record.resourceKey = "" → BucketOf rt f record .primary
  | grant {key : String} {amount : ℤ} : f.resource = some ⟨key, .quota, amount⟩ →
      record.resourceKey = key → record.resourceType = some .quota →
      record.resourceAmount = f.preConsumed → rt.trimSpace (rt.toLower key) = key →
      rt.trimSpace key ≠ "" → key ≠ "" → BucketOf rt f record (.grant key)

def Calm (rt : Runtime) (f : SubscriptionFunding) (m : Moment) (db : Db) : Prop :=
  f.resource = none → ∀ row, db.subs.find f.subscriptionId = some row →
    quiet rt m.plans m.now row = true

theorem Calm.of_moved (h : Calm rt f m db) (hb : Holds db f.subscriptionId b used)
    (hm : Moved f.subscriptionId b used delta db db') : Calm rt f m db' := by
  intro hf row' hrow'
  obtain ⟨row, hrow, -⟩ := hb.row
  obtain ⟨hplan, hnext⟩ := hm.plan row row' hrow hrow'
  have := h hf row hrow
  rwa [quiet, ← hplan, ← hnext] at this

variable {record : PreConsumeRecord}

section

variable (hof : BucketOf rt f record b)
include hof

theorem adjust_moved (hb : Holds db f.subscriptionId b used) (hsum : 0 ≤ used + delta)
    (hcalm : Calm rt f m db) (h : f.adjust rt m db delta = .ok db') :
    Moved f.subscriptionId b used delta db db' ∧ (delta ≠ 0 → 0 < f.subscriptionId) := by
  rw [adjust] at h
  split at h
  next hz =>
    cases h
    subst hz
    exact ⟨.refl hb, fun hne ↦ absurd rfl hne⟩
  next hz =>
    cases hof with
    | primary hf hkey =>
      simp only [hf, postConsumeUserSubscriptionDelta, if_neg hz] at h
      split at h
      · simp at h
      next hid => exact ⟨postConsumeDeltaTx_moved hb hsum (hcalm hf) h, fun _ ↦ by omega⟩
    | grant hf hkey htype hamount hnorm htrim hne =>
      simp only [hf, reduceCtorEq, if_false, ne_eq, hne, not_false_eq_true, if_true,
        postConsumeGrantDelta, htrim, if_neg hz, false_and] at h
      split at h
      · simp at h
      · exact ⟨postConsumeResourceDeltaTx_moved hnorm hb hsum h, fun _ ↦ by omega⟩

theorem adjust_taken (hb : Holds db f.subscriptionId b used) (hdelta : 0 < delta)
    (h : f.adjust rt m db delta = .ok db') : db'.taken = db.taken + delta := by
  have hz : delta ≠ 0 := hdelta.ne'
  rw [adjust, if_neg hz] at h
  cases hof with
  | primary hf hkey =>
    simp only [hf, postConsumeUserSubscriptionDelta, if_neg hz] at h
    split at h
    · simp at h
    · exact (postConsumeDeltaTx_taken hdelta h).1
  | grant hf hkey htype hamount hnorm htrim hne =>
    simp only [hf, reduceCtorEq, if_false, ne_eq, hne, not_false_eq_true, if_true,
      postConsumeGrantDelta, htrim, if_neg hz, false_and] at h
    split at h
    · simp at h
    · exact (postConsumeResourceDeltaTx_moved hnorm hb (by have := hb.nonneg; omega) h).taken

theorem adjust_returns (hb : Holds db f.subscriptionId b used) (hdelta : delta ≤ 0)
    (hid : 0 < f.subscriptionId) (hcalm : Calm rt f m db) (e : SubscriptionError) :
    f.adjust rt m db delta ≠ .fail e := by
  rw [adjust]
  split
  · simp
  rename_i hz
  cases hof with
  | primary hf hkey =>
    simp only [hf, postConsumeUserSubscriptionDelta, if_neg hz, if_neg (not_le.2 hid)]
    exact postConsumeDeltaTx_returns hb hdelta (hcalm hf) e
  | grant hf hkey htype hamount hnorm htrim hne =>
    simp only [hf, reduceCtorEq, if_false, ne_eq, hne, not_false_eq_true, if_true,
      postConsumeGrantDelta, htrim, if_neg hz, false_and, if_neg (not_le.2 hid)]
    exact postConsumeResourceDeltaTx_returns hnorm hb hdelta e

theorem refundRecord_moved (hid : record.userSubscriptionId = f.subscriptionId)
    (hpre : record.preConsumed = f.preConsumed) (hpos : 0 < f.preConsumed)
    (hb : Holds db f.subscriptionId b used) (hle : f.preConsumed ≤ used) (hcalm : Calm rt f m db) :
    (∀ db', refundRecord rt m.plans m.now db record = .ok db' →
      Moved f.subscriptionId b used (-f.preConsumed) db db') ∧
      ∀ e, refundRecord rt m.plans m.now db record ≠ .fail e := by
  have hneg : -f.preConsumed ≤ 0 := by omega
  have hsum : 0 ≤ used + -f.preConsumed := by omega
  rw [refundRecord, hpre, if_neg (not_le.2 hpos), hid]
  cases hof with
  | primary hf hkey =>
    rw [hkey, if_neg (by simp)]
    exact ⟨fun _ ↦ postConsumeDeltaTx_moved hb hsum (hcalm hf),
      postConsumeDeltaTx_returns hb hneg (hcalm hf)⟩
  | grant hf hkey htype hamount hnorm htrim hne =>
    have hgrant : record.grantType = .quota := by rw [PreConsumeRecord.grantType, htype]; rfl
    rw [hamount, hkey, hgrant, if_pos ⟨hne, hpos⟩]
    exact ⟨fun _ ↦ postConsumeResourceDeltaTx_moved hnorm hb hsum,
      postConsumeResourceDeltaTx_returns hnorm hb hneg⟩

end

/-- What a session that is charged to a subscription keeps until it is settled or refunded: its
record is there to be refunded and its bucket still holds the reservation. -/
structure Backed (rt : Runtime) (f : SubscriptionFunding) (extra : ℤ) (db : Db) : Prop where
  requestId : rt.trimSpace f.requestId ≠ ""
  positive : 0 < f.preConsumed
  extra_nonneg : 0 ≤ extra
  id : 0 < extra → 0 < f.subscriptionId
  bucket : ∃ record b used, db.records.find f.requestId = some record ∧
    record.status = .consumed ∧ record.userSubscriptionId = f.subscriptionId ∧
    record.preConsumed = f.preConsumed ∧ BucketOf rt f record b ∧
    Holds db f.subscriptionId b used ∧ f.preConsumed + extra ≤ used

variable {extra : ℤ}

section

variable (h : Backed rt f extra db)
include h

theorem Backed.not_isImage : f.isImage = false := by
  obtain ⟨record, b, used, -, -, -, -, hof, -, -⟩ := h.bucket
  cases hof with
  | primary hf | grant hf => simp [isImage, hf]

theorem Backed.adjust (hextra : 0 ≤ extra + delta) (hcalm : Calm rt f m db)
    (hadjust : f.adjust rt m db delta = .ok db') :
    Backed rt f (extra + delta) db' ∧ db'.taken = db.taken + delta ∧
      ∀ m', Calm rt f m' db → Calm rt f m' db' := by
  obtain ⟨record, b, used, hfind, hstatus, hrid, hpre, hof, hb, hle⟩ := h.bucket
  have hpos := h.positive
  have hnonneg := h.extra_nonneg
  obtain ⟨hmoved, hid⟩ := adjust_moved hof hb (by omega) hcalm hadjust
  refine ⟨⟨h.requestId, hpos, hextra, ?_, record, b, used + delta, ?_, hstatus, hrid, hpre, hof,
    hmoved.holds, by omega⟩, hmoved.taken, fun m' hm' ↦ hm'.of_moved hb hmoved⟩
  · intro hlt
    by_cases hz : delta = 0
    · exact h.id (by omega)
    · exact hid hz
  · rw [hmoved.records, hfind]

theorem Backed.settle (hdown : delta < 0 → Calm rt f m db ∧ 0 ≤ f.preConsumed + extra + delta)
    (hadjust : f.adjust rt m db delta = .ok db') : db'.taken = db.taken + delta := by
  obtain ⟨record, b, used, hfind, hstatus, hrid, hpre, hof, hb, hle⟩ := h.bucket
  rcases lt_trichotomy delta 0 with hneg | rfl | hpos
  · obtain ⟨hcalm, hq⟩ := hdown hneg
    exact (adjust_moved hof hb (by omega) hcalm hadjust).1.taken
  · rw [← Call.ok.inj hadjust, add_zero]
  · exact adjust_taken hof hb hpos hadjust

theorem Backed.adjust_returns (hdelta : delta ≤ 0) (hid : 0 < f.subscriptionId)
    (hcalm : Calm rt f m db) (e : SubscriptionError) : f.adjust rt m db delta ≠ .fail e := by
  obtain ⟨record, b, used, -, -, -, -, hof, hb, -⟩ := h.bucket
  exact Billing.adjust_returns hof hb hdelta hid hcalm e

/-- A refund gives back the first reservation; what was reserved later stays in the bucket. -/
theorem Backed.refund (hcalm : Calm rt f m db) :
    (∀ db', f.refund rt m db = .ok db' → db'.taken = db.taken - f.preConsumed ∧
      (∀ m', Calm rt f m' db → Calm rt f m' db') ∧
      ∃ record b used, BucketOf rt f record b ∧ Holds db' f.subscriptionId b used ∧ extra ≤ used) ∧
      ∀ e, f.refund rt m db ≠ .fail e := by
  obtain ⟨record, b, used, hfind, hstatus, hrid, hpre, hof, hb, hle⟩ := h.bucket
  have hpos := h.positive
  have hnonneg := h.extra_nonneg
  obtain ⟨hok, hfail⟩ := refundRecord_moved hof hrid hpre hpos hb (by omega) hcalm
  have hrefund : f.refund rt m db = refundRecord rt m.plans m.now db record >>= fun db ↦
      pure { db with records := db.records.save { record with status := .refunded } } := by
    rw [SubscriptionFunding.refund, if_neg (by omega), refundSubscriptionPreConsume]
    simp [h.requestId, hfind, hstatus, Call.check, Call.required]
  rw [hrefund]
  refine ⟨?_, ?_⟩
  · intro db' hdb
    obtain ⟨db₁, h₁, h₂⟩ := Call.bind_eq_ok.1 hdb
    cases h₂
    have hmoved := hok db₁ h₁
    refine ⟨by rw [hmoved.taken]; rfl, ?_, record, b, used + -f.preConsumed, hof, ?_, by omega⟩
    · intro m' hm'
      exact (hm'.of_moved hb hmoved : Calm rt f m' db₁)
    · exact ⟨hmoved.holds.nonneg, hmoved.holds.range, hmoved.holds.row⟩
  · intro e he
    rcases Call.bind_eq_fail.1 he with hf | ⟨db₁, -, hf⟩
    · exact hfail e hf
    · simp at hf

end

theorem run_backed {f' : SubscriptionFunding} (hfresh : db.records.find f.requestId = none)
    (hwf : ∀ row ∈ db.subs.rows, GrantsWellFormed rt row)
    (h : f.run rt m db = .ok (db', f')) (himage : f'.isImage = false) (hpos : 0 < f'.preConsumed) :
    Backed rt f' 0 db' ∧ db'.taken = db.taken + f'.preConsumed := by
  obtain ⟨⟨db₁, result⟩, hcall, hout⟩ := Call.bind_eq_ok.1 h
  cases hout
  obtain ⟨hid, ⟨record, hfind, hstatus, hrid, hpre, hkey, htype, hamount⟩, hbucket⟩ :=
    preConsume_reserved hfresh hwf hcall
  rcases hbucket with ⟨hcount, hne⟩ | ⟨b, used, hnonneg, hb, htaken, hb'⟩
  · simp [isImage, hcount, hne] at himage
  refine ⟨⟨hid, hpos, le_rfl, fun hlt ↦ absurd hlt (lt_irrefl 0), record, b, _, hfind, hstatus,
    hrid, hpre, ?_, hb, ?_⟩, htaken⟩
  · rcases hb' with ⟨rfl, hempty⟩ | ⟨rfl, hquota, heq, hnorm, htrim, hne⟩
    · exact .primary (by simp [hempty]) (hkey.trans hempty)
    · have hgrant : (⟨result.resourceKey, result.resourceType.getD .quota,
          result.resourcePreConsumed⟩ : FundingResource) =
          ⟨result.resourceKey, .quota, result.resourcePreConsumed⟩ := by
        rw [hquota]
        rfl
      exact .grant ((if_pos hne).trans (congrArg some hgrant)) hkey (htype.trans hquota)
        (hamount.trans heq) hnorm htrim hne
  · dsimp only
    omega

end Moligate.Billing
