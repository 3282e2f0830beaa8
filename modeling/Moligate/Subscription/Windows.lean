import Moligate.Subscription.Effects

namespace Moligate.Subscription

open Foundation Common Touch

def Db.touches (db : Db) (i : ℤ) (p : Period) : List Touch :=
  (db.uses i).map fun u ↦ ⟨u.time, u.cleared p, u.amount⟩

/-- The stored reset time of a limit in force is 0 although the first boundary has passed. It is 0
for a limit whose next boundary lies after the end of the subscription, and a call takes it for
one that was never set. -/
def lapsed (rt : Runtime) (row : UserSubscription) (now : ℤ) (p : Period) : Bool :=
  let first := calcNextAnchoredPeriodReset rt row.startTime row.startTime p row.endTime
  0 < (row.period p).amount && periodResetAnchorVersion ≤ row.periodResetAnchorVersion &&
    (row.period p).resetTime = 0 && 0 < first && first ≤ now

/-- No call resets the subscription `i` while its limit is lapsed, and every call that resets it
finds its plan. -/
def ResetsInTime (rt : Runtime) (i : ℤ) (p : Period) (w : World) (r : Request) : Prop :=
  ∀ row, w.db.subs.find i = some row → resetsRow rt w.db r row = true →
    planned r.plans row = true ∧ lapsed rt row r.now p = false

/-- The counter of a limit after the uses so far: it is metered over the anchored windows, and no
use comes after the reset time that is due next. -/
structure LimitInv (rt : Runtime) (terms : UserSubscription) (p : Period) (i : ℤ) (w : World)
    (row : UserSubscription) : Prop where
  find : w.db.subs.find i = some row
  terms : row.terms = terms
  past : ∀ u ∈ w.db.uses i, u.time ≤ w.clock
  fresh : ¬periodResetAnchorVersion ≤ row.periodResetAnchorVersion → w.db.uses i = []
  onBoundary : periodResetAnchorVersion ≤ row.periodResetAnchorVersion →
    OnBoundary rt row.startTime p (row.period p).resetTime
  ahead : ∀ u ∈ w.db.uses i, (row.period p).resetTime ≤ 0 ∨ u.time < (row.period p).resetTime
  metered : Metered (boundary rt row.startTime p) (row.period p).amount (row.period p).used
    (w.db.touches i p)

variable {rt : Runtime} {i : ℤ} {p : Period} {w w' : World} {r : Request} {db : Db}
  {row terms : UserSubscription}

theorem forall_touches {P : ℤ → Prop} :
    (∀ e ∈ db.touches i p, P e.time) ↔ ∀ u ∈ db.uses i, P u.time := by
  simp [Db.touches]

theorem LimitInv.frame {row' : UserSubscription} (h : LimitInv rt terms p i w row)
    (hclock : w.clock ≤ w'.clock) (hfind : w'.db.subs.find i = some row')
    (huses : w'.db.uses i = w.db.uses i) (hterms : row'.terms = row.terms)
    (hperiod : row'.period p = row.period p)
    (hversion : row'.periodResetAnchorVersion = row.periodResetAnchorVersion) :
    LimitInv rt terms p i w' row' := by
  have hstart := terms_startTime hterms
  have htouches : w'.db.touches i p = w.db.touches i p := by rw [Db.touches, huses, Db.touches]
  refine ⟨hfind, hterms.trans h.terms, ?_, ?_, ?_, ?_, ?_⟩
  · rw [huses]
    exact fun u hu ↦ (h.past u hu).trans hclock
  · rw [huses, hversion]
    exact h.fresh
  · rw [hversion, hstart, hperiod]
    exact h.onBoundary
  · rw [huses, hperiod]
    exact h.ahead
  · rw [hstart, hperiod, htouches]
    exact h.metered

theorem LimitInv.clears_first {cleared : Bool} {q : PeriodQuota} {now : ℤ}
    (h : LimitInv rt terms p i w row) (hamount : 0 < (row.period p).amount)
    (hlapsed : lapsed rt row now p = false) (hr : PeriodReset rt row now p cleared q)
    (hc : cleared = true) {k : ℕ} (hk : now < boundary rt row.startTime p (k + 1)) :
    ∀ u ∈ w.db.uses i, u.time < boundary rt row.startTime p k := by
  intro u hu
  have hversion : periodResetAnchorVersion ≤ row.periodResetAnchorVersion := by
    by_contra hv
    simp [h.fresh hv] at hu
  obtain ⟨hpos, hle⟩ := hr.due hversion hc
  have hset : (row.period p).resetTime ≠ 0 := by
    intro hz
    rw [startingReset, if_pos hz] at hpos hle
    simp [lapsed, hamount, hversion, hz, hpos, hle] at hlapsed
  rw [startingReset, if_neg hset] at hpos hle
  obtain ⟨j, hj⟩ := (h.onBoundary hversion).resolve_left (by omega)
  have hjk : j + 1 ≤ k := by
    have := (boundary_strictMono rt row.startTime p).lt_iff_lt.1 (hj ▸ hle.trans_lt hk)
    omega
  calc u.time < (row.period p).resetTime := (h.ahead u hu).resolve_left (by omega)
    _ = boundary rt row.startTime p (j + 1) := hj
    _ ≤ boundary rt row.startTime p k := (boundary_strictMono rt row.startTime p).monotone hjk

theorem LimitInv.used (h : LimitInv rt terms p i w row) (hid : row.id = i)
    (hamount : 0 < (row.period p).amount) (hmax : (row.period p).amount ≤ maxInt64)
    {now : ℤ} (hnow : w.clock ≤ now) (hlapsed : lapsed rt row now p = false)
    (hused : Used rt now row w.db db) : ∃ row', LimitInv rt terms p i ⟨now, db⟩ row' := by
  obtain ⟨row', cleared, amount, hfind, hterms, hversion, huses, hperiod⟩ := hused.result
  obtain ⟨q, hreset, hqamount, hcharge⟩ := hperiod p hamount
  rw [hid] at hfind huses
  have hstart := terms_startTime hterms
  have hrowamount := terms_period hterms p
  have hpast : ∀ u ∈ w.db.uses i, u.time ≤ now := fun u hu ↦ (h.past u hu).trans hnow
  have hq₀ : 0 ≤ q.used := by
    rw [hreset.used]
    split
    · exact le_rfl
    · exact h.metered.nonneg
  have hq₁ : q.used ≤ (row.period p).amount := by
    rw [hreset.used]
    split
    · exact hamount.le
    · exact h.metered.within
  have hnew : q.used + amount ≤ (row'.period p).used ∧ 0 ≤ (row'.period p).used ∧
      (row'.period p).used ≤ (row.period p).amount ∧
      (row'.period p).resetTime = q.resetTime := by
    rcases hcharge with ⟨hq, rfl⟩ | hcharged
    · rw [hq]
      exact ⟨by omega, hq₀, hq₁, rfl⟩
    · exact ⟨hcharged.covers (hq₁.trans hmax), hcharged.after,
        hqamount ▸ hcharged.within (hqamount ▸ hq₁), hcharged.resetTime⟩
  obtain ⟨hcover, hnonneg, hwithin, hresetTime⟩ := hnew
  have htouches : db.touches i p = ⟨now, cleared p, amount⟩ :: w.db.touches i p := by
    simp [Db.touches, huses]
  refine ⟨row', hfind, hterms.trans h.terms, ?_, fun hv ↦ absurd hversion hv, fun _ ↦ ?_, ?_, ?_⟩
  · rw [huses]
    intro u hu
    rcases List.mem_cons.1 hu with rfl | hu
    · exact le_rfl
    · exact hpast u hu
  · rw [hstart, hresetTime]
    exact hreset.onBoundary h.onBoundary
  · rw [huses, hresetTime]
    intro u hu
    have hle : u.time ≤ now := by
      rcases List.mem_cons.1 hu with rfl | hu
      · exact le_rfl
      · exact hpast u hu
    exact hreset.settled.imp_right fun hlt ↦ hle.trans_lt hlt
  · rw [hstart, hrowamount, htouches]
    refine h.metered.touch ((forall_touches (P := (· ≤ now))).2 hpast)
      (fun hc k _ hk ↦ ?_) ?_ hnonneg hwithin
    · exact (forall_touches (P := (· < boundary rt row.startTime p k))).2
        (h.clears_first hamount hlapsed hreset hc hk)
    · rw [← hreset.used]
      exact hcover

theorem step_limitInv (hamount : 0 < (terms.period p).amount)
    (hmax : (terms.period p).amount ≤ maxInt64) (h : ∃ row, LimitInv rt terms p i w row)
    (hok : ResetsInTime rt i p w r) (hstep : step rt w r = some w') :
    ∃ row, LimitInv rt terms p i w' row := by
  obtain ⟨row, h⟩ := h
  have hrow : (row.period p).amount = (terms.period p).amount := by
    have := congrArg (fun s ↦ (s.period p).amount) h.terms
    cases p <;> exact this
  have hid : row.id = i := Table.key_of_find h.find
  rw [step] at hstep
  split at hstep
  next hclock =>
    split at hstep
    · simp at hstep
    · cases hstep
      exact ⟨row, h.frame hclock h.find rfl rfl rfl rfl⟩
    rename_i db hop
    cases hstep
    have heffect := performOp_effect (i := i)
      (fun row hresets _ hfind ↦ (hok row hfind hresets).1) hop
    rcases heffect with hgrants | huntouched | ⟨row₁, hid₁, hresets, hused⟩
    · obtain ⟨row₁, row', hfind, hfind', hterms, hperiod, hversion⟩ := hgrants.result
      obtain rfl : row = row₁ := Option.some.inj (h.find.symm.trans hfind)
      exact ⟨row', h.frame hclock hfind' hgrants.uses hterms (hperiod p) hversion⟩
    · exact ⟨row, h.frame hclock (huntouched.find.trans h.find) huntouched.uses rfl rfl rfl⟩
    · have hfind : w.db.subs.find i = some row₁ := hid₁ ▸ hused.find
      obtain rfl : row = row₁ := Option.some.inj (h.find.symm.trans hfind)
      exact h.used hid (hrow ▸ hamount) (hrow ▸ hmax) hclock (hok row hfind hresets).2 hused
  · simp at hstep

/-- In every run whose resets come in time, each anchored window of a limit is cleared at most
once and charged at most the limit. -/
theorem window_within_limit (hfind : w.db.subs.find i = some row) (hnew : w.db.uses i = [])
    (hamount : 0 < (row.period p).amount) (hmax : (row.period p).amount ≤ maxInt64)
    (hused : 0 ≤ (row.period p).used ∧ (row.period p).used ≤ (row.period p).amount)
    (hanchored : periodResetAnchorVersion ≤ row.periodResetAnchorVersion →
      OnBoundary rt row.startTime p (row.period p).resetTime)
    {rs : List Request} (hok : Guarded (step rt) (ResetsInTime rt i p) w rs)
    (hrun : exec (step rt) w rs = some w') (k : ℕ) :
    clearings (boundary rt row.startTime p) k (w'.db.touches i p) ≤ 1 ∧
      charged (boundary rt row.startTime p) k (w'.db.touches i p) ≤ (row.period p).amount := by
  have hterms : (row.terms.period p).amount = (row.period p).amount := by cases p <;> rfl
  have hinit : LimitInv rt row.terms p i w row :=
    { find := hfind
      terms := rfl
      past := by simp [hnew]
      fresh := fun _ ↦ hnew
      onBoundary := hanchored
      ahead := by simp [hnew]
      metered := by
        rw [Db.touches, hnew]
        exact .nil hused.1 hused.2 }
  obtain ⟨row', h'⟩ := exec_invariant (I := fun w ↦ ∃ row', LimitInv rt row.terms p i w row')
    (fun w r w' h ho hs ↦ step_limitInv (hterms ▸ hamount) (hterms ▸ hmax) h ho hs)
    ⟨row, hinit⟩ hok hrun
  have hstart : row'.startTime = row.startTime := (congrArg UserSubscription.startTime h'.terms :)
  have hsame : (row'.period p).amount = (row.period p).amount := terms_period h'.terms p
  have hmetered := h'.metered
  rw [hstart, hsame] at hmetered
  exact ⟨hmetered.clearings_le k, hmetered.charged_le k⟩

namespace Example

def utc : Runtime := ⟨0, .finite, id, id⟩

def dayAndHalf : UserSubscription where
  id := 1
  userId := 1
  planId := 1
  amountTotal := 0
  amountUsed := 0
  daily := ⟨100, 0, 86401⟩
  weekly := {}
  monthly := {}
  periodResetAnchorVersion := 1
  startTime := 1
  endTime := 129601
  status := .active
  lastResetTime := 0
  nextResetTime := 0
  applicableGroups := []
  modelFamily := ""
  includedModels := []
  billingRatio := .finite 1
  resourceGrants := []

def world : World where
  clock := 0
  db := ⟨⟨[dayAndHalf], by decide⟩, ⟨[], by decide⟩, [], 0⟩

def charge (now : ℤ) (requestId : String) : Request where
  now := now
  plans := fun id ↦ some ⟨id, "never", 0⟩
  op := .preConsume { requestId, userId := 1, modelName := "gpt", amount := 100 }

end Example

open Example in
/-- Two charges in the last, partial day: each call clears the counter, and the day is charged
twice its limit. -/
theorem lastWindow_charged_twice :
    (∀ r ∈ [charge 86411 "a", charge 86421 "b"],
      r.now < dayAndHalf.endTime ∧ planned r.plans dayAndHalf = true) ∧
    world.db.subs.find 1 = some dayAndHalf ∧ world.db.uses 1 = [] ∧
    (dayAndHalf.period .daily).resetTime = boundary utc dayAndHalf.startTime .daily 1 ∧
    (exec (step utc) world [charge 86411 "a", charge 86421 "b"]).map (fun w ↦
      (clearings (boundary utc 1 .daily) 1 (w.db.touches 1 .daily),
        charged (boundary utc 1 .daily) 1 (w.db.touches 1 .daily))) = some (2, 200) ∧
    (dayAndHalf.period .daily).amount < 200 := by
  decide +kernel

open Example in
theorem window_within_limit_dayAndHalf :
    ∃ w', exec (step utc) world [charge 86411 "a"] = some w' ∧
      clearings (boundary utc 1 .daily) 1 (w'.db.touches 1 .daily) ≤ 1 ∧
      charged (boundary utc 1 .daily) 1 (w'.db.touches 1 .daily) ≤ 100 := by
  obtain ⟨w', hrun⟩ : ∃ w', exec (step utc) world [charge 86411 "a"] = some w' :=
    Option.isSome_iff_exists.1 (by decide +kernel)
  refine ⟨w', hrun, ?_⟩
  have hfind : world.db.subs.find 1 = some dayAndHalf := by decide
  have hok : Guarded (step utc) (ResetsInTime utc 1 .daily) world [charge 86411 "a"] := by
    refine ⟨fun row hrow _ ↦ ?_, fun _ _ ↦ trivial⟩
    obtain rfl : dayAndHalf = row := Option.some.inj (hfind.symm.trans hrow)
    exact ⟨by decide, by decide +kernel⟩
  exact window_within_limit (p := .daily) hfind rfl (by decide) (by decide) (by decide)
    (fun _ ↦ .inr ⟨0, by decide⟩) hok hrun 1

end Moligate.Subscription
