import Mathlib.Data.Fintype.Basic
import Moligate.TwoFactor.Model

namespace Moligate.TwoFactor

open Foundation Option System

variable {env : Env} {w w' : World} {stage stage' : Stage} {a : Action} {copy : TwoFA}

structure RedeemedOnce (w : World) : Prop where
  nodup : w.redeemed.Nodup
  used : ∀ id ∈ w.redeemed, ∃ bc, w.codes.find id = some bc ∧ bc.isUsed = true

theorem perform_codes (h : perform env a w stage = some (w', stage')) :
    w'.codes = w.codes ∧ w'.redeemed = w.redeemed ∨
      ∃ copy codeId, w' = (redeem w copy codeId).1 := by
  cases a with
  | tick now =>
    obtain ⟨-, h⟩ := ite_none_right_eq_some.1 h
    cases h
    exact .inl ⟨rfl, rfl⟩
  | attempt attempt =>
    cases stage with
    | idle result => cases h; exact .inl ⟨rfl, rfl⟩
    | _ => cases h
  | next =>
    cases stage with
    | idle result => cases h
    | lockTest | swap | save =>
      left
      obtain rfl := congrArg Prod.fst (some.inj h)
      simp only [lockTest, swap, updateUsageState]
      split <;> exact ⟨rfl, rfl⟩
    | validate copy attempt =>
      left
      obtain rfl := congrArg Prod.fst (some.inj h)
      cases attempt <;> rw [validate] <;> split
      iterate 3 exact ⟨rfl, rfl⟩
      split <;> exact ⟨rfl, rfl⟩
    | redeem copy codeId => exact .inr ⟨copy, codeId, (congrArg Prod.fst (some.inj h)).symm⟩
    | increment | current => cases h; exact .inl ⟨rfl, rfl⟩
  | fail e =>
    cases stage with
    | idle | lockTest | current => cases h
    | validate copy attempt =>
      cases attempt with
      | totp code => cases h
      | backup code => cases h; exact .inl ⟨rfl, rfl⟩
    | _ => cases h; exact .inl ⟨rfl, rfl⟩

theorem redeem_cases (w : World) (copy : TwoFA) (codeId : ℤ) :
    redeem w copy codeId = wrongCode w copy ∨
      ∃ bc, w.codes.find codeId = some bc ∧ bc.isUsed = false ∧
        redeem w copy codeId = rightCode { w with
          codes := w.codes.save { bc with isUsed := true, usedAt := some w.clock }
          redeemed := w.redeemed ++ [codeId] } copy := by
  cases hfind : w.codes.find codeId with
  | none => left; simp [redeem, hfind]
  | some bc =>
    cases hused : bc.isUsed with
    | true => left; simp [redeem, hfind, hused]
    | false => exact .inr ⟨bc, rfl, hused, by simp [redeem, hfind, hused]⟩

theorem RedeemedOnce.redeem (h : RedeemedOnce w) (copy : TwoFA) (codeId : ℤ) :
    RedeemedOnce (redeem w copy codeId).1 := by
  rcases redeem_cases w copy codeId with heq | ⟨bc, hfind, hunused, heq⟩
  · rw [heq]
    exact { h with }
  rw [heq]
  have hid := Table.key_of_find hfind
  have hnew : codeId ∉ w.redeemed := by
    intro hmem
    obtain ⟨bc', hbc', hused⟩ := h.used codeId hmem
    obtain rfl := some.inj (hfind.symm.trans hbc')
    rw [hunused] at hused
    cases hused
  refine ⟨List.concat_eq_append ▸ h.nodup.concat hnew, fun id hmem ↦ ?_⟩
  by_cases hcode : id = codeId
  · rw [← hid] at hfind
    refine ⟨{ bc with isUsed := true, usedAt := some w.clock }, ?_, rfl⟩
    rw [hcode, ← hid]
    exact Table.find_save_self (r := { bc with isUsed := true, usedAt := some w.clock }) hfind
  · have hold : id ∈ w.redeemed :=
      (List.mem_append.1 hmem).resolve_right fun hm ↦ hcode (List.mem_singleton.1 hm)
    obtain ⟨bc', hbc', hused⟩ := h.used id hold
    refine ⟨bc', (Table.find_save_of_ne fun hk ↦ hcode ?_).trans hbc', hused⟩
    exact hk.trans hid

theorem RedeemedOnce.perform (h : RedeemedOnce w)
    (hstep : perform env a w stage = some (w', stage')) : RedeemedOnce w' := by
  rcases perform_codes hstep with ⟨hcodes, hredeemed⟩ | ⟨copy, codeId, rfl⟩
  · exact ⟨hredeemed ▸ h.nodup, fun id hid ↦ hcodes ▸ h.used id (hredeemed ▸ hid)⟩
  · exact h.redeem copy codeId

section

def Stage.Busy : Stage → Bool
  | .idle _ | .lockTest _ _ => false
  | _ => true

variable {τ : Type} [DecidableEq τ]

/-- An attempt that is about to check a code has the lock of the row, and no other attempt is busy;
the updates that count a wrong code do not fail. -/
def Careful (c : Config World τ Stage) (a : τ × Action) : Prop :=
  match c.thread a.1, a.2 with
  | .lockTest copy _, .next => copy.isLocked c.shared.clock = false →
      copy.lockedUntil = c.shared.row.lockedUntil ∧ ∀ t ≠ a.1, (c.thread t).Busy = false
  | .increment _ _, .fail _ => False
  | .swap _ _ _ _, .fail _ => False
  | _, _ => True

/-- Fewer than `MaxFailAttempts` wrong codes were checked since the last success, or the lock that
the last of them has set is over. -/
def Passed.Bounded (x : Passed) : Prop :=
  x.wrong < maxFailAttempts ∨
    ∃ lockedUntil, x.lockedUntil = some lockedUntil ∧ lockedUntil ≤ x.time ∧
      x.lastWrong + lockoutDuration ≤ lockedUntil

structure Recorded (w : World) : Prop where
  passed : ∀ x ∈ w.passed, x.Bounded
  removed : ∀ r ∈ w.removed, r.lockedUntil ≤ r.time
  nonneg : 0 ≤ w.row.failedAttempts

structure Calm (w : World) : Prop where
  counted : w.wrong ≤ w.row.failedAttempts
  locked : maxFailAttempts ≤ w.wrong →
    ∃ lockedUntil, w.row.lockedUntil = some lockedUntil ∧ w.lastWrong + lockoutDuration ≤ lockedUntil

structure Uncounted (w : World) (now : ℤ) : Prop where
  counted : w.wrong ≤ w.row.failedAttempts + 1
  lastWrong : w.lastWrong ≤ now
  unlocked : w.row.isLocked now = false

def Stage.Holds (w : World) : Stage → Prop
  | .idle _ => True
  | .lockTest copy _ => copy.id = w.row.id
  | .validate copy _ => copy.id = w.row.id ∧ Calm w ∧ w.row.isLocked w.clock = false
  | .redeem copy _ => copy.id = w.row.id ∧ Calm w ∧ w.row.isLocked w.clock = false
  | .increment copy retries => copy.id = w.row.id ∧ Uncounted w w.clock ∧ 0 < retries
  | .current _ row _ => row = w.row ∧ Uncounted w w.clock
  | .swap _ row now _ => row = w.row ∧ Uncounted w now ∧ now ≤ w.clock
  | .save copy => copy.id = w.row.id ∧ copy.failedAttempts = 0 ∧ copy.lockedUntil = none ∧
      w.wrong ≤ 0 ∧ w.row.isLocked w.clock = false

theorem isLocked_mono {t : TwoFA} {now now' : ℤ} (h : t.isLocked now = false) (hle : now ≤ now') :
    t.isLocked now' = false := by
  simp only [TwoFA.isLocked, any_eq_false, decide_eq_false_iff_not, not_lt] at h ⊢
  exact fun lockedUntil hlock ↦ le_trans (h lockedUntil hlock) hle

theorem Recorded.write {row : TwoFA} (h : Recorded w) (hunlocked : w.row.isLocked w.clock = false)
    (hrow : 0 ≤ row.failedAttempts) : Recorded (w.write row) := by
  refine ⟨h.passed, fun r hr ↦ ?_, hrow⟩
  rcases List.mem_append.1 hr with hr | hr
  · exact h.removed r hr
  split at hr
  · cases hr
  obtain ⟨lockedUntil, hlock, rfl⟩ := List.mem_map.1 hr
  simpa [TwoFA.isLocked, mem_toList.1 hlock] using hunlocked

structure Leaves (w : World) (out : World × Stage) : Prop where
  recorded : Recorded out.1
  id : out.1.row.id = w.row.id
  holds : out.2.Holds out.1
  calm : out.2.Busy = false → Calm out.1

theorem leaves_wrongCode (h : Recorded w) (hid : copy.id = w.row.id) (hne : w.row.id ≠ 0)
    (hcalm : Calm w) (hunlocked : w.row.isLocked w.clock = false) : Leaves w (wrongCode w copy) := by
  rw [wrongCode, if_neg (hid ▸ hne)]
  refine ⟨{ h with }, rfl, ⟨hid, ⟨?_, le_rfl, hunlocked⟩, by decide⟩, nofun⟩
  exact Int.add_le_add_right hcalm.counted 1

theorem leaves_rightCode (h : Recorded w) (hid : copy.id = w.row.id)
    (hunlocked : w.row.isLocked w.clock = false) : Leaves w (rightCode w copy) :=
  ⟨{ h with }, rfl, ⟨hid, rfl, rfl, le_rfl, hunlocked⟩, nofun⟩

theorem leaves_validate {attempt : Attempt} (h : Recorded w) (hne : w.row.id ≠ 0)
    (hid : copy.id = w.row.id) (hcalm : Calm w) (hunlocked : w.row.isLocked w.clock = false) :
    Leaves w (validate env w copy attempt) := by
  cases attempt with
  | totp code =>
    rw [validate]
    split
    · exact leaves_rightCode h hid hunlocked
    · exact leaves_wrongCode h hid hne hcalm hunlocked
  | backup code =>
    rw [validate]
    split
    · exact ⟨h, rfl, trivial, fun _ ↦ hcalm⟩
    split
    · exact ⟨h, rfl, ⟨hid, hcalm, hunlocked⟩, fun _ ↦ hcalm⟩
    · exact leaves_wrongCode h hid hne hcalm hunlocked

theorem leaves_redeem {codeId : ℤ} (h : Recorded w) (hne : w.row.id ≠ 0) (hid : copy.id = w.row.id)
    (hcalm : Calm w) (hunlocked : w.row.isLocked w.clock = false) :
    Leaves w (redeem w copy codeId) := by
  rcases redeem_cases w copy codeId with heq | ⟨bc, -, -, heq⟩
  · rw [heq]
    exact leaves_wrongCode h hid hne hcalm hunlocked
  · rw [heq]
    have hleaves := leaves_rightCode (w := { w with
      codes := w.codes.save { bc with isUsed := true, usedAt := some w.clock }
      redeemed := w.redeemed ++ [codeId] }) { h with } hid hunlocked
    exact { hleaves with }

variable {c c' : Config World τ Stage} {t : τ}

structure Invariant (c : Config World τ Stage) : Prop where
  recorded : Recorded c.shared
  id : c.shared.row.id ≠ 0
  holds : ∀ t, (c.thread t).Holds c.shared
  alone : ∀ t t', (c.thread t).Busy = true → (c.thread t').Busy = true → t = t'
  calm : (∀ t, (c.thread t).Busy = false) → Calm c.shared

theorem Stage.Holds.of_not_busy (h : stage.Holds w) (hbusy : stage.Busy = false)
    (hid : w'.row.id = w.row.id) : stage.Holds w' := by
  cases stage with
  | idle result => trivial
  | lockTest copy attempt => exact Eq.trans h hid.symm
  | _ => cases hbusy

theorem Stage.Holds.tick {now : ℤ} (h : stage.Holds w) (hnow : w.clock ≤ now) :
    stage.Holds { w with clock := now } := by
  cases stage with
  | idle result => trivial
  | lockTest copy attempt => exact h
  | validate | redeem => exact ⟨h.1, { h.2.1 with }, isLocked_mono h.2.2 hnow⟩
  | increment copy retries =>
    obtain ⟨hid, huncounted, hretries⟩ := h
    exact ⟨hid, ⟨huncounted.counted, le_trans huncounted.lastWrong hnow,
      isLocked_mono huncounted.unlocked hnow⟩, hretries⟩
  | current copy row retries =>
    obtain ⟨hrow, huncounted⟩ := h
    exact ⟨hrow, huncounted.counted, le_trans huncounted.lastWrong hnow,
      isLocked_mono huncounted.unlocked hnow⟩
  | swap copy row now' retries => exact ⟨h.1, { h.2.1 with }, le_trans h.2.2 hnow⟩
  | save copy =>
    obtain ⟨hid, hreset, hlock, hwrong, hunlocked⟩ := h
    exact ⟨hid, hreset, hlock, hwrong, isLocked_mono hunlocked hnow⟩

omit [DecidableEq τ] in
theorem Invariant.quiet (hI : Invariant c) (hbusy : (c.thread t).Busy = true) :
    ∀ t' ≠ t, (c.thread t').Busy = false := fun t' hne ↦
  Bool.eq_false_iff.2 fun hbusy' ↦ hne (hI.alone t' t hbusy' hbusy)

theorem Invariant.of_leaves (hI : Invariant c) (hquiet : ∀ t' ≠ t, (c.thread t').Busy = false)
    (hleaves : Leaves c.shared (c'.shared, c'.thread t))
    (hothers : ∀ t' ≠ t, c'.thread t' = c.thread t') : Invariant c' := by
  have hmine {t' : τ} (hbusy' : (c'.thread t').Busy = true) : t' = t := by
    by_contra hne
    rw [hothers t' hne, hquiet t' hne] at hbusy'
    cases hbusy'
  refine ⟨hleaves.recorded, ?_, fun t' ↦ ?_, fun t₁ t₂ h₁ h₂ ↦ (hmine h₁).trans (hmine h₂).symm,
    fun hall ↦ hleaves.calm (hall t)⟩
  · exact hleaves.id.trans_ne hI.id
  · by_cases hne : t' = t
    · exact hne ▸ hleaves.holds
    · rw [hothers t' hne]
      exact (hI.holds t').of_not_busy (hquiet t' hne) hleaves.id

theorem Invariant.of_idle (hI : Invariant c) (hbusy : (c.thread t).Busy = false)
    (hout : (c.shared, stage) = (c'.shared, c'.thread t)) (hholds : stage.Holds c.shared)
    (hbusy' : stage.Busy = false) (hothers : ∀ t' ≠ t, c'.thread t' = c.thread t') :
    Invariant c' := by
  obtain ⟨hshared, rfl⟩ := Prod.mk.inj hout
  have hsame (t' : τ) : (c'.thread t').Busy = (c.thread t').Busy := by
    by_cases hne : t' = t
    · rw [hne, hbusy', hbusy]
    · rw [hothers t' hne]
  refine ⟨hshared ▸ hI.recorded, hshared ▸ hI.id, fun t' ↦ ?_, fun t₁ t₂ h₁ h₂ ↦ ?_,
    fun hall ↦ hshared ▸ hI.calm fun t' ↦ hsame t' ▸ hall t'⟩
  · rw [← hshared]
    by_cases hne : t' = t
    · exact hne ▸ hholds
    · exact hothers t' hne ▸ hI.holds t'
  · exact hI.alone t₁ t₂ (hsame t₁ ▸ h₁) (hsame t₂ ▸ h₂)

omit [DecidableEq τ] in
theorem Invariant.tick {now : ℤ} (hI : Invariant c) (hnow : c.shared.clock ≤ now)
    (hshared : c'.shared = { c.shared with clock := now })
    (hthread : ∀ t, c'.thread t = c.thread t) : Invariant c' := by
  obtain ⟨w', thread'⟩ := c'
  obtain rfl : w' = _ := hshared
  obtain rfl : thread' = c.thread := funext hthread
  exact ⟨⟨hI.recorded.passed, hI.recorded.removed, hI.recorded.nonneg⟩, hI.id,
    fun t ↦ (hI.holds t).tick hnow, hI.alone, fun hall ↦ { hI.calm hall with }⟩

theorem leaves_perform {out : World × Stage} (hrecorded : Recorded w) (hne : w.row.id ≠ 0)
    (h : stage.Holds w) (hbusy : stage.Busy = true)
    (hout : perform env .next w stage = some out) : Leaves w out := by
  cases stage with
  | idle | lockTest => cases hbusy
  | validate copy attempt =>
    exact some.inj hout ▸ leaves_validate hrecorded hne h.1 h.2.1 h.2.2
  | redeem copy codeId =>
    exact some.inj hout ▸ leaves_redeem hrecorded hne h.1 h.2.1 h.2.2
  | increment copy retries =>
    obtain ⟨hid, huncounted, hretries⟩ := h
    cases hout
    obtain ⟨n, rfl⟩ := Nat.exists_eq_succ_of_ne_zero (Nat.ne_of_gt hretries)
    rw [readCurrent, if_pos hid.symm]
    exact ⟨hrecorded, rfl, ⟨rfl, huncounted⟩, nofun⟩
  | current copy row retries =>
    obtain ⟨rfl, huncounted⟩ := h
    cases hout
    have hswap : testCurrent w copy w.row retries = .swap copy w.row w.clock retries :=
      if_neg (Bool.eq_false_iff.1 huncounted.unlocked)
    rw [hswap]
    exact ⟨hrecorded, rfl, ⟨rfl, huncounted, le_rfl⟩, nofun⟩
  | swap copy row now retries =>
    obtain ⟨rfl, huncounted, hnow⟩ := h
    cases hout
    rw [swap, if_pos ⟨rfl, rfl, huncounted.unlocked⟩]
    have hunlocked := isLocked_mono huncounted.unlocked hnow
    refine ⟨hrecorded.write hunlocked (Int.add_nonneg hrecorded.nonneg (by decide)), rfl, trivial,
      fun _ ↦ ⟨huncounted.counted, fun hmax ↦ ?_⟩⟩
    have hreached : maxFailAttempts ≤ w.row.failedAttempts + 1 := le_trans hmax huncounted.counted
    refine ⟨now + lockoutDuration, if_pos hreached, ?_⟩
    exact Int.add_le_add_right huncounted.lastWrong lockoutDuration
  | save copy =>
    obtain ⟨hid, hreset, -, hwrong, hunlocked⟩ := h
    cases hout
    rw [updateUsageState, if_pos ⟨hid ▸ hne, hid.symm⟩]
    refine ⟨hrecorded.write hunlocked (le_of_eq hreset.symm), rfl, trivial,
      fun _ ↦ ⟨hreset ▸ hwrong, fun hmax ↦ ?_⟩⟩
    exact absurd (le_trans hmax hwrong) (by decide)

theorem leaves_fail {out : World × Stage} {e : String} (hrecorded : Recorded w) (h : stage.Holds w)
    (hcounting : ∀ copy retries, stage ≠ .increment copy retries)
    (hswapping : ∀ copy row now retries, stage ≠ .swap copy row now retries)
    (hout : perform env (.fail e) w stage = some out) : stage.Busy = true ∧ Leaves w out := by
  cases stage with
  | idle | lockTest | current => cases hout
  | increment copy retries => exact absurd rfl (hcounting copy retries)
  | swap copy row now retries => exact absurd rfl (hswapping copy row now retries)
  | validate copy attempt =>
    cases attempt with
    | totp code => cases hout
    | backup code =>
      cases hout
      exact ⟨rfl, hrecorded, rfl, trivial, fun _ ↦ h.2.1⟩
  | redeem copy codeId =>
    cases hout
    exact ⟨rfl, hrecorded, rfl, trivial, fun _ ↦ h.2.1⟩
  | save copy =>
    cases hout
    obtain ⟨-, -, -, hwrong, -⟩ := h
    exact ⟨rfl, hrecorded, rfl, trivial, fun _ ↦ ⟨le_trans hwrong hrecorded.nonneg,
      fun hmax ↦ absurd (le_trans hmax hwrong) (by decide)⟩⟩

theorem Invariant.lockTest {attempt : Attempt} (hI : Invariant c)
    (hstage : c.thread t = .lockTest copy attempt)
    (hfresh : copy.isLocked c.shared.clock = false →
      copy.lockedUntil = c.shared.row.lockedUntil ∧ ∀ t' ≠ t, (c.thread t').Busy = false)
    (hout : lockTest env c.shared copy attempt = (c'.shared, c'.thread t))
    (hothers : ∀ t' ≠ t, c'.thread t' = c.thread t') : Invariant c' := by
  have hid : copy.id = c.shared.row.id := by
    have h := hI.holds t
    rwa [hstage] at h
  have hbusy : (c.thread t).Busy = false := by rw [hstage]; rfl
  cases hlocked : copy.isLocked c.shared.clock with
  | true =>
    rw [TwoFactor.lockTest, if_pos hlocked] at hout
    exact hI.of_idle hbusy hout trivial rfl hothers
  | false =>
    rw [TwoFactor.lockTest, if_neg (Bool.eq_false_iff.1 hlocked)] at hout
    obtain ⟨hlock, hquiet⟩ := hfresh hlocked
    have hcalm : Calm c.shared := hI.calm fun t' ↦ by
      by_cases hne : t' = t
      · rw [hne, hbusy]
      · exact hquiet t' hne
    have hunlocked : c.shared.row.isLocked c.shared.clock = false := by
      rwa [TwoFA.isLocked, ← hlock]
    -- The copy has the lock of the row, so the test has seen it.
    have hbounded : Passed.Bounded ⟨c.shared.wrong, c.shared.lastWrong, c.shared.row.lockedUntil,
        c.shared.clock⟩ := by
      rcases lt_or_ge c.shared.wrong maxFailAttempts with hlt | hge
      · exact .inl hlt
      · obtain ⟨lockedUntil, hsome, hlast⟩ := hcalm.locked hge
        exact .inr ⟨lockedUntil, hsome, by simpa [TwoFA.isLocked, hsome] using hunlocked, hlast⟩
    refine hI.of_leaves hquiet ?_ hothers
    rw [← hout]
    refine ⟨⟨fun x hx ↦ ?_, hI.recorded.removed, hI.recorded.nonneg⟩, rfl,
      ⟨hid, { hcalm with }, hunlocked⟩, nofun⟩
    rcases List.mem_append.1 hx with hx | hx
    · exact hI.recorded.passed x hx
    · exact List.mem_singleton.1 hx ▸ hbounded

theorem Invariant.step {a : τ × Action} (hI : Invariant c) (hcareful : Careful c a)
    (hstep : step env c a = some c') : Invariant c' := by
  obtain ⟨t, action⟩ := a
  obtain ⟨hout, hothers⟩ := Config.step_eq_some hstep
  cases action with
  | tick now =>
    obtain ⟨hnow, hout⟩ := ite_none_right_eq_some.1 hout
    obtain ⟨hshared, hthread⟩ := Prod.mk.inj (some.inj hout)
    refine hI.tick hnow hshared.symm fun t' ↦ ?_
    by_cases hne : t' = t
    · rw [hne, hthread]
    · exact hothers t' hne
  | attempt attempt =>
    cases hstage : c.thread t with
    | idle result =>
      rw [hstage] at hout
      exact hI.of_idle (by rw [hstage]; rfl) (some.inj hout) rfl rfl hothers
    | _ => rw [hstage] at hout; cases hout
  | next =>
    by_cases hbusy : (c.thread t).Busy = true
    · exact hI.of_leaves (hI.quiet hbusy)
        (leaves_perform hI.recorded hI.id (hI.holds t) hbusy hout) hothers
    cases hstage : c.thread t with
    | idle result => rw [hstage] at hout; cases hout
    | lockTest copy attempt =>
      rw [hstage] at hout
      have hfresh : Careful c (t, .next) := hcareful
      rw [Careful, hstage] at hfresh
      exact hI.lockTest hstage hfresh (some.inj hout) hothers
    | _ => exact absurd (hstage ▸ rfl) hbusy
  | fail e =>
    have hcounting (copy : TwoFA) (retries : ℕ) : c.thread t ≠ .increment copy retries := by
      intro heq
      rw [Careful, heq] at hcareful
      exact hcareful
    have hswapping (copy row : TwoFA) (now : ℤ) (retries : ℕ) :
        c.thread t ≠ .swap copy row now retries := by
      intro heq
      rw [Careful, heq] at hcareful
      exact hcareful
    obtain ⟨hbusy, hleaves⟩ := leaves_fail hI.recorded (hI.holds t) hcounting hswapping hout
    exact hI.of_leaves (hI.quiet hbusy) hleaves hothers

structure Initial (w : World) : Prop where
  id : w.row.id ≠ 0
  nonneg : 0 ≤ w.row.failedAttempts
  wrong : w.wrong = 0
  passed : w.passed = []
  removed : w.removed = []
  redeemed : w.redeemed = []

def idle (w : World) : Config World τ Stage := ⟨w, fun _ ↦ .idle (.ok false)⟩

omit [DecidableEq τ] in
theorem Initial.invariant (h : Initial w) : Invariant (idle w : Config World τ Stage) := by
  refine ⟨⟨?_, ?_, h.nonneg⟩, h.id, fun _ ↦ trivial, fun _ _ hbusy ↦ ?_, fun _ ↦ ⟨?_, ?_⟩⟩
  · simp [idle, h.passed]
  · simp [idle, h.removed]
  · cases hbusy
  · exact h.wrong.trans_le h.nonneg
  · intro hmax
    exact absurd (hmax.trans_eq h.wrong) (by decide)

theorem Initial.redeemedOnce (h : Initial w) : RedeemedOnce w := by
  constructor <;> simp [h.redeemed]

variable {as : List (τ × Action)}

/-- No backup code makes two calls return true. In a careful run no code is checked when the last
`MaxFailAttempts` or more since a success were wrong, until the lock that they have set is over, and
no lock is removed before. -/
theorem guessing_bounded (hstart : Initial w) (hrun : exec (step env) (idle w) as = some c) :
    c.shared.redeemed.Nodup ∧
      (Guarded (step env) Careful (idle w) as →
        (∀ x ∈ c.shared.passed, x.wrong < maxFailAttempts ∨
          ∃ lockedUntil, x.lockedUntil = some lockedUntil ∧ lockedUntil ≤ x.time ∧
            x.lastWrong + lockoutDuration ≤ lockedUntil) ∧
        ∀ r ∈ c.shared.removed, r.lockedUntil ≤ r.time) := by
  constructor
  · have honce : RedeemedOnce c.shared := exec_invariant (I := fun c ↦ RedeemedOnce c.shared)
      (fun _ _ _ h _ hstep ↦ h.perform (Config.step_eq_some hstep).1) hstart.redeemedOnce
      (guarded_of_forall fun _ _ ↦ trivial) hrun
    exact honce.nodup
  · intro hguard
    have hI : Invariant c := exec_invariant (fun _ _ _ hI hcareful hstep ↦ hI.step hcareful hstep)
      hstart.invariant hguard hrun
    exact ⟨hI.recorded.passed, hI.recorded.removed⟩

end

instance Careful.decidable {τ : Type} [Fintype τ] [DecidableEq τ] (c : Config World τ Stage)
    (a : τ × Action) : Decidable (Careful c a) := by
  unfold Careful
  split <;> infer_instance

def exampleEnv : Env := ⟨fun code _ _ ↦ code = "123456", fun code hash ↦ code = hash, id, fun _ ↦ ""⟩

def exampleWorld : World where
  clock := 0
  row := { id := 1, userId := 7, secret := "" }
  codes := ⟨[{ id := 4, userId := 7, codeHash := "ABCD-EFGH" }], by simp⟩

def wholeAttempt {τ : Type} (t : τ) (attempt : Attempt) (steps : ℕ) : List (τ × Action) :=
  (t, .attempt attempt) :: List.replicate steps (t, .next)

/-- Five wrong codes, a refused check and, after the lock, a backup code. -/
def exampleRun : List (Bool × Action) :=
  (List.replicate 5 (wholeAttempt true (.totp "000000") 5)).flatten ++
    wholeAttempt false (.totp "123456") 1 ++ [(false, .tick (400 * 1000000000))] ++
    wholeAttempt true (.backup "ABCD-EFGH") 4

theorem guessing_bounded_example :
    ∃ c, exec (step exampleEnv) (idle exampleWorld) exampleRun = some c ∧
      c.shared.redeemed = [4] ∧ c.shared.passed.length = 6 ∧
      (∀ x ∈ c.shared.passed, x.wrong < maxFailAttempts ∨
        ∃ lockedUntil, x.lockedUntil = some lockedUntil ∧ lockedUntil ≤ x.time ∧
          x.lastWrong + lockoutDuration ≤ lockedUntil) ∧
      ∀ r ∈ c.shared.removed, r.lockedUntil ≤ r.time := by
  have hguard : Guarded (step exampleEnv) Careful (idle exampleWorld) exampleRun := by
    decide +kernel
  have hrun : (exec (step exampleEnv) (idle exampleWorld) exampleRun).map
      (fun c ↦ (c.shared.redeemed, c.shared.passed.length)) = some ([4], 6) := by
    decide +kernel
  obtain ⟨c, hrun, hout⟩ := map_eq_some_iff.1 hrun
  obtain ⟨hredeemed, hpassed⟩ := Prod.mk.inj hout
  have hbounded := (guessing_bounded (by constructor <;> decide) hrun).2 hguard
  exact ⟨c, hrun, hredeemed, hpassed, hbounded.1, hbounded.2⟩

/-- Six attempts load the row before the first of them has failed: six wrong codes are checked at
once. A stale copy with the right code removes the lock of five failures at once. -/
theorem guessing_unbounded :
    (exec (step exampleEnv) (idle exampleWorld)
        ((List.finRange 6).map (fun t ↦ (t, .attempt (.totp "000000"))) ++
          (List.finRange 6).flatMap fun t ↦ [(t, .next), (t, .next)])).map
      (fun c ↦ c.shared.passed.map fun x ↦ (x.wrong, x.lockedUntil)) =
        some [(0, none), (1, none), (2, none), (3, none), (4, none), (5, none)] ∧
      (exec (step exampleEnv) (idle exampleWorld)
        ((false, .attempt (.totp "123456")) ::
          (List.replicate 5 (wholeAttempt true (.totp "000000") 5)).flatten ++
          [(false, .next), (false, .next), (false, .next)])).map
        (fun c ↦ (c.shared.removed, c.shared.clock)) = some ([⟨lockoutDuration, 0⟩], 0) := by
  decide +kernel

end Moligate.TwoFactor
