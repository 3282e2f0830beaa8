import Moligate.Sessions.Calls

namespace Moligate.Sessions

open Foundation Option Rows

inductive Drafted : Stage → Session → Session → Prop
  | revoked {v row s} : Drafted (.revokeCommit v s) row (row.revoke v.now v.reason)
  | advanced {deadline row s version a} :
      Drafted (.advanceCommit deadline s) row (row.advance version a)

inductive RowChange (rt : Runtime) : Stage → Option Session → Option Session → Prop
  | same {stage row} : RowChange rt stage row row
  | create {deadline s} : RowChange rt (.create deadline s) none (some s)
  | rotate {attempts r deadline s row} (hlive : row.isLive rt r.now)
      (hcurrent : row.refreshHash = r.presented) :
      RowChange rt (.rotateSwap attempts r deadline s) (some row)
        (some (row.rotate s.refreshHash r))
  | reuse {r s row} (hlive : row.isLive rt r.now) :
      RowChange rt (.reuseUpdate r s) (some row) (some (row.revoke r.now "refresh_reuse"))
  | commit {stage row row'} (hactive : row.status = .active) (h : Drafted stage row row') :
      RowChange rt stage (some row) (some row')

abbrev SessionRow := Rows Unit ℕ (Option Session)

variable {rt : Runtime} {w w' : World} {p q : ℕ} {a : Action} {stage stage' : Stage} {k : After}
  {t t' : SessionRow} {x : Option Session} {s : Session}

/-- The version of the row that a goroutine works on is the committed one until it is changed. -/
def OwnRow (p : ℕ) (t : SessionRow) (stage : Stage) : Prop :=
  ∀ x, t.own p () = some x → x = t.committed () ∨
    ∃ row row', t.committed () = some row ∧ row.status = .active ∧ x = some row' ∧
      Drafted stage row row'

structure Apart (p : ℕ) (t t' : SessionRow) : Prop where
  own : ∀ q ≠ p, t'.own q () = t.own q ()
  locked : ∀ q ≠ p, (t.own q ()).isSome → t'.committed () = t.committed ()

theorem Apart.refl : Apart p t t := ⟨fun _ _ ↦ rfl, fun _ _ _ ↦ rfl⟩

theorem OwnRow.stable (hne : p ≠ q) (h : OwnRow q t stage) (ha : Apart p t t') :
    OwnRow q t' stage := by
  intro x hx
  rw [ha.own q hne.symm] at hx
  rw [ha.locked q hne.symm (isSome_of_mem hx)]
  exact h x hx

def Stage.commits : Stage → Bool
  | .revokeCommit _ _ | .advanceCommit _ _ => true
  | _ => false

def Unchanged (p : ℕ) (t : SessionRow) : Prop := ∀ x, t.own p () = some x → x = t.committed ()

theorem OwnRow.unchanged (h : OwnRow p t stage) (hstage : stage.commits = false) :
    Unchanged p t := by
  intro x hx
  obtain hx | ⟨row, row', -, -, -, hdraft⟩ := h x hx
  · exact hx
  · cases hdraft <;> cases hstage

theorem Unchanged.ownRow (h : Unchanged p t) : OwnRow p t stage := fun x hx ↦ .inl (h x hx)

theorem Unchanged.read_eq (h : Unchanged p t) : t.read p () = t.committed () := by
  cases hown : t.own p () with
  | none => exact read_of_not_own hown
  | some x => rw [read_of_own hown, h x hown]

theorem Unchanged.row_eq (h : Unchanged p w.rows) : w.row p = w.rows.committed () := h.read_eq

structure RowStep (rt : Runtime) (p : ℕ) (t : SessionRow) (stage : Stage) (t' : SessionRow)
    (stage' : Stage) : Prop where
  own : OwnRow p t' stage'
  change : RowChange rt stage (t.committed ()) (t'.committed ())
  apart : Apart p t t'

theorem Unchanged.rowStep (h : Unchanged p t) : RowStep rt p t stage t stage' :=
  ⟨h.ownRow, .same, .refl⟩

section

theorem unchanged_rollback : Unchanged p (t.rollback p) :=
  fun _ hx ↦ nomatch own_rollback_self.symm.trans hx

theorem rowStep_rollback : RowStep rt p t stage (t.rollback p) stage' :=
  ⟨unchanged_rollback.ownRow, .same, fun _ hq ↦ own_rollback_other hq, fun _ _ _ ↦ rfl⟩

theorem apart_write (hfree : t.free p () = true) : Apart p t (t.write p () x) :=
  ⟨fun _ hq ↦ own_write_other hfree hq, fun _ _ _ ↦ rfl⟩

theorem unchanged_commit : Unchanged p (t.commit p) :=
  fun _ hx ↦ nomatch own_commit_self.symm.trans hx

@[simp] theorem committed_autocommit : ((t.write p () x).commit p).committed () = x :=
  read_of_own own_write_self

theorem rowStep_autocommit (hfree : t.free p () = true)
    (hchange : RowChange rt stage (t.committed ()) x) :
    RowStep rt p t stage ((t.write p () x).commit p) stage' := by
  refine ⟨unchanged_commit.ownRow, by rwa [committed_autocommit], ?_, ?_⟩
  · intro q hq
    rw [own_commit_other hq, own_write_other hfree hq]
  · intro q hq hown
    rw [own_eq_none_of_free hfree hq] at hown
    cases hown

theorem apart_commit : Apart p t (t.commit p) := by
  refine ⟨fun q hq ↦ own_commit_other hq, fun q hq hown ↦ ?_⟩
  exact read_of_not_own (own_eq_none_of_other (isSome_iff_ne_none.1 hown) hq)

theorem rowStep_commit (h : OwnRow p t stage) : RowStep rt p t stage (t.commit p) stage' := by
  refine ⟨unchanged_commit.ownRow, ?_, apart_commit⟩
  rw [committed_commit]
  cases hown : t.own p () with
  | none => exact read_of_not_own hown ▸ .same
  | some x =>
    rw [read_of_own hown]
    obtain rfl | ⟨row, row', hrow, hactive, rfl, hdraft⟩ := h x hown
    · exact .same
    · rw [hrow]
      exact .commit hactive hdraft

theorem rowStep_draft {row row' : Session} (hfree : t.free p () = true)
    (hrow : t.committed () = some row) (hactive : row.status = .active)
    (hdraft : Drafted stage' row row') :
    RowStep rt p t stage (t.write p () (some row')) stage' := by
  refine ⟨?_, .same, apart_write hfree⟩
  intro x hx
  rw [own_write_self, some.injEq] at hx
  exact .inr ⟨row, row', hrow, hactive, hx.symm, hdraft⟩

variable {out : World × Option Session}

/-- The lock, and the release when the row is not the one that was looked for. -/
theorem lockRow_spec (h : Unchanged p w.rows) (hlock : lockRow rt p w = some out) :
    ∃ rows, out = ({ w with rows }, w.rows.committed ()) ∧ ∀ stage stage',
      RowStep rt p w.rows stage rows stage' ∧
        RowStep rt p w.rows stage (rows.rollback p) stage' := by
  rw [lockRow, h.row_eq] at hlock
  split at hlock
  · split at hlock
    next hfree =>
      cases hlock
      have hapart := apart_write (x := w.rows.committed ()) hfree
      refine ⟨_, rfl, fun _ _ ↦ ⟨⟨fun x hx ↦ .inl ?_, .same, hapart⟩,
        unchanged_rollback.ownRow, .same, fun q hq ↦ ?_, fun _ _ _ ↦ rfl⟩⟩
      · rw [own_write_self, some.injEq] at hx
        exact hx.symm
      · rw [own_rollback_other hq]
        exact hapart.own q hq
    · cases hlock
  · cases hlock
    exact ⟨_, rfl, fun _ _ ↦ ⟨h.rowStep, rowStep_rollback⟩⟩

end

section

variable {d : ℤ} {r : Rotation} {v : Revocation}

section

variable (h : Unchanged p w.rows)
include h

theorem rowStep_resume {result : WriteResult} (hstep : k.resume p w result = (w', stage')) :
    RowStep rt p w.rows stage w'.rows stage' := by
  cases k with
  | revokeFenced v s =>
    obtain ⟨kind, now, reason⟩ := v
    cases kind <;> cases result <;> cases hstep <;>
      first | exact h.rowStep | exact rowStep_rollback
  | finished v =>
    obtain ⟨kind, now, reason⟩ := v
    cases kind <;> cases hstep <;> exact h.rowStep
  | _ => cases result <;> cases hstep <;> exact h.rowStep

theorem rowStep_rotateSwap {attempts : ℕ}
    (hstep : stepRotateSwap rt p w attempts r d s = some (w', stage')) :
    RowStep rt p w.rows (.rotateSwap attempts r d s) w'.rows stage' := by
  rw [stepRotateSwap] at hstep
  split at hstep
  next hfree =>
    split at hstep
    · cases hstep
      exact h.rowStep
    rename_i row hrow
    cases hstep
    rw [filter_eq_some_iff, h.row_eq] at hrow
    obtain ⟨hrow, hcond⟩ := hrow
    simp only [Bool.and_eq_true, decide_eq_true_eq] at hcond
    apply rowStep_autocommit hfree
    rw [hrow]
    exact .rotate hcond.1 hcond.2
  · cases hstep

theorem rowStep_reuseUpdate (hstep : stepReuseUpdate rt p w r s = some (w', stage')) :
    RowStep rt p w.rows (.reuseUpdate r s) w'.rows stage' := by
  rw [stepReuseUpdate] at hstep
  split at hstep
  next hfree =>
    split at hstep
    · cases hstep
      exact h.rowStep
    rename_i row hrow
    cases hstep
    rw [filter_eq_some_iff, h.row_eq] at hrow
    apply rowStep_autocommit hfree
    rw [hrow.1]
    exact .reuse hrow.2
  · cases hstep

theorem rowStep_create (hstep : stepCreate p w d s = some (w', stage')) :
    RowStep rt p w.rows (.create d s) w'.rows stage' := by
  rw [stepCreate] at hstep
  split at hstep
  next hfree =>
    split at hstep
    next hnone =>
      cases hstep
      apply rowStep_autocommit hfree
      rw [← h.row_eq, hnone]
      exact .create
    · cases hstep
      exact h.rowStep
  · cases hstep

theorem rowStep_revokeLock {candidate : Option Session}
    (hstep : stepRevokeLock rt p w v candidate = some (w', stage')) :
    RowStep rt p w.rows stage w'.rows stage' := by
  obtain ⟨out, hlock, hout⟩ := map_eq_some_iff.1 hstep
  obtain ⟨rows, rfl, hrows⟩ := lockRow_spec h hlock
  obtain ⟨hheld, hreleased⟩ := hrows stage stage'
  dsimp only at hout
  split at hout <;> split at hout <;> cases hout <;> first | exact hheld | exact hreleased

theorem rowStep_advanceLock {a : Advance} (hstep : stepAdvanceLock rt p w a d = some (w', stage')) :
    RowStep rt p w.rows stage w'.rows stage' := by
  obtain ⟨out, hlock, hout⟩ := map_eq_some_iff.1 hstep
  obtain ⟨rows, rfl, hrows⟩ := lockRow_spec h hlock
  obtain ⟨hheld, hreleased⟩ := hrows stage stage'
  dsimp only at hout
  split at hout <;> cases hout <;> first | exact hheld | exact hreleased

end

@[simp] theorem counted_now : v.counted.now = v.now := by
  unfold Revocation.counted
  split <;> rfl

@[simp] theorem counted_reason : v.counted.reason = v.reason := by
  unfold Revocation.counted
  split <;> rfl

theorem rowStep_revokeUpdate (h : Unchanged p w.rows)
    (hstep : stepRevokeUpdate p w v s = some (w', stage')) :
    RowStep rt p w.rows stage w'.rows stage' := by
  rw [stepRevokeUpdate] at hstep
  split at hstep
  next hfree =>
    split at hstep
    next row _ hrow =>
      cases hstep
      rw [filter_eq_some_iff, h.row_eq] at hrow
      refine rowStep_draft hfree hrow.1 (of_decide_eq_true hrow.2) ?_
      rw [← counted_now, ← counted_reason]
      exact .revoked
    all_goals
      cases hstep
      exact h.rowStep
  · cases hstep

theorem rowStep_advanceUpdate {a : Advance} (h : Unchanged p w.rows)
    (hstep : stepAdvanceUpdate p w a d s = some (w', stage')) :
    RowStep rt p w.rows stage w'.rows stage' := by
  rw [stepAdvanceUpdate] at hstep
  split at hstep
  next hfree =>
    split at hstep
    next row hrow =>
      cases hstep
      rw [filter_eq_some_iff, h.row_eq] at hrow
      simp only [Bool.and_eq_true, decide_eq_true_eq] at hrow
      exact rowStep_draft hfree hrow.1 hrow.2.1.1 .advanced
    · cases hstep
      exact rowStep_rollback
  · cases hstep

theorem rowStep_advanceStage (h : OwnRow p w.rows stage)
    (hstep : advanceStage rt p w stage = some (w', stage')) :
    RowStep rt p w.rows stage w'.rows stage' := by
  by_cases hcommits : stage.commits
  · cases stage <;> cases hcommits <;> cases hstep <;> exact rowStep_commit h
  replace h := h.unchanged (Bool.eq_false_iff.2 hcommits)
  cases stage with
  | idle => cases hstep
  | create => exact rowStep_create h hstep
  | rotate attempts => cases attempts <;> cases hstep <;> exact h.rowStep
  | rotateSwap => exact rowStep_rotateSwap h hstep
  | reuseUpdate => exact rowStep_reuseUpdate h hstep
  | revokeLock => exact rowStep_revokeLock h hstep
  | revokeUpdate => exact rowStep_revokeUpdate h hstep
  | advanceLock => exact rowStep_advanceLock h hstep
  | advanceUpdate => exact rowStep_advanceUpdate h hstep
  | write =>
    replace hstep := some.inj hstep
    unfold stepWrite at hstep
    split at hstep
    · exact rowStep_resume h hstep
    · cases hstep
      exact h.rowStep
  | script =>
    replace hstep := some.inj hstep
    unfold stepScript at hstep
    dsimp only at hstep
    split at hstep
    · cases hstep
      exact h.rowStep
    · exact rowStep_resume (w := { w with cache := (writeScript _ _ _ _).1 }) h hstep
  | complete | confirm => exact rowStep_resume h (some.inj hstep)
  | revokeCommit | advanceCommit => exact absurd rfl hcommits
  | _ => cases hstep; exact h.rowStep

def After.reuse : After → Option (Rotation × Session)
  | .reuseFenced r s => some (r, s)
  | _ => none

def Stage.reuse : Stage → Option (Rotation × Session)
  | .reuseUpdate r s => some (r, s)
  | .write _ _ k | .script _ _ _ k | .complete _ _ k | .confirm _ k => k.reuse
  | _ => none

theorem startCall_quiet (hstep : startCall rt p w a = some (w', stage')) :
    w'.rows = w.rows ∧ stage'.reuse = none := by
  cases a with
  | get =>
    change some (startGet w) = _ at hstep
    unfold startGet at hstep
    split at hstep <;> cases hstep <;> exact ⟨rfl, rfl⟩
  | create | rotate | revokeByRefreshHash | advance =>
    simp only [startCall, ite_none_right_eq_some, some.injEq] at hstep
    cases hstep.2
    exact ⟨rfl, rfl⟩
  | _ => cases hstep <;> exact ⟨rfl, rfl⟩

theorem perform_cases (h : perform rt p w a stage = some (w', stage')) :
    (a = .next ∧ advanceStage rt p w stage = some (w', stage')) ∨
    (a = .rollback ∧ stage.inTransaction = true ∧ w' = { w with rows := w.rows.rollback p } ∧
      stage' = .idle) ∨
    (stage = .idle ∧ startCall rt p w a = some (w', stage')) := by
  unfold perform at h
  split at h
  · exact .inl ⟨rfl, h⟩
  · split at h
    next hin =>
      cases h
      exact .inr (.inl ⟨rfl, hin, rfl, rfl⟩)
    · cases h
  · exact .inr (.inr ⟨rfl, h⟩)
  · cases h

theorem perform_rowStep (h : OwnRow p w.rows stage)
    (hstep : perform rt p w a stage = some (w', stage')) :
    RowStep rt p w.rows stage w'.rows stage' := by
  obtain ⟨-, hnext⟩ | ⟨-, -, rfl, -⟩ | ⟨rfl, hstart⟩ := perform_cases hstep
  · exact rowStep_advanceStage h hnext
  · exact rowStep_rollback
  · rw [(startCall_quiet hstart).1]
    exact (h.unchanged rfl).rowStep

end

def World.Revoked (w : World) : Prop :=
  ∃ s, w.rows.committed () = some s ∧ s.status = .revoked

theorem not_revoked_of_row (hrow : w.rows.committed () = some s) (hstatus : s.status = .active) :
    ¬ w.Revoked := by
  rintro ⟨s', hs', hrevoked⟩
  rw [hrow, some.injEq] at hs'
  rw [hs', hrevoked] at hstatus
  cases hstatus

theorem Session.isLive.active {now : ℤ} (h : s.isLive rt now) : s.status = .active := by
  simp only [Session.isLive, Bool.and_eq_true, decide_eq_true_eq] at h
  exact h.1.1

theorem RowChange.of_revoked {row : Session} {x y : Option Session} (h : RowChange rt stage x y)
    (hx : x = some row) (hrow : row.status = .revoked) : y = x := by
  cases h with
  | same => rfl
  | create => cases hx
  | rotate hlive | reuse hlive =>
    cases hx
    rw [Session.isLive, hrow] at hlive
    cases hlive
  | commit hactive =>
    cases hx
    rw [hrow] at hactive
    cases hactive

theorem RowStep.revoked (h : RowStep rt p w.rows stage w'.rows stage') (hw : w.Revoked) :
    w'.Revoked := by
  obtain ⟨s, hs, hstatus⟩ := hw
  exact ⟨s, (h.change.of_revoked hs hstatus).trans hs, hstatus⟩

end Moligate.Sessions
