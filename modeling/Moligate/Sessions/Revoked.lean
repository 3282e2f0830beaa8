import Moligate.Sessions.Denial

namespace Moligate.Sessions

open Foundation Option System Stage Rows

variable {rt : Runtime} {w w' w₁ : World} {p q : ℕ} {a : Action} {stage stage' : Stage} {k : After}

structure Affects (rt : Runtime) (p : ℕ) (w w' : World) : Prop where
  apart : Apart p w.rows w'.rows
  now : w.now ≤ w'.now
  limit : w.limit rt ≤ w'.limit rt
  marked : w.log.revokedAt.isSome → w'.log.revokedAt.isSome
  revoked : w.Revoked → w'.Revoked
  denied : Denied rt w → Denied rt w'

theorem Affects.millis (h : Affects rt p w w') : w.millis ≤ w'.millis := by
  have := h.now
  unfold World.millis
  omega

theorem Affects.horizon (h : Affects rt p w w') : w.horizon rt ≤ w'.horizon rt := by
  have := h.limit
  unfold World.horizon
  omega

/-- A step that may revoke the row, and leaves the cache and the clock. -/
structure Quiet (w w' : World) : Prop where
  now : w'.now = w.now
  cache : w'.cache = w.cache
  mark : w'.log.revokedAt = w.log.revokedAt ∨
    w'.log.revokedAt = some (w.log.revokedAt.getD w.now) ∧ w'.Revoked
  reported : w'.log.reported = w.log.reported

theorem Quiet.limit (h : Quiet w w') : w'.limit rt = w.limit rt := by
  obtain hmark | ⟨hmark, -⟩ := h.mark
  · rw [World.limit, World.limit, hmark, h.now]
  · rw [World.limit, World.limit, hmark, getD_some]

theorem Quiet.affects (h : Quiet w w') (hrow : RowStep rt p w.rows stage w'.rows stage') :
    Affects rt p w w' := by
  have hmarked : w.log.revokedAt.isSome → w'.log.revokedAt.isSome := by
    intro hsome
    obtain hmark | ⟨hmark, -⟩ := h.mark
    · rwa [hmark]
    · rw [hmark]
      rfl
  refine ⟨hrow.apart, le_of_eq h.now.symm, le_of_eq h.limit.symm, hmarked, hrow.revoked, ?_⟩
  intro hdenied
  refine ⟨hmarked hdenied.revoked, ?_⟩
  rw [World.horizon, h.limit, World.millis, h.now, h.cache]
  exact hdenied.barred

theorem Quiet.sound (h : Quiet w w') (hS : Sound rt w)
    (hrow : RowStep rt p w.rows stage w'.rows stage') : Sound rt w' := by
  constructor
  · intro t ht
    rw [h.now]
    obtain hmark | ⟨hmark, hrevoked⟩ := h.mark
    · rw [hmark] at ht
      exact ⟨(hS.revoked t ht).1, hrow.revoked (hS.revoked t ht).2⟩
    · rw [hmark, some.injEq] at ht
      refine ⟨?_, hrevoked⟩
      cases hlog : w.log.revokedAt with
      | none =>
        rw [hlog, getD_none] at ht
        omega
      | some t' =>
        rw [hlog, getD_some] at ht
        exact ht ▸ (hS.revoked t' hlog).1
  · intro hreported
    rw [h.reported] at hreported
    exact (h.affects hrow).denied (hS.reported hreported)

def After.isFinal : After → Bool
  | .finished v => v.kind ≠ .all false
  | .reuseFinished _ => true
  | _ => false

def After.Holds (rt : Runtime) (w : World) : After → Prop
  | .got late _ => late = false
  | .revokeFenced v _ => v.kind = .all true → Denied rt w
  | k => k.isFinal → w.log.revokedAt.isSome

def World.SeesRevoked (p : ℕ) (w : World) : Prop := ∃ s, w.row p = some s ∧ s.status = .revoked

def Stage.Holds (rt : Runtime) (p : ℕ) (w : World) : Stage → Prop
  | .getEntry late entry => late = true → entry.status ≠ .active
  | .getMiss late => late = true → Denied rt w
  | .getQuery late deadline => (late = true → Denied rt w) ∧ deadline ≤ w.now + rt.cacheTTL
  | .getLoaded late deadline s =>
    s.status = .active → late = false ∧ deadline ≤ w.limit rt
  | .returned late => late = false
  | .create deadline _ | .rotateQuery _ _ deadline | .rotateSwap _ _ deadline _
  | .advanceLock _ deadline | .advanceUpdate _ deadline _ => deadline ≤ w.now + rt.cacheTTL
  | .revokeQuery v | .revokeLock v _ | .revokeUpdate v _ => v.kind = .all true → Denied rt w
  | .revokeCommit v s => ∀ x, s = some x → x.status = .revoked ∧
      (v.kind ≠ .all false → w.SeesRevoked p ∨ w.log.revokedAt.isSome)
  | .report _ => Denied rt w
  | .advanceCommit deadline _ =>
    deadline ≤ w.now + rt.cacheTTL ∧ (w.rows.own p ()).isSome ∧ ¬ w.Revoked
  | .write entry deadline k =>
    k.Holds rt w ∧ (entry.status = .active →
      k.isFinal = false ∧ ∀ d, deadline = some d → d ≤ w.limit rt)
  | .script entry _ expiration k =>
    k.Holds rt w ∧ (entry.status = .active → k.isFinal = false ∧ expiration ≤ w.horizon rt) ∧
      (entry.status ≠ .active → Lasting rt w.millis expiration)
  | .complete _ _ k | .confirm _ k => k.Holds rt w ∧ (k.isFinal → Denied rt w)
  | _ => True

theorem After.Holds.mono (h : k.Holds rt w) (ha : Affects rt p w w') : k.Holds rt w' := by
  cases k with
  | got => exact h
  | revokeFenced => exact fun hkind ↦ ha.denied (h hkind)
  | _ => exact fun hfinal ↦ ha.marked (h hfinal)

theorem Lasting.mono {lifetime m m' : ℤ} (h : Lasting rt m lifetime) (hle : m ≤ m') :
    Lasting rt m' lifetime := by
  unfold Lasting at *
  omega

theorem SeesRevoked.stable (hne : p ≠ q) (h : w.SeesRevoked q) (ha : Affects rt p w w') :
    w'.SeesRevoked q := by
  obtain ⟨s, hs, hstatus⟩ := h
  cases hown : w.rows.own q () with
  | none =>
    rw [World.row, read_of_not_own hown] at hs
    obtain ⟨s', hs', hstatus'⟩ := ha.revoked ⟨s, hs, hstatus⟩
    have hown' := (ha.apart.own q hne.symm).trans hown
    exact ⟨s', (read_of_not_own hown').trans hs', hstatus'⟩
  | some x =>
    rw [World.row, read_of_own hown] at hs
    have hown' := (ha.apart.own q hne.symm).trans hown
    exact ⟨s, (read_of_own hown').trans hs, hstatus⟩

theorem Stage.Holds.stable (hne : p ≠ q) (h : stage.Holds rt q w) (ha : Affects rt p w w') :
    stage.Holds rt q w' := by
  have hnow := ha.now
  have hlimit := ha.limit
  cases stage with
  | getEntry | returned => exact h
  | getMiss => exact fun hlate ↦ ha.denied (h hlate)
  | getQuery => exact ⟨fun hlate ↦ ha.denied (h.1 hlate), by have := h.2; omega⟩
  | getLoaded => exact fun hactive ↦ ⟨(h hactive).1, le_trans (h hactive).2 hlimit⟩
  | create | rotateQuery | rotateSwap | advanceLock | advanceUpdate =>
    exact le_trans h (by omega)
  | revokeQuery | revokeLock | revokeUpdate => exact fun hkind ↦ ha.denied (h hkind)
  | revokeCommit =>
    intro x hx
    refine ⟨(h x hx).1, fun hkind ↦ ?_⟩
    exact ((h x hx).2 hkind).imp (fun hsees ↦ SeesRevoked.stable hne hsees ha) ha.marked
  | report => exact ha.denied h
  | advanceCommit =>
    obtain ⟨hdeadline, hown, hrow⟩ := h
    refine ⟨le_trans hdeadline (by omega), by rwa [ha.apart.own q hne.symm], ?_⟩
    rwa [World.Revoked, ha.apart.locked q hne.symm hown]
  | write =>
    exact ⟨h.1.mono ha, fun hactive ↦
      ⟨(h.2 hactive).1, fun d hd ↦ le_trans ((h.2 hactive).2 d hd) hlimit⟩⟩
  | script =>
    exact ⟨h.1.mono ha, fun hactive ↦ ⟨(h.2.1 hactive).1, le_trans (h.2.1 hactive).2 ha.horizon⟩,
      fun hdeny ↦ (h.2.2 hdeny).mono ha.millis⟩
  | complete | confirm => exact ⟨h.1.mono ha, fun hfinal ↦ ha.denied (h.2 hfinal)⟩
  | _ => trivial

structure Keeps (rt : Runtime) (p : ℕ) (w w' : World) (stage' : Stage) : Prop where
  sound : Sound rt w'
  affects : Affects rt p w w'
  holds : stage'.Holds rt p w'

section

variable {entry : CacheEntry} {deadline : Option ℤ} {expiration d : ℤ} {r : Rotation} {s : Session}
  {v : Revocation}

theorem Quiet.refl : Quiet w w := ⟨rfl, rfl, .inl rfl, rfl⟩

theorem Quiet.keeps (h : Quiet w w') (hS : Sound rt w)
    (hrow : RowStep rt p w.rows stage w'.rows stage') (hholds : stage'.Holds rt p w') :
    Keeps rt p w w' stage' :=
  ⟨h.sound hS hrow, h.affects hrow, hholds⟩

theorem stays (hS : Sound rt w) (hrow : RowStep rt p w.rows stage w.rows stage')
    (hholds : stage'.Holds rt p w) : Keeps rt p w w stage' :=
  Quiet.refl.keeps hS hrow hholds

def Stage.tombstone : Stage → Option CacheEntry
  | .script entry _ _ k => if k.isFinal then some entry else none
  | _ => none

/-- What is cached is not newer than the final tombstone. -/
def lands (w : World) (stage : Stage) : Bool :=
  stage.tombstone.all fun entry ↦ (liveAt w.millis w.cache).elim 0 CacheEntry.version ≤ entry.version

theorem Sound.deadline_le (hS : Sound rt w) (hrow : w.rows.committed () = some s)
    (hstatus : s.status = .active) (hd : d ≤ w.now + rt.cacheTTL) : d ≤ w.limit rt := by
  rwa [hS.limit_of_not_revoked (not_revoked_of_row hrow hstatus)]

variable {late : Bool}

theorem getQuery_holds (hS : Sound rt w) (hown : Unchanged p w.rows)
    (h : (getQuery late d).Holds rt p w) :
    ((w.row p).elim .idle (getLoaded late d)).Holds rt p w := by
  rw [hown.row_eq]
  cases hrow : w.rows.committed () with
  | none => trivial
  | some s =>
    intro hstatus
    refine ⟨?_, hS.deadline_le hrow hstatus h.2⟩
    exact Bool.eq_false_iff.2 fun hlate ↦
      not_revoked_of_row hrow hstatus ((h.1 hlate).row_revoked hS)

theorem quiet_rows {rows : SessionRow} : Quiet w { w with rows } := ⟨rfl, rfl, .inl rfl, rfl⟩

theorem quiet_commit : Quiet w (w.commit p) := by
  unfold World.commit
  dsimp only
  split
  next h =>
    obtain ⟨row, hrow, hstatus⟩ := (any_eq_true _ _).1 h
    exact ⟨rfl, rfl, .inr ⟨rfl, row, hrow, of_decide_eq_true hstatus⟩, rfl⟩
  · exact ⟨rfl, rfl, .inl rfl, rfl⟩

theorem tick_keeps {ns : ℕ} (hS : Sound rt w) :
    Keeps rt p w { w with now := w.now + ns } .idle := by
  have hnow : w.now ≤ w.now + ns := by omega
  have hmillis : w.millis ≤ World.millis { w with now := w.now + ns } := by
    unfold World.millis
    dsimp only
    omega
  have hlimit : w.limit rt ≤ World.limit rt { w with now := w.now + ns } := by
    unfold World.limit
    cases w.log.revokedAt with
    | none => simp only [getD_none]; omega
    | some t => exact le_rfl
  have hdenied : Denied rt w → Denied rt { w with now := w.now + ns } := by
    intro h
    refine ⟨h.revoked, ?_⟩
    obtain ⟨t, ht⟩ := isSome_iff_exists.1 h.revoked
    have hsame : World.horizon rt { w with now := w.now + ns } = w.horizon rt := by
      simp [World.horizon, World.limit, ht]
    rw [hsame]
    exact h.barred.mono hmillis
  refine ⟨⟨?_, fun h ↦ hdenied (hS.reported h)⟩, ⟨.refl, hnow, hlimit, id, id, hdenied⟩, trivial⟩
  intro t ht
  exact ⟨le_trans (hS.revoked t ht).1 hnow, (hS.revoked t ht).2⟩

section

variable (hS : Sound rt w) (hrow : RowStep rt p w.rows stage w'.rows stage')
include hS hrow

theorem resume_keeps {result : WriteResult} (hk : k.Holds rt w) (hfinal : k.isFinal → Denied rt w)
    (hstep : k.resume p w result = (w', stage')) : Keeps rt p w w' stage' := by
  cases k with
  | got =>
    cases result <;> cases hstep <;> refine stays hS hrow ?_ <;>
      first | exact hk | exact ⟨hk, nofun⟩ | trivial
  | revokeFenced v s =>
    obtain ⟨kind, now, reason⟩ := v
    cases kind <;> cases result <;> cases hstep <;> refine quiet_rows.keeps hS hrow ?_ <;>
      first | exact hk | trivial
  | finished v =>
    obtain ⟨kind, now, reason⟩ := v
    cases kind <;> cases hstep <;> refine stays hS hrow ?_
    · exact hfinal rfl
    · exact hfinal rfl
    · rintro ⟨rfl⟩
      exact hfinal rfl
  | reuseFinished => cases hstep; exact stays hS hrow (hfinal rfl)
  | _ =>
    cases result <;> cases hstep <;> refine Quiet.keeps ⟨rfl, rfl, .inl rfl, rfl⟩ hS hrow ?_ <;>
      first | exact ⟨nofun, nofun⟩ | trivial

theorem write_keeps (hholds : (write entry deadline k).Holds rt p w)
    (hstep : stepWrite rt p w entry deadline k = (w', stage')) : Keeps rt p w w' stage' := by
  obtain ⟨hk, hactive⟩ := hholds
  unfold stepWrite at hstep
  split at hstep
  next result hprepare =>
    apply resume_keeps hS hrow hk ?_ hstep
    -- only an active snapshot is turned away before the script
    intro hfinal
    by_cases hstatus : entry.status = .active
    · rw [(hactive hstatus).1] at hfinal
      cases hfinal
    · rw [prepareWrite_deny hstatus] at hprepare
      cases hprepare
  next expiration hprepare =>
    cases hstep
    refine stays hS hrow ⟨hk, ?_, ?_⟩
    · intro hstatus
      obtain ⟨hnot, hlimit⟩ := hactive hstatus
      obtain ⟨d, hd, rfl⟩ := prepareWrite_active hstatus hprepare
      exact ⟨hnot, by have := hlimit d hd; unfold World.horizon Runtime.endsAt; omega⟩
    · intro hstatus
      rw [prepareWrite_deny hstatus, Except.ok.injEq] at hprepare
      rw [← hprepare]
      exact lasting_denyLifetime

theorem script_keeps (hholds : (script entry deadline expiration k).Holds rt p w)
    (hlands : lands w (.script entry deadline expiration k) = true)
    (hstep : stepScript p w entry deadline expiration k = (w', stage')) :
    Keeps rt p w w' stage' := by
  obtain ⟨hk, hactive, hdeny⟩ := hholds
  set out := writeScript w.millis entry expiration w.cache with hout
  set w₁ : World := { w with cache := out.1 } with hw₁
  have hdenied : Denied rt w → Denied rt w₁ := fun h ↦ ⟨h.revoked,
    h.barred.writeScript (fun hstatus ↦ (hactive hstatus).2)
      fun hstatus ↦ hS.horizon_le (hdeny hstatus)⟩
  have hS₁ : Sound rt w₁ := ⟨hS.revoked, fun h ↦ hdenied (hS.reported h)⟩
  have ha₁ : Affects rt p w w₁ := ⟨.refl, le_rfl, le_rfl, id, id, hdenied⟩
  have hfinal : k.isFinal → out.2 = true ∧ Denied rt w₁ := by
    intro hfinal
    have hstatus : entry.status ≠ .active := by
      intro hstatus
      rw [(hactive hstatus).1] at hfinal
      cases hfinal
    have hversion : (liveAt w.millis w.cache).elim 0 CacheEntry.version ≤ entry.version := by
      rw [lands, tombstone, if_pos hfinal] at hlands
      exact of_decide_eq_true hlands
    obtain ⟨haccepted, hbarred⟩ :=
      writeScript_deny hstatus hversion (hS.horizon_le (hdeny hstatus))
    refine ⟨haccepted, ?_, hbarred⟩
    cases k <;> first | exact hk hfinal | cases hfinal
  unfold stepScript at hstep
  dsimp only at hstep
  split at hstep
  · cases hstep
    exact ⟨hS₁, ha₁, hk.mono ha₁, fun h ↦ (hfinal h).2⟩
  next hrefused =>
    obtain ⟨hS', ha', hholds'⟩ := resume_keeps (w := w₁) hS₁ hrow (hk.mono ha₁)
      (fun h ↦ absurd (hfinal h).1 hrefused) hstep
    refine ⟨hS', { ha' with denied := ?_ }, hholds'⟩
    exact fun h ↦ ha'.denied (hdenied h)

theorem rotateSwap_keeps {attempts : ℕ} (hown : Unchanged p w.rows) (h : d ≤ w.now + rt.cacheTTL)
    (hstep : stepRotateSwap rt p w attempts r d s = some (w', stage')) :
    Keeps rt p w w' stage' := by
  rw [stepRotateSwap] at hstep
  split at hstep
  · split at hstep
    · cases hstep
      exact stays hS hrow trivial
    rename_i row hrow'
    cases hstep
    have hquiet : Quiet w { w.autocommit p (row.rotate s.refreshHash r) with
        log := { w.log with swaps := w.log.swaps ++ [(p, r.presented)] } } :=
      ⟨rfl, rfl, .inl rfl, rfl⟩
    refine hquiet.keeps hS hrow ⟨by rintro ⟨⟩, fun _ ↦ ⟨rfl, fun d' heq ↦ ?_⟩⟩
    rw [filter_eq_some_iff, hown.row_eq, Bool.and_eq_true] at hrow'
    rw [hquiet.limit, ← some.inj heq]
    exact hS.deadline_le hrow'.1 (Session.isLive.active hrow'.2.1) h
  · cases hstep

theorem reuseUpdate_keeps (hstep : stepReuseUpdate rt p w r s = some (w', stage')) :
    Keeps rt p w w' stage' := by
  rw [stepReuseUpdate] at hstep
  split at hstep
  · split at hstep
    · cases hstep
      exact stays hS hrow trivial
    next row _ =>
      cases hstep
      have hrevoked : (w.autocommit p (row.revoke r.now "refresh_reuse")).markRevoked.Revoked :=
        ⟨_, committed_autocommit, rfl⟩
      exact Quiet.keeps ⟨rfl, rfl, .inr ⟨rfl, hrevoked⟩, rfl⟩ hS hrow ⟨fun _ ↦ rfl, by rintro ⟨⟩⟩
  · cases hstep

theorem create_keeps (hown : Unchanged p w.rows) (h : d ≤ w.now + rt.cacheTTL)
    (hstep : stepCreate p w d s = some (w', stage')) : Keeps rt p w w' stage' := by
  rw [stepCreate] at hstep
  split at hstep
  · split at hstep
    next hnone =>
      cases hstep
      have hquiet : Quiet w (w.autocommit p s) := ⟨rfl, rfl, .inl rfl, rfl⟩
      refine hquiet.keeps hS hrow ⟨by rintro ⟨⟩, fun _ ↦ ⟨rfl, fun d' heq ↦ ?_⟩⟩
      have hnot : ¬ w.Revoked := by
        rintro ⟨s', hs', -⟩
        rw [← hown.row_eq, hnone] at hs'
        cases hs'
      rw [hquiet.limit, hS.limit_of_not_revoked hnot, ← some.inj heq]
      exact h
    · cases hstep
      exact stays hS hrow trivial
  · cases hstep

theorem revokeLock_keeps {candidate : Option Session} (hown : Unchanged p w.rows)
    (h : v.kind = .all true → Denied rt w)
    (hstep : stepRevokeLock rt p w v candidate = some (w', stage')) : Keeps rt p w w' stage' := by
  obtain ⟨out, hlock, hout⟩ := map_eq_some_iff.1 hstep
  obtain ⟨rows, rfl, -⟩ := lockRow_spec hown hlock
  have h' : ∀ rows, v.kind = .all true → Denied rt { w with rows } :=
    fun _ hkind ↦ { h hkind with }
  dsimp only at hout
  split at hout <;> split at hout <;> cases hout <;> refine quiet_rows.keeps hS hrow ?_ <;>
    first | exact h' _ | exact ⟨h' _, nofun⟩ | trivial

theorem revokeUpdate_keeps (h : v.kind = .all true → Denied rt w)
    (hstep : stepRevokeUpdate p w v s = some (w', stage')) : Keeps rt p w w' stage' := by
  rw [stepRevokeUpdate] at hstep
  split at hstep
  · split at hstep
    · cases hstep
      refine Quiet.keeps ⟨rfl, rfl, .inl rfl, rfl⟩ hS hrow ?_
      rintro x ⟨rfl⟩
      exact ⟨rfl, fun _ ↦ .inl ⟨_, read_of_own own_write_self, rfl⟩⟩
    next done _ hkind =>
      cases hstep
      refine stays hS hrow ?_
      rintro x ⟨rfl⟩
      refine ⟨rfl, fun hne ↦ .inr ?_⟩
      cases done with
      | false => exact absurd hkind hne
      | true => exact (h hkind).revoked
    · cases hstep
      exact stays hS hrow (by rintro _ ⟨⟩)
  · cases hstep

theorem revokeCommit_keeps {session : Option Session} (h : (revokeCommit v session).Holds rt p w)
    (hstep : stepRevokeCommit p w v session = (w', stage')) : Keeps rt p w w' stage' := by
  cases hstep
  refine quiet_commit.keeps hS hrow ?_
  cases session with
  | none => trivial
  | some x =>
    obtain ⟨hstatus, hseen⟩ := h x rfl
    refine ⟨?_, fun hactive ↦ ?_⟩
    · intro hfinal
      obtain hsees | hmarked := hseen (of_decide_eq_true hfinal)
      · obtain ⟨row, hrow, hstatus⟩ := hsees
        rw [World.commit, hrow]
        simp only [any_some, hstatus, decide_true, if_true]
        rfl
      · exact (quiet_commit.affects hrow).marked hmarked
    · rw [Session.cacheEntry, hstatus] at hactive
      cases hactive

theorem advanceLock_keeps {a : Advance} (hown : Unchanged p w.rows) (h : d ≤ w.now + rt.cacheTTL)
    (hstep : stepAdvanceLock rt p w a d = some (w', stage')) : Keeps rt p w w' stage' := by
  obtain ⟨out, hlock, hout⟩ := map_eq_some_iff.1 hstep
  obtain ⟨rows, rfl, -⟩ := lockRow_spec hown hlock
  dsimp only at hout
  split at hout <;> cases hout
  · exact quiet_rows.keeps hS hrow h
  · exact quiet_rows.keeps hS hrow trivial

theorem advanceUpdate_keeps {a : Advance} (hown : Unchanged p w.rows) (h : d ≤ w.now + rt.cacheTTL)
    (hstep : stepAdvanceUpdate p w a d s = some (w', stage')) : Keeps rt p w w' stage' := by
  rw [stepAdvanceUpdate] at hstep
  split at hstep
  · split at hstep
    next row hread =>
      cases hstep
      rw [filter_eq_some_iff, hown.row_eq] at hread
      simp only [Bool.and_eq_true, decide_eq_true_eq] at hread
      refine Quiet.keeps ⟨rfl, rfl, .inl rfl, rfl⟩ hS hrow ⟨h, ?_, ?_⟩
      · rw [own_write_self]
        rfl
      · exact not_revoked_of_row hread.1 hread.2.1.1
    · cases hstep
      exact Quiet.keeps ⟨rfl, rfl, .inl rfl, rfl⟩ hS hrow trivial
  · cases hstep

theorem startGet_keeps (hstep : startGet w = (w', stage')) : Keeps rt p w w' stage' := by
  unfold startGet at hstep
  split at hstep
  · cases hstep
    exact stays hS hrow hS.reported
  next entry hentry =>
    cases hstep
    refine stays hS hrow fun hreported ↦ ?_
    exact (hS.reported hreported).barred.status_ne_active (filter_eq_some_iff.1 hentry).1

theorem startCall_keeps (hstep : startCall rt p w a = some (w', stage')) :
    Keeps rt p w w' stage' := by
  cases a with
  | get => exact startGet_keeps hS hrow (some.inj hstep)
  | create | advance =>
    simp only [startCall, ite_none_right_eq_some, some.injEq] at hstep
    cases hstep.2
    exact stays hS hrow le_rfl
  | rotate | revokeByRefreshHash =>
    simp only [startCall, ite_none_right_eq_some, some.injEq] at hstep
    cases hstep.2
    exact Quiet.keeps ⟨rfl, rfl, .inl rfl, rfl⟩ hS hrow (by first | trivial | rintro ⟨⟩)
  | revoke | revokeAll =>
    cases hstep
    exact stays hS hrow (by rintro ⟨⟩)
  | tick => cases hstep; exact tick_keeps hS
  | next | rollback => cases hstep

theorem advanceStage_keeps (hown : OwnRow p w.rows stage) (h : stage.Holds rt p w)
    (hlands : lands w stage = true) (hstep : advanceStage rt p w stage = some (w', stage')) :
    Keeps rt p w w' stage' := by
  cases stage with
  | idle => cases hstep
  | getEntry =>
    cases hstep
    refine stays hS hrow ?_
    unfold stepGetEntry
    split
    · trivial
    next hvalid =>
      rw [not_or, not_not] at hvalid
      exact Bool.eq_false_iff.2 fun hlate ↦ h hlate hvalid.1
  | getMiss => cases hstep; exact stays hS hrow ⟨h, le_rfl⟩
  | getQuery =>
    cases hstep
    exact stays hS hrow (getQuery_holds hS (hown.unchanged rfl) h)
  | getLoaded =>
    cases hstep
    refine stays hS hrow ?_
    unfold stepGetLoaded
    split
    next hlive =>
      obtain ⟨hlate, hd⟩ := h (Session.isLive.active hlive)
      exact ⟨hlate, fun _ ↦ ⟨rfl, fun _ heq ↦ some.inj heq ▸ hd⟩⟩
    · exact ⟨nofun, nofun⟩
  | create => exact create_keeps hS hrow (hown.unchanged rfl) h hstep
  | rotate attempts =>
    cases attempts <;> cases hstep
    · exact stays hS hrow trivial
    · exact stays hS hrow le_rfl
  | rotateQuery =>
    cases hstep
    refine stays hS hrow ?_
    unfold stepRotateQuery
    split
    · trivial
    split
    · exact h
    · exact ⟨nofun, nofun⟩
    · trivial
  | rotateSwap => exact rotateSwap_keeps hS hrow (hown.unchanged rfl) h hstep
  | reuseUpdate => exact reuseUpdate_keeps hS hrow hstep
  | revokeQuery =>
    cases hstep
    refine stays hS hrow ?_
    unfold stepRevokeQuery
    split
    · exact ⟨h, nofun⟩
    next hkind => exact h hkind
    · trivial
  | revokeLock => exact revokeLock_keeps hS hrow (hown.unchanged rfl) h hstep
  | revokeUpdate => exact revokeUpdate_keeps hS hrow h hstep
  | revokeCommit => exact revokeCommit_keeps hS hrow h (some.inj hstep)
  | report r =>
    cases hstep
    refine ⟨⟨hS.revoked, fun _ ↦ { h with }⟩,
      ⟨.refl, le_rfl, le_rfl, id, id, fun h ↦ { h with }⟩, ?_⟩
    cases r <;> trivial
  | advanceLock => exact advanceLock_keeps hS hrow (hown.unchanged rfl) h hstep
  | advanceUpdate => exact advanceUpdate_keeps hS hrow (hown.unchanged rfl) h hstep
  | advanceCommit =>
    cases hstep
    obtain ⟨hd, -, hnot⟩ := h
    refine quiet_commit.keeps hS hrow ⟨nofun, fun _ ↦ ⟨rfl, fun d' heq ↦ ?_⟩⟩
    rw [quiet_commit.limit, hS.limit_of_not_revoked hnot, ← some.inj heq]
    exact hd
  | write => exact write_keeps hS hrow h (some.inj hstep)
  | script => exact script_keeps hS hrow h hlands (some.inj hstep)
  | complete | confirm => exact resume_keeps hS hrow h.1 h.2 (some.inj hstep)
  | returned | rotateEnd => cases hstep; exact stays hS hrow trivial

end

structure Local (rt : Runtime) (p : ℕ) (w : World) (stage : Stage) : Prop where
  own : OwnRow p w.rows stage
  holds : stage.Holds rt p w

theorem Local.stable (hne : p ≠ q) (h : Local rt q w stage) (ha : Affects rt p w w') :
    Local rt q w' stage :=
  ⟨h.own.stable hne ha.apart, h.holds.stable hne ha⟩

theorem perform_keeps (hS : Sound rt w) (hL : Local rt p w stage) (hlands : lands w stage = true)
    (hstep : perform rt p w a stage = some (w', stage')) :
    Sound rt w' ∧ Local rt p w' stage' ∧ Affects rt p w w' := by
  obtain ⟨hown, h⟩ := hL
  have hrow := perform_rowStep hown hstep
  suffices hkeeps : Keeps rt p w w' stage' from
    ⟨hkeeps.sound, ⟨hrow.own, hkeeps.holds⟩, hkeeps.affects⟩
  obtain ⟨-, hnext⟩ | ⟨-, -, rfl, rfl⟩ | ⟨rfl, hstart⟩ := perform_cases hstep
  · exact advanceStage_keeps hS hrow hown h hlands hnext
  · exact quiet_rows.keeps hS hrow trivial
  · exact startCall_keeps hS hrow hstart

end

variable {now : ℤ} {row : Option Session} {as : List (ℕ × Action)} {c : System}

theorem start_holds : (System.start now row).Holds (Sound rt) (Local rt) :=
  ⟨⟨nofun, nofun⟩, fun _ ↦ ⟨nofun, trivial⟩⟩

/-- When no final tombstone is older than what is cached, no read that begins after a revocation has
been reported returns the session. -/
theorem revoked_session_denied
    (hg : Guarded (step rt) (fun c a ↦ lands c.shared (c.thread a.1) = true)
      (System.start now row) as)
    (hrun : exec (step rt) (System.start now row) as = some c) : c.thread p ≠ .returned true := by
  have h := Config.exec_holds (I := Sound rt) (L := Local rt) (R := Affects rt)
    (G := fun _ _ w stage ↦ lands w stage = true)
    (fun _ _ _ _ _ _ hS hL hlands hstep ↦ perform_keeps hS hL hlands hstep)
    (fun _ _ _ _ _ hne hL ha ↦ hL.stable hne ha) start_holds hg hrun
  intro hp
  have hlate := (h.2 p).holds
  rw [hp] at hlate
  cases hlate

namespace Example

def session : Session where
  version := 1
  userAuthVersion := 1
  status := .active
  refreshHash := "hash"
  lastActiveAt := 900

def minute : Runtime := ⟨1000000, 60, true⟩

def begin : System := System.start 1000000000000 (some session)

def nexts (p n : ℕ) : List (ℕ × Action) := List.replicate n (p, .next)

/-- A revocation has read version 1 and put up its fence when the session advances to version 2; a
second revocation renews the fence with version 2, and a reader that had missed the cache loads the
row. The first revocation then commits, and its tombstone is refused. -/
def overtaken : List (ℕ × Action) :=
  (4, .get) :: (1, .revoke "logout") :: nexts 1 4 ++ (2, .advance 1 1 2) :: nexts 2 5 ++
    (3, .revoke "admin") :: nexts 3 4 ++ (0, .tick 1000000000) :: nexts 4 2 ++ nexts 1 6

/-- The fence runs out half a second before the deadline of the reader. -/
def readAgain : List (ℕ × Action) :=
  (0, .tick 59500000000) :: nexts 4 3 ++ [(5, .get), (5, .next)]

def undisturbed : List (ℕ × Action) :=
  (4, .get) :: nexts 4 2 ++ (1, .revoke "logout") :: nexts 1 11 ++ nexts 4 3 ++
    [(5, .get), (5, .next)]

end Example

open Example

/-- The session that was reported as revoked is returned again. -/
theorem revoked_session_returned :
    ((exec (step minute) begin overtaken).map fun c ↦
      c.shared.log.reported) = some true ∧
    ((exec (step minute) begin
      (overtaken ++ readAgain)).map fun c ↦ c.thread 5) =
      some (.returned true) := by
  decide +kernel

theorem revoked_session_denied_undisturbed :
    ∃ c, exec (step minute) begin undisturbed = some c ∧
      c.shared.log.reported = true ∧ c.thread 5 ≠ .returned true := by
  obtain ⟨c, hrun, hreported⟩ := map_eq_some_iff.1
    (show (exec (step minute) begin undisturbed).map
      (fun c ↦ c.shared.log.reported) = some true by decide +kernel)
  exact ⟨c, hrun, hreported, revoked_session_denied (by decide +kernel) hrun⟩

end Moligate.Sessions
