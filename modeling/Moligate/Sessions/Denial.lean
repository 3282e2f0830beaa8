import Moligate.Sessions.RowMoves

namespace Moligate.Sessions

open Foundation Option

variable {rt : Runtime} {w : World}  {entry : CacheEntry} 
  {h₀ millis millis' expiration : ℤ} {cache : Option (Expiring CacheEntry)} {deadline : Option ℤ}
  {now : ℤ}

/-- The cache keeps out what could be cached up to the horizon `h₀` only: a deny entry lasts
until then, or the horizon is over. -/
def Barred (h₀ millis : ℤ) : Option (Expiring CacheEntry) → Prop
  | none => h₀ ≤ millis
  | some e => e.value.status ≠ .active ∧ ∃ last, e.expiresAt = some last ∧ h₀ ≤ last + 1

section

variable (h : Barred h₀ millis cache)
include h

theorem Barred.mono (hle : millis ≤ millis') : Barred h₀ millis' cache := by
  cases cache with
  | none => exact le_trans h hle
  | some e => exact h

theorem Barred.status_ne_active (hlive : liveAt millis cache = some entry) :
    entry.status ≠ .active := by
  obtain ⟨until?, rfl, -⟩ := liveAt_eq_some.1 hlive
  exact h.1

theorem Barred.horizon_le (hlive : liveAt millis cache = none) : h₀ ≤ millis := by
  cases cache with
  | none => exact h
  | some e =>
    obtain ⟨-, last, hlast, hle⟩ := h
    by_contra hlt
    have : liveAt millis (some e) = some e.value :=
      liveAt_eq_some.2 ⟨e.expiresAt, rfl, fun l hl ↦ by
        rw [hlast, some.injEq] at hl
        omega⟩
    rw [this] at hlive
    exact absurd hlive (by simp)

theorem Barred.writeScript (hactive : entry.status = .active → expiration ≤ h₀)
    (hdeny : entry.status ≠ .active → h₀ ≤ millis + expiration + 1) :
    Barred h₀ millis (writeScript millis entry expiration cache).1 := by
  unfold Sessions.writeScript
  dsimp only
  split
  · exact h
  rename_i hadmit
  split
  · exact h
  split
  next hstatus =>
    -- an active snapshot comes through only when nothing is alive, and then it is too late
    have hover : h₀ ≤ millis := by
      apply h.horizon_le
      by_contra hlive
      obtain ⟨current, hcurrent⟩ := ne_none_iff_exists'.1 hlive
      refine hadmit ⟨hstatus, ?_⟩
      rw [hcurrent, any_some]
      exact decide_eq_true (h.status_ne_active hcurrent)
    rw [if_pos (le_trans (hactive hstatus) hover)]
    exact hover
  next hstatus => exact ⟨hstatus, _, rfl, hdeny hstatus⟩

end

theorem writeScript_deny (hdeny : entry.status ≠ .active)
    (hversion : (liveAt millis cache).elim 0 CacheEntry.version ≤ entry.version)
    (hle : h₀ ≤ millis + expiration + 1) :
    (writeScript millis entry expiration cache).2 = true ∧
      Barred h₀ millis (writeScript millis entry expiration cache).1 := by
  unfold Sessions.writeScript
  rw [if_neg fun h ↦ hdeny h.1, if_neg (not_lt.2 hversion), if_neg hdeny]
  exact ⟨rfl, hdeny, _, rfl, hle⟩

def Lasting (rt : Runtime) (millis lifetime : ℤ) : Prop :=
  rt.expiresAt * 1000 ≤ millis + lifetime + 1 ∨ rt.userCacheTTLSeconds * 1000 ≤ lifetime

theorem lasting_denyLifetime : Lasting rt (now / 1000000) (denyLifetime rt now) := by
  unfold Lasting denyLifetime Runtime.endsAt Runtime.cacheTTL
  dsimp only
  split <;> split <;> omega

theorem prepareWrite_deny (hdeny : entry.status ≠ .active) :
    prepareWrite rt now entry deadline = .ok (denyLifetime rt now) := by
  unfold prepareWrite
  rw [if_neg hdeny]

theorem prepareWrite_active (hactive : entry.status = .active)
    (h : prepareWrite rt now entry deadline = .ok expiration) :
    ∃ d, deadline = some d ∧ expiration = min d rt.endsAt / 1000000 := by
  unfold prepareWrite at h
  rw [if_pos hactive] at h
  cases deadline with
  | none => cases h
  | some d =>
    dsimp only at h
    split at h
    · cases h
    split at h
    · cases h
    split at h
    · cases h
    · cases h
      exact ⟨d, rfl, rfl⟩

def World.limit (rt : Runtime) (w : World) : ℤ := w.log.revokedAt.getD w.now + rt.cacheTTL

def World.horizon (rt : Runtime) (w : World) : ℤ :=
  min (w.limit rt / 1000000) (rt.expiresAt * 1000)

/-- The session has been revoked, and no active snapshot can come into the cache any more. -/
structure Denied (rt : Runtime) (w : World) : Prop where
  revoked : w.log.revokedAt.isSome
  barred : Barred (w.horizon rt) w.millis w.cache

structure Sound (rt : Runtime) (w : World) : Prop where
  revoked : ∀ t, w.log.revokedAt = some t → t ≤ w.now ∧ w.Revoked
  reported : w.log.reported = true → Denied rt w

theorem Sound.limit_of_not_revoked (h : Sound rt w) (hrow : ¬ w.Revoked) :
    w.limit rt = w.now + rt.cacheTTL := by
  have hnone : w.log.revokedAt = none := by
    by_contra hsome
    obtain ⟨t, ht⟩ := ne_none_iff_exists'.1 hsome
    exact hrow (h.revoked t ht).2
  rw [World.limit, hnone, getD_none]

theorem Sound.limit_le (h : Sound rt w) : w.limit rt ≤ w.now + rt.cacheTTL := by
  rw [World.limit]
  cases ht : w.log.revokedAt with
  | none => exact le_rfl
  | some t =>
    have := (h.revoked t ht).1
    simp only [getD_some]
    omega

theorem Denied.row_revoked (h : Denied rt w) (hS : Sound rt w) : w.Revoked := by
  obtain ⟨t, ht⟩ := isSome_iff_exists.1 h.revoked
  exact (hS.revoked t ht).2

theorem Sound.horizon_le (h : Sound rt w) (hlast : Lasting rt w.millis expiration) :
    w.horizon rt ≤ w.millis + expiration + 1 := by
  have hlimit := h.limit_le
  unfold Lasting World.millis at *
  unfold World.horizon Runtime.cacheTTL at *
  omega

end Moligate.Sessions
