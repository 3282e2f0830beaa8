import Mathlib.Algebra.Order.Group.Int
import Moligate.Foundation.Run

namespace Moligate.Sessions.LoginLimit

open Foundation List

structure Session where
  sid : String
  (createdAt expiresAt : ℤ)
  active : Bool

/-- A call of `createLoginSession` that has found few enough active sessions at its time. -/
structure Call where
  now : ℤ
  /-- It has counted the issued sessions, too. -/
  issuable : Bool

/-- The sessions of one user, and the calls for that user between their count and their insert. -/
structure World where
  now : ℤ
  sessions : List Session
  calls : List Call

/-- The settings `UserSessionActiveLimit` and so on. -/
structure Limits where
  (active issuance : ℕ)
  (issuanceWindowSeconds sessionTTL : ℤ)

def World.revoke (w : World) (sid : String) : World :=
  { w with sessions := w.sessions.map fun s ↦
      if s.sid = sid then { s with active := false } else s }

def countActiveUserSessions (w : World) (now : ℤ) : ℕ :=
  w.sessions.countP fun s ↦ s.active && now < s.expiresAt

def countUserSessionsCreatedSince (w : World) (createdAfter : ℤ) : ℕ :=
  w.sessions.countP fun s ↦ createdAfter < s.createdAt

inductive Action
  | tick (seconds : ℕ)
  | revoke (sid : String)
  /-- A call counts, which has read the clock before. -/
  | countActive (now : ℤ)
  | countIssued (i : ℕ)
  | create (i : ℕ) (sid : String)
  | fail (i : ℕ)

def step (l : Limits) (w : World) : Action → Option World
  | .tick seconds => some { w with now := w.now + seconds }
  | .revoke sid => some (w.revoke sid)
  | .countActive now =>
    if w.now < now then none
    else if l.active ≤ countActiveUserSessions w now then some w
    else some { w with calls := w.calls ++ [⟨now, false⟩] }
  | .countIssued i =>
    match w.calls[i]? with
    | some ⟨now, false⟩ =>
      if l.issuance ≤ countUserSessionsCreatedSince w (now - l.issuanceWindowSeconds) then
        some { w with calls := w.calls.eraseIdx i }
      else some { w with calls := w.calls.set i ⟨now, true⟩ }
    | _ => none
  | .create i sid =>
    match w.calls[i]? with
    | some ⟨now, true⟩ =>
      let expiresAt := now + l.sessionTTL
      some { w with
        calls := w.calls.eraseIdx i
        sessions := if expiresAt ≤ w.now then w.sessions
          else ⟨sid, now, expiresAt, true⟩ :: w.sessions }
    | _ => none
  | .fail i => some { w with calls := w.calls.eraseIdx i }

/-- A call counts only when no other call is going to insert. -/
def apart (w : World) : Action → Bool
  | .countActive _ => w.calls.isEmpty
  | _ => true

structure Limited (l : Limits) (w : World) : Prop where
  within : countActiveUserSessions w w.now ≤ l.active
  alone : w.calls.length ≤ 1
  room : ∀ c ∈ w.calls, c.now ≤ w.now ∧ countActiveUserSessions w c.now < l.active

variable {l : Limits} {w w' : World} {a : Action}

theorem countActive_antitone {n n' : ℤ} (h : n ≤ n') :
    countActiveUserSessions w n' ≤ countActiveUserSessions w n :=
  countP_mono_left fun s _ hs ↦ by
    simp only [Bool.and_eq_true, decide_eq_true_eq] at hs ⊢
    exact ⟨hs.1, h.trans_lt hs.2⟩

theorem Limited.erase (h : Limited l w) (i : ℕ) :
    Limited l { w with calls := w.calls.eraseIdx i } where
  within := h.within
  alone := (length_eraseIdx_le _ _).trans h.alone
  room c hc := h.room c (mem_of_mem_eraseIdx hc)

theorem Limited.step (h : Limited l w) (hapart : apart w a = true) (hstep : step l w a = some w') :
    Limited l w' := by
  cases a with
  | tick seconds =>
    cases hstep
    exact ⟨(countActive_antitone (by simp)).trans h.within, h.alone, fun c hc ↦
      (h.room c hc).imp_left (·.trans (by simp))⟩
  | revoke sid =>
    cases hstep
    have hfewer (now : ℤ) :
        countActiveUserSessions (w.revoke sid) now ≤ countActiveUserSessions w now := by
      simp only [countActiveUserSessions, World.revoke, countP_map]
      refine countP_mono_left fun s _ hs ↦ ?_
      dsimp only [Function.comp_apply] at hs
      split at hs
      · simp at hs
      · exact hs
    exact ⟨(hfewer _).trans h.within, h.alone, fun c hc ↦
      (h.room c hc).imp_right (hfewer _).trans_lt⟩
  | countActive now =>
    rw [LoginLimit.step] at hstep
    split_ifs at hstep with hlate hfull
    · cases hstep
      exact h
    · cases hstep
      rw [apart, List.isEmpty_iff] at hapart
      refine ⟨h.within, by simp [hapart], fun c hc ↦ ?_⟩
      obtain rfl : c = ⟨now, false⟩ := by simpa [hapart] using hc
      exact ⟨not_lt.1 hlate, not_le.1 hfull⟩
  | countIssued i =>
    rw [LoginLimit.step] at hstep
    split at hstep
    next now hcall =>
      split at hstep
      · cases hstep
        exact h.erase i
      · cases hstep
        refine ⟨h.within, by simpa using h.alone, fun c hc ↦ ?_⟩
        rcases mem_or_eq_of_mem_set hc with hc | rfl
        · exact h.room c hc
        · exact h.room ⟨now, false⟩ (mem_of_getElem? hcall)
    · cases hstep
  | create i sid =>
    rw [LoginLimit.step] at hstep
    split at hstep
    next now hcall =>
      cases hstep
      obtain ⟨hnow, hroom⟩ := h.room _ (mem_of_getElem? hcall)
      have hnone : w.calls.eraseIdx i = [] := by
        have := h.alone
        have := (List.getElem?_eq_some_iff.1 hcall).1
        rw [← length_eq_zero_iff, length_eraseIdx]
        split <;> omega
      refine ⟨?_, by simp [hnone], by simp [hnone]⟩
      have hold := (countActive_antitone hnow).trans_lt hroom
      simp only [countActiveUserSessions] at hold ⊢
      split
      · exact hold.le
      · rw [countP_cons]
        split <;> omega
    · cases hstep
  | fail i =>
    cases hstep
    exact h.erase i

/-- From a start without calls, no run of logins that count one at a time exceeds the limit. -/
theorem active_sessions_within_limit {as : List Action} (hstart : w.calls = [])
    (hwithin : countActiveUserSessions w w.now ≤ l.active)
    (hapart : Guarded (step l) (fun w a ↦ apart w a = true) w as)
    (hrun : exec (step l) w as = some w') : countActiveUserSessions w' w'.now ≤ l.active :=
  (exec_invariant (I := Limited l) (fun _ _ _ h hapart hstep ↦ h.step hapart hstep)
    ⟨hwithin, by simp [hstart], by simp [hstart]⟩ hapart hrun).within

private def one : Limits := ⟨1, 10, 3600, 60⟩

private def login : List Action := [.countActive 5, .countIssued 0, .create 0 "a"]

theorem active_sessions_within_limit_again :
    ∃ w', exec (step one) ⟨5, [], []⟩ (login ++ .revoke "a" :: login) = some w' ∧
      countActiveUserSessions w' w'.now ≤ 1 :=
  (Option.isSome_iff_exists.1 (by decide)).imp fun _ hrun ↦
    ⟨hrun, active_sessions_within_limit rfl (by decide) (by decide) hrun⟩

/-- Two calls count before either inserts. -/
theorem active_sessions_over_limit :
    (exec (step one) ⟨5, [], []⟩ [.countActive 5, .countActive 5, .countIssued 0, .countIssued 1,
      .create 0 "a", .create 0 "b"]).map (fun w ↦ countActiveUserSessions w w.now) = some 2 := by
  decide

end Moligate.Sessions.LoginLimit
