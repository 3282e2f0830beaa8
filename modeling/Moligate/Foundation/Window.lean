import Mathlib.Algebra.BigOperators.Group.List.Basic
import Mathlib.Tactic.Linarith

namespace Moligate.Foundation

structure Touch where
  time : ℤ
  cleared : Bool
  amount : ℤ
  deriving DecidableEq, Repr

namespace Touch

variable (b : ℕ → ℤ) (k : ℕ)

def inWindow (e : Touch) : Bool := b k ≤ e.time && e.time < b (k + 1)

def charged (h : List Touch) : ℤ := ((h.filter (inWindow b k)).map amount).sum

def clearings (h : List Touch) : ℕ := h.countP fun e ↦ e.inWindow b k && e.cleared

variable {b k} {h : List Touch} {e : Touch}

theorem inWindow_iff : e.inWindow b k = true ↔ b k ≤ e.time ∧ e.time < b (k + 1) := by
  simp [inWindow]

theorem charged_cons_of_not_mem (he : e.inWindow b k ≠ true) :
    charged b k (e :: h) = charged b k h := by
  simp [charged, List.filter_cons_of_neg he]

theorem charged_eq_zero (hh : ∀ e ∈ h, e.time < b k) : charged b k h = 0 := by
  have : h.filter (inWindow b k) = [] := by
    rw [List.filter_eq_nil_iff]
    intro e he hw
    exact absurd (inWindow_iff.1 hw).1 (not_le.2 (hh e he))
  simp [charged, this]

theorem clearings_eq_zero (hh : ∀ e ∈ h, e.time < b k) : clearings b k h = 0 := by
  rw [clearings, List.countP_eq_zero]
  intro e he hw
  rw [Bool.and_eq_true] at hw
  exact absurd (inWindow_iff.1 hw.1).1 (not_le.2 (hh e he))

end Touch

open Touch List

/-- The state `used` of a counter with the limit `limit` after the touches `h` (latest first):
no window was charged more than the limit or cleared twice, and `used` covers what was charged in
every window that is not over yet. -/
structure Metered (b : ℕ → ℤ) (limit used : ℤ) (h : List Touch) : Prop where
  nonneg : 0 ≤ used
  within : used ≤ limit
  charged_le : ∀ k, charged b k h ≤ limit
  clearings_le : ∀ k, clearings b k h ≤ 1
  covered : ∀ k, (∀ e ∈ h, e.time < b (k + 1)) → charged b k h ≤ used

variable {b : ℕ → ℤ} {limit used used' : ℤ} {h : List Touch} {e : Touch}

theorem Metered.nil (h₀ : 0 ≤ used) (h₁ : used ≤ limit) : Metered b limit used [] where
  nonneg := h₀
  within := h₁
  charged_le _ := by simpa [charged] using h₀.trans h₁
  clearings_le _ := by simp [clearings]
  covered _ _ := by simpa [charged] using h₀

/-- A touch keeps a counter metered when it is cleared only by the first touch of a window and
its new state covers the charge. -/
theorem Metered.touch (hm : Metered b limit used h) (hlater : ∀ e' ∈ h, e'.time ≤ e.time)
    (hclear : e.cleared = true → ∀ k, b k ≤ e.time → e.time < b (k + 1) → ∀ e' ∈ h, e'.time < b k)
    (hcharge : (if e.cleared then 0 else used) + e.amount ≤ used') (h₀ : 0 ≤ used')
    (h₁ : used' ≤ limit) : Metered b limit used' (e :: h) := by
  have hcur : ∀ k, e.inWindow b k = true → charged b k (e :: h) ≤ used' := by
    intro k hw
    obtain ⟨hk, hk'⟩ := inWindow_iff.1 hw
    have hh : ∀ e' ∈ h, e'.time < b (k + 1) := fun e' he' ↦ (hlater e' he').trans_lt hk'
    rw [charged, filter_cons_of_pos hw, map_cons, sum_cons, ← charged]
    cases hc : e.cleared with
    | true =>
      rw [hc, if_pos rfl] at hcharge
      rw [charged_eq_zero (hclear hc k hk hk')]
      omega
    | false =>
      rw [hc, if_neg Bool.false_ne_true] at hcharge
      have := hm.covered k hh
      omega
  refine ⟨h₀, h₁, ?_, ?_, ?_⟩
  · intro k
    by_cases hw : e.inWindow b k = true
    · exact (hcur k hw).trans h₁
    · rw [charged_cons_of_not_mem hw]
      exact hm.charged_le k
  · intro k
    rw [clearings, countP_cons, ← clearings]
    split
    next hw =>
      rw [Bool.and_eq_true, inWindow_iff] at hw
      rw [clearings_eq_zero (hclear hw.2 k hw.1.1 hw.1.2)]
    · exact hm.clearings_le k
  · intro k hk
    by_cases hw : e.inWindow b k = true
    · exact hcur k hw
    have hlt : e.time < b k := by
      by_contra hge
      exact hw (inWindow_iff.2 ⟨not_lt.1 hge, hk e mem_cons_self⟩)
    rw [charged_cons_of_not_mem hw, charged_eq_zero fun e' he' ↦ (hlater e' he').trans_lt hlt]
    exact h₀

end Moligate.Foundation
