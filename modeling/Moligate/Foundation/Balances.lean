import Mathlib.Algebra.Order.Ring.Int
import Moligate.Foundation.Locks

namespace Moligate.Foundation.Rows

variable {κ τ : Type*} [DecidableEq τ]

/-- `balance = balance + amount` on the row of `k`. It waits for the lock, and does nothing when
there is no row. -/
def credit [DecidableEq κ] (rows : Rows κ τ (Option ℤ)) (t : τ) (k : κ) (amount : ℤ) :
    Option (Rows κ τ (Option ℤ)) :=
  match rows.read t k with
  | none => some rows
  | some balance => if rows.free t k then some (rows.write t k (some (balance + amount))) else none

structure Pending (rows : Rows κ τ (Option ℤ)) (t : τ) (pending : κ → ℤ) : Prop where
  own : ∀ k balance, rows.own t k = some balance →
    balance = (rows.committed k).map (· + pending k)
  rest : ∀ k, rows.own t k = none → pending k = 0

variable {rows rows' : Rows κ τ (Option ℤ)} {t t' : τ} {k : κ} {amount : ℤ} {pending : κ → ℤ}

theorem Pending.of_unlocked (h : ∀ k, rows.own t k = none) : rows.Pending t fun _ ↦ 0 :=
  ⟨fun k balance hk ↦ by simp [h] at hk, fun _ _ ↦ rfl⟩

theorem Pending.read (h : rows.Pending t pending) (k : κ) :
    rows.read t k = (rows.committed k).map (· + pending k) := by
  cases hown : rows.own t k with
  | none => simp [read_of_not_own hown, h.rest k hown]
  | some balance =>
    rw [read_of_own hown]
    exact h.own k balance hown

theorem Pending.stable (h : rows.Pending t pending) (hown : ∀ k, rows'.own t k = rows.own t k)
    (hcommitted : ∀ k, (rows.own t k).isSome → rows'.committed k = rows.committed k) :
    rows'.Pending t pending := by
  refine ⟨fun k balance hk ↦ ?_, fun k hk ↦ h.rest k (hown k ▸ hk)⟩
  rw [hown] at hk
  rw [hcommitted k (by rw [hk]; rfl)]
  exact h.own k balance hk

variable [DecidableEq κ]

theorem Pending.credit (h : rows.Pending t pending) (hrow : (rows.read t k).isSome)
    (hcredit : rows.credit t k amount = some rows') :
    rows'.Pending t (fun k' ↦ pending k' + if k' = k then amount else 0) ∧
      rows'.committed = rows.committed ∧ ∀ t' ≠ t, ∀ k', rows'.own t' k' = rows.own t' k' := by
  rw [Rows.credit] at hcredit
  split at hcredit
  next hnone => simp [hnone] at hrow
  rename_i balance hbalance
  split at hcredit
  next hfree =>
    cases hcredit
    refine ⟨⟨fun k' b hb ↦ ?_, fun k' hk' ↦ ?_⟩, rfl, fun t' ht k' ↦ own_write_other hfree ht⟩
    · by_cases hk : k' = k
      · subst hk
        rw [own_write_self, Option.some.injEq] at hb
        have hread := (h.read k').symm.trans hbalance
        obtain ⟨b₀, hb₀, he⟩ := Option.map_eq_some_iff.1 hread
        rw [← hb, committed_write, hb₀, Option.map_some, if_pos rfl, ← he, add_assoc]
      · rw [own_write_of_ne hk] at hb
        rw [if_neg hk, add_zero]
        exact h.own k' b hb
    · have hk : k' ≠ k := by
        rintro rfl
        simp at hk'
      rw [own_write_of_ne hk] at hk'
      rw [if_neg hk, add_zero]
      exact h.rest k' hk'
  · simp at hcredit

end Moligate.Foundation.Rows
