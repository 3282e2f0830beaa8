import Mathlib.Algebra.Order.BigOperators.Group.List
import Mathlib.Data.Nat.Count
import Mathlib.Tactic.Ring

namespace Moligate.Foundation

open List Nat

theorem count_congr {p q : ℕ → Prop} [DecidablePred p] [DecidablePred q] {n : ℕ}
    (h : ∀ k < n, p k ↔ q k) : count p n = count q n :=
  le_antisymm (count_mono_left fun k hk ↦ (h k hk).1) (count_mono_left fun k hk ↦ (h k hk).2)

variable {α : Type*} (w : α → ℕ)

/-- The weights are laid out one after another from `0` on: the element at `x`. -/
def weightedPick : List α → ℕ → Option α
  | [], _ => none
  | a :: l, x => if x < w a then some a else weightedPick l (x - w a)

def sumWeights (l : List α) : ℕ := (l.map w).sum

variable {w}

@[simp] theorem sumWeights_nil : sumWeights w [] = 0 := rfl

@[simp] theorem sumWeights_cons (a : α) (l : List α) :
    sumWeights w (a :: l) = w a + sumWeights w l := by
  rw [sumWeights, map_cons, sum_cons, sumWeights]

@[simp] theorem sumWeights_append (l l' : List α) :
    sumWeights w (l ++ l') = sumWeights w l + sumWeights w l' := by
  rw [sumWeights, map_append, List.sum_append, sumWeights, sumWeights]

theorem sumWeights_mul_add (f c : ℕ) (l : List α) :
    sumWeights (fun a ↦ w a * f + c) l = sumWeights w l * f + l.length * c := by
  induction l with
  | nil => simp
  | cons a l ih =>
    rw [sumWeights_cons, ih, sumWeights_cons, length_cons]
    ring

theorem sumWeights_filter_key {κ : Type*} [DecidableEq κ] {key : α → κ} {l : List α} {a : α}
    (h : (l.map key).Nodup) (ha : a ∈ l) : sumWeights w (l.filter fun b ↦ key b = key a) = w a := by
  induction l with
  | nil => simp at ha
  | cons b l ih =>
    obtain ⟨hnew, hnodup⟩ := nodup_cons.1 h
    rcases mem_cons.1 ha with rfl | hmem
    · have hrest : (l.filter fun b ↦ key b = key a) = [] := by
        refine filter_eq_nil_iff.2 fun c hc hkey ↦ hnew ?_
        exact of_decide_eq_true hkey ▸ mem_map_of_mem hc
      rw [filter_cons_of_pos (by simp), hrest, sumWeights_cons, sumWeights_nil, add_zero]
    · have hne : key b ≠ key a := fun hkey ↦ hnew (hkey ▸ mem_map_of_mem hmem)
      rw [filter_cons_of_neg (by simpa using hne), ih hnodup hmem]

theorem weightedPick_cons_of_lt {a : α} {l : List α} {x : ℕ} (h : x < w a) :
    weightedPick w (a :: l) x = some a := if_pos h

theorem weightedPick_cons_add (a : α) (l : List α) (x : ℕ) :
    weightedPick w (a :: l) (w a + x) = weightedPick w l x := by
  rw [weightedPick, if_neg (by omega), Nat.add_sub_cancel_left]

theorem exists_weightedPick {l : List α} {x : ℕ} (h : x < sumWeights w l) :
    ∃ a ∈ l, weightedPick w l x = some a := by
  induction l generalizing x with
  | nil => simp at h
  | cons a l ih =>
    by_cases hx : x < w a
    · exact ⟨a, mem_cons_self, weightedPick_cons_of_lt hx⟩
    obtain ⟨y, rfl⟩ := Nat.exists_eq_add_of_le (Nat.le_of_not_lt hx)
    rw [sumWeights_cons] at h
    obtain ⟨b, hb, hpick⟩ := ih (x := y) (by omega)
    exact ⟨b, mem_cons_of_mem _ hb, (weightedPick_cons_add a l y).trans hpick⟩

theorem count_weightedPick (p : α → Bool) (l : List α) :
    count (fun x ↦ (weightedPick w l x).any p = true) (sumWeights w l) =
      sumWeights w (l.filter p) := by
  induction l with
  | nil => rfl
  | cons a l ih =>
    have hhead : count (fun x ↦ (weightedPick w (a :: l) x).any p = true) (w a) =
        if p a then w a else 0 := by
      by_cases hp : p a
      · rw [if_pos hp, count_iff_forall]
        intro x hx
        rw [weightedPick_cons_of_lt hx, Option.any_some, hp]
      · rw [if_neg hp, count_iff_forall_not]
        intro x hx
        rw [weightedPick_cons_of_lt hx, Option.any_some]
        exact hp
    rw [sumWeights_cons, count_add, hhead]
    simp only [weightedPick_cons_add]
    rw [ih]
    by_cases hp : p a
    · rw [filter_cons_of_pos hp, sumWeights_cons, if_pos hp]
    · rw [filter_cons_of_neg hp, if_neg hp, zero_add]

theorem weightedPick_last {a : α} (l : List α) (h : 0 < w a) :
    weightedPick w (l ++ [a]) (sumWeights w (l ++ [a]) - 1) = some a := by
  induction l with
  | nil =>
    refine weightedPick_cons_of_lt ?_
    simp only [nil_append, sumWeights_cons, sumWeights_nil]
    omega
  | cons b l ih =>
    have hpos : 0 < sumWeights w (l ++ [a]) := by
      rw [sumWeights_append, sumWeights_cons]
      omega
    rw [cons_append, sumWeights_cons, Nat.add_sub_assoc hpos, weightedPick_cons_add, ih]

end Moligate.Foundation
