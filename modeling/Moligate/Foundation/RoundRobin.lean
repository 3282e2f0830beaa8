import Mathlib.Data.List.Rotate

namespace Moligate.Foundation

open List

variable {p : ℕ → Bool} {n s idx : ℕ}

theorem map_range_rotate (n s : ℕ) :
    ((List.range n).map fun i ↦ (s + i) % n) = (List.range n).rotate s := by
  apply ext_getElem
  · simp
  · intro i hi hi'
    simp [getElem_rotate, Nat.add_comm]

def orderFrom (p : ℕ → Bool) (n s : ℕ) : List ℕ := ((List.range n).rotate s).filter p

theorem head?_orderFrom : (orderFrom p n s).head? = ((List.range n).rotate s).find? p := by
  rw [orderFrom, head?_filter]

theorem orderFrom_next (h : (orderFrom p n s).head? = some idx) :
    orderFrom p n ((idx + 1) % n) = (orderFrom p n s).rotate 1 := by
  rw [head?_orderFrom, find?_eq_some_iff_append] at h
  obtain ⟨hidx, skipped, rest, hsplit, hskipped⟩ := h
  have hlength : skipped.length < ((range n).rotate s).length := by
    rw [hsplit]
    simp
  have hplace : idx = (skipped.length + s) % n := by
    have hget : ((range n).rotate s)[skipped.length] = idx := by
      simp only [hsplit]
      simp
    simpa using hget.symm
  have hnext : (range n).rotate ((idx + 1) % n) = rest ++ (skipped ++ [idx]) := by
    have hmod : (idx + 1) % n = (s + (skipped ++ [idx]).length) % n := by
      rw [hplace, Nat.mod_add_mod, length_append, length_singleton]
      congr 1
      omega
    have hrotate := rotate_mod (range n) (s + (skipped ++ [idx]).length)
    rw [length_range] at hrotate
    rw [hmod, hrotate, ← rotate_rotate, hsplit, ← singleton_append, ← append_assoc,
      rotate_append_length_eq]
  have hnone : skipped.filter p = [] := by
    refine filter_eq_nil_iff.2 fun a ha hpa ↦ ?_
    simpa [hpa] using hskipped a ha
  rw [orderFrom, orderFrom, hnext, hsplit]
  simp [hnone, hidx]

/-- The picks go through `order` again and again. -/
def Cycles (order picks : List ℕ) : Prop :=
  ∀ i < picks.length, picks[i]? = order[i % order.length]?

theorem Cycles.append {order picks : List ℕ} (h : Cycles order picks)
    (hidx : (order.rotate picks.length).head? = some idx) : Cycles order (picks ++ [idx]) := by
  intro i hi
  rw [length_append, length_singleton] at hi
  by_cases hlt : i < picks.length
  · rw [getElem?_append_left hlt]
    exact h i hlt
  have hi : i = picks.length := by omega
  subst hi
  have hne : order ≠ [] := by
    rintro rfl
    simp at hidx
  rw [getElem?_concat_length, ← hidx, ← rotate_mod,
    head?_rotate (Nat.mod_lt _ (length_pos_iff.2 hne))]

theorem Cycles.mem {order picks : List ℕ} (h : Cycles order picks) (hidx : idx ∈ picks) :
    idx ∈ order := by
  obtain ⟨i, hi, rfl⟩ := getElem_of_mem hidx
  have hpick := h i hi
  rw [getElem?_eq_getElem hi] at hpick
  exact mem_of_getElem? hpick.symm

theorem Cycles.window {order picks : List ℕ} (h : Cycles order picks) {i : ℕ}
    (hi : i + order.length ≤ picks.length) : (picks.drop i).take order.length = order.rotate i := by
  apply ext_getElem?
  intro k
  by_cases hk : k < order.length
  · rw [getElem?_take_of_lt hk, getElem?_drop, h (i + k) (by omega),
      getElem?_rotate hk, Nat.add_comm]
  · rw [getElem?_eq_none (by simp; omega), getElem?_eq_none (by simp; omega)]

end Moligate.Foundation
