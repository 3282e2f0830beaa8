import Mathlib.Data.List.Induction

namespace Moligate.Foundation

open Option

variable {σ α : Type*}

/-- Performs a list of actions one after the other; `none` when one of them is not enabled. -/
def exec (step : σ → α → Option σ) : σ → List α → Option σ
  | s, [] => some s
  | s, a :: as => (step s a).bind fun t ↦ exec step t as

/-- Every action of the list satisfies `ok` in the state it is performed in. -/
def Guarded (step : σ → α → Option σ) (ok : σ → α → Prop) : σ → List α → Prop
  | _, [] => True
  | s, a :: as => ok s a ∧ ∀ t, step s a = some t → Guarded step ok t as

variable {step : σ → α → Option σ} {ok : σ → α → Prop} {s t u : σ} {a : α} {as bs : List α}

@[simp] theorem exec_nil : exec step s [] = some s := rfl

theorem exec_cons : exec step s (a :: as) = some t ↔
    ∃ u, step s a = some u ∧ exec step u as = some t := by
  simp [exec, bind_eq_some_iff]

theorem exec_append : exec step s (as ++ bs) = some t ↔
    ∃ u, exec step s as = some u ∧ exec step u bs = some t := by
  induction as generalizing s with
  | nil => simp
  | cons a as ih =>
    simp only [List.cons_append, exec_cons, ih]
    constructor
    · rintro ⟨v, hv, u, hu, ht⟩
      exact ⟨u, ⟨v, hv, hu⟩, ht⟩
    · rintro ⟨u, ⟨v, hv, hu⟩, ht⟩
      exact ⟨v, hv, u, hu, ht⟩

theorem guarded_of_forall {p : α → Prop} (h : ∀ a ∈ as, p a) :
    Guarded step (fun _ a ↦ p a) s as := by
  induction as generalizing s with
  | nil => trivial
  | cons a as ih =>
    exact ⟨h a List.mem_cons_self, fun t _ ↦ ih fun b hb ↦ h b (List.mem_cons_of_mem a hb)⟩

theorem Guarded.left (hg : Guarded step ok s (as ++ bs)) : Guarded step ok s as := by
  induction as generalizing s with
  | nil => trivial
  | cons a as ih => exact ⟨hg.1, fun t ht ↦ ih (hg.2 t ht)⟩

theorem Guarded.right (hg : Guarded step ok s (as ++ bs)) (h : exec step s as = some t) :
    Guarded step ok t bs := by
  induction as generalizing s with
  | nil => exact some.inj h ▸ hg
  | cons a as ih =>
    obtain ⟨u, hu, ht⟩ := exec_cons.1 h
    exact ih (hg.2 u hu) ht

instance Guarded.decidable [∀ s a, Decidable (ok s a)] :
    ∀ s as, Decidable (Guarded step ok s as)
  | _, [] => .isTrue trivial
  | s, a :: as =>
    match h : step s a with
    | none => decidable_of_iff (ok s a) (by simp [Guarded, h])
    | some t =>
      have := decidable t as
      decidable_of_iff (ok s a ∧ Guarded step ok t as) (by simp [Guarded, h])

/-- What one guarded step preserves, every guarded run preserves. -/
theorem exec_invariant {I : σ → Prop} (hstep : ∀ s a t, I s → ok s a → step s a = some t → I t)
    (hs : I s) (hg : Guarded step ok s as) (hrun : exec step s as = some t) : I t := by
  induction as generalizing s with
  | nil =>
    rw [exec_nil, some.injEq] at hrun
    exact hrun ▸ hs
  | cons a as ih =>
    obtain ⟨u, hu, ht⟩ := exec_cons.1 hrun
    exact ih (hstep s a u hs hg.1 hu) (hg.2 u hu) ht

/-- The rule for what depends on the steps that were taken. -/
theorem exec_history {P : List α → σ → Prop} (hnil : P [] s)
    (hstep : ∀ as a t u, exec step s as = some t → P as t → ok t a → step t a = some u →
      P (as ++ [a]) u)
    (hg : Guarded step ok s as) (hrun : exec step s as = some t) : P as t := by
  induction as using List.reverseRecOn generalizing t with
  | nil => exact some.inj hrun ▸ hnil
  | append_singleton as a ih =>
    obtain ⟨u, hu, ha⟩ := exec_append.1 hrun
    obtain ⟨v, hv, hvt⟩ := exec_cons.1 ha
    obtain rfl := some.inj hvt
    exact hstep as a u v hu (ih hg.left hu) (hg.right hu).1 hv

/-- A reflexive and transitive relation that holds across every guarded step holds from the
start to the end of every guarded run. -/
theorem exec_relation {I : σ → Prop} {R : σ → σ → Prop} (refl : ∀ s, R s s)
    (trans : ∀ s t u, R s t → R t u → R s u)
    (hstep : ∀ s a t, I s → ok s a → step s a = some t → I t ∧ R s t)
    (hs : I s) (hg : Guarded step ok s as) (hrun : exec step s as = some t) : R s t := by
  induction as generalizing s with
  | nil =>
    rw [exec_nil, some.injEq] at hrun
    exact hrun ▸ refl s
  | cons a as ih =>
    obtain ⟨u, hu, ht⟩ := exec_cons.1 hrun
    obtain ⟨hI, hR⟩ := hstep s a u hs hg.1 hu
    exact trans s u t hR (ih hI (hg.2 u hu) ht)

variable {β : Type*} {c : β → Bool} {f : β → β} {x y : β} {n : ℕ}

/-- `while cond { body }` with at most `n` iterations; `none` when these are not enough. -/
def whileLoop (cond : β → Bool) (body : β → β) : ℕ → β → Option β
  | 0, x => if cond x then none else some x
  | n + 1, x => if cond x then whileLoop cond body n (body x) else some x

theorem whileLoop_of_not (h : c x = false) : whileLoop c f n x = some x := by
  cases n <;> simp [whileLoop, h]

theorem whileLoop_exit (h : whileLoop c f n x = some y) : c y = false := by
  induction n generalizing x with
  | zero =>
    simp only [whileLoop, ite_none_left_eq_some, some.injEq] at h
    exact h.2 ▸ Bool.eq_false_iff.2 h.1
  | succ n ih =>
    rw [whileLoop] at h
    split at h
    · exact ih h
    next hc => exact some.inj h ▸ Bool.eq_false_iff.2 hc

/-- The rule for loops: what the body preserves holds when the loop is left. -/
theorem whileLoop_invariant {I : β → Prop} (hbody : ∀ x, I x → c x = true → I (f x))
    (hx : I x) (h : whileLoop c f n x = some y) : I y := by
  induction n generalizing x with
  | zero =>
    simp only [whileLoop, ite_none_left_eq_some, some.injEq] at h
    exact h.2 ▸ hx
  | succ n ih =>
    rw [whileLoop] at h
    split at h
    next hc => exact ih (hbody x hx hc) h
    · exact some.inj h ▸ hx

/-- A loop whose condition is invariant is never left. -/
theorem whileLoop_diverges {I : β → Prop} (hbody : ∀ x, I x → c x = true ∧ I (f x)) (hx : I x)
    (n : ℕ) : whileLoop c f n x = none := by
  induction n generalizing x with
  | zero => rw [whileLoop, if_pos (hbody x hx).1]
  | succ n ih =>
    rw [whileLoop, if_pos (hbody x hx).1]
    exact ih (hbody x hx).2

/-- A loop whose body decreases a measure is left after at most that many iterations. -/
theorem whileLoop_terminates {I : β → Prop} (measure : β → ℕ)
    (hbody : ∀ x, I x → c x = true → I (f x) ∧ measure (f x) < measure x)
    (hx : I x) (hn : measure x ≤ n) : ∃ y, whileLoop c f n x = some y := by
  induction n generalizing x with
  | zero =>
    cases hc : c x with
    | false => exact ⟨x, whileLoop_of_not hc⟩
    | true => have := (hbody x hx hc).2; omega
  | succ n ih =>
    cases hc : c x with
    | false => exact ⟨x, whileLoop_of_not hc⟩
    | true =>
      obtain ⟨hI, hlt⟩ := hbody x hx hc
      obtain ⟨y, hy⟩ := ih hI (by omega)
      exact ⟨y, by rw [whileLoop, if_pos hc, hy]⟩

end Moligate.Foundation
