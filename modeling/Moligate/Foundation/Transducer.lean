import Moligate.Foundation.Run

namespace Moligate.Foundation

variable {σ ι ο : Type*}

/-- Feeds the inputs to a machine one after the other: its last state, and all that it emits. -/
def transduce (step : σ → ι → σ × List ο) : σ → List ι → σ × List ο
  | s, [] => (s, [])
  | s, i :: is =>
    let out := step s i
    let rest := transduce step out.1 is
    (rest.1, out.2 ++ rest.2)

variable {τ φ : Type*} {step : σ → ι → σ × List ο} {source : τ → ι → Option τ}
  {ok : τ → ι → Prop} {target : φ → ο → Option φ} {R : σ → τ → φ → Prop} {s : σ} {t t' : τ} {p : φ}
  {is : List ι}

theorem transduce_append {is' : List ι} : transduce step s (is ++ is') =
    ((transduce step (transduce step s is).1 is').1,
      (transduce step s is).2 ++ (transduce step (transduce step s is).1 is').2) := by
  induction is generalizing s with
  | nil => rfl
  | cons i is ih => simp [transduce, ih]

theorem transduce_fixed (h : ∀ i ∈ is, step s i = (s, [])) : transduce step s is = (s, []) := by
  induction is with
  | nil => rfl
  | cons i is ih =>
    have hi := h i List.mem_cons_self
    have his := ih fun j hj ↦ h j (List.mem_cons_of_mem i hj)
    simp [transduce, hi, his]

theorem transduce_history {P : σ → τ → List ι → List ο → Prop} (hnil : P s t [] [])
    (hstep : ∀ s t is os i t', P s t is os → ok t i → source t i = some t' →
      P (step s i).1 t' (is ++ [i]) (os ++ (step s i).2))
    (hg : Guarded source ok t is) (hrun : exec source t is = some t') :
    P (transduce step s is).1 t' is (transduce step s is).2 := by
  induction is using List.reverseRecOn generalizing t' with
  | nil => exact Option.some.inj hrun ▸ hnil
  | append_singleton is i ih =>
    obtain ⟨u, hu, hi⟩ := exec_append.1 hrun
    obtain ⟨v, hv, hvt⟩ := exec_cons.1 hi
    obtain rfl := Option.some.inj hvt
    have hP := hstep _ u is _ i v (ih hg.left hu) (hg.right hu).1 hv
    rw [transduce_append]
    simpa [transduce] using hP

/-- A machine between two protocols: when the emissions for one input lead the target on from
related states, those for every run of the source do. -/
theorem transduce_simulates
    (hstep : ∀ s t p i t', R s t p → ok t i → source t i = some t' →
      ∃ p', exec target p (step s i).2 = some p' ∧ R (step s i).1 t' p')
    (hR : R s t p) (hg : Guarded source ok t is) (hrun : exec source t is = some t') :
    ∃ p', exec target p (transduce step s is).2 = some p' ∧ R (transduce step s is).1 t' p' := by
  induction is generalizing s t p with
  | nil => exact ⟨p, rfl, Option.some.inj hrun ▸ hR⟩
  | cons i is ih =>
    obtain ⟨u, hu, hrun⟩ := exec_cons.1 hrun
    obtain ⟨q, hq, hR⟩ := hstep s t p i u hR hg.1 hu
    obtain ⟨p', hp', hR⟩ := ih hR (hg.2 u hu) hrun
    exact ⟨p', exec_append.2 ⟨q, hq, hp'⟩, hR⟩

end Moligate.Foundation
