import Moligate.Foundation.Run

namespace Moligate.Foundation

variable {σ π ℓ α : Type*}

structure Config (σ π ℓ : Type*) where
  shared : σ
  thread : π → ℓ

namespace Config

section

variable [DecidableEq π] (perform : π → α → σ → ℓ → Option (σ × ℓ))

def step (c : Config σ π ℓ) (a : π × α) : Option (Config σ π ℓ) :=
  (perform a.1 a.2 c.shared (c.thread a.1)).map fun out ↦
    ⟨out.1, Function.update c.thread a.1 out.2⟩

end

/-- The invariant of the shared state, and that of every thread. -/
def Holds (I : σ → Prop) (L : π → σ → ℓ → Prop) (c : Config σ π ℓ) : Prop :=
  I c.shared ∧ ∀ p, L p c.shared (c.thread p)

variable [DecidableEq π] {perform : π → α → σ → ℓ → Option (σ × ℓ)} {I : σ → Prop}
  {L : π → σ → ℓ → Prop} {G : π → α → σ → ℓ → Prop} {R : π → σ → σ → Prop} {c c' : Config σ π ℓ}
  {a : π × α} {as : List (π × α)}

theorem step_eq_some (h : step perform c a = some c') :
    perform a.1 a.2 c.shared (c.thread a.1) = some (c'.shared, c'.thread a.1) ∧
      ∀ q ≠ a.1, c'.thread q = c.thread q := by
  obtain ⟨⟨s', l'⟩, hperform, rfl⟩ := Option.map_eq_some_iff.1 h
  dsimp only
  refine ⟨?_, fun q hq ↦ Function.update_of_ne hq _ _⟩
  rwa [Function.update_self]

theorem exec_thread_of_not_mem {p : π} (hp : ∀ a ∈ as, p ≠ a.1)
    (h : exec (step perform) c as = some c') : c'.thread p = c.thread p := by
  induction as generalizing c with
  | nil => rw [Option.some.inj h]
  | cons a as ih =>
    obtain ⟨d, hd, hrun⟩ := exec_cons.1 h
    rw [ih (fun b hb ↦ hp b (List.mem_cons_of_mem _ hb)) hrun]
    exact (step_eq_some hd).2 p (hp a List.mem_cons_self)

theorem exec_alone {p : π} {actions : List α} {s' : σ} {l' : ℓ}
    (h : exec (fun (out : σ × ℓ) a ↦ perform p a out.1 out.2) (c.shared, c.thread p) actions =
      some (s', l')) :
    ∃ c', exec (step perform) c (actions.map (p, ·)) = some c' ∧ c'.shared = s' ∧
      c'.thread p = l' := by
  induction actions generalizing c with
  | nil =>
    cases h
    exact ⟨c, rfl, rfl, rfl⟩
  | cons a actions ih =>
    obtain ⟨⟨s, l⟩, hout, hrest⟩ := exec_cons.1 h
    have hstep : step perform c (p, a) = some ⟨s, Function.update c.thread p l⟩ := by
      rw [step, hout]
      rfl
    obtain ⟨c', hrun, hend⟩ := ih (c := ⟨s, Function.update c.thread p l⟩)
      (by dsimp only; rwa [Function.update_self])
    exact ⟨c', exec_cons.2 ⟨_, hstep, hrun⟩, hend⟩

/-- What an action of `p` has to leave: the shared invariant, its own, and those of the others. -/
structure Safe (I : σ → Prop) (L : π → σ → ℓ → Prop) (R : π → σ → σ → Prop) (p : π) (s : σ)
    (out : σ × ℓ) : Prop where
  shared : I out.1
  own : L p out.1 out.2
  others : R p s out.1

section

variable (hown : ∀ p a s l s' l', I s → L p s l → G p a s l → perform p a s l = some (s', l') →
  I s' ∧ L p s' l' ∧ R p s s')
include hown

/-- A thread keeps the shared invariant and its own, and what its actions do to the shared state
keeps the invariants of the others. -/
theorem step_holds (hstable : ∀ p q s s' l, p ≠ q → L q s l → R p s s' → L q s' l)
    (hc : Holds I L c) (hg : G a.1 a.2 c.shared (c.thread a.1)) (h : step perform c a = some c') :
    Holds I L c' := by
  obtain ⟨hperform, hothers⟩ := step_eq_some h
  obtain ⟨hI, hL, hR⟩ := hown _ _ _ _ _ _ hc.1 (hc.2 a.1) hg hperform
  refine ⟨hI, fun q ↦ ?_⟩
  by_cases hq : q = a.1
  · rwa [hq]
  · rw [hothers q hq]
    exact hstable a.1 q _ _ _ (Ne.symm hq) (hc.2 q) hR

/-- The rule for runs of concurrent threads. -/
theorem exec_holds (hstable : ∀ p q s s' l, p ≠ q → L q s l → R p s s' → L q s' l)
    (hc : Holds I L c)
    (hg : Guarded (step perform) (fun c a ↦ G a.1 a.2 c.shared (c.thread a.1)) c as)
    (h : exec (step perform) c as = some c') : Holds I L c' :=
  exec_invariant (fun _ _ _ hc hg h ↦ step_holds hown hstable hc hg h) hc hg h

end

theorem exec_safe
    (hsafe : ∀ p a s l out, I s → L p s l → G p a s l → perform p a s l = some out →
      Safe I L R p s out)
    (hstable : ∀ p q s s' l, p ≠ q → L q s l → R p s s' → L q s' l) (hc : Holds I L c)
    (hg : Guarded (step perform) (fun c a ↦ G a.1 a.2 c.shared (c.thread a.1)) c as)
    (h : exec (step perform) c as = some c') : Holds I L c' := by
  refine exec_holds (fun p a s l s' l' hI hL hG hstep ↦ ?_) hstable hc hg h
  have hout := hsafe p a s l (s', l') hI hL hG hstep
  exact ⟨hout.shared, hout.own, hout.others⟩

end Config

end Moligate.Foundation
