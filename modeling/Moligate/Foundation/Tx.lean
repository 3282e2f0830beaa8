import Mathlib.Data.List.Basic

namespace Moligate.Foundation

variable {σ ε α β : Type}

/-- A computation inside a transaction. What it has written before it fails is still there until
the transaction rolls back. -/
def Tx (σ ε α : Type) := σ → Except ε α × σ

namespace Tx

protected def bind (x : Tx σ ε α) (f : α → Tx σ ε β) : Tx σ ε β := fun s ↦
  match x s with
  | (.ok a, t) => f a t
  | (.error e, t) => (.error e, t)

instance : Monad (Tx σ ε) where
  pure a := fun s ↦ (.ok a, s)
  bind := Tx.bind

def get : Tx σ ε σ := fun s ↦ (.ok s, s)

def modify (f : σ → σ) : Tx σ ε Unit := fun s ↦ (.ok (), f s)

def fail (e : ε) : Tx σ ε α := fun s ↦ (.error e, s)

def check (e : ε) (cond : Bool) : Tx σ ε Unit := fun s ↦ (if cond then .ok () else .error e, s)

def ofExcept (r : Except ε α) : Tx σ ε α := fun s ↦ (r, s)

def required (e : ε) (o : Option α) : Tx σ ε α := fun s ↦ (o.elim (.error e) .ok, s)

/-- Commits what the computation has written, or rolls it back when it has failed. -/
def run (x : Tx σ ε α) (s : σ) : Except ε α × σ :=
  match x s with
  | (.ok a, t) => (.ok a, t)
  | (.error e, _) => (.error e, s)

variable {x : Tx σ ε α} {f : α → Tx σ ε β} {s t : σ} {a : α} {b : β} {e : ε}

theorem bind_eq_ok : (x >>= f) s = (.ok b, t) ↔ ∃ a u, x s = (.ok a, u) ∧ f a u = (.ok b, t) := by
  change Tx.bind x f s = _ ↔ _
  rw [Tx.bind]
  rcases x s with ⟨_ | a, u⟩
  · simp
  constructor
  · exact fun h ↦ ⟨a, u, rfl, h⟩
  · rintro ⟨a', u', h, hf⟩
    obtain ⟨ha, rfl⟩ := Prod.mk.inj h
    exact Except.ok.inj ha ▸ hf

@[simp] theorem pure_eq_ok {a' : α} : (pure a : Tx σ ε α) s = (.ok a', t) ↔ a = a' ∧ s = t := by
  change (Except.ok a, s) = (.ok a', t) ↔ _
  simp

@[simp] theorem modify_eq_ok {g : σ → σ} {v : Unit} :
    (modify g : Tx σ ε Unit) s = (.ok v, t) ↔ g s = t := by
  simp [modify]

@[simp] theorem fail_ne_ok : (fail e : Tx σ ε α) s ≠ (.ok a, t) := by
  simp [fail]

@[simp] theorem get_bind {f : σ → Tx σ ε β} : (get >>= f) s = f s s := rfl

@[simp] theorem modify_bind {g : σ → σ} {f : Unit → Tx σ ε β} :
    (modify g >>= f) s = f () (g s) := rfl

theorem check_bind_eq_ok {cond : Bool} {f : Unit → Tx σ ε β} :
    (check e cond >>= f) s = (.ok b, t) ↔ cond = true ∧ f () s = (.ok b, t) := by
  cases cond with
  | false => simp [bind_eq_ok, check]
  | true => exact (and_iff_right rfl).symm

theorem ofExcept_bind_eq_ok {r : Except ε α} :
    (ofExcept r >>= f) s = (.ok b, t) ↔ ∃ a, r = .ok a ∧ f a s = (.ok b, t) := by
  cases r <;> simp [bind_eq_ok, ofExcept]

theorem required_bind_eq_ok {o : Option α} :
    (required e o >>= f) s = (.ok b, t) ↔ ∃ a, o = some a ∧ f a s = (.ok b, t) := by
  cases o <;> simp [bind_eq_ok, required]

theorem run_error (h : x.run s = (.error e, t)) : t = s := by
  rw [run] at h
  split at h
  · simp at h
  · exact (Prod.mk.inj h).2.symm

theorem run_ok (h : x.run s = (.ok a, t)) : x s = (.ok a, t) := by
  rw [run] at h
  split at h
  next heq => rw [heq, h]
  · simp at h

end Tx

end Moligate.Foundation
