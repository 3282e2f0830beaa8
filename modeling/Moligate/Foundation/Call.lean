import Mathlib.Data.List.Basic

namespace Moligate.Foundation

universe u v

/-- The outcome of a call: it does not return, or it returns an error or a value. -/
inductive Call (ε : Type v) (α : Type u) where
  | diverges
  | fail (e : ε)
  | ok (a : α)
  deriving DecidableEq

namespace Call

variable {ε : Type v} {α β : Type u}

protected def bind : Call ε α → (α → Call ε β) → Call ε β
  | diverges, _ => diverges
  | fail e, _ => fail e
  | ok a, f => f a

instance : Monad (Call ε) where
  pure := ok
  bind := Call.bind

def ofOption : Option α → Call ε α
  | none => diverges
  | some a => ok a

def ofExcept : Except ε α → Call ε α
  | .error e => fail e
  | .ok a => ok a

def required (e : ε) : Option α → Call ε α
  | none => fail e
  | some a => ok a

def check (e : ε) (cond : Bool) : Call ε Unit := if cond then ok () else fail e

def mapFail {ε' : Type*} (g : ε → ε') : Call ε α → Call ε' α
  | diverges => diverges
  | fail e => fail (g e)
  | ok a => ok a

/-- The value of a call whose error is only logged: the old value stays. -/
def orKeep (a : α) : Call ε α → Option α
  | diverges => none
  | fail _ => some a
  | ok a' => some a'

def toExcept : Call ε α → Except (Option ε) α
  | diverges => .error none
  | fail e => .error (some e)
  | ok a => .ok a

variable {x : Call ε α} {f : α → Call ε β} {a a' : α} {b : β} {e : ε} {o : Option α} {r : Except ε α}

@[simp] theorem toExcept_eq_ok : x.toExcept = .ok a ↔ x = ok a := by
  cases x <;> simp [toExcept]

@[simp] theorem pure_eq_ok : (pure a : Call ε α) = ok a' ↔ a = a' := by
  change ok a = ok a' ↔ _
  simp

@[simp] theorem ok_bind : (ok a : Call ε α) >>= f = f a := rfl

theorem bind_eq_ok : x >>= f = ok b ↔ ∃ a, x = ok a ∧ f a = ok b := by
  change Call.bind x f = ok b ↔ _
  cases x <;> simp [Call.bind]

theorem bind_eq_fail : x >>= f = fail e ↔ x = fail e ∨ ∃ a, x = ok a ∧ f a = fail e := by
  change Call.bind x f = fail e ↔ _
  cases x <;> simp [Call.bind]

@[simp] theorem pure_ne_fail : (pure a : Call ε α) ≠ fail e := by
  simp

@[simp] theorem ofOption_ne_fail : (ofOption o : Call ε α) ≠ fail e := by
  cases o <;> simp [ofOption]

@[simp] theorem ofOption_eq_ok : (ofOption o : Call ε α) = ok a ↔ o = some a := by
  cases o <;> simp [ofOption]

@[simp] theorem mapError_eq_ok {ε' : Type*} {g : ε → ε'} : r.mapError g = .ok a ↔ r = .ok a := by
  cases r <;> simp [Except.mapError]

@[simp] theorem ofExcept_eq_ok : ofExcept r = ok a ↔ r = .ok a := by
  cases r <;> simp [ofExcept]

@[simp] theorem required_eq_ok : required e o = ok a ↔ o = some a := by
  cases o <;> simp [required]

@[simp] theorem mapFail_eq_ok {ε' : Type*} {g : ε → ε'} : x.mapFail g = ok a ↔ x = ok a := by
  cases x <;> simp [mapFail]

@[simp] theorem check_eq_ok {cond : Bool} {u : Unit} : check e cond = ok u ↔ cond = true := by
  cases cond <;> simp [check]

theorem orKeep_eq_some (hx : ∀ e, x ≠ fail e) (h : x.orKeep a = some a') : x = ok a' := by
  cases x with
  | diverges => simp [orKeep] at h
  | fail e => exact absurd rfl (hx e)
  | ok b => rw [Option.some.inj h]

end Call

theorem except_map_eq_ok {ε α β : Type*} {x : Except ε α} {f : α → β} {b : β} :
    x.map f = .ok b ↔ ∃ a, x = .ok a ∧ f a = b := by
  cases x with
  | error e => simp [Except.map]
  | ok a => simp [Except.map]

theorem except_bind_eq_ok {ε : Type v} {α β : Type u} {x : Except ε α} {f : α → Except ε β} {b : β} :
    x >>= f = .ok b ↔ ∃ a, x = .ok a ∧ f a = .ok b := by
  constructor
  · intro h
    cases x with
    | error e => cases h
    | ok a => exact ⟨a, rfl, h⟩
  · rintro ⟨a, rfl, h⟩
    exact h

end Moligate.Foundation
