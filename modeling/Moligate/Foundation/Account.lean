import Mathlib.Algebra.Order.BigOperators.Group.List
import Mathlib.Data.List.Nodup
import Mathlib.Tactic.Ring

namespace Moligate.Foundation

open List

/-- What one key has put on an account: the amount it was opened with and the sum of what was
added to it afterwards. -/
structure Entry (κ : Type*) where
  key : κ
  (opened added : ℤ)
  deriving DecidableEq, Repr

namespace Entry

variable {κ : Type*}

def amount (e : Entry κ) : ℤ := e.opened + e.added

variable [DecidableEq κ]

def add (k : κ) (d : ℤ) (e : Entry κ) : Entry κ :=
  if e.key = k then { e with added := e.added + d } else e

@[simp] theorem add_key (k : κ) (d : ℤ) (e : Entry κ) : (e.add k d).key = e.key := by
  rw [add]
  split <;> rfl

@[simp] theorem add_opened (k : κ) (d : ℤ) (e : Entry κ) : (e.add k d).opened = e.opened := by
  rw [add]
  split <;> rfl

theorem add_of_ne {k : κ} {e : Entry κ} (d : ℤ) (h : e.key ≠ k) : e.add k d = e := if_neg h

theorem amount_add_self {k : κ} {e : Entry κ} (d : ℤ) (h : e.key = k) :
    (e.add k d).amount = e.amount + d := by
  rw [add, if_pos h, amount, amount]
  ring

end Entry

abbrev Account (κ : Type*) := List (Entry κ)

namespace Account

variable {κ : Type*}

def balance (a : Account κ) : ℤ := (a.map Entry.amount).sum

def keys (a : Account κ) : List κ := a.map Entry.key

@[simp] theorem balance_cons (e : Entry κ) (a : Account κ) :
    balance (e :: a) = e.amount + balance a := by
  simp [balance]

@[simp] theorem keys_cons (e : Entry κ) (a : Account κ) : keys (e :: a) = e.key :: keys a := rfl

theorem balance_nonneg {a : Account κ} (h : ∀ e ∈ a, 0 ≤ e.amount) : 0 ≤ a.balance :=
  sum_nonneg fun x hx ↦ by
    obtain ⟨e, he, rfl⟩ := mem_map.1 hx
    exact h e he

variable [DecidableEq κ]

def entry (a : Account κ) (k : κ) : Option (Entry κ) := a.find? fun e ↦ e.key = k

def add (a : Account κ) (k : κ) (d : ℤ) : Account κ := a.map (Entry.add k d)

def close (a : Account κ) (k : κ) : Account κ := a.filter fun e ↦ e.key ≠ k

variable {a : Account κ} {k : κ} {d : ℤ} {e : Entry κ}

theorem mem_of_entry (h : a.entry k = some e) : e ∈ a := mem_of_find?_eq_some h

theorem key_of_entry (h : a.entry k = some e) : e.key = k := by
  simpa using find?_some h

@[simp] theorem keys_add (a : Account κ) (k : κ) (d : ℤ) : (a.add k d).keys = a.keys := by
  simp [keys, add]

theorem mem_close : e ∈ a.close k ↔ e ∈ a ∧ e.key ≠ k := by
  simp [close]

theorem add_of_notMem (h : k ∉ a.keys) : a.add k d = a := by
  induction a with
  | nil => rfl
  | cons e a ih =>
    rw [keys_cons, mem_cons, not_or] at h
    rw [add, map_cons, ← add, ih h.2, Entry.add_of_ne d (Ne.symm h.1)]

theorem close_of_notMem (h : k ∉ a.keys) : a.close k = a :=
  filter_eq_self.2 fun e he ↦ by
    simpa using fun hk : e.key = k ↦ h (hk ▸ mem_map_of_mem he)

theorem balance_add (hnodup : a.keys.Nodup) (h : a.entry k = some e) :
    (a.add k d).balance = a.balance + d := by
  induction a with
  | nil => simp [entry] at h
  | cons head a ih =>
    rw [keys_cons, nodup_cons] at hnodup
    by_cases hk : head.key = k
    · have hrest : add a k d = a := add_of_notMem (hk ▸ hnodup.1)
      rw [add, map_cons, ← add, hrest, balance_cons, balance_cons, Entry.amount_add_self d hk]
      ring
    · have hentry : entry a k = some e := by simpa [entry, hk] using h
      rw [add, map_cons, ← add, balance_cons, balance_cons, Entry.add_of_ne d hk,
        ih hnodup.2 hentry]
      ring

theorem balance_close (hnodup : a.keys.Nodup) (h : a.entry k = some e) :
    (a.close k).balance = a.balance - e.amount := by
  induction a with
  | nil => simp [entry] at h
  | cons head a ih =>
    rw [keys_cons, nodup_cons] at hnodup
    by_cases hk : head.key = k
    · obtain rfl : head = e := by simpa [entry, hk] using h
      have hrest : close a k = a := close_of_notMem (hk ▸ hnodup.1)
      rw [close, filter_cons_of_neg (by simpa using hk), ← close, hrest, balance_cons]
      ring
    · have hentry : entry a k = some e := by simpa [entry, hk] using h
      rw [close, filter_cons_of_pos (by simpa using hk), ← close, balance_cons,
        balance_cons, ih hnodup.2 hentry]
      ring

end Account

end Moligate.Foundation
