import Mathlib.Data.Int.Order.Basic

namespace Moligate.Foundation

open Option

variable {α : Type*}

structure Expiring (α : Type*) where
  value : α
  expiresAt : Option ℤ

def liveAt (now : ℤ) (key : Option (Expiring α)) : Option α :=
  (key.filter fun e ↦ e.expiresAt.all (now ≤ ·)).map Expiring.value

variable {now now' : ℤ} {key : Option (Expiring α)} {e : Expiring α} {a : α}

theorem liveAt_eq_some : liveAt now key = some a ↔
    ∃ until?, key = some ⟨a, until?⟩ ∧ ∀ last, until? = some last → now ≤ last := by
  simp only [liveAt, map_eq_some_iff, filter_eq_some_iff, all_eq_true]
  constructor
  · rintro ⟨⟨b, until?⟩, ⟨hkey, hlive⟩, rfl⟩
    exact ⟨until?, hkey, fun last hlast ↦ by simpa using hlive last hlast⟩
  · rintro ⟨until?, hkey, hlive⟩
    exact ⟨⟨a, until?⟩, ⟨hkey, fun last hlast ↦ by simpa using hlive last hlast⟩, rfl⟩

theorem liveAt_mapValue {f : α → α} :
    liveAt now (key.map fun e ↦ { e with value := f e.value }) = (liveAt now key).map f := by
  rw [liveAt, liveAt, filter_map, map_map, map_map]
  rfl

theorem liveAt_of_le (hle : now ≤ now') (h : liveAt now' key = some a) : liveAt now key = some a := by
  obtain ⟨until?, hkey, hlive⟩ := liveAt_eq_some.1 h
  exact liveAt_eq_some.2 ⟨until?, hkey, fun last hlast ↦ le_trans hle (hlive last hlast)⟩

@[simp] theorem liveAt_some_of_le {last : ℤ} (h : now ≤ last) :
    liveAt now (some ⟨a, some last⟩) = some a :=
  liveAt_eq_some.2 ⟨some last, rfl, fun _ heq ↦ some.inj heq ▸ h⟩

end Moligate.Foundation
