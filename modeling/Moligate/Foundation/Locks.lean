import Mathlib.Logic.Function.Basic

namespace Moligate.Foundation

/-- The rows of a table: what is committed, and for a locked row its owner and the version that the
owner works on. -/
structure Rows (κ τ ρ : Type*) where
  committed : κ → ρ
  working : κ → Option (τ × ρ)

namespace Rows

variable {κ τ ρ : Type*}

def ofCommitted (f : κ → ρ) : Rows κ τ ρ := ⟨f, fun _ ↦ none⟩

def write [DecidableEq κ] (rows : Rows κ τ ρ) (t : τ) (k : κ) (r : ρ) : Rows κ τ ρ :=
  { rows with working := Function.update rows.working k (some (t, r)) }

@[simp] theorem committed_write [DecidableEq κ] {rows : Rows κ τ ρ} {t : τ} {k : κ} {r : ρ} :
    (rows.write t k r).committed = rows.committed := rfl

/-- Changes at once all rows that nobody has locked. -/
def modifyFree (rows : Rows κ τ ρ) (f : ρ → ρ) : Rows κ τ ρ :=
  { rows with
    committed := fun k ↦ if (rows.working k).isNone then f (rows.committed k) else rows.committed k }

variable [DecidableEq τ]

def own (rows : Rows κ τ ρ) (t : τ) (k : κ) : Option ρ :=
  (rows.working k).bind fun w ↦ if w.1 = t then some w.2 else none

/-- What `t` sees without a lock: its own version, or the committed one. -/
def read (rows : Rows κ τ ρ) (t : τ) (k : κ) : ρ := (rows.own t k).getD (rows.committed k)

def free (rows : Rows κ τ ρ) (t : τ) (k : κ) : Bool :=
  match rows.working k with
  | none => true
  | some w => w.1 = t

def rollback (rows : Rows κ τ ρ) (t : τ) : Rows κ τ ρ :=
  { rows with working := fun k ↦ if (rows.own t k).isSome then none else rows.working k }

def commit (rows : Rows κ τ ρ) (t : τ) : Rows κ τ ρ :=
  { rows.rollback t with committed := rows.read t }

variable {rows : Rows κ τ ρ} {t t' : τ} {k k' : κ} {r r' : ρ}

theorem own_eq_some : rows.own t k = some r ↔ rows.working k = some (t, r) := by
  rw [own]
  cases hw : rows.working k with
  | none => simp
  | some w =>
    obtain ⟨o, r'⟩ := w
    simp

theorem own_unique (h : rows.own t k = some r) (h' : rows.own t' k = some r') : t = t' := by
  rw [own_eq_some] at h h'
  exact (Prod.mk.inj (Option.some.inj (h.symm.trans h'))).1

theorem own_eq_none_of_free (hf : rows.free t k = true) (ht : t' ≠ t) : rows.own t' k = none := by
  rw [free] at hf
  rw [own]
  split at hf
  next hw => rw [hw]; rfl
  next w hw =>
    rw [hw, Option.bind_some, if_neg]
    rw [of_decide_eq_true hf]
    exact ht.symm

theorem own_eq_none_of_other (h : rows.own t k ≠ none) (ht : t ≠ t') : rows.own t' k = none := by
  obtain ⟨r, hr⟩ := Option.ne_none_iff_exists'.1 h
  cases h' : rows.own t' k with
  | none => rfl
  | some r' => exact absurd (own_unique hr h') ht

theorem free_of_own (h : rows.own t k = some r) : rows.free t k = true := by
  rw [free, own_eq_some.1 h]
  exact decide_eq_true rfl

@[simp] theorem own_ofCommitted {f : κ → ρ} : (ofCommitted f : Rows κ τ ρ).own t k = none := rfl

theorem read_of_own (h : rows.own t k = some r) : rows.read t k = r := by rw [read, h]; rfl

theorem read_of_not_own (h : rows.own t k = none) : rows.read t k = rows.committed k := by
  rw [read, h]
  rfl

section

variable [DecidableEq κ]

@[simp] theorem own_write_self : (rows.write t k r).own t k = some r := by
  simp [own, write]

theorem own_write_of_ne (h : k' ≠ k) : (rows.write t k r).own t' k' = rows.own t' k' := by
  simp [own, write, Function.update_of_ne h]

theorem own_write_other (hf : rows.free t k = true) (ht : t' ≠ t) :
    (rows.write t k r).own t' k' = rows.own t' k' := by
  by_cases hk : k' = k
  · subst hk
    rw [own_eq_none_of_free hf ht]
    simp [own, write, ht.symm]
  · exact own_write_of_ne hk

theorem own_write_ne_none (hf : rows.free t k = true) (h : rows.own t' k' ≠ none) :
    (rows.write t k r).own t' k' ≠ none := by
  by_cases ht : t' = t
  · by_cases hk : k' = k
    · simp [ht, hk]
    · rwa [own_write_of_ne hk]
  · rwa [own_write_other hf ht]

end

theorem committed_modifyFree_of_own {f : ρ → ρ} (h : rows.own t k ≠ none) :
    (rows.modifyFree f).committed k = rows.committed k := by
  obtain ⟨r, hr⟩ := Option.ne_none_iff_exists'.1 h
  simp [modifyFree, own_eq_some.1 hr]

@[simp] theorem own_rollback_self : (rows.rollback t).own t k = none := by
  cases h : rows.own t k with
  | none =>
    have hw : (rows.rollback t).working k = rows.working k := by simp [rollback, h]
    rwa [own, hw, ← own]
  | some r => simp [own, rollback, own_eq_some.1 h]

theorem own_rollback_other (ht : t' ≠ t) : (rows.rollback t).own t' k = rows.own t' k := by
  cases h : rows.own t k with
  | none =>
    have hw : (rows.rollback t).working k = rows.working k := by simp [rollback, h]
    rw [own, hw, own]
  | some r =>
    have hw := own_eq_some.1 h
    simp [own, rollback, hw, ht.symm]

@[simp] theorem committed_commit : (rows.commit t).committed = rows.read t := rfl

@[simp] theorem own_commit_self : (rows.commit t).own t k = none := own_rollback_self

theorem own_commit_other (ht : t' ≠ t) : (rows.commit t).own t' k = rows.own t' k :=
  own_rollback_other ht

end Rows

end Moligate.Foundation
