import Mathlib.Data.List.Sort

namespace Moligate.Foundation

open List

/-- Rows under a primary key: no two rows of a table have the same key. -/
structure Table {ρ κ : Type*} (key : ρ → κ) where
  rows : List ρ
  nodup : (rows.map key).Nodup

namespace Table

variable {ρ κ : Type*} [DecidableEq κ] {key : ρ → κ} (t : Table key) {k : κ} {r r' : ρ}

instance : EmptyCollection (Table key) := ⟨⟨[], nodup_nil⟩⟩

def find (k : κ) : Option ρ := t.rows.find? fun r ↦ key r = k

def save (r : ρ) : Table key where
  rows := t.rows.map fun r' ↦ if key r' = key r then r else r'
  nodup := by
    have : (t.rows.map fun r' ↦ if key r' = key r then r else r').map key = t.rows.map key := by
      rw [map_map]
      refine map_congr_left fun r' _ ↦ ?_
      by_cases h : key r' = key r <;> simp [h]
    exact this ▸ t.nodup

/-- Adds a row whose key is not taken; `none` reports the duplicate key. -/
def create (r : ρ) : Option (Table key) :=
  if h : key r ∈ t.rows.map key then none
  else some ⟨r :: t.rows, by rw [map_cons]; exact nodup_cons.2 ⟨h, t.nodup⟩⟩

def remove (k : κ) : Table key where
  rows := t.rows.filter fun r ↦ key r ≠ k
  nodup := t.nodup.sublist (filter_sublist.map _)

def filter (p : ρ → Bool) : Table key where
  rows := t.rows.filter p
  nodup := t.nodup.sublist (filter_sublist.map _)

def update (f : ρ → ρ) (hf : ∀ r, key (f r) = key r) : Table key where
  rows := t.rows.map f
  nodup := by
    rw [map_map, show key ∘ f = key from funext hf]
    exact t.nodup

variable {t}

theorem mem_remove : r ∈ (t.remove k).rows ↔ r ∈ t.rows ∧ key r ≠ k := by
  simp [remove]

omit [DecidableEq κ] in
theorem mem_update {f : ρ → ρ} (hf : ∀ r, key (f r) = key r) :
    r' ∈ (t.update f hf).rows ↔ ∃ r ∈ t.rows, f r = r' := by
  simp [update]

theorem find_update {f : ρ → ρ} (hf : ∀ r, key (f r) = key r) :
    (t.update f hf).find k = (t.find k).map f := by
  rw [find, find, update, find?_map]
  simp [Function.comp_def, hf]

theorem find_mem (h : t.find k = some r) : r ∈ t.rows := mem_of_find?_eq_some h

theorem key_of_find (h : t.find k = some r) : key r = k := by
  simpa using find?_some h

theorem find_of_mem (h : r ∈ t.rows) : t.find (key r) = some r := by
  cases hf : t.find (key r) with
  | none => exact absurd (decide_eq_true rfl) (find?_eq_none.1 hf r h)
  | some r' =>
    exact congrArg some (inj_on_of_nodup_map t.nodup (find_mem hf) h (key_of_find hf))

omit [DecidableEq κ] in
theorem nodup_sorted (le : ρ → ρ → Prop) [DecidableRel le] (p : ρ → Bool) :
    (((t.rows.filter p).insertionSort le).map key).Nodup :=
  ((perm_insertionSort le _).map key).nodup_iff.2 (t.nodup.sublist (filter_sublist.map _))

theorem find_update_of_eq {f : ρ → ρ} (hf : ∀ r, key (f r) = key r)
    (h : ∀ r, t.find k = some r → f r = r) : (t.update f hf).find k = t.find k := by
  rw [find_update]
  cases hr : t.find k with
  | none => rfl
  | some r => rw [Option.map_some, h r hr]

theorem key_save (r r' : ρ) : key (if key r' = key r then r else r') = key r' := by
  by_cases h : key r' = key r <;> simp [h]

theorem find_save_of_ne (h : k ≠ key r) : (t.save r).find k = t.find k :=
  find_update_of_eq (key_save r) fun _ hr ↦ if_neg fun hk ↦ h ((key_of_find hr).symm.trans hk)

theorem find_save_self (h : t.find (key r) = some r') : (t.save r).find (key r) = some r := by
  have hmem : r ∈ (t.save r).rows :=
    mem_map.2 ⟨r', find_mem h, by rw [if_pos (key_of_find h)]⟩
  exact find_of_mem hmem

theorem find_save_of_key (hk : key r = k) (h : t.find k = some r') : (t.save r).find k = some r := by
  subst hk
  exact find_save_self h

theorem create_isSome : (t.create r).isSome = true ↔ t.find (key r) = none := by
  have : key r ∈ t.rows.map key ↔ t.find (key r) ≠ none := by
    rw [mem_map, Option.ne_none_iff_exists']
    constructor
    · rintro ⟨r', hr', hk⟩
      exact ⟨r', hk ▸ find_of_mem hr'⟩
    · rintro ⟨r', hr'⟩
      exact ⟨r', find_mem hr', key_of_find hr'⟩
  rw [create]
  split
  next h => simpa using this.1 h
  next h => simpa using not_not.1 (mt this.2 h)

theorem find_create {t' : Table key} (h : t.create r = some t') :
    t'.find k = if k = key r then some r else t.find k := by
  rw [create] at h
  split at h
  · exact absurd h (by simp)
  cases h
  rw [find, find, find?_cons]
  by_cases hk : key r = k
  · simp [hk]
  · simp [hk, Ne.symm hk]

theorem rows_create {t' : Table key} (h : t.create r = some t') : t'.rows = r :: t.rows := by
  rw [create] at h
  split at h
  · exact absurd h (by simp)
  · exact Option.some.inj h ▸ rfl

variable {t' : Table key}

omit [DecidableEq κ] in
theorem eq_of_rows (h : t'.rows = t.rows) : t' = t := by
  cases t
  cases t'
  cases h
  rfl

theorem keys_save : (t.save r).rows.map key = t.rows.map key := by
  rw [save, map_map]
  exact map_congr_left fun r' _ ↦ key_save r r'

theorem find_eq_none_iff : t.find k = none ↔ k ∉ t.rows.map key := by
  simp [find]

theorem save_eq_self (h : t.find (key r) = some r) : t.save r = t := by
  refine eq_of_rows ((map_congr_left fun r' hr' ↦ ?_).trans (map_id _))
  by_cases hk : key r' = key r
  · rw [if_pos hk]
    exact inj_on_of_nodup_map t.nodup (find_mem h) hr' hk.symm
  · rw [if_neg hk]
    rfl

theorem save_save (h : key r = key r') : (t.save r).save r' = t.save r' := by
  refine eq_of_rows ?_
  simp only [save, map_map]
  refine map_congr_left fun s _ ↦ ?_
  by_cases hs : key s = key r
  · simp [hs, h]
  · simp [hs, h ▸ hs]

/-- The rows of a selection, by the order of the keys and the row of every key. -/
theorem filter_rows (t : Table key) (p : ρ → Bool) :
    t.rows.filter p = (t.rows.map key).filterMap fun k ↦ (t.find k).filter p := by
  rw [filterMap_map, ← filterMap_eq_filter]
  refine filterMap_congr fun r hr ↦ ?_
  rw [Function.comp_apply, find_of_mem hr]
  simp [Option.guard, Option.filter]

end Table

variable {α : Type*} {r : α → α → Prop} [DecidableRel r]

theorem filter_orderedInsert [IsTrans α r] (q : α → Bool) (a : α) {s : List α} (hs : s.Pairwise r) :
    (s.orderedInsert r a).filter q =
      if q a then (s.filter q).orderedInsert r a else s.filter q := by
  induction s with
  | nil => by_cases h : q a <;> simp [h]
  | cons b s ih =>
    rw [pairwise_cons] at hs
    by_cases hab : r a b
    · rw [orderedInsert_cons_of_le r s hab, filter_cons]
      split
      · cases hf : (b :: s).filter q with
        | nil => simp
        | cons c cs =>
          have hc : c ∈ b :: s := (mem_filter.1 (hf ▸ mem_cons_self)).1
          have hac : r a c := by
            rcases mem_cons.1 hc with rfl | hc
            · exact hab
            · exact IsTrans.trans a b c hab (hs.1 c hc)
          rw [orderedInsert_cons_of_le r cs hac]
      · rfl
    · rw [orderedInsert_of_not_le r s hab, filter_cons, ih hs.2, filter_cons]
      by_cases hb : q b
      · simp only [hb, if_true]
        split
        · rw [orderedInsert_of_not_le r _ hab]
        · rfl
      · simp only [hb]
        rfl

theorem filter_insertionSort [IsTrans α r] [Std.Total r] (q : α → Bool) (l : List α) :
    (l.insertionSort r).filter q = (l.filter q).insertionSort r := by
  induction l with
  | nil => rfl
  | cons a l ih =>
    rw [insertionSort_cons, filter_orderedInsert q a (pairwise_insertionSort r l), ih, filter_cons]
    split <;> rfl

end Moligate.Foundation
