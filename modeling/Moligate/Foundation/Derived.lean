import Moligate.Foundation.Table

namespace Moligate.Foundation

open List Table

section

variable {α β : Type*} [DecidableEq β] (f : α → β)

def keepFirst (seen : List β) : List α → List α
  | [] => []
  | a :: as => if f a ∈ seen then keepFirst seen as else a :: keepFirst (f a :: seen) as

variable {f} {seen : List β} {a : α} {as : List α}

theorem of_mem_keepFirst (h : a ∈ keepFirst f seen as) : a ∈ as ∧ f a ∉ seen := by
  induction as generalizing seen with
  | nil => exact absurd h not_mem_nil
  | cons b bs ih =>
    rw [keepFirst] at h
    split at h
    · exact ⟨mem_cons_of_mem b (ih h).1, (ih h).2⟩
    next hb =>
      rcases mem_cons.1 h with rfl | h
      · exact ⟨mem_cons_self, hb⟩
      · exact ⟨mem_cons_of_mem b (ih h).1,
          fun hseen ↦ (ih h).2 (mem_cons_of_mem _ hseen)⟩

theorem mem_keepFirst_of_injOn (hinj : ∀ a ∈ as, ∀ b ∈ as, f a = f b → a = b) (ha : a ∈ as)
    (hseen : f a ∉ seen) : a ∈ keepFirst f seen as := by
  induction as generalizing seen with
  | nil => exact absurd ha not_mem_nil
  | cons b bs ih =>
    have hinj' : ∀ a ∈ bs, ∀ c ∈ bs, f a = f c → a = c := fun a ha c hc ↦
      hinj a (mem_cons_of_mem b ha) c (mem_cons_of_mem b hc)
    rw [keepFirst]
    by_cases hab : f a = f b
    · obtain rfl := hinj a ha b mem_cons_self hab
      rw [if_neg hseen]
      exact mem_cons_self
    · have ha' : a ∈ bs := (mem_cons.1 ha).resolve_left fun h ↦ hab (congrArg f h)
      split
      · exact ih hinj' ha' hseen
      · refine mem_cons_of_mem b (ih hinj' ha' fun h ↦ ?_)
        exact (mem_cons.1 h).elim hab hseen

theorem nodup_map_keepFirst : ((keepFirst f seen as).map f).Nodup := by
  induction as generalizing seen with
  | nil => exact nodup_nil
  | cons b bs ih =>
    rw [keepFirst]
    split
    · exact ih
    rw [map_cons, nodup_cons]
    refine ⟨fun h ↦ ?_, ih⟩
    obtain ⟨a, ha, hab⟩ := mem_map.1 h
    exact (of_mem_keepFirst ha).2 (hab ▸ mem_cons_self)

end

namespace Table

variable {ρ κ : Type*} [DecidableEq κ] {key : ρ → κ}

/-- Adds the rows whose keys are not taken, one after the other. -/
def createMissing (t : Table key) : List ρ → Table key
  | [] => t
  | r :: rs => ((t.create r).getD t).createMissing rs

variable {t : Table key} {rs : List ρ} {r : ρ}

theorem mem_createMissing (hfresh : ∀ r ∈ rs, t.find (key r) = none)
    (hnodup : (rs.map key).Nodup) : r ∈ (t.createMissing rs).rows ↔ r ∈ t.rows ∨ r ∈ rs := by
  induction rs generalizing t with
  | nil => simp [createMissing]
  | cons r' rs ih =>
    obtain ⟨t', ht'⟩ := Option.isSome_iff_exists.1 (create_isSome.2 (hfresh r' mem_cons_self))
    obtain ⟨hne, hnodup⟩ := nodup_cons.1 hnodup
    have hfresh' : ∀ r ∈ rs, t'.find (key r) = none := by
      intro r hr
      have hkey : key r ≠ key r' := fun h ↦ hne (h ▸ mem_map_of_mem hr)
      rw [find_create ht', if_neg hkey]
      exact hfresh r (mem_cons_of_mem r' hr)
    rw [createMissing, ht', Option.getD_some, ih hfresh' hnodup, rows_create ht', mem_cons,
      mem_cons]
    tauto

end Table

/-- How the rows of one table follow from those of another; each belongs to one source row. -/
structure Derivation {ρ κ : Type*} (key : ρ → κ) (δ : Type*) where
  owner : δ → κ
  Derives : ρ → δ → Prop
  owner_eq : ∀ {r d}, Derives r d → owner d = key r

namespace Derivation

variable {ρ κ δ ι : Type*} [DecidableEq κ] {key : ρ → κ} {key' : δ → ι} (D : Derivation key δ)
  {s : Table key} {t : Table key'}

/-- The derived table has the rows that follow from the source, and no others. -/
def Agrees (s : Table key) (t : Table key') : Prop :=
  ∀ d, d ∈ t.rows ↔ ∃ r ∈ s.rows, D.Derives r d

def AgreesAt (s : Table key) (t : Table key') (k : κ) : Prop :=
  ∀ d, D.owner d = k → (d ∈ t.rows ↔ ∃ r, s.find k = some r ∧ D.Derives r d)

variable {D}

theorem agrees_iff : D.Agrees s t ↔ ∀ k, D.AgreesAt s t k := by
  have hfind (d : δ) : (∃ r ∈ s.rows, D.Derives r d) ↔
      ∃ r, s.find (D.owner d) = some r ∧ D.Derives r d := by
    constructor
    · rintro ⟨r, hr, hd⟩
      exact ⟨r, D.owner_eq hd ▸ find_of_mem hr, hd⟩
    · rintro ⟨r, hr, hd⟩
      exact ⟨r, find_mem hr, hd⟩
  constructor
  · intro h k d hk
    subst hk
    rw [h d, hfind d]
  · intro h d
    rw [h (D.owner d) d rfl, hfind d]

theorem AgreesAt.congr {s' : Table key} {k : κ} (hfind : s'.find k = s.find k)
    (h : D.AgreesAt s t k) : D.AgreesAt s' t k := by
  intro d hd
  rw [hfind]
  exact h d hd

omit [DecidableEq κ] in
theorem Agrees.update {f : ρ → ρ} {g : δ → δ} (hf : ∀ r, key (f r) = key r)
    (hg : ∀ d, key' (g d) = key' d) (h : D.Agrees s t)
    (hfg : ∀ r ∈ s.rows, ∀ d', D.Derives (f r) d' ↔ ∃ d, D.Derives r d ∧ g d = d') :
    D.Agrees (s.update f hf) (t.update g hg) := by
  intro d'
  rw [mem_update]
  constructor
  · rintro ⟨d, hd, rfl⟩
    obtain ⟨r, hr, hrd⟩ := (h d).1 hd
    exact ⟨f r, (mem_update hf).2 ⟨r, hr, rfl⟩, (hfg r hr _).2 ⟨d, hrd, rfl⟩⟩
  · rintro ⟨r', hr', hd'⟩
    obtain ⟨r, hr, rfl⟩ := (mem_update hf).1 hr'
    obtain ⟨d, hrd, rfl⟩ := (hfg r hr d').1 hd'
    exact ⟨d, (h d).2 ⟨r, hr, hrd⟩, rfl⟩

theorem Agrees.save {r r' : ρ} {g : δ → δ} (hg : ∀ d, key' (g d) = key' d)
    (hfind : s.find (key r') = some r) (h : D.Agrees s t)
    (hothers : ∀ d, D.owner d ≠ key r' → g d = d)
    (hown : ∀ d', D.Derives r' d' ↔ ∃ d, D.Derives r d ∧ g d = d') :
    D.Agrees (s.save r') (t.update g hg) := by
  refine Agrees.update (key_save r') hg h fun q hq d' ↦ ?_
  by_cases hk : key q = key r'
  · rw [if_pos hk, Option.some.inj ((find_of_mem hq).symm.trans (hk ▸ hfind))]
    exact hown d'
  rw [if_neg hk]
  have hid (d : δ) (hd : D.Derives q d) : g d = d := hothers d (D.owner_eq hd ▸ hk)
  constructor
  · intro hd'
    exact ⟨d', hd', hid d' hd'⟩
  · rintro ⟨d, hd, rfl⟩
    rwa [hid d hd]

omit [DecidableEq κ] in
theorem Agrees.filter {p : ρ → Bool} {q : δ → Bool} (h : D.Agrees s t)
    (hpq : ∀ r d, D.Derives r d → q d = p r) : D.Agrees (s.filter p) (t.filter q) := by
  intro d
  simp only [Table.filter, mem_filter]
  constructor
  · rintro ⟨hd, hq⟩
    obtain ⟨r, hr, hrd⟩ := (h d).1 hd
    exact ⟨r, ⟨hr, hpq r d hrd ▸ hq⟩, hrd⟩
  · rintro ⟨r, ⟨hr, hp⟩, hrd⟩
    exact ⟨(h d).2 ⟨r, hr, hrd⟩, (hpq r d hrd).trans hp⟩

end Derivation

end Moligate.Foundation
