import Moligate.Foundation.Locks

namespace Moligate.Foundation

variable {ο σ β κ τ ρ : Type*}

/-- A committed transaction: what was asked for, and the state before and after. -/
structure Change (ο σ : Type*) where
  op : ο
  (before after : σ)
  deriving DecidableEq

/-- The changes, the latest first, lead from `start` to `final`. -/
def Leads (start : σ) : List (Change ο σ) → σ → Prop
  | [], final => final = start
  | e :: es, final => final = e.after ∧ Leads start es e.before

section

variable {start final : σ} {e : Change ο σ} {later earlier log : List (Change ο σ)}

theorem Leads.cons {op : ο} {next : σ} (h : Leads start log final) :
    Leads start (⟨op, final, next⟩ :: log) next := ⟨rfl, h⟩

theorem Leads.keeps {Q : σ → Prop} (h : Leads start (later ++ e :: earlier) final)
    (hQ : Q e.after) (hlater : ∀ x ∈ later, Q x.before → Q x.after) : Q final := by
  induction later generalizing final with
  | nil => exact h.1 ▸ hQ
  | cons x later ih =>
    have hbefore := ih h.2 fun y hy ↦ hlater y (List.mem_cons_of_mem x hy)
    rw [h.1]
    exact hlater x List.mem_cons_self hbefore

/-- When every change is what its operation does to the state before it, the operations lead from
`start` to `final` one after the other. -/
theorem Leads.replay {f : σ → ο → σ} (h : Leads start log final)
    (hlog : ∀ e ∈ log, e.after = f e.before e.op) :
    final = (log.map Change.op).foldr (fun op s ↦ f s op) start := by
  induction log generalizing final with
  | nil => exact h
  | cons e log ih =>
    rw [h.1, hlog e List.mem_cons_self, ih h.2 fun x hx ↦ hlog x (List.mem_cons_of_mem e hx)]
    rfl

end

namespace Rows

/-- What a step leaves to the transaction `t`: its own versions, and what is committed of the rows
that it has locked. -/
structure Spares [DecidableEq τ] (t : τ) (rows rows' : Rows κ τ ρ) : Prop where
  own : ∀ k, rows'.own t k = rows.own t k
  locked : ∀ k, rows.own t k ≠ none → rows'.committed k = rows.committed k

variable [DecidableEq τ] {rows : Rows κ τ ρ} {t t' : τ} {k : κ} {r : ρ}

theorem Spares.refl : Spares t rows rows := ⟨fun _ ↦ rfl, fun _ _ ↦ rfl⟩

theorem spares_commit (ht : t' ≠ t) : Spares t' rows (rows.commit t) :=
  ⟨fun _ ↦ own_commit_other ht, fun _ hk ↦ read_of_not_own (own_eq_none_of_other hk ht)⟩

end Rows

end Moligate.Foundation
