import Mathlib.Data.List.Nodup
import Moligate.AuthFlows.Model

namespace Moligate.AuthFlows

open Foundation Strings Option List Rows

variable {rt : Runtime} {τ : Type} [DecidableEq τ] {db db' : Db τ} {t t' : τ} {hash : String}
  {row flow : AuthFlow} {r : Option AuthFlow}

def AuthFlow.terms (flow : AuthFlow) : AuthFlow := { flow with consumedAt := none }

theorem eq_of_terms (h : row.terms = flow.terms) (hrow : row.consumedAt = none)
    (hflow : flow.consumedAt = none) : row = flow := by
  cases row
  cases flow
  simp only [AuthFlow.terms, AuthFlow.mk.injEq] at h hrow hflow ⊢
  simpa [hrow, hflow] using h

def Present (db : Db τ) (hash : String) (row : AuthFlow) : Prop :=
  db.flows.committed hash = some row ∨ ∃ t, db.flows.own t hash = some (some row)

/-- The committed consumption was one of an open flow that had not expired and that had all the
required fields. -/
structure Consumed.Sound (rt : Runtime) (x : Consumed) : Prop where
  stored : x.stored = some x.consumption.flow
  opened : x.consumption.flow.consumedAt = none
  unexpired : x.consumption.now < x.consumption.flow.expiresAt
  required : applyAuthFlowMatch rt x.consumption.token x.consumption.required
    x.consumption.flow = true

/-- The assertion may not be accepted again before it expires. -/
def Claim.Fenced (c : Claim) : Prop := c.expiresAt ≤ c.now + authFlowDefaultCleanupRetention

/-- The row that keeps an accepted assertion from being accepted again. -/
def Stored (rt : Runtime) (db : Db τ) (c : Claim) : Prop :=
  ∃ row, db.flows.committed (c.tokenHash rt) = some row ∧ row.consumedAt = some c.now ∧
    row.expiresAt = c.expiresAt

/-- Of two acceptances of one assertion the second is later than the first expires. -/
def Apart (rt : Runtime) (a b : Accepted) : Prop :=
  a.claim.tokenHash rt = b.claim.tokenHash rt → a.claim.Fenced → a.claim.expiresAt < b.acceptedAt

structure Invariant (rt : Runtime) (db : Db τ) : Prop where
  ids : ∀ hash row, Present db hash row → row.id < db.nextId
  versions : ∀ hash row row', Present db hash row → Present db hash row' → row.id = row'.id →
    row.terms = row'.terms
  spent : ∀ x ∈ db.consumed, ∀ row, Present db (authFlowTokenHash rt x.consumption.token) row →
    row.consumedAt ≠ none
  once : (db.consumed.map fun x ↦ authFlowTokenHash rt x.consumption.token).Nodup
  sound : ∀ x ∈ db.consumed, x.Sound rt
  held : ∀ a ∈ db.accepted, a.claim.Fenced → a.claim.expiresAt < db.clock ∨ Stored rt db a.claim
  apart : db.accepted.Pairwise (Apart rt)

/-- What a step leaves to the call of `t`. -/
structure Spares (t : τ) (db db' : Db τ) : Prop where
  clock : db.clock ≤ db'.clock
  nextId : db.nextId ≤ db'.nextId
  present : ∀ hash row, Present db' hash row →
    db.nextId ≤ row.id ∨ ∃ row₀, Present db hash row₀ ∧ row₀.terms = row.terms
  own : ∀ hash, db'.flows.own t hash = db.flows.own t hash
  locked : ∀ hash, db.flows.own t hash ≠ none →
    db'.flows.committed hash = db.flows.committed hash

def Keeps (t : τ) (db db' : Db τ) : Prop := ∀ t' ≠ t, Spares t' db db'

def Unlocked (db : Db τ) (t : τ) : Prop := ∀ hash, db.flows.own t hash = none

structure Selected (rt : Runtime) (t : τ) (db : Db τ) (token : String) (required : AuthFlowMatch)
    (flow : AuthFlow) : Prop where
  named : token ≠ "" ∧ required.purpose ≠ ""
  id : flow.id < db.nextId
  known : ∀ row, Present db (authFlowTokenHash rt token) row → row.id = flow.id →
    row.terms = flow.terms
  required : applyAuthFlowMatch rt token required flow = true
  owns : ∀ hash r, db.flows.own t hash = some r →
    hash = authFlowTokenHash rt token ∧ r = db.flows.committed hash

structure Consumes (rt : Runtime) (t : τ) (db : Db τ) (c : Consumption) : Prop where
  named : c.token ≠ "" ∧ c.required.purpose ≠ ""
  opened : c.flow.consumedAt = none
  unexpired : c.now < c.flow.expiresAt
  required : applyAuthFlowMatch rt c.token c.required c.flow = true
  committed : db.flows.committed (authFlowTokenHash rt c.token) = some c.flow
  own : db.flows.own t (authFlowTokenHash rt c.token) =
    some (some { c.flow with consumedAt := some c.now })

structure Inserts (rt : Runtime) (t : τ) (db : Db τ) (c : Claim) : Prop where
  committed : db.flows.committed (c.tokenHash rt) = none
  own : ∃ id, db.flows.own t (c.tokenHash rt) = some (some (c.flow rt id))

structure Works (rt : Runtime) (t : τ) (db : Db τ) (w : Work) : Prop where
  consumes : ∀ c ∈ w.consumption, Consumes rt t db c
  inserts : ∀ c ∈ w.claims, Inserts rt t db c
  nodup : (w.claims.map (Claim.tokenHash rt)).Nodup
  owns : ∀ hash, db.flows.own t hash ≠ none →
    (∃ c ∈ w.consumption, authFlowTokenHash rt c.token = hash) ∨
      ∃ c ∈ w.claims, c.tokenHash rt = hash

def Stage.Holds (rt : Runtime) (t : τ) (db : Db τ) : Stage → Prop
  | .idle _ => Unlocked db t
  | .create _ _ => Unlocked db t
  | .select token required => Unlocked db t ∧ token ≠ "" ∧ required.purpose ≠ ""
  | .check token required flow => Selected rt t db token required flow
  | .update c => Selected rt t db c.token c.required c.flow ∧ c.flow.consumedAt = none ∧
      c.now < c.flow.expiresAt
  | .action w => Works rt t db w
  | .insert w _ => Works rt t db w
  | .commit w => Works rt t db w
  | .delete now => Unlocked db t ∧ now ≤ db.clock

variable {token : String} {required : AuthFlowMatch} {c : Consumption} {claim : Claim} {w : Work}
  {stage : Stage}

theorem Unlocked.spared (h : Unlocked db t) (hs : Spares t db db') : Unlocked db' t :=
  fun hash ↦ (hs.own hash).trans (h hash)

theorem Selected.spared (h : Selected rt t db token required flow) (hs : Spares t db db') :
    Selected rt t db' token required flow := by
  refine ⟨h.named, lt_of_lt_of_le h.id hs.nextId, fun row hrow hid ↦ ?_, h.required,
    fun hash r hr ↦ ?_⟩
  · rcases hs.present _ row hrow with hnew | ⟨row₀, hrow₀, hterms⟩
    · exact absurd (hid ▸ h.id) (not_lt_of_ge hnew)
    · have hid₀ : row₀.terms.id = row.terms.id := congrArg AuthFlow.id hterms
      exact hterms.symm.trans (h.known row₀ hrow₀ (hid₀.trans hid))
  · rw [hs.own] at hr
    rw [hs.locked hash (ne_none_iff_exists'.2 ⟨r, hr⟩)]
    exact h.owns hash r hr

theorem Consumes.spared (h : Consumes rt t db c) (hs : Spares t db db') : Consumes rt t db' c := by
  have hown := ne_none_iff_exists'.2 ⟨_, h.own⟩
  exact ⟨h.named, h.opened, h.unexpired, h.required, (hs.locked _ hown).trans h.committed,
    (hs.own _).trans h.own⟩

theorem Inserts.spared (h : Inserts rt t db claim) (hs : Spares t db db') :
    Inserts rt t db' claim := by
  obtain ⟨id, hid⟩ := h.own
  have hown := ne_none_iff_exists'.2 ⟨_, hid⟩
  exact ⟨(hs.locked _ hown).trans h.committed, id, (hs.own _).trans hid⟩

theorem Works.spared (h : Works rt t db w) (hs : Spares t db db') : Works rt t db' w where
  consumes c hc := (h.consumes c hc).spared hs
  inserts c hc := (h.inserts c hc).spared hs
  nodup := h.nodup
  owns hash hown := h.owns hash (hs.own hash ▸ hown)

theorem Stage.Holds.spared (h : stage.Holds rt t db) (hs : Spares t db db') :
    stage.Holds rt t db' := by
  cases stage with
  | idle | create => exact Unlocked.spared h hs
  | select | update => exact ⟨h.1.spared hs, h.2⟩
  | check token required flow => exact Selected.spared h hs
  | action | insert | commit => exact Works.spared h hs
  | delete now => exact ⟨h.1.spared hs, le_trans h.2 hs.clock⟩

omit [DecidableEq τ] in
theorem Stored.of_committed {c : Claim} (h : Stored rt db c)
    (hc : db'.flows.committed = db.flows.committed) : Stored rt db' c := by
  obtain ⟨row, hrow, hfields⟩ := h
  exact ⟨row, (congrFun hc _).trans hrow, hfields⟩

theorem Invariant.of_present (hI : Invariant rt db) (hclock : db.clock ≤ db'.clock)
    (hnext : db'.nextId = db.nextId) (hconsumed : db'.consumed = db.consumed)
    (haccepted : db'.accepted = db.accepted)
    (hpresent : ∀ hash row, Present db' hash row → Present db hash row)
    (hstored : ∀ a ∈ db.accepted, a.claim.Fenced → Stored rt db a.claim →
      a.claim.expiresAt < db'.clock ∨ Stored rt db' a.claim) :
    Invariant rt db' := by
  refine ⟨fun hash row hrow ↦ ?_, fun hash row row' hrow hrow' ↦ ?_, fun x hx row hrow ↦ ?_,
    hconsumed ▸ hI.once, hconsumed ▸ hI.sound, fun a ha hfenced ↦ ?_, haccepted ▸ hI.apart⟩
  · exact hnext ▸ hI.ids hash row (hpresent hash row hrow)
  · exact hI.versions hash row row' (hpresent hash row hrow) (hpresent hash row' hrow')
  · exact hI.spent x (hconsumed ▸ hx) row (hpresent _ row hrow)
  · rw [haccepted] at ha
    rcases hI.held a ha hfenced with hpast | hheld
    · exact .inl (lt_of_lt_of_le hpast hclock)
    · exact hstored a ha hfenced hheld

structure Writes (t : τ) (hash : String) (row : AuthFlow) (db db' : Db τ) : Prop where
  free : db.flows.free t hash = true
  origin : db.nextId ≤ row.id ∨ ∃ row₀, Present db hash row₀ ∧ row₀.terms = row.terms
  flows : db'.flows = db.flows.write t hash (some row)
  clock : db'.clock = db.clock
  nextId : db.nextId ≤ db'.nextId
  consumed : db'.consumed = db.consumed
  accepted : db'.accepted = db.accepted

section

variable (h : Writes t hash row db db')
include h

theorem Writes.present {hash' : String} {row' : AuthFlow} (hrow : Present db' hash' row') :
    Present db hash' row' ∨ hash' = hash ∧ row' = row := by
  rw [Present, h.flows] at hrow
  rcases hrow with hrow | ⟨t', hown⟩
  · exact .inl (.inl hrow)
  by_cases hself : t' = t ∧ hash' = hash
  · obtain ⟨rfl, rfl⟩ := hself
    rw [own_write_self, some.injEq, some.injEq] at hown
    exact .inr ⟨rfl, hown.symm⟩
  · refine .inl (.inr ⟨t', ?_⟩)
    by_cases ht : t' = t
    · rwa [own_write_of_ne fun hhash ↦ hself ⟨ht, hhash⟩] at hown
    · rwa [own_write_other h.free ht] at hown

theorem Writes.keeps : Keeps t db db' := by
  intro t' ht
  refine ⟨le_of_eq h.clock.symm, h.nextId, fun hash' row' hrow' ↦ ?_, fun hash' ↦ ?_,
    fun hash' _ ↦ ?_⟩
  · rcases h.present hrow' with hold | ⟨rfl, rfl⟩
    · exact .inr ⟨row', hold, rfl⟩
    · exact h.origin
  · rw [h.flows, own_write_other h.free ht]
  · rw [h.flows, committed_write]

theorem Writes.versions (hI : Invariant rt db) {row' : AuthFlow} (hrow' : Present db hash row')
    (hid : row'.id = row.id) : row'.terms = row.terms := by
  rcases h.origin with hnew | ⟨row₀, hrow₀, hterms⟩
  · exact absurd (hI.ids hash row' hrow') (not_lt_of_ge (hid ▸ hnew))
  · have hid₀ : row₀.terms.id = row.terms.id := congrArg AuthFlow.id hterms
    exact (hI.versions hash row' row₀ hrow' hrow₀ (hid.trans hid₀.symm)).trans hterms

theorem Writes.invariant (hI : Invariant rt db) (hid : row.id < db'.nextId)
    (hunspent : row.consumedAt = none →
      ∀ x ∈ db.consumed, authFlowTokenHash rt x.consumption.token ≠ hash) :
    Invariant rt db' := by
  have hcommitted : db'.flows.committed = db.flows.committed := by
    rw [h.flows, committed_write]
  refine ⟨fun hash' row' hrow' ↦ ?_, fun hash' row₁ row₂ hrow₁ hrow₂ heq ↦ ?_,
    fun x hx row' hrow' hopen ↦ ?_, h.consumed ▸ hI.once, h.consumed ▸ hI.sound,
    fun a ha hfenced ↦ ?_, h.accepted ▸ hI.apart⟩
  · rcases h.present hrow' with hold | ⟨-, rfl⟩
    · exact lt_of_lt_of_le (hI.ids hash' row' hold) h.nextId
    · exact hid
  · rcases h.present hrow₁ with hold₁ | ⟨rfl, rfl⟩ <;> rcases h.present hrow₂ with hold₂ | ⟨h₂, rfl⟩
    · exact hI.versions hash' row₁ row₂ hold₁ hold₂ heq
    · exact h.versions hI (h₂ ▸ hold₁) heq
    · exact (h.versions hI hold₂ heq.symm).symm
    · rfl
  · rw [h.consumed] at hx
    rcases h.present hrow' with hold | ⟨hhash, rfl⟩
    · exact hI.spent x hx row' hold hopen
    · exact hunspent hopen x hx hhash
  · rw [h.accepted] at ha
    rw [h.clock]
    exact (hI.held a ha hfenced).imp_right fun hstored ↦ hstored.of_committed hcommitted

end

theorem writes_new (hfree : ¬(!db.flows.free t hash) = true) (hid : row.id = db.nextId) :
    Writes t hash row db
      { db with flows := db.flows.write t hash (some row), nextId := db.nextId + 1 } :=
  ⟨by simpa using hfree, .inl (le_of_eq hid.symm), rfl, rfl, by dsimp only; omega, rfl, rfl⟩

theorem writes_known (hfree : db.flows.free t hash = true) (hflow : Present db hash flow)
    (hterms : flow.terms = row.terms) :
    Writes t hash row db { db with flows := db.flows.write t hash (some row) } :=
  ⟨hfree, .inr ⟨flow, hflow, hterms⟩, rfl, rfl, le_rfl, rfl, rfl⟩

theorem present_rollback (h : Present (db.rollback t) hash row) : Present db hash row := by
  refine h.imp id fun ⟨t', hown⟩ ↦ ⟨t', ?_⟩
  by_cases ht : t' = t
  · rw [Db.rollback, ht, own_rollback_self] at hown
    cases hown
  · rwa [Db.rollback, own_rollback_other ht] at hown

theorem Invariant.rollback (hI : Invariant rt db) : Invariant rt (db.rollback t) :=
  hI.of_present le_rfl rfl rfl rfl (fun _ _ ↦ present_rollback)
    fun _ _ _ hstored ↦ .inr (hstored.of_committed rfl)

def Db.commit (db : Db τ) (t : τ) : Db τ := { db with flows := db.flows.commit t }

theorem present_commit (h : Present (db.commit t) hash row) : Present db hash row := by
  rcases h with hrow | ⟨t', hown⟩
  · change db.flows.read t hash = some row at hrow
    cases hown : db.flows.own t hash with
    | none => exact .inl (read_of_not_own hown ▸ hrow)
    | some r =>
      rw [read_of_own hown] at hrow
      exact .inr ⟨t, hrow ▸ hown⟩
  · by_cases ht : t' = t
    · rw [Db.commit, ht, own_commit_self] at hown
      cases hown
    · exact .inr ⟨t', by rwa [Db.commit, own_commit_other ht] at hown⟩

theorem keeps_commit : Keeps t db (db.commit t) := by
  intro t' ht
  refine ⟨le_rfl, le_rfl, fun _ row hrow ↦ .inr ⟨row, present_commit hrow, rfl⟩,
    fun _ ↦ own_commit_other ht, fun _ hown ↦ read_of_not_own (own_eq_none_of_other hown ht)⟩

omit [DecidableEq τ] in
theorem committed_delete (db : Db τ) (now : ℤ) (hash : String) :
    (deleteExpiredAuthFlows db now).flows.committed hash = db.flows.committed hash ∨
      ∃ flow, db.flows.committed hash = some flow ∧ flow.outdated now = true := by
  cases hrow : db.flows.committed hash with
  | none => left; simp [deleteExpiredAuthFlows, modifyFree, hrow]
  | some flow =>
    cases hold : flow.outdated now with
    | false => left; simp [deleteExpiredAuthFlows, modifyFree, hrow, hold]
    | true => exact .inr ⟨flow, rfl, hold⟩

variable {now : ℤ}

theorem present_delete (h : Present (deleteExpiredAuthFlows db now) hash row) :
    Present db hash row := by
  refine h.imp (fun hrow ↦ ?_) id
  simp only [deleteExpiredAuthFlows, modifyFree] at hrow
  split at hrow
  · exact (filter_eq_some_iff.1 hrow).1
  · exact hrow

theorem Invariant.delete (hI : Invariant rt db) (hnow : now ≤ db.clock) :
    Invariant rt (deleteExpiredAuthFlows db now) := by
  refine hI.of_present le_rfl rfl rfl rfl (fun _ _ ↦ present_delete) ?_
  rintro a ha hfenced ⟨row, hrow, hconsumed, hexpires⟩
  rcases committed_delete db now (a.claim.tokenHash rt) with hkept | ⟨flow, hflow, houtdated⟩
  · exact .inr ⟨row, hkept.trans hrow, hconsumed, hexpires⟩
  obtain rfl := some.inj (hrow.symm.trans hflow)
  simp only [AuthFlow.outdated, hconsumed, hexpires, any_some, Bool.or_eq_true,
    decide_eq_true_eq] at houtdated
  simp only [Claim.Fenced, authFlowDefaultCleanupRetention] at hfenced houtdated
  exact .inl (lt_of_lt_of_le (b := now) (by omega) hnow)

theorem Spares.tick (h : db.clock ≤ now) : Spares t db { db with clock := now } :=
  ⟨h, le_rfl, fun _ row hrow ↦ .inr ⟨row, hrow, rfl⟩, fun _ ↦ rfl, fun _ _ ↦ rfl⟩

theorem Invariant.tick (hI : Invariant rt db) (h : db.clock ≤ now) :
    Invariant rt { db with clock := now } :=
  hI.of_present h rfl rfl rfl (fun _ _ hrow ↦ hrow) fun _ _ _ hstored ↦ .inr hstored

theorem Keeps.refl : Keeps t db db := fun _ _ ↦ .tick le_rfl

theorem Keeps.trans {db₁ : Db τ} (h : Keeps t db db₁) (h' : Keeps t db₁ db') : Keeps t db db' := by
  intro t' ht
  have hs := h t' ht
  have hs' := h' t' ht
  refine ⟨le_trans hs.clock hs'.clock, le_trans hs.nextId hs'.nextId, fun hash row hrow ↦ ?_,
    fun hash ↦ (hs'.own hash).trans (hs.own hash), fun hash hown ↦ ?_⟩
  · rcases hs'.present hash row hrow with hnew | ⟨row₁, hrow₁, hterms⟩
    · exact .inl (le_trans hs.nextId hnew)
    · have hid : row₁.terms.id = row.terms.id := congrArg AuthFlow.id hterms
      rcases hs.present hash row₁ hrow₁ with hnew | ⟨row₀, hrow₀, hterms₀⟩
      · exact .inl (le_of_le_of_eq hnew hid)
      · exact .inr ⟨row₀, hrow₀, hterms₀.trans hterms⟩
  · rw [hs'.locked hash (hs.own hash ▸ hown), hs.locked hash hown]

theorem Works.stored (h : Works rt t db w) {c : Claim} (hc : Stored rt db c) :
    db.flows.read t (c.tokenHash rt) = db.flows.committed (c.tokenHash rt) := by
  obtain ⟨row, hrow, hconsumed, -⟩ := hc
  refine read_of_not_own (by_contra fun hown ↦ ?_)
  rcases h.owns _ hown with ⟨x, hx, hhash⟩ | ⟨c', hc', hhash⟩
  · obtain rfl := some.inj (hrow.symm.trans (hhash ▸ (h.consumes x hx).committed))
    exact some_ne_none _ (hconsumed.symm.trans (h.consumes x hx).opened)
  · have hnone := (h.inserts c' hc').committed
    rw [hhash, hrow] at hnone
    cases hnone

theorem Invariant.commit (hI : Invariant rt db)
    (h : ∀ c, Stored rt db c →
      db.flows.read t (c.tokenHash rt) = db.flows.committed (c.tokenHash rt)) :
    Invariant rt (db.commit t) := by
  refine hI.of_present le_rfl rfl rfl rfl (fun _ _ ↦ present_commit) fun a _ _ hstored ↦ .inr ?_
  obtain ⟨row, hrow, hfields⟩ := hstored
  exact ⟨row, (h _ ⟨row, hrow, hfields⟩).trans hrow, hfields⟩

theorem Consumes.present_commit {c : Consumption} (h : Consumes rt t db c)
    (hrow : Present (db.commit t) (authFlowTokenHash rt c.token) row) :
    row.consumedAt = some c.now := by
  rcases hrow with hrow | ⟨t', hown⟩
  · obtain rfl := some.inj ((read_of_own h.own).symm.trans hrow)
    rfl
  · by_cases ht : t' = t
    · rw [Db.commit, ht, own_commit_self] at hown
      cases hown
    · rw [Db.commit, own_commit_other ht] at hown
      exact absurd (own_unique hown h.own) ht

theorem Inserts.apart {c : Claim} (hI : Invariant rt db) (h : Inserts rt t db c) {a : Accepted}
    (ha : a ∈ db.accepted) : Apart rt a ⟨c, db.clock⟩ := by
  intro hhash hfenced
  refine (hI.held a ha hfenced).resolve_right ?_
  rintro ⟨row, hrow, -⟩
  rw [hhash, h.committed] at hrow
  cases hrow

theorem Works.invariant_commitWork (hI : Invariant rt db) (h : Works rt t db w) :
    Invariant rt (commitWork rt db t w).1 := by
  have hI' : Invariant rt (db.commit t) := hI.commit fun _ ↦ h.stored
  refine ⟨hI'.ids, hI'.versions, fun x hx row hrow ↦ ?_, ?_, fun x hx ↦ ?_, fun a ha hfenced ↦ ?_, ?_⟩
  · rcases mem_append.1 hx with hx | hx
    · exact hI'.spent x hx row hrow
    · obtain ⟨c, hc, rfl⟩ := mem_map.1 hx
      rw [(h.consumes c (mem_toList.1 hc)).present_commit hrow]
      exact some_ne_none _
  · change ((db.consumed ++ _).map _).Nodup
    rw [map_append]
    cases hw : w.consumption with
    | none => simpa using hI.once
    | some c =>
      refine hI.once.append (nodup_singleton _) (disjoint_singleton.2 fun hmem ↦ ?_)
      obtain ⟨x, hx, hhash⟩ := mem_map.1 hmem
      have hconsumes := h.consumes c hw
      exact hI.spent x hx c.flow (.inl (hhash ▸ hconsumes.committed)) hconsumes.opened
  · rcases mem_append.1 hx with hx | hx
    · exact hI.sound x hx
    · obtain ⟨c, hc, rfl⟩ := mem_map.1 hx
      have hconsumes := h.consumes c (mem_toList.1 hc)
      exact ⟨hconsumes.committed, hconsumes.opened, hconsumes.unexpired, hconsumes.required⟩
  · rcases mem_append.1 ha with ha | ha
    · exact hI'.held a ha hfenced
    · obtain ⟨c, hc, rfl⟩ := mem_map.1 ha
      obtain ⟨id, hown⟩ := (h.inserts c hc).own
      exact .inr ⟨c.flow rt id, read_of_own hown, rfl, rfl⟩
  · refine pairwise_append.2 ⟨hI.apart, pairwise_map.2 ?_, fun a ha b hb ↦ ?_⟩
    · exact (pairwise_map.1 h.nodup).imp fun hne heq ↦ absurd heq hne
    · obtain ⟨c, hc, rfl⟩ := mem_map.1 hb
      exact (h.inserts c hc).apart hI ha

variable {input : AuthFlowCreate} {e : AuthFlowError} {out : Db τ × Stage}

abbrev Safe (rt : Runtime) (t : τ) (db : Db τ) (out : Db τ × Stage) : Prop :=
  Config.Safe (Invariant rt) (fun t db stage ↦ stage.Holds rt t db) Keeps t db out

section

variable (hI : Invariant rt db)
include hI

theorem safe_stage (h : stage.Holds rt t db) : Safe rt t db (db, stage) :=
  ⟨hI, h, .refl⟩

theorem safe_failWith : Safe rt t db (failWith db t e) :=
  ⟨hI.rollback, fun _ ↦ own_rollback_self, fun _ ht ↦ ⟨le_rfl, le_rfl,
    fun _ row hrow ↦ .inr ⟨row, present_rollback hrow, rfl⟩, fun _ ↦ own_rollback_other ht,
    fun _ _ ↦ rfl⟩⟩

theorem safe_insertFlow (h : Unlocked db t) (hout : insertFlow rt db t token input = some out) :
    Safe rt t db out := by
  rw [insertFlow] at hout
  split at hout
  · cases hout
  next hfresh =>
  split at hout
  · cases hout
  next hfree =>
  split at hout
  · cases hout
    exact safe_stage hI h
  next hnone =>
  cases hout
  rw [read_of_not_own (h _)] at hnone
  have hnew : (input.flow rt token db.nextId).id = db.nextId := rfl
  have hwrites := writes_new hfree hnew
  have hunspent : ∀ x ∈ db.consumed,
      authFlowTokenHash rt x.consumption.token ≠ authFlowTokenHash rt token := by
    simpa using hfresh
  have hI' := hwrites.invariant hI (Int.lt_succ db.nextId) fun _ ↦ hunspent
  refine ⟨hI'.commit ?_, fun _ ↦ own_commit_self, hwrites.keeps.trans keeps_commit⟩
  rintro c ⟨row, hrow, -⟩
  refine read_of_not_own ?_
  have hne : c.tokenHash rt ≠ authFlowTokenHash rt token := by
    intro heq
    rw [heq, committed_write, hnone] at hrow
    cases hrow
  rw [own_write_of_ne hne, h]

theorem safe_selectFlow (h : Unlocked db t) (hnamed : token ≠ "" ∧ required.purpose ≠ "")
    (hout : selectFlow rt db t token required = some out) : Safe rt t db out := by
  rw [selectFlow, read_of_not_own (h _)] at hout
  split at hout
  · cases hout
    exact safe_failWith hI
  next flow hflow =>
  have hpresent : Present db (authFlowTokenHash rt token) flow := .inl hflow
  split at hout
  · cases hout
    exact safe_failWith hI
  next hrequired =>
  rw [Bool.not_eq_true, Bool.not_eq_false'] at hrequired
  split at hout
  · cases hout
    refine safe_stage hI ⟨hnamed, hI.ids _ flow hpresent, fun row hrow ↦ ?_, hrequired, ?_⟩
    · exact hI.versions _ row flow hrow hpresent
    · intro hash r hr
      rw [h hash] at hr
      cases hr
  split at hout
  next hfree =>
    cases hout
    have hwrites := writes_known hfree hpresent rfl
    have hI' := hwrites.invariant hI (hI.ids _ flow hpresent) fun hopen x hx hhash ↦
      hI.spent x hx flow (hhash ▸ hpresent) hopen
    refine ⟨hI', ⟨hnamed, hI.ids _ flow hpresent, fun row hrow ↦ ?_, hrequired, ?_⟩, hwrites.keeps⟩
    · exact hI'.versions _ row flow hrow (.inl hflow)
    · intro hash r hr
      by_cases hhash : hash = authFlowTokenHash rt token
      · subst hhash
        rw [own_write_self] at hr
        exact ⟨rfl, (some.inj hr).symm.trans hflow.symm⟩
      · rw [own_write_of_ne hhash, h hash] at hr
        cases hr
  · cases hout

theorem safe_checkFlow (h : Selected rt t db token required flow) :
    Safe rt t db (checkFlow db t token required flow) := by
  rw [checkFlow]
  split
  · exact safe_failWith hI
  next hopen =>
  split
  · exact safe_failWith hI
  next hunexpired =>
  exact safe_stage hI ⟨h, by simpa using hopen, not_not.1 hunexpired⟩

end

theorem Selected.read (h : Selected rt t db token required flow) :
    db.flows.read t (authFlowTokenHash rt token) =
      db.flows.committed (authFlowTokenHash rt token) := by
  cases hown : db.flows.own t (authFlowTokenHash rt token) with
  | none => exact read_of_not_own hown
  | some r => exact (read_of_own hown).trans (h.owns _ r hown).2

theorem Unlocked.works (h : Unlocked db t) : Works rt t db ⟨none, []⟩ :=
  ⟨fun _ hc ↦ absurd hc (not_mem_none _), forall_mem_nil _, nodup_nil,
    fun hash hown ↦ absurd (h hash) hown⟩

theorem Works.unowned (h : Works rt t db w) (hnone : db.flows.read t hash = none) :
    db.flows.own t hash = none := by
  by_contra hown
  rcases h.owns hash hown with ⟨c, hc, rfl⟩ | ⟨c, hc, rfl⟩
  · rw [read_of_own (h.consumes c hc).own] at hnone
    cases hnone
  · obtain ⟨id, hid⟩ := (h.inserts c hc).own
    rw [read_of_own hid] at hnone
    cases hnone

theorem Works.insert (h : Works rt t db w) (hwrites : Writes t (claim.tokenHash rt)
      (claim.flow rt db.nextId) db db') (hnone : db.flows.own t (claim.tokenHash rt) = none)
    (hcommitted : db.flows.committed (claim.tokenHash rt) = none) :
    Works rt t db' { w with claims := w.claims ++ [claim] } := by
  have hown {hash : String} {r : Option AuthFlow} (hr : db.flows.own t hash = some r) :
      db'.flows.own t hash = some r := by
    have hne : hash ≠ claim.tokenHash rt := by
      rintro rfl
      rw [hnone] at hr
      cases hr
    rwa [hwrites.flows, own_write_of_ne hne]
  have hrows : db'.flows.committed = db.flows.committed := by
    rw [hwrites.flows, committed_write]
  refine ⟨fun c hc ↦ ?_, fun c hc ↦ ?_, ?_, fun hash hhash ↦ ?_⟩
  · have hold := h.consumes c hc
    exact { hold with committed := hrows ▸ hold.committed, own := hown hold.own }
  · rcases mem_append.1 hc with hc | hc
    · obtain ⟨id, hid⟩ := (h.inserts c hc).own
      exact ⟨hrows ▸ (h.inserts c hc).committed, id, hown hid⟩
    · obtain rfl := mem_singleton.1 hc
      exact ⟨hrows ▸ hcommitted, db.nextId, by rw [hwrites.flows, own_write_self]⟩
  · rw [map_append]
    refine List.Nodup.append h.nodup (nodup_singleton _) ?_
    refine disjoint_singleton.2 fun hmem ↦ ?_
    obtain ⟨c, hc, hhash⟩ := mem_map.1 hmem
    obtain ⟨id, hid⟩ := (h.inserts c hc).own
    rw [hhash, hnone] at hid
    cases hid
  · by_cases hclaim : hash = claim.tokenHash rt
    · exact .inr ⟨claim, mem_append_right _ (mem_singleton_self _), hclaim.symm⟩
    · rw [hwrites.flows, own_write_of_ne hclaim] at hhash
      refine (h.owns hash hhash).imp_right fun ⟨c, hc, heq⟩ ↦ ⟨c, ?_, heq⟩
      exact mem_append_left _ hc

variable (hI : Invariant rt db)
include hI

theorem safe_updateFlow (h : Selected rt t db c.token c.required c.flow)
    (hopen : c.flow.consumedAt = none) (hunexpired : c.now < c.flow.expiresAt)
    (hout : updateFlow rt db t c = some out) : Safe rt t db out := by
  rw [updateFlow, h.read] at hout
  split at hout
  · cases hout
  next hfree =>
  split at hout
  · cases hout
    exact safe_failWith hI
  next stored hstored =>
  split at hout
  next hrow =>
    cases hout
    have hpresent : Present db (authFlowTokenHash rt c.token) stored := .inl hstored
    -- The row that is updated is the one that was selected.
    obtain rfl : stored = c.flow :=
      eq_of_terms (h.known stored hpresent hrow.1) hrow.2.1 hopen
    have hterms : c.flow.terms = AuthFlow.terms { c.flow with consumedAt := some c.now } := rfl
    have hwrites := writes_known (by simpa using hfree) hpresent hterms
    have hI' := hwrites.invariant hI (hI.ids _ c.flow hpresent) fun hnone ↦
      absurd hnone (some_ne_none _)
    refine ⟨hI', ⟨?_, forall_mem_nil _, nodup_nil, fun hash hown ↦ .inl ?_⟩, hwrites.keeps⟩
    · intro c' hc'
      obtain rfl := mem_some_iff.1 hc'
      exact ⟨h.named, hopen, hunexpired, h.required, hstored, own_write_self⟩
    · refine ⟨c, rfl, by_contra fun hne ↦ ?_⟩
      rw [own_write_of_ne (Ne.symm hne)] at hown
      obtain ⟨r, hr⟩ := ne_none_iff_exists'.1 hown
      exact hne (h.owns hash r hr).1.symm
  · cases hout
    exact safe_failWith hI

theorem safe_refuse (h : Works rt t db w) : Safe rt t db (refuse db t w e) := by
  rw [refuse]
  split
  · exact safe_failWith hI
  · exact safe_stage hI h

theorem safe_claimExternalAuthAssertion {purpose assertion : String} {expiresAt : ℤ}
    (h : Works rt t db w) :
    Safe rt t db (claimExternalAuthAssertion db t w purpose assertion expiresAt) := by
  rw [claimExternalAuthAssertion]
  split
  · exact safe_refuse hI h
  · exact safe_stage hI h

theorem safe_insertClaim (h : Works rt t db w) (hout : insertClaim rt db t w claim = some out) :
    Safe rt t db out := by
  rw [insertClaim] at hout
  split at hout
  · cases hout
  next hfree =>
  split at hout
  · cases hout
    exact safe_refuse hI h
  next hnone =>
  cases hout
  have hown := h.unowned hnone
  rw [read_of_not_own hown] at hnone
  have hnew : (claim.flow rt db.nextId).id = db.nextId := rfl
  have hwrites := writes_new hfree hnew
  have hI' := hwrites.invariant hI (Int.lt_succ db.nextId) fun hopen ↦
    absurd hopen (some_ne_none _)
  have hworks := h.insert hwrites hown hnone
  refine ⟨hI', ?_, hwrites.keeps⟩
  split <;> exact hworks

theorem safe_perform {a : Action} (h : stage.Holds rt t db)
    (hout : perform rt t a db stage = some out) : Safe rt t db out := by
  cases a with
  | tick now =>
    obtain ⟨hnow, hout⟩ := ite_none_right_eq_some.1 hout
    cases hout
    exact ⟨hI.tick hnow, h.spared (.tick hnow), fun _ _ ↦ .tick hnow⟩
  | createAuthFlow token input =>
    cases stage with
    | idle result => exact some.inj hout ▸ safe_stage hI (by rw [createAuthFlow]; split <;> exact h)
    | _ => cases hout
  | consumeAuthFlowWithAction token required =>
    cases stage with
    | idle result =>
      cases hout
      refine safe_stage hI ?_
      rw [consumeAuthFlowWithAction]
      split
      · exact h
      next hnamed => exact ⟨h, not_or.1 hnamed⟩
    | _ => cases hout
  | claimExternalAuthAssertion purpose assertion expiresAt =>
    cases stage with
    | idle result =>
      exact some.inj hout ▸ safe_claimExternalAuthAssertion hI (Unlocked.works h)
    | action w => exact some.inj hout ▸ safe_claimExternalAuthAssertion hI h
    | _ => cases hout
  | deleteExpiredAuthFlows =>
    cases stage with
    | idle result => exact some.inj hout ▸ safe_stage hI ⟨h, le_rfl⟩
    | _ => cases hout
  | next =>
    cases stage with
    | idle | action => cases hout
    | create token input => exact safe_insertFlow hI h hout
    | select token required => exact safe_selectFlow hI h.1 h.2 hout
    | check token required flow => exact some.inj hout ▸ safe_checkFlow hI h
    | update c => exact safe_updateFlow hI h.1 h.2.1 h.2.2 hout
    | insert w claim => exact safe_insertClaim hI h hout
    | commit w =>
      cases hout
      refine ⟨Works.invariant_commitWork hI h, fun _ ↦ own_commit_self, fun t' ht ↦ ?_⟩
      have hs : Spares t' db (db.commit t) := keeps_commit t' ht
      exact ⟨le_rfl, le_rfl, hs.present, hs.own, hs.locked⟩
    | delete now =>
      cases hout
      exact ⟨hI.delete h.2, h, fun _ _ ↦ ⟨le_rfl, le_rfl,
        fun _ row hrow ↦ .inr ⟨row, present_delete hrow, rfl⟩, fun _ ↦ rfl,
        fun _ hown ↦ committed_modifyFree_of_own hown⟩⟩
  | succeed =>
    cases stage with
    | action w => exact some.inj hout ▸ safe_stage hI h
    | delete now => exact some.inj hout ▸ safe_stage hI h.1
    | _ => cases hout
  | fail =>
    cases stage with
    | idle result => cases hout
    | _ => exact some.inj hout ▸ safe_failWith hI

end Moligate.AuthFlows
