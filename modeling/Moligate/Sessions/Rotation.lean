import Mathlib.Data.List.Nodup
import Moligate.Sessions.Denial

namespace Moligate.Sessions

open Foundation Option Stage

variable {rt : Runtime} {w w' : World} {p q : ℕ} {a : Action} {stage stage' : Stage} {k : After}
  {s₀ s : Session} {v : ℤ}

def World.spent (w : World) : List String := w.log.swaps.map Prod.snd

def World.chain (s₀ : Session) (w : World) : List String :=
  s₀.previousRefreshHash :: w.spent ++ (w.rows.committed ()).toList.map Session.refreshHash

structure Chained (s₀ : Session) (w : World) : Prop where
  row : ∃ s, w.rows.committed () = some s ∧ s.version = s₀.version ∧
    (∃ l, s₀.previousRefreshHash :: w.spent = l ++ [s.previousRefreshHash]) ∧
    (w.spent ++ [s.refreshHash]).Nodup
  accepted : w.log.accepted.Nodup ∧ ∀ h ∈ w.log.accepted, h ∈ w.spent
  issued : (w.log.issued.map Prod.snd).Nodup
  cache : ∀ e, w.cache = some e → e.value.version = s₀.version

/-- A hash that a call of `p` is to introduce, and that is not yet in the chain. -/
structure Pending (p : ℕ) (w : World) (hash : String) : Prop where
  issued : (p, hash) ∈ w.log.issued
  spent : hash ∉ w.spent
  current : ∀ s, w.rows.committed () = some s → s.refreshHash ≠ hash

def World.LiveOrRevoked (rt : Runtime) (now : ℤ) (w : World) : Prop :=
  ∃ s, w.rows.committed () = some s ∧ (s.isLive rt now = true ∨ s.status = .revoked)

structure Swapped (p : ℕ) (w : World) (hash : String) : Prop where
  swaps : (p, hash) ∈ w.log.swaps
  accepted : hash ∉ w.log.accepted

def After.Chains (rt : Runtime) (v : ℤ) (p : ℕ) (w : World) : After → Prop
  | .rotated r _ => Swapped p w r.presented
  | .reuseFenced r s => s.version = v ∧ w.LiveOrRevoked rt r.now
  | .reuseFinished _ => w.Revoked
  | .revokeFenced _ s => s.version = v
  | .advanced _ => False
  | _ => True

def After.isReuseFence : After → Bool
  | .reuseFenced _ _ => true
  | _ => false

def Stage.Chains (rt : Runtime) (v : ℤ) (p : ℕ) (w : World) : Stage → Prop
  | .getLoaded _ _ s | .revokeUpdate _ s => s.version = v
  | .rotate _ r | .rotateQuery _ r _ => Pending p w r.next
  | .rotateSwap _ r _ s => Pending p w r.next ∧ s.version = v ∧ s.refreshHash = r.presented
  | .reuseUpdate r s => s.version = v ∧ w.LiveOrRevoked rt r.now
  | .rotateEnd _ .previousExpired | .report (some _) => w.Revoked
  | .revokeLock _ s | .revokeCommit _ s => ∀ x, s = some x → x.version = v
  | .advanceLock _ _ | .advanceUpdate _ _ _ | .advanceCommit _ _ => False
  | .write entry _ k | .script entry _ _ k =>
    entry.version = v ∧ k.Chains rt v p w ∧ (k.isReuseFence → entry.status ≠ .active)
  | .complete entry _ k => k.Chains rt v p w ∧ (k.isReuseFence → entry.status ≠ .active)
  | .confirm _ k => k.Chains rt v p w ∧ k.isReuseFence = false
  | _ => True

structure Spares (rt : Runtime) (p : ℕ) (w w' : World) : Prop where
  apart : Apart p w.rows w'.rows
  pending : ∀ q ≠ p, ∀ hash, Pending q w hash → Pending q w' hash
  swapped : ∀ q ≠ p, ∀ hash, Swapped q w hash → Swapped q w' hash
  live : ∀ now, w.LiveOrRevoked rt now → w'.LiveOrRevoked rt now
  revoked : w.Revoked → w'.Revoked

theorem After.Chains.stable (hne : p ≠ q) (h : k.Chains rt v q w) (hs : Spares rt p w w') :
    k.Chains rt v q w' := by
  cases k with
  | rotated => exact hs.swapped q hne.symm _ h
  | reuseFenced => exact ⟨h.1, hs.live _ h.2⟩
  | reuseFinished => exact hs.revoked h
  | _ => exact h

theorem Stage.Chains.stable (hne : p ≠ q) (h : stage.Chains rt v q w) (hs : Spares rt p w w') :
    stage.Chains rt v q w' := by
  cases stage with
  | rotate | rotateQuery => exact hs.pending q hne.symm _ h
  | rotateSwap => exact ⟨hs.pending q hne.symm _ h.1, h.2⟩
  | reuseUpdate => exact ⟨h.1, hs.live _ h.2⟩
  | rotateEnd _ seen => cases seen <;> first | exact hs.revoked h | trivial
  | report r => cases r <;> first | exact hs.revoked h | trivial
  | write | script => exact ⟨h.1, h.2.1.stable hne hs, h.2.2⟩
  | complete | confirm => exact ⟨h.1.stable hne hs, h.2⟩
  | _ => exact h

def Stage.rewrites : Stage → Bool
  | .rotateSwap _ _ _ _ | .advanceCommit _ _ => true
  | _ => false

structure Kept (row row' : Session) : Prop where
  version : row'.version = row.version
  refreshHash : row'.refreshHash = row.refreshHash
  previousRefreshHash : row'.previousRefreshHash = row.previousRefreshHash
  status : row' = row ∨ row'.status = .revoked

theorem Kept.refl : Kept s s := ⟨rfl, rfl, rfl, .inl rfl⟩

theorem RowChange.kept {x y : Option Session} (h : RowChange rt stage x y) (hx : x = some s)
    (hstage : stage.rewrites = false) : ∃ s', y = some s' ∧ Kept s s' := by
  cases h with
  | same => exact ⟨s, hx, .refl⟩
  | create => cases hx
  | rotate => cases hstage
  | reuse => cases hx; exact ⟨_, rfl, rfl, rfl, rfl, .inr rfl⟩
  | commit hactive hdraft =>
    cases hx
    cases hdraft with
    | revoked => exact ⟨_, rfl, rfl, rfl, rfl, .inr rfl⟩
    | advanced => cases hstage

structure Still (v : ℤ) (w w' : World) : Prop where
  swaps : w'.log.swaps = w.log.swaps
  issued : w'.log.issued = w.log.issued
  accepted : w'.log.accepted = w.log.accepted
  cache : (∀ e, w.cache = some e → e.value.version = v) →
    ∀ e, w'.cache = some e → e.value.version = v

theorem Still.refl : Still v w w := ⟨rfl, rfl, rfl, id⟩

theorem Still.spent (h : Still v w w') : w'.spent = w.spent := by
  rw [World.spent, World.spent, h.swaps]

theorem Chained.kept (hC : Chained s₀ w) (hrow : RowStep rt p w.rows stage w'.rows stage')
    (hstage : stage.rewrites = false) :
    ∃ s s', w.rows.committed () = some s ∧ w'.rows.committed () = some s' ∧ Kept s s' := by
  obtain ⟨s, hs, -⟩ := hC.row
  obtain ⟨s', hs', hkept⟩ := hrow.change.kept hs hstage
  exact ⟨s, s', hs, hs', hkept⟩

theorem Still.pending {hash : String} (h : Still v w w') (hC : Chained s₀ w)
    (hrow : RowStep rt p w.rows stage w'.rows stage') (hstage : stage.rewrites = false)
    (hp : Pending q w hash) : Pending q w' hash := by
  obtain ⟨s, s', hs, hs', hkept⟩ := hC.kept hrow hstage
  refine ⟨h.issued ▸ hp.issued, h.spent ▸ hp.spent, ?_⟩
  intro x hx
  rw [hs', some.injEq] at hx
  rw [← hx, hkept.refreshHash]
  exact hp.current s hs

theorem live_of_kept {now : ℤ} {s' : Session} (hkept : Kept s s')
    (hs : w.rows.committed () = some s) (hs' : w'.rows.committed () = some s')
    (hlive : w.LiveOrRevoked rt now) : w'.LiveOrRevoked rt now := by
  obtain ⟨x, hx, hcase⟩ := hlive
  rw [hs, some.injEq] at hx
  refine ⟨s', hs', ?_⟩
  obtain rfl | hrevoked := hkept.status
  · exact hx ▸ hcase
  · exact .inr hrevoked

theorem Still.spares (h : Still v w w') (hC : Chained s₀ w)
    (hrow : RowStep rt p w.rows stage w'.rows stage') (hstage : stage.rewrites = false) :
    Spares rt p w w' := by
  obtain ⟨s, s', hs, hs', hkept⟩ := hC.kept hrow hstage
  refine ⟨hrow.apart, fun _ _ _ ↦ h.pending hC hrow hstage, ?_,
    fun _ ↦ live_of_kept hkept hs hs', hrow.revoked⟩
  exact fun q _ hash hswap ↦ ⟨h.swaps ▸ hswap.swaps, h.accepted ▸ hswap.accepted⟩

theorem Still.chained (h : Still s₀.version w w') (hC : Chained s₀ w)
    (hrow : RowStep rt p w.rows stage w'.rows stage') (hstage : stage.rewrites = false) :
    Chained s₀ w' := by
  obtain ⟨s, hs, hversion, hprevious, hnodup⟩ := hC.row
  obtain ⟨s', hs', hkept⟩ := hrow.change.kept hs hstage
  refine ⟨⟨s', hs', ?_⟩, ?_, h.issued ▸ hC.issued, h.cache hC.cache⟩
  · rw [h.spent, hkept.version, hkept.previousRefreshHash, hkept.refreshHash]
    exact ⟨hversion, hprevious, hnodup⟩
  · rw [h.spent, h.accepted]
    exact hC.accepted

def After.rotation : After → Option Rotation
  | .rotated r _ | .reuseFenced r _ | .reuseFinished r => some r
  | _ => none

def Stage.rotation : Stage → Option Rotation
  | .rotate _ r | .rotateQuery _ r _ | .rotateSwap _ r _ _ | .reuseUpdate r _ | .rotateEnd r _ =>
    some r
  | .report r => r
  | .write _ _ k | .script _ _ _ k | .complete _ _ k | .confirm _ k => k.rotation
  | _ => none

/-- The winner of a rotation: its hash is spent, and the one it was to introduce is the current
one. -/
structure Won (p : ℕ) (r : Rotation) (row : Session) (w w' : World) : Prop where
  row : w'.rows.committed () = some (row.rotate r.presented r)
  swaps : w'.log.swaps = w.log.swaps ++ [(p, r.presented)]
  issued : w'.log.issued = w.log.issued
  accepted : w'.log.accepted = w.log.accepted
  cache : w'.cache = w.cache

structure Extends (rt : Runtime) (s₀ : Session) (p : ℕ) (stage : Stage) (w w' : World)
    (stage' : Stage) : Prop where
  chained : Chained s₀ w'
  spares : Spares rt p w w'
  chains : stage'.Chains rt s₀.version p w'
  chain : w'.spent = w.spent ∧ w'.chain s₀ = w.chain s₀ ∨
    ∃ r row, stage.rotation = some r ∧ w.rows.committed () = some row ∧
      row.isLive rt r.now = true ∧ row.refreshHash = r.presented ∧ Won p r row w w'

theorem Still.chain_eq {before after : Stage} (h : Still v w w') (hC : Chained s₀ w)
    (hrow : RowStep rt p w.rows before w'.rows after) (hstage : before.rewrites = false) :
    w'.chain s₀ = w.chain s₀ := by
  obtain ⟨s, s', hs, hs', hkept⟩ := hC.kept hrow hstage
  rw [World.chain, World.chain, h.spent, hs, hs']
  simp [hkept.refreshHash]

theorem Still.extends {before : Stage} (h : Still s₀.version w w') (hC : Chained s₀ w)
    (hrow : RowStep rt p w.rows before w'.rows stage') (hstage : before.rewrites = false)
    (hchains : stage'.Chains rt s₀.version p w') : Extends rt s₀ p stage w w' stage' :=
  ⟨h.chained hC hrow hstage, h.spares hC hrow hstage, hchains,
    .inl ⟨h.spent, h.chain_eq hC hrow hstage⟩⟩

theorem Chained.stays (hC : Chained s₀ w) (hunchanged : Unchanged p w.rows)
    (hchains : stage'.Chains rt s₀.version p w) : Extends rt s₀ p stage w w stage' := by
  have hrow : RowStep rt p w.rows .idle w.rows stage' := hunchanged.rowStep
  exact Still.refl.extends hC hrow rfl hchains

section

theorem Chained.spent_nodup (hC : Chained s₀ w) : w.spent.Nodup := by
  obtain ⟨s, -, -, -, hnodup⟩ := hC.row
  exact (List.nodup_append.1 hnodup).1

variable {hash : String}

theorem accept_extends (hC : Chained s₀ w) (hswap : Swapped p w hash)
    (hchains : stage'.Chains rt s₀.version p
      { w with log := { w.log with accepted := w.log.accepted ++ [hash] } }) :
    Extends rt s₀ p stage w { w with log := { w.log with accepted := w.log.accepted ++ [hash] } }
      stage' := by
  have hspent : hash ∈ w.spent := List.mem_map_of_mem hswap.swaps
  refine ⟨⟨hC.row, ⟨?_, ?_⟩, hC.issued, hC.cache⟩, ?_, hchains, .inl ⟨rfl, rfl⟩⟩
  · exact List.nodup_append.2 ⟨hC.accepted.1, List.nodup_singleton _, fun x hx y hy heq ↦
      hswap.accepted (List.mem_singleton.1 hy ▸ heq ▸ hx)⟩
  · intro x hx
    obtain hx | hx := List.mem_append.1 hx
    · exact hC.accepted.2 x hx
    · exact List.mem_singleton.1 hx ▸ hspent
  · refine ⟨.refl, fun _ _ _ h ↦ { h with }, ?_, fun _ ↦ id, id⟩
    intro q hq x hx
    refine ⟨hx.swaps, fun hmem ↦ ?_⟩
    obtain hmem | hmem := List.mem_append.1 hmem
    · exact hx.accepted hmem
    · obtain rfl := List.mem_singleton.1 hmem
      exact hq (congrArg Prod.fst
        (List.inj_on_of_nodup_map hC.spent_nodup hx.swaps hswap.swaps rfl))

end

variable {entry : CacheEntry} {deadline : Option ℤ} {expiration d : ℤ} {r : Rotation}
  {z : Revocation}

variable {cache : Option (Expiring CacheEntry)} {row : Session} {attempts : ℕ} {millis : ℤ}

theorem writeScript_version (hentry : entry.version = v)
    (hcache : ∀ e, cache = some e → e.value.version = v) (e : Expiring CacheEntry)
    (he : (writeScript millis entry expiration cache).1 = some e) : e.value.version = v := by
  unfold writeScript at he
  dsimp only at he
  split at he
  · exact hcache e he
  split at he
  · exact hcache e he
  split at he
  · split at he <;> cases he
    exact hentry
  · cases he
    exact hentry

theorem Chained.cached_le (hC : Chained s₀ w) (hpos : 0 ≤ s₀.version) :
    (liveAt w.millis w.cache).elim 0 CacheEntry.version ≤ s₀.version := by
  cases hlive : liveAt w.millis w.cache with
  | none => exact hpos
  | some e =>
    obtain ⟨until?, hkey, -⟩ := liveAt_eq_some.1 hlive
    exact le_of_eq (hC.cache _ hkey)

theorem After.Chains.recached (h : k.Chains rt v p w) : k.Chains rt v p { w with cache } := by
  cases k with
  | rotated => exact { h with }
  | _ => exact h

theorem writeScript_refused (h : (writeScript millis entry expiration cache).2 ≠ true) :
    (writeScript millis entry expiration cache).1 = cache := by
  unfold writeScript at *
  dsimp only at *
  split at h
  next hdenied => rw [if_pos hdenied]
  next hdenied =>
    rw [if_neg hdenied]
    split at h
    next holder => rw [if_pos holder]
    · split at h <;> exact absurd rfl h

theorem Chained.version_eq (hC : Chained s₀ w) (hs : w.rows.committed () = some s) :
    s.version = s₀.version := by
  obtain ⟨x, hx, hversion, -⟩ := hC.row
  rw [hs, some.injEq] at hx
  exact hx ▸ hversion

theorem classify_eq_current (h : s.classify r = .current) : s.refreshHash = r.presented := by
  unfold Session.classify at h
  split at h
  · assumption
  · split at h
    · cases h
    · split at h <;> cases h

theorem Won.spent (h : Won p r row w w') : w'.spent = w.spent ++ [r.presented] := by
  rw [World.spent, h.swaps, List.map_append]
  rfl

theorem Chained.current_not_spent (hC : Chained s₀ w) (hs : w.rows.committed () = some s) :
    s.refreshHash ∉ w.spent := by
  obtain ⟨x, hx, -, -, hnodup⟩ := hC.row
  rw [hs, some.injEq] at hx
  subst hx
  exact fun hmem ↦ (List.nodup_append.1 hnodup).2.2 _ hmem _ (List.mem_singleton_self _) rfl

theorem Won.chained (h : Won p r row w w') (hC : Chained s₀ w)
    (hrow : w.rows.committed () = some row) (hcurrent : row.refreshHash = r.presented)
    (hpending : Pending p w r.next) : Chained s₀ w' := by
  have hversion : row.version = s₀.version := hC.version_eq hrow
  have hnext : r.presented ≠ r.next := hcurrent ▸ hpending.current row hrow
  refine ⟨⟨_, h.row, hversion, ⟨s₀.previousRefreshHash :: w.spent, ?_⟩, ?_⟩, ?_,
    h.issued ▸ hC.issued, h.cache ▸ hC.cache⟩
  · rw [h.spent]
    rfl
  · rw [h.spent, List.append_assoc, List.nodup_append]
    refine ⟨hC.spent_nodup, ?_, ?_⟩
    · exact List.nodup_cons.2 ⟨fun hmem ↦ hnext (List.mem_singleton.1 hmem), List.nodup_singleton _⟩
    · rintro x hx y hy rfl
      obtain rfl | hy := List.mem_cons.1 hy
      · exact hC.current_not_spent hrow (hcurrent ▸ hx)
      · rw [List.mem_singleton.1 hy] at hx
        exact hpending.spent hx
  · rw [h.spent, h.accepted]
    exact ⟨hC.accepted.1, fun x hx ↦ List.mem_append_left _ (hC.accepted.2 x hx)⟩

theorem Won.spares (h : Won p r row w w') (hC : Chained s₀ w)
    (hrow : w.rows.committed () = some row) (hcurrent : row.refreshHash = r.presented)
    (hpending : Pending p w r.next) (hstep : RowStep rt p w.rows stage w'.rows stage') :
    Spares rt p w w' := by
  refine ⟨hstep.apart, ?_, ?_, ?_, hstep.revoked⟩
  · intro q hq hash hother
    refine ⟨h.issued ▸ hother.issued, ?_, ?_⟩
    · rw [h.spent, List.mem_append, List.mem_singleton]
      rintro (hmem | rfl)
      · exact hother.spent hmem
      · exact hother.current row hrow hcurrent
    · intro y hy heq
      rw [h.row, some.injEq] at hy
      subst hy
      cases heq
      exact hq (congrArg Prod.fst
        (List.inj_on_of_nodup_map hC.issued hother.issued hpending.issued rfl))
  · intro q _ hash hother
    exact ⟨h.swaps ▸ List.mem_append_left _ hother.swaps, h.accepted ▸ hother.accepted⟩
  · rintro now ⟨y, hy, hcase⟩
    rw [hrow, some.injEq] at hy
    subst hy
    exact ⟨_, h.row, hcase⟩

theorem still_commit : Still v w (w.commit p) := by
  unfold World.commit
  dsimp only
  split <;> exact ⟨rfl, rfl, rfl, id⟩

/-- The hashes that rotations introduce are new, and the versions of the session stay. -/
def fresh (w : World) : Action → Bool
  | .rotate r => r.next ∉ w.log.issued.map Prod.snd && r.next ∉ w.spent &&
      (w.rows.committed ()).all fun s ↦ s.refreshHash ≠ r.next
  | .advance _ _ _ => false
  | _ => true

section

variable (hC : Chained s₀ w) (hunchanged : Unchanged p w.rows)
include hC hunchanged

theorem resume_extends {result : WriteResult} (hk : k.Chains rt s₀.version p w)
    (hfence : k.isReuseFence → result = .ok)
    (hstep : k.resume p w result = (w', stage')) : Extends rt s₀ p stage w w' stage' := by
  have hrow : RowStep rt p w.rows .idle w'.rows stage' := rowStep_resume hunchanged hstep
  cases k with
  | rotated r s =>
    cases result <;> cases hstep
    · exact accept_extends hC hk trivial
    · exact hC.stays hunchanged ⟨hk, rfl⟩
    all_goals exact hC.stays hunchanged trivial
  | reuseFenced r s =>
    obtain rfl := hfence rfl
    cases hstep
    exact hC.stays hunchanged hk
  | revokeFenced z s =>
    obtain ⟨kind, now, reason⟩ := z
    cases kind <;> cases result <;> cases hstep <;>
      refine Still.extends ⟨rfl, rfl, rfl, id⟩ hC hrow rfl ?_ <;>
      first | exact hk | exact (fun x hx ↦ some.inj hx ▸ hk) | trivial
  | finished z =>
    obtain ⟨kind, now, reason⟩ := z
    cases kind <;> cases hstep <;> exact hC.stays hunchanged trivial
  | reuseFinished => cases hstep; exact hC.stays hunchanged hk
  | advanced => cases hk
  | _ =>
    cases result <;> cases hstep <;> refine hC.stays hunchanged ?_ <;>
      trivial

theorem write_extends (h : (write entry deadline k).Chains rt s₀.version p w)
    (hstep : stepWrite rt p w entry deadline k = (w', stage')) : Extends rt s₀ p stage w w' stage' := by
  unfold stepWrite at hstep
  split at hstep
  next result hprepare =>
    apply resume_extends hC hunchanged h.2.1 ?_ hstep
    intro hfence
    rw [prepareWrite_deny (h.2.2 hfence)] at hprepare
    cases hprepare
  · cases hstep
    exact hC.stays hunchanged h

theorem script_extends (hpos : 0 ≤ s₀.version)
    (h : (script entry deadline expiration k).Chains rt s₀.version p w)
    (hstep : stepScript p w entry deadline expiration k = (w', stage')) :
    Extends rt s₀ p stage w w' stage' := by
  obtain ⟨hentry, hk, hdeny⟩ := h
  unfold stepScript at hstep
  dsimp only at hstep
  split at hstep
  · cases hstep
    have hrow : RowStep rt p w.rows .idle w.rows (.complete entry deadline k) :=
      hunchanged.rowStep
    exact Still.extends ⟨rfl, rfl, rfl, fun hcache ↦ writeScript_version hentry hcache⟩ hC hrow rfl
      ⟨hk.recached, hdeny⟩
  next hrefused =>
    rw [writeScript_refused hrefused] at hstep
    apply resume_extends hC hunchanged hk ?_ hstep
    -- the fence of a reuse is never older than what is cached
    exact fun hfence ↦
      absurd (writeScript_deny (hdeny hfence) (hentry ▸ hC.cached_le hpos) le_rfl).1 hrefused

theorem rotateQuery_chains (h : Pending p w r.next) :
    (stepRotateQuery rt p w attempts r d).Chains rt s₀.version p w := by
  unfold stepRotateQuery
  split
  · trivial
  rename_i s hs
  rw [filter_eq_some_iff, hunchanged.row_eq] at hs
  have hversion := hC.version_eq hs.1
  cases hseen : s.classify r with
  | current => exact ⟨h, hversion, classify_eq_current hseen⟩
  | previousExpired => exact ⟨hversion, ⟨hversion, s, hs.1, .inl hs.2⟩, nofun⟩
  | previousInGrace | other => trivial

theorem rotateSwap_extends (h : (rotateSwap attempts r d s).Chains rt s₀.version p w)
    (hstep : stepRotateSwap rt p w attempts r d s = some (w', stage')) :
    Extends rt s₀ p (.rotateSwap attempts r d s) w w' stage' := by
  obtain ⟨hpending, hversion, hread⟩ := h
  have hrowStep := rowStep_rotateSwap hunchanged hstep
  rw [stepRotateSwap] at hstep
  split at hstep
  · split at hstep
    · cases hstep
      exact hC.stays hunchanged hpending
    rename_i row hfound
    rw [filter_eq_some_iff, hunchanged.row_eq] at hfound
    obtain ⟨hrow, hcond⟩ := hfound
    simp only [Bool.and_eq_true, decide_eq_true_eq] at hcond
    have hwon : Won p r row w w' := by
      cases hstep
      exact ⟨hread ▸ committed_autocommit, rfl, rfl, rfl, rfl⟩
    refine ⟨hwon.chained hC hrow hcond.2 hpending,
      hwon.spares hC hrow hcond.2 hpending hrowStep, ?_,
      .inr ⟨r, row, rfl, hrow, hcond.1, hcond.2, hwon⟩⟩
    cases hstep
    refine ⟨hversion, ⟨hwon.swaps ▸ List.mem_append_right _ (List.mem_singleton_self _), ?_⟩,
      by rintro ⟨⟩⟩
    exact fun hmem ↦ hC.current_not_spent hrow (hcond.2 ▸ hC.accepted.2 _ hmem)
  · cases hstep

theorem reuseUpdate_extends (h : (reuseUpdate r s).Chains rt s₀.version p w)
    (hstep : stepReuseUpdate rt p w r s = some (w', stage')) : Extends rt s₀ p stage w w' stage' := by
  obtain ⟨hversion, x, hx, hcase⟩ := h
  have hrowStep := rowStep_reuseUpdate hunchanged hstep
  rw [stepReuseUpdate, hunchanged.row_eq, hx] at hstep
  split at hstep
  · split at hstep
    next hnone =>
      -- the row was usable when it was read, so it has been revoked since
      cases hstep
      rw [filter_eq_none_iff] at hnone
      refine hC.stays hunchanged ⟨x, hx, ?_⟩
      exact hcase.resolve_left fun hlive ↦ hnone x rfl hlive
    · cases hstep
      exact Still.extends ⟨rfl, rfl, rfl, id⟩ hC hrowStep rfl
        ⟨hversion, ⟨_, committed_autocommit, rfl⟩, by rintro ⟨⟩⟩
  · cases hstep

theorem revokeLock_extends {candidate : Option Session}
    (h : (revokeLock z candidate).Chains rt s₀.version p w)
    (hstep : stepRevokeLock rt p w z candidate = some (w', stage')) :
    Extends rt s₀ p stage w w' stage' := by
  have hrow : RowStep rt p w.rows .idle w'.rows stage' := rowStep_revokeLock hunchanged hstep
  obtain ⟨out, hlock, hout⟩ := map_eq_some_iff.1 hstep
  obtain ⟨rows, rfl, -⟩ := lockRow_spec hunchanged hlock
  dsimp only at hout
  split at hout <;> split at hout <;> cases hout <;>
    refine Still.extends ⟨rfl, rfl, rfl, id⟩ hC hrow rfl ?_
  · exact h _ rfl
  · trivial
  next hs =>
    have hversion := hC.version_eq (filter_eq_some_iff.1 hs).1
    exact ⟨hversion, hversion, nofun⟩
  · trivial
  next hs => exact hC.version_eq (filter_eq_some_iff.1 hs).1
  · trivial

theorem revokeUpdate_extends (h : s.version = s₀.version)
    (hstep : stepRevokeUpdate p w z s = some (w', stage')) : Extends rt s₀ p stage w w' stage' := by
  have hrow : RowStep rt p w.rows .idle w'.rows stage' := rowStep_revokeUpdate hunchanged hstep
  rw [stepRevokeUpdate] at hstep
  split at hstep
  · split at hstep <;> cases hstep <;> refine Still.extends ⟨rfl, rfl, rfl, id⟩ hC hrow rfl ?_
    · exact fun x hx ↦ some.inj hx ▸ h
    · exact fun x hx ↦ some.inj hx ▸ h
    · rintro _ ⟨⟩
  · cases hstep

theorem startCall_extends (hfresh : fresh w a = true)
    (hstep : startCall rt p w a = some (w', stage')) : Extends rt s₀ p stage w w' stage' := by
  have hrow : RowStep rt p w.rows .idle w'.rows stage' := by
    rw [(startCall_quiet hstep).1]
    exact hunchanged.rowStep
  cases a with
  | get =>
    change some (startGet w) = _ at hstep
    unfold startGet at hstep
    split at hstep <;> cases hstep <;> exact hC.stays hunchanged trivial
  | create | revokeByRefreshHash =>
    simp only [startCall, ite_none_right_eq_some, some.injEq] at hstep
    cases hstep.2
    exact hC.stays hunchanged (by first | trivial | rintro _ ⟨⟩)
  | rotate r =>
    simp only [startCall, ite_none_right_eq_some, some.injEq] at hstep
    simp only [fresh, Bool.and_eq_true, decide_eq_true_eq, all_eq_true] at hfresh
    cases hstep.2
    refine ⟨{ hC with issued := ?_ },
      ⟨.refl, fun _ _ _ h ↦ { h with issued := List.mem_append_left _ h.issued },
        fun _ _ _ h ↦ { h with }, fun _ ↦ id, id⟩,
      ⟨List.mem_append_right _ (List.mem_singleton_self _), hfresh.1.2, hfresh.2⟩, .inl ⟨rfl, rfl⟩⟩
    rw [List.map_append, List.nodup_append]
    refine ⟨hC.issued, List.nodup_singleton _, fun x hx y hy heq ↦ hfresh.1.1 ?_⟩
    rwa [heq, List.mem_singleton.1 hy] at hx
  | advance => cases hfresh
  | revoke | revokeAll => cases hstep; exact hC.stays hunchanged trivial
  | tick => cases hstep; exact Still.extends ⟨rfl, rfl, rfl, id⟩ hC hrow rfl trivial
  | next | rollback => cases hstep

end

theorem advanceStage_extends (hC : Chained s₀ w) (hpos : 0 ≤ s₀.version)
    (hown : OwnRow p w.rows stage) (h : stage.Chains rt s₀.version p w)
    (hstep : advanceStage rt p w stage = some (w', stage')) : Extends rt s₀ p stage w w' stage' := by
  by_cases hcommits : stage.commits
  · cases stage <;> cases hcommits
    · rename_i session
      cases hstep
      apply still_commit.extends hC (rowStep_commit hown) rfl
      cases session with
      | none => trivial
      | some x => exact ⟨h x rfl, trivial, by rintro ⟨⟩⟩
    · cases h
  have hunchanged := hown.unchanged (Bool.eq_false_iff.2 hcommits)
  have hrow : RowStep rt p w.rows .idle w.rows stage' := hunchanged.rowStep
  cases stage with
  | idle => cases hstep
  | getQuery late deadline =>
    cases hstep
    refine hC.stays hunchanged ?_
    rw [hunchanged.row_eq]
    cases hs : w.rows.committed () with
    | none => trivial
    | some s => exact hC.version_eq hs
  | getEntry =>
    cases hstep
    refine hC.stays hunchanged ?_
    unfold stepGetEntry
    split <;> trivial
  | getLoaded =>
    cases hstep
    refine hC.stays hunchanged ?_
    unfold stepGetLoaded
    split <;> exact ⟨h, trivial, by rintro ⟨⟩⟩
  | create =>
    obtain ⟨x, hx, -⟩ := hC.row
    rw [advanceStage, stepCreate, hunchanged.row_eq, hx] at hstep
    split at hstep <;> cases hstep
    exact hC.stays hunchanged trivial
  | rotate attempts =>
    cases attempts <;> cases hstep
    · exact hC.stays hunchanged trivial
    · exact hC.stays hunchanged h
  | rotateQuery =>
    cases hstep
    exact hC.stays hunchanged (rotateQuery_chains hC hunchanged h)
  | rotateSwap => exact rotateSwap_extends hC hunchanged h hstep
  | reuseUpdate => exact reuseUpdate_extends hC hunchanged h hstep
  | revokeQuery =>
    cases hstep
    refine hC.stays hunchanged ?_
    unfold stepRevokeQuery
    split
    next s _ hs =>
      rw [filter_eq_some_iff, hunchanged.row_eq] at hs
      exact ⟨hC.version_eq hs.1, hC.version_eq hs.1, by rintro ⟨⟩⟩
    · trivial
    · trivial
  | revokeLock => exact revokeLock_extends hC hunchanged h hstep
  | revokeUpdate => exact revokeUpdate_extends hC hunchanged h hstep
  | report r =>
    cases hstep
    refine Still.extends ⟨rfl, rfl, rfl, id⟩ hC hrow rfl ?_
    cases r <;> exact h
  | write => exact write_extends hC hunchanged h (some.inj hstep)
  | script => exact script_extends hC hunchanged hpos h (some.inj hstep)
  | complete entry deadline k =>
    apply resume_extends hC hunchanged h.1 ?_ (some.inj hstep)
    exact fun hfence ↦ by rw [completeWrite, if_neg (h.2 hfence)]
  | confirm _ k =>
    apply resume_extends hC hunchanged h.1 ?_ (some.inj hstep)
    intro hfence
    rw [h.2] at hfence
    cases hfence
  | advanceLock | advanceUpdate => cases h
  | revokeCommit | advanceCommit => exact absurd rfl hcommits
  | _ => cases hstep; exact hC.stays hunchanged trivial

theorem perform_extends (hC : Chained s₀ w) (hpos : 0 ≤ s₀.version) (hown : OwnRow p w.rows stage)
    (h : stage.Chains rt s₀.version p w) (hfresh : fresh w a = true)
    (hstep : perform rt p w a stage = some (w', stage')) : Extends rt s₀ p stage w w' stage' := by
  obtain ⟨-, hnext⟩ | ⟨-, -, rfl, rfl⟩ | ⟨rfl, hstart⟩ := perform_cases hstep
  · exact advanceStage_extends hC hpos hown h hnext
  · have hrow : RowStep rt p w.rows .idle (w.rows.rollback p) .idle := rowStep_rollback
    exact Still.extends ⟨rfl, rfl, rfl, id⟩ hC hrow rfl trivial
  · exact startCall_extends hC (hown.unchanged rfl) hfresh hstart

end Moligate.Sessions
