import Mathlib
import Moligate.Wallet.Reserve

namespace Moligate.Wallet

open Foundation Users Option World System Redis

variable {rt : Runtime} {w w' : World} {p q : ℕ} {a : Action} {stage stage' : Stage}
  {r r' : Redis} {x amount b start₀ : ℤ} {user : User}

section

def liveQuota (r : Redis) : Option ℤ := r.userHash.bind UserHash.quota

def CachedBelow (b : ℤ) (r : Redis) : Prop := ∀ x, liveQuota r = some x → x ≤ b

variable {id : ℤ}

theorem liveQuota_of_cachedQuota (h : r.cachedQuota id = some x) : liveQuota r = some x := by
  obtain ⟨hash, hhash, hquota⟩ := bind_eq_some_iff.1 h
  rw [liveQuota, hhash, bind_some]
  split at hquota
  · exact hquota
  · cases hquota

theorem liveQuota_addQuota (h : liveQuota r = some x) :
    liveQuota (r.addQuota amount) = some (x + amount) := by
  obtain ⟨hash, hhash, hquota⟩ := bind_eq_some_iff.1 h
  rw [liveQuota, addQuota, userHash_modifyHash, hhash]
  simp [hquota]

theorem cacheTryReserveUserQuota_ok (h : cacheTryReserveUserQuota id amount r = (r', .ok)) :
    ∃ x, liveQuota r = some x ∧ amount ≤ x ∧ liveQuota r' = some (x - amount) := by
  unfold cacheTryReserveUserQuota at h
  split at h
  · cases h
  rename_i x hx
  have hlive := liveQuota_of_cachedQuota hx
  split at h
  · cases h
  next hle =>
    cases h
    exact ⟨x, hlive, by omega, liveQuota_addQuota hlive⟩

theorem CachedBelow.mono {b' : ℤ} (h : CachedBelow b r) (hle : b ≤ b') :
    CachedBelow b' r := fun x hx ↦ le_trans (h x hx) hle

theorem CachedBelow.compensate (hpos : 0 ≤ amount) (h : CachedBelow b r) :
    CachedBelow (b + amount) (cacheApplyUserQuotaDelta id amount r).1 := by
  unfold cacheApplyUserQuotaDelta
  split
  · exact h.mono (by omega)
  rename_i x hx
  have hlive := liveQuota_of_cachedQuota hx
  intro y hy
  rw [liveQuota_addQuota hlive, some.injEq] at hy
  have := h x hlive
  omega

theorem liveQuota_writeUserCache {ttl : ℤ} (httl : 0 ≤ ttl)
    (h : liveQuota (writeUserCache ttl user true r).1 = some x) :
    liveQuota r = some x ∨ liveQuota r = none ∧ x = user.quota := by
  unfold writeUserCache at h
  split at h
  · exact .inl h
  split at h
  · exact .inl h
  split at h
  · exact .inl h
  have hlive : ((r.promote user.authVersion).setHash
      (some ⟨user.toHash true r.userHash, r.deadline ttl⟩)).userHash =
      some (user.toHash true r.userHash) :=
    liveAt_some_of_le (show r.now ≤ r.now + 1000 * ttl by omega)
  rw [liveQuota, hlive, bind_some, User.toHash] at h
  cases hquota : liveQuota r with
  | none =>
    rw [liveQuota] at hquota
    rw [hquota] at h
    exact .inr ⟨rfl, (some.inj h).symm⟩
  | some y =>
    rw [liveQuota] at hquota
    rw [hquota] at h
    exact .inl h

theorem CachedBelow.tick {ms : ℕ} (h : CachedBelow b r) :
    CachedBelow b { r with now := r.now + ms } := by
  intro x hx
  obtain ⟨hash, hhash, hquota⟩ := bind_eq_some_iff.1 hx
  apply h x
  have : r.userHash = some hash := liveAt_of_le (show r.now ≤ r.now + ms by omega) hhash
  rw [liveQuota, this, bind_some, hquota]

end

/-- What is left for reservations: the row without the debits that it has not seen. -/
def World.balance (w : World) : ℤ := w.user.quota - w.unsettled

def World.heldSum (w : World) : ℤ := (w.held.map Prod.snd).sum

structure Solvent (start₀ : ℤ) (w : World) : Prop where
  total : w.balance + w.granted + w.heldSum = start₀
  cached : CachedBelow w.balance w.redis
  floor : 0 ≤ w.balance ∨ w.balance = start₀ ∧ w.held = []
  held : ∀ h ∈ w.held, 0 < h.2

theorem sum_erase {held : List (ℕ × ℤ)} {y : ℕ × ℤ} (h : y ∈ held) :
    ((held.erase y).map Prod.snd).sum = (held.map Prod.snd).sum - y.2 := by
  have hperm := ((List.perm_cons_erase h).map Prod.snd).sum_eq
  rw [List.map_cons, List.sum_cons] at hperm
  omega

def Stage.Holds (p : ℕ) (w : World) : Stage → Prop
  | .persist amount | .compensate amount => (p, amount) ∈ w.held
  | .reserve amount _ | .fallback amount => 0 < amount
  | .getHash call | .getFloor call _ | .query call | .checkFloor call _ | .populate call _ =>
    ∀ amount, call = some amount → 0 < amount
  | _ => True

def Leaves (p : ℕ) (w w' : World) : Prop := ∀ q ≠ p, ∀ x, (q, x) ∈ w.held → (q, x) ∈ w'.held

theorem Stage.Holds.stable (hne : p ≠ q) (h : stage.Holds q w) (hl : Leaves p w w') :
    stage.Holds q w' := by
  cases stage with
  | persist | compensate => exact hl q hne.symm _ h
  | _ => exact h

theorem leaves_erase (hheld : w'.held = w.held.erase (p, amount)) : Leaves p w w' := by
  intro q hq x hx
  rw [hheld, List.mem_erase_of_ne]
  · exact hx
  · rintro ⟨rfl⟩
    exact hq rfl

/-- A hydration that sets a balance does not set more than is left, and the row grants a
reservation only when that much is left and the cache does not offer it too. -/
def covered (w : World) : Stage → Bool
  | .populate _ user => (liveQuota w.redis).isSome || user.quota ≤ w.balance
  | .fallback amount => w.user.quota < amount ||
      amount ≤ w.balance && (liveQuota w.redis).all (· ≤ w.balance - amount)
  | _ => true

structure Keeps (start₀ : ℤ) (p : ℕ) (w w' : World) (stage' : Stage) : Prop where
  solvent : Solvent start₀ w'
  holds : stage'.Holds p w'
  leaves : Leaves p w w'

theorem keeps_same (hS : Solvent start₀ w) (h : stage'.Holds p w) : Keeps start₀ p w w stage' :=
  ⟨hS, h, fun _ _ _ ↦ id⟩

theorem keeps_redis (hS : Solvent start₀ w) (hr : CachedBelow w.balance r)
    (h : stage'.Holds p { w with redis := r }) : Keeps start₀ p w { w with redis := r } stage' :=
  ⟨{ hS with cached := hr }, h, fun _ _ _ ↦ id⟩

theorem hydrated_holds {call : Option ℤ} (h : ∀ amount, call = some amount → 0 < amount) :
    (hydrated call).Holds p w ∧ (notHydrated call).Holds p w := by
  cases call with
  | none => exact ⟨trivial, trivial⟩
  | some amount => exact ⟨h amount rfl, h amount rfl⟩

section

variable (hS : Solvent start₀ w)
include hS

theorem reserve_keeps {again : Bool} (hpos : 0 < amount)
    (hstep : stepReserve p w amount again = (w', stage')) : Keeps start₀ p w w' stage' := by
  unfold stepReserve at hstep
  split at hstep
  next redis hok =>
    obtain ⟨x, hx, hle, hx'⟩ := cacheTryReserveUserQuota_ok hok
    cases hstep
    have hbelow := hS.cached x hx
    have htotal := hS.total
    unfold balance heldSum at *
    refine ⟨⟨?_, ?_, ?_, ?_⟩, List.mem_append_right _ (List.mem_singleton_self _), ?_⟩
    · simp only [balance, heldSum, List.map_append, List.sum_append, List.map_cons,
        List.map_nil, List.sum_cons, List.sum_nil]
      omega
    · intro y hy
      rw [hx', some.injEq] at hy
      simp only [balance]
      omega
    · left
      simp only [balance]
      omega
    · intro y hy
      obtain hy | hy := List.mem_append.1 hy
      · exact hS.held y hy
      · exact List.mem_singleton.1 hy ▸ hpos
    · exact fun _ _ _ hmem ↦ List.mem_append_left _ hmem
  · cases hstep
    exact keeps_same hS trivial
  · cases hstep
    refine keeps_same hS ?_
    split
    · exact hpos
    · exact fun y hy ↦ some.inj hy ▸ hpos

/-- A reservation that is not held any more: the row has got it, or the store has, or the cache has
got it back. -/
theorem released_keeps (hheld : (p, amount) ∈ w.held) (hheld' : w'.held = w.held.erase (p, amount))
    (htotal : w'.balance + w'.granted = w.balance + w.granted + amount)
    (hcached : CachedBelow w'.balance w'.redis) (hle : w.balance ≤ w'.balance) :
    Keeps start₀ p w w' .idle := by
  have hpos := hS.held _ hheld
  have hsum : w'.heldSum = w.heldSum - amount := by
    rw [heldSum, hheld', sum_erase hheld]
    rfl
  have hold := hS.total
  refine ⟨⟨by omega, hcached, ?_, ?_⟩, trivial, leaves_erase hheld'⟩
  · obtain hfloor | ⟨-, hnil⟩ := hS.floor
    · exact .inl (le_trans hfloor hle)
    · rw [hnil] at hheld
      cases hheld
  · intro y hy
    rw [hheld'] at hy
    exact hS.held y (List.mem_of_mem_erase hy)

theorem persist_keeps (hheld : (p, amount) ∈ w.held) :
    Keeps start₀ p w (stepPersist rt p w amount) .idle := by
  unfold stepPersist
  split
  · exact released_keeps hS hheld rfl (add_assoc ..).symm hS.cached le_rfl
  · have hbalance : w.user.quota - amount - (w.unsettled - amount) = w.balance :=
      sub_sub_sub_cancel_right ..
    apply released_keeps hS hheld rfl
    · simp only [balance] at *
      omega
    · exact hS.cached.mono (le_of_eq hbalance.symm)
    · exact le_of_eq hbalance.symm

theorem compensate_keeps (hheld : (p, amount) ∈ w.held)
    (hcached : CachedBelow (w.balance + amount) r) :
    Keeps start₀ p w (stepCompensate p w amount r) .idle := by
  have hbalance : (stepCompensate p w amount r).balance = w.balance + amount := by
    unfold stepCompensate balance
    dsimp only
    omega
  have hpos := hS.held _ hheld
  apply released_keeps hS hheld rfl
  · rw [hbalance]
    change w.balance + amount + w.granted = _
    omega
  · rw [hbalance]
    exact hcached
  · omega

theorem fallback_keeps (hcovered : covered w (.fallback amount) = true) :
    Keeps start₀ p w (stepFallback w amount) .idle := by
  unfold stepFallback
  split
  next hle =>
    simp only [covered, Bool.or_eq_true, Bool.and_eq_true, decide_eq_true_eq,
      all_eq_true] at hcovered
    obtain ⟨hleft, hcached⟩ := hcovered.resolve_left (by omega)
    have htotal := hS.total
    unfold balance heldSum at *
    refine ⟨⟨?_, ?_, ?_, hS.held⟩, trivial, fun _ _ _ ↦ id⟩
    · simp only [balance, heldSum]
      omega
    · intro x hx
      have := hcached x hx
      simp only [balance]
      omega
    · left
      simp only [balance]
      omega
  · exact keeps_same hS trivial

theorem populate_keeps {call : Option ℤ} (hcall : ∀ amount, call = some amount → 0 < amount)
    (hcovered : covered w (.populate call user) = true)
    (hstep : stepPopulate rt w call user = (w', stage')) : Keeps start₀ p w w' stage' := by
  have httl : 0 ≤ userCacheTTLSeconds rt.redisKeyCacheSeconds := by
    unfold userCacheTTLSeconds
    split <;> omega
  have hcached : CachedBelow w.balance
      (writeUserCache (userCacheTTLSeconds rt.redisKeyCacheSeconds) user true w.redis).1 := by
    intro x hx
    obtain hold | ⟨hnone, rfl⟩ := liveQuota_writeUserCache httl hx
    · exact hS.cached x hold
    · simpa [covered, hnone] using hcovered
  unfold stepPopulate at hstep
  split at hstep <;> next hwrite =>
    rw [hwrite] at hcached
    cases hstep
    refine keeps_redis hS hcached ?_
    first | exact (hydrated_holds hcall).1 | exact (hydrated_holds hcall).2

theorem advance_keeps (h : stage.Holds p w) (hcovered : covered w stage = true)
    (hstep : advance rt p w stage = some (w', stage')) : Keeps start₀ p w w' stage' := by
  cases stage with
  | idle => cases hstep
  | reserve => exact reserve_keeps hS h (some.inj hstep)
  | persist => cases hstep; exact persist_keeps hS h
  | compensate =>
    cases hstep
    exact compensate_keeps hS h (hS.cached.compensate (le_of_lt (hS.held _ h)))
  | fallback => cases hstep; exact fallback_keeps hS hcovered
  | getHash call =>
    cases hstep
    refine keeps_same hS ?_
    cases w.redis.usableHash w.user.id <;> exact h
  | getFloor =>
    cases hstep
    refine keeps_same hS ?_
    split
    · exact h
    · exact (hydrated_holds h).1
  | query => cases hstep; exact keeps_same hS h
  | checkFloor =>
    cases hstep
    refine keeps_same hS ?_
    split
    · exact (hydrated_holds h).2
    · exact h
  | populate => exact populate_keeps hS h hcovered (some.inj hstep)
  | flush value =>
    cases hstep
    have hbalance : balance { w with
        user := { w.user with quota := w.user.quota + value }
        unsettled := w.unsettled + value } = w.balance := by
      unfold balance
      dsimp only
      omega
    refine ⟨⟨hbalance ▸ hS.total, hbalance ▸ hS.cached, hbalance ▸ hS.floor, hS.held⟩, trivial,
      fun _ _ _ ↦ id⟩

theorem failed_keeps (h : stage.Holds p w) (hstep : failed rt p w stage = some (w', stage')) :
    Keeps start₀ p w w' stage' := by
  cases stage with
  | idle => cases hstep
  | persist =>
    rw [failed] at hstep
    split at hstep <;> cases hstep
    exact keeps_same hS h
  | compensate =>
    cases hstep
    exact compensate_keeps hS h (hS.cached.mono (by have := hS.held _ h; dsimp only at this; omega))
  | query | populate => cases hstep; exact keeps_same hS (by first
      | exact (hydrated_holds h).1
      | exact (hydrated_holds h).2)
  | fallback | flush => cases hstep; exact keeps_same hS trivial
  | _ => cases hstep; exact keeps_same hS h

theorem start_keeps (hstep : start w a = (w', stage')) : Keeps start₀ p w w' stage' := by
  cases a <;> cases hstep
  · refine keeps_same hS ?_
    split
    · trivial
    next hpos => exact not_le.1 hpos
  · exact keeps_same hS nofun
  · exact ⟨{ hS with }, trivial, fun _ _ _ ↦ id⟩
  · exact keeps_redis hS nofun trivial
  · exact keeps_redis hS hS.cached.tick trivial
  · exact keeps_same hS trivial
  · exact keeps_same hS trivial

theorem perform_keeps (h : stage.Holds p w) (hcovered : covered w stage = true)
    (hstep : perform rt p w a stage = some (w', stage')) : Keeps start₀ p w w' stage' := by
  unfold perform at hstep
  split at hstep
  · exact advance_keeps hS h hcovered hstep
  · exact failed_keeps hS h hstep
  · exact start_keeps hS (some.inj hstep)
  · cases hstep

end

variable {as : List (ℕ × Action)} {c : System}

/-- When every hydration and every reservation by the row is covered, the reservations that returned
`true` do not exceed the balance at the start. -/
theorem no_overreservation (hcache : CachedBelow user.quota r)
    (hg : Guarded (step rt) (fun c a ↦ covered c.shared (c.thread a.1) = true)
      (System.start user r) as)
    (hrun : exec (step rt) (System.start user r) as = some c) :
    c.shared.granted ≤ max user.quota 0 := by
  have h := Config.exec_holds (I := Solvent user.quota) (L := fun p w stage ↦ stage.Holds p w)
    (R := Leaves) (G := fun _ _ w stage ↦ covered w stage = true)
    (fun p a w stage w' stage' hS hL hcovered hstep ↦
      have hkeeps := perform_keeps hS hL hcovered hstep
      ⟨hkeeps.solvent, hkeeps.holds, hkeeps.leaves⟩)
    (fun p q w w' stage hne hL hl ↦ hL.stable hne hl) ?_ hg hrun
  · have hheld : 0 ≤ c.shared.heldSum := by
      apply List.sum_nonneg
      intro x hx
      obtain ⟨y, hy, rfl⟩ := List.mem_map.1 hx
      exact le_of_lt (h.1.held y hy)
    have htotal := h.1.total
    obtain hfloor | hfloor := h.1.floor <;> omega
  · have hbalance : (System.start user r).shared.balance = user.quota := sub_zero _
    refine ⟨⟨?_, ?_, .inr ⟨hbalance, rfl⟩, ?_⟩, fun _ ↦ trivial⟩
    · rw [hbalance]
      simp [System.start, heldSum]
    · rw [hbalance]
      exact hcache
    · intro x hx
      cases hx

namespace Example

def account : User := ⟨1, ⟨"default", "", 1, 1, "name", ""⟩, 100, 1⟩

def redis : Redis := ⟨0, none, none, none⟩

def nexts (p n : ℕ) : List (ℕ × Action) := List.replicate n (p, .next)

/-- The whole balance is reserved, the cache is dropped while the debit waits in the store, and the
balance is reserved again. -/
def stored : List (ℕ × Action) :=
  (1, .reserve 100) :: nexts 1 7 ++ (3, .invalidate) :: (2, .reserve 100) :: nexts 2 7

def direct : List (ℕ × Action) :=
  (1, .reserve 100) :: nexts 1 6 ++ (3, .invalidate) :: (2, .reserve 100) :: nexts 2 7 ++ nexts 1 1

def flushed : List (ℕ × Action) :=
  (1, .reserve 60) :: nexts 1 7 ++ (4, .batchUpdate) :: (4, .next) :: (3, .invalidate) ::
    (2, .reserve 60) :: nexts 2 6 ++ (5, .reserve 40) :: nexts 5 2

end Example

open Example

/-- With and without the batch store, twice the balance is reserved. -/
theorem reserved_twice :
    ((exec (step ⟨true, 60⟩) (System.start account Example.redis) stored).map
      fun c ↦ c.shared.granted) = some 200 ∧
    ((exec (step ⟨false, 60⟩) (System.start account Example.redis) direct).map
      fun c ↦ c.shared.granted) = some 200 := by
  decide +kernel

theorem no_overreservation_flushed :
    ∃ c, exec (step ⟨true, 60⟩) (System.start account Example.redis) flushed =
      some c ∧ c.shared.granted = 100 ∧ c.shared.granted ≤ max account.quota 0 := by
  obtain ⟨c, hrun, hgranted⟩ := map_eq_some_iff.1
    (show (exec (step ⟨true, 60⟩) (System.start account Example.redis)
      flushed).map (fun c ↦ c.shared.granted) = some 100 by decide +kernel)
  exact ⟨c, hrun, hgranted, no_overreservation (fun x hx ↦ by cases hx) (by decide +kernel) hrun⟩

end Moligate.Wallet
