import Moligate.Users.AuthVersion

namespace Moligate.Users

open Foundation Option Rows Redis Stage System

variable {r r' : Redis} {user : User} {v : ℤ}

def Redis.cover (r : Redis) : ℤ := max r.pending r.committed

structure Grows (r r' : Redis) : Prop where
  committed : r.committed ≤ r'.committed
  cover : r.cover ≤ r'.cover

theorem Grows.refl : Grows r r := ⟨le_rfl, le_rfl⟩

theorem committed_promote : (r.promote v).committed = max r.committed v := by
  rw [Redis.committed, Redis.promote]
  dsimp only
  split
  · rw [getD_some]
    omega
  · simp only [Redis.committed] at *
    omega

theorem pending_promote (h : v < r.pending) : (r.promote v).pending = r.pending := by
  rw [pending, promote]
  rw [if_neg (by omega)]
  rfl

theorem grows_promote : Grows r (r.promote v) := by
  have hcommitted := committed_promote (r := r) (v := v)
  refine ⟨by omega, ?_⟩
  simp only [cover]
  by_cases h : v < r.pending
  · rw [pending_promote h]
    omega
  · omega

theorem Grows.setHash {hash : Option (Expiring UserHash)} (h : Grows r r') :
    Grows r (r'.setHash hash) :=
  { h with }

variable {ttl : ℤ} {value : String} {field : Field} {userId x : ℤ}

theorem liveAt_deadline (httl : 0 ≤ ttl) : liveAt r.now (some ⟨v, r.deadline ttl⟩) = some v :=
  liveAt_some_of_le (by omega)

theorem pending_setUserAuthVersionFence (httl : 0 ≤ ttl) :
    (setUserAuthVersionFence ttl v r).pending = max r.pending v := by
  unfold setUserAuthVersionFence
  split
  · rw [pending]
    dsimp only
    rw [liveAt_deadline httl, getD_some]
    omega
  · split
    · have hsame : liveAt r.now ((liveAt r.now r.fence).map fun version ↦
          (⟨version, r.deadline ttl⟩ : Expiring ℤ)) = liveAt r.now r.fence := by
        cases liveAt r.now r.fence with
        | none => rfl
        | some version => exact liveAt_deadline httl
      rw [pending]
      rw [hsame, ← pending]
      omega
    · omega

theorem grows_setUserAuthVersionFence (httl : 0 ≤ ttl) :
    Grows r (setUserAuthVersionFence ttl v r) := by
  have hcommitted : (setUserAuthVersionFence ttl v r).committed = r.committed := by
    unfold setUserAuthVersionFence
    split
    · rfl
    · split <;> rfl
  refine ⟨le_of_eq hcommitted.symm, ?_⟩
  rw [cover, cover, pending_setUserAuthVersionFence httl, hcommitted]
  omega

def HashBelow (d : ℤ) (r : Redis) : Prop := ∀ e, r.hash = some e → e.value.authVersion ≤ d

section

variable {d : ℤ}

theorem HashBelow.modifyHash {f : UserHash → UserHash} (h : HashBelow d r)
    (hf : ∀ x, (f x).authVersion = x.authVersion) : HashBelow d (r.modifyHash f) := by
  intro e he
  obtain ⟨e', he', rfl⟩ := map_eq_some_iff.1 he
  rw [hf]
  exact h e' he'

theorem HashBelow.writeUserCache {ttl : ℤ} {includeQuota : Bool} (h : HashBelow d r)
    (huser : user.authVersion ≤ d) : Grows r (writeUserCache ttl user includeQuota r).1 ∧
      HashBelow d (writeUserCache ttl user includeQuota r).1 := by
  unfold Users.writeUserCache
  split
  · exact ⟨.refl, h⟩
  split
  · exact ⟨.refl, h⟩
  split
  · exact ⟨grows_promote, h⟩
  · refine ⟨grows_promote.setHash, ?_⟩
    rintro e ⟨rfl⟩
    exact huser

theorem HashBelow.updateUserCacheFieldAtVersion (h : HashBelow d r) :
    Grows r (updateUserCacheFieldAtVersion field value v r).1 ∧
      HashBelow d (updateUserCacheFieldAtVersion field value v r).1 := by
  unfold Users.updateUserCacheFieldAtVersion
  split
  · exact ⟨.refl, h⟩
  split
  · exact ⟨.refl, h⟩
  split
  · exact ⟨grows_promote, h⟩
  · exact ⟨grows_promote.setHash, HashBelow.modifyHash (r := r.promote v) h fun _ ↦ rfl⟩

theorem HashBelow.addQuota (h : HashBelow d r) :
    Grows r (r.addQuota x) ∧ HashBelow d (r.addQuota x) :=
  ⟨Grows.refl.setHash, h.modifyHash fun _ ↦ rfl⟩

theorem HashBelow.cacheTryReserveUserQuota (h : HashBelow d r) :
    Grows r (cacheTryReserveUserQuota userId x r).1 ∧
      HashBelow d (cacheTryReserveUserQuota userId x r).1 := by
  unfold Users.cacheTryReserveUserQuota
  split
  · exact ⟨.refl, h⟩
  split
  · exact ⟨.refl, h⟩
  · exact h.addQuota

theorem HashBelow.cacheApplyUserQuotaDelta (h : HashBelow d r) :
    Grows r (cacheApplyUserQuotaDelta userId x r).1 ∧
      HashBelow d (cacheApplyUserQuotaDelta userId x r).1 := by
  unfold Users.cacheApplyUserQuotaDelta
  split
  · exact ⟨.refl, h⟩
  · exact h.addQuota

theorem HashBelow.setUserAuthVersionFence {ttl : ℤ} (h : HashBelow d r) :
    HashBelow d (setUserAuthVersionFence ttl v r) := by
  unfold Users.setUserAuthVersionFence
  split
  · exact h
  · split <;> exact h

end

def World.version (w : World) : ℤ := (w.users.committed ()).user.authVersion

structure Fenced (v₀ : ℤ) (w : World) : Prop where
  start : v₀ ≤ w.version
  covered : v₀ < w.version → w.version ≤ w.redis.cover
  published : v₀ < w.version → w.version ≤ w.redis.committed ∨ w.version ∈ w.unpublished
  hash : HashBelow w.version w.redis

def Stage.snapshot : Stage → List ℤ
  | .publish v => [v]
  | .republish _ user | .hydrate user | .fill user _ => [user.authVersion]
  | .setField _ _ v => [v]
  | _ => []

structure Local (p : ℕ) (w : World) (stage : Stage) : Prop where
  own : ∀ row, w.users.own p () = some row → w.version ≤ row.user.authVersion
  outside : stage.inTransaction = false → w.users.own p () = none
  opened : ∀ n, stage = .opened n → ∃ row, w.users.own p () = some row ∧ row.user.authVersion = n
  snapshot : ∀ x ∈ stage.snapshot, x ≤ w.version
  published : ∀ x user, stage = .republish x user → x ≤ user.authVersion

structure Affects (p : ℕ) (w w' : World) : Prop where
  own : ∀ q ≠ p, w'.users.own q () = w.users.own q ()
  version : w.version ≤ w'.version
  locked : ∀ q ≠ p, (w.users.own q ()).isSome → w'.version = w.version

variable {rt : Runtime} {w w' : World} {p q : ℕ} {a : Action} {stage stage' : Stage} {v₀ : ℤ}

theorem Local.stable (hne : p ≠ q) (h : Local q w stage) (ha : Affects p w w') :
    Local q w' stage := by
  have hown := ha.own q hne.symm
  refine ⟨?_, ?_, ?_, ?_, h.published⟩
  · intro row hrow
    rw [hown] at hrow
    rw [ha.locked q hne.symm (by simp [hrow])]
    exact h.own row hrow
  · rw [hown]
    exact h.outside
  · rw [hown]
    exact h.opened
  · intro x hx
    exact le_trans (h.snapshot x hx) ha.version

theorem Affects.of_users (h : w'.users = w.users) : Affects p w w' := by
  have hversion : w'.version = w.version := by rw [World.version, h, World.version]
  exact ⟨fun q _ ↦ by rw [h], le_of_eq hversion.symm, fun q _ _ ↦ hversion⟩

theorem Fenced.redis (h : Fenced v₀ w) (hgrows : Grows w.redis r') (hhash : HashBelow w.version r') :
    Fenced v₀ { w with redis := r' } where
  start := h.start
  covered hv := le_trans (h.covered hv) hgrows.cover
  published hv := (h.published hv).imp_left fun hle ↦ le_trans hle hgrows.committed
  hash := hhash

theorem Local.goto (h : Local p w stage) (husers : w'.users = w.users)
    (hout : stage'.inTransaction = false → stage.inTransaction = false)
    (hopened : ∀ n, stage' ≠ .opened n) (hsnapshot : ∀ x ∈ stage'.snapshot, x ≤ w.version)
    (hpublished : ∀ x user, stage' = .republish x user → x ≤ user.authVersion) :
    Local p w' stage' := by
  have hversion : w'.version = w.version := by rw [World.version, husers, World.version]
  refine ⟨?_, ?_, fun n hn ↦ absurd hn (hopened n), ?_, hpublished⟩
  · rw [husers, hversion]
    exact h.own
  · rw [husers]
    exact fun hstage ↦ h.outside (hout hstage)
  · rw [hversion]
    exact hsnapshot

def Stage.isPlain : Stage → Bool
  | .opened _ | .publish _ | .republish _ _ | .hydrate _ | .fill _ _ | .setField _ _ _ => false
  | _ => true

theorem Local.plain (h : Local p w stage) (husers : w'.users = w.users)
    (hout : stage'.inTransaction = false → stage.inTransaction = false)
    (hplain : stage'.isPlain = true) : Local p w' stage' := by
  refine h.goto husers hout ?_ ?_ ?_
  · rintro n rfl
    cases hplain
  · have hnone : stage'.snapshot = [] := by cases stage' <;> first | rfl | cases hplain
    simp [hnone]
  · rintro x user rfl
    cases hplain

def Keeps (v₀ : ℤ) (p : ℕ) (w w' : World) (stage' : Stage) : Prop :=
  Fenced v₀ w' ∧ Local p w' stage' ∧ Affects p w w' ∧ w.redis.committed ≤ w'.redis.committed

theorem keeps_plain (hI : Fenced v₀ w) (hL : Local p w stage)
    (hout : stage'.inTransaction = false → stage.inTransaction = false)
    (hplain : stage'.isPlain = true) : Keeps v₀ p w w stage' :=
  ⟨hI, hL.plain rfl hout hplain, .of_users rfl, le_rfl⟩

theorem keeps_script (hI : Fenced v₀ w) (hL : Local p w stage)
    (hout : stage.inTransaction = false) (h : Grows w.redis r' ∧ HashBelow w.version r') :
    Keeps v₀ p w { w with redis := r' } .idle :=
  ⟨hI.redis h.1 h.2, hL.plain rfl (fun _ ↦ hout) rfl, .of_users rfl, h.1.committed⟩

theorem getUserById_version {user : User} (hown : w.users.own p () = none)
    (h : w.getUserById p = some user) : user.authVersion = w.version := by
  rw [World.getUserById, read_of_not_own hown, ite_none_left_eq_some, some.injEq] at h
  rw [← h.2]
  rfl

theorem read_version (hL : Local p w stage) : w.version ≤ (w.users.read p ()).user.authVersion := by
  cases hown : w.users.own p () with
  | none => exact le_of_eq (by rw [read_of_not_own hown]; rfl)
  | some row =>
    rw [read_of_own hown]
    exact hL.own row hown

theorem keeps_write {row : Account} {users : Rows Unit ℕ Account} (hI : Fenced v₀ w)
    (hfree : w.users.free p () = true) (hrow : w.version ≤ row.user.authVersion)
    (husers : users = w.users.write p () row) (hin : stage'.inTransaction = true)
    (hopened : ∀ n, stage' = .opened n → row.user.authVersion = n)
    (hsnapshot : stage'.snapshot = []) (hpublished : ∀ x user, stage' ≠ .republish x user) :
    Keeps v₀ p w { w with users } stage' := by
  subst husers
  refine ⟨{ hI with }, ⟨?_, ?_, ?_, ?_, ?_⟩, ?_⟩
  · intro row' hrow'
    rw [own_write_self, some.injEq] at hrow'
    exact hrow' ▸ hrow
  · simp [hin]
  · exact fun n hn ↦ ⟨row, own_write_self, hopened n hn⟩
  · simp [hsnapshot]
  · exact fun x user hx ↦ absurd hx (hpublished x user)
  · exact ⟨⟨fun q hq ↦ own_write_other hfree hq, le_rfl, fun _ _ _ ↦ rfl⟩, le_rfl⟩

variable {read : ℤ} {attempts : ℕ} {hash : UserHash} {x : ℤ}

theorem committed_of_ok {ttl : ℤ} {includeQuota : Bool}
    (h : (writeUserCache ttl user includeQuota r).2 = .ok) :
    user.authVersion ≤ (writeUserCache ttl user includeQuota r).1.committed := by
  have hpromote := @committed_promote r user.authVersion
  unfold writeUserCache at h ⊢
  split at h
  · cases h
  rename_i hpos
  split at h
  · cases h
  rename_i hadmits
  rw [if_neg hpos, if_neg hadmits]
  split
  · dsimp only
    omega
  · change user.authVersion ≤ (r.promote user.authVersion).committed
    omega

/-- A publication that has completed. -/
theorem Fenced.publish (h : Fenced v₀ w) (hgrows : Grows w.redis r')
    (hhash : HashBelow w.version r') (hx : x ≤ r'.committed) :
    Fenced v₀ { w with redis := r', unpublished := w.unpublished.erase x } := by
  obtain ⟨hstart, hcovered, hpublished, hhash'⟩ := h.redis hgrows hhash
  refine ⟨hstart, hcovered, fun hv ↦ ?_, hhash'⟩
  rcases hpublished hv with hle | hmem
  · exact .inl hle
  · by_cases heq : w.version = x
    · exact .inl (heq ▸ hx)
    · exact .inr ((List.mem_erase_of_ne heq).2 hmem)

/-- The pending fence does not expire before the publication has completed: it is there when a
version is committed, and stays there while a publication is outstanding. -/
def Timely (a : Action) (w : World) (stage : Stage) : Prop :=
  match a, stage with
  | .commit, .opened version => version ≤ w.redis.pending
  | .tick ms, _ => w.unpublished = [] ∨
      liveAt (w.redis.now + ms) w.redis.fence = liveAt w.redis.now w.redis.fence
  | _, _ => True

instance : Decidable (Timely a w stage) := by
  unfold Timely
  split <;> infer_instance

section

variable (hI : Fenced v₀ w)
include hI

theorem lockUser_keeps (hL : Local p w (.increment (attempts + 1)))
    (h : lockUser rt p w attempts = some (w', stage')) : Keeps v₀ p w w' stage' := by
  unfold lockUser at h
  split at h
  · split at h
    next hfree =>
      cases h
      exact keeps_write hI hfree (read_version hL) rfl rfl (by simp) rfl (by simp)
    · cases h
  · cases h
    exact keeps_plain hI hL (by simp [inTransaction]) rfl

theorem updateVersion_keeps (hL : Local p w (.update attempts read))
    (h : updateVersion p w attempts read = some (w', stage')) : Keeps v₀ p w w' stage' := by
  unfold updateVersion at h
  dsimp only at h
  split at h
  next hfree =>
    split at h
    next hread =>
      cases h
      refine keeps_write hI hfree ?_ rfl rfl ?_ rfl (by simp)
      · have hle := read_version hL
        change w.version ≤ nextVersion read
        unfold nextVersion
        split <;> omega
      · rintro n hn
        exact opened.inj hn
    · cases h
      exact keeps_plain hI hL (by simp [inTransaction]) rfl
  · cases h

theorem republishUser_keeps (hL : Local p w (.republish x user))
    (h : republishUser rt w x user = (w', stage')) : Keeps v₀ p w w' stage' := by
  have huser : user.authVersion ≤ w.version := hL.snapshot _ (by simp [snapshot])
  have hx : x ≤ user.authVersion := hL.published x user rfl
  obtain ⟨hgrows, hhash⟩ := @HashBelow.writeUserCache w.redis user w.version
    (userCacheTTLSeconds rt.redisKeyCacheSeconds) false hI.hash huser
  unfold republishUser at h
  dsimp only at h
  split at h
  next hok =>
    cases h
    refine ⟨hI.publish hgrows hhash (le_trans hx (committed_of_ok hok)), ?_, .of_users rfl,
      hgrows.committed⟩
    exact hL.plain rfl (by simp [inTransaction]) rfl
  · cases h
    refine ⟨hI.redis hgrows hhash, ?_, .of_users rfl, hgrows.committed⟩
    refine hL.goto rfl (by simp [inTransaction]) (by simp) ?_ (by simp)
    intro y hy
    obtain rfl := List.mem_singleton.1 hy
    exact le_trans hx huser

theorem advance_keeps (hL : Local p w stage) (h : advance rt p w stage = some (w', stage')) :
    Keeps v₀ p w w' stage' := by
  unfold advance at h
  split at h
  · cases h
  · exact lockUser_keeps hI hL h
  next attempts read =>
    cases h
    have httl : 0 ≤ userAuthFenceTTLSeconds rt.redisKeyCacheSeconds := by
      unfold userAuthFenceTTLSeconds userCacheTTLSeconds
      split <;> omega
    have hgrows := @grows_setUserAuthVersionFence w.redis (nextVersion read) _ httl
    exact ⟨hI.redis hgrows hI.hash.setUserAuthVersionFence,
      hL.plain rfl (by simp [inTransaction]) rfl,
      .of_users rfl, hgrows.committed⟩
  · exact updateVersion_keeps hI hL h
  · exact republishUser_keeps hI hL (some.inj h)
  · cases h
    refine ⟨hI, ?_, .of_users rfl, le_rfl⟩
    split
    · exact hL.plain rfl (by simp [inTransaction]) rfl
    · exact hL.goto rfl (by simp [inTransaction]) (by simp) hL.snapshot (by simp)
  · cases h
    refine keeps_script hI hL rfl (hI.hash.writeUserCache ?_)
    exact hL.snapshot _ (by simp [snapshot])
  · cases h
    exact keeps_script hI hL rfl hI.hash.updateUserCacheFieldAtVersion
  · cases h
    refine ⟨hI, ?_, .of_users rfl, le_rfl⟩
    split <;> exact hL.plain rfl (by simp [inTransaction]) rfl
  · cases h
    exact keeps_plain hI hL (by simp [inTransaction]) rfl
  · cases h

theorem start_keeps (hL : Local p w .idle) (hclock : ∀ ms, a = .tick ms → w.unpublished = [] ∨
      liveAt (w.redis.now + ms) w.redis.fence = liveAt w.redis.now w.redis.fence)
    (h : start rt p w a = some (w', stage')) : Keeps v₀ p w w' stage' := by
  have hown : w.users.own p () = none := hL.outside rfl
  unfold start at h
  split at h
  · cases h
    exact keeps_plain hI hL (by simp [inTransaction]) rfl
  iterate 3
    · obtain ⟨user, huser, hout⟩ := map_eq_some_iff.1 h
      cases hout
      refine ⟨hI, hL.goto rfl (by simp [inTransaction]) (by simp) ?_ (by simp), .of_users rfl,
        le_rfl⟩
      intro x hx
      obtain rfl := List.mem_singleton.1 hx
      exact le_of_eq (getUserById_version hown huser)
  · cases h
    refine ⟨hI, ?_, .of_users rfl, le_rfl⟩
    cases w.redis.usableHash rt.userId <;>
      exact hL.plain rfl (by simp [inTransaction]) rfl
  · cases h
    exact keeps_script hI hL rfl hI.hash.cacheApplyUserQuotaDelta
  · cases h
    exact keeps_script hI hL rfl hI.hash.cacheTryReserveUserQuota
  · cases h
    exact keeps_script hI hL rfl ⟨Grows.refl.setHash, nofun⟩
  next ms =>
    cases h
    refine ⟨{ hI with covered := fun hv ↦ ?_ }, hL.plain rfl (fun _ ↦ rfl) rfl,
      .of_users rfl, le_rfl⟩
    rcases hclock ms rfl with hnil | hlive
    · rcases hI.published hv with hle | hmem
      · exact le_trans hle (le_max_right _ _)
      · simp [hnil] at hmem
    · have hcover := hI.covered hv
      simp only [cover, pending] at hcover ⊢
      rw [hlive]
      exact hcover
  · cases h

/-- The commit of a transaction that has raised the version while its fence is pending. -/
theorem commit_keeps {n : ℤ} (hL : Local p w (.opened n)) (hfence : n ≤ w.redis.pending) :
    Keeps v₀ p w { w with users := w.users.commit p, unpublished := w.unpublished ++ [n] }
      (.publish n) := by
  obtain ⟨row, hown, hn⟩ := hL.opened n rfl
  have hversion : World.version { w with
      users := w.users.commit p, unpublished := w.unpublished ++ [n] } = n := by
    rw [World.version, committed_commit, read_of_own hown, hn]
  have hle : w.version ≤ n := hn ▸ hL.own row hown
  refine ⟨⟨?_, ?_, ?_, ?_⟩, ⟨?_, ?_, by simp, ?_, by simp⟩, ⟨?_, ?_, ?_⟩, le_rfl⟩
  · rw [hversion]
    exact le_trans hI.start hle
  · rw [hversion]
    exact fun _ ↦ le_trans hfence (le_max_left _ _)
  · rw [hversion]
    exact fun _ ↦ .inr (by simp)
  · rw [hversion]
    exact fun e he ↦ le_trans (hI.hash e he) hle
  · intro row' hrow'
    rw [own_commit_self] at hrow'
    cases hrow'
  · exact fun _ ↦ own_commit_self
  · rw [hversion]
    intro x hx
    exact le_of_eq (List.mem_singleton.1 hx)
  · exact fun q hq ↦ own_commit_other hq
  · rw [hversion]
    exact hle
  · intro q hq hsome
    obtain ⟨row', hrow'⟩ := isSome_iff_exists.1 hsome
    exact absurd (own_unique hrow' hown) hq

theorem perform_keeps (hL : Local p w stage) (hG : Timely a w stage)
    (h : perform rt p w a stage = some (w', stage')) : Keeps v₀ p w w' stage' := by
  unfold perform at h
  split at h
  · exact advance_keeps hI hL h
  · cases h
    next profile deleted version =>
      obtain ⟨row, hown, hn⟩ := hL.opened version rfl
      refine keeps_write hI (free_of_own hown) ?_ rfl rfl ?_ rfl (by simp)
      · exact read_version hL
      · rintro n hn'
        rw [read_of_own hown]
        exact hn.trans (opened.inj hn')
  · cases h
    exact keeps_plain hI hL (by simp [inTransaction]) rfl
  · cases h
    exact commit_keeps hI hL hG
  · split at h
    · cases h
      refine ⟨{ hI with }, ⟨?_, ?_, by simp,
        by simp [snapshot], by simp⟩,
        ⟨fun q hq ↦ own_rollback_other hq, le_rfl, fun _ _ _ ↦ rfl⟩, le_rfl⟩
      · intro row hrow
        rw [own_rollback_self] at hrow
        cases hrow
      · exact fun _ ↦ own_rollback_self
    · cases h
  · cases h
    next version =>
      have hcommitted : (publishCommittedUserAuthVersion version w.redis).committed =
        max w.redis.committed version := committed_promote
      exact ⟨hI.publish grows_promote hI.hash (by omega),
        hL.plain rfl (by simp [inTransaction]) rfl, .of_users rfl, grows_promote.committed⟩
  next version =>
    obtain ⟨user, huser, hout⟩ := map_eq_some_iff.1 h
    cases hout
    have hversion := getUserById_version (hL.outside rfl) huser
    refine ⟨hI, hL.goto rfl (by simp [inTransaction]) (by simp) ?_ ?_, .of_users rfl, le_rfl⟩
    · intro x hx
      obtain rfl := List.mem_singleton.1 hx
      exact le_of_eq hversion
    · rintro x user' heq
      obtain ⟨rfl, rfl⟩ := republish.inj heq
      rw [hversion]
      exact hL.snapshot _ (by simp [snapshot])
  · refine start_keeps hI hL ?_ h
    rintro ms rfl
    exact hG
  · cases h

end

def System.start (user : Account) (redis : Redis) : System :=
  ⟨⟨.ofCommitted fun _ ↦ user, redis, []⟩, fun _ ↦ .idle⟩

theorem start_holds {account : Account} (hhash : HashBelow account.user.authVersion r) :
    Config.Holds (Fenced account.user.authVersion) Local (System.start account r) := by
  refine ⟨⟨le_rfl, fun h ↦ absurd h (lt_irrefl _), fun h ↦ absurd h (lt_irrefl _), hhash⟩,
    fun p ↦ ⟨?_, fun _ ↦ rfl, by simp [System.start], by simp [System.start, snapshot],
      by simp [System.start]⟩⟩
  intro row hrow
  cases hrow

theorem start_ne_returned : start rt p w a ≠ some (w', .returned hash) := by
  intro h
  unfold start at h
  split at h <;> try cases h
  iterate 3
    · obtain ⟨_, _, hout⟩ := map_eq_some_iff.1 h
      cases hout
  · have hstage := congrArg Prod.snd (some.inj h)
    cases husable : w.redis.usableHash rt.userId with
    | none | some => simp [husable] at hstage

theorem floor_le_of_returned (h : perform rt p w a stage = some (w', .returned hash)) :
    w.redis.floor ≤ hash.authVersion := by
  unfold perform at h
  split at h
  · unfold advance at h
    split at h <;> try cases h
    · unfold lockUser at h
      split at h <;> (try split at h) <;> cases h
    · unfold updateVersion at h
      dsimp only at h
      split at h <;> (try split at h) <;> cases h
    · unfold republishUser at h
      dsimp only at h
      split at h <;> cases h
    · have hstage := congrArg Prod.snd (some.inj h)
      split at hstage <;> cases hstage
    · have hstage := congrArg Prod.snd (some.inj h)
      split at hstage
      · cases hstage
      next hfloor =>
        cases hstage
        omega
  iterate 3 cases h
  · split at h <;> cases h
  · cases h
  · obtain ⟨_, _, hout⟩ := map_eq_some_iff.1 h
    cases hout
  · exact absurd h start_ne_returned
  · cases h

abbrev TimelyStep (c : System) (a : ℕ × Action) : Prop := Timely a.2 c.shared (c.thread a.1)

theorem step_keeps {d d' : System} {x : ℕ × Action} (hd : Config.Holds (Fenced v₀) Local d)
    (hx : TimelyStep d x) (h : step rt d x = some d') :
    Config.Holds (Fenced v₀) Local d' ∧ d.shared.version ≤ d'.shared.version ∧
      d.shared.redis.committed ≤ d'.shared.redis.committed := by
  obtain ⟨hperform, _⟩ := Config.step_eq_some h
  obtain ⟨_, _, haffects, hcommitted⟩ := perform_keeps hd.1 (hd.2 x.1) hx hperform
  refine ⟨?_, haffects.version, hcommitted⟩
  refine Config.step_holds (G := fun _ a w stage ↦ Timely a w stage) (R := Affects) ?_ ?_ hd hx h
  · intro p a w stage w' stage' hI hL hG hp
    obtain ⟨hI', hL', hR, _⟩ := perform_keeps hI hL hG hp
    exact ⟨hI', hL', hR⟩
  · intro p q w w' stage hne hL hR
    exact hL.stable hne hR

namespace Example

def runtime : Runtime := ⟨7, 60, true⟩

def account : Account := ⟨⟨7, ⟨"default", "", 1, 1, "user", ""⟩, 500, 1⟩, false⟩

def redis : Redis := ⟨0, none, none, none⟩

def disabled : List (ℕ × Action) :=
  [(2, .updateUserCache true), (1, .begin), (1, .next), (1, .next), (1, .next),
    (1, .edit ⟨"default", "", 2, 1, "user", ""⟩ false), (1, .commit)]

def republished : List (ℕ × Action) :=
  [(1, .publishUser), (1, .next), (2, .next), (3, .getUserCache), (3, .next), (3, .next),
    (4, .cacheGetUserBase)]

end Example

-- A publication that is refused has not completed: here the fence of a later transaction is in its
-- way, that transaction is rolled back, and the late fill is let in once the fence has expired.
open Example in
example :
    (exec (step runtime) (.start account redis)
      (disabled ++ [(3, .begin), (3, .next), (3, .next), (1, .publishUser), (1, .next),
        (3, .rollback), (5, .tick 200000), (2, .next), (4, .cacheGetUserBase), (4, .next)])).map
      (fun c ↦ (c.shared.version, c.thread 4)) =
    some (2, .returned ⟨7, ⟨"default", "", 1, 1, "user", ""⟩, some 500, 1, 2⟩) := by
  decide +kernel

end Moligate.Users
