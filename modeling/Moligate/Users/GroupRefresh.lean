import Moligate.Foundation.Threads
import Moligate.Users.Cache

namespace Moligate.Users.GroupRefresh

open Foundation Option Function

/-- The row of the user and its keys in Redis. `writer` is the call that has written the group last,
`unrefreshed` says that no call began since the group changed, and `failed` that a call has returned
an error. -/
structure World (π : Type) where
  user : User
  redis : Redis
  writer : Option π
  (unrefreshed failed : Bool)

/-- The next step of `RefreshUserGroupCache`, with the row that it read last and the rounds that are
left; the write without a round left is the one after the loop. -/
inductive Stage where
  | idle | read
  | write (authoritative : User) (rounds : ℕ)
  | verify (authoritative : User) (rounds : ℕ)
  deriving DecidableEq

inductive Action where
  | refreshUserGroupCache
  | changeGroup (group : String)
  | next (fails : Bool)
  | tick (milliseconds : ℕ)
  | invalidate
  deriving DecidableEq

def setGroup (user : User) (group : String) : User :=
  { user with profile := user.profile.set .group group }

section

variable {π : Type} [DecidableEq π] (userId : ℤ)

def fail (w : World π) : World π × Stage := ({ w with failed := true }, .idle)

def writeGroup (w : World π) (p : π) (authoritative : User) (rounds : ℕ) : World π × Stage :=
  let out := updateUserCacheFieldAtVersion .group authoritative.profile.group
    authoritative.authVersion w.redis
  let w := { w with redis := out.1, writer := some p }
  if out.2 ≠ .ok then fail w
  else
    match rounds with
    | 0 => fail w
    | rounds + 1 => (w, .verify authoritative rounds)

def verify (w : World π) (authoritative : User) (rounds : ℕ) : World π × Stage :=
  if w.user.authVersion = authoritative.authVersion ∧
      w.user.profile.group = authoritative.profile.group then (w, .idle)
  else (w, .write w.user rounds)

def next (w : World π) (p : π) : Stage → Option (World π × Stage)
  | .idle => none
  | .read => some (w, .write w.user 3)
  | .write authoritative rounds => some (writeGroup w p authoritative rounds)
  | .verify authoritative rounds => some (verify w authoritative rounds)

def perform (p : π) (a : Action) (w : World π) (stage : Stage) : Option (World π × Stage) :=
  match a with
  | .refreshUserGroupCache =>
    if stage ≠ .idle then none
    else if userId ≤ 0 then some (fail { w with unrefreshed := false })
    else some ({ w with unrefreshed := false }, .read)
  | .changeGroup group =>
    some ({ w with
      user := setGroup w.user group
      unrefreshed := w.unrefreshed || decide (group ≠ w.user.profile.group) }, stage)
  | .next fails => if fails ∧ stage ≠ .idle then some (fail w) else next w p stage
  | .tick milliseconds =>
    some ({ w with redis := { w.redis with now := w.redis.now + milliseconds } }, stage)
  | .invalidate => some ({ w with redis := invalidateUserCache w.redis }, stage)

def System.step : Config (World π) π Stage → π × Action → Option (Config (World π) π Stage) :=
  Config.step (perform userId)

end

def start {π : Type} (user : User) (redis : Redis) (unrefreshed : Bool) :
    Config (World π) π Stage :=
  ⟨⟨user, redis, none, unrefreshed, false⟩, fun _ ↦ .idle⟩

def cachedGroup (version : ℤ) (r : Redis) : Option String :=
  (r.userHash.filter fun h ↦ h.authVersion = version).map fun h ↦ h.profile.group

theorem cachedGroup_eq_some {version : ℤ} {r : Redis} {g : String} :
    cachedGroup version r = some g ↔
      ∃ h, r.userHash = some h ∧ h.authVersion = version ∧ h.profile.group = g := by
  simp only [cachedGroup, map_eq_some_iff, filter_eq_some_iff, decide_eq_true_eq]
  constructor
  · rintro ⟨h, ⟨hh, hv⟩, hg⟩
    exact ⟨h, hh, hv, hg⟩
  · rintro ⟨h, hh, hv, hg⟩
    exact ⟨h, ⟨hh, hv⟩, hg⟩

theorem cachedGroup_of_write {version : ℤ} {r : Redis} {g written : String}
    (hok : (updateUserCacheFieldAtVersion .group written version r).2 = .ok)
    (h : cachedGroup version (updateUserCacheFieldAtVersion .group written version r).1 = some g) :
    g = written := by
  rw [updateUserCacheFieldAtVersion] at h hok
  split_ifs at h hok with h₁ h₂ h₃
  · obtain ⟨hash, hhash, hversion, -⟩ := cachedGroup_eq_some.1 h
    have hhash : r.userHash = some hash := hhash
    simp [hhash, Redis.current, hversion] at h₃
  · obtain ⟨hash, hhash, -, rfl⟩ := cachedGroup_eq_some.1 h
    rw [Redis.userHash_modifyHash] at hhash
    obtain ⟨old, -, rfl⟩ := map_eq_some_iff.1 hhash
    rfl

def Stage.isWriting : Stage → Bool
  | .read | .write _ _ => true
  | .idle | .verify _ _ => false

def Stage.versionIs (version : ℤ) : Stage → Prop
  | .idle | .read => True
  | .write authoritative _ | .verify authoritative _ => authoritative.authVersion = version

variable {π : Type} {c c' : Config (World π) π Stage} {g : String} {p : π} {rounds : ℕ} {u : User}

/-- Why the group `g` may stand in the cache: it is that of the row, or there is still somebody to
repair it, a call that has to begin, one that is about to write or the one that wrote it and has not
compared it with the row yet. -/
inductive Excused (c : Config (World π) π Stage) (g : String) : Prop
  | failed (h : c.shared.failed = true)
  | unrefreshed (h : c.shared.unrefreshed = true)
  | current (h : c.shared.user.profile.group = g)
  | writing (p : π) (h : (c.thread p).isWriting = true)
  | verifying (p : π) (u : User) (rounds : ℕ) (hwriter : c.shared.writer = some p)
      (h : c.thread p = .verify u rounds) (hgroup : u.profile.group = g)

structure Converging (c : Config (World π) π Stage) : Prop where
  versions : ∀ p, (c.thread p).versionIs c.shared.user.authVersion
  excused : ∀ g, cachedGroup c.shared.user.authVersion c.shared.redis = some g → Excused c g

theorem Excused.of_same (h : Excused c g) (hthread : c'.thread = c.thread)
    (huser : c'.shared.user.profile.group = c.shared.user.profile.group)
    (hwriter : c'.shared.writer = c.shared.writer)
    (hunrefreshed : c.shared.unrefreshed = true → c'.shared.unrefreshed = true)
    (hfailed : c'.shared.failed = c.shared.failed) : Excused c' g := by
  cases h with
  | failed h => exact .failed (hfailed.trans h)
  | unrefreshed h => exact .unrefreshed (hunrefreshed h)
  | current h => exact .current (huser.trans h)
  | writing p h => exact .writing p (hthread ▸ h)
  | verifying p u rounds hw h hg => exact .verifying p u rounds (hwriter.trans hw) (hthread ▸ h) hg

/-- A call that finds its group in the row returns: what it wrote is right, and it was not about to
write anything. -/
theorem Excused.of_verified (h : Excused c g) (hp : c.thread p = .verify u rounds)
    (hgroup : c.shared.user.profile.group = u.profile.group) (hshared : c'.shared = c.shared)
    (hothers : ∀ q ≠ p, c'.thread q = c.thread q) : Excused c' g := by
  have hne (q : π) (hq : (c.thread q).isWriting = true) : q ≠ p := by
    rintro rfl
    rw [hp] at hq
    cases hq
  cases h with
  | failed h => exact .failed (hshared ▸ h)
  | unrefreshed h => exact .unrefreshed (hshared ▸ h)
  | current h => exact .current (hshared ▸ h)
  | writing q h => exact .writing q ((hothers q (hne q h)).symm ▸ h)
  | verifying q v n hwriter h hg =>
    by_cases hq : q = p
    · subst hq
      obtain ⟨rfl, -⟩ := Stage.verify.inj (h.symm.trans hp)
      exact .current (hshared ▸ hgroup.trans hg)
    · exact .verifying q v n (hshared ▸ hwriter) ((hothers q hq).trans h) hg

section

variable [DecidableEq π] {userId : ℤ} {w' : World π} {stage' : Stage} {w : World π}

variable (h : Converging c)
include h

theorem versions_step {version : ℤ} (hown : stage'.versionIs version)
    (hversion : version = c.shared.user.authVersion) (q : π) :
    (update c.thread p stage' q).versionIs version := by
  by_cases hq : q = p
  · subst hq
    rwa [update_self]
  · rw [update_of_ne hq, hversion]
    exact h.versions q

theorem converging_fail (hout : fail w = (w', stage'))
    (huser : w.user.authVersion = c.shared.user.authVersion) : Converging ⟨w', update c.thread p stage'⟩ := by
  cases hout
  exact ⟨versions_step h trivial huser, fun _ _ ↦ .failed rfl⟩

theorem converging_writing (hwriting : stage'.isWriting = true)
    (hown : stage'.versionIs w.user.authVersion)
    (huser : w.user.authVersion = c.shared.user.authVersion) :
    Converging ⟨w, update c.thread p stage'⟩ := by
  refine ⟨versions_step h hown huser, fun g _ ↦ .writing p ?_⟩
  dsimp only
  rwa [update_self]

theorem converging_writeGroup (hp : c.thread p = .write u rounds)
    (hout : writeGroup c.shared p u rounds = (w', stage')) :
    Converging ⟨w', update c.thread p stage'⟩ := by
  have hversion : u.authVersion = c.shared.user.authVersion := by
    have := h.versions p
    rwa [hp] at this
  unfold writeGroup at hout
  dsimp only at hout
  split_ifs at hout with hok
  · exact converging_fail h hout rfl
  · rw [not_not] at hok
    split at hout
    · exact converging_fail h hout rfl
    next rounds =>
      cases hout
      refine ⟨versions_step h hversion rfl, fun g hg ↦ ?_⟩
      rw [hversion] at hok hg
      exact .verifying p u rounds rfl (update_self ..) (cachedGroup_of_write hok hg).symm

theorem converging_next (hnext : next c.shared p (c.thread p) = some (w', stage')) :
    Converging ⟨w', update c.thread p stage'⟩ := by
  cases hp : c.thread p with
  | idle =>
    rw [hp] at hnext
    cases hnext
  | read =>
    rw [hp] at hnext
    cases hnext
    exact converging_writing h rfl rfl rfl
  | write u rounds =>
    rw [hp] at hnext
    exact converging_writeGroup h hp (some.inj hnext)
  | verify u rounds =>
    rw [hp] at hnext
    rw [next, some.injEq, verify] at hnext
    split_ifs at hnext with hsame
    · cases hnext
      refine ⟨versions_step h trivial rfl, fun g hg ↦ ?_⟩
      exact (h.excused g hg).of_verified hp hsame.2 rfl fun q hq ↦ update_of_ne hq ..
    · cases hnext
      exact converging_writing h rfl rfl rfl

theorem converging_perform {a : Action}
    (hperform : perform userId p a c.shared (c.thread p) = some (w', stage')) :
    Converging ⟨w', update c.thread p stage'⟩ := by
  have hstay : update c.thread p (c.thread p) = c.thread := update_eq_self p _
  cases a with
  | refreshUserGroupCache =>
    rw [perform] at hperform
    split_ifs at hperform
    · exact converging_fail h (some.inj hperform) rfl
    · cases hperform
      exact converging_writing h rfl trivial rfl
  | changeGroup group =>
    cases hperform
    rw [hstay]
    refine ⟨h.versions, fun g hg ↦ ?_⟩
    by_cases hgroup : group = c.shared.user.profile.group
    · exact (h.excused g hg).of_same rfl hgroup rfl (by simp_all) rfl
    · exact .unrefreshed (by simp [hgroup])
  | next fails =>
    rw [perform] at hperform
    split_ifs at hperform
    · exact converging_fail h (some.inj hperform) rfl
    · exact converging_next h hperform
  | tick ms =>
    cases hperform
    rw [hstay]
    refine ⟨h.versions, fun g hg ↦ ?_⟩
    obtain ⟨hash, hhash, hrest⟩ := cachedGroup_eq_some.1 hg
    have hbefore : cachedGroup _ c.shared.redis = some g :=
      cachedGroup_eq_some.2 ⟨hash, liveAt_of_le (by dsimp only; omega) hhash, hrest⟩
    exact (h.excused g hbefore).of_same rfl rfl rfl id rfl
  | invalidate =>
    cases hperform
    rw [hstay]
    refine ⟨h.versions, fun g hg ↦ ?_⟩
    obtain ⟨hash, hhash, -⟩ := cachedGroup_eq_some.1 hg
    cases hhash

end

/-- Whatever the interleaving of the calls with each other and with the changes of the group: when
all calls have returned without an error and one began after the last change, a hash that is still
there at the version of the row has the group of the row. -/
theorem group_cache_converges [DecidableEq π] {userId : ℤ} {user : User} {redis : Redis}
    {unrefreshed : Bool} {run : List (π × Action)} {h : UserHash}
    (hsync : unrefreshed = false → ∀ g, cachedGroup user.authVersion redis = some g →
      user.profile.group = g)
    (hrun : exec (System.step userId) (start user redis unrefreshed) run = some c)
    (hreturned : ∀ p, c.thread p = .idle) (hnil : c.shared.failed = false)
    (hfollowed : c.shared.unrefreshed = false) (hhash : c.shared.redis.userHash = some h)
    (hversion : h.authVersion = c.shared.user.authVersion) :
    h.profile.group = c.shared.user.profile.group := by
  have hstart : Converging (start user redis unrefreshed : Config (World π) π Stage) := by
    refine ⟨fun _ ↦ trivial, fun g hg ↦ ?_⟩
    cases hu : unrefreshed with
    | true => exact .unrefreshed rfl
    | false => exact .current (hsync hu g hg)
  have hstep (c : Config (World π) π Stage) (a : π × Action) (c' : Config (World π) π Stage)
      (h : Converging c) (_ : True) (hstep : System.step userId c a = some c') : Converging c' := by
    obtain ⟨⟨w', stage'⟩, hperform, rfl⟩ := map_eq_some_iff.1 hstep
    exact converging_perform h hperform
  have hconverging := exec_invariant hstep hstart (guarded_of_forall fun _ _ ↦ trivial) hrun
  cases hconverging.excused h.profile.group
      (cachedGroup_eq_some.2 ⟨h, hhash, hversion, rfl⟩) with
  | failed hfailed => cases hnil.symm.trans hfailed
  | unrefreshed hu => cases hfollowed.symm.trans hu
  | current hgroup => exact hgroup.symm
  | writing p hp =>
    rw [hreturned p] at hp
    cases hp
  | verifying p u rounds hwriter hp => cases (hreturned p).symm.trans hp

namespace Example

def user : User := ⟨7, ⟨"default", "", 1, 1, "u", ""⟩, 0, 4⟩

def redis : Redis where
  now := 0
  hash := some ⟨⟨7, user.profile, some 0, 4, 2⟩, some 60000⟩
  fence := none
  version := some 4

def go (p : ℕ) : ℕ × Action := (p, .next false)

/-- The first call has read the old group and writes it after the second one is done; it finds the
new group when it compares, and repairs what it wrote. -/
def delayed : List (ℕ × Action) :=
  [(1, .refreshUserGroupCache), go 1, (3, .changeGroup "vip"), (2, .refreshUserGroupCache), go 2,
    go 2, go 2, go 1, go 1, go 1, go 1]

end Example

open Example

structure Outcome where
  (failed unrefreshed : Bool)
  user : User
  version : Option ℤ
  stages : List Stage
  deriving DecidableEq

def outcome (c : Config (World ℕ) ℕ Stage) : Outcome where
  failed := c.shared.failed
  unrefreshed := c.shared.unrefreshed
  user := c.shared.user
  version := c.shared.redis.userHash.map fun h ↦ h.authVersion
  stages := [c.thread 1, c.thread 2, c.thread 3]

theorem group_cache_converges_delayed :
    ∃ c : Config (World ℕ) ℕ Stage,
      exec (System.step 7) (start user redis false) delayed = some c ∧
        ∃ h, c.shared.redis.userHash = some h ∧ c.shared.user.profile.group = "vip" ∧
          h.profile.group = c.shared.user.profile.group := by
  obtain ⟨c, hrun, hc⟩ := map_eq_some_iff.1
    (show (exec (System.step 7) (start user redis false) delayed).map
        outcome = some ⟨false, false, setGroup user "vip", some 4, [.idle, .idle, .idle]⟩ by
      decide +kernel)
  obtain ⟨hfailed, hfollowed, huser, hhash, hstages⟩ := Outcome.mk.inj hc
  obtain ⟨h, hhash, hversion⟩ := map_eq_some_iff.1 hhash
  simp only [List.cons.injEq, and_true] at hstages
  have hmem : ∀ a ∈ delayed, a.1 ∈ [1, 2, 3] := by decide
  have hidle (p : ℕ) : c.thread p = .idle := by
    by_cases hp : p ∈ [1, 2, 3]
    · simp only [List.mem_cons, List.not_mem_nil, or_false] at hp
      rcases hp with rfl | rfl | rfl
      exacts [hstages.1, hstages.2.1, hstages.2.2]
    · exact Config.exec_thread_of_not_mem (fun a ha he ↦ hp (by rw [he]; exact hmem a ha)) hrun
  refine ⟨c, hrun, h, hhash, by rw [huser]; rfl, ?_⟩
  have hsync (g : String)
      (hg : cachedGroup user.authVersion redis = some g) :
      user.profile.group = g :=
    some.inj ((show some user.profile.group =
      cachedGroup user.authVersion redis by decide +kernel).trans hg)
  exact group_cache_converges (fun _ ↦ hsync) hrun hidle hfailed hfollowed hhash
    (by rw [hversion, huser]; rfl)

end Moligate.Users.GroupRefresh
