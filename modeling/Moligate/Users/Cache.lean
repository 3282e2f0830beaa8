import Moligate.Foundation.Expiring

namespace Moligate.Users

open Foundation

structure Profile where
  (group email : String)
  (status role : ℤ)
  (username setting : String)
  deriving DecidableEq

structure User where
  id : ℤ
  profile : Profile
  (quota authVersion : ℤ)
  deriving DecidableEq

structure UserHash where
  id : ℤ
  profile : Profile
  quota : Option ℤ
  (authVersion cacheSchema : ℤ)
  deriving DecidableEq

def userCacheSchemaVersion : ℤ := 2

/-- The keys of one user: the hash, the pending fence and the committed version floor. The clock
counts milliseconds. -/
structure Redis where
  now : ℤ
  hash : Option (Expiring UserHash)
  fence : Option (Expiring ℤ)
  version : Option ℤ

def userCacheTTLSeconds (redisKeyCacheSeconds : ℤ) : ℤ :=
  if redisKeyCacheSeconds ≤ 0 then 60 else redisKeyCacheSeconds

def userAuthFenceTTLSeconds (redisKeyCacheSeconds : ℤ) : ℤ :=
  userCacheTTLSeconds redisKeyCacheSeconds + max (userCacheTTLSeconds redisKeyCacheSeconds) 60

namespace Redis

def userHash (r : Redis) : Option UserHash := liveAt r.now r.hash

def pending (r : Redis) : ℤ := (liveAt r.now r.fence).getD 0

def committed (r : Redis) : ℤ := r.version.getD 0

def current (r : Redis) : ℤ := r.userHash.elim 0 UserHash.authVersion

def floor (r : Redis) : ℤ := max (max 0 r.pending) r.committed

def deadline (r : Redis) (seconds : ℤ) : Option ℤ := some (r.now + 1000 * seconds)

def setHash (r : Redis) (hash : Option (Expiring UserHash)) : Redis := { r with hash }

def promote (incoming : ℤ) (r : Redis) : Redis :=
  { r with
    version := if r.committed < incoming then some incoming else r.version
    fence := if 0 < r.pending ∧ r.pending ≤ incoming then none else r.fence }

def admits (incoming : ℤ) (r : Redis) : Bool :=
  r.pending ≤ incoming && r.committed ≤ incoming && r.current ≤ incoming

end Redis

inductive Reply where
  | invalid | pending | ok
  deriving DecidableEq

/-- The fields that `writeUserCache` sets; the quota is only set where there is none. -/
def User.toHash (user : User) (includeQuota : Bool) (old : Option UserHash) : UserHash where
  id := user.id
  profile := user.profile
  quota := (old.bind UserHash.quota).or (if includeQuota then some user.quota else none)
  authVersion := user.authVersion
  cacheSchema := userCacheSchemaVersion

def writeUserCache (ttl : ℤ) (user : User) (includeQuota : Bool) (r : Redis) : Redis × Reply :=
  if user.authVersion ≤ 0 then (r, .invalid)
  else if !r.admits user.authVersion then (r, .pending)
  else if !includeQuota && r.userHash.isNone then (r.promote user.authVersion, .ok)
  else
    ((r.promote user.authVersion).setHash
      (some ⟨user.toHash includeQuota r.userHash, r.deadline ttl⟩), .ok)

inductive Field where
  | group | email | username | setting
  deriving DecidableEq

def Profile.set (p : Profile) (field : Field) (value : String) : Profile :=
  match field with
  | .group => { p with group := value }
  | .email => { p with email := value }
  | .username => { p with username := value }
  | .setting => { p with setting := value }

def Redis.modifyHash (f : UserHash → UserHash) (r : Redis) : Redis :=
  r.setHash (r.hash.map fun e ↦ { e with value := f e.value })

theorem Redis.userHash_modifyHash {f : UserHash → UserHash} {r : Redis} :
    (r.modifyHash f).userHash = r.userHash.map f := liveAt_mapValue

def updateUserCacheFieldAtVersion (field : Field) (value : String) (authVersion : ℤ) (r : Redis) :
    Redis × Reply :=
  if authVersion ≤ 0 then (r, .invalid)
  else if !r.admits authVersion then (r, .pending)
  else if r.userHash.isNone || r.current ≠ authVersion then (r.promote authVersion, .ok)
  else
    ((r.promote authVersion).modifyHash fun h ↦
      { h with profile := h.profile.set field value, cacheSchema := userCacheSchemaVersion }, .ok)

def setUserAuthVersionFence (ttl authVersion : ℤ) (r : Redis) : Redis :=
  if r.pending < authVersion then { r with fence := some ⟨authVersion, r.deadline ttl⟩ }
  else if r.pending = authVersion ∨ r.fence.any (fun e ↦ e.expiresAt = none) then
    { r with fence := (liveAt r.now r.fence).map fun version ↦ ⟨version, r.deadline ttl⟩ }
  else r

def publishCommittedUserAuthVersion (authVersion : ℤ) (r : Redis) : Redis := r.promote authVersion

inductive CacheQuotaResult where
  | insufficient | ok | miss
  deriving DecidableEq

def Redis.cachedQuota (userId : ℤ) (r : Redis) : Option ℤ :=
  r.userHash.bind fun h ↦
    if h.id = userId ∧ h.cacheSchema = userCacheSchemaVersion then h.quota else none

def Redis.addQuota (delta : ℤ) (r : Redis) : Redis :=
  r.modifyHash fun h ↦ { h with quota := some (h.quota.getD 0 + delta) }

def cacheTryReserveUserQuota (userId amount : ℤ) (r : Redis) : Redis × CacheQuotaResult :=
  match r.cachedQuota userId with
  | none => (r, .miss)
  | some quota => if quota < amount then (r, .insufficient) else (r.addQuota (-amount), .ok)

def cacheApplyUserQuotaDelta (userId delta : ℤ) (r : Redis) : Redis × CacheQuotaResult :=
  match r.cachedQuota userId with
  | none => (r, .miss)
  | some _ => (r.addQuota delta, .ok)

def invalidateUserCache (r : Redis) : Redis := r.setHash none

/-- The first half of `cacheGetUserBase`: a hash that may be returned if no floor is above it. -/
def Redis.usableHash (userId : ℤ) (r : Redis) : Option UserHash :=
  r.userHash.filter fun h ↦
    h.id = userId && h.cacheSchema = userCacheSchemaVersion && 0 < h.authVersion

end Moligate.Users
