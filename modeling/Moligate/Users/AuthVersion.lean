import Moligate.Foundation.Locks
import Moligate.Foundation.Threads
import Moligate.Users.Cache

namespace Moligate.Users

open Foundation

structure Runtime where
  (userId redisKeyCacheSeconds : ℤ)
  -- SQLite has no row locks, there `lockForUpdate` is a plain read
  rowLocks : Bool

structure Account where
  user : User
  deleted : Bool

def Account.setVersion (row : Account) (authVersion : ℤ) : Account :=
  { row with user := { row.user with authVersion } }

/-- The row of a user, its keys in Redis, and the versions that were committed and whose publication
has not completed yet. -/
structure World where
  users : Rows Unit ℕ Account
  redis : Redis
  unpublished : List ℤ

inductive Stage where
  | idle
  -- `IncrementUserAuthVersionWithTx`, with the attempts that are left and the version that was read
  | increment (attempts : ℕ)
  | fence (attempts : ℕ) (read : ℤ)
  | update (attempts : ℕ) (read : ℤ)
  -- the transaction that has raised the version
  | opened (next : ℤ)
  -- the publication after the commit
  | publish (version : ℤ)
  | republish (version : ℤ) (user : User)
  -- writes that carry a snapshot of the database
  | hydrate (user : User)
  | fill (user : User) (includeQuota : Bool)
  | setField (field : Field) (value : String) (authVersion : ℤ)
  -- `cacheGetUserBase`
  | check (hash : UserHash)
  | returned (hash : UserHash)
  deriving DecidableEq

inductive Action where
  | begin
  | edit (profile : Profile) (deleted : Bool)
  | commit | rollback | publishVersion | publishUser | getUserCache
  | updateUserCache (includeQuota : Bool)
  | updateUserCacheField (field : Field) (value : String)
  | cacheGetUserBase
  | applyQuotaDelta (delta : ℤ)
  | reserveQuota (amount : ℤ)
  | invalidate
  | tick (milliseconds : ℕ)
  | next

def nextVersion (read : ℤ) : ℤ := (if read < 1 then 1 else read) + 1

def World.getUserById (w : World) (p : ℕ) : Option User :=
  if (w.users.read p ()).deleted then none else some (w.users.read p ()).user

def Stage.inTransaction : Stage → Bool
  | .increment _ | .fence _ _ | .update _ _ | .opened _ => true
  | _ => false

section

variable (rt : Runtime) (p : ℕ) (w : World)

def lockUser (attempts : ℕ) : Option (World × Stage) :=
  let row := w.users.read p ()
  if rt.rowLocks then
    if w.users.free p () then
      some ({ w with users := w.users.write p () row }, .fence attempts row.user.authVersion)
    else none
  else some (w, .fence attempts row.user.authVersion)

def publishFence (attempts : ℕ) (read : ℤ) : World × Stage :=
  let ttl := userAuthFenceTTLSeconds rt.redisKeyCacheSeconds
  ({ w with redis := setUserAuthVersionFence ttl (nextVersion read) w.redis },
    .update attempts read)

def updateVersion (attempts : ℕ) (read : ℤ) : Option (World × Stage) :=
  let row := w.users.read p ()
  if w.users.free p () then
    if row.user.authVersion = read then
      some ({ w with users := w.users.write p () (row.setVersion (nextVersion read)) },
        .opened (nextVersion read))
    else some (w, .increment attempts)
  else none

def write (user : User) (includeQuota : Bool) : World × Reply :=
  let out := writeUserCache (userCacheTTLSeconds rt.redisKeyCacheSeconds) user includeQuota w.redis
  ({ w with redis := out.1 }, out.2)

/-- The write of `PublishUserAuthCache`; it has not completed when a fence is above the version. -/
def republishUser (version : ℤ) (user : User) : World × Stage :=
  let out := write rt w user false
  if out.2 = .ok then ({ out.1 with unpublished := w.unpublished.erase version }, .idle)
  else (out.1, .publish version)

def advance : Stage → Option (World × Stage)
  | .increment 0 => none
  | .increment (attempts + 1) => lockUser rt p w attempts
  | .fence attempts read => some (publishFence rt w attempts read)
  | .update attempts read => updateVersion p w attempts read
  | .republish version user => some (republishUser rt w version user)
  | .hydrate user =>
    some (w, if user.authVersion < w.redis.floor then .idle else .fill user true)
  | .fill user includeQuota => some ((write rt w user includeQuota).1, .idle)
  | .setField field value authVersion =>
    let out := updateUserCacheFieldAtVersion field value authVersion w.redis
    some ({ w with redis := out.1 }, .idle)
  | .check hash => some (w, if hash.authVersion < w.redis.floor then .idle else .returned hash)
  | .returned _ => some (w, .idle)
  | _ => none

def start : Action → Option (World × Stage)
  | .begin => some (w, .increment 3)
  | .getUserCache => (w.getUserById p).map fun user ↦ (w, .hydrate user)
  | .updateUserCache includeQuota =>
    (w.getUserById p).map fun user ↦ (w, .fill user includeQuota)
  | .updateUserCacheField field value =>
    (w.getUserById p).map fun user ↦ (w, .setField field value user.authVersion)
  | .cacheGetUserBase => some (w, (w.redis.usableHash rt.userId).elim .idle .check)
  | .applyQuotaDelta delta =>
    some ({ w with redis := (cacheApplyUserQuotaDelta rt.userId delta w.redis).1 }, .idle)
  | .reserveQuota amount =>
    some ({ w with redis := (cacheTryReserveUserQuota rt.userId amount w.redis).1 }, .idle)
  | .invalidate => some ({ w with redis := invalidateUserCache w.redis }, .idle)
  | .tick ms => some ({ w with redis := { w.redis with now := w.redis.now + ms } }, .idle)
  | _ => none

def perform (a : Action) (stage : Stage) : Option (World × Stage) :=
  match a, stage with
  | .next, stage => advance rt p w stage
  | .edit profile deleted, .opened version =>
    let row := w.users.read p ()
    some ({ w with users := w.users.write p () ⟨{ row.user with profile }, deleted⟩ },
      .opened version)
  | .begin, .opened _ => some (w, .increment 3)
  | .commit, .opened version =>
    some ({ w with users := w.users.commit p, unpublished := w.unpublished ++ [version] },
      .publish version)
  | .rollback, stage =>
    if stage.inTransaction then some ({ w with users := w.users.rollback p }, .idle) else none
  | .publishVersion, .publish version =>
    some ({ w with
      redis := publishCommittedUserAuthVersion version w.redis
      unpublished := w.unpublished.erase version }, .idle)
  | .publishUser, .publish version =>
    (w.getUserById p).map fun user ↦ (w, .republish version user)
  | a, .idle => start rt p w a
  | _, _ => none

end

abbrev System := Config World ℕ Stage

def System.step (rt : Runtime) : System → ℕ × Action → Option System :=
  Config.step fun p a w stage ↦ perform rt p w a stage

end Moligate.Users
