import Moligate.Foundation.Expiring
import Moligate.Foundation.Locks
import Moligate.Foundation.Threads

namespace Moligate.Sessions

open Foundation

inductive SessionStatus where
  | active | revoking | revoked
  deriving DecidableEq

structure Session where
  (version userAuthVersion : ℤ)
  status : SessionStatus
  refreshHash : String
  previousRefreshHash : String := ""
  previousValidUntil : ℤ := 0
  lastActiveAt : ℤ
  revokedAt : ℤ := 0
  revokedReason : String := ""
  deriving DecidableEq

/-- One session: its end, the lifetime of its cache entries, both in seconds, and whether
`lockForUpdate` takes a row lock. -/
structure Runtime where
  (expiresAt userCacheTTLSeconds : ℤ)
  rowLocks : Bool

structure CacheEntry where
  (version userAuthVersion : ℤ)
  status : SessionStatus
  (lastActiveAt revokedAt : ℤ)
  revokedReason : String
  deriving DecidableEq

namespace Session

def cacheEntry (s : Session) : CacheEntry :=
  ⟨s.version, s.userAuthVersion, s.status, s.lastActiveAt, s.revokedAt, s.revokedReason⟩

def denyEntry (s : Session) (status : SessionStatus) (now : ℤ) (reason : String) : CacheEntry :=
  { s.cacheEntry with status, revokedAt := now, revokedReason := reason }

def revoke (s : Session) (now : ℤ) (reason : String) : Session :=
  { s with status := .revoked, revokedAt := now, revokedReason := reason }

def isLive (rt : Runtime) (now : ℤ) (s : Session) : Bool :=
  s.status = .active && s.revokedAt = 0 && now < rt.expiresAt

end Session

/-- What happened so far: the hashes that were rotated away and by whom, the hashes that rotations
were to introduce, those whose rotation returned a session, the moment at which the row was revoked,
and whether a revocation has been reported. -/
structure Log where
  (swaps issued : List (ℕ × String))
  accepted : List String
  revokedAt : Option ℤ
  reported : Bool

/-- The clock counts nanoseconds. -/
structure World where
  now : ℤ
  rows : Rows Unit ℕ (Option Session)
  cache : Option (Expiring CacheEntry)
  log : Log

def World.unix (w : World) : ℤ := w.now / 1000000000

def World.millis (w : World) : ℤ := w.now / 1000000

section

variable (rt : Runtime)

def Runtime.endsAt (rt : Runtime) : ℤ := rt.expiresAt * 1000000000

def Runtime.cacheTTL (rt : Runtime) : ℤ := rt.userCacheTTLSeconds * 1000000000

inductive WriteResult where
  | ok | stale | inactive | invalid
  deriving DecidableEq

def denyLifetime (now : ℤ) : ℤ :=
  let ttl := min (rt.endsAt - now) rt.cacheTTL
  let millis := (if ttl ≤ 0 then 1000000000 else ttl) / 1000000
  if millis ≤ 0 then 1 else millis

/-- The part of `writeUserSessionCache` before its script: the expiration that is handed to it. -/
def prepareWrite (now : ℤ) (entry : CacheEntry) (deadline : Option ℤ) : Except WriteResult ℤ :=
  if entry.status = .active then
    match deadline with
    | none => .error .invalid
    | some deadline =>
      if deadline - now ≤ 0 then .error .stale
      else if rt.endsAt - now ≤ 0 then .error .inactive
      else if min deadline rt.endsAt - now < 1000000 then .error .stale
      else .ok (min deadline rt.endsAt / 1000000)
  else .ok (denyLifetime rt now)

/-- The script of `writeUserSessionCache` at a moment of the clock of Redis. A key with an expiration
that has passed is removed. -/
def writeScript (millis : ℤ) (entry : CacheEntry) (expiration : ℤ)
    (cache : Option (Expiring CacheEntry)) : Option (Expiring CacheEntry) × Bool :=
  let current := liveAt millis cache
  if entry.status = .active ∧ current.any (fun e ↦ e.status ≠ .active) then (cache, false)
  else if entry.version < current.elim 0 CacheEntry.version then (cache, false)
  else if entry.status = .active then
    (if expiration ≤ millis then none else some ⟨entry, some expiration⟩, true)
  else (some ⟨entry, some (millis + expiration)⟩, true)

def completeWrite (now : ℤ) (entry : CacheEntry) (deadline : Option ℤ) : WriteResult :=
  if entry.status = .active then
    if deadline.any (· ≤ now) then .stale else if rt.endsAt ≤ now then .inactive else .ok
  else .ok

end

structure Rotation where
  (presented next : String)
  (now grace : ℤ)
  deriving DecidableEq

inductive Presented where
  | current | previousInGrace | previousExpired | other
  deriving DecidableEq

def Session.classify (s : Session) (r : Rotation) : Presented :=
  if s.refreshHash = r.presented then .current
  else if s.previousRefreshHash = "" ∨ s.previousRefreshHash ≠ r.presented then .other
  else if r.now ≤ s.previousValidUntil then .previousInGrace
  else .previousExpired

def Session.rotate (s : Session) (read : String) (r : Rotation) : Session :=
  { s with
    previousRefreshHash := read
    previousValidUntil := r.now + r.grace
    refreshHash := r.next
    lastActiveAt := r.now }

/-- Which function revokes: `RevokeUserSession`, `RevokeUserSessionByRefreshHash` or
`revokeUserSessions`, of which the last may have revoked the session already. -/
inductive RevokeKind where
  | one
  | byRefreshHash (presented : String)
  | all (done : Bool)
  deriving DecidableEq

structure Revocation where
  kind : RevokeKind
  now : ℤ
  reason : String
  deriving DecidableEq

def Revocation.counted (v : Revocation) : Revocation :=
  match v.kind with
  | .all _ => { v with kind := .all true }
  | _ => v

structure Advance where
  (expectedVersion expectedAuthVersion nextAuthVersion now : ℤ)
  deriving DecidableEq

inductive After where
  | created (s : Session)
  | got (late : Bool) (s : Session)
  | denied
  | rotated (r : Rotation) (s : Session)
  | reuseFenced (r : Rotation) (s : Session)
  | revokeFenced (v : Revocation) (s : Session)
  | advanced (s : Session)
  -- the final tombstone of a revocation
  | finished (v : Revocation)
  | reuseFinished (r : Rotation)
  deriving DecidableEq

end Moligate.Sessions
