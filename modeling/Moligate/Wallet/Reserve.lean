import Moligate.Foundation.Threads
import Moligate.Users.Cache

namespace Moligate.Wallet

open Foundation Users

structure Runtime where
  batchUpdateEnabled : Bool
  redisKeyCacheSeconds : ℤ

/-- The row of the user, its keys in Redis and its record in the batch store. Besides, what has
happened: the sum of the reservations that returned `true`, the debits of the cache that the row has
not seen, and the reservations that are not persisted yet. -/
structure World where
  user : User
  redis : Redis
  (batch granted unsettled : ℤ)
  held : List (ℕ × ℤ)

inductive Stage where
  | idle
  -- `TryReserveUserQuota`
  | reserve (amount : ℤ) (hydrated : Bool)
  | persist (amount : ℤ)
  | compensate (amount : ℤ)
  | fallback (amount : ℤ)
  -- `GetUserCache`
  | getHash (call : Option ℤ)
  | getFloor (call : Option ℤ) (hash : UserHash)
  | query (call : Option ℤ)
  | checkFloor (call : Option ℤ) (user : User)
  | populate (call : Option ℤ) (user : User)
  -- `batchUpdate`, with the value of the map that was taken
  | flush (value : ℤ)
  deriving DecidableEq

inductive Action where
  | reserve (amount : ℤ)
  | hydrate | batchUpdate | invalidate
  | tick (milliseconds : ℕ)
  | next
  -- the database or Redis fails
  | fail
  deriving DecidableEq

section

variable (rt : Runtime) (p : ℕ) (w : World)

def hydrated : Option ℤ → Stage
  | some amount => .reserve amount true
  | none => .idle

def notHydrated : Option ℤ → Stage
  | some amount => .fallback amount
  | none => .idle

def stepReserve (amount : ℤ) (again : Bool) : World × Stage :=
  match cacheTryReserveUserQuota w.user.id amount w.redis with
  | (redis, .ok) =>
    ({ w with redis, unsettled := w.unsettled + amount, held := w.held ++ [(p, amount)] },
      .persist amount)
  | (_, .insufficient) => (w, .idle)
  | (_, .miss) => (w, if again then .fallback amount else .getHash (some amount))

def stepPersist (amount : ℤ) : World :=
  let w' := { w with granted := w.granted + amount, held := w.held.erase (p, amount) }
  if rt.batchUpdateEnabled then { w' with batch := w.batch - amount }
  else
    { w' with
      user := { w.user with quota := w.user.quota - amount }
      unsettled := w.unsettled - amount }

def stepCompensate (amount : ℤ) (redis : Redis) : World :=
  { w with redis, unsettled := w.unsettled - amount, held := w.held.erase (p, amount) }

def stepFallback (amount : ℤ) : World :=
  if amount ≤ w.user.quota then
    { w with
      user := { w.user with quota := w.user.quota - amount }
      granted := w.granted + amount }
  else w

def stepPopulate (call : Option ℤ) (user : User) : World × Stage :=
  match writeUserCache (userCacheTTLSeconds rt.redisKeyCacheSeconds) user true w.redis with
  | (redis, .pending) => ({ w with redis }, notHydrated call)
  | (redis, _) => ({ w with redis }, hydrated call)

def advance : Stage → Option (World × Stage)
  | .idle => none
  | .reserve amount again => some (stepReserve p w amount again)
  | .persist amount => some (stepPersist rt p w amount, .idle)
  | .compensate amount =>
    some (stepCompensate p w amount (cacheApplyUserQuotaDelta w.user.id amount w.redis).1, .idle)
  | .fallback amount => some (stepFallback w amount, .idle)
  | .getHash call =>
    some (w, (w.redis.usableHash w.user.id).elim (.query call) (.getFloor call))
  | .getFloor call hash =>
    some (w, if hash.authVersion < w.redis.floor then .query call else hydrated call)
  | .query call => some (w, .checkFloor call w.user)
  | .checkFloor call user =>
    some (w, if user.authVersion < w.redis.floor then notHydrated call else .populate call user)
  | .populate call user => some (stepPopulate rt w call user)
  | .flush value =>
    some ({ w with
      user := { w.user with quota := w.user.quota + value }
      unsettled := w.unsettled + value }, .idle)

def failed : Stage → Option (World × Stage)
  | .idle => none
  | .reserve amount _ => some (w, .fallback amount)
  | .persist amount => if rt.batchUpdateEnabled then none else some (w, .compensate amount)
  | .compensate amount => some (stepCompensate p w amount w.redis, .idle)
  | .fallback _ => some (w, .idle)
  | .getHash call | .getFloor call _ => some (w, .query call)
  | .query call => some (w, notHydrated call)
  | .checkFloor call user => some (w, .populate call user)
  | .populate call _ => some (w, hydrated call)
  | .flush _ => some (w, .idle)

def start : Action → World × Stage
  | .reserve amount => (w, if amount ≤ 0 then .idle else .reserve amount false)
  | .hydrate => (w, .getHash none)
  | .batchUpdate => ({ w with batch := 0 }, .flush w.batch)
  | .invalidate => ({ w with redis := invalidateUserCache w.redis }, .idle)
  | .tick ms => ({ w with redis := { w.redis with now := w.redis.now + ms } }, .idle)
  | .next | .fail => (w, .idle)

def perform (a : Action) (stage : Stage) : Option (World × Stage) :=
  match a, stage with
  | .next, stage => advance rt p w stage
  | .fail, stage => failed rt p w stage
  | a, .idle => some (start w a)
  | _, _ => none

end

abbrev System := Config World ℕ Stage

def System.step (rt : Runtime) : System → ℕ × Action → Option System :=
  Config.step fun p a w stage ↦ perform rt p w a stage

def System.start (user : User) (redis : Redis) : System where
  shared := ⟨user, redis, 0, 0, 0, []⟩
  thread _ := .idle

end Moligate.Wallet
