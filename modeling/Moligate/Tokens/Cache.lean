import Moligate.Foundation.Expiring
import Moligate.Foundation.Threads
import Moligate.Tokens.Model

namespace Moligate.Tokens.Cache

open Foundation

/-- What a token is besides its accounting. A hash does not tell an empty list of addresses from a
missing one. -/
def metadata (token : Token) : Token :=
  { token with
    accessedTime := 0
    remainQuota := 0
    usedQuota := 0
    allowIps := token.allowIps.filter (· ≠ "") }

def tokenCacheTTLSeconds (redisKeyCacheSeconds : ℤ) : ℤ :=
  if redisKeyCacheSeconds ≤ 0 then 60 else redisKeyCacheSeconds

def tokenCacheFenceSeconds : ℤ := 10

/-- The row of one token with its two keys in Redis; the clock counts milliseconds. The metadata of
the row at the start and after every mutation is kept, the latest last. -/
structure World where
  now : ℤ
  row : Option Token
  hash : Option (Expiring Token)
  fence : Option (Expiring Unit)
  history : List (Option Token)

namespace World

variable (w : World)

def deadline (seconds : ℤ) : Option ℤ := some (w.now + 1000 * seconds - 1)

def tokenHash : Option Token := liveAt w.now w.hash

def fenced : Bool := (liveAt w.now w.fence).isSome

end World

inductive Mutation where
  | update (token : Token)
  | selectUpdate (token : Token)
  | delete | batchDelete

def Mutation.apply (row : Token) : Mutation → Option Token
  | .update token => some (row.update token)
  | .selectUpdate token => some (row.selectUpdate token)
  | .delete | .batchDelete => none

section

variable (w : World)

def setFence : World := { w with fence := some ⟨(), w.deadline tokenCacheFenceSeconds⟩ }

def delHash : World := { w with hash := none }

def cacheInitToken (redisKeyCacheSeconds : ℤ) (token : Token) : World :=
  let expiresAt := w.deadline (tokenCacheTTLSeconds redisKeyCacheSeconds)
  if w.fenced then w
  else
    match w.tokenHash with
    | some live => { w with hash := some ⟨live, expiresAt⟩ }
    | none =>
      let allowIps := token.allowIps.filter (· ≠ "")
      { w with hash := some ⟨{ token with allowIps }, expiresAt⟩ }

def cacheGetTokenByKey : Option Token := w.tokenHash.filter fun token ↦ 0 < token.id

def changeHash (f : Token → Token) : World :=
  { w with hash := w.hash.map fun e ↦ { e with value := f e.value } }

def cacheApplyTokenQuotaDelta (id delta now : ℤ) : World :=
  match w.tokenHash with
  | none => w
  | some token => if token.id ≠ id then w else changeHash w fun t ↦ t.applyQuotaDelta delta now

def cacheTryReserveTokenQuota (id amount now : ℤ) : World :=
  match w.tokenHash with
  | none => w
  | some token =>
    if token.id ≠ id ∨ token.remainQuota < amount then w
    else changeHash w fun t ↦ t.applyQuotaDelta (-amount) now

def commitMutation (m : Mutation) : World :=
  let row := w.row.bind fun row ↦ m.apply row
  { w with row, history := w.history ++ [row.map metadata] }

def persistTokenQuotaDelta (delta now : ℤ) : World :=
  { w with row := w.row.map fun row ↦ row.applyQuotaDelta delta now }

end

/-- The next step of a call. Readers carry the index of the row that was the latest when they
started, and the moments at which the fence was raised and the row was read are kept. -/
inductive Stage where
  | idle
  | setFence (m : Mutation)
  | delHash (m : Mutation) (raisedAt : ℤ)
  | commit (m : Mutation) (raisedAt : Option ℤ)
  | mutated (result : Except TokenError Unit)
  | lookUp (since : ℕ)
  | read (since : ℕ)
  | init (since : ℕ) (token : Token) (readAt : ℤ)
  | returned (since : ℕ) (result : Except TokenError Token)

inductive Action where
  | mutate (m : Mutation)
  | getTokenByKey (fromDB : Bool)
  | next (fails : Bool)
  | tick (milliseconds : ℕ)
  | reserveScript (id amount now : ℤ)
  | deltaScript (id delta now : ℤ)
  | quotaStatement (delta now : ℤ)

section

variable (key : String) (redisKeyCacheSeconds : ℤ)

def advance (w : World) (fails : Bool) : Stage → Option (World × Stage)
  | .idle | .mutated _ | .returned _ _ => none
  | .setFence m => some (setFence w, .delHash m w.now)
  | .delHash m raisedAt => some (delHash w, .commit m (some raisedAt))
  | .commit m _ =>
    if fails then some (w, .mutated (.error .database))
    else some (commitMutation w m, .mutated (.ok ()))
  | .lookUp since =>
    match cacheGetTokenByKey w with
    | some token => some (w, .returned since (.ok { token with key }))
    | none => some (w, .read since)
  | .read since =>
    if fails then some (w, .returned since (.error .database))
    else
      match w.row with
      | none => some (w, .returned since (.error .recordNotFound))
      | some token => some (w, .init since token w.now)
  | .init since token _ =>
    some (cacheInitToken w redisKeyCacheSeconds token, .returned since (.ok token))

def begin (w : World) : Action → Option Stage
  | .mutate m => some (if key = "" then .commit m none else .setFence m)
  | .getTokenByKey fromDB =>
    let since := w.history.length - 1
    some (if fromDB then .read since else .lookUp since)
  | _ => none

def Stage.finished : Stage → Bool
  | .idle | .mutated _ | .returned _ _ => true
  | _ => false

def perform {π : Type} (_ : π) (a : Action) (w : World) (stage : Stage) : Option (World × Stage) :=
  match a with
  | .next fails => advance key redisKeyCacheSeconds w fails stage
  | .tick milliseconds => some ({ w with now := w.now + milliseconds }, stage)
  | .reserveScript id amount now => some (cacheTryReserveTokenQuota w id amount now, stage)
  | .deltaScript id delta now => some (cacheApplyTokenQuotaDelta w id delta now, stage)
  | .quotaStatement delta now => some (persistTokenQuotaDelta w delta now, stage)
  | a => if stage.finished then (begin key w a).map (w, ·) else none

variable {π : Type} [DecidableEq π]

def step : Config World π Stage → π × Action → Option (Config World π Stage) :=
  Config.step (perform key redisKeyCacheSeconds)

def start (now : ℤ) (row : Option Token) : Config World π Stage :=
  ⟨{ now, row, hash := none, fence := none, history := [row.map metadata] }, fun _ ↦ .idle⟩

end

/-- A mutation commits at most `write` milliseconds after it has raised the fence, and a reader
publishes at most `publish` milliseconds after it has read. -/
def Timely (write publish : ℕ) (w : World) : Action → Stage → Prop
  | .next false, .commit _ (some raisedAt) => w.now ≤ raisedAt + write
  | .next _, .init _ _ readAt => w.now ≤ readAt + publish
  | _, _ => True

instance (write publish : ℕ) (w : World) (a : Action) (stage : Stage) :
    Decidable (Timely write publish w a stage) := by
  unfold Timely
  split <;> infer_instance

end Moligate.Tokens.Cache
