import Mathlib.Data.Int.Order.Basic
import Moligate.Foundation.Locks
import Moligate.Foundation.Strings
import Moligate.Foundation.Threads

namespace Moligate.AuthFlows

open Foundation Strings

/-- Times and durations are in nanoseconds, times from Go's zero time on. -/
def authFlowDefaultCleanupRetention : ℤ := 24 * 60 * 60 * 1000000000

inductive AuthFlowError
  | invalid | expired | consumed | other
  deriving DecidableEq

def AuthFlowError.message : AuthFlowError → Option String
  | invalid => some "auth flow is invalid"
  | expired => some "auth flow has expired"
  | consumed => some "auth flow has already been consumed"
  | other => none

structure AuthFlow where
  id : ℤ
  (tokenHash purpose : String)
  provider : String := ""
  intent : String := ""
  userId : ℤ := 0
  sessionId : String := ""
  payload : String := ""
  expiresAt : ℤ
  consumedAt : Option ℤ := none
  deriving DecidableEq

structure AuthFlowCreate where
  purpose : String
  provider : String := ""
  intent : String := ""
  userId : ℤ := 0
  sessionId : String := ""
  payload : String := ""
  expiresAt : ℤ

structure AuthFlowMatch where
  purpose : String
  provider : String := ""
  intent : String := ""
  userId : ℤ := 0
  sessionId : String := ""
  deriving DecidableEq

/-- The keyed hash and its secret, and whether the database has row locks for selects. -/
structure Runtime where
  generateHMACWithKey : String → String → String
  sessionSecret : String
  locksRows : Bool

variable (rt : Runtime)

def authFlowTokenHash (token : String) : String :=
  rt.generateHMACWithKey ("auth-flow-v1:" ++ rt.sessionSecret) token

def applyAuthFlowMatch (token : String) (m : AuthFlowMatch) (flow : AuthFlow) : Bool :=
  flow.tokenHash = authFlowTokenHash rt token && flow.purpose = m.purpose &&
    (m.provider = "" || flow.provider = m.provider) && (m.intent = "" || flow.intent = m.intent) &&
    (m.userId = 0 || flow.userId = m.userId) && (m.sessionId = "" || flow.sessionId = m.sessionId)

/-- A claim of an external assertion, at the time that it has read. -/
structure Claim where
  (purpose assertion : String)
  (expiresAt now : ℤ)
  deriving DecidableEq

def Claim.tokenHash (c : Claim) : String :=
  authFlowTokenHash rt ("external:" ++ c.purpose ++ ":" ++ c.assertion)

def Claim.flow (c : Claim) (id : ℤ) : AuthFlow :=
  { id := id, tokenHash := c.tokenHash rt, purpose := c.purpose, expiresAt := c.expiresAt
    consumedAt := some c.now }

structure Consumption where
  token : String
  required : AuthFlowMatch
  flow : AuthFlow
  now : ℤ
  deriving DecidableEq

structure Consumed where
  consumption : Consumption
  stored : Option AuthFlow
  committedAt : ℤ
  deriving DecidableEq

structure Accepted where
  claim : Claim
  acceptedAt : ℤ
  deriving DecidableEq

/-- The table under its unique token hash, the clock, and what was committed so far. -/
structure Db (τ : Type) where
  clock : ℤ
  flows : Rows String τ (Option AuthFlow)
  nextId : ℤ
  consumed : List Consumed
  accepted : List Accepted

structure Work where
  consumption : Option Consumption
  claims : List Claim
  deriving DecidableEq

inductive Stage
  | idle (result : Except AuthFlowError (Option AuthFlow))
  | create (token : String) (input : AuthFlowCreate)
  | select (token : String) (required : AuthFlowMatch)
  | check (token : String) (required : AuthFlowMatch) (flow : AuthFlow)
  | update (c : Consumption)
  | action (w : Work)
  | insert (w : Work) (claim : Claim)
  | commit (w : Work)
  | delete (now : ℤ)

/-- The calls, the next statement of a call, and what is not up to the code: the clock, the result
of an action, and failures. -/
inductive Action
  | tick (now : ℤ)
  | createAuthFlow (token : String) (input : AuthFlowCreate)
  | consumeAuthFlowWithAction (token : String) (required : AuthFlowMatch)
  | claimExternalAuthAssertion (purpose assertion : String) (expiresAt : ℤ)
  | deleteExpiredAuthFlows | next | succeed | fail

variable {τ : Type} [DecidableEq τ] (db : Db τ) (t : τ)

def Db.rollback : Db τ := { db with flows := db.flows.rollback t }

def failWith (e : AuthFlowError) : Db τ × Stage := (db.rollback t, .idle (.error e))

def createAuthFlow (token : String) (input : AuthFlowCreate) : Stage :=
  if trimSpace input.purpose = "" ∨ input.expiresAt = 0 ∨ ¬db.clock < input.expiresAt then
    .idle (.error .invalid)
  else .create token input

def AuthFlowCreate.flow (input : AuthFlowCreate) (token : String) (id : ℤ) : AuthFlow :=
  { id := id, tokenHash := authFlowTokenHash rt token, purpose := input.purpose
    provider := input.provider, intent := input.intent, userId := input.userId
    sessionId := input.sessionId, payload := input.payload, expiresAt := input.expiresAt }

def insertFlow (token : String) (input : AuthFlowCreate) : Option (Db τ × Stage) :=
  let hash := authFlowTokenHash rt token
  if db.consumed.any fun x ↦ authFlowTokenHash rt x.consumption.token = hash then none
  else if !db.flows.free t hash then none
  else
    match db.flows.read t hash with
    | some _ => some (db, .idle (.error .other))
    | none =>
      let flow := input.flow rt token db.nextId
      some ({ db with flows := (db.flows.write t hash (some flow)).commit t
                      nextId := db.nextId + 1 }, .idle (.ok (some flow)))

def consumeAuthFlowWithAction (token : String) (required : AuthFlowMatch) : Stage :=
  if token = "" ∨ required.purpose = "" then .idle (.error .invalid) else .select token required

/-- The select with `lockForUpdate`; without row locks it is a plain select. -/
def selectFlow (token : String) (required : AuthFlowMatch) : Option (Db τ × Stage) :=
  let hash := authFlowTokenHash rt token
  match db.flows.read t hash with
  | none => some (failWith db t .invalid)
  | some flow =>
    if !applyAuthFlowMatch rt token required flow then some (failWith db t .invalid)
    else if !rt.locksRows then some (db, .check token required flow)
    else if db.flows.free t hash then
      some ({ db with flows := db.flows.write t hash (some flow) }, .check token required flow)
    else none

def checkFlow (token : String) (required : AuthFlowMatch) (flow : AuthFlow) : Db τ × Stage :=
  if flow.consumedAt.isSome then failWith db t .consumed
  else if ¬db.clock < flow.expiresAt then failWith db t .expired
  else (db, .update ⟨token, required, flow, db.clock⟩)

def updateFlow (c : Consumption) : Option (Db τ × Stage) :=
  let hash := authFlowTokenHash rt c.token
  if !db.flows.free t hash then none
  else
    match db.flows.read t hash with
    | none => some (failWith db t .consumed)
    | some stored =>
      if stored.id = c.flow.id ∧ stored.consumedAt = none ∧ c.now < stored.expiresAt then
        let stored := { stored with consumedAt := some c.now }
        some ({ db with flows := db.flows.write t hash (some stored) }, .action ⟨some c, []⟩)
      else some (failWith db t .consumed)

/-- A claim ends its own transaction with the error, or returns the error to the action. -/
def refuse (w : Work) (e : AuthFlowError) : Db τ × Stage :=
  match w.consumption with
  | none => failWith db t e
  | some _ => (db, .action w)

def claimExternalAuthAssertion (w : Work) (purpose assertion : String) (expiresAt : ℤ) :
    Db τ × Stage :=
  let purpose := trimSpace purpose
  let assertion := trimSpace assertion
  if purpose = "" ∨ assertion = "" ∨ ¬db.clock < expiresAt then refuse db t w .invalid
  else (db, .insert w ⟨purpose, assertion, expiresAt, db.clock⟩)

def insertClaim (w : Work) (claim : Claim) : Option (Db τ × Stage) :=
  let hash := claim.tokenHash rt
  if !db.flows.free t hash then none
  else
    match db.flows.read t hash with
    | some _ => some (refuse db t w .consumed)
    | none =>
      let w := { w with claims := w.claims ++ [claim] }
      some ({ db with flows := db.flows.write t hash (some (claim.flow rt db.nextId))
                      nextId := db.nextId + 1 },
        if w.consumption.isSome then .action w else .commit w)

def commitWork (w : Work) : Db τ × Stage :=
  ({ db with
      flows := db.flows.commit t
      consumed := db.consumed ++ w.consumption.toList.map fun c ↦
        ⟨c, db.flows.committed (authFlowTokenHash rt c.token), db.clock⟩
      accepted := db.accepted ++ w.claims.map fun claim ↦ ⟨claim, db.clock⟩ },
    .idle (.ok (w.consumption.map fun c ↦ { c.flow with consumedAt := some c.now })))

def AuthFlow.outdated (now : ℤ) (flow : AuthFlow) : Bool :=
  let cutoff := now - authFlowDefaultCleanupRetention
  flow.expiresAt < cutoff || flow.consumedAt.any (· < cutoff)

/-- The delete statement commits at once; rows that others have locked wait. -/
def deleteExpiredAuthFlows (now : ℤ) : Db τ :=
  { db with flows := db.flows.modifyFree fun row ↦ row.filter fun flow ↦ !flow.outdated now }

def perform (t : τ) (a : Action) (db : Db τ) (stage : Stage) : Option (Db τ × Stage) :=
  match a, stage with
  | .tick now, stage => if db.clock ≤ now then some ({ db with clock := now }, stage) else none
  | .createAuthFlow token input, .idle _ => some (db, createAuthFlow db token input)
  | .consumeAuthFlowWithAction token required, .idle _ =>
    some (db, consumeAuthFlowWithAction token required)
  | .claimExternalAuthAssertion purpose assertion expiresAt, .idle _ =>
    some (claimExternalAuthAssertion db t ⟨none, []⟩ purpose assertion expiresAt)
  | .claimExternalAuthAssertion purpose assertion expiresAt, .action w =>
    some (claimExternalAuthAssertion db t w purpose assertion expiresAt)
  | .deleteExpiredAuthFlows, .idle _ => some (db, .delete db.clock)
  | .next, .create token input => insertFlow rt db t token input
  | .next, .select token required => selectFlow rt db t token required
  | .next, .check token required flow => some (checkFlow db t token required flow)
  | .next, .update c => updateFlow rt db t c
  | .next, .insert w claim => insertClaim rt db t w claim
  | .next, .commit w => some (commitWork rt db t w)
  | .next, .delete now => some (deleteExpiredAuthFlows db now, .delete now)
  | .succeed, .action w => some (db, .commit w)
  | .succeed, .delete _ => some (db, .idle (.ok none))
  | .fail, .idle _ => none
  | .fail, _ => some (failWith db t .other)
  | _, _ => none

def System.step (c : Config (Db τ) τ Stage) (a : τ × Action) : Option (Config (Db τ) τ Stage) :=
  Config.step (perform rt) c a

end Moligate.AuthFlows
