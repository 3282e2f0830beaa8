import Moligate.Foundation.Strings
import Moligate.Foundation.Table
import Moligate.Foundation.Threads

namespace Moligate.TwoFactor

open Foundation Strings

def maxFailAttempts : ℤ := 5

def lockoutDuration : ℤ := 300 * 1000000000

def backupCodeLength : ℕ := 8

def maxUpdateRetries : ℕ := 5

structure TwoFA where
  (id userId : ℤ)
  secret : String
  failedAttempts : ℤ := 0
  lockedUntil : Option ℤ := none
  lastUsedAt : Option ℤ := none
  deriving DecidableEq

structure TwoFABackupCode where
  (id userId : ℤ)
  codeHash : String
  isUsed : Bool := false
  usedAt : Option ℤ := none
  deriving DecidableEq

structure Env where
  totpValidate : String → String → ℤ → Bool
  validatePasswordAndHash : String → String → Bool
  toUpper : String → String
  formatTime : ℤ → String

variable (env : Env)

def validateTOTPCode (secret code : String) (now : ℤ) : Bool :=
  let cleanCode := without code ' '
  if cleanCode.utf8ByteSize ≠ 6 then false else env.totpValidate cleanCode secret now

def validateBackupCodeFormat (code : String) : Bool :=
  let cleanCode := env.toUpper (without code '-')
  cleanCode.utf8ByteSize = backupCodeLength &&
    cleanCode.toList.all fun c ↦ 'A' ≤ c && c ≤ 'Z' || '0' ≤ c && c ≤ '9'

def normalizeBackupCode (code : String) : String :=
  let cleanCode := env.toUpper (without code '-')
  if cleanCode.utf8ByteSize = backupCodeLength then
    String.ofList (cleanCode.toList.take 4) ++ "-" ++ String.ofList (cleanCode.toList.drop 4)
  else code

def TwoFA.isLocked (t : TwoFA) (now : ℤ) : Bool := t.lockedUntil.any (now < ·)

/-- A check that was not refused: the wrong codes since the last success, when the last of them was
checked, the lock of the row, and the time. -/
structure Passed where
  (wrong lastWrong : ℤ)
  lockedUntil : Option ℤ
  time : ℤ
  deriving DecidableEq

structure Removal where
  (lockedUntil time : ℤ)
  deriving DecidableEq

/-- The tables and the clock, with a record of the checks: the wrong codes since the last success,
the checks that were not refused, the locks that were overwritten and the backup codes for which a
call returns true. -/
structure World where
  clock : ℤ
  row : TwoFA
  codes : Table TwoFABackupCode.id
  wrong : ℤ := 0
  lastWrong : ℤ := 0
  passed : List Passed := []
  removed : List Removal := []
  redeemed : List ℤ := []

inductive Attempt
  | totp (code : String)
  | backup (code : String)

inductive Stage
  | idle (result : Except String Bool)
  | lockTest (copy : TwoFA) (attempt : Attempt)
  | validate (copy : TwoFA) (attempt : Attempt)
  | redeem (copy : TwoFA) (codeId : ℤ)
  | increment (copy : TwoFA) (retries : ℕ)
  | current (copy current : TwoFA) (retries : ℕ)
  | swap (copy current : TwoFA) (now : ℤ) (retries : ℕ)
  | save (copy : TwoFA)

inductive Action
  | tick (now : ℤ)
  | attempt (attempt : Attempt)
  | next
  | fail (e : String)

variable (w : World)

def World.write (row : TwoFA) : World :=
  { w with
    row := row
    removed := w.removed ++
      if row.lockedUntil = w.row.lockedUntil then []
      else w.row.lockedUntil.toList.map fun lockedUntil ↦ ⟨lockedUntil, w.clock⟩ }

def lockTest (copy : TwoFA) (attempt : Attempt) : World × Stage :=
  if copy.isLocked w.clock then
    (w, .idle (.error ("账户已被锁定，请在" ++ (copy.lockedUntil.map env.formatTime).getD "" ++ "后重试")))
  else
    ({ w with passed := w.passed ++ [⟨w.wrong, w.lastWrong, w.row.lockedUntil, w.clock⟩] },
      .validate copy attempt)

def wrongCode (copy : TwoFA) : World × Stage :=
  ({ w with wrong := w.wrong + 1, lastWrong := w.clock },
    if copy.id = 0 then .idle (.ok false) else .increment copy maxUpdateRetries)

def rightCode (copy : TwoFA) : World × Stage :=
  ({ w with wrong := 0 },
    .save { copy with failedAttempts := 0, lockedUntil := none, lastUsedAt := some w.clock })

def findBackupCode (userId : ℤ) (code : String) : Option TwoFABackupCode :=
  (w.codes.rows.filter fun bc ↦ bc.userId = userId && !bc.isUsed).find? fun bc ↦
    env.validatePasswordAndHash (normalizeBackupCode env code) bc.codeHash

def validate (copy : TwoFA) (attempt : Attempt) : World × Stage :=
  match attempt with
  | .totp code =>
    if validateTOTPCode env copy.secret code w.clock then rightCode w copy else wrongCode w copy
  | .backup code =>
    if !validateBackupCodeFormat env code then (w, .idle (.error "验证码或备用码不正确"))
    else
      match findBackupCode env w copy.userId code with
      | some bc => (w, .redeem copy bc.id)
      | none => wrongCode w copy

def redeem (copy : TwoFA) (codeId : ℤ) : World × Stage :=
  match w.codes.find codeId with
  | some bc =>
    if bc.isUsed then wrongCode w copy
    else
      rightCode { w with
        codes := w.codes.save { bc with isUsed := true, usedAt := some w.clock }
        redeemed := w.redeemed ++ [codeId] } copy
  | none => wrongCode w copy

def readCurrent (copy : TwoFA) : ℕ → Stage
  | 0 => .idle (.ok false)
  | retries + 1 =>
    if w.row.id = copy.id then .current copy w.row retries else .idle (.ok false)

def testCurrent (copy current : TwoFA) (retries : ℕ) : Stage :=
  if current.isLocked w.clock then .idle (.ok false) else .swap copy current w.clock retries

def swap (copy current : TwoFA) (now : ℤ) (retries : ℕ) : World × Stage :=
  let failedAttempts := current.failedAttempts + 1
  let lockedUntil := if maxFailAttempts ≤ failedAttempts then some (now + lockoutDuration)
    else current.lockedUntil
  if w.row.id = current.id ∧ w.row.failedAttempts = current.failedAttempts ∧
      w.row.isLocked now = false then
    (w.write { w.row with failedAttempts := failedAttempts, lockedUntil := lockedUntil },
      .idle (.ok false))
  else (w, .increment copy retries)

def updateUsageState (copy : TwoFA) : World × Stage :=
  if copy.id ≠ 0 ∧ w.row.id = copy.id then
    (w.write { w.row with
        failedAttempts := copy.failedAttempts
        lockedUntil := copy.lockedUntil
        lastUsedAt := copy.lastUsedAt },
      .idle (.ok true))
  else (w, .idle (.ok true))

/-- One step of an attempt; the errors of the last updates are only logged. -/
def perform (a : Action) (w : World) (stage : Stage) : Option (World × Stage) :=
  match a, stage with
  | .tick now, stage => if w.clock ≤ now then some ({ w with clock := now }, stage) else none
  | .attempt attempt, .idle _ => some (w, .lockTest w.row attempt)
  | .next, .lockTest copy attempt => some (lockTest env w copy attempt)
  | .next, .validate copy attempt => some (validate env w copy attempt)
  | .next, .redeem copy codeId => some (redeem w copy codeId)
  | .next, .increment copy retries => some (w, readCurrent w copy retries)
  | .next, .current copy current retries => some (w, testCurrent w copy current retries)
  | .next, .swap copy current now retries => some (swap w copy current now retries)
  | .next, .save copy => some (updateUsageState w copy)
  | .fail e, .validate _ (.backup _) => some (w, .idle (.error e))
  | .fail e, .redeem _ _ => some (w, .idle (.error e))
  | .fail _, .increment _ _ => some (w, .idle (.ok false))
  | .fail _, .swap _ _ _ _ => some (w, .idle (.ok false))
  | .fail _, .save _ => some (w, .idle (.ok true))
  | _, _ => none

def System.step {τ : Type} [DecidableEq τ] (c : Config World τ Stage) (a : τ × Action) :
    Option (Config World τ Stage) :=
  Config.step (fun _ ↦ perform env) c a

end Moligate.TwoFactor
