import Moligate.Foundation.Balances
import Moligate.Foundation.Threads

namespace Moligate.Codes

open Foundation

inductive RedemptionStatus where
  | enabled | disabled | used
  deriving DecidableEq

structure Redemption where
  id : ℤ
  status : RedemptionStatus
  quota : ℤ
  redeemedTime : ℤ := 0
  redeemedTokenId : ℤ := 0
  cdkToolRecoveryTokenHash : String := ""
  usedUserId : ℤ := 0
  expiredTime : ℤ := 0
  deriving DecidableEq

/-- The name of a token that a code was exchanged for: the configured text and the id of the
code. -/
structure TokenName where
  text : String
  redemptionId : ℤ
  deriving DecidableEq

structure Token where
  (id userId : ℤ)
  key : String
  name : TokenName
  remainQuota : ℤ
  group : String
  deriving DecidableEq

structure CdkToolSetting where
  enabled : Bool
  serviceUserId : ℤ
  (tokenGroup tokenNamePrefix : String)
  deriving DecidableEq

structure Runtime where
  trimSpace : String → String
  hashCdkToolRecoveryToken : String → String
  cdkToolTokenGroupAllowed : String → String → Bool
  locksRows : Bool

inductive CodeError where
  | noKey | invalidUserId | invalidKey | alreadyUsed | expired | noCdk | cdkDisabled | noServiceUser
  | serviceUserMissing | serviceUserDisabled
  | groupNotAllowed (group : String)
  | invalidCdk | recoveryRefused | tokenMissing | cdkUsed | cdkExpired | invalidQuota | database
  deriving DecidableEq

def CodeError.message : CodeError → String
  | noKey => "未提供兑换码"
  | invalidUserId => "无效的 user id"
  | invalidKey => "无效的兑换码"
  | alreadyUsed => "该兑换码已被使用"
  | expired => "该兑换码已过期"
  | noCdk => "请输入 CDK"
  | cdkDisabled => "CDK 工具兑换未启用"
  | noServiceUser => "CDK 工具专用账户未配置"
  | serviceUserMissing => "CDK 工具专用账户不存在"
  | serviceUserDisabled => "CDK 工具专用账户已被禁用"
  | groupNotAllowed group => "CDK 工具专用账户无权使用 " ++ group ++ " 分组"
  | invalidCdk => "无效的 CDK"
  | recoveryRefused => "该 CDK 已被兑换，请在首次兑换的设备上恢复，或联系管理员"
  | tokenMissing => "CDK 已兑换，但对应 API 密钥不存在，请联系管理员"
  | cdkUsed => "该 CDK 已被使用"
  | cdkExpired => "该 CDK 已过期"
  | invalidQuota => "CDK 额度无效"
  | database => ""

structure Credit where
  key : String
  (userId quota : ℤ)
  token : Option Token
  deriving DecidableEq

structure Profile where
  enabled : Bool
  group : String

/-- The tables. The codes are found by their unique key; the ids of tokens are never used again. -/
structure Db (τ : Type*) where
  codes : Rows String τ (Option Redemption)
  users : Rows ℤ τ (Option ℤ)
  profile : ℤ → Profile
  tokens : List Token
  nextTokenId : ℤ
  credits : List Credit

inductive Request where
  | redeem (key : String) (userId : ℤ)
  | redeemCdkToolCode (key recoveryToken : String) (setting : CdkToolSetting)

inductive Stage where
  | idle
  | lockCode (key : String) (userId : ℤ)
  | markUsed (key : String) (row : Redemption) (userId : ℤ)
  | creditUser (key : String) (row : Redemption) (userId : ℤ)
  | findServiceUser (key recoveryToken : String) (setting : CdkToolSetting)
  | findCode (key recoveryToken : String) (setting : CdkToolSetting)
  | findToken (row : Redemption) (setting : CdkToolSetting)
  | creditService (key : String) (row : Redemption) (setting : CdkToolSetting)
  | createToken (key : String) (row : Redemption) (setting : CdkToolSetting)
  | updateCode (key : String) (row : Redemption) (token : Token)
  | commit (credit : Option Credit)
  | failed (e : CodeError)
  deriving DecidableEq

inductive Action where
  | start (r : Request)
  | next (now : ℤ) (apiKey recoveryToken : String)
  | fail

variable (rt : Runtime)

def verifyCdkToolRecoveryToken (recoveryToken expectedHash : String) : Bool :=
  let recoveryToken := rt.trimSpace recoveryToken
  let expectedHash := rt.trimSpace expectedHash
  recoveryToken ≠ "" && expectedHash ≠ "" && rt.hashCdkToolRecoveryToken recoveryToken = expectedHash

def Redemption.isExpired (row : Redemption) (now : ℤ) : Bool :=
  row.expiredTime ≠ 0 && row.expiredTime < now

def Request.begin : Request → Except CodeError Stage
  | .redeem key userId =>
    if key = "" then .error .noKey
    else if userId = 0 then .error .invalidUserId
    else .ok (.lockCode key userId)
  | .redeemCdkToolCode key recoveryToken setting =>
    let key := rt.trimSpace key
    if key = "" then .error .noCdk
    else if !setting.enabled then .error .cdkDisabled
    else if setting.serviceUserId ≤ 0 then .error .noServiceUser
    else .ok (.findServiceUser key (rt.trimSpace recoveryToken) setting)

variable {τ : Type*} [DecidableEq τ] (db : Db τ) (t : τ)

/-- `lockForUpdate(tx)…First(redemption)`; without row locks it is a plain select. -/
def lockCode (key : String) (userId : ℤ) : Option (Db τ × Stage) :=
  match db.codes.read t key with
  | none => some (db, .failed .invalidKey)
  | some row =>
    if !rt.locksRows then some (db, .markUsed key row userId)
    else if db.codes.free t key then
      some ({ db with codes := db.codes.write t key (some row) }, .markUsed key row userId)
    else none

/-- The compare-and-swap on the status, after the checks on the row that was read. -/
def markUsed (now : ℤ) (key : String) (row : Redemption) (userId : ℤ) : Option (Db τ × Stage) :=
  if row.status ≠ .enabled then some (db, .failed .alreadyUsed)
  else if row.isExpired now then some (db, .failed .expired)
  else if !db.codes.free t key then none
  else
    match db.codes.read t key with
    | none => some (db, .failed .alreadyUsed)
    | some stored =>
      if stored.status ≠ .enabled then some (db, .failed .alreadyUsed)
      else
        let stored := { stored with redeemedTime := now, status := .used, usedUserId := userId }
        some ({ db with codes := db.codes.write t key (some stored) }, .creditUser key row userId)

def creditUser (key : String) (row : Redemption) (userId : ℤ) : Option (Db τ × Stage) :=
  (db.users.credit t userId row.quota).map fun users ↦
    ({ db with users }, .commit (some ⟨key, userId, row.quota, none⟩))

def findServiceUser (key recoveryToken : String) (setting : CdkToolSetting) : Stage :=
  let profile := db.profile setting.serviceUserId
  let tokenGroup := rt.trimSpace setting.tokenGroup
  if (db.users.read t setting.serviceUserId).isNone then .failed .serviceUserMissing
  else if !profile.enabled then .failed .serviceUserDisabled
  else if tokenGroup ≠ "" ∧ rt.cdkToolTokenGroupAllowed profile.group tokenGroup = false then
    .failed (.groupNotAllowed tokenGroup)
  else .findCode key recoveryToken setting

def findCode (now : ℤ) (key recoveryToken : String) (setting : CdkToolSetting) : Stage :=
  match db.codes.read t key with
  | none => .failed .invalidCdk
  | some row =>
    if row.status = .used ∧ row.usedUserId = setting.serviceUserId ∧ 0 < row.redeemedTokenId then
      if verifyCdkToolRecoveryToken rt recoveryToken row.cdkToolRecoveryTokenHash then
        .findToken row setting
      else .failed .recoveryRefused
    else if row.status ≠ .enabled then .failed .cdkUsed
    else if row.isExpired now then .failed .cdkExpired
    else if row.quota ≤ 0 then .failed .invalidQuota
    else .creditService key row setting

def findToken (row : Redemption) (setting : CdkToolSetting) : Stage :=
  if db.tokens.any fun token ↦
      token.id = row.redeemedTokenId && token.userId = setting.serviceUserId then .commit none
  else .failed .tokenMissing

def creditService (key : String) (row : Redemption) (setting : CdkToolSetting) :
    Option (Db τ × Stage) :=
  (db.users.credit t setting.serviceUserId row.quota).map fun users ↦
    ({ db with users }, .createToken key row setting)

def createToken (apiKey : String) (key : String) (row : Redemption) (setting : CdkToolSetting) :
    Db τ × Stage :=
  ({ db with nextTokenId := db.nextTokenId + 1 },
    .updateCode key row
      { id := db.nextTokenId
        userId := setting.serviceUserId
        key := apiKey
        name := ⟨setting.tokenNamePrefix, row.id⟩
        remainQuota := row.quota
        group := rt.trimSpace setting.tokenGroup })

/-- The update of the code asks for its id only, whatever its status is by then. -/
def updateCode (now : ℤ) (recoveryToken : String) (key : String) (row : Redemption)
    (token : Token) : Option (Db τ × Stage) :=
  let credit : Stage := .commit (some ⟨key, token.userId, row.quota, some token⟩)
  if !db.codes.free t key then none
  else
    match db.codes.read t key with
    | none => some (db, credit)
    | some stored =>
      let stored :=
        { stored with
          redeemedTime := now
          status := .used
          usedUserId := token.userId
          redeemedTokenId := token.id
          cdkToolRecoveryTokenHash := rt.hashCdkToolRecoveryToken recoveryToken }
      some ({ db with codes := db.codes.write t key (some stored) }, credit)

def commitCredit (credit : Option Credit) : Db τ :=
  { db with
    codes := db.codes.commit t
    users := db.users.commit t
    tokens := db.tokens ++ (credit.bind Credit.token).toList
    credits := db.credits ++ credit.toList }

def rollbackAll : Db τ :=
  { db with codes := db.codes.rollback t, users := db.users.rollback t }

/-- One statement of the transaction of `t`; `none` while it waits for a lock. -/
def perform (t : τ) (a : Action) (db : Db τ) (stage : Stage) : Option (Db τ × Stage) :=
  match stage, a with
  | .idle, .start r =>
    match r.begin rt with
    | .error _ => some (db, .idle)
    | .ok stage => some (db, stage)
  | .lockCode key userId, .next _ _ _ => lockCode rt db t key userId
  | .markUsed key row userId, .next now _ _ => markUsed db t now key row userId
  | .creditUser key row userId, .next _ _ _ => creditUser db t key row userId
  | .findServiceUser key recoveryToken setting, .next _ _ _ =>
    some (db, findServiceUser rt db t key recoveryToken setting)
  | .findCode key recoveryToken setting, .next now _ _ =>
    some (db, findCode rt db t now key recoveryToken setting)
  | .findToken row setting, .next _ _ _ => some (db, findToken db row setting)
  | .creditService key row setting, .next _ _ _ => creditService db t key row setting
  | .createToken key row setting, .next _ apiKey _ =>
    some (createToken rt db apiKey key row setting)
  | .updateCode key row token, .next now _ recoveryToken =>
    updateCode rt db t now recoveryToken key row token
  | .commit credit, .next _ _ _ => some (commitCredit db t credit, .idle)
  | .failed _, .next _ _ _ => some (rollbackAll db t, .idle)
  | .idle, _ => none
  | .failed _, _ => none
  | _, .fail => some (db, .failed .database)
  | _, .start _ => none

end Moligate.Codes
