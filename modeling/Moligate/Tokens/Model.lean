import Mathlib.Data.Int.Order.Basic

namespace Moligate.Tokens

inductive TokenStatus where
  | enabled | disabled | expired | exhausted
  | other (status : ℤ)
  deriving DecidableEq

structure Token where
  (id userId : ℤ)
  key : String
  status : TokenStatus
  name : String
  (accessedTime expiredTime remainQuota usedQuota : ℤ)
  (unlimitedQuota modelLimitsEnabled : Bool)
  modelLimits : String
  allowIps : Option String
  group : String
  crossGroupRetry : Bool
  autoGroups : String
  deriving DecidableEq

inductive TokenError where
  | quotaArgument | nameTooLong | quotaNegative
  | quotaExceedMax (max : ℤ)
  | idEmpty | idOrUserIdEmpty | recordNotFound | expiredCannotEnable | exhaustedCannotEnable
  | autoGroups (message : String)
  | database
  deriving DecidableEq

def TokenError.message : TokenError → String
  | quotaArgument => "quota 不能为负数！"
  | nameTooLong => "token.name_too_long"
  | quotaNegative => "token.quota_negative"
  | quotaExceedMax _ => "token.quota_exceed_max"
  | idEmpty => "id 为空！"
  | idOrUserIdEmpty => "id 或 userId 为空！"
  | recordNotFound => "record not found"
  | expiredCannotEnable => "token.expired_cannot_enable"
  | exhaustedCannotEnable => "token.exhausted_cannot_enable"
  | autoGroups message => message
  | database => "database error"

namespace Token

def update (row token : Token) : Token :=
  { row with
    name := token.name
    status := token.status
    expiredTime := token.expiredTime
    remainQuota := token.remainQuota
    unlimitedQuota := token.unlimitedQuota
    modelLimitsEnabled := token.modelLimitsEnabled
    modelLimits := token.modelLimits
    allowIps := token.allowIps
    group := token.group
    crossGroupRetry := token.crossGroupRetry
    autoGroups := token.autoGroups }

def selectUpdate (row token : Token) : Token :=
  { row with accessedTime := token.accessedTime, status := token.status }

def applyQuotaDelta (row : Token) (delta now : ℤ) : Token :=
  { row with
    remainQuota := row.remainQuota + delta
    usedQuota := row.usedQuota - delta
    accessedTime := now }

end Token

structure TokenRequest where
  (id userId : ℤ)
  statusOnly : Bool
  status : TokenStatus
  name : String
  (expiredTime remainQuota : ℤ)
  (unlimitedQuota modelLimitsEnabled : Bool)
  modelLimits : String
  allowIps : Option String
  group : String
  crossGroupRetry : Bool
  newAutoGroups : Option (List String)

structure Settings where
  maxQuotaValue : ℤ
  setTokenAutoGroups : List String → Except TokenError String

section

variable (settings : Settings)

def TokenRequest.check (req : TokenRequest) : Except TokenError Unit :=
  if 50 < req.name.utf8ByteSize then .error .nameTooLong
  else if !req.unlimitedQuota && req.remainQuota < 0 then .error .quotaNegative
  else if !req.unlimitedQuota && settings.maxQuotaValue < req.remainQuota then
    .error (.quotaExceedMax settings.maxQuotaValue)
  else if req.id = 0 ∨ req.userId = 0 then .error .idOrUserIdEmpty
  else .ok ()

def TokenRequest.apply (req : TokenRequest) (now : ℤ) (cleanToken : Token) :
    Except TokenError Token :=
  if req.status = .enabled ∧ cleanToken.status = .expired ∧ cleanToken.expiredTime ≤ now ∧
      cleanToken.expiredTime ≠ -1 then .error .expiredCannotEnable
  else if req.status = .enabled ∧ cleanToken.status = .exhausted ∧ cleanToken.remainQuota ≤ 0 ∧
      cleanToken.unlimitedQuota = false then .error .exhaustedCannotEnable
  else if req.statusOnly then .ok { cleanToken with status := req.status }
  else
    let token : Token :=
      { cleanToken with
        name := req.name
        expiredTime := req.expiredTime
        remainQuota := req.remainQuota
        unlimitedQuota := req.unlimitedQuota
        modelLimitsEnabled := req.modelLimitsEnabled
        modelLimits := req.modelLimits
        allowIps := req.allowIps
        group := req.group
        crossGroupRetry := req.crossGroupRetry }
    if req.group ≠ "auto" then .ok { token with crossGroupRetry := false, autoGroups := "" }
    else
      match req.newAutoGroups with
      | none => .ok token
      | some groups => (settings.setTokenAutoGroups groups).map fun autoGroups ↦
          { token with autoGroups }

end

def withoutModelLimits (token : Token) : Token :=
  { token with modelLimitsEnabled := false, modelLimits := "" }

end Moligate.Tokens
