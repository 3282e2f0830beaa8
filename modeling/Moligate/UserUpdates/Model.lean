import Mathlib.Data.Int.Order.Basic
import Moligate.Foundation.Journal
import Moligate.Foundation.Strings
import Moligate.Foundation.Threads

namespace Moligate.UserUpdates

open Foundation Strings

def roleCommonUser : ℤ := 1

def roleAdminUser : ℤ := 10

def roleRootUser : ℤ := 100

def userStatusEnabled : ℤ := 1

def userStatusDisabled : ℤ := 2

inductive Binding
  | email | github | discord | oidc | wechat | telegram | linuxdo
  deriving DecidableEq

structure User where
  (role status : ℤ)
  (group email gitHubId discordId oidcId weChatId telegramId linuxDOId affCode : String)
  authVersion : ℤ
  deriving DecidableEq

namespace User

def binding (u : User) : Binding → String
  | .email => u.email
  | .github => u.gitHubId
  | .discord => u.discordId
  | .oidc => u.oidcId
  | .wechat => u.weChatId
  | .telegram => u.telegramId
  | .linuxdo => u.linuxDOId

def setBinding (u : User) (value : String) : Binding → User
  | .email => { u with email := value }
  | .github => { u with gitHubId := value }
  | .discord => { u with discordId := value }
  | .oidc => { u with oidcId := value }
  | .wechat => { u with weChatId := value }
  | .telegram => { u with telegramId := value }
  | .linuxdo => { u with linuxDOId := value }

end User

def nonZero {α : Type} [DecidableEq α] (zero new current : α) : α :=
  if new = zero then current else new

def updates (newUser current : User) : User where
  role := nonZero 0 newUser.role current.role
  status := nonZero 0 newUser.status current.status
  group := nonZero "" newUser.group current.group
  email := nonZero "" newUser.email current.email
  gitHubId := nonZero "" newUser.gitHubId current.gitHubId
  discordId := nonZero "" newUser.discordId current.discordId
  oidcId := nonZero "" newUser.oidcId current.oidcId
  weChatId := nonZero "" newUser.weChatId current.weChatId
  telegramId := nonZero "" newUser.telegramId current.telegramId
  linuxDOId := nonZero "" newUser.linuxDOId current.linuxDOId
  affCode := nonZero "" newUser.affCode current.affCode
  authVersion := current.authVersion

def authChanged (newUser current : User) : Bool :=
  newUser.role ≠ 0 && current.role ≠ newUser.role ||
    newUser.status ≠ 0 && current.status ≠ newUser.status ||
    newUser.group ≠ "" && current.group ≠ newUser.group

def incrementUserAuthVersion (u : User) : User := { u with authVersion := max u.authVersion 1 + 1 }

def canManageTargetRole (myRole targetRole : ℤ) : Bool := myRole = roleRootUser || targetRole < myRole

inductive ManageAction
  | disable | enable | promote | demote
  deriving DecidableEq

inductive Request
  | emailBind (email : String)
  | getAffCode (code : String)
  | clearBinding (b : Binding)
  | updateUserBindColumn (b : Binding) (value : String)
  | createUserSubscriptionFromPlan (upgradeGroup : String)
  | manageUser (myRole : ℤ) (action : ManageAction)
  deriving DecidableEq

def userBindColumns : Binding → Bool
  | .github | .discord | .oidc | .linuxdo | .wechat => true
  | .email | .telegram => false

def manage (myRole : ℤ) (action : ManageAction) (user : User) : Option User :=
  if !canManageTargetRole myRole user.role then none
  else
    match action with
    | .disable =>
      if user.role = roleRootUser then none else some { user with status := userStatusDisabled }
    | .enable => some { user with status := userStatusEnabled }
    | .promote =>
      if myRole ≠ roleRootUser ∨ roleAdminUser ≤ user.role then none
      else some { user with role := roleAdminUser }
    | .demote =>
      if user.role = roleRootUser ∨ user.role = roleCommonUser then none
      else some { user with role := roleCommonUser }

-- `strings.ToLower`
variable (lower : String → String)

def normalizeEmail (email : String) : String := lower (trimSpace email)

def prepare (user : User) : Request → Option User
  | .emailBind email => some { user with email := normalizeEmail lower (normalizeEmail lower email) }
  | .getAffCode code => if user.affCode = "" then some { user with affCode := code } else none
  | .manageUser myRole action => manage myRole action user
  | _ => none

def assign (user : User) : Request → User
  | .clearBinding b => user.setBinding "" b
  | .updateUserBindColumn b value => user.setBinding value b
  | .createUserSubscriptionFromPlan upgradeGroup => { user with group := trimSpace upgradeGroup }
  | _ => user

structure Db (τ : Type) where
  user : Rows Unit τ User
  log : List (Change Request User)

namespace Db

variable {τ : Type} [DecidableEq τ]

def committed (db : Db τ) : User := db.user.committed ()

def read (db : Db τ) (t : τ) : User := db.user.read t ()

def free (db : Db τ) (t : τ) : Bool := db.user.free t ()

def write (db : Db τ) (t : τ) (u : User) : Db τ := { db with user := db.user.write t () u }

def rollback (db : Db τ) (t : τ) : Db τ := { db with user := db.user.rollback t }

def commit (db : Db τ) (t : τ) (r : Request) : Db τ where
  user := db.user.commit t
  log := ⟨r, db.committed, db.read t⟩ :: db.log

end Db

/-- The statement that a call executes next. A call that writes the row back keeps the row that it
has loaded, and what it made of it. -/
inductive Stage
  | idle
  | load (r : Request)
  | current (r : Request) (seen user : User)
  | bump (r : Request) (seen user : User)
  | updates (r : Request) (seen user : User)
  | group (r : Request) (upgradeGroup : String)
  | assign (r : Request)
  | commit (r : Request)
  deriving DecidableEq

inductive Action
  | call (r : Request)
  | next | fail

def begin : Request → Stage
  | .clearBinding b => .assign (.clearBinding b)
  | .updateUserBindColumn b value =>
    if userBindColumns b then .assign (.updateUserBindColumn b value) else .idle
  | .createUserSubscriptionFromPlan upgradeGroup =>
    if trimSpace upgradeGroup = "" then .idle
    else .group (.createUserSubscriptionFromPlan upgradeGroup) (trimSpace upgradeGroup)
  | r => .load r

variable {τ : Type} [DecidableEq τ]

def writes (t : τ) (db : Db τ) (f : User → User) (stage : Stage) : Option (Db τ × Stage) :=
  if db.free t then some (db.write t (f (db.read t)), stage) else none

def next (t : τ) (db : Db τ) : Stage → Option (Db τ × Stage)
  | .idle => none
  | .load r =>
    match prepare lower (db.read t) r with
    | none => some (db, .idle)
    | some user => some (db, .current r (db.read t) user)
  | .current r seen user =>
    some (db, if authChanged user (db.read t) then .bump r seen user else .updates r seen user)
  | .bump r seen user => writes t db incrementUserAuthVersion (.updates r seen user)
  | .updates r _ user => writes t db (UserUpdates.updates user) (.commit r)
  | .group r upgradeGroup =>
    some (db, if (db.read t).group = upgradeGroup then .commit r else .assign r)
  | .assign r => writes t db (UserUpdates.assign · r) (.commit r)
  | .commit r => some (db.commit t r, .idle)

def perform (t : τ) (a : Action) (db : Db τ) (stage : Stage) : Option (Db τ × Stage) :=
  match a with
  | .call r => if stage = .idle then some (db, begin r) else none
  | .next => next lower t db stage
  | .fail => if stage = .idle then none else some (db.rollback t, .idle)

def step : Config (Db τ) τ Stage → τ × Action → Option (Config (Db τ) τ Stage) :=
  Config.step (perform lower)

def start (u : User) : Config (Db τ) τ Stage := ⟨⟨.ofCommitted fun _ ↦ u, []⟩, fun _ ↦ .idle⟩

end Moligate.UserUpdates
