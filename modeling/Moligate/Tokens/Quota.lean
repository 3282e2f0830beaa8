import Moligate.Foundation.Threads
import Moligate.Tokens.Model

namespace Moligate.Tokens.Quota

open Foundation

inductive Call where
  | tryReserveTokenQuota (quota : ℤ) (unlimited : Bool)
  | increaseTokenQuota (quota : ℤ)
  | decreaseTokenQuota (quota : ℤ)
  | updateToken (req : TokenRequest)
  | disableModelLimits (id : ℤ)

inductive Edit where
  | request (req : TokenRequest)
  | modelLimits (id : ℤ)

inductive Stage where
  | idle
  | reserve (quota : ℤ)
  | increase (quota : ℤ)
  | decrease (quota : ℤ)
  | load (edit : Edit)
  | update (token : Token)
  | done (result : Except TokenError Bool)

def Stage.finished : Stage → Bool
  | .idle | .done _ => true
  | _ => false

structure Ledger where
  reserved : ℤ := 0
  decreased : ℤ := 0
  increased : ℤ := 0

structure World where
  token : Token
  ledger : Ledger := {}

inductive Action where
  | call (c : Call)
  | next (now : ℤ) (fails : Bool)

variable (settings : Settings)

def begin : Call → Stage
  | .tryReserveTokenQuota quota unlimited =>
    if quota < 0 then .done (.error .quotaArgument)
    else if quota = 0 then .done (.ok true)
    else if unlimited then .decrease quota
    else .reserve quota
  | .increaseTokenQuota quota =>
    if quota < 0 then .done (.error .quotaArgument) else .increase quota
  | .decreaseTokenQuota quota =>
    if quota < 0 then .done (.error .quotaArgument) else .decrease quota
  | .updateToken req =>
    match req.check settings with
    | .error e => .done (.error e)
    | .ok () => .load (.request req)
  | .disableModelLimits id => if id = 0 then .done (.error .idEmpty) else .load (.modelLimits id)

def reserveTokenQuotaDB (w : World) (now quota : ℤ) : World × Stage :=
  if quota ≤ w.token.remainQuota then
    ({ token := w.token.applyQuotaDelta (-quota) now
       ledger := { w.ledger with reserved := w.ledger.reserved + quota } }, .done (.ok true))
  else (w, .done (.ok false))

def increaseTokenQuota (w : World) (now quota : ℤ) : World × Stage :=
  ({ token := w.token.applyQuotaDelta quota now
     ledger := { w.ledger with increased := w.ledger.increased + quota } }, .done (.ok true))

def decreaseTokenQuota (w : World) (now quota : ℤ) : World × Stage :=
  ({ token := w.token.applyQuotaDelta (-quota) now
     ledger := { w.ledger with decreased := w.ledger.decreased + quota } }, .done (.ok true))

def loadToken (token : Token) (now : ℤ) : Edit → Stage
  | .request req =>
    if req.id ≠ token.id ∨ req.userId ≠ token.userId then .done (.error .recordNotFound)
    else
      match req.apply settings now token with
      | .error e => .done (.error e)
      | .ok edited => .update edited
  | .modelLimits id =>
    if id ≠ token.id then .done (.error .recordNotFound)
    else .update (withoutModelLimits token)

def execute (w : World) (now : ℤ) : Stage → Option (World × Stage)
  | .idle | .done _ => none
  | .reserve quota => some (reserveTokenQuotaDB w now quota)
  | .increase quota => some (increaseTokenQuota w now quota)
  | .decrease quota => some (decreaseTokenQuota w now quota)
  | .load edit => some (w, loadToken settings w.token now edit)
  | .update token => some ({ w with token := w.token.update token }, .done (.ok true))

def perform {π : Type} (_ : π) (a : Action) (w : World) (stage : Stage) : Option (World × Stage) :=
  match a, stage with
  | .call c, .idle | .call c, .done _ => some (w, begin settings c)
  | .call _, _ => none
  | .next _ _, .idle | .next _ _, .done _ => none
  | .next _ true, _ => some (w, .done (.error .database))
  | .next now false, stage => execute settings w now stage

variable {π : Type} [DecidableEq π]

def step : Config World π Stage → π × Action → Option (Config World π Stage) :=
  Config.step (perform settings)

def start (token : Token) : Config World π Stage := ⟨{ token }, fun _ ↦ .idle⟩

structure Conserved (initial : Token) (w : World) : Prop where
  remain : w.token.remainQuota =
    initial.remainQuota - w.ledger.reserved - w.ledger.decreased + w.ledger.increased
  total : w.token.remainQuota + w.token.usedQuota = initial.remainQuota + initial.usedQuota

/-- When an edit writes its token, the row still has the balance that the token has. -/
def Fresh (w : World) : Action → Stage → Prop
  | .next _ false, .update token => token.remainQuota = w.token.remainQuota
  | _, _ => True

instance (w : World) (a : Action) (stage : Stage) : Decidable (Fresh w a stage) := by
  unfold Fresh
  split <;> infer_instance

variable {settings} {initial : Token} {w w' : World} {stage stage' : Stage} {now quota : ℤ}

theorem Conserved.applyQuotaDelta {delta : ℤ} {ledger : Ledger} (h : Conserved initial w)
    (hledger : delta - ledger.increased + ledger.decreased + ledger.reserved =
      w.ledger.reserved + w.ledger.decreased - w.ledger.increased) :
    Conserved initial ⟨w.token.applyQuotaDelta delta now, ledger⟩ := by
  obtain ⟨hremain, htotal⟩ := h
  constructor
  all_goals
    simp only [Token.applyQuotaDelta]
    omega

theorem Conserved.execute (h : Conserved initial w) (hfresh : Fresh w (.next now false) stage)
    (hstep : execute settings w now stage = some (w', stage')) : Conserved initial w' := by
  cases stage with
  | idle | done result => exact nomatch hstep
  | reserve quota =>
    simp only [Quota.execute, Option.some.injEq] at hstep
    rw [reserveTokenQuotaDB] at hstep
    split_ifs at hstep with henough
    · cases hstep
      exact h.applyQuotaDelta (by dsimp only; omega)
    · cases hstep
      exact h
  | increase | decrease =>
    cases hstep
    exact h.applyQuotaDelta (by dsimp only; omega)
  | load edit =>
    cases hstep
    exact h
  | update token =>
    cases hstep
    have hbalance : token.remainQuota = w.token.remainQuota := hfresh
    constructor
    · simp only [Token.update, hbalance]
      exact h.remain
    · simp only [Token.update, hbalance]
      exact h.total

omit [DecidableEq π] in
theorem Conserved.perform {t : π} {a : Action} (h : Conserved initial w) (hfresh : Fresh w a stage)
    (hstep : perform settings t a w stage = some (w', stage')) : Conserved initial w' := by
  unfold Quota.perform at hstep
  split at hstep
  · exact (Prod.mk.inj (Option.some.inj hstep)).1 ▸ h
  · exact (Prod.mk.inj (Option.some.inj hstep)).1 ▸ h
  iterate 3 exact nomatch hstep
  · exact (Prod.mk.inj (Option.some.inj hstep)).1 ▸ h
  · exact h.execute hfresh hstep

/-- No edit gives back what was spent, as long as every edit writes the balance that it finds. -/
theorem token_quota_conserved {c : Config World π Stage} {actions : List (π × Action)}
    (hfresh : Guarded (step settings) (fun c a ↦ Fresh c.shared a.2 (c.thread a.1)) (start initial)
      actions)
    (hrun : exec (step settings) (start initial) actions = some c) : Conserved initial c.shared := by
  refine exec_invariant (I := fun c ↦ Conserved initial c.shared) ?_ ⟨?_, rfl⟩ hfresh hrun
  · intro c a c' hc hfresh hstep
    exact hc.perform hfresh (Config.step_eq_some hstep).1
  · simp [start]

def plainSettings : Settings := ⟨1000, fun _ ↦ .ok ""⟩

def limitedToken : Token where
  id := 1
  userId := 1
  key := "k"
  status := .enabled
  name := ""
  accessedTime := 0
  expiredTime := -1
  remainQuota := 100
  usedQuota := 0
  unlimitedQuota := false
  modelLimitsEnabled := false
  modelLimits := ""
  allowIps := none
  group := ""
  crossGroupRetry := false
  autoGroups := ""

def disabling : TokenRequest where
  id := 1
  userId := 1
  statusOnly := true
  status := .disabled
  name := ""
  expiredTime := 0
  remainQuota := 0
  unlimitedQuota := false
  modelLimitsEnabled := false
  modelLimits := ""
  allowIps := none
  group := ""
  crossGroupRetry := false
  newAutoGroups := none

/-- The edit is over before the reservation begins. -/
theorem token_quota_conserved_in_turn :
    ∃ c, exec (step plainSettings) (start limitedToken) [(true, .call (.updateToken disabling)),
        (true, .next 1 false), (true, .next 2 false),
        (false, .call (.tryReserveTokenQuota 100 false)), (false, .next 3 false)] = some c ∧
      c.shared.ledger.reserved = 100 ∧ Conserved limitedToken c.shared := by
  have hreserved : (exec (step plainSettings) (start limitedToken)
      [(true, .call (.updateToken disabling)), (true, .next 1 false), (true, .next 2 false),
        (false, .call (.tryReserveTokenQuota 100 false)), (false, .next 3 false)]).map
        (·.shared.ledger.reserved) = some 100 := by decide +kernel
  obtain ⟨c, hrun, hc⟩ := Option.map_eq_some_iff.1 hreserved
  exact ⟨c, hrun, hc, token_quota_conserved (by decide +kernel) hrun⟩

/-- The status is loaded before the reservation and written after it: the whole balance is spent
and is there again. -/
theorem status_update_gives_back_quota :
    (exec (step plainSettings) (start limitedToken) [(true, .call (.updateToken disabling)),
        (true, .next 1 false), (false, .call (.tryReserveTokenQuota 100 false)),
        (false, .next 2 false), (true, .next 3 false)]).map (fun c ↦
          ((c.thread true).finished && (c.thread false).finished, c.shared.ledger.reserved,
            c.shared.token.remainQuota, c.shared.token.usedQuota)) =
      some (true, 100, 100, 100) := by
  decide +kernel

end Moligate.Tokens.Quota
