import Moligate.Foundation.Run
import Moligate.TopUps.Orders

namespace Moligate.TopUps

open Foundation Common List Tx

section

variable {env : Env} {tradeNo : String} {db db' : Db} {topUp : TopUp} {base q : ℤ} {r : Unit}
  {updates : User → User} {entry : Entry} {completed : Bool} {c : TopUpCall}

def Db.keys (db : Db) : List (String × ℤ) := db.commissions.rows.map AffiliateCommission.key

structure AddsCommissions (tradeNo : String) (db db' : Db) : Prop where
  orders : db'.orders = db.orders
  users : db'.users = db.users
  keys : ∀ k ∈ db'.keys, k ∈ db.keys ∨ k.1 = tradeNo

theorem AddsCommissions.refl : AddsCommissions tradeNo db db :=
  ⟨rfl, rfl, fun _ h ↦ .inl h⟩

theorem AddsCommissions.trans {db'' : Db} (h : AddsCommissions tradeNo db db')
    (h' : AddsCommissions tradeNo db' db'') : AddsCommissions tradeNo db db'' where
  orders := h'.orders.trans h.orders
  users := h'.users.trans h.users
  keys k hk := (h'.keys k hk).elim (h.keys k) .inr

theorem addsCommissions_insert {c : AffiliateCommission} (hc : c.tradeNo = tradeNo) :
    AddsCommissions tradeNo db (insertCommission c db) where
  orders := rfl
  users := rfl
  keys k hk := by
    cases h : db.commissions.create c with
    | none => exact .inl (by simpa [Db.keys, insertCommission, h] using hk)
    | some t =>
      have hk : k ∈ t.rows.map AffiliateCommission.key := by
        simpa [Db.keys, insertCommission, h] using hk
      rw [Table.rows_create h, map_cons, mem_cons] at hk
      exact hk.symm.imp_right fun hk ↦ (congrArg Prod.fst hk).trans hc

theorem addsCommissions_promoter {promoterId level rate micros excluded : ℤ}
    {promoter : User} {currency : String}
    (h : createTopUpCommissionForPromoter env topUp promoterId promoter level rate micros base
      currency excluded db = (.ok r, db')) : AddsCommissions topUp.tradeNo db db' := by
  rw [createTopUpCommissionForPromoter] at h
  split at h
  · exact (pure_eq_ok.1 h).2 ▸ .refl
  · exact modify_eq_ok.1 h ▸ addsCommissions_insert rfl

theorem addsCommissions_create (h : createTopUpCommissions env topUp base db = (.ok r, db')) :
    AddsCommissions topUp.tradeNo db db' := by
  rw [createTopUpCommissions] at h
  split at h
  · exact (pure_eq_ok.1 h).2 ▸ .refl
  rw [get_bind, required_bind_eq_ok] at h
  obtain ⟨buyer, -, h⟩ := h
  generalize (if buyer.inviterId = 0 then none else db.users buyer.inviterId) = level1 at h
  cases level1 with
  | none => exact (pure_eq_ok.1 h).2 ▸ .refl
  | some level1 =>
    obtain ⟨_, _, hfirst, h⟩ := bind_eq_ok.1 h
    refine (addsCommissions_promoter hfirst).trans ?_
    generalize (if level1.inviterId = 0 then none else db.users level1.inviterId) = level2 at h
    cases level2 with
    | none => exact (pure_eq_ok.1 h).2 ▸ .refl
    | some level2 => exact addsCommissions_promoter h

structure Credits (env : Env) (order : TopUp) (quota : ℤ) (db db' : Db) : Prop where
  pos : 0 < quota
  due : creditedQuotaFromTopUp env order = .ok quota
  success : ∃ order', db'.orders = db.orders.save order' ∧ order'.tradeNo = order.tradeNo ∧
    order'.status = .success
  user : ∃ user user' : User, db.users order.userId = some user ∧
    user'.quota = user.quota + quota ∧ user'.quota < maxQuota ∧
    db'.users = Function.update db.users order.userId (some user')
  keys : ∀ k ∈ db'.keys, k ∈ db.keys ∨ k.1 = order.tradeNo

theorem credits_user {userId : ℤ} (h : creditTopUpQuota userId q updates db = (.ok r, db')) :
    0 < q ∧ ∃ user user' : User, db.users userId = some user ∧ user'.quota = user.quota + q ∧
      user'.quota < maxQuota ∧ db' = { db with users := Function.update db.users userId user' } := by
  rw [creditTopUpQuota, ofExcept_bind_eq_ok] at h
  obtain ⟨limit, hlimit, h⟩ := h
  rw [topUpQuotaMaxCurrent] at hlimit
  split at hlimit
  · exact absurd hlimit (by simp)
  rename_i hq
  cases hlimit
  rw [get_bind] at h
  cases huser : db.users userId with
  | none => simp [huser] at h
  | some user =>
    simp only [huser] at h
    split at h
    next hle =>
      refine ⟨by omega, user, _, rfl, rfl, ?_, (modify_eq_ok.1 h).symm⟩
      dsimp only
      omega
    · exact absurd h fail_ne_ok

theorem completeTopUpSuccess_ok {order : TopUp} (hdue : creditedQuotaFromTopUp env order = .ok q)
    (h : completeTopUpSuccess env order q updates db = (.ok r, db')) :
    Credits env order q db db' := by
  rw [completeTopUpSuccess, ofExcept_bind_eq_ok] at h
  obtain ⟨_, -, h⟩ := h
  rw [modify_bind] at h
  obtain ⟨_, db₁, hcredit, h⟩ := bind_eq_ok.1 h
  obtain ⟨hpos, user, user', huser, hquota, hmax, rfl⟩ := credits_user hcredit
  have hadds := addsCommissions_create h
  exact ⟨hpos, hdue, ⟨_, hadds.orders, rfl, rfl⟩, ⟨user, user', huser, hquota, hmax, hadds.users⟩,
    hadds.keys⟩

theorem completeOrder_ok (h : completeOrder env entry tradeNo db = (.ok completed, db')) :
    ∃ order, db.orders.find tradeNo = some order ∧
      entry.provider.all (· = order.paymentProvider) = true ∧
      (db' = db ∨ order.status = .pending ∧ ∃ q, Credits env order q db db') := by
  rw [completeOrder, get_bind, required_bind_eq_ok] at h
  obtain ⟨order, hfind, h⟩ := h
  obtain ⟨hprovider, h⟩ := check_bind_eq_ok.1 h
  refine ⟨order, hfind, hprovider, ?_⟩
  split at h
  · exact .inl (pure_eq_ok.1 h).2.symm
  obtain ⟨hpending, h⟩ := check_bind_eq_ok.1 h
  obtain ⟨q, hq, h⟩ := ofExcept_bind_eq_ok.1 h
  obtain ⟨updates, -, h⟩ := ofExcept_bind_eq_ok.1 h
  obtain ⟨_, db₁, hcomplete, h⟩ := bind_eq_ok.1 h
  obtain ⟨-, h⟩ := check_bind_eq_ok.1 h
  obtain rfl := (pure_eq_ok.1 h).2
  refine .inr ⟨of_decide_eq_true hpending, q, ?_⟩
  have hcredits := completeTopUpSuccess_ok hq hcomplete
  split at hcredits
  -- nothing of a credit depends on the payment method
  · exact { hcredits with }
  · exact hcredits

def TopUpCall.provider : TopUpCall → Option PaymentProvider
  | .rechargeEpay _ | .completeEpayTopUp _ => some .epay
  | .recharge _ => some .stripe
  | .rechargeCreem _ => some .creem
  | .rechargeWaffo => some .waffo
  | .rechargeWaffoPancake => some .waffoPancake
  | .manualCompleteTopUp => none
  | .updatePendingTopUpStatus provider _ => provider

def TopUpCall.sound : TopUpCall → Bool
  | .updatePendingTopUpStatus _ target => target ≠ .success
  | _ => true

inductive Outcome (env : Env) (c : TopUpCall) (tradeNo : String) (db db' : Db) : Prop
  | kept (h : db' = db)
  | credited (order : TopUp) (q : ℤ) (hfind : db.orders.find tradeNo = some order)
      (hprovider : c.provider.all (· = order.paymentProvider) = true)
      (hpending : order.status = .pending) (h : Credits env order q db db')
  | marked (order : TopUp) (target : TopUpStatus) (hfind : db.orders.find tradeNo = some order)
      (hprovider : c.provider.all (· = order.paymentProvider) = true)
      (hpending : order.status = .pending) (htarget : c.sound = true → target ≠ .success)
      (h : db' = { db with orders := db.orders.save { order with status := target } })

theorem outcome_of_completeOrder (hc : c.provider = entry.provider)
    (h : completeOrder env entry tradeNo db = (.ok completed, db')) :
    Outcome env c tradeNo db db' := by
  obtain ⟨order, hfind, hprovider, h | ⟨hpending, q, h⟩⟩ := completeOrder_ok h
  · exact .kept h
  · exact .credited order q hfind (hc ▸ hprovider) hpending h

theorem withTradeNo_ok {α : Type} {e : TopUpError} {body : Tx Db TopUpError α} {a : α}
    (h : withTradeNo tradeNo e body db = (.ok a, db')) : body db = (.ok a, db') :=
  (check_bind_eq_ok.1 h).2

theorem hidingError_ok {α : Type} {body : Tx Db TopUpError α} {a : α}
    (h : hidingError body db = (.ok a, db')) : body db = (.ok a, db') := by
  obtain ⟨hr, hdb⟩ := Prod.mk.inj h
  refine Prod.ext ?_ hdb
  cases hb : (body db).1 with
  | error e => simp [hb, Except.mapError] at hr
  | ok a' => simpa [hb, Except.mapError] using hr

theorem outcome_of_body {r : Bool} (h : c.body env tradeNo db = (.ok r, db')) :
    Outcome env c tradeNo db db' := by
  cases c with
  | rechargeEpay method =>
    obtain ⟨_, _, h, hr⟩ := bind_eq_ok.1 (withTradeNo_ok h)
    exact outcome_of_completeOrder rfl ((pure_eq_ok.1 hr).2 ▸ h)
  | completeEpayTopUp | manualCompleteTopUp => exact outcome_of_completeOrder rfl (withTradeNo_ok h)
  | recharge | rechargeCreem | rechargeWaffo | rechargeWaffoPancake =>
    exact outcome_of_completeOrder rfl (hidingError_ok (withTradeNo_ok h))
  | updatePendingTopUpStatus provider target =>
    obtain ⟨-, h⟩ := check_bind_eq_ok.1 h
    rw [get_bind, required_bind_eq_ok] at h
    obtain ⟨order, hfind, h⟩ := h
    obtain ⟨hprovider, h⟩ := check_bind_eq_ok.1 h
    obtain ⟨hpending, h⟩ := check_bind_eq_ok.1 h
    rw [modify_bind, check_bind_eq_ok] at h
    exact .marked order target hfind hprovider (of_decide_eq_true hpending) of_decide_eq_true
      (pure_eq_ok.1 h.2).2.symm

end

section

structure Credit where
  increase : ℤ
  due : Except TopUpError ℤ

structure World where
  db : Db
  credits : List Credit
  created : List (String × ℤ)

inductive Action where
  | call (c : TopUpCall) (env : Env)
  | others (db : Db)

variable (tradeNo : String)

def succeeded (db : Db) : Bool := (db.orders.find tradeNo).any (·.status = .success)

def Db.quota (db : Db) (userId : ℤ) : ℤ := (db.users userId).elim 0 User.quota

def newCredits (env : Env) (db db' : Db) : List Credit :=
  match db.orders.find tradeNo with
  | none => []
  | some order =>
    let increase := db'.quota order.userId - db.quota order.userId
    if increase = 0 then [] else [⟨increase, creditedQuotaFromTopUp env order⟩]

def newKeys (db db' : Db) : List (String × ℤ) := db'.keys.filter (· ∉ db.keys)

/-- The lock of the order's row lets its transactions in one after the other. Between them every
other transaction may change what is not the order. -/
def step (w : World) : Action → Option World
  | .call c env =>
    let db := (c.perform env tradeNo w.db).2
    some
      { db
        credits := w.credits ++ newCredits tradeNo env w.db db
        created := w.created ++ newKeys w.db db }
  | .others db =>
    if db.orders.find tradeNo = w.db.orders.find tradeNo then some { w with db } else none

def Action.sound : Action → Bool
  | .call c _ => c.sound
  | .others _ => true

variable {tradeNo} {env : Env} {c : TopUpCall} {start db db' : Db} {order : TopUp} {q : ℤ} {w : World}

theorem outcome_of_perform : Outcome env c tradeNo db (c.perform env tradeNo db).2 := by
  cases h : c.perform env tradeNo db with
  | mk r db' =>
    cases r with
    | error e => exact .kept (run_error h)
    | ok r => exact outcome_of_body (run_ok h)

theorem newCredits_of_users (h : db'.users = db.users) : newCredits tradeNo env db db' = [] := by
  rw [newCredits]
  split
  · rfl
  · simp [Db.quota, h]

theorem newKeys_self (h : db'.keys = db.keys) : newKeys db db' = [] := by
  rw [newKeys, h]
  exact filter_eq_nil_iff.2 fun k hk ↦ by simpa using hk

theorem find_saved {order' : TopUp} (hfind : db.orders.find tradeNo = some order)
    (hkey : order'.tradeNo = order.tradeNo) : (db.orders.save order').find tradeNo = some order' :=
  Table.find_save_of_key (hkey.trans (Table.key_of_find hfind)) hfind

theorem Credits.quota (h : Credits env order q db db') :
    db'.quota order.userId = db.quota order.userId + q ∧ db'.quota order.userId < maxQuota := by
  obtain ⟨user, user', huser, hquota, hmax, husers⟩ := h.user
  simp [Db.quota, huser, husers, hquota]
  omega

section

variable (h : Credits env order q db db') (hfind : db.orders.find tradeNo = some order)
include h hfind

theorem Credits.newCredits : newCredits tradeNo env db db' = [⟨q, .ok q⟩] := by
  have hpos := h.pos
  simp only [TopUps.newCredits, hfind, h.quota.1, h.due, add_sub_cancel_left]
  rw [if_neg (by omega)]

theorem Credits.succeeded : succeeded tradeNo db' = true := by
  obtain ⟨order', horders, hkey, hstatus⟩ := h.success
  rw [TopUps.succeeded, horders, find_saved hfind hkey]
  exact decide_eq_true hstatus

theorem Credits.newKeys : (newKeys db db').Nodup ∧ ∀ k ∈ newKeys db db', k.1 = tradeNo := by
  refine ⟨db'.commissions.nodup.filter _, fun k hk ↦ ?_⟩
  obtain ⟨hmem, hnew⟩ := mem_filter.1 hk
  exact ((h.keys k hmem).resolve_left (of_decide_eq_true hnew)).trans (Table.key_of_find hfind)

end

structure CallSafe (env : Env) (c : TopUpCall) (tradeNo : String) (db : Db)
    (result : Except TopUpError Bool × Db) : Prop where
  error : result.1.isOk = false → result.2 = db
  success : succeeded tradeNo db = true → result.2 = db
  credit : newCredits tradeNo env db result.2 ≠ [] ↔
    succeeded tradeNo db = false ∧ succeeded tradeNo result.2 = true
  provider : ∀ order p, db.orders.find tradeNo = some order → c.provider = some p →
    p ≠ order.paymentProvider → result.2 = db
  below : newCredits tradeNo env db result.2 ≠ [] →
    ∀ order, db.orders.find tradeNo = some order → result.2.quota order.userId < maxQuota
  buyer : ∀ order, db.orders.find tradeNo = some order →
    ∀ u ≠ order.userId, result.2.users u = db.users u

theorem not_succeeded (hfind : db.orders.find tradeNo = some order)
    (hpending : order.status = .pending) : succeeded tradeNo db = false := by
  simp [succeeded, hfind, hpending]

theorem marked_not_succeeded {target : TopUpStatus} (hfind : db.orders.find tradeNo = some order)
    (htarget : target ≠ .success) :
    succeeded tradeNo { db with orders := db.orders.save { order with status := target } } =
      false := by
  have hsaved : (db.orders.save { order with status := target }).find tradeNo =
      some { order with status := target } := find_saved hfind rfl
  rw [succeeded, hsaved]
  exact decide_eq_false htarget

theorem provider_of_all (hfind : db.orders.find tradeNo = some order)
    (hprovider : c.provider.all (· = order.paymentProvider) = true) {order' : TopUp}
    {p : PaymentProvider} (hfind' : db.orders.find tradeNo = some order')
    (hp : c.provider = some p) : p = order'.paymentProvider := by
  obtain rfl := Option.some.inj (hfind.symm.trans hfind')
  rw [hp] at hprovider
  exact of_decide_eq_true hprovider

theorem callSafe_perform (hc : c.sound = true) :
    CallSafe env c tradeNo db (c.perform env tradeNo db) := by
  have hout : Outcome env c tradeNo db (c.perform env tradeNo db).2 := outcome_of_perform
  have herror : (c.perform env tradeNo db).1.isOk = false → (c.perform env tradeNo db).2 = db := by
    cases h : c.perform env tradeNo db with
    | mk r db' =>
      cases r with
      | error e => exact fun _ ↦ run_error h
      | ok r => simp [Except.isOk, Except.toBool]
  generalize c.perform env tradeNo db = result at hout herror ⊢
  obtain ⟨r, db'⟩ := result
  cases hout with
  | kept h =>
    obtain rfl : db' = db := h
    have hnone : newCredits tradeNo env db' db' = [] := newCredits_of_users rfl
    exact ⟨fun _ ↦ rfl, fun _ ↦ rfl, by simp [hnone], fun _ _ _ _ _ ↦ rfl,
      fun h ↦ absurd hnone h, fun _ _ _ _ ↦ rfl⟩
  | credited order q hfind hprovider hpending h =>
    have hbefore := not_succeeded hfind hpending
    refine ⟨herror, fun h ↦ ?_, ?_, fun o p ho hp hne ↦ ?_, fun _ o ho ↦ ?_, fun o ho u hu ↦ ?_⟩
    · rw [hbefore] at h
      exact nomatch h
    · simp [h.newCredits hfind, hbefore, h.succeeded hfind]
    · exact absurd (provider_of_all hfind hprovider ho hp) hne
    · obtain rfl := Option.some.inj (hfind.symm.trans ho)
      exact h.quota.2
    · obtain rfl := Option.some.inj (hfind.symm.trans ho)
      obtain ⟨_, _, -, -, -, husers⟩ := h.user
      rw [husers, Function.update_of_ne hu]
  | marked order target hfind hprovider hpending htarget h =>
    obtain rfl : db' = _ := h
    have hbefore := not_succeeded hfind hpending
    have hnone : newCredits tradeNo env db
        { db with orders := db.orders.save { order with status := target } } = [] :=
      newCredits_of_users rfl
    refine ⟨herror, fun h ↦ ?_, ?_, fun o p ho hp hne ↦ ?_, fun h ↦ absurd hnone h,
      fun _ _ _ _ ↦ rfl⟩
    · rw [hbefore] at h
      exact nomatch h
    · simp [hnone, marked_not_succeeded hfind (htarget hc)]
    · exact absurd (provider_of_all hfind hprovider ho hp) hne

/-- No call has credited the order, and it has not succeeded since `start`; or one call has
credited it with the quota that was due, has made it succeed, and has created all its
commissions. -/
inductive Once (tradeNo : String) (start : Db) (w : World) : Prop
  | never (credits : w.credits = []) (created : w.created = [])
      (status : succeeded tradeNo w.db = succeeded tradeNo start)
  | once (q : ℤ) (credits : w.credits = [⟨q, .ok q⟩]) (created : w.created.Nodup)
      (keys : ∀ k ∈ w.created, k.1 = tradeNo) (before : succeeded tradeNo start = false)
      (status : succeeded tradeNo w.db = true)

theorem once_of_outcome (hw : Once tradeNo start w)
    (hc : c.sound = true) (hout : Outcome env c tradeNo w.db db') :
    Once tradeNo start
      { db := db'
        credits := w.credits ++ newCredits tradeNo env w.db db'
        created := w.created ++ newKeys w.db db' } := by
  -- unless the call credits the order, it adds nothing and leaves whether the order has succeeded
  have hquiet (husers : db'.users = w.db.users) (hkeys : db'.keys = w.db.keys)
      (hstatus : succeeded tradeNo db' = succeeded tradeNo w.db) :
      Once tradeNo start
        { db := db'
          credits := w.credits ++ newCredits tradeNo env w.db db'
          created := w.created ++ newKeys w.db db' } := by
    rw [newCredits_of_users husers, newKeys_self hkeys, append_nil, append_nil]
    cases hw with
    | never credits created status => exact .never credits created (hstatus.trans status)
    | once q credits created keys before status =>
      exact .once q credits created keys before (hstatus.trans status)
  cases hout with
  | kept h =>
    subst h
    exact hquiet rfl rfl rfl
  | marked order target hfind _ hpending htarget h =>
    subst h
    refine hquiet rfl rfl ?_
    rw [marked_not_succeeded hfind (htarget hc), not_succeeded hfind hpending]
  | credited order q hfind _ hpending h =>
    have hbefore := not_succeeded hfind hpending
    cases hw with
    | never credits created status =>
      have hnew := h.newKeys hfind
      rw [credits, created, h.newCredits hfind, nil_append, nil_append]
      exact .once q rfl hnew.1 hnew.2 (status ▸ hbefore) (h.succeeded hfind)
    | once _ _ _ _ _ status => exact nomatch hbefore.symm.trans status

theorem once_step {w' : World} {a : Action} (hw : Once tradeNo start w)
    (ha : a.sound = true) (h : step tradeNo w a = some w') : Once tradeNo start w' := by
  cases a with
  | call c env =>
    cases h
    exact once_of_outcome hw ha outcome_of_perform
  | others db =>
    rw [step] at h
    split at h
    next horder =>
      cases h
      have hsame : succeeded tradeNo db = succeeded tradeNo w.db := by
        rw [succeeded, succeeded, horder]
      cases hw with
      | never credits created status => exact .never credits created (hsame.trans status)
      | once q credits created keys before status =>
        exact .once q credits created keys before (hsame.trans status)
    · exact absurd h (by simp)

/-- However the calls for one trade number follow one another, its order is credited at most once,
with the quota that is due, by the call that makes it succeed. -/
theorem topUp_credited_once {tradeNo : String} {start : Db} {run : List Action} {w : World}
    (hrun : exec (step tradeNo) ⟨start, [], []⟩ run = some w) (hsound : ∀ a ∈ run, a.sound = true) :
    Once tradeNo start w ∧
      ∀ c env, c.sound = true → CallSafe env c tradeNo w.db (c.perform env tradeNo w.db) := by
  have hstart : Once tradeNo start ⟨start, [], []⟩ := .never rfl rfl rfl
  exact ⟨exec_invariant (fun _ a _ ↦ once_step (a := a)) hstart (guarded_of_forall hsound) hrun,
    fun c env hc ↦ callSafe_perform hc⟩

end

namespace Example

def order : TopUp where
  id := 1
  userId := 7
  amount := 10
  money := 73
  tradeNo := "T1"
  paymentMethod := "alipay"
  paymentProvider := .epay
  completeTime := 0
  status := .pending

def users : ℤ → Option User := fun u ↦
  if u = 7 then some ⟨100, 3, true, "", ""⟩
  else if u = 3 then some ⟨0, 0, true, "", ""⟩
  else none

def start : Db where
  orders := ⟨[order], List.nodup_singleton _⟩
  users := users
  commissions := ∅

def env : Env where
  now := 1000
  quotaPerUnit := 500000
  bonus := ⟨true, 0, 0, 10, 1 / 2⟩
  displaysTokens := false
  distribution := ⟨true, 1000, 500, ""⟩
  trimSpace := id
  toUpper := id
  databaseFails := false

def callbacks : List Action :=
  [.call (.rechargeEpay "wxpay") env, .call .manualCompleteTopUp env,
    .call (.updatePendingTopUpStatus (some .epay) .expired) env]

end Example

open Example

theorem topUp_credited_once_callbacks :
    ∃ w, exec (step "T1") ⟨Example.start, [], []⟩ callbacks = some w ∧
      w.created = [("T1", 1)] ∧ w.db.quota 7 = 7500100 ∧ Once "T1" Example.start w := by
  obtain ⟨w, hrun, h⟩ := Option.map_eq_some_iff.1
    (show (exec (step "T1") ⟨Example.start, [], []⟩ callbacks).map
        (fun w ↦ (w.created, w.db.quota 7)) = some ([("T1", 1)], 7500100) by
      decide +kernel)
  obtain ⟨hcreated, hquota⟩ := Prod.mk.inj h
  exact ⟨w, hrun, hcreated, hquota, (topUp_credited_once hrun (by decide +kernel)).1⟩

/-- `UpdatePendingTopUpStatus` takes its target from the caller: given success it makes the order
succeed, and no call credits it. -/
theorem succeeds_without_credit :
    (exec (step "T1") ⟨Example.start, [], []⟩
        [.call (.updatePendingTopUpStatus (some .epay) .success) env,
          .call (.rechargeEpay "wxpay") env]).map
      (fun w ↦ (succeeded "T1" w.db, w.credits.length, w.db.quota 7)) = some (true, 0, 100) := by
  decide +kernel

/-- Whichever calls come for whichever orders, no balance falls or is lifted to the maximum. -/
theorem topUps_bound_balance (calls : List (TopUpCall × Env × String)) (db : Db) (u : ℤ) :
    let db' := calls.foldl (fun db call ↦ (call.1.perform call.2.1 call.2.2 db).2) db
    db.quota u ≤ db'.quota u ∧ (db'.quota u = db.quota u ∨ db'.quota u < maxQuota) := by
  refine foldlRecOn (motive := fun db' : Db ↦ db.quota u ≤ db'.quota u ∧
    (db'.quota u = db.quota u ∨ db'.quota u < maxQuota)) calls _ ⟨le_rfl, .inl rfl⟩ ?_
  intro db₁ h call _
  have hout : Outcome call.2.1 call.1 call.2.2 db₁ _ := outcome_of_perform
  cases hout with
  | kept hdb | marked order target _ _ _ _ hdb => rwa [hdb]
  | credited order q _ _ _ hcredits =>
    by_cases hu : u = order.userId
    · have hpos := hcredits.pos
      have hquota := hcredits.quota
      subst hu
      omega
    · obtain ⟨_, _, _, _, _, husers⟩ := hcredits.user
      simpa only [Db.quota, husers, Function.update_of_ne hu] using h

end Moligate.TopUps
