import Moligate.Purchases.Terms

namespace Moligate.Purchases.Checkout

open Foundation Subscription Option Table Tx
open TopUps (PaymentProvider)

variable {rt : Runtime} {codec : Codec} {env : Env} {db db' : Db} {order : SubscriptionOrder}
  {tradeNo : String} {row : SubscriptionRow} {plan : CatalogPlan}

section

theorem execute_bind_eq_ok {α : Type} {s : Statement} {f : Unit → Tx Db OrderError α} {a : α} :
    (execute env s >>= f) db = (.ok a, db') ↔ env.fails s = false ∧ f () db = (.ok a, db') := by
  rw [execute, check_bind_eq_ok, Bool.not_eq_true']

variable {u : Unit} {userId : ℤ}

theorem execute_ok {s : Statement} (h : execute env s db = (.ok u, db')) : db' = db :=
  (Prod.mk.inj h).2.symm

theorem lockOrder_ok {provider : Option PaymentProvider}
    (h : lockOrder env tradeNo provider db = (.ok order, db')) :
    db' = db ∧ db.orders.find tradeNo = some order ∧
      provider.all (· = order.paymentProvider) = true := by
  rw [lockOrder, Tx.check_bind_eq_ok, Tx.get_bind, Tx.required_bind_eq_ok] at h
  obtain ⟨-, found, hfind, h⟩ := h
  rw [check_bind_eq_ok, pure_eq_ok] at h
  obtain ⟨hprovider, rfl, rfl⟩ := h
  exact ⟨rfl, hfind, hprovider⟩

theorem getSubscriptionPlanByIdTx_ok {id : ℤ}
    (h : getSubscriptionPlanByIdTx rt env id db = (.ok plan, db')) :
    db' = db ∧ ∃ stored, env.plans id = some stored ∧ plan = normalizeDefaults rt stored := by
  rw [getSubscriptionPlanByIdTx, check_bind_eq_ok, execute_bind_eq_ok, required_bind_eq_ok] at h
  obtain ⟨-, -, stored, hstored, h⟩ := h
  obtain ⟨rfl, rfl⟩ := pure_eq_ok.1 h
  exact ⟨rfl, stored, hstored, rfl⟩

theorem planOfOrder_ok (h : planOfOrder rt codec env order db = (.ok plan, db')) :
    db' = db ∧ ∀ captured, capturedPlan rt codec order = .ok (some captured) → plan = captured := by
  rw [planOfOrder, ofExcept_bind_eq_ok] at h
  obtain ⟨captured, hcaptured, h⟩ := h
  cases captured with
  | none =>
    refine ⟨(getSubscriptionPlanByIdTx_ok h).1, fun plan' hplan' ↦ ?_⟩
    rw [hcaptured] at hplan'
    exact nomatch hplan'
  | some captured =>
    obtain ⟨rfl, rfl⟩ := pure_eq_ok.1 h
    refine ⟨rfl, fun plan' hplan' ↦ ?_⟩
    rw [hcaptured] at hplan'
    exact some.inj (Except.ok.inj hplan')

theorem changeGroup_ok {plan : Plan} {group : String}
    (h : changeGroup rt env userId plan db = (.ok group, db')) :
    ∃ groups, db' = { db with groups } := by
  simp only [changeGroup] at h
  split_ifs at h
  · exact ⟨db.groups, (pure_eq_ok.1 h).2.symm⟩
  · rw [execute_bind_eq_ok, Tx.get_bind] at h
    obtain ⟨-, h⟩ := h
    split_ifs at h
    · exact ⟨db.groups, (pure_eq_ok.1 h).2.symm⟩
    · rw [execute_bind_eq_ok, modify_bind, pure_eq_ok] at h
      exact ⟨_, h.2.2.symm⟩

theorem createUserSubscriptionFromPlanTx_ok {plan : Plan}
    (h : createUserSubscriptionFromPlanTx rt env userId plan tradeNo db = (.ok row, db')) :
    (∃ group, newSubscription rt row.id row.startTime userId plan group = .ok row) ∧
      db'.orders = db.orders ∧ db'.subs.rows = row :: db.subs.rows ∧
      db'.created = ⟨some tradeNo, row⟩ :: db.created := by
  rw [createUserSubscriptionFromPlanTx, check_bind_eq_ok, check_bind_eq_ok, bind_eq_ok] at h
  obtain ⟨-, -, u, db₁, hcount, h⟩ := h
  obtain rfl : db₁ = db := by
    rw [countPurchases] at hcount
    split_ifs at hcount
    · rw [execute_bind_eq_ok, Tx.get_bind] at hcount
      exact (Prod.mk.inj hcount.2).2.symm
    · exact (pure_eq_ok.1 hcount).2.symm
  rw [ofExcept_bind_eq_ok] at h
  obtain ⟨-, -, h⟩ := h
  rw [bind_eq_ok] at h
  obtain ⟨group, db₂, hgroup, h⟩ := h
  obtain ⟨groups, rfl⟩ := changeGroup_ok hgroup
  simp only [Tx.get_bind, Tx.ofExcept_bind_eq_ok, execute_bind_eq_ok, required_bind_eq_ok] at h
  obtain ⟨row', hrow, -, subs, hsubs, rfl, rfl⟩ := h
  have hnew := Call.mapError_eq_ok.1 hrow
  refine ⟨⟨group, ?_⟩, rfl, rows_create hsubs, rfl⟩
  rw [(newSubscription_spec hnew).2.2.1, (newSubscription_spec hnew).2.1]
  exact hnew

theorem upsertSubscriptionTopUpTx_ok (h : upsertSubscriptionTopUpTx env order db = (.ok u, db')) :
    ∃ topUps, db' = { db with topUps } := by
  rw [upsertSubscriptionTopUpTx, execute_bind_eq_ok, Tx.get_bind] at h
  obtain ⟨-, h⟩ := h
  cases hfind : db.topUps.find order.tradeNo with
  | none =>
    simp only [hfind, execute_bind_eq_ok, required_bind_eq_ok] at h
    obtain ⟨-, topUps, -, h⟩ := h
    exact ⟨topUps, (modify_eq_ok.1 h).symm⟩
  | some topUp =>
    simp only [hfind, check_bind_eq_ok, execute_bind_eq_ok] at h
    exact ⟨_, (modify_eq_ok.1 h.2.2).symm⟩

theorem saveOrder_ok (h : saveOrder env order db = (.ok u, db')) :
    db' = { db with orders := db.orders.save order } := by
  rw [saveOrder, execute_bind_eq_ok, modify_bind] at h
  exact execute_ok h.2

end

def createdBy (tradeNo : String) (db : Db) : List SubscriptionRow :=
  (db.created.filter fun c ↦ c.tradeNo = some tradeNo).map (·.row)

inductive Moves (rt : Runtime) (codec : Codec) (env : Env) (callback : Callback) (db : Db) :
    Db → Prop
  | same : Moves rt codec env callback db db
  | completed {db' : Db} (args : CompleteArgs) {order : SubscriptionOrder} {plan : CatalogPlan}
      {row : SubscriptionRow} {group : String}
      (hfind : db.orders.find callback.tradeNo = some order) (hstatus : order.status = .pending)
      (hprovider : callback.expectedPaymentProvider.all (· = order.paymentProvider) = true)
      (hplan : ∀ captured, capturedPlan rt codec order = .ok (some captured) → plan = captured)
      (hrow : newSubscription rt row.id row.startTime order.userId plan.toPlan group = .ok row)
      (horders : db'.orders = db.orders.save (Purchases.completed args order env.now))
      (hsubs : db'.subs.rows = row :: db.subs.rows)
      (hcreated : db'.created = ⟨some callback.tradeNo, row⟩ :: db.created) :
      Moves rt codec env callback db db'
  | expired {order : SubscriptionOrder}
      (hfind : db.orders.find callback.tradeNo = some order) (hstatus : order.status = .pending)
      (hprovider : callback.expectedPaymentProvider.all (· = order.paymentProvider) = true) :
      Moves rt codec env callback db
        { db with
          orders := db.orders.save { order with status := .expired, completeTime := env.now } }

variable {u : Unit} {callback : Callback}

theorem completeSubscriptionOrderTx_moves {args : CompleteArgs}
    (h : completeSubscriptionOrderTx rt codec env args db = (.ok u, db')) :
    Moves rt codec env (.complete args) db db' := by
  rw [completeSubscriptionOrderTx, bind_eq_ok] at h
  obtain ⟨order, db₁, hlock, h⟩ := h
  obtain ⟨rfl, hfind, hprovider⟩ := lockOrder_ok hlock
  split_ifs at h with hsuccess
  · exact execute_ok h ▸ .same
  · rw [check_bind_eq_ok, decide_eq_true_eq] at h
    simp only [bind_eq_ok] at h
    obtain ⟨hstatus, plan, db₂, hplan, row, db₃, hcreate, v, db₄, htopUp, h⟩ := h
    obtain ⟨rfl, hcaptured⟩ := planOfOrder_ok hplan
    obtain ⟨⟨group, hrow⟩, horders, hsubs, hcreated⟩ := createUserSubscriptionFromPlanTx_ok hcreate
    obtain ⟨topUps, rfl⟩ := upsertSubscriptionTopUpTx_ok htopUp
    obtain rfl := saveOrder_ok h
    refine .completed args hfind hstatus hprovider hcaptured hrow ?_ hsubs ?_
    · exact congrArg (save · _) horders
    · have hkey : order.tradeNo = args.tradeNo := key_of_find hfind
      rw [hkey] at hcreated
      exact hcreated

theorem handle_error {e : OrderError} (h : handle rt codec db env callback = (.error e, db')) :
    db' = db := by
  unfold handle at h
  split_ifs at h
  · exact (Prod.mk.inj h).2.symm
  · cases callback with
    | complete | expire => exact run_error h

theorem handle_moves {r : Except OrderError Unit} (h : handle rt codec db env callback = (r, db')) :
    Moves rt codec env callback db db' := by
  cases r with
  | error e => exact handle_error h ▸ .same
  | ok u =>
    unfold handle at h
    split_ifs at h
    · exact absurd (Prod.mk.inj h).1 (by simp)
    · cases callback with
      | complete args => exact completeSubscriptionOrderTx_moves (run_ok h)
      | expire tradeNo provider =>
        replace h := run_ok h
        rw [expireSubscriptionOrderTx, bind_eq_ok] at h
        obtain ⟨order, db₁, hlock, h⟩ := h
        obtain ⟨rfl, hfind, hprovider⟩ := lockOrder_ok hlock
        split_ifs at h with hpending
        · exact saveOrder_ok h ▸ .expired hfind hpending hprovider
        · exact execute_ok h ▸ .same

theorem handle_foreign {provider : PaymentProvider}
    (hfind : db.orders.find callback.tradeNo = some order)
    (hexpected : callback.expectedPaymentProvider = some provider)
    (hforeign : provider ≠ order.paymentProvider) : (handle rt codec db env callback).2 = db := by
  have hrefuses (h : callback.expectedPaymentProvider.all (· = order.paymentProvider) = true) :
      False := by
    rw [hexpected, all_some, decide_eq_true_eq] at h
    exact hforeign h
  generalize hhandle : handle rt codec db env callback = out
  obtain ⟨r, db'⟩ := out
  cases handle_moves hhandle with
  | same => rfl
  | completed _ hfind' _ hprovider | expired hfind' _ hprovider =>
    exact (hrefuses (some.inj (hfind.symm.trans hfind') ▸ hprovider)).elim

theorem Moves.find_of_ne (h : Moves rt codec env callback db db') (hne : tradeNo ≠ callback.tradeNo) :
    db'.orders.find tradeNo = db.orders.find tradeNo := by
  cases h with
  | same => rfl
  | completed _ hfind _ _ _ _ horders =>
    have hkey := key_of_find hfind
    exact horders ▸ find_save_of_ne fun h ↦ hne (h.trans hkey)
  | expired hfind =>
    have hkey := key_of_find hfind
    exact find_save_of_ne fun h ↦ hne (h.trans hkey)

theorem Moves.final (h : Moves rt codec env callback db db')
    (hfind : db.orders.find tradeNo = some order) (hfinal : order.status ≠ .pending) :
    db'.orders.find tradeNo = some order := by
  by_cases hne : tradeNo = callback.tradeNo
  · subst hne
    cases h with
    | same => exact hfind
    | completed _ hpending hstatus | expired hpending hstatus =>
      exact absurd (some.inj (hpending.symm.trans hfind) ▸ hstatus) hfinal
  · rw [h.find_of_ne hne, hfind]

theorem exec_final {calls : List (Env × Callback)}
    (hfind : db.orders.find tradeNo = some order) (hfinal : order.status ≠ .pending)
    (hrun : exec (step rt codec) db calls = some db') : db'.orders.find tradeNo = some order := by
  refine exec_invariant (I := fun db ↦ db.orders.find tradeNo = some order) ?_ hfind
    (guarded_of_forall (p := fun _ ↦ True) fun _ _ ↦ trivial) hrun
  intro db call db' hfind _ hstep
  exact some.inj hstep ▸ (handle_moves rfl).final hfind hfinal

def OnTerms (rt : Runtime) (plan : Plan) (userId : ℤ) (row : SubscriptionRow) : Prop :=
  ∃ group, newSubscription rt row.id row.startTime userId plan group = .ok row

/-- An order and its subscriptions: none, or one on the terms of `plan` when the order is paid. -/
structure Fulfilled (rt : Runtime) (codec : Codec) (plan : Plan) (placed : SubscriptionOrder)
    (db : Db) (order : SubscriptionOrder) : Prop where
  found : db.orders.find placed.tradeNo = some order
  userId : order.userId = placed.userId
  paymentProvider : order.paymentProvider = placed.paymentProvider
  captured : capturedPlan rt codec order = capturedPlan rt codec placed
  count : (createdBy placed.tradeNo db).length = if order.status = .success then 1 else 0
  terms : ∀ row ∈ createdBy placed.tradeNo db, row ∈ db.subs.rows ∧
    OnTerms rt plan placed.userId row

variable {placed : SubscriptionOrder} {captured : CatalogPlan} {terms : Plan}

theorem createdBy_cons {c : Created} (h : db'.created = c :: db.created) :
    createdBy tradeNo db' =
      if c.tradeNo = some tradeNo then c.row :: createdBy tradeNo db else createdBy tradeNo db := by
  rw [createdBy, h, List.filter_cons, createdBy]
  split_ifs <;> simp_all

theorem Fulfilled.other (h : Fulfilled rt codec terms placed db order)
    (hmoves : Moves rt codec env callback db db') (hother : callback.tradeNo ≠ placed.tradeNo) :
    Fulfilled rt codec terms placed db' order := by
  have hfound := (hmoves.find_of_ne hother.symm).trans h.found
  cases hmoves with
  | same => exact h
  | completed _ _ _ _ _ _ _ hsubs hcreated =>
    have hby : createdBy placed.tradeNo db' = createdBy placed.tradeNo db := by
      rw [createdBy_cons hcreated, if_neg (by simpa using hother)]
    refine { h with found := hfound, count := hby ▸ h.count, terms := fun row hrow ↦ ?_ }
    obtain ⟨hmem, hterms⟩ := h.terms row (hby ▸ hrow)
    exact ⟨hsubs ▸ List.mem_cons_of_mem _ hmem, hterms⟩
  | expired => exact { h with found := hfound }

theorem Fulfilled.own (h : Fulfilled rt codec terms placed db order)
    (hmoves : Moves rt codec env callback db db') (hown : callback.tradeNo = placed.tradeNo)
    (hcaptured : capturedPlan rt codec placed = .ok (some captured))
    (hterms : ∀ row group, newSubscription rt row.id row.startTime placed.userId captured.toPlan
      group = .ok row → OnTerms rt terms placed.userId row) :
    ∃ order', Fulfilled rt codec terms placed db' order' := by
  have hsame {pending : SubscriptionOrder}
      (hpending : db.orders.find callback.tradeNo = some pending) : pending = order := by
    rw [hown, h.found] at hpending
    exact (some.inj hpending).symm
  have hkey : order.tradeNo = placed.tradeNo := key_of_find h.found
  have hsave {saved : SubscriptionOrder} (hsaved : saved.tradeNo = order.tradeNo) :
      (db.orders.save saved).find placed.tradeNo = some saved :=
    find_save_of_key (hsaved.trans hkey) h.found
  have hnone (hstatus : order.status = .pending) : createdBy placed.tradeNo db = [] := by
    have hcount := h.count
    rw [hstatus, if_neg (by decide)] at hcount
    exact List.eq_nil_of_length_eq_zero hcount
  cases hmoves with
  | same => exact ⟨order, h⟩
  | @completed _ args _ _ row group hpending hstatus _ hplan hrow horders hsubs hcreated =>
    obtain rfl := hsame hpending
    obtain rfl := hplan captured (h.captured.trans hcaptured)
    have hby : createdBy placed.tradeNo db' = [row] := by
      rw [createdBy_cons hcreated, if_pos (by rw [hown]), hnone hstatus]
    refine ⟨completed args _ env.now, ⟨?_, h.userId, h.paymentProvider, h.captured, ?_, ?_⟩⟩
    · exact horders ▸ hsave rfl
    · rw [hby]
      rfl
    · intro row' hrow'
      rw [hby, List.mem_singleton] at hrow'
      subst hrow'
      exact ⟨hsubs ▸ List.mem_cons_self, hterms _ group (h.userId ▸ hrow)⟩
  | expired hpending hstatus =>
    obtain rfl := hsame hpending
    refine ⟨_, ⟨hsave rfl, h.userId, h.paymentProvider, h.captured, ?_, h.terms⟩⟩
    change (createdBy placed.tradeNo db).length = _
    rw [hnone hstatus]
    rfl

def Codec.RoundTrips (rt : Runtime) (codec : Codec) (plan : CatalogPlan) : Prop :=
  ∀ data, codec.marshal plan = some data →
    codec.unmarshal data = .ok plan ∧ rt.trimSpace data ≠ ""

theorem capturedPlan_of_capture {draft : SubscriptionOrder}
    (hround : codec.RoundTrips rt (normalizeDefaults rt plan))
    (h : capturePlanSnapshot rt codec draft plan = .ok placed) :
    (∃ data, placed = { draft with planId := plan.id, planSnapshot := data }) ∧
      capturedPlan rt codec placed =
        .ok (some (normalizeDefaults rt (normalizeDefaults rt plan))) := by
  rw [capturePlanSnapshot] at h
  split_ifs at h with hid hmismatch
  split at h
  · cases h
  next data hdata =>
    cases h
    obtain ⟨hdecode, hblank⟩ := hround data hdata
    refine ⟨⟨data, rfl⟩, ?_⟩
    have hid' : ¬((normalizeDefaults rt plan).id ≤ 0 ∨
        0 < plan.id ∧ (normalizeDefaults rt plan).id ≠ plan.id) := by
      rintro (hle | ⟨-, hne⟩)
      · exact hid hle
      · exact hne rfl
    simp [capturedPlan, if_neg hblank, hdecode, if_neg hid']

theorem checkout_ok {db₀ : Db} {args : CheckoutArgs} {stored : CatalogPlan}
    (hstored : env.plans args.planId = some stored)
    (hround : codec.RoundTrips rt (normalizeDefaults rt (normalizeDefaults rt stored)))
    (h : checkout rt codec db₀ env args = (.ok u, db)) :
    ∃ placed, db.orders.find args.tradeNo = some placed ∧ placed.tradeNo = args.tradeNo ∧
      placed.userId = args.userId ∧ placed.paymentProvider = args.paymentProvider ∧
      placed.status = .pending ∧ db.created = db₀.created ∧
      capturedPlan rt codec placed = .ok (some
        (normalizeDefaults rt (normalizeDefaults rt (normalizeDefaults rt stored)))) := by
  have h := run_ok h
  rw [checkoutTx, bind_eq_ok] at h
  obtain ⟨plan, db₁, hplan, h⟩ := h
  obtain ⟨rfl, stored', hstored', rfl⟩ := getSubscriptionPlanByIdTx_ok hplan
  obtain rfl := some.inj (hstored.symm.trans hstored')
  rw [ofExcept_bind_eq_ok] at h
  obtain ⟨placed, hplaced, h⟩ := h
  obtain ⟨⟨data, rfl⟩, hcaptured⟩ := capturedPlan_of_capture hround hplaced
  rw [execute_bind_eq_ok, Tx.get_bind, Tx.required_bind_eq_ok] at h
  obtain ⟨-, orders, horders, h⟩ := h
  obtain rfl := modify_eq_ok.1 h
  refine ⟨_, ?_, rfl, rfl, rfl, rfl, rfl, hcaptured⟩
  exact (find_create horders).trans (if_pos rfl)

structure Outcome (rt : Runtime) (codec : Codec) (plan : Plan) (args : CheckoutArgs) (db : Db)
    (order : SubscriptionOrder) : Prop where
  found : db.orders.find args.tradeNo = some order
  count : (createdBy args.tradeNo db).length = if order.status = .success then 1 else 0
  terms : ∀ row ∈ createdBy args.tradeNo db, row ∈ db.subs.rows ∧ OnTerms rt plan args.userId row
  final : order.status = .success ∨ order.status = .expired → ∀ later db',
    exec (step rt codec) db later = some db' → db'.orders.find args.tradeNo = some order
  foreign : ∀ env callback provider, callback.tradeNo = args.tradeNo →
    callback.expectedPaymentProvider = some provider → provider ≠ args.paymentProvider →
      (handle rt codec db env callback).2 = db
  error : ∀ env callback e, (handle rt codec db env callback).1 = .error e →
    (handle rt codec db env callback).2 = db

/-- From a checkout on, whatever is done to the plan and whichever callbacks arrive, the order has
one subscription if it is paid and none otherwise, on the terms of the plan that the checkout
loaded. -/
theorem paid_order_yields_one_subscription {db₀ : Db} {args : CheckoutArgs} {stored : CatalogPlan}
    {calls : List (Env × Callback)} (hlaws : TextLaws rt)
    (hstored : env.plans args.planId = some stored)
    (hround : codec.RoundTrips rt (normalizeDefaults rt (normalizeDefaults rt stored)))
    (hnew : createdBy args.tradeNo db₀ = [])
    (hcheckout : checkout rt codec db₀ env args = (.ok (), db))
    (hrun : exec (step rt codec) db calls = some db') :
    ∃ order, Outcome rt codec (normalizeDefaults rt stored).toPlan args db' order := by
  obtain ⟨placed, hfind, hkey, huser, hprovider, hpending, hcreated, hcaptured⟩ :=
    checkout_ok hstored hround hcheckout
  have hterms (row : SubscriptionRow) (group : String)
      (hrow : newSubscription rt row.id row.startTime placed.userId
        (normalizeDefaults rt (normalizeDefaults rt (normalizeDefaults rt stored))).toPlan group =
          .ok row) : OnTerms rt (normalizeDefaults rt stored).toPlan placed.userId row :=
    ⟨group, (newSubscription_captured hlaws stored _ _ _ group).symm.trans hrow⟩
  have hnone : createdBy placed.tradeNo db = [] := by
    rw [hkey, createdBy, hcreated]
    exact hnew
  have hstart : Fulfilled rt codec (normalizeDefaults rt stored).toPlan placed db placed :=
    { found := hkey ▸ hfind
      userId := rfl
      paymentProvider := rfl
      captured := rfl
      count := by rw [hnone, hpending]; rfl
      terms := by simp [hnone] }
  obtain ⟨order, h⟩ := exec_invariant
    (I := fun db ↦ ∃ order, Fulfilled rt codec (normalizeDefaults rt stored).toPlan placed db order)
    (fun db call db' ⟨order, h⟩ _ hstep ↦ by
      have hmoves : Moves rt codec call.1 call.2 db db' :=
        some.inj hstep ▸ handle_moves rfl
      by_cases hown : call.2.tradeNo = placed.tradeNo
      · exact h.own hmoves hown hcaptured hterms
      · exact ⟨order, h.other hmoves hown⟩)
    ⟨placed, hstart⟩ (guarded_of_forall (p := fun _ ↦ True) fun _ _ ↦ trivial) hrun
  have hfound : db'.orders.find args.tradeNo = some order := hkey ▸ h.found
  refine ⟨order, hfound, hkey ▸ h.count, ?_, ?_, ?_, ?_⟩
  · intro row hrow
    exact huser ▸ h.terms row (hkey.symm ▸ hrow)
  · intro hfinal later db'' hlater
    refine exec_final hfound ?_ hlater
    rcases hfinal with hfinal | hfinal <;> simp [hfinal]
  · intro env callback provider hown hexpected hforeign
    refine handle_foreign (hown.symm ▸ hfound) hexpected ?_
    rw [h.paymentProvider, hprovider]
    exact hforeign
  · intro env callback e he
    exact handle_error (Prod.ext he rfl)

def plainText : Runtime := ⟨0, .finite, id, id⟩

theorem plainText_laws : TextLaws plainText where
  trim_trim _ := rfl
  lower_lower _ := rfl
  trim_lower _ := rfl
  lower_chars := ⟨id, fun s ↦ by simp [plainText]⟩
  trim_size _ := le_rfl
  quota := rfl

def monthlyPlan (totalAmount : ℤ) : CatalogPlan where
  id := 7
  quotaResetPeriod := "never"
  quotaResetCustomSeconds := 0
  billingRatio := .finite 1
  durationUnit := .month
  durationValue := 1
  customSeconds := 0
  allowWalletOverflow := none
  maxPurchasePerUser := 0
  upgradeGroup := "vip"
  downgradeGroup := ""
  applicableGroups := ["default", "default"]
  modelFamily := "gpt"
  includedModels := []
  bonusResources := []
  totalAmount
  dailyAmount := 0
  weeklyAmount := 0
  monthlyAmount := 0
  enabled := true
  saleEnabled := true
  priceAmount := 10
  allowBalancePay := none
  badgeText := ""
  benefits := []

def oneSnapshot : Codec where
  marshal _ := some "7"
  unmarshal _ := .ok (normalizeDefaults plainText (normalizeDefaults plainText (monthlyPlan 100)))

theorem oneSnapshot_roundTrips : oneSnapshot.RoundTrips plainText
    (normalizeDefaults plainText (normalizeDefaults plainText (monthlyPlan 100))) := by
  intro data hdata
  obtain rfl : "7" = data := some.inj hdata
  exact ⟨rfl, by decide⟩

def emptyDb : Db := ⟨∅, ∅, ∅, fun _ ↦ some "default", 1, []⟩

def envAt (now totalAmount : ℤ) : Env where
  dbNow := now
  now := now
  plans id := if id = 7 then some (monthlyPlan totalAmount) else none
  fails _ := false

def stripeCheckout : CheckoutArgs := ⟨3, 7, "T1", "card", .stripe⟩

def stripePaid : Callback := .complete ⟨"T1", "paid", some .stripe, ""⟩

/-- The plan is cut to a quota of 5 after the checkout, and the callback comes twice before the
session expires. -/
theorem paid_order_yields_one_subscription_twice :
    ∃ db db' order, checkout plainText oneSnapshot emptyDb (envAt 0 100) stripeCheckout = (.ok (), db) ∧
      exec (step plainText oneSnapshot) db [(envAt 60 5, stripePaid), (envAt 61 5, stripePaid),
        (envAt 90 5, .expire "T1" (some .stripe))] = some db' ∧
      (createdBy "T1" db').map (·.amountTotal) = [100] ∧
      Outcome plainText oneSnapshot (normalizeDefaults plainText (monthlyPlan 100)).toPlan
        stripeCheckout db' order := by
  have hcheckout : checkout plainText oneSnapshot emptyDb (envAt 0 100) stripeCheckout =
      (.ok (), (checkout plainText oneSnapshot emptyDb (envAt 0 100) stripeCheckout).2) :=
    Prod.ext rfl rfl
  have hcreated : (exec (step plainText oneSnapshot)
      (checkout plainText oneSnapshot emptyDb (envAt 0 100) stripeCheckout).2
      [(envAt 60 5, stripePaid), (envAt 61 5, stripePaid),
        (envAt 90 5, .expire "T1" (some .stripe))]).map
        (fun db ↦ (createdBy "T1" db).map (·.amountTotal)) = some [100] := by decide +kernel
  obtain ⟨db', hrun, hdb'⟩ := map_eq_some_iff.1 hcreated
  have hstored : (envAt 0 100).plans stripeCheckout.planId = some (monthlyPlan 100) := rfl
  obtain ⟨order, h⟩ := paid_order_yields_one_subscription plainText_laws hstored
    oneSnapshot_roundTrips rfl hcheckout hrun
  exact ⟨_, db', order, hcheckout, hrun, hdb', h⟩

def OnlyPaid (db₀ db : Db) : Prop := ∀ row ∈ db.subs.rows, row ∈ db₀.subs.rows ∨
  ∃ order ∈ db.orders.rows, order.status = .success ∧ order.userId = row.userId

/-- Whatever callbacks come, a subscription that they add is for the user of a paid order. -/
theorem callbacks_only_paid {calls : List (Env × Callback)}
    (hrun : exec (step rt codec) db calls = some db') : OnlyPaid db db' := by
  refine exec_invariant (I := OnlyPaid db) (fun db₁ call db₂ h _ hstep row hrow ↦ ?_)
    (fun _ ↦ .inl) (guarded_of_forall (p := fun _ ↦ True) fun _ _ ↦ trivial) hrun
  have hmoves : Moves rt codec call.1 call.2 db₁ db₂ := some.inj hstep ▸ handle_moves rfl
  by_cases hold : row ∈ db₁.subs.rows
  · refine (h row hold).imp_right fun ⟨order, horder, hsuccess, huser⟩ ↦ ?_
    have hfind := hmoves.final (find_of_mem horder) (by simp [hsuccess])
    exact ⟨order, find_mem hfind, hsuccess, huser⟩
  cases hmoves with
  | same | expired => exact absurd hrow hold
  | @completed _ args order _ _ _ hfind _ _ _ hnew horders hsubs =>
    rw [hsubs] at hrow
    obtain rfl := (List.mem_cons.1 hrow).resolve_right hold
    have hkey := key_of_find hfind
    have hpaid : completed args order call.1.now ∈ db₂.orders.rows :=
      horders ▸ find_mem (find_save_of_key hkey hfind)
    exact .inr ⟨_, hpaid, rfl, (newSubscription_spec hnew).2.2.2.2.1.symm⟩

theorem callbacks_only_paid_stripe : ∃ db db', exec (step plainText oneSnapshot) db
    [(envAt 60 5, stripePaid)] = some db' ∧ OnlyPaid db db' :=
  ⟨(checkout plainText oneSnapshot emptyDb (envAt 0 100) stripeCheckout).2, _, rfl,
    @callbacks_only_paid plainText oneSnapshot _ _ [(envAt 60 5, stripePaid)] rfl⟩

end Moligate.Purchases.Checkout
