import Moligate.AuthFlows.Invariant

namespace Moligate.AuthFlows

open Foundation System Rows List

variable {rt : Runtime} {τ : Type} [DecidableEq τ] {db : Db τ} {t : τ} {hash : String}
  {row flow : AuthFlow}

section

variable {token : String} {required : AuthFlowMatch}

/-- The flow of the token can be consumed now. -/
structure Consumable (rt : Runtime) (db : Db τ) (token : String) (required : AuthFlowMatch)
    (flow : AuthFlow) : Prop where
  named : token ≠ "" ∧ required.purpose ≠ ""
  stored : db.flows.committed (authFlowTokenHash rt token) = some flow
  unlocked : db.flows.working (authFlowTokenHash rt token) = none
  required : applyAuthFlowMatch rt token required flow = true
  opened : flow.consumedAt = none
  unexpired : db.clock < flow.expiresAt

def consumingCall (token : String) (required : AuthFlowMatch) : List Action :=
  [.consumeAuthFlowWithAction token required, .next, .next, .next, .succeed, .next]

theorem Consumable.select (h : Consumable rt db token required flow) (t : τ) : ∃ flows,
    selectFlow rt db t token required = some ({ db with flows }, .check token required flow) ∧
      flows.committed = db.flows.committed ∧
      flows.free t (authFlowTokenHash rt token) = true ∧
      flows.read t (authFlowTokenHash rt token) = some flow := by
  have hfree : db.flows.free t (authFlowTokenHash rt token) = true := by
    rw [free, h.unlocked]
  have hread : db.flows.read t (authFlowTokenHash rt token) = some flow := by
    rw [Rows.read, Rows.own, h.unlocked]
    exact h.stored
  cases hlocks : rt.locksRows with
  | false =>
    refine ⟨db.flows, ?_, rfl, hfree, hread⟩
    simp [selectFlow, hread, h.required, hlocks]
  | true =>
    refine ⟨db.flows.write t (authFlowTokenHash rt token) (some flow), ?_, rfl,
      free_of_own own_write_self, read_of_own own_write_self⟩
    simp [selectFlow, hread, h.required, hlocks, hfree]

theorem Consumable.consume (h : Consumable rt db token required flow) (t : τ)
    (result : Except AuthFlowError (Option AuthFlow)) : ∃ db' result',
    exec (fun (out : Db τ × Stage) a ↦ perform rt t a out.1 out.2) (db, .idle result)
        (consumingCall token required) = some (db', .idle (.ok result')) ∧
      db'.consumed = db.consumed ++ [⟨⟨token, required, flow, db.clock⟩, some flow, db.clock⟩] := by
  obtain ⟨flows, hselect, hcommitted, hfree, hread⟩ := h.select t
  have hbegin : consumeAuthFlowWithAction token required = .select token required :=
    if_neg (not_or.2 h.named)
  have hcheck : checkFlow { db with flows } t token required flow =
      ({ db with flows }, .update ⟨token, required, flow, db.clock⟩) := by
    simp [checkFlow, h.opened, h.unexpired]
  have hupdate : updateFlow rt { db with flows } t ⟨token, required, flow, db.clock⟩ =
      some ({ db with
          flows := flows.write t (authFlowTokenHash rt token)
            (some { flow with consumedAt := some db.clock }) },
        .action ⟨some ⟨token, required, flow, db.clock⟩, []⟩) := by
    simp [updateFlow, hfree, hread, h.opened, h.unexpired]
  have hrun : exec (fun (out : Db τ × Stage) a ↦ perform rt t a out.1 out.2) (db, .idle result)
      (consumingCall token required) = some (commitWork rt { db with
          flows := flows.write t (authFlowTokenHash rt token)
            (some { flow with consumedAt := some db.clock }) } t
        ⟨some ⟨token, required, flow, db.clock⟩, []⟩) := by
    simp [consumingCall, exec, perform, hbegin, hselect, hcheck, hupdate]
  exact ⟨_, _, hrun, by simp [hcommitted, h.stored]⟩

end

structure AuthFlowMatch.Holds (m : AuthFlowMatch) (flow : AuthFlow) : Prop where
  purpose : flow.purpose = m.purpose
  provider : m.provider ≠ "" → flow.provider = m.provider
  intent : m.intent ≠ "" → flow.intent = m.intent
  userId : m.userId ≠ 0 → flow.userId = m.userId
  sessionId : m.sessionId ≠ "" → flow.sessionId = m.sessionId

theorem applyAuthFlowMatch_eq_true {token : String} {m : AuthFlowMatch} :
    applyAuthFlowMatch rt token m flow = true ↔
      flow.tokenHash = authFlowTokenHash rt token ∧ m.Holds flow := by
  simp only [applyAuthFlowMatch, Bool.and_eq_true, Bool.or_eq_true, decide_eq_true_eq]
  constructor
  · rintro ⟨⟨⟨⟨⟨hhash, hpurpose⟩, hprovider⟩, hintent⟩, huser⟩, hsession⟩
    exact ⟨hhash, hpurpose, hprovider.resolve_left, hintent.resolve_left, huser.resolve_left,
      hsession.resolve_left⟩
  · rintro ⟨hhash, h⟩
    exact ⟨⟨⟨⟨⟨hhash, h.purpose⟩, or_iff_not_imp_left.2 h.provider⟩,
      or_iff_not_imp_left.2 h.intent⟩, or_iff_not_imp_left.2 h.userId⟩,
      or_iff_not_imp_left.2 h.sessionId⟩

structure Initial (db : Db τ) : Prop where
  consumed : db.consumed = []
  accepted : db.accepted = []
  unlocked : ∀ hash, db.flows.working hash = none
  ids : ∀ hash row, db.flows.committed hash = some row → row.id < db.nextId

theorem Initial.own (h : Initial db) : Unlocked db t := fun hash ↦ by
  rw [Rows.own, h.unlocked]
  rfl

theorem Initial.present (h : Initial db) (hrow : Present db hash row) :
    db.flows.committed hash = some row := by
  refine hrow.resolve_right ?_
  rintro ⟨t, ht⟩
  rw [h.own hash] at ht
  cases ht

theorem Initial.invariant (h : Initial db) : Invariant rt db := by
  refine ⟨fun hash row hrow ↦ h.ids hash row (h.present hrow), fun hash row row' hrow hrow' _ ↦ ?_,
    ?_, ?_, ?_, ?_, ?_⟩
  · rw [Option.some.inj ((h.present hrow).symm.trans (h.present hrow'))]
  iterate 3 simp [h.consumed]
  · simp [h.accepted]
  · simp [h.accepted]

def idle (db : Db τ) : Config (Db τ) τ Stage := ⟨db, fun _ ↦ .idle (.ok none)⟩

variable {as : List (τ × Action)} {c : Config (Db τ) τ Stage}

theorem exec_holds (hstart : Initial db) (hrun : exec (step rt) (idle db) as = some c) :
    Config.Holds (Invariant rt) (fun t db stage ↦ stage.Holds rt t db) c := by
  have hidle : Config.Holds (Invariant rt) (fun t db stage ↦ stage.Holds rt t db) (idle db) :=
    ⟨hstart.invariant, fun _ ↦ hstart.own⟩
  exact Config.exec_safe (R := Keeps) (G := fun _ _ _ _ ↦ True)
    (fun _ a _ _ _ hI h _ hout ↦ safe_perform (a := a) hI h hout)
    (fun _ t _ _ _ hne h hkeeps ↦ h.spared (hkeeps t hne.symm)) hidle
    (guarded_of_forall fun _ _ ↦ trivial) hrun

def consumptionsOf (db : Db τ) (token : String) : List Consumed :=
  db.consumed.filter fun x ↦ x.consumption.token = token

def acceptancesOf (db : Db τ) (purpose assertion : String) (last : ℤ) : List Accepted :=
  db.accepted.filter fun a ↦
    a.claim.purpose = purpose ∧ a.claim.assertion = assertion ∧ a.acceptedAt ≤ last

theorem length_le_one_of_pairwise {α : Type} {R : α → α → Prop} {l : List α} (h : l.Pairwise R)
    (hR : ∀ a ∈ l, ∀ b ∈ l, ¬R a b) : l.length ≤ 1 := by
  match l with
  | [] => exact Nat.zero_le 1
  | [_] => exact Nat.le_refl 1
  | a :: b :: _ => exact absurd ((pairwise_cons.1 h).1 b (by simp)) (hR a (by simp) b (by simp))

theorem Invariant.consumed_once (hI : Invariant rt db) (token : String) :
    (consumptionsOf db token).length ≤ 1 := by
  have htoken (x : Consumed) (hx : x ∈ consumptionsOf db token) : x.consumption.token = token := by
    simpa using (mem_filter.1 hx).2
  refine length_le_one_of_pairwise
    ((pairwise_map.1 hI.once).sublist filter_sublist) fun x hx y hy hne ↦ hne ?_
  rw [htoken x hx, htoken y hy]

theorem Invariant.accepted_once (hI : Invariant rt db) {purpose assertion : String} {expiresAt : ℤ}
    (h : ∀ a ∈ db.accepted, a.claim.purpose = purpose → a.claim.assertion = assertion →
      a.claim.Fenced ∧ expiresAt ≤ a.claim.expiresAt) :
    (acceptancesOf db purpose assertion expiresAt).length ≤ 1 := by
  refine length_le_one_of_pairwise (hI.apart.sublist filter_sublist) fun a ha b hb hapart ↦ ?_
  obtain ⟨hmem, ha⟩ := mem_filter.1 ha
  obtain ⟨hap, haa, -⟩ := of_decide_eq_true ha
  obtain ⟨hbp, hba, hlast⟩ := of_decide_eq_true (mem_filter.1 hb).2
  obtain ⟨hfenced, hexpires⟩ := h a hmem hap haa
  have hhash : a.claim.tokenHash rt = b.claim.tokenHash rt := by
    rw [Claim.tokenHash, Claim.tokenHash, hap, haa, hbp, hba]
  have hlate := hapart hhash hfenced
  omega

/-- A failing action gives the flow back: its row is as before, and whoever calls next with the
same fields before it expires consumes it. -/
def Retryable (rt : Runtime) (c : Config (Db τ) τ Stage) (x : Consumption) : Prop :=
  c.shared.flows.committed (authFlowTokenHash rt x.token) = some x.flow ∧
    x.flow.consumedAt = none ∧
    ∀ t result, c.thread t = .idle result → c.shared.clock < x.flow.expiresAt →
      ∃ c', exec (step rt) c ((consumingCall x.token x.required).map (t, ·)) = some c' ∧
        c'.shared.consumed = c.shared.consumed ++
          [⟨{ x with now := c.shared.clock }, some x.flow, c.shared.clock⟩]

theorem retryable_of_fail {w : Work} {x : Consumption} {c' : Config (Db τ) τ Stage}
    (h : Works rt t c.shared w) (hstage : c.thread t = .action w) (hx : x ∈ w.consumption)
    (hfail : step rt c (t, .fail) = some c') : Retryable rt c' x := by
  have hconsumes := h.consumes x hx
  have hout := (Config.step_eq_some hfail).1
  rw [hstage] at hout
  have hshared : c.shared.rollback t = c'.shared := congrArg Prod.fst (Option.some.inj hout)
  refine ⟨hshared ▸ hconsumes.committed, hconsumes.opened, fun t' result hidle hclock ↦ ?_⟩
  have hunexpired : (c.shared.rollback t).clock < x.flow.expiresAt := hshared ▸ hclock
  have hconsumable : Consumable rt c'.shared x.token x.required x.flow := by
    rw [← hshared]
    refine ⟨hconsumes.named, hconsumes.committed, ?_, hconsumes.required, hconsumes.opened,
      hunexpired⟩
    simp [Db.rollback, rollback, hconsumes.own]
  obtain ⟨db', result', hrun, hconsumed⟩ := hconsumable.consume t' result
  rw [← hidle] at hrun
  obtain ⟨c'', hexec, rfl, -⟩ := Config.exec_alone hrun
  exact ⟨c'', hexec, hconsumed⟩

/-- Every token is consumed at most once, by a call that has found its flow open, unexpired and
with the required fields; a failing action gives the flow back; and an assertion that expires
within the retention is accepted at most once before it expires. -/
theorem flows_single_use (hstart : Initial db) (hrun : exec (step rt) (idle db) as = some c) :
    (∀ token, (consumptionsOf c.shared token).length ≤ 1) ∧
      (∀ x ∈ c.shared.consumed, ∃ flow, x.stored = some flow ∧ flow.consumedAt = none ∧
        x.consumption.now < flow.expiresAt ∧
        flow.tokenHash = authFlowTokenHash rt x.consumption.token ∧
        x.consumption.required.Holds flow) ∧
      (∀ t w x c', c.thread t = .action w → x ∈ w.consumption →
        step rt c (t, .fail) = some c' → Retryable rt c' x) ∧
      (∀ purpose assertion expiresAt,
        (∀ a ∈ c.shared.accepted, a.claim.purpose = purpose → a.claim.assertion = assertion →
          a.claim.expiresAt ≤ a.claim.now + authFlowDefaultCleanupRetention ∧
            expiresAt ≤ a.claim.expiresAt) →
        (acceptancesOf c.shared purpose assertion expiresAt).length ≤ 1) := by
  obtain ⟨hI, hthreads⟩ := exec_holds hstart hrun
  refine ⟨hI.consumed_once, fun x hx ↦ ?_, fun t w x c' hstage hx hfail ↦ ?_,
    fun _ _ _ h ↦ hI.accepted_once h⟩
  · have hsound := hI.sound x hx
    obtain ⟨hhash, hholds⟩ := applyAuthFlowMatch_eq_true.1 hsound.required
    exact ⟨x.consumption.flow, hsound.stored, hsound.opened, hsound.unexpired, hhash, hholds⟩
  · have hworks : Works rt t c.shared w := by
      have hstageHolds := hthreads t
      rwa [hstage] at hstageHolds
    exact retryable_of_fail hworks hstage hx hfail

def exampleRuntime : Runtime := ⟨fun _ token ↦ token, "", true⟩

def exampleDb : Db Bool where
  clock := 5
  flows := .ofCommitted fun hash ↦ if hash = "state" then
      some { id := 1, tokenHash := "state", purpose := "oauth", userId := 7, expiresAt := 10 }
    else none
  nextId := 2
  consumed := []
  accepted := []

theorem initial_exampleDb : Initial exampleDb := by
  refine ⟨rfl, rfl, fun _ ↦ rfl, fun hash row hrow ↦ ?_⟩
  obtain ⟨-, hrow⟩ := Option.ite_none_right_eq_some.1 hrow
  cases hrow
  decide

/-- An action fails, another call consumes the flow, the first one tries again in vain, and an
assertion is claimed twice. -/
def exampleRun : List (Bool × Action) :=
  (([.consumeAuthFlowWithAction "state" { purpose := "oauth" }, .next, .next, .next, .fail] :
      List Action).map (false, ·)) ++
    (consumingCall "state" { purpose := "oauth", userId := 7 }).map (true, ·) ++
    (([.consumeAuthFlowWithAction "state" { purpose := "oauth" }, .next, .next] :
      List Action).map (false, ·)) ++
    (([.claimExternalAuthAssertion "telegram_assertion" "hash" 20, .next, .next] :
      List Action).map (true, ·)) ++
    (([.claimExternalAuthAssertion "telegram_assertion" "hash" 20, .next] :
      List Action).map (false, ·))

theorem flows_single_use_example :
    ∃ c, exec (step exampleRuntime) (idle exampleDb) exampleRun = some c ∧
      c.shared.consumed.length = 1 ∧ c.shared.accepted.length = 1 ∧
      (consumptionsOf c.shared "state").length ≤ 1 ∧
      ∀ x ∈ c.shared.consumed, ∃ flow, x.stored = some flow ∧ x.consumption.now < flow.expiresAt ∧
        x.consumption.required.Holds flow := by
  have hrun : (exec (step exampleRuntime) (idle exampleDb) exampleRun).map
      (fun c ↦ (c.shared.consumed.length, c.shared.accepted.length)) = some (1, 1) := by
    decide +kernel
  obtain ⟨c, hrun, hlengths⟩ := Option.map_eq_some_iff.1 hrun
  obtain ⟨hconsumed, haccepted⟩ := Prod.mk.inj hlengths
  obtain ⟨honce, hsound, -, -⟩ := flows_single_use initial_exampleDb hrun
  refine ⟨c, hrun, hconsumed, haccepted, honce "state", fun x hx ↦ ?_⟩
  obtain ⟨flow, hstored, -, hunexpired, -, hholds⟩ := hsound x hx
  exact ⟨flow, hstored, hunexpired, hholds⟩

/-- The action takes longer than the flow lives: it was consumed at 5, expires at 10 and is
committed at 12. -/
theorem flow_committed_late :
    (exec (step exampleRuntime) (idle exampleDb)
        ((([.consumeAuthFlowWithAction "state" { purpose := "oauth" }, .next, .next, .next,
          .tick 12, .succeed, .next] : List Action).map (false, ·)))).map
      (fun c ↦ c.shared.consumed.map fun x ↦
        (x.consumption.now, x.stored.map AuthFlow.expiresAt, x.committedAt)) =
      some [(5, some 10, 12)] := by
  decide +kernel

end Moligate.AuthFlows
