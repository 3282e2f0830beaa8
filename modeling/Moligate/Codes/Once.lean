import Moligate.Codes.Redeem

namespace Moligate.Codes

open Foundation Option Rows Redemption Stage

def Credit.tokenId (c : Credit) : ℤ := c.token.elim 0 Token.id

structure Marked (c : Credit) (row₀ row : Redemption) : Prop where
  enabled : row₀.status = .enabled
  used : row.status = .used
  id : row.id = row₀.id
  quota : row.quota = row₀.quota
  credited : c.quota = row.quota
  user : row.usedUserId = c.userId
  token : row.redeemedTokenId = c.tokenId

/-- A code as it was at the start, without a credit, or redeemed by exactly one. -/
def RedeemedOnce (row₀ row : Option Redemption) (cs : List Credit) : Prop :=
  row = row₀ ∧ cs = [] ∨ ∃ r₀ r c, row₀ = some r₀ ∧ row = some r ∧ cs = [c] ∧ Marked c r₀ r

def creditsOf (key : String) (cs : List Credit) : List Credit := cs.filter fun c ↦ c.key = key

def creditedTo (u : ℤ) (cs : List Credit) : ℤ :=
  ((cs.filter fun c ↦ c.userId = u).map Credit.quota).sum

def Redemption.terms (row : Redemption) : ℤ × ℤ := (row.id, row.quota)

def Stage.claim : Stage → Option Credit
  | .creditUser key row userId => some ⟨key, userId, row.quota, none⟩
  | .commit credit => credit
  | _ => none

def Stage.pending (stage : Stage) (u : ℤ) : ℤ :=
  match stage with
  | .createToken _ row setting => if u = setting.serviceUserId then row.quota else 0
  | .updateCode _ row token => if u = token.userId then row.quota else 0
  | .commit (some c) => if u = c.userId then c.quota else 0
  | _ => 0

def Stage.snapshot : Stage → Option (String × Redemption)
  | .markUsed key row _ | .creditUser key row _ | .creditService key row _
  | .createToken key row _ | .updateCode key row _ => some (key, row)
  | _ => none

def Stage.serviceUser : Stage → Option ℤ
  | .findCode _ _ setting | .creditService _ _ setting => some setting.serviceUserId
  | _ => none

variable {τ : Type*} [DecidableEq τ]

structure Ledger (start db : Db τ) : Prop where
  codes : ∀ k, RedeemedOnce (start.codes.committed k) (db.codes.committed k)
    (creditsOf k db.credits)
  unredeemed : ∀ k row, db.codes.committed k = some row → row.status = .enabled →
    row.redeemedTokenId = 0
  balances : ∀ u, db.users.committed u = (start.users.committed u).map (· + creditedTo u db.credits)
  tokens : db.tokens = start.tokens ++ db.credits.filterMap Credit.token

structure Open (t : τ) (db : Db τ) (stage : Stage) : Prop where
  claimed : ∀ c, stage.claim = some c → ∃ row₀ row, db.codes.committed c.key = some row₀ ∧
    db.codes.own t c.key = some (some row) ∧ Marked c row₀ row
  unclaimed : ∀ k row, (∀ c, stage.claim = some c → c.key ≠ k) → db.codes.own t k = some row →
    row = db.codes.committed k
  balances : db.users.Pending t stage.pending
  snapshot : ∀ s, stage.snapshot = some s →
    (db.codes.committed s.1).map terms = some s.2.terms
  serviceUser : ∀ u, stage.serviceUser = some u → (db.users.committed u).isSome

def TxInv (t : τ) (db : Db τ) (stage : Stage) : Prop :=
  (∃ e, stage = .failed e) ∨ Open t db stage

structure Affects (t : τ) (db db' : Db τ) : Prop where
  ownCodes : ∀ t' ≠ t, ∀ k, db'.codes.own t' k = db.codes.own t' k
  ownUsers : ∀ t' ≠ t, ∀ u, db'.users.own t' u = db.users.own t' u
  codes : ∀ k, db.codes.own t k = none → db'.codes.committed k = db.codes.committed k
  terms : ∀ k, (db'.codes.committed k).map Redemption.terms =
    (db.codes.committed k).map Redemption.terms
  users : ∀ u, db.users.own t u = none → db'.users.committed u = db.users.committed u
  exists_user : ∀ u, (db'.users.committed u).isSome = (db.users.committed u).isSome

variable {rt : Runtime} {start db db' : Db τ} {t t' : τ} {stage stage' : Stage} {a : Action}
  {k : String}

theorem Affects.refl : Affects t db db :=
  ⟨fun _ _ _ ↦ rfl, fun _ _ _ ↦ rfl, fun _ _ ↦ rfl, fun _ ↦ rfl, fun _ _ ↦ rfl, fun _ ↦ rfl⟩

theorem Open.stable (hne : t ≠ t') (h : Open t' db stage) (ha : Affects t db db') :
    Open t' db' stage := by
  refine ⟨?_, ?_, ?_, ?_, ?_⟩
  · intro c hc
    obtain ⟨row₀, row, hrow₀, hrow, hmarked⟩ := h.claimed c hc
    refine ⟨row₀, row, ?_, ?_, hmarked⟩
    · rwa [ha.codes c.key (own_eq_none_of_free (free_of_own hrow) hne)]
    · rwa [ha.ownCodes t' hne.symm]
  · intro k row hk hrow
    rw [ha.ownCodes t' hne.symm] at hrow
    rw [ha.codes k (own_eq_none_of_free (free_of_own hrow) hne)]
    exact h.unclaimed k row hk hrow
  · refine h.balances.stable (ha.ownUsers t' hne.symm) fun u hu ↦ ?_
    obtain ⟨balance, hbalance⟩ := isSome_iff_exists.1 hu
    exact ha.users u (own_eq_none_of_free (free_of_own hbalance) hne)
  · intro s hs
    rw [ha.terms]
    exact h.snapshot s hs
  · intro u hu
    rw [ha.exists_user]
    exact h.serviceUser u hu

theorem TxInv.stable (hne : t ≠ t') (h : TxInv t' db stage) (ha : Affects t db db') :
    TxInv t' db' stage :=
  h.imp_right fun ho ↦ ho.stable hne ha

theorem Open.read_unclaimed (ho : Open t db stage) (hk : ∀ c, stage.claim = some c → c.key ≠ k) :
    db.codes.read t k = db.codes.committed k := by
  cases hown : db.codes.own t k with
  | none => exact read_of_not_own hown
  | some row =>
    rw [read_of_own hown]
    exact ho.unclaimed k row hk hown

theorem Open.goto (h : Open t db stage) (hclaim : stage.claim = none)
    (hpending : stage.pending = fun _ ↦ 0) (hclaim' : stage'.claim = none)
    (hpending' : stage'.pending = fun _ ↦ 0)
    (hsnapshot : ∀ s, stage'.snapshot = some s →
      (db.codes.committed s.1).map terms = some s.2.terms)
    (huser : ∀ u, stage'.serviceUser = some u → (db.users.committed u).isSome) :
    Open t db stage' where
  claimed c hc := by simp [hclaim'] at hc
  unclaimed k row _ := h.unclaimed k row fun c hc ↦ by simp [hclaim] at hc
  balances := by
    rw [hpending', ← hpending]
    exact h.balances
  snapshot := hsnapshot
  serviceUser := huser

theorem Open.idle (hcodes : ∀ k, db.codes.own t k = none) (husers : ∀ u, db.users.own t u = none) :
    Open t db .idle where
  claimed := nofun
  unclaimed k row _ hrow := by simp [hcodes] at hrow
  balances := .of_unlocked husers
  snapshot := nofun
  serviceUser := nofun

/-- A statement inside a transaction: nothing is committed, and only rows of `t` are written. -/
structure Inside (t : τ) (db db' : Db τ) (stage : Stage) : Prop where
  codes : db'.codes.committed = db.codes.committed
  users : db'.users.committed = db.users.committed
  tokens : db'.tokens = db.tokens
  credits : db'.credits = db.credits
  ownCodes : ∀ t' ≠ t, ∀ k, db'.codes.own t' k = db.codes.own t' k
  ownUsers : ∀ t' ≠ t, ∀ u, db'.users.own t' u = db.users.own t' u
  inv : TxInv t db' stage

theorem Inside.of_same (h : TxInv t db stage) : Inside t db db stage :=
  ⟨rfl, rfl, rfl, rfl, fun _ _ _ ↦ rfl, fun _ _ _ ↦ rfl, h⟩

theorem Inside.ledger (h : Inside t db db' stage) (hI : Ledger start db) : Ledger start db' where
  codes := by rw [h.codes, h.credits]; exact hI.codes
  unredeemed := by rw [h.codes]; exact hI.unredeemed
  balances := by rw [h.users, h.credits]; exact hI.balances
  tokens := by rw [h.tokens, h.credits]; exact hI.tokens

theorem Inside.affects (h : Inside t db db' stage) : Affects t db db' where
  ownCodes := h.ownCodes
  ownUsers := h.ownUsers
  codes k _ := by rw [h.codes]
  terms k := by rw [h.codes]
  users u _ := by rw [h.users]
  exists_user u := by rw [h.users]

variable {key recoveryToken : String} {userId now : ℤ} {row : Redemption} {setting : CdkToolSetting}

/-- Writing a row as it is committed only locks it. -/
theorem lockCode_inside (ho : Open t db (.lockCode key userId))
    (h : lockCode rt db t key userId = some (db', stage')) : Inside t db db' stage' := by
  have hread := ho.read_unclaimed (k := key) nofun
  rw [lockCode] at h
  split at h
  · cases h
    exact .of_same (.inl ⟨_, rfl⟩)
  rename_i row hrow
  rw [hread] at hrow
  have hsnapshot : ∀ s, (Stage.markUsed key row userId).snapshot = some s →
      (db.codes.committed s.1).map terms = some s.2.terms := by
    intro s hs
    cases hs
    simp [hrow]
  have hmark : Open t db (.markUsed key row userId) :=
    ho.goto rfl rfl rfl rfl hsnapshot (by rintro _ ⟨⟩)
  split at h
  · cases h
    exact .of_same (.inr hmark)
  split at h
  next hfree =>
    cases h
    refine ⟨rfl, rfl, rfl, rfl, fun _ ht _ ↦ own_write_other hfree ht,
      fun _ _ _ ↦ rfl, .inr ⟨by rintro _ ⟨⟩, ?_,
      hmark.balances, hsnapshot, hmark.serviceUser⟩⟩
    intro k row' hk hown
    by_cases he : k = key
    · subst he
      rw [own_write_self, some.injEq] at hown
      rw [← hown, committed_write, hrow]
    · rw [own_write_of_ne he] at hown
      exact hmark.unclaimed k row' hk hown
  · simp at h

theorem Open.mark {c : Credit} {row₀ : Redemption} (ho : Open t db stage)
    (hclaim : stage.claim = none) (hfree : db.codes.free t c.key = true)
    (hrow₀ : db.codes.committed c.key = some row₀) (hmarked : Marked c row₀ row)
    (hclaim' : stage'.claim = some c) (hpending : stage'.pending = stage.pending)
    (hsnapshot : ∀ s, stage'.snapshot = some s →
      (db.codes.committed s.1).map terms = some s.2.terms)
    (huser : stage'.serviceUser = none) :
    Inside t db { db with codes := db.codes.write t c.key (some row) } stage' := by
  refine ⟨rfl, rfl, rfl, rfl, fun _ ht _ ↦ own_write_other hfree ht, fun _ _ _ ↦ rfl,
    .inr ⟨?_, ?_, ?_, hsnapshot, ?_⟩⟩
  · intro c' hc'
    obtain rfl : c = c' := some.inj (hclaim'.symm.trans hc')
    exact ⟨row₀, row, hrow₀, own_write_self, hmarked⟩
  · intro k row' hk hown
    have hne : k ≠ c.key := fun he ↦ hk c hclaim' he.symm
    rw [own_write_of_ne hne] at hown
    exact ho.unclaimed k row' (fun c hc ↦ by simp [hclaim] at hc) hown
  · rw [hpending]
    exact ho.balances
  · intro u hu
    simp [huser] at hu

theorem markUsed_inside (hI : Ledger start db) (ho : Open t db (.markUsed key row userId))
    (h : markUsed db t now key row userId = some (db', stage')) : Inside t db db' stage' := by
  have hread := ho.read_unclaimed (k := key) nofun
  have hterms := ho.snapshot (key, row) rfl
  rw [markUsed] at h
  split at h
  · cases h
    exact .of_same (.inl ⟨_, rfl⟩)
  split at h
  · cases h
    exact .of_same (.inl ⟨_, rfl⟩)
  split at h
  · simp at h
  rename_i hfree
  rw [Bool.not_eq_true, Bool.not_eq_false'] at hfree
  split at h
  · cases h
    exact .of_same (.inl ⟨_, rfl⟩)
  rename_i stored hstored
  rw [hread] at hstored
  split at h
  · cases h
    exact .of_same (.inl ⟨_, rfl⟩)
  rename_i henabled
  rw [not_not] at henabled
  cases h
  rw [hstored, map_some, some.injEq] at hterms
  have hquota : stored.quota = row.quota := congrArg (·.2) hterms
  refine ho.mark (c := ⟨key, userId, row.quota, none⟩) rfl hfree hstored ?_ rfl rfl ?_ rfl
  · exact ⟨henabled, rfl, rfl, rfl, hquota.symm, rfl,
      hI.unredeemed key stored hstored henabled⟩
  · intro s hs
    cases hs
    rw [hstored, map_some, hterms]

theorem creditUser_inside (ho : Open t db (.creditUser key row userId))
    (huser : (db.users.read t userId).isSome)
    (h : creditUser db t key row userId = some (db', stage')) : Inside t db db' stage' := by
  obtain ⟨users, hcredit, hout⟩ := map_eq_some_iff.1 h
  cases hout
  obtain ⟨hpending, hcommitted, hothers⟩ := ho.balances.credit huser hcredit
  refine ⟨rfl, hcommitted, rfl, rfl, fun _ _ _ ↦ rfl, hothers, .inr ⟨ho.claimed, ho.unclaimed, ?_,
    nofun, nofun⟩⟩
  convert hpending using 1
  funext u
  simp [pending]

theorem findServiceUser_inside (ho : Open t db (.findServiceUser key recoveryToken setting)) :
    Inside t db db (findServiceUser rt db t key recoveryToken setting) := by
  apply Inside.of_same
  rw [findServiceUser]
  split
  · exact .inl ⟨_, rfl⟩
  rename_i hsome
  split
  · exact .inl ⟨_, rfl⟩
  split
  · exact .inl ⟨_, rfl⟩
  refine .inr (ho.goto rfl rfl rfl rfl (by rintro _ ⟨⟩) ?_)
  intro u hu
  cases hu
  rw [ho.balances.read] at hsome
  exact isSome_iff_ne_none.2 (by simpa using hsome)

theorem findCode_inside (ho : Open t db (.findCode key recoveryToken setting)) :
    Inside t db db (findCode rt db t now key recoveryToken setting) := by
  apply Inside.of_same
  rw [findCode, ho.read_unclaimed (k := key) nofun]
  split
  · exact .inl ⟨_, rfl⟩
  rename_i row hrow
  split
  · split
    · exact .inr (ho.goto rfl rfl rfl rfl nofun nofun)
    · exact .inl ⟨_, rfl⟩
  split
  · exact .inl ⟨_, rfl⟩
  split
  · exact .inl ⟨_, rfl⟩
  split
  · exact .inl ⟨_, rfl⟩
  refine .inr (ho.goto rfl rfl rfl rfl ?_ ho.serviceUser)
  intro s hs
  cases hs
  simp [hrow]

theorem creditService_inside (ho : Open t db (.creditService key row setting))
    (h : creditService db t key row setting = some (db', stage')) : Inside t db db' stage' := by
  obtain ⟨users, hcredit, hout⟩ := map_eq_some_iff.1 h
  cases hout
  have huser : (db.users.read t setting.serviceUserId).isSome := by
    rw [ho.balances.read, isSome_map]
    exact ho.serviceUser _ rfl
  obtain ⟨hpending, hcommitted, hothers⟩ := ho.balances.credit huser hcredit
  refine ⟨rfl, hcommitted, rfl, rfl, fun _ _ _ ↦ rfl, hothers, .inr ⟨nofun, ho.unclaimed, ?_,
    ho.snapshot, nofun⟩⟩
  convert hpending using 1
  funext u
  simp [pending]

theorem updateCode_inside {token : Token} (ho : Open t db (.updateCode key row token))
    (henabled : (db.codes.read t key).any fun stored ↦ stored.status = .enabled)
    (h : updateCode rt db t now recoveryToken key row token = some (db', stage')) :
    Inside t db db' stage' := by
  have hread := ho.read_unclaimed (k := key) nofun
  have hterms := ho.snapshot (key, row) rfl
  rw [updateCode] at h
  split at h
  · simp at h
  rename_i hfree
  rw [Bool.not_eq_true, Bool.not_eq_false'] at hfree
  split at h
  next hnone => simp [hnone] at henabled
  rename_i stored hstored
  cases h
  rw [hstored, any_some, decide_eq_true_eq] at henabled
  rw [hread] at hstored
  rw [hstored, map_some, some.injEq] at hterms
  have hquota : stored.quota = row.quota := congrArg (·.2) hterms
  refine ho.mark (c := ⟨key, token.userId, row.quota, some token⟩) rfl hfree hstored ?_ rfl
    rfl (by rintro _ ⟨⟩) rfl
  exact ⟨henabled, rfl, rfl, rfl, hquota.symm, rfl, rfl⟩

section

variable {credit : Option Credit}

theorem claim_cases (stage : Stage) (k : String) :
    (∀ c, stage.claim = some c → c.key ≠ k) ∨ ∃ c, stage.claim = some c ∧ c.key = k := by
  rw [or_iff_not_imp_right]
  exact fun h c hc he ↦ h ⟨c, hc, he⟩

theorem commitCredit_affects (ho : Open t db (.commit credit)) :
    Affects t db (commitCredit db t credit) where
  ownCodes _ ht _ := own_commit_other ht
  ownUsers _ ht _ := own_commit_other ht
  codes k hk := read_of_not_own hk
  terms k := by
    change (db.codes.read t k).map _ = _
    rcases claim_cases (.commit credit) k with hk | ⟨c, hc, rfl⟩
    · rw [ho.read_unclaimed hk]
    · obtain ⟨row₀, row, hrow₀, hrow, hmarked⟩ := ho.claimed c hc
      rw [read_of_own hrow, hrow₀]
      simp [terms, hmarked.id, hmarked.quota]
  users u hu := read_of_not_own hu
  exists_user u := by
    change (db.users.read t u).isSome = _
    rw [ho.balances.read, isSome_map]

theorem commitCredit_ledger (hI : Ledger start db) (ho : Open t db (.commit credit)) :
    Ledger start (commitCredit db t credit) where
  codes k := by
    change RedeemedOnce _ (db.codes.read t k) (creditsOf k (db.credits ++ credit.toList))
    rw [creditsOf, List.filter_append, ← creditsOf, ← creditsOf]
    rcases claim_cases (.commit credit) k with hk | ⟨c, hc, rfl⟩
    · have hnone : creditsOf k credit.toList = [] := by
        cases credit with
        | none => rfl
        | some c => simp [creditsOf, hk c rfl]
      rw [ho.read_unclaimed hk, hnone, List.append_nil]
      exact hI.codes k
    · obtain rfl : credit = some c := hc
      obtain ⟨row₀, row, hrow₀, hrow, hmarked⟩ := ho.claimed c rfl
      rcases hI.codes c.key with ⟨hsame, hnil⟩ | ⟨r₀, r, c', -, hr, -, hmarked'⟩
      · refine .inr ⟨row₀, row, c, hsame ▸ hrow₀, read_of_own hrow, ?_, hmarked⟩
        rw [hnil]
        simp [creditsOf]
      · -- A code that is already redeemed is not enabled.
        obtain rfl : row₀ = r := some.inj (hrow₀.symm.trans hr)
        have := hmarked.enabled
        simp [hmarked'.used] at this
  unredeemed k row hrow henabled := by
    change db.codes.read t k = some row at hrow
    rcases claim_cases (.commit credit) k with hk | ⟨c, hc, rfl⟩
    · rw [ho.read_unclaimed hk] at hrow
      exact hI.unredeemed k row hrow henabled
    · obtain ⟨row₀, row', -, hrow', hmarked⟩ := ho.claimed c hc
      rw [read_of_own hrow', some.injEq] at hrow
      subst hrow
      simp [hmarked.used] at henabled
  balances u := by
    change db.users.read t u = (start.users.committed u).map (· + creditedTo u _)
    rw [ho.balances.read, hI.balances, map_map]
    congr 1
    funext balance
    cases credit with
    | none => simp [commitCredit, pending]
    | some c =>
      by_cases hu : c.userId = u
      · simp [commitCredit, pending, creditedTo, hu, add_assoc]
      · simp [commitCredit, pending, creditedTo, hu, Ne.symm hu]
  tokens := by
    cases credit with
    | none => simp [commitCredit, hI.tokens]
    | some c => cases hc : c.token <;> simp [commitCredit, hI.tokens, hc]

end

/-- The user who is credited exists, and a code that a CDK redemption updates is still enabled. -/
def Fresh (t : τ) (db : Db τ) : Stage → Prop
  | .creditUser _ _ userId => (db.users.read t userId).isSome
  | .updateCode key _ _ => (db.codes.read t key).any fun stored ↦ stored.status = .enabled
  | _ => True

instance : Decidable (Fresh t db stage) := by
  unfold Fresh
  split <;> infer_instance

theorem begin_open {r : Request} (ho : Open t db .idle) (h : r.begin rt = .ok stage) :
    Open t db stage := by
  cases r with
  | redeem | redeemCdkToolCode =>
    simp only [Request.begin] at h
    split_ifs at h
    cases h
    exact ho.goto rfl rfl rfl rfl nofun nofun

theorem perform_inv (hI : Ledger start db) (hL : TxInv t db stage) (hG : Fresh t db stage)
    (h : perform rt t a db stage = some (db', stage')) :
    Ledger start db' ∧ TxInv t db' stage' ∧ Affects t db db' := by
  have hopen (hstage : ∀ e, stage ≠ .failed e) : Open t db stage :=
    hL.resolve_left fun ⟨e, he⟩ ↦ hstage e he
  have hinside (hin : Inside t db db' stage') :
      Ledger start db' ∧ TxInv t db' stage' ∧ Affects t db db' :=
    ⟨hin.ledger hI, hin.inv, hin.affects⟩
  unfold perform at h
  split at h
  · split at h
    · cases h
      exact ⟨hI, hL, .refl⟩
    next stage hbegin =>
      cases h
      exact ⟨hI, .inr (begin_open (hopen (by simp)) hbegin), .refl⟩
  · exact hinside (lockCode_inside (hopen (by simp)) h)
  · exact hinside (markUsed_inside hI (hopen (by simp)) h)
  · exact hinside (creditUser_inside (hopen (by simp)) hG h)
  · cases h
    exact hinside (findServiceUser_inside (hopen (by simp)))
  · cases h
    exact hinside (findCode_inside (hopen (by simp)))
  · cases h
    refine hinside (.of_same ?_)
    rw [findToken]
    split
    · exact .inr ((hopen (by simp)).goto rfl rfl rfl rfl nofun nofun)
    · exact .inl ⟨_, rfl⟩
  · exact hinside (creditService_inside (hopen (by simp)) h)
  · cases h
    have ho := hopen (by simp)
    exact hinside ⟨rfl, rfl, rfl, rfl, fun _ _ _ ↦ rfl, fun _ _ _ ↦ rfl,
      .inr ⟨nofun, ho.unclaimed, ho.balances, ho.snapshot, nofun⟩⟩
  · exact hinside (updateCode_inside (hopen (by simp)) hG h)
  · cases h
    have ho := hopen (by simp)
    refine ⟨commitCredit_ledger hI ho, .inr ?_, commitCredit_affects ho⟩
    exact .idle (fun _ ↦ own_commit_self) fun _ ↦ own_commit_self
  · cases h
    refine ⟨{ hI with }, .inr ?_, ⟨
      fun _ ht _ ↦ own_rollback_other ht, fun _ ht _ ↦ own_rollback_other ht,
      fun _ _ ↦ rfl, fun _ ↦ rfl, fun _ _ ↦ rfl, fun _ ↦ rfl⟩⟩
    exact .idle (fun _ ↦ own_rollback_self) fun _ ↦ own_rollback_self
  · simp at h
  · simp at h
  · cases h
    exact ⟨hI, .inl ⟨_, rfl⟩, .refl⟩
  · simp at h

structure Initial (c : Config (Db τ) τ Stage) : Prop where
  credits : c.shared.credits = []
  unredeemed : ∀ k row, c.shared.codes.committed k = some row → row.status = .enabled →
    row.redeemedTokenId = 0
  codes : ∀ t k, c.shared.codes.own t k = none
  users : ∀ t u, c.shared.users.own t u = none
  idle : ∀ t, c.thread t = .idle

theorem Initial.holds {c : Config (Db τ) τ Stage} (h : Initial c) :
    Config.Holds (Ledger c.shared) TxInv c := by
  refine ⟨⟨fun k ↦ .inl ⟨rfl, ?_⟩, h.unredeemed, fun u ↦ ?_, ?_⟩, fun t ↦ .inr ?_⟩
  · rw [h.credits]
    rfl
  · simp [h.credits, creditedTo]
  · simp [h.credits]
  · rw [h.idle]
    exact .idle (h.codes t) (h.users t)

/-- In every interleaving of redemptions in which no CDK redemption updates a code that is not
enabled any more, a code that was enabled is credited once when it is used and not before, by the
transaction whose user and token it records. -/
theorem code_redeemed_once {c c' : Config (Db τ) τ Stage} {as : List (τ × Action)} {k : String}
    {row₀ : Redemption} (hinit : Initial c)
    (hfresh : Guarded (Config.step (perform rt)) (fun c a ↦ Fresh a.1 c.shared (c.thread a.1)) c as)
    (hrun : exec (Config.step (perform rt)) c as = some c')
    (hcode : c.shared.codes.committed k = some row₀) (henabled : row₀.status = .enabled) :
    ∃ row, c'.shared.codes.committed k = some row ∧
      (row.status = .enabled ∨ row.status = .used) ∧
      ((creditsOf k c'.shared.credits).map Credit.quota).sum =
        (if row.status = .used then row.quota else 0) ∧
      (creditsOf k c'.shared.credits).length ≤ 1 ∧
      (∀ credit ∈ creditsOf k c'.shared.credits,
        credit.userId = row.usedUserId ∧ credit.tokenId = row.redeemedTokenId) ∧
      (∀ u, c'.shared.users.committed u =
        (c.shared.users.committed u).map (· + creditedTo u c'.shared.credits)) ∧
      c'.shared.tokens = c.shared.tokens ++ c'.shared.credits.filterMap Credit.token := by
  have hheld : Config.Holds (Ledger c.shared) TxInv c' :=
    Config.exec_holds (fun t a db p db' p' hI hL hG h ↦ perform_inv hI hL hG h)
      (fun t t' db db' p hne hL hR ↦ hL.stable hne hR) hinit.holds hfresh hrun
  have hledger := hheld.1
  rcases hledger.codes k with ⟨hsame, hnil⟩ | ⟨r₀, row, credit, hr₀, hrow, hone, hmarked⟩
  · refine ⟨row₀, hsame.trans hcode, .inl henabled, ?_, ?_, ?_, hledger.balances, hledger.tokens⟩
    · simp [hnil, henabled]
    · simp [hnil]
    · simp [hnil]
  · refine ⟨row, hrow, .inr hmarked.used, ?_, ?_, ?_, hledger.balances, hledger.tokens⟩
    · simp [hone, hmarked.used, hmarked.credited]
    · simp [hone]
    · intro d hd
      rw [hone, List.mem_singleton] at hd
      exact hd ▸ ⟨hmarked.user.symm, hmarked.token.symm⟩

namespace Example

def runtime : Runtime := ⟨id, id, fun _ _ ↦ true, true⟩

def config : Config (Db ℕ) ℕ Stage where
  shared :=
    { codes := .ofCommitted fun k ↦
        if k = "cdk" then some { id := 1, status := .enabled, quota := 10 } else none
      users := .ofCommitted fun _ ↦ some 0
      profile := fun _ ↦ ⟨true, "default"⟩
      tokens := []
      nextTokenId := 1
      credits := [] }
  thread := fun _ ↦ .idle

def cdk : Action := .start (.redeemCdkToolCode "cdk" "" ⟨true, 5, "", "tool"⟩)

def statements (t n : ℕ) : List (ℕ × Action) := List.replicate n (t, .next 100 "key" "recovery")

end Example

open Example in
/-- Two CDK redemptions read the enabled code: both credit the service user and create a token, and
the code records only the second. -/
theorem cdk_redeemed_twice :
    (exec (Config.step (perform runtime)) config
      ([(1, cdk), (2, cdk)] ++ statements 1 2 ++ statements 2 2 ++ statements 1 4 ++
        statements 2 4)).map
      (fun c ↦ (c.shared.users.committed 5, c.shared.tokens.map Token.id,
        (c.shared.codes.committed "cdk").map redeemedTokenId,
        (c.shared.codes.committed "cdk").map quota)) =
    some (some 20, [1, 2], some 2, some 10) := by
  decide +kernel

open Example in
/-- A redemption by user 7, and a CDK redemption that begins after its commit and is refused. -/
theorem code_redeemed_once_serial :
    ∃ c', exec (Config.step (perform runtime)) config
        ([(1, .start (.redeem "cdk" 7))] ++ statements 1 4 ++ [(2, cdk)] ++ statements 2 3) =
        some c' ∧
      ∃ row, c'.shared.codes.committed "cdk" = some row ∧
        ((creditsOf "cdk" c'.shared.credits).map Credit.quota).sum =
          (if row.status = .used then row.quota else 0) := by
  have hinit : Initial config := by
    refine ⟨rfl, fun k row hrow _ ↦ ?_, fun _ _ ↦ rfl, fun _ _ ↦ rfl, fun _ ↦ rfl⟩
    simp only [config, ofCommitted, ite_none_right_eq_some, some.injEq] at hrow
    rw [← hrow.2]
  obtain ⟨c', hrun⟩ : ∃ c', exec (Config.step (perform runtime)) config
      ([(1, .start (.redeem "cdk" 7))] ++ statements 1 4 ++ [(2, cdk)] ++ statements 2 3) =
      some c' := isSome_iff_exists.1 (by decide +kernel)
  refine ⟨c', hrun, ?_⟩
  have hcode : config.shared.codes.committed "cdk" =
      some { id := 1, status := .enabled, quota := 10 } := by decide
  obtain ⟨row, hrow, -, hsum, -⟩ :=
    code_redeemed_once hinit (by decide +kernel) hrun hcode rfl
  exact ⟨row, hrow, hsum⟩

end Moligate.Codes
