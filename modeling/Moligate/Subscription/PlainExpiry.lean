import Moligate.Subscription.GroupRestore

namespace Moligate.Subscription

open Foundation

def Transition (u : ℤ) (r : SubscriptionRow) : Prop :=
  r.userId = u ∧ r.status = .expired ∧ (r.downgradeGroup ≠ "" ∨ r.upgradeGroup ≠ "")

/-- The transition of a subscription has nothing to do for a user in the group: the group is the one
that it leads to, or it is not the one that it would be taken back from. -/
def LeadsNowhere (rt : Runtime) (group : String) (last : SubscriptionRow) : Prop :=
  if rt.trimSpace last.downgradeGroup ≠ "" then rt.trimSpace last.downgradeGroup = group
  else rt.trimSpace last.upgradeGroup = "" ∨ rt.trimSpace last.prevUserGroup = "" ∨
    group ≠ rt.trimSpace last.upgradeGroup ∨ rt.trimSpace last.prevUserGroup = group

def PlainDue (now u : ℤ) (db : GroupDb) : Prop :=
  ∀ r ∈ db.subs.rows, r.userId = u → isExpiring now r = true →
    r.upgradeGroup = "" ∧ r.downgradeGroup = ""

/-- An upgrade of the user is active, or the latest transition in the history of the user has
nothing left to do. -/
def HistorySettled (rt : Runtime) (now u : ℤ) (db : GroupDb) : Prop :=
  (∃ r ∈ db.subs.rows, upgrades now u r = true) ∨
    ∀ last ∈ db.subs.rows, Transition u last →
      (∀ r ∈ db.subs.rows, Transition u r → later last r) → LeadsNowhere rt (db.groups u) last

section

variable (rt : Runtime) (now u : ℤ) (db : GroupDb) (r : SubscriptionRow) (group : String)

instance : Decidable (Transition u r) := by
  unfold Transition
  infer_instance

instance : Decidable (LeadsNowhere rt group r) := by
  unfold LeadsNowhere
  infer_instance

instance : Decidable (PlainDue now u db) := by
  unfold PlainDue
  infer_instance

instance : Decidable (HistorySettled rt now u db) := by
  unfold HistorySettled
  infer_instance

end

variable {rt : Runtime} {now u v : ℤ} {db db' : GroupDb} {r last : SubscriptionRow}

theorem revertExpired_eq_self (h : LeadsNowhere rt (db.groups u) last) :
    revertExpired rt db u last = db := by
  unfold LeadsNowhere at h
  simp only [revertExpired]
  split_ifs at h ⊢ with hdown hblank hgroup
  · exact if_pos (.inr h)
  · rfl
  · rfl
  · rw [not_or] at hblank
    rcases h with h | h | h | h
    · exact absurd h hblank.1
    · exact absurd h hblank.2
    · exact absurd h hgroup
    · exact if_pos (.inr h)

theorem PlainDue.same (h : PlainDue now u db) (hsame : SameFor u db db') : PlainDue now u db' :=
  fun r hr hu hexp ↦ h r ((hsame.rows r hu).1 hr) hu hexp

theorem HistorySettled.same (h : HistorySettled rt now u db) (hsame : SameFor u db db') :
    HistorySettled rt now u db' := by
  rcases h with ⟨r, hr, hup⟩ | h
  · have hup' := hup
    simp only [upgrades, Bool.and_eq_true, decide_eq_true_eq] at hup'
    exact .inl ⟨r, (hsame.rows r hup'.1.1.1).2 hr, hup⟩
  · refine .inr fun last hlast ht hlater ↦ ?_
    rw [hsame.group]
    refine h last ((hsame.rows last ht.1).1 hlast) ht fun r hr htr ↦ ?_
    exact hlater r ((hsame.rows r htr.1).2 hr) htr

theorem expireRow_eq_self (h : r.userId ≠ u ∨ isExpiring now r = false) : expireRow now u r = r := by
  refine if_neg fun ⟨hu, hexp⟩ ↦ h.elim (· hu) fun hnot ↦ ?_
  exact Bool.eq_false_iff.1 hnot hexp

theorem plainDue_expire : PlainDue now u (db.expire now u) := by
  intro r hr hu hexp
  rcases mem_expire_cases hr hu with ⟨-, hnot⟩ | ⟨r₀, -, -, rfl⟩
  · exact absurd hexp (Bool.eq_false_iff.1 hnot)
  · exact absurd (isExpiring_iff.1 hexp).1 (by simp)

theorem transition_expire (hplain : PlainDue now u db) (ht : Transition u r) :
    r ∈ (db.expire now u).subs.rows ↔ r ∈ db.subs.rows := by
  constructor
  · intro hr
    rcases mem_expire_cases hr ht.1 with ⟨hold, -⟩ | ⟨r₀, hr₀, hexp, rfl⟩
    · exact hold
    · obtain ⟨hup, hdown⟩ := hplain r₀ hr₀ ht.1 hexp
      exact absurd ht.2.2 (by simp [hup, hdown])
  · intro hr
    refine mem_expire.2 ⟨r, hr, expireRow_eq_self (.inr (Bool.eq_false_iff.2 fun hexp ↦ ?_))⟩
    exact absurd ((isExpiring_iff.1 hexp).1.symm.trans ht.2.1) (by simp)

theorem historySettled_expire (hplain : PlainDue now u db) (h : HistorySettled rt now u db) :
    HistorySettled rt now u (db.expire now u) := by
  rcases h with ⟨r, hr, hup⟩ | h
  · refine .inl ⟨r, mem_expire.2 ⟨r, hr, expireRow_eq_self (.inr ?_)⟩, hup⟩
    simp only [upgrades, Bool.and_eq_true, decide_eq_true_eq] at hup
    refine Bool.eq_false_iff.2 fun hexp ↦ ?_
    have := (isExpiring_iff.1 hexp).2.2
    omega
  · refine .inr fun last hlast ht hlater ↦ ?_
    refine h last ((transition_expire hplain ht).1 hlast) ht fun r hr htr ↦ ?_
    exact hlater r ((transition_expire hplain htr).2 hr) htr

theorem expireUser_plain (hplain : PlainDue now u db) (h : HistorySettled rt now u db) :
    expireUser rt now db u = db.expire now u := by
  have hafter := historySettled_expire hplain h
  simp only [expireUser]
  split_ifs with hany
  · rfl
  · split
    · rfl
    rename_i last hlatest
    obtain ⟨hmem, hlater⟩ := latest_later hlatest
    have hiff (r : SubscriptionRow) : r ∈ (db.expire now u).subs.rows.filter (fun r ↦
        r.userId = u && r.status = .expired && (r.downgradeGroup ≠ "" || r.upgradeGroup ≠ "")) ↔
        r ∈ (db.expire now u).subs.rows ∧ Transition u r := by
      simp [Transition, and_assoc]
    obtain ⟨hlast, ht⟩ := (hiff last).1 hmem
    rcases hafter with ⟨r, hr, hup⟩ | hafter
    · exact absurd (List.any_eq_true.2 ⟨r, hr, hup⟩) hany
    · refine revertExpired_eq_self (hafter last hlast ht fun r hr htr ↦ ?_)
      exact hlater r ((hiff r).2 ⟨hr, htr⟩)

theorem foldl_expireUser_plain {users : List ℤ} (hplain : PlainDue now u db)
    (h : HistorySettled rt now u db) :
    (users.foldl (expireUser rt now) db).groups u = db.groups u := by
  induction users generalizing db with
  | nil => rfl
  | cons v users ih =>
    rw [List.foldl_cons]
    by_cases hv : u = v
    · subst hv
      rw [expireUser_plain hplain h]
      exact ih plainDue_expire (historySettled_expire hplain h)
    · have hsame : SameFor u db (expireUser rt now db v) := expireUser_other hv
      rw [ih (hplain.same hsame) (h.same hsame), hsame.group]

namespace Example

/-- A subscription that leads to the group `free` has ended, an administrator may have changed the
group since, and then a subscription without any group is bought. -/
def afterDowngrade (change : GroupDb → GroupDb) : GroupDb :=
  let leaving := { upgradePlan 40 "" with downgradeGroup := "free" }
  let db := performGroupOp utc 10 members.db (.purchase 1 leaving)
  let db := change (performGroupOp utc 60 db (.expire 0))
  performGroupOp utc 70 db (.purchase 1 (upgradePlan 30 ""))

end Example

end Moligate.Subscription
