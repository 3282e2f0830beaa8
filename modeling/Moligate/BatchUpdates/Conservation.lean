import Mathlib
import Moligate.Foundation.Threads

namespace Moligate.BatchUpdates

open Foundation Function Finset

inductive BatchUpdateType
  | userQuota | tokenQuota | usedQuota | channelUsedQuota | requestCount
  deriving DecidableEq

def types : List BatchUpdateType :=
  [.userQuota, .tokenQuota, .usedQuota, .channelUsedQuota, .requestCount]

/-- The types that one statement writes: a user's three columns are updated together. -/
def BatchUpdateType.together : BatchUpdateType → List BatchUpdateType
  | tokenQuota => [tokenQuota]
  | channelUsedQuota => [channelUsedQuota]
  | _ => [userQuota, usedQuota, requestCount]

abbrev Stores := BatchUpdateType → AList fun _ : ℤ ↦ ℤ

def amount (stores : Stores) (k : BatchUpdateType) (id : ℤ) : ℤ := ((stores k).lookup id).getD 0

structure World where
  /-- The column of a user, token or channel that the updates of a type are added to. -/
  stored : BatchUpdateType → ℤ → ℤ
  tokenUsedQuota : ℤ → ℤ
  stores : Stores

open World

/-- Where a run of `batchUpdate` is, with the stores it has taken. -/
inductive Stage
  | idle
  | check (todo : List BatchUpdateType)
  | take (todo : List BatchUpdateType) (stores : Stores)
  | write (stores : Stores)

open Stage

inductive Action
  | addNewRecord (type : BatchUpdateType) (id value : ℤ)
  | next
  | write (type : BatchUpdateType) (id : ℤ) (fails : Bool)

def addNewRecord (w : World) (k : BatchUpdateType) (id value : ℤ) : World :=
  { w with stores := update w.stores k ((w.stores k).insert id (amount w.stores k id + value)) }

def next (w : World) : Stage → Option (World × Stage)
  | .idle => some (w, .check types)
  | .check [] => some (w, .idle)
  | .check (k :: todo) =>
    some (w, if (w.stores k).keys = [] then .check todo else .take types fun _ ↦ ∅)
  | .take (k :: todo) stores =>
    some ({ w with stores := update w.stores k ∅ }, .take todo (update stores k (w.stores k)))
  | .take [] stores => some (w, .write stores)
  | .write stores => if ∀ k ∈ types, (stores k).keys = [] then some (w, .idle) else none

/-- What the statement for the row `id` of the type `k` adds. -/
def added (stores : Stores) (k : BatchUpdateType) (id : ℤ) (k' : BatchUpdateType) (id' : ℤ) : ℤ :=
  if k' ∈ k.together ∧ id' = id then amount stores k' id' else 0

-- The rows come in any order, and an error of a statement is only logged.
def write (w : World) (stores : Stores) (k : BatchUpdateType) (id : ℤ) (fails : Bool) :
    World × Stage :=
  (if fails then w else
    { w with
      stored := w.stored + added stores k id
      tokenUsedQuota := w.tokenUsedQuota - added stores k id .tokenQuota },
  .write fun k' ↦ if k' ∈ k.together then (stores k').erase id else stores k')

def perform (a : Action) (w : World) (stage : Stage) : Option (World × Stage) :=
  match a, stage with
  | .addNewRecord k id value, _ => some (addNewRecord w k id value, stage)
  | .next, _ => next w stage
  | .write k id fails, .write stores =>
    if id ∈ stores k then some (write w stores k id fails) else none
  | .write .., _ => none

abbrev System (τ : Type) := Config World τ Stage

def System.step {τ : Type} [DecidableEq τ] : System τ → τ × Action → Option (System τ) :=
  Config.step fun _ ↦ perform

def Action.recorded (k : BatchUpdateType) (id : ℤ) : Action → ℤ
  | addNewRecord k' id' value => if k = k' ∧ id = id' then value else 0
  | _ => 0

def Action.succeeds : Action → Bool
  | write _ _ fails => !fails
  | _ => true

/-- What is stored, with what is still pending for it. -/
def World.kept (w : World) (k : BatchUpdateType) (id : ℤ) : ℤ := w.stored k id + amount w.stores k id

/-- What a token has been given; the used quota moves against the remaining one. -/
def World.granted (w : World) (id : ℤ) : ℤ := w.tokenUsedQuota id + w.stored .tokenQuota id

def Stage.held (k : BatchUpdateType) (id : ℤ) : Stage → ℤ
  | take _ stores | write stores => amount stores k id
  | _ => 0

/-- A run takes each store once. -/
def Stage.Untaken : Stage → Prop
  | take todo stores => todo.Nodup ∧ ∀ k ∈ todo, stores k = ∅
  | _ => True

/-- What a step keeps of the world and of the run that takes it, which records `recorded`. -/
structure Keeps (k : BatchUpdateType) (id recorded : ℤ) (s s' : World × Stage) : Prop where
  untaken : s'.2.Untaken
  kept : s'.1.kept k id + s'.2.held k id = s.1.kept k id + s.2.held k id + recorded
  granted : s'.1.granted id = s.1.granted id

section

variable {w : World} {stage : Stage} {a : Action} {k k' : BatchUpdateType} {id id' value : ℤ}
  {stores : Stores} {out : World × Stage}

theorem amount_addNewRecord : amount (addNewRecord w k' id' value).stores k id =
    amount w.stores k id + (Action.addNewRecord k' id' value).recorded k id := by
  rcases eq_or_ne k k' with rfl | hk
  · rcases eq_or_ne id id' with rfl | hid
    · simp [addNewRecord, amount, Action.recorded]
    · simp [addNewRecord, amount, Action.recorded, hid]
  · simp [addNewRecord, amount, Action.recorded, hk]

theorem amount_write :
    amount (fun k ↦ if k ∈ k'.together then (stores k).erase id' else stores k) k id +
      added stores k' id' k id = amount stores k id := by
  by_cases hk : k ∈ k'.together
  · rcases eq_or_ne id id' with rfl | hid
    · simp [added, amount, hk]
    · simp [added, amount, hk, hid]
  · simp [added, amount, hk]

theorem keeps_next (hstage : stage.Untaken) (h : next w stage = some out) :
    Keeps k id 0 (w, stage) out := by
  match stage with
  | .idle | .check [] | .take [] _ =>
    cases h
    exact ⟨trivial, (add_zero _).symm, rfl⟩
  | .check (k' :: todo) =>
    cases h
    split
    · exact ⟨trivial, (add_zero _).symm, rfl⟩
    · exact ⟨⟨by decide, fun _ _ ↦ rfl⟩, (add_zero _).symm, rfl⟩
  | .take (k' :: todo) stores =>
    cases h
    obtain ⟨hnodup, hempty⟩ := hstage
    rw [List.nodup_cons] at hnodup
    refine ⟨⟨hnodup.2, fun k₁ hk₁ ↦ ?_⟩, ?_, rfl⟩
    · have hne : k₁ ≠ k' := fun he ↦ hnodup.1 (he ▸ hk₁)
      rw [update_of_ne hne]
      exact hempty k₁ (List.mem_cons_of_mem _ hk₁)
    · rcases eq_or_ne k k' with rfl | hk
      · simp [kept, held, amount, hempty k List.mem_cons_self]
      · simp [kept, held, amount, hk]
  | .write stores =>
    obtain ⟨hdone, h⟩ := Option.ite_none_right_eq_some.1 h
    cases h
    have hnone : (stores k).lookup id = none := by
      rw [AList.lookup_eq_none, AList.mem_keys, hdone k (by cases k <;> decide)]
      exact List.not_mem_nil
    exact ⟨trivial, by simp [held, amount, hnone], rfl⟩

theorem keeps_perform (hstage : stage.Untaken) (ha : a.succeeds = true)
    (h : perform a w stage = some out) : Keeps k id (a.recorded k id) (w, stage) out := by
  cases a with
  | addNewRecord k' id' value =>
    cases h
    refine ⟨hstage, ?_, rfl⟩
    rw [kept, amount_addNewRecord, ← add_assoc, add_right_comm]
    rfl
  | next => exact keeps_next hstage h
  | write k' id' fails =>
    cases stage with
    | write stores =>
      obtain ⟨-, h⟩ := Option.ite_none_right_eq_some.1 h
      obtain rfl : fails = false := by simpa [Action.succeeds] using ha
      cases h
      have hamount := @amount_write k k' id id' stores
      refine ⟨trivial, ?_, by simp [write, granted]⟩
      simp only [kept, write, held, Action.recorded, Pi.add_apply, Bool.false_eq_true, if_false]
      omega
    | _ => cases h

end

variable {τ : Type} [DecidableEq τ] [Fintype τ] {c c' : System τ} {a : τ × Action}
  {as : List (τ × Action)}

theorem keeps_step {k : BatchUpdateType} {id : ℤ} (hc : ∀ t, (c.thread t).Untaken)
    (ha : a.2.succeeds = true) (h : System.step c a = some c') :
    (∀ t, (c'.thread t).Untaken) ∧ c'.shared.granted id = c.shared.granted id ∧
      c'.shared.kept k id + ∑ t, (c'.thread t).held k id =
        c.shared.kept k id + ∑ t, (c.thread t).held k id + a.2.recorded k id := by
  obtain ⟨hperform, hothers⟩ := Config.step_eq_some h
  obtain ⟨huntaken, hkept, hgranted⟩ := keeps_perform (k := k) (hc a.1) ha hperform
  refine ⟨fun t ↦ ?_, hgranted, ?_⟩
  · rcases eq_or_ne t a.1 with rfl | ht
    · exact huntaken
    · exact hothers t ht ▸ hc t
  · have hsum : ∑ t ∈ univ.erase a.1, (c'.thread t).held k id =
        ∑ t ∈ univ.erase a.1, (c.thread t).held k id :=
      sum_congr rfl fun t ht ↦ by rw [hothers t (ne_of_mem_erase ht)]
    rw [← add_sum_erase _ _ (mem_univ a.1), hsum, ← add_sum_erase _ _ (mem_univ a.1)]
    dsimp only at hkept
    omega

/-- When no run is in progress and no statement has failed, what is stored and pending is what it
was, with everything recorded since. -/
theorem updates_conserved (hstart : ∀ t, c.thread t = .idle)
    (hsucceed : ∀ a ∈ as, a.2.succeeds = true) (hrun : exec System.step c as = some c')
    (hidle : ∀ t, c'.thread t = .idle) (k : BatchUpdateType) (id : ℤ) :
    c'.shared.kept k id = c.shared.kept k id + (as.map fun a ↦ a.2.recorded k id).sum ∧
      c'.shared.granted id = c.shared.granted id := by
  have hall := exec_history (P := fun as (d : System τ) ↦ (∀ t, (d.thread t).Untaken) ∧
      d.shared.granted id = c.shared.granted id ∧ d.shared.kept k id + ∑ t, (d.thread t).held k id =
        c.shared.kept k id + (as.map fun a ↦ a.2.recorded k id).sum)
    ⟨fun t ↦ by rw [hstart]; trivial, rfl, by simp [hstart, held]⟩
    (fun as a d e _ ih ha h ↦ ?_) (guarded_of_forall hsucceed) hrun
  · exact ⟨by simpa [hidle, held] using hall.2.2, hall.2.1⟩
  · obtain ⟨huntaken, hgranted, hkept⟩ := keeps_step ih.1 ha h
    exact ⟨huntaken, hgranted.trans ih.2.1, by rw [hkept, ih.2.2]; simp [add_assoc]⟩

private def start : System Unit := ⟨⟨fun _ _ ↦ 0, fun _ ↦ 0, fun _ ↦ ∅⟩, fun _ ↦ .idle⟩

/-- Five points recorded for a user, and a run of `batchUpdate`. -/
private def recordAndUpdate (fails : Bool) : List (Unit × Action) :=
  (Action.addNewRecord .userQuota 1 5 :: List.replicate 8 .next ++
    [Action.write .userQuota 1 fails, .next]).map ((), ·)

theorem updates_conserved_once : ∃ c, exec System.step start (recordAndUpdate false) = some c ∧
    c.shared.kept .userQuota 1 = 5 ∧ c.shared.stored .userQuota 1 = 5 :=
  ⟨_, rfl, (@updates_conserved Unit _ _ start _ (recordAndUpdate false) (fun _ ↦ rfl) (by decide) rfl
    (fun _ ↦ rfl) .userQuota 1).1, rfl⟩

theorem failed_update_lost : ∃ c, exec System.step start (recordAndUpdate true) = some c ∧
    c.thread () = .idle ∧ c.shared.kept .userQuota 1 = 0 := ⟨_, rfl, rfl, rfl⟩

end Moligate.BatchUpdates
