import Moligate.Subscription.Groups
import Moligate.Subscription.Windows

namespace Moligate.Subscription

open Foundation List Table Function

instance : Std.Total later := ⟨fun a b ↦ by unfold later; omega⟩

instance : IsTrans SubscriptionRow later := ⟨fun a b c ↦ by unfold later; omega⟩

variable {rows : List SubscriptionRow} {s : SubscriptionRow}

theorem latest_later (h : latest rows = some s) : s ∈ rows ∧ ∀ r ∈ rows, later s r := by
  obtain ⟨rest, hrest⟩ := head?_eq_some_iff.1 h
  have hmem : ∀ r, r ∈ rows ↔ r ∈ s :: rest := by
    intro r
    rw [← hrest, mem_insertionSort]
  have hsorted := pairwise_insertionSort later rows
  rw [hrest, pairwise_cons] at hsorted
  refine ⟨(hmem s).2 mem_cons_self, fun r hr ↦ ?_⟩
  rcases mem_cons.1 ((hmem r).1 hr) with rfl | hr
  · exact .inr ⟨rfl, le_rfl⟩
  · exact hsorted.1 r hr

theorem latest_isSome (h : s ∈ rows) : latest rows ≠ none := by
  rw [latest, ne_eq, head?_eq_none_iff]
  intro hnil
  have hmem := (mem_insertionSort later).2 h
  simp [hnil] at hmem

def Live (u : ℤ) (r : SubscriptionRow) : Prop :=
  r.userId = u ∧ r.status = .active ∧ r.upgradeGroup ≠ ""

instance (u : ℤ) (r : SubscriptionRow) : Decidable (Live u r) :=
  inferInstanceAs (Decidable (_ ∧ _ ∧ _))

structure Snapshot (rt : Runtime) (g : String) (r : SubscriptionRow) : Prop where
  downgrade : r.downgradeGroup = ""
  upgrade : rt.trimSpace r.upgradeGroup = r.upgradeGroup
  prev : r.upgradeGroup ≠ "" → r.prevUserGroup = if r.upgradeGroup = g then "" else g

def Lapsed (u : ℤ) (r : SubscriptionRow) : Prop :=
  r.userId = u ∧ r.status = .expired ∧ r.upgradeGroup ≠ ""

/-- The user is in the group of their live subscription, or back in the group `g`. -/
structure Restores (rt : Runtime) (g : String) (u clock : ℤ) (db : GroupDb) : Prop where
  snapshot : ∀ r ∈ db.subs.rows, r.userId = u → Snapshot rt g r
  past : ∀ r ∈ db.subs.rows, Lapsed u r → r.endTime ≤ clock
  single : ∀ r ∈ db.subs.rows, ∀ s ∈ db.subs.rows, Live u r → Live u s → r = s
  last : ∀ s ∈ db.subs.rows, Live u s → 0 < s.endTime ∧
    ∀ r ∈ db.subs.rows, Lapsed u r → r.endTime < s.endTime
  upgraded : ∀ s ∈ db.subs.rows, Live u s → db.groups u = s.upgradeGroup ∨
    db.groups u = g ∧ s.endTime ≤ clock
  restored : (∀ s ∈ db.subs.rows, ¬Live u s) → db.groups u = g

variable {rt : Runtime} {g : String} {u clock now : ℤ} {db db' : GroupDb}
  {r s sub last : SubscriptionRow} {userId id : ℤ} {target : String}

structure SameFor (u : ℤ) (db db' : GroupDb) : Prop where
  rows : ∀ r : SubscriptionRow, r.userId = u → (r ∈ db'.subs.rows ↔ r ∈ db.subs.rows)
  group : db'.groups u = db.groups u

/-- No upgrade of the user begins or lapses, and the group stays, or is `g` again. -/
theorem Restores.shrink (h : Restores rt g u clock db) (hclock : clock ≤ now)
    (hsnap : ∀ r ∈ db'.subs.rows, r.userId = u → Snapshot rt g r)
    (hlapsed : ∀ {r}, r ∈ db'.subs.rows → Lapsed u r → r ∈ db.subs.rows)
    (hlive : ∀ {s}, s ∈ db'.subs.rows → Live u s → s ∈ db.subs.rows)
    (hgroup : db'.groups u = db.groups u ∨
      db'.groups u = g ∧ ∀ s ∈ db'.subs.rows, Live u s → s.endTime ≤ now)
    (hrestored : (∀ s ∈ db'.subs.rows, ¬Live u s) → db'.groups u = g) :
    Restores rt g u now db' where
  snapshot := hsnap
  past r hr hl := (h.past r (hlapsed hr hl) hl).trans hclock
  single r hr s hs hlr hls := h.single r (hlive hr hlr) s (hlive hs hls) hlr hls
  last s hs hl := by
    obtain ⟨hpos, hlast⟩ := h.last s (hlive hs hl) hl
    exact ⟨hpos, fun r hr hlr ↦ hlast r (hlapsed hr hlr) hlr⟩
  upgraded s hs hl := by
    rcases hgroup with hsame | ⟨hg, hended⟩
    · rw [hsame]
      exact (h.upgraded s (hlive hs hl) hl).imp_right fun ⟨hg, hend⟩ ↦ ⟨hg, hend.trans hclock⟩
    · exact .inr ⟨hg, hended s hs hl⟩
  restored := hrestored

theorem Restores.same (h : Restores rt g u clock db) (hclock : clock ≤ now)
    (hsame : SameFor u db db') : Restores rt g u now db' :=
  h.shrink hclock (fun r hr hu ↦ h.snapshot r ((hsame.rows r hu).1 hr) hu)
    (fun hr hl ↦ (hsame.rows _ hl.1).1 hr) (fun hs hl ↦ (hsame.rows _ hl.1).1 hs)
    (.inl hsame.group) fun hnone ↦ hsame.group.trans
      (h.restored fun s hs hl ↦ hnone s ((hsame.rows s hl.1).2 hs) hl)

@[simp] theorem revert_subs : (db.revert userId target).subs = db.subs := by
  rw [GroupDb.revert]
  split <;> rfl

theorem revert_other (h : u ≠ userId) : (db.revert userId target).groups u = db.groups u := by
  rw [GroupDb.revert]
  split
  · rfl
  · exact update_of_ne h _ _

theorem revert_self (h : target ≠ "") : (db.revert userId target).groups userId = target := by
  rw [GroupDb.revert]
  split
  next heq => exact (heq.resolve_left h).symm
  · exact update_self _ _ _

@[simp] theorem downgrade_subs :
    (downgradeUserGroupForSubscription rt now db sub).subs = db.subs := by
  rw [downgradeUserGroupForSubscription]
  split_ifs <;> simp

structure Trims (rt : Runtime) (g : String) : Prop where
  again : ∀ s, rt.trimSpace (rt.trimSpace s) = rt.trimSpace s
  empty : rt.trimSpace "" = ""
  group : rt.trimSpace g = g
  named : g ≠ ""

theorem Snapshot.trim_prev (hs : Snapshot rt g sub) (ht : Trims rt g) (hup : sub.upgradeGroup ≠ "") :
    rt.trimSpace sub.prevUserGroup = if sub.upgradeGroup = g then "" else g := by
  rw [hs.prev hup]
  split
  · exact ht.empty
  · exact ht.group

def Alone (now u : ℤ) (sub : SubscriptionRow) (db : GroupDb) : Prop :=
  ∀ r ∈ db.subs.rows, upgrades now u r = true → r.id = sub.id

theorem alone_iff : Alone now sub.userId sub db ↔
    (db.subs.rows.any fun r ↦ upgrades now sub.userId r && r.id ≠ sub.id) = false := by
  simp [Alone]

theorem downgrade_cases (ht : Trims rt g) (hs : Snapshot rt g sub) :
    ((downgradeUserGroupForSubscription rt now db sub).groups sub.userId = db.groups sub.userId ∨
      (downgradeUserGroupForSubscription rt now db sub).groups sub.userId = g ∧
        Alone now sub.userId sub db) ∧
    (sub.upgradeGroup ≠ "" → Alone now sub.userId sub db →
      db.groups sub.userId = sub.upgradeGroup ∨ db.groups sub.userId = g →
      (downgradeUserGroupForSubscription rt now db sub).groups sub.userId = g) := by
  have hdown : rt.trimSpace sub.downgradeGroup = "" := by rw [hs.downgrade, ht.empty]
  rw [downgradeUserGroupForSubscription, alone_iff]
  simp only [hdown, hs.upgrade, true_and, ne_eq, not_true_eq_false, if_false]
  split
  next hnone => exact ⟨.inl rfl, fun hup ↦ absurd hnone hup⟩
  next hup =>
  split
  next hothers => exact ⟨.inl rfl, fun _ halone ↦ absurd hothers (Bool.eq_false_iff.1 halone)⟩
  next halone =>
  split
  next hne => exact ⟨.inl rfl, fun _ _ hgroup ↦ hgroup.resolve_left hne⟩
  next heq =>
  rw [hs.trim_prev ht hup]
  split
  next hsame => exact ⟨.inl rfl, fun _ _ _ ↦ (not_not.1 heq).trans hsame⟩
  · exact ⟨.inr ⟨revert_self ht.named, Bool.eq_false_iff.2 halone⟩, fun _ _ _ ↦ revert_self ht.named⟩

structure Ends (rt : Runtime) (g : String) (u now : ℤ) (sub : SubscriptionRow) (db db' : GroupDb) :
    Prop where
  rows : ∀ r ∈ db'.subs.rows, r.userId = u →
    r ∈ db.subs.rows ∧ r.id ≠ sub.id ∨ r.status = .cancelled ∧ Snapshot rt g r
  others : ∀ r ∈ db.subs.rows, r.userId = u → r.id ≠ sub.id → r ∈ db'.subs.rows
  group : db'.groups u = db.groups u ∨ db'.groups u = g ∧
    ∀ s ∈ db.subs.rows, Live u s → s.id ≠ sub.id → s.endTime ≤ now
  last : Live u sub → db'.groups u = g

theorem Ends.live (he : Ends rt g u now sub db db') (hs : s ∈ db'.subs.rows) (hl : Live u s) :
    s ∈ db.subs.rows ∧ s.id ≠ sub.id :=
  (he.rows s hs hl.1).resolve_right fun hc ↦ by simp [hl.2.1] at hc

theorem Ends.lapsed (he : Ends rt g u now sub db db') (hr : r ∈ db'.subs.rows)
    (hl : Lapsed u r) : r ∈ db.subs.rows :=
  ((he.rows r hr hl.1).resolve_right fun hc ↦ by simp [hl.2.1] at hc).1

theorem Restores.ends (h : Restores rt g u clock db) (hclock : clock ≤ now)
    (hsub : db.subs.find id = some sub) (he : Ends rt g u now sub db db') :
    Restores rt g u now db' := by
  refine h.shrink hclock (fun r hr hu ↦ ?_) he.lapsed (fun hs hl ↦ (he.live hs hl).1)
    (he.group.imp_right fun ⟨hg, hended⟩ ↦
      ⟨hg, fun s hs hl ↦ hended s (he.live hs hl).1 hl (he.live hs hl).2⟩) fun hnone ↦ ?_
  · exact (he.rows r hr hu).elim (fun hold ↦ h.snapshot r hold.1 hu) And.right
  · by_cases hlive : Live u sub
    · exact he.last hlive
    rcases he.group with hsame | ⟨hg, -⟩
    · rw [hsame]
      refine h.restored fun s hs hl ↦ ?_
      by_cases hid : s.id = sub.id
      · -- the row under the key of `sub` is `sub`
        have hfind : db.subs.find sub.id = some s := hid ▸ find_of_mem hs
        rw [key_of_find hsub, hsub] at hfind
        exact hlive (Option.some.inj hfind ▸ hl)
      · exact hnone s (he.others s hs hl.1 hid) hl
    · exact hg

theorem Restores.downgrade (now : ℤ) (h : Restores rt g u clock db) (ht : Trims rt g)
    (hsub : db.subs.find id = some sub)
    (hrows : ∀ r ∈ db'.subs.rows, r.userId = u → r ∈ db.subs.rows ∨ r.status = .cancelled)
    (hothers : ∀ r ∈ db.subs.rows, r.userId = u → r.id ≠ sub.id → r ∈ db'.subs.rows)
    (hgroups : db'.groups = db.groups) :
    ((downgradeUserGroupForSubscription rt now db' sub).groups u = db.groups u ∨
      (downgradeUserGroupForSubscription rt now db' sub).groups u = g ∧
        ∀ s ∈ db.subs.rows, Live u s → s.id ≠ sub.id → s.endTime ≤ now) ∧
    (Live u sub → (downgradeUserGroupForSubscription rt now db' sub).groups u = g) := by
  have hmem := find_mem hsub
  by_cases hu : sub.userId = u
  · subst hu
    have hsnap := h.snapshot sub hmem rfl
    refine ⟨?_, fun hl ↦ ?_⟩
    · rw [← hgroups]
      refine (downgrade_cases ht hsnap).1.imp_right fun ⟨hg, halone⟩ ↦ ⟨hg, fun s hs hl hne ↦ ?_⟩
      by_contra hlate
      refine hne (halone s (hothers s hs hl.1 hne) ?_)
      simp [upgrades, hl.1, hl.2.1, hl.2.2, not_le.1 hlate]
    · refine (downgrade_cases ht hsnap).2 hl.2.2 (fun r hr hup ↦ ?_) ?_
      · have hlive : Live sub.userId r := by
          simp only [upgrades, Bool.and_eq_true, decide_eq_true_eq] at hup
          exact ⟨hup.1.1.1, hup.1.1.2, hup.2⟩
        have hold := (hrows r hr hlive.1).resolve_right fun hc ↦ by simp [hlive.2.1] at hc
        exact congrArg (·.id) (h.single r hold sub hmem hlive hl)
      · rw [hgroups]
        exact (h.upgraded sub hmem hl).imp_right And.left
  · refine ⟨.inl ?_, fun hl ↦ absurd hl.1 hu⟩
    rw [downgradeUserGroupForSubscription, ← hgroups]
    split_ifs <;> simp [revert_other (Ne.symm hu)]

theorem Restores.invalidate (h : Restores rt g u clock db) (ht : Trims rt g) (hclock : clock ≤ now)
    (hop : adminInvalidateUserSubscription rt now db id = .ok db') : Restores rt g u now db' := by
  rw [adminInvalidateUserSubscription] at hop
  split at hop
  · simp at hop
  split at hop
  · simp at hop
  rename_i sub hsub
  cases hop
  have hid : sub.id = id := (key_of_find hsub :)
  have hrows : ∀ r ∈ (db.cancel now id).subs.rows, r.userId = u → r ∈ db.subs.rows ∧ r.id ≠ sub.id ∨
      r.status = .cancelled ∧ Snapshot rt g r := by
    intro r hr hu
    obtain ⟨r₀, hr₀, rfl⟩ := (mem_update (cancelRow_id now id)).1 hr
    rw [cancelRow] at hu ⊢
    split
    next heq =>
      rw [if_pos heq] at hu
      have hsnap := h.snapshot r₀ hr₀ hu
      exact .inr ⟨rfl, hsnap.downgrade, hsnap.upgrade, hsnap.prev⟩
    next hne => exact .inl ⟨hr₀, hid ▸ hne⟩
  have hothers : ∀ r ∈ db.subs.rows, r.userId = u → r.id ≠ sub.id →
      r ∈ (db.cancel now id).subs.rows :=
    fun r hr _ hne ↦ (mem_update (cancelRow_id now id)).2 ⟨r, hr, if_neg (hid ▸ hne)⟩
  obtain ⟨hgroup, hlast⟩ := h.downgrade now ht hsub
    (fun r hr hu ↦ (hrows r hr hu).imp And.left And.left) hothers rfl
  exact h.ends hclock hsub ⟨by rwa [downgrade_subs], by rwa [downgrade_subs], hgroup, hlast⟩

theorem Restores.delete (h : Restores rt g u clock db) (ht : Trims rt g) (hclock : clock ≤ now)
    (hop : adminDeleteUserSubscription rt now db id = .ok db') : Restores rt g u now db' := by
  rw [adminDeleteUserSubscription] at hop
  split at hop
  · simp at hop
  split at hop
  · simp at hop
  rename_i sub hsub
  cases hop
  have hid : sub.id = id := (key_of_find hsub :)
  obtain ⟨hgroup, hlast⟩ := h.downgrade now ht hsub (fun r hr _ ↦ .inl hr) (fun r hr _ _ ↦ hr) rfl
  refine h.ends hclock hsub ⟨fun r hr _ ↦ .inl ?_, fun r hr _ hne ↦ ?_, hgroup, hlast⟩
  · rw [downgrade_subs, mem_remove] at hr
    exact ⟨hr.1, hid ▸ hr.2⟩
  · rw [downgrade_subs, mem_remove]
    exact ⟨hr, hid ▸ hne⟩

theorem mem_expire : r ∈ (db.expire now userId).subs.rows ↔
    ∃ r₀ ∈ db.subs.rows, expireRow now userId r₀ = r :=
  mem_update (expireRow_id now userId)

theorem revertExpired_subs : (revertExpired rt db userId last).subs = db.subs := by
  rw [revertExpired]
  split_ifs <;> simp

theorem revertExpired_other (h : u ≠ userId) :
    (revertExpired rt db userId last).groups u = db.groups u := by
  rw [revertExpired]
  split_ifs <;> simp [revert_other h]

theorem revertExpired_restores (ht : Trims rt g) (hs : Snapshot rt g last)
    (hup : last.upgradeGroup ≠ "") (hgroup : db.groups u = last.upgradeGroup ∨ db.groups u = g) :
    (revertExpired rt db u last).groups u = g := by
  have hdown : rt.trimSpace last.downgradeGroup = "" := by rw [hs.downgrade, ht.empty]
  simp only [revertExpired, hdown, hs.upgrade, hup, hs.trim_prev ht hup, ne_eq, not_true_eq_false,
    if_false, false_or]
  by_cases hsame : last.upgradeGroup = g
  · rw [if_pos hsame, if_pos rfl]
    exact hgroup.elim (·.trans hsame) id
  · rw [if_neg hsame, if_neg ht.named]
    split
    next hne => exact hgroup.resolve_left hne
    · exact revert_self ht.named

theorem expireUser_other (h : u ≠ userId) : SameFor u db (expireUser rt now db userId) := by
  have hrows : ∀ r : SubscriptionRow, r.userId = u →
      (r ∈ (db.expire now userId).subs.rows ↔ r ∈ db.subs.rows) := by
    intro r hr
    rw [mem_expire]
    constructor
    · rintro ⟨r₀, hr₀, rfl⟩
      rw [expireRow] at hr ⊢
      split
      next hexp =>
        rw [if_pos hexp] at hr
        exact absurd (hr.symm.trans hexp.1) h
      · exact hr₀
    · intro hmem
      exact ⟨r, hmem, if_neg fun hexp ↦ h (hr.symm.trans hexp.1)⟩
  rw [expireUser]
  split
  · exact ⟨hrows, rfl⟩
  · split
    · exact ⟨hrows, rfl⟩
    · exact ⟨by rwa [revertExpired_subs], revertExpired_other h⟩

theorem mem_expire_cases (hr : r ∈ (db.expire now u).subs.rows) (hu : r.userId = u) :
    r ∈ db.subs.rows ∧ isExpiring now r = false ∨
      ∃ r₀ ∈ db.subs.rows, isExpiring now r₀ = true ∧ r = { r₀ with status := .expired } := by
  obtain ⟨r₀, hr₀, rfl⟩ := mem_expire.1 hr
  rw [expireRow] at hu ⊢
  split
  next hexp => exact .inr ⟨r₀, hr₀, hexp.2, rfl⟩
  next hexp =>
    rw [if_neg hexp] at hu
    exact .inl ⟨hr₀, Bool.eq_false_iff.2 fun he ↦ hexp ⟨hu, he⟩⟩

theorem live_expire (hs : s ∈ (db.expire now u).subs.rows) (hl : Live u s) :
    s ∈ db.subs.rows ∧ isExpiring now s = false := by
  rcases mem_expire_cases hs hl.1 with hold | ⟨r₀, -, -, rfl⟩
  · exact hold
  · exact absurd hl.2.1 (by simp)

theorem isExpiring_iff : isExpiring now r = true ↔
    r.status = .active ∧ 0 < r.endTime ∧ r.endTime ≤ now := by
  simp [isExpiring, and_assoc]

theorem lapsed_expire (hr : r ∈ (db.expire now u).subs.rows) (hl : Lapsed u r) :
    r ∈ db.subs.rows ∨ ∃ s ∈ db.subs.rows, Live u s ∧ isExpiring now s = true ∧
      r = { s with status := .expired } := by
  rcases mem_expire_cases hr hl.1 with hold | ⟨s, hs, hexp, rfl⟩
  · exact .inl hold.1
  · exact .inr ⟨s, hs, ⟨hl.1, (isExpiring_iff.1 hexp).1, hl.2.2⟩, hexp, rfl⟩

section

variable (h : Restores rt g u clock db)
include h

theorem snapshot_expire (hr : r ∈ (db.expire now u).subs.rows) (hu : r.userId = u) :
    Snapshot rt g r := by
  rcases mem_expire_cases hr hu with hold | ⟨r₀, hr₀, -, rfl⟩
  · exact h.snapshot r hold.1 hu
  · have hsnap := h.snapshot r₀ hr₀ hu
    exact { hsnap with }

theorem Restores.past_expire (hclock : clock ≤ now) (hr : r ∈ (db.expire now u).subs.rows)
    (hl : Lapsed u r) : r.endTime ≤ now := by
  rcases lapsed_expire hr hl with hold | ⟨s, -, -, hexp, rfl⟩
  · exact (h.past r hold hl).trans hclock
  · exact (isExpiring_iff.1 hexp).2.2

theorem Restores.expire_running (hclock : clock ≤ now) (hs : s ∈ db.subs.rows) (hl : Live u s)
    (hlater : isExpiring now s = false) : Restores rt g u now (db.expire now u) := by
  have hold {r} (hr : r ∈ (db.expire now u).subs.rows) (hlr : Lapsed u r) : r ∈ db.subs.rows := by
    rcases lapsed_expire hr hlr with hold | ⟨s', hs', hl', hexp, -⟩
    · exact hold
    · rw [h.single s hs s' hs' hl hl', hexp] at hlater
      exact absurd hlater (by simp)
  refine h.shrink hclock (fun r hr hu ↦ snapshot_expire h hr hu) hold
    (fun hs hl ↦ (live_expire hs hl).1) (.inl rfl) fun hnone ↦ ?_
  refine absurd hl (hnone s (mem_expire.2 ⟨s, hs, if_neg ?_⟩))
  rw [hlater]
  simp

/-- The last expired row that is looked at for the group is the one that has set it. -/
theorem Restores.latest_group (hmem : last ∈ (db.expire now u).subs.rows) (hl : Lapsed u last)
    (hmax : ∀ r ∈ (db.expire now u).subs.rows, Lapsed u r → r.endTime ≤ last.endTime)
    (hdone : ∀ s ∈ db.subs.rows, Live u s → isExpiring now s = true) :
    db.groups u = last.upgradeGroup ∨ db.groups u = g := by
  by_cases hlive : ∃ s ∈ db.subs.rows, Live u s
  · obtain ⟨s, hs, hls⟩ := hlive
    have hexp : s.userId = u ∧ isExpiring now s = true := ⟨hls.1, hdone s hs hls⟩
    have hlate : s.endTime ≤ last.endTime :=
      hmax { s with status := .expired } (mem_expire.2 ⟨s, hs, if_pos hexp⟩) ⟨hls.1, rfl, hls.2.2⟩
    have hsame : last.upgradeGroup = s.upgradeGroup := by
      rcases lapsed_expire hmem hl with hold | ⟨s', hs', hls', -, rfl⟩
      · have := (h.last s hs hls).2 last hold hl
        omega
      · rw [h.single s hs s' hs' hls hls']
    rw [hsame]
    exact (h.upgraded s hs hls).imp_right And.left
  · exact .inr (h.restored fun s hs hls ↦ hlive ⟨s, hs, hls⟩)

theorem Restores.expire_ended (ht : Trims rt g)
    (hdone : ∀ s ∈ db.subs.rows, Live u s → isExpiring now s = true)
    (hnone : ∀ s ∈ (db.expire now u).subs.rows, ¬Live u s) :
    (expireUser rt now db u).subs = (db.expire now u).subs ∧
      (expireUser rt now db u).groups u = g := by
  have hover : (db.expire now u).subs.rows.any (upgrades now u) = false := by
    rw [any_eq_false]
    intro r hr hup
    simp only [upgrades, Bool.and_eq_true, decide_eq_true_eq] at hup
    exact hnone r hr ⟨hup.1.1.1, hup.1.1.2, hup.2⟩
  have hfilter : ∀ r, r ∈ (db.expire now u).subs.rows.filter (fun r ↦ r.userId = u &&
      r.status = .expired && (r.downgradeGroup ≠ "" || r.upgradeGroup ≠ "")) ↔
      r ∈ (db.expire now u).subs.rows ∧ Lapsed u r := by
    intro r
    rw [mem_filter]
    refine and_congr_right fun hr ↦ ?_
    simp only [Bool.and_eq_true, decide_eq_true_eq, Bool.or_eq_true, Lapsed, and_assoc]
    refine and_congr_right fun hu ↦ ?_
    simp [(snapshot_expire h hr hu).downgrade]
  rw [expireUser, hover, if_neg (by simp)]
  split
  next hnil =>
    refine ⟨rfl, h.restored fun s hs hl ↦ ?_⟩
    have hexp : s.userId = u ∧ isExpiring now s = true := ⟨hl.1, hdone s hs hl⟩
    exact latest_isSome ((hfilter { s with status := .expired }).2
      ⟨mem_expire.2 ⟨s, hs, if_pos hexp⟩, hl.1, rfl, hl.2.2⟩) hnil
  next last hlast =>
    obtain ⟨hmem, hlater⟩ := latest_later hlast
    obtain ⟨hrow, hl⟩ := (hfilter last).1 hmem
    refine ⟨revertExpired_subs, revertExpired_restores ht (snapshot_expire h hrow hl.1) hl.2.2
      (h.latest_group hrow hl (fun r hr hlr ↦ ?_) hdone)⟩
    have := hlater r ((hfilter r).2 ⟨hr, hlr⟩)
    unfold later at this
    omega

theorem Restores.expireUser (ht : Trims rt g) (hclock : clock ≤ now) :
    Restores rt g u now (expireUser rt now db u) := by
  by_cases hrunning : ∃ s ∈ db.subs.rows, Live u s ∧ isExpiring now s = false
  · obtain ⟨s, hs, hl, hlater⟩ := hrunning
    have hkeeps : (db.expire now u).subs.rows.any (upgrades now u) = true := by
      refine any_eq_true.2 ⟨s, mem_expire.2 ⟨s, hs, if_neg (by simp [hlater])⟩, ?_⟩
      have hpos := (h.last s hs hl).1
      simp only [isExpiring, hl.2.1, hpos, decide_true, Bool.and_self, Bool.true_and,
        decide_eq_false_iff_not, not_le] at hlater
      simp [upgrades, hl.1, hl.2.1, hl.2.2, hlater]
    have hout : Subscription.expireUser rt now db u = db.expire now u := if_pos hkeeps
    rw [hout]
    exact h.expire_running hclock hs hl hlater
  · have hdone : ∀ s ∈ db.subs.rows, Live u s → isExpiring now s = true := fun s hs hl ↦
      (Bool.eq_false_or_eq_true _).resolve_right fun hlater ↦ hrunning ⟨s, hs, hl, hlater⟩
    have hnone : ∀ s ∈ (db.expire now u).subs.rows, ¬Live u s := fun s hs hl ↦
      hrunning ⟨s, (live_expire hs hl).1, hl, (live_expire hs hl).2⟩
    obtain ⟨hsubs, hgroup⟩ := h.expire_ended ht hdone hnone
    rw [← hsubs] at hnone
    refine ⟨fun r hr hu ↦ snapshot_expire h (hsubs ▸ hr) hu,
      fun r hr hl ↦ h.past_expire hclock (hsubs ▸ hr) hl, fun r hr _ _ hl ↦ absurd hl (hnone r hr),
      fun s hs hl ↦ absurd hl (hnone s hs), fun s hs hl ↦ absurd hl (hnone s hs), fun _ ↦ hgroup⟩

theorem Restores.expireDue (ht : Trims rt g) (hclock : clock ≤ now) (limit : ℤ) :
    Restores rt g u now (expireDueSubscriptions rt now db limit) := by
  have hfold : ∀ (users : List ℤ) (db : GroupDb), Restores rt g u now db →
      Restores rt g u now (users.foldl (Subscription.expireUser rt now) db) := by
    intro users
    induction users with
    | nil => exact fun _ h ↦ h
    | cons v users ih =>
      intro db h
      by_cases hv : u = v
      · exact ih _ (hv ▸ (hv ▸ h.expireUser ht le_rfl))
      · exact ih _ (h.same le_rfl (expireUser_other hv))
  exact hfold _ db (h.same hclock ⟨fun _ _ ↦ Iff.rfl, rfl⟩)

end

/-- A purchase of the user `u` leads to no explicit group, and one that upgrades the group comes
while no upgrade of the user is live, and ends after it. -/
def separate (rt : Runtime) (u : ℤ) (w : GroupWorld) (call : ℤ × GroupOp) : Bool :=
  match call.2 with
  | .purchase userId plan =>
    userId ≠ u || rt.trimSpace plan.downgradeGroup = "" &&
      (rt.trimSpace plan.upgradeGroup = "" || (w.db.subs.rows.all fun r ↦ ¬Live u r) &&
        match calcPlanEndTime rt call.1 plan with
        | .ok endTime => call.1 < endTime
        | .error _ => true)
  | _ => true

theorem create_spec {plan : Plan}
    (h : createUserSubscriptionFromPlan rt now db userId plan = .ok db') :
    ∃ row, newSubscription rt db.nextId now userId plan (db.groups userId) = .ok row ∧
      db'.subs.rows = row :: db.subs.rows ∧ (∀ v, v ≠ userId → db'.groups v = db.groups v) ∧
      db'.groups userId = if row.upgradeGroup = "" then db.groups userId else row.upgradeGroup := by
  simp only [createUserSubscriptionFromPlan] at h
  iterate 4
    split at h
    · simp at h
  rename_i row hrow
  split at h
  · simp at h
  rename_i subs hsubs
  cases h
  refine ⟨row, hrow, ?_, fun v hv ↦ ?_, ?_⟩
  · rw [← rows_create hsubs]
    split <;> rfl
  · split
    · exact update_of_ne hv _ _
    · rfl
  · by_cases hup : row.upgradeGroup = ""
    · rw [if_neg fun hc ↦ hc.1 hup, if_pos hup]
    · split
      · exact update_self _ _ _
      next hsame => simpa [hup] using hsame

theorem Restores.purchase {plan : Plan} (h : Restores rt g u clock db) (ht : Trims rt g)
    (hpos : 0 ≤ clock) (hclock : clock ≤ now)
    (hok : separate rt u ⟨clock, db⟩ (now, .purchase userId plan) = true)
    (hop : createUserSubscriptionFromPlan rt now db userId plan = .ok db') :
    Restores rt g u now db' := by
  obtain ⟨row, hrow, hrows, hothers, hgroup⟩ := create_spec hop
  obtain ⟨hend, -, -, -, huser, hactive, hup, hprev, hdown, -⟩ := newSubscription_spec hrow
  by_cases hu : userId = u
  · subst hu
    simp only [separate, ne_eq, not_true_eq_false, decide_false, Bool.false_or, Bool.and_eq_true,
      decide_eq_true_eq, Bool.or_eq_true, hend, ← hup, ← hdown, all_eq_true] at hok
    obtain ⟨hnodown, hok⟩ := hok
    have hsnap : Snapshot rt g row := by
      refine ⟨hnodown, by rw [hup, ht.again], fun hne ↦ ?_⟩
      obtain ⟨hfree, -⟩ := hok.resolve_left hne
      rw [hprev, prevGroup, h.restored hfree]
      by_cases hsame : row.upgradeGroup = g
      · rw [if_pos hsame, if_neg fun hc ↦ hc.2 hsame.symm]
      · rw [if_neg hsame, if_pos ⟨hne, Ne.symm hsame⟩]
    have hnew : ¬Lapsed userId row := fun hl ↦ absurd hl.2.1 (by simp [hactive])
    have hmem : ∀ {r}, r ∈ db'.subs.rows → r = row ∨ r ∈ db.subs.rows := by simp [hrows]
    have hlapsed : ∀ {r}, r ∈ db'.subs.rows → Lapsed userId r → r ∈ db.subs.rows :=
      fun hr hl ↦ (hmem hr).resolve_left fun heq ↦ hnew (heq ▸ hl)
    have hsnaps : ∀ r ∈ db'.subs.rows, r.userId = userId → Snapshot rt g r :=
      fun r hr hu ↦ (hmem hr).elim (fun heq ↦ heq ▸ hsnap) fun hr ↦ h.snapshot r hr hu
    have hpast : ∀ r ∈ db'.subs.rows, Lapsed userId r → r.endTime ≤ clock :=
      fun r hr hl ↦ h.past r (hlapsed hr hl) hl
    by_cases hnone : row.upgradeGroup = ""
    · rw [if_pos hnone] at hgroup
      have hlive : ∀ {r}, r ∈ db'.subs.rows → Live userId r → r ∈ db.subs.rows :=
        fun hr hl ↦ (hmem hr).resolve_left fun heq ↦ hl.2.2 (heq ▸ hnone)
      exact h.shrink hclock hsnaps hlapsed hlive (.inl hgroup) fun hfree ↦
        hgroup.trans (h.restored fun s hs ↦ hfree s (hrows ▸ mem_cons_of_mem _ hs))
    · rw [if_neg hnone] at hgroup
      obtain ⟨hfree, hlater⟩ := hok.resolve_left hnone
      have honly : ∀ {r}, r ∈ db'.subs.rows → Live userId r → r = row := fun hr hl ↦
        (hmem hr).resolve_right fun hold ↦ hfree _ hold hl
      refine ⟨hsnaps, fun r hr hl ↦ (hpast r hr hl).trans hclock, fun r hr s hs hlr hls ↦ ?_,
        fun s hs hl ↦ ?_, fun s hs hl ↦ ?_, fun hfree ↦ ?_⟩
      · rw [honly hr hlr, honly hs hls]
      · rw [honly hs hl]
        exact ⟨by omega, fun r hr hlr ↦ by have := hpast r hr hlr; omega⟩
      · rw [honly hs hl]
        exact .inl hgroup
      · exact absurd ⟨huser, hactive, hnone⟩ (hfree row (hrows ▸ mem_cons_self))
  · refine h.same hclock ⟨fun r hr ↦ ?_, hothers u (Ne.symm hu)⟩
    rw [hrows, mem_cons]
    refine or_iff_right fun heq ↦ hu ?_
    rw [← huser, ← heq, hr]

theorem kept {ε : Type} {p : GroupDb → Prop} {result : Except ε GroupDb} (hfail : p db)
    (hok : ∀ db', result = .ok db' → p db') : p (result.toOption.getD db) := by
  cases result with
  | error e => exact hfail
  | ok db' => exact hok db' rfl

theorem groupStep_restores {w w' : GroupWorld} {call : ℤ × GroupOp} (ht : Trims rt g)
    (h : 0 ≤ w.clock ∧ Restores rt g u w.clock w.db) (hok : separate rt u w call = true)
    (hstep : groupStep rt w call = some w') : 0 ≤ w'.clock ∧ Restores rt g u w'.clock w'.db := by
  obtain ⟨hpos, h⟩ := h
  obtain ⟨now, op⟩ := call
  rw [groupStep] at hstep
  split at hstep
  next hclock =>
    cases hstep
    refine ⟨hpos.trans hclock, ?_⟩
    have hfail : Restores rt g u now w.db := h.same hclock ⟨fun _ _ ↦ Iff.rfl, rfl⟩
    cases op with
    | purchase userId plan => exact kept hfail fun _ ↦ h.purchase ht hpos hclock hok
    | invalidate id => exact kept hfail fun _ ↦ h.invalidate ht hclock
    | delete id => exact kept hfail fun _ ↦ h.delete ht hclock
    | expire limit => exact h.expireDue ht hclock limit
  · simp at hstep

/-- In every run whose upgrades of a user are separate, the user is back in the group `g` whenever
no upgrade of theirs is running and every due one has been expired. -/
theorem group_restored {w w' : GroupWorld} {calls : List (ℤ × GroupOp)} (ht : Trims rt g)
    (hclock : 0 ≤ w.clock) (hnone : ∀ r ∈ w.db.subs.rows, r.userId ≠ u) (hgroup : w.db.groups u = g)
    (hok : Guarded (groupStep rt) (fun w call ↦ separate rt u w call = true) w calls)
    (hrun : exec (groupStep rt) w calls = some w') (now : ℤ)
    (hended : ∀ r ∈ w'.db.subs.rows, upgrades now u r = false)
    (hexpired : ∀ r ∈ w'.db.subs.rows, r.userId = u → isExpiring now r = false) :
    w'.db.groups u = g := by
  have hinit : Restores rt g u w.clock w.db :=
    ⟨fun r hr hu ↦ absurd hu (hnone r hr), fun r hr hl ↦ absurd hl.1 (hnone r hr),
      fun r hr _ _ hl ↦ absurd hl.1 (hnone r hr), fun r hr hl ↦ absurd hl.1 (hnone r hr),
      fun r hr hl ↦ absurd hl.1 (hnone r hr), fun _ ↦ hgroup⟩
  obtain ⟨-, h⟩ := exec_invariant (I := fun w ↦ 0 ≤ w.clock ∧ Restores rt g u w.clock w.db)
    (fun _ _ _ h ho hs ↦ groupStep_restores ht h ho hs) ⟨hclock, hinit⟩ hok hrun
  refine h.restored fun s hs hl ↦ ?_
  have hlate : s.endTime ≤ now := by
    have := hended s hs
    simpa [upgrades, hl.1, hl.2.1, hl.2.2] using this
  have hexp : isExpiring now s = true := isExpiring_iff.2 ⟨hl.2.1, (h.last s hs hl).1, hlate⟩
  rw [hexpired s hs hl.1] at hexp
  exact absurd hexp (by simp)

namespace Example

def upgradePlan (seconds : ℤ) (group : String) : Plan where
  id := 1
  quotaResetPeriod := "never"
  quotaResetCustomSeconds := 0
  billingRatio := .finite 1
  durationUnit := .custom
  durationValue := 0
  customSeconds := seconds
  allowWalletOverflow := none
  maxPurchasePerUser := 0
  upgradeGroup := group
  downgradeGroup := ""
  applicableGroups := []
  modelFamily := ""
  includedModels := []
  bonusResources := []
  totalAmount := 0
  dailyAmount := 0
  weeklyAmount := 0
  monthlyAmount := 0

def members : GroupWorld := ⟨0, ⟨⟨[], by decide⟩, fun _ ↦ "default", 1⟩⟩

end Example

open Example in
/-- The second purchase finds the user in the upgraded group and has nothing to lead back to. -/
theorem group_kept_after_overlap :
    members.db.groups 1 = "default" ∧
    (exec (groupStep utc) members [(10, .purchase 1 (upgradePlan 100 "vip")),
      (20, .purchase 1 (upgradePlan 200 "vip")), (150, .expire 0), (250, .expire 0)]).map
        (fun w ↦ (w.db.groups 1, w.db.subs.rows.map (·.status),
          w.db.subs.rows.any (upgrades 250 1), w.db.subs.rows.any (isExpiring 250))) =
      some ("vip", [.expired, .expired], false, false) := by
  decide +kernel

open Example in
theorem group_restored_twice :
    ∃ w', exec (groupStep utc) members [(10, .purchase 1 (upgradePlan 100 "vip")), (150, .expire 0),
        (160, .purchase 1 (upgradePlan 200 "svip")), (170, .invalidate 2)] = some w' ∧
      w'.db.groups 1 = "default" := by
  obtain ⟨w', hrun, hrows⟩ := Option.map_eq_some_iff.1 (show
    (exec (groupStep utc) members [(10, .purchase 1 (upgradePlan 100 "vip")), (150, .expire 0),
      (160, .purchase 1 (upgradePlan 200 "svip")), (170, .invalidate 2)]).map (fun w ↦
        decide ((∀ r ∈ w.db.subs.rows, upgrades 170 1 r = false) ∧
          ∀ r ∈ w.db.subs.rows, r.userId = 1 → isExpiring 170 r = false)) = some true by
    decide +kernel)
  obtain ⟨hended, hexpired⟩ := of_decide_eq_true hrows
  refine ⟨w', hrun, ?_⟩
  exact group_restored ⟨fun _ ↦ rfl, rfl, rfl, by decide⟩ le_rfl (by decide) rfl
    (by decide +kernel) hrun 170 hended hexpired

end Moligate.Subscription
