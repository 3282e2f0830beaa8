import Moligate.Sessions.Rotation

namespace Moligate.Sessions

open Foundation Option System List Config

variable {rt : Runtime} {w w' : World} {p q : ℕ} {a : Action} {stage stage' : Stage} {k : After}
  {s₀ s : Session}

variable {r : Rotation}

theorem RowChange.of_rotation {x y : Option Session} (h : RowChange rt stage x y)
    (hr : stage.rotation = some r) (hne : y ≠ x) :
    (∃ row, x = some row ∧ row.isLive rt r.now = true ∧ row.refreshHash = r.presented) ∨
      ∃ s, stage = .reuseUpdate r s := by
  cases h with
  | same => exact absurd rfl hne
  | create => cases hr
  | rotate hlive hcurrent => cases hr; exact .inl ⟨_, rfl, hlive, hcurrent⟩
  | reuse => cases hr; exact .inr ⟨_, rfl⟩
  | commit hactive hdraft => cases hdraft <;> cases hr

theorem reuse_resume {result : WriteResult} (hstep : k.resume p w result = (w', stage'))
    (hreuse : stage'.reuse = some (r, s)) : k.reuse = some (r, s) := by
  cases k with
  | reuseFenced => cases result <;> cases hstep <;> first | exact hreuse | cases hreuse
  | revokeFenced z =>
    obtain ⟨kind, now, reason⟩ := z
    cases kind <;> cases result <;> cases hstep <;> cases hreuse
  | finished z =>
    obtain ⟨kind, now, reason⟩ := z
    cases kind <;> cases hstep <;> cases hreuse
  | _ => cases result <;> cases hstep <;> cases hreuse

theorem reuse_rotateQuery {r' : Rotation} {attempts : ℕ} {d : ℤ} (hunchanged : Unchanged p w.rows)
    (hreuse : (stepRotateQuery rt p w attempts r' d).reuse = some (r, s)) :
    r' = r ∧ w.rows.committed () = some s ∧ s.isLive rt r.now = true ∧
      s.classify r = .previousExpired := by
  unfold stepRotateQuery at hreuse
  split at hreuse
  · cases hreuse
  rename_i x hx
  rw [filter_eq_some_iff, hunchanged.row_eq] at hx
  split at hreuse <;> cases hreuse
  next hseen => exact ⟨rfl, hx.1, hx.2, hseen⟩

theorem reuse_advanceStage (hown : OwnRow p w.rows stage)
    (hstep : advanceStage rt p w stage = some (w', stage')) (hreuse : stage'.reuse = some (r, s)) :
    stage.reuse = some (r, s) ∨ ∃ attempts d, stage = .rotateQuery attempts r d ∧
      w.rows.committed () = some s ∧ s.isLive rt r.now = true ∧
      s.classify r = .previousExpired := by
  cases stage with
  | rotateQuery attempts r' d =>
    cases hstep
    obtain ⟨rfl, hread⟩ := reuse_rotateQuery (hown.unchanged rfl) hreuse
    exact .inr ⟨attempts, d, rfl, hread⟩
  | write entry deadline k =>
    replace hstep := some.inj hstep
    unfold stepWrite at hstep
    split at hstep
    · exact .inl (reuse_resume hstep hreuse)
    · cases hstep
      exact .inl hreuse
  | script entry deadline expiration k =>
    replace hstep := some.inj hstep
    unfold stepScript at hstep
    dsimp only at hstep
    split at hstep
    · cases hstep
      exact .inl hreuse
    · exact .inl (reuse_resume hstep hreuse)
  | complete | confirm => exact .inl (reuse_resume (some.inj hstep) hreuse)
  | getQuery =>
    cases hstep
    cases hrow : w.row p <;> rw [hrow] at hreuse <;> cases hreuse
  | getEntry | getLoaded | revokeQuery =>
    cases hstep
    simp only [stepGetEntry, stepGetLoaded, stepRevokeQuery] at hreuse
    split at hreuse <;> cases hreuse
  | rotate attempts => cases attempts <;> cases hstep <;> cases hreuse
  | revokeLock | advanceLock =>
    obtain ⟨out, -, hout⟩ := map_eq_some_iff.1 hstep
    dsimp only at hout
    split at hout <;> (try split at hout) <;> cases hout <;> cases hreuse
  | create | rotateSwap | reuseUpdate | revokeUpdate | advanceUpdate =>
    simp only [advanceStage, stepCreate, stepRotateSwap, stepReuseUpdate, stepRevokeUpdate,
      stepAdvanceUpdate, ite_none_right_eq_some] at hstep
    obtain ⟨-, hstep⟩ := hstep
    split at hstep <;> cases hstep <;> cases hreuse
  | revokeCommit z session => cases session <;> cases hstep <;> cases hreuse
  | report r => cases r <;> cases hstep <;> cases hreuse
  | _ => cases hstep <;> cases hreuse

variable {now : ℤ} {as bs : List (ℕ × Action)} {c c' d : System}

structure Rotates (rt : Runtime) (s₀ : Session) (p : ℕ) (w : World) (stage : Stage) : Prop where
  own : OwnRow p w.rows stage
  chains : stage.Chains rt s₀.version p w

def System.Rotates (rt : Runtime) (s₀ : Session) (c : System) : Prop :=
  c.Holds (Chained s₀) (Sessions.Rotates rt s₀)

def System.fresh (c : System) (a : ℕ × Action) : Prop := Sessions.fresh c.shared a.2 = true

instance {x : ℕ × Action} : Decidable (c.fresh x) := inferInstanceAs (Decidable (_ = true))

theorem rotates_start : (start now (some s₀)).Rotates rt s₀ := by
  refine ⟨⟨⟨s₀, rfl, rfl, ⟨[], rfl⟩, nodup_singleton _⟩, ⟨nodup_nil, ?_⟩, nodup_nil, ?_⟩,
    fun p ↦ ⟨?_, trivial⟩⟩
  · intro h hmem
    cases hmem
  · intro e he
    cases he
  · intro x hx
    cases hx

/-- The call of `p` has read the row when the hash that it presents was the previous one, and out of
its grace window. -/
def FoundReuse (rt : Runtime) (start : System) (as : List (ℕ × Action)) (p : ℕ) (r : Rotation) :
    Prop :=
  ∃ before after c attempts deadline s, as = before ++ after ∧
    exec (step rt) start before = some c ∧ (∀ a ∈ after, a.1 = p → a.2 = .next) ∧
    c.thread p = .rotateQuery attempts r deadline ∧ c.shared.rows.committed () = some s ∧
    s.isLive rt r.now = true ∧ s.classify r = .previousExpired

theorem FoundReuse.append {start : System} {x : ℕ × Action} (h : FoundReuse rt start as p r)
    (hx : x.1 = p → x.2 = .next) : FoundReuse rt start (as ++ [x]) p r := by
  obtain ⟨before, after, c, attempts, deadline, s, rfl, hrun, hnext, hrest⟩ := h
  refine ⟨before, after ++ [x], c, attempts, deadline, s, append_assoc .., hrun, ?_, hrest⟩
  intro y hy
  obtain hy | hy := mem_append.1 hy
  · exact hnext y hy
  · exact mem_singleton.1 hy ▸ hx

section

variable (hpos : 0 ≤ s₀.version)
include hpos

theorem step_extends (hc : c.Rotates rt s₀) (hfresh : c.fresh (p, a))
    (h : step rt c (p, a) = some c') :
    Extends rt s₀ p (c.thread p) c.shared c'.shared (c'.thread p) :=
  perform_extends hc.1 hpos (hc.2 p).own (hc.2 p).chains hfresh (step_eq_some h).1

theorem step_rotates (hc : c.Rotates rt s₀) {x : ℕ × Action} (hfresh : c.fresh x)
    (h : step rt c x = some c') : c'.Rotates rt s₀ := by
  refine step_holds (R := Spares rt) (G := fun _ a w _ ↦ Sessions.fresh w a = true)
    ?_ ?_ hc hfresh h
  · intro p a w stage w' stage' hC hL hfresh hstep
    have hext := perform_extends hC hpos hL.own hL.chains hfresh hstep
    exact ⟨hext.chained, ⟨(perform_rowStep hL.own hstep).own, hext.chains⟩, hext.spares⟩
  · intro p q w w' stage hne hL hspares
    exact ⟨hL.own.stable hne hspares.apart, hL.chains.stable hne hspares⟩

theorem exec_rotates (hc : c.Rotates rt s₀) (hg : Guarded (System.step rt) System.fresh c as)
    (h : exec (step rt) c as = some d) : d.Rotates rt s₀ :=
  exec_invariant (fun _ _ _ hc hfresh hstep ↦ step_rotates hpos hc hfresh hstep) hc hg h

theorem exec_foundReuse (hg : Guarded (System.step rt) System.fresh (System.start now (some s₀)) as)
    (hrun : exec (step rt) (start now (some s₀)) as = some c)
    (hreuse : (c.thread p).reuse = some (r, s)) : FoundReuse rt (start now (some s₀)) as p r := by
  have h := exec_history (P := fun as c ↦ c.Rotates rt s₀ ∧ ∀ p r s,
      (c.thread p).reuse = some (r, s) → FoundReuse rt (start now (some s₀)) as p r)
    ⟨rotates_start, fun p r s hreuse ↦ by cases hreuse⟩ ?_ hg hrun
  · exact h.2 p r s hreuse
  · intro as x t u hrun ⟨ht, hfound⟩ hfresh hstep
    refine ⟨step_rotates hpos ht hfresh hstep, fun p r s hreuse ↦ ?_⟩
    obtain ⟨hperform, hothers⟩ := step_eq_some hstep
    by_cases hp : p = x.1
    · subst hp
      obtain ⟨hnext, hadvance⟩ | ⟨-, -, -, hidle⟩ | ⟨-, hstart⟩ := perform_cases hperform
      · rcases reuse_advanceStage (ht.2 x.1).own hadvance hreuse with
          hold | ⟨attempts, deadline, hquery, hrest⟩
        · exact (hfound _ _ _ hold).append fun _ ↦ hnext
        · refine ⟨as, [x], t, attempts, deadline, s, rfl, hrun, ?_, hquery, hrest⟩
          exact fun y hy _ ↦ mem_singleton.1 hy ▸ hnext
      · rw [hidle] at hreuse
        cases hreuse
      · rw [(startCall_quiet hstart).2] at hreuse
        cases hreuse
    · rw [hothers p hp] at hreuse
      exact (hfound _ _ _ hreuse).append fun heq ↦ absurd heq.symm hp

theorem exec_revoked (hc : c.Rotates rt s₀) (hrevoked : c.shared.Revoked)
    (hg : Guarded (System.step rt) System.fresh c bs) (h : exec (System.step rt) c bs = some d) :
    d.shared.rows.committed () = c.shared.rows.committed () ∧ d.shared.spent = c.shared.spent := by
  obtain ⟨s, hs, hstatus⟩ := hrevoked
  have hinv := exec_invariant (I := fun d ↦ d.Rotates rt s₀ ∧
      d.shared.rows.committed () = some s ∧ d.shared.spent = c.shared.spent)
    ?_ ⟨hc, hs, rfl⟩ hg h
  · exact ⟨hinv.2.1.trans hs.symm, hinv.2.2⟩
  · rintro t ⟨p, a⟩ u ⟨ht, hrow, hspent⟩ hfresh hstep
    refine ⟨step_rotates hpos ht hfresh hstep, ?_, ?_⟩
    · have hchange := (perform_rowStep (ht.2 p).own (step_eq_some hstep).1).change
      exact (hchange.of_revoked hrow hstatus).trans hrow
    · obtain ⟨hsame, -⟩ | ⟨r, row, -, hrow', hlive, -⟩ := (step_extends hpos ht hfresh hstep).chain
      · exact hsame.trans hspent
      · rw [hrow, some.injEq] at hrow'
        have := Session.isLive.active hlive
        rw [← hrow', hstatus] at this
        cases this

end

theorem Won.chain_eq {row : Session} (h : Won p r row w w') (hrow : w.rows.committed () = some row)
    (hcurrent : row.refreshHash = r.presented) : w'.chain s₀ = w.chain s₀ ++ [r.next] := by
  rw [World.chain, World.chain, h.spent, h.row, hrow]
  simp [hcurrent, Session.rotate]

/-- A rotation has one winner, and a replay is detected: in every run with fresh hashes no hash is
accepted twice, the stored hashes are the last two of the chain, a replay after the grace window
leaves the session revoked, a rotation changes the row only when it presents the current hash (which
appends to the chain) or such a replay, and a revoked row is not rotated. -/
theorem rotation_one_winner (hpos : 0 < s₀.version)
    (hg : Guarded (System.step rt) System.fresh (System.start now (some s₀)) as)
    (hrun : exec (step rt) (start now (some s₀)) as = some c) :
    c.shared.log.accepted.Nodup ∧
    (∃ s, c.shared.rows.committed () = some s ∧
      [s.previousRefreshHash, s.refreshHash] <:+ c.shared.chain s₀) ∧
    (∀ p r, c.thread p = .rotateEnd r .previousExpired → c.shared.Revoked) ∧
    (∀ p a c' r, step rt c (p, a) = some c' → (c.thread p).rotation = some r →
      c'.shared.rows.committed () ≠ c.shared.rows.committed () →
      (∃ s, c.shared.rows.committed () = some s ∧ s.refreshHash = r.presented) ∨
        FoundReuse rt (start now (some s₀)) as p r) ∧
    (∀ p a c', c.fresh (p, a) → step rt c (p, a) = some c' →
      c'.shared.chain s₀ = c.shared.chain s₀ ∨ ∃ r, (c.thread p).rotation = some r ∧
        (∃ l, c.shared.chain s₀ = l ++ [r.presented]) ∧
        c'.shared.chain s₀ = c.shared.chain s₀ ++ [r.next]) ∧
    (c.shared.Revoked → ∀ bs d, Guarded (System.step rt) System.fresh c bs →
      exec (step rt) c bs = some d →
      d.shared.rows.committed () = c.shared.rows.committed () ∧ d.shared.spent = c.shared.spent ∧
        ∀ hash ∈ d.shared.log.accepted, hash ∈ c.shared.spent) := by
  have hle : 0 ≤ s₀.version := le_of_lt hpos
  have hc := exec_rotates hle rotates_start hg hrun
  refine ⟨hc.1.accepted.1, ?_, ?_, ?_, ?_, ?_⟩
  · obtain ⟨s, hs, -, ⟨l, hl⟩, -⟩ := hc.1.row
    refine ⟨s, hs, l, ?_⟩
    rw [World.chain, hl, hs]
    simp
  · intro p r hp
    have hchains := (hc.2 p).chains
    rwa [hp] at hchains
  · intro p a c' r hstep hr hne
    have hchange := (perform_rowStep (hc.2 p).own (step_eq_some hstep).1).change
    obtain ⟨row, hrow, -, hcurrent⟩ | ⟨s, hs⟩ := hchange.of_rotation hr hne
    · exact .inl ⟨row, hrow, hcurrent⟩
    · exact .inr (exec_foundReuse hle hg hrun (s := s) (by rw [hs]; rfl))
  · intro p a c' hfresh hstep
    obtain ⟨-, hsame⟩ | ⟨r, row, hr, hrow, -, hcurrent, hwon⟩ :=
      (step_extends hle hc hfresh hstep).chain
    · exact .inl hsame
    · refine .inr ⟨r, hr, ⟨s₀.previousRefreshHash :: c.shared.spent, ?_⟩,
        hwon.chain_eq hrow hcurrent⟩
      rw [World.chain, hrow, ← hcurrent]
      rfl
  · intro hrevoked bs d hgd hd
    obtain ⟨hrow, hspent⟩ := exec_revoked hle hc hrevoked hgd hd
    refine ⟨hrow, hspent, ?_⟩
    exact hspent ▸ (exec_rotates hle hc hgd hd).1.accepted.2

namespace Replay

def session : Session where
  version := 1
  userAuthVersion := 1
  status := .active
  refreshHash := "first"
  lastActiveAt := 900

def minute : Runtime := ⟨1000000, 60, false⟩

/-- Two calls present the first hash: one rotates it, the other comes after the grace window. -/
def calls : List (ℕ × Action) :=
  (1, .rotate ⟨"first", "second", 1000, 10⟩) :: replicate 6 (1, .next) ++
    (2, .rotate ⟨"first", "third", 1020, 10⟩) :: replicate 10 (2, .next)

end Replay

open Replay

theorem rotation_one_winner_replay :
    ∃ c, exec (step minute) (start 1000000000000 (some session))
        calls = some c ∧
      c.shared.log.accepted = ["first"] ∧ c.shared.log.accepted.Nodup ∧ c.shared.Revoked := by
  obtain ⟨c, hrun, hc⟩ := map_eq_some_iff.1
    (show (exec (step minute) (start 1000000000000 (some session))
      calls).map (fun c ↦ (c.shared.log.accepted, c.thread 2)) =
      some (["first"], .rotateEnd ⟨"first", "third", 1020, 10⟩ .previousExpired) by decide +kernel)
  have h := rotation_one_winner (by decide) (by decide +kernel) hrun
  exact ⟨c, hrun, congrArg Prod.fst hc, h.1, h.2.2.1 2 _ (congrArg Prod.snd hc)⟩

end Moligate.Sessions
