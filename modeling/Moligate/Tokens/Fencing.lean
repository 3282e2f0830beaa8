import Moligate.Tokens.Cache
import Moligate.Tokens.Quota

namespace Moligate.Tokens.Cache

open Foundation Option

variable {w w' : World} {key : String} {redisKeyCacheSeconds : ℤ} {write publish : ℕ} {token : Token}
  {m : Mutation} {stage : Stage} {t : ℤ} {fails : Bool} {f : Token → Token} {delta now : ℤ}
  {since : ℕ} {d : ℕ}

def fenceEnd (raisedAt : ℤ) : ℤ := raisedAt + 1000 * tokenCacheFenceSeconds - 1

def Covered (w : World) (t : ℤ) : Prop := ∃ last, w.fence = some ⟨(), some last⟩ ∧ t ≤ last

theorem Covered.mono {t' : ℤ} (h : Covered w t) (hle : t' ≤ t) : Covered w t' := by
  obtain ⟨last, hfence, ht⟩ := h
  exact ⟨last, hfence, le_trans hle ht⟩

theorem Covered.fenced (h : Covered w t) (hle : w.now ≤ t) : w.fenced = true := by
  obtain ⟨last, hfence, ht⟩ := h
  rw [World.fenced, hfence, liveAt_some_of_le (le_trans hle ht)]
  rfl

def Seen (w : World) (since : ℕ) (row : Option Token) : Prop :=
  ∃ i, since ≤ i ∧ w.history[i]? = some row

theorem Seen.mono {row : Option Token} (h : Seen w since row)
    (hhistory : w.history <+: w'.history) : Seen w' since row := by
  obtain ⟨i, hi, hrow⟩ := h
  obtain ⟨later, hlater⟩ := hhistory
  refine ⟨i, hi, ?_⟩
  rw [← hlater, List.getElem?_append_left (List.getElem?_eq_some_iff.1 hrow).1, hrow]

def Answers (w : World) (since : ℕ) : Except TokenError Token → Prop
  | .ok token => Seen w since (some (metadata token))
  | .error .recordNotFound => Seen w since none
  | .error _ => True

theorem Answers.mono {result : Except TokenError Token} (h : Answers w since result)
    (hhistory : w.history <+: w'.history) : Answers w' since result := by
  unfold Answers at h ⊢
  split
  · exact h.mono hhistory
  · exact h.mono hhistory
  · trivial

structure Coherent (key : String) (w : World) : Prop where
  latest : w.history.getLast? = some (w.row.map metadata)
  hash : ∀ token, w.tokenHash = some token → w.row.map metadata = some (metadata token)
  fence : ∀ e, w.fence = some e → ∃ last, e.expiresAt = some last ∧ last ≤ fenceEnd w.now
  key : ∀ token, w.row = some token → token.key = key
  gone : ∀ (i j : ℕ) row, i ≤ j → w.history[i]? = some none → w.history[j]? = some row → row = none

/-- What a step of one call does to the others: the fence only gets longer, nothing is published
under it, and the row only changes under a fence that outlasts the snapshots of the readers. -/
structure Evolves (publish : ℕ) (w w' : World) : Prop where
  now : w.now ≤ w'.now
  history : w.history <+: w'.history
  covered : ∀ t, Covered w t → Covered w' t
  hash : ∀ t, Covered w t → w'.now ≤ t → w.tokenHash = none → w'.tokenHash = none
  row : w'.row.map metadata = w.row.map metadata ∨ Covered w' (w.now + publish)

def Stage.Holds (publish : ℕ) (w : World) : Stage → Prop
  | .delHash _ raisedAt => Covered w (fenceEnd raisedAt)
  | .commit _ (some raisedAt) =>
    Covered w (fenceEnd raisedAt) ∧ (w.now ≤ fenceEnd raisedAt → w.tokenHash = none)
  | .commit _ none => False
  | .lookUp since | .read since => since < w.history.length
  | .init since token readAt => Seen w since (some (metadata token)) ∧ readAt ≤ w.now ∧
      (w.row.map metadata = some (metadata token) ∨ Covered w (readAt + publish))
  | .returned since result => Answers w since result
  | .idle | .setFence _ | .mutated _ => True

theorem Stage.Holds.evolves (h : stage.Holds publish w) (hw : Evolves publish w w') :
    stage.Holds publish w' := by
  cases stage with
  | idle | setFence m | mutated result => trivial
  | delHash m raisedAt => exact hw.covered _ h
  | commit m raisedAt =>
    cases raisedAt with
    | none => exact h
    | some raisedAt =>
      obtain ⟨hcovered, hhash⟩ := h
      refine ⟨hw.covered _ hcovered, fun hnow ↦ ?_⟩
      exact hw.hash _ hcovered hnow (hhash (le_trans hw.now hnow))
  | lookUp | read => exact Nat.lt_of_lt_of_le h hw.history.length_le
  | init since token readAt =>
    obtain ⟨hseen, hread, hrow⟩ := h
    refine ⟨hseen.mono hw.history, le_trans hread hw.now, ?_⟩
    rcases hrow with hrow | hcovered
    · rcases hw.row with hsame | hcovered
      · exact .inl (hsame.trans hrow)
      · exact .inr (hcovered.mono (by omega))
    · exact .inr (hw.covered _ hcovered)
  | returned since result => exact Answers.mono h hw.history

theorem Evolves.refl : Evolves publish w w :=
  ⟨le_rfl, List.prefix_refl _, fun _ h ↦ h, fun _ _ _ h ↦ h, .inl rfl⟩

theorem covered_setFence (h : Coherent key w) (hcovered : Covered w t) : Covered (setFence w) t := by
  obtain ⟨last, hfence, ht⟩ := hcovered
  obtain ⟨last', hlast', hle⟩ := h.fence _ hfence
  cases hlast'
  exact ⟨fenceEnd w.now, rfl, le_trans ht hle⟩

theorem evolves_cacheInitToken :
    Evolves publish w (cacheInitToken w redisKeyCacheSeconds token) := by
  simp only [cacheInitToken]
  split_ifs with hfenced
  · exact .refl
  · have hopen (t : ℤ) (hcovered : Covered w t) (hnow : w.now ≤ t) : False :=
      hfenced (hcovered.fenced hnow)
    split <;>
      exact ⟨le_rfl, List.prefix_refl _, fun _ h ↦ h,
        fun t hcovered hnow _ ↦ (hopen t hcovered hnow).elim, .inl rfl⟩

theorem tokenHash_changeHash {f : Token → Token} :
    (changeHash w f).tokenHash = w.tokenHash.map f := liveAt_mapValue

theorem evolves_changeHash : Evolves publish w (changeHash w f) := by
  refine ⟨le_rfl, List.prefix_refl _, fun _ h ↦ h, fun _ _ _ hnone ↦ ?_, .inl rfl⟩
  rw [tokenHash_changeHash, hnone]
  rfl

theorem map_metadata_persist :
    (persistTokenQuotaDelta w delta now).row.map metadata = w.row.map metadata := by
  rw [persistTokenQuotaDelta, map_map]
  rfl

theorem evolves_persistTokenQuotaDelta : Evolves publish w (persistTokenQuotaDelta w delta now) :=
  ⟨le_rfl, List.prefix_refl _, fun _ h ↦ h, fun _ _ _ h ↦ h, .inl map_metadata_persist⟩

theorem tokenHash_of_le (h : { w with now := w.now + d }.tokenHash = some token) :
    w.tokenHash = some token :=
  liveAt_of_le (by dsimp only; omega) h

theorem evolves_tick : Evolves publish w { w with now := w.now + d } := by
  refine ⟨by dsimp only; omega, List.prefix_refl _, fun _ h ↦ h, fun _ _ _ hnone ↦ ?_, .inl rfl⟩
  rw [eq_none_iff_forall_ne_some] at hnone ⊢
  intro token htoken
  exact hnone token (tokenHash_of_le htoken)

section

variable (h : Coherent key w)
include h

theorem Coherent.setFence : Coherent key (setFence w) where
  latest := h.latest
  hash := h.hash
  fence e he := by
    cases he
    exact ⟨fenceEnd w.now, rfl, le_rfl⟩
  key := h.key
  gone := h.gone

theorem Coherent.delHash : Coherent key (delHash w) :=
  { h with hash := fun _ htoken ↦ nomatch htoken }

theorem Coherent.tick : Coherent key { w with now := w.now + d } where
  latest := h.latest
  hash token htoken := h.hash token (tokenHash_of_le htoken)
  fence e he := by
    obtain ⟨last, hlast, hle⟩ := h.fence e he
    refine ⟨last, hlast, le_trans hle ?_⟩
    unfold fenceEnd
    dsimp only
    omega
  key := h.key
  gone := h.gone

theorem Coherent.changeHash (hf : ∀ token, metadata (f token) = metadata token) :
    Coherent key (changeHash w f) :=
  { h with
    hash := by
      intro token htoken
      rw [tokenHash_changeHash, map_eq_some_iff] at htoken
      obtain ⟨before, hbefore, rfl⟩ := htoken
      rw [hf]
      exact h.hash before hbefore }

theorem Coherent.persistTokenQuotaDelta : Coherent key (persistTokenQuotaDelta w delta now) where
  latest := h.latest.trans (congrArg some map_metadata_persist.symm)
  hash token htoken := map_metadata_persist.trans (h.hash token htoken)
  fence := h.fence
  key token htoken := by
    obtain ⟨before, hbefore, rfl⟩ := map_eq_some_iff.1 htoken
    exact h.key before hbefore
  gone := h.gone

theorem Coherent.commitMutation (hnone : w.tokenHash = none) :
    Coherent key (commitMutation w m) where
  latest := List.getLast?_concat
  hash token htoken := by
    rw [show (Cache.commitMutation w m).tokenHash = none from hnone] at htoken
    cases htoken
  fence := h.fence
  key token htoken := by
    obtain ⟨row, hrow, hm⟩ := bind_eq_some_iff.1 htoken
    rw [← h.key row hrow]
    cases m with
    | update written | selectUpdate written => exact some.inj hm ▸ rfl
    | delete | batchDelete => cases hm
  gone i j row hij hi hj := by
    change (w.history ++ [_])[i]? = _ at hi
    change (w.history ++ [_])[j]? = _ at hj
    rcases Nat.lt_trichotomy j w.history.length with hlt | rfl | hgt
    · rw [List.getElem?_append_left hlt] at hj
      rw [List.getElem?_append_left (by omega)] at hi
      exact h.gone i j row hij hi hj
    · -- the new row comes from the latest one
      rw [List.getElem?_concat_length] at hj
      cases hj
      rcases Nat.lt_or_eq_of_le hij with hlt | rfl
      · rw [List.getElem?_append_left hlt] at hi
        have hlatest := h.latest
        rw [List.getLast?_eq_getElem?] at hlatest
        have hrow := h.gone i _ _ (by omega) hi hlatest
        rw [map_eq_none_iff] at hrow
        rw [hrow]
        rfl
      · rw [List.getElem?_concat_length] at hi
        exact some.inj hi
    · rw [List.getElem?_eq_none (by simp; omega)] at hj
      cases hj

/-- A reader publishes a snapshot that still has the metadata of the row. -/
theorem Coherent.cacheInitToken
    (hrow : w.fenced = false → w.row.map metadata = some (metadata token)) :
    Coherent key (cacheInitToken w redisKeyCacheSeconds token) := by
  have hset {value : Token} {expiresAt : Option ℤ}
      (hvalue : w.row.map metadata = some (metadata value)) :
      Coherent key { w with hash := some ⟨value, expiresAt⟩ } :=
    { h with
      hash := by
        intro token htoken
        obtain ⟨_, heq, -⟩ := liveAt_eq_some.1 htoken
        obtain ⟨rfl, -⟩ := Expiring.mk.inj (some.inj heq)
        exact hvalue }
  simp only [Cache.cacheInitToken]
  split_ifs with hfenced
  · exact h
  · split
    next live hlive => exact hset (h.hash live hlive)
    · refine hset ?_
      rw [show metadata { token with allowIps := token.allowIps.filter (· ≠ "") } = metadata token by
        simp [metadata, filter_filter]]
      exact hrow (Bool.eq_false_iff.2 hfenced)

end

variable {π : Type}

abbrev SafeStep (key : String) (publish : ℕ) (p : π) (w : World) (out : World × Stage) : Prop :=
  Config.Safe (Coherent key) (fun _ w stage ↦ Stage.Holds publish w stage)
    (fun _ ↦ Evolves publish) p w out

variable {since : ℕ} {p : π} {out : World × Stage}

theorem Coherent.seen (h : Coherent key w) (hsince : since < w.history.length) :
    Seen w since (w.row.map metadata) := by
  refine ⟨w.history.length - 1, by omega, ?_⟩
  rw [← List.getLast?_eq_getElem?]
  exact h.latest

theorem safe_lookUp (h : Coherent key w) (hsince : since < w.history.length)
    (hstep : advance key redisKeyCacheSeconds w fails (.lookUp since) = some out) :
    SafeStep key publish p w out := by
  simp only [advance] at hstep
  split at hstep
  next token htoken =>
    cases hstep
    refine ⟨h, ?_, .refl⟩
    have hhash : w.tokenHash = some token := (filter_eq_some_iff.1 htoken).1
    have hrow := h.hash token hhash
    obtain ⟨row, hrow', hmeta⟩ := map_eq_some_iff.1 hrow
    -- the hash does not hold the key, which is that of the row
    have hkey : token.key = key := by
      have hsame : (metadata row).key = (metadata token).key := congrArg Token.key hmeta
      exact hsame.symm.trans (h.key row hrow')
    have hseen := h.seen hsince
    rw [hrow] at hseen
    rw [← hkey]
    exact hseen
  · cases hstep
    exact ⟨h, hsince, .refl⟩

theorem safe_read (h : Coherent key w) (hsince : since < w.history.length)
    (hstep : advance key redisKeyCacheSeconds w fails (.read since) = some out) :
    SafeStep key publish p w out := by
  have hseen := h.seen hsince
  simp only [advance] at hstep
  split_ifs at hstep
  · cases hstep
    exact ⟨h, trivial, .refl⟩
  · split at hstep
    next hrow =>
      cases hstep
      rw [hrow] at hseen
      exact ⟨h, hseen, .refl⟩
    next token hrow =>
      cases hstep
      rw [hrow] at hseen
      refine ⟨h, ⟨hseen, le_rfl, .inl ?_⟩, .refl⟩
      rw [hrow]
      rfl

theorem safe_advance (h : Coherent key w) (hstage : stage.Holds publish w)
    (htimely : Timely write publish w (.next fails) stage)
    (hbound : write + publish < 1000 * tokenCacheFenceSeconds)
    (hstep : advance key redisKeyCacheSeconds w fails stage = some out) :
    SafeStep key publish p w out := by
  cases stage with
  | idle | mutated result | returned since result => exact nomatch hstep
  | setFence m =>
    cases hstep
    exact ⟨h.setFence, ⟨fenceEnd w.now, rfl, le_rfl⟩, le_rfl,
      List.prefix_refl _, fun _ ↦ covered_setFence h, fun _ _ _ hnone ↦ hnone, .inl rfl⟩
  | delHash m raisedAt =>
    cases hstep
    exact ⟨h.delHash, ⟨hstage, fun _ ↦ rfl⟩, le_rfl, List.prefix_refl _, fun _ h ↦ h,
      fun _ _ _ _ ↦ rfl, .inl rfl⟩
  | commit m raisedAt =>
    cases raisedAt with
    | none => exact hstage.elim
    | some raisedAt =>
      obtain ⟨hcovered, hhash⟩ := hstage
      simp only [advance] at hstep
      split_ifs at hstep with hfails
      · cases hstep
        exact ⟨h, trivial, .refl⟩
      · cases hstep
        obtain rfl := Bool.eq_false_iff.2 hfails
        have hnow : w.now ≤ raisedAt + write := htimely
        have hnone : w.tokenHash = none := hhash (by unfold fenceEnd; omega)
        have hle : w.now + publish ≤ fenceEnd raisedAt := by unfold fenceEnd; omega
        exact ⟨h.commitMutation hnone, trivial, le_rfl, List.prefix_append _ _, fun _ h ↦ h,
          fun _ _ _ h ↦ h, .inr (hcovered.mono hle)⟩
  | lookUp since => exact safe_lookUp h hstage hstep
  | read since => exact safe_read h hstage hstep
  | init since token readAt =>
    obtain ⟨hseen, -, hrow⟩ := hstage
    cases hstep
    have hnow : w.now ≤ readAt + publish := by cases fails <;> exact htimely
    have hevolves : Evolves publish w (cacheInitToken w redisKeyCacheSeconds token) :=
      evolves_cacheInitToken
    refine ⟨h.cacheInitToken fun hopen ↦ ?_, hseen.mono hevolves.history, hevolves⟩
    rcases hrow with hrow | hcovered
    · exact hrow
    · exact absurd (hcovered.fenced hnow) (by rw [hopen]; decide)

theorem safe_script (h : Coherent key w) (hstage : stage.Holds publish w)
    (hf : ∀ token, metadata (f token) = metadata token) :
    SafeStep key publish p w (changeHash w f, stage) :=
  ⟨h.changeHash hf, hstage.evolves evolves_changeHash, evolves_changeHash⟩

theorem safe_perform {a : Action} (hkey : key ≠ "") (h : Coherent key w)
    (hstage : stage.Holds publish w) (htimely : Timely write publish w a stage)
    (hbound : write + publish < 1000 * tokenCacheFenceSeconds)
    (hstep : perform key redisKeyCacheSeconds p a w stage = some out) :
    SafeStep key publish p w out := by
  have hstay : SafeStep key publish p w (w, stage) := ⟨h, hstage, .refl⟩
  cases a with
  | next fails => exact safe_advance h hstage htimely hbound hstep
  | tick d =>
    cases hstep
    exact ⟨h.tick, hstage.evolves evolves_tick, evolves_tick⟩
  | reserveScript id x now | deltaScript id x now =>
    cases hstep
    simp only [cacheTryReserveTokenQuota, cacheApplyTokenQuotaDelta]
    split
    · exact hstay
    · split_ifs
      · exact hstay
      · exact safe_script h hstage fun _ ↦ rfl
  | quotaStatement delta now =>
    cases hstep
    exact ⟨h.persistTokenQuotaDelta, hstage.evolves evolves_persistTokenQuotaDelta,
      evolves_persistTokenQuotaDelta⟩
  | mutate m =>
    simp only [perform, begin, if_neg hkey] at hstep
    split_ifs at hstep
    cases hstep
    exact ⟨h, trivial, .refl⟩
  | getTokenByKey fromDB =>
    have hlatest : w.history.length - 1 < w.history.length :=
      Nat.sub_one_lt_of_lt (List.getElem?_eq_some_iff.1 (List.getLast?_eq_getElem? ▸ h.latest)).1
    simp only [perform, begin] at hstep
    split_ifs at hstep <;> cases hstep <;> exact ⟨h, hlatest, .refl⟩

variable [DecidableEq π]

/-- Every call returns a row that was the latest when it started or later, and no row when the
token had been deleted by then. -/
theorem token_reads_follow_mutations {now : ℤ} {row : Option Token} {c : Config World π Stage}
    {actions : List (π × Action)} (hkey : key ≠ "") (hrow : ∀ token ∈ row, token.key = key)
    (hbound : write + publish < 1000 * tokenCacheFenceSeconds)
    (htimely : Guarded (step key redisKeyCacheSeconds)
      (fun c a ↦ Timely write publish c.shared a.2 (c.thread a.1)) (start now row) actions)
    (hrun : exec (step key redisKeyCacheSeconds) (start now row) actions = some c) {p : π} {since : ℕ}
    {result : Except TokenError Token} (hp : c.thread p = .returned since result) :
    Answers c.shared since result ∧
      (c.shared.history[since]? = some none → ∀ token, result ≠ .ok token) := by
  have hstart : Config.Holds (Coherent key) (fun _ w stage ↦ Stage.Holds publish w stage)
      (start now row : Config World π Stage) := by
    refine ⟨⟨rfl, fun _ h ↦ (nomatch h), fun _ h ↦ (nomatch h), hrow, ?_⟩, fun _ ↦ trivial⟩
    intro i j row' hij hi hj
    have hj' : j < 1 := (List.getElem?_eq_some_iff.1 hj).1
    obtain rfl : i = j := by omega
    exact (some.inj (hi.symm.trans hj)).symm
  obtain ⟨hcoherent, hthreads⟩ := Config.exec_safe (R := fun _ ↦ Evolves publish)
    (fun _ _ _ _ _ h hstage htimely hstep ↦ safe_perform hkey h hstage htimely hbound hstep)
    (fun _ _ _ _ _ _ hstage hevolves ↦ hstage.evolves hevolves) hstart htimely hrun
  have hanswers : Answers c.shared since result := by
    have hstage := hthreads p
    rw [hp] at hstage
    exact hstage
  refine ⟨hanswers, ?_⟩
  rintro hdeleted token rfl
  obtain ⟨i, hi, hseen⟩ := hanswers
  exact nomatch hcoherent.gone since i _ hi hdeleted hseen

def Stage.status : Stage → Option TokenStatus
  | .returned _ (.ok token) => some token.status
  | _ => none

/-- A reader reads the enabled token, another call disables it within 2 seconds, and the reader
comes too late to publish what it has read; the next reader takes 3 seconds. -/
def disablingRun : List (Bool × Action) :=
  [(false, .getTokenByKey false), (false, .next false), (false, .next false),
    (true, .mutate (.update { Quota.limitedToken with status := .disabled })),
    (true, .next false), (true, .next false), (true, .tick 2000), (true, .next false),
    (false, .next false), (true, .getTokenByKey false), (true, .next false),
    (true, .next false), (true, .tick 3000), (true, .next false)]

theorem token_reads_follow_disabling :
    ∃ c, exec (step "k" 60) (start 0 (some Quota.limitedToken)) disablingRun = some c ∧
      (c.thread true).status = some .disabled ∧
      ∀ since result, c.thread true = .returned since result → Answers c.shared since result := by
  have hstatus : (exec (step "k" 60) (start 0 (some Quota.limitedToken)) disablingRun).map
      (fun c ↦ (c.thread true).status) = some (some .disabled) := by decide +kernel
  have htimely : Guarded (step "k" 60) (fun c a ↦ Timely 2000 3000 c.shared a.2 (c.thread a.1))
      (start 0 (some Quota.limitedToken)) disablingRun := by decide +kernel
  obtain ⟨c, hrun, hc⟩ := map_eq_some_iff.1 hstatus
  refine ⟨c, hrun, hc, fun since result hp ↦ ?_⟩
  exact (token_reads_follow_mutations (by decide) (fun token htoken ↦ some.inj htoken ▸ rfl)
    (by decide) htimely hrun hp).1

end Moligate.Tokens.Cache
