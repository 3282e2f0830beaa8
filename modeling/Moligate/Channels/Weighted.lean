import Moligate.Channels.Routing
import Moligate.Foundation.Weighted

namespace Moligate.Channels

open Foundation List Channel RoutingExample Nat Call

section

/-- The weight that is stored, before its conversion. -/
def Channel.storedWeight (ch : Channel) : ℕ := ch.weight.getD 0

def smoothingOf (weights : List ℕ) : ℕ × ℕ :=
  if ∀ w ∈ weights, w = 0 then (1, 100)
  else if weights.sum / weights.length < 10 then (100, 0)
  else (1, 0)

def effectiveWeight (targets : List Channel) (ch : Channel) : ℕ :=
  ch.storedWeight * (smoothingOf (targets.map storedWeight)).1 +
    (smoothingOf (targets.map storedWeight)).2

variable {targets : List Channel}

theorem int_eq {x : ℤ} (hlow : -2 ^ 63 ≤ x) (hhigh : x < 2 ^ 63) : int x = x :=
  Int.bmod_eq_of_le (by simpa using hlow) (by simpa using hhigh)

theorem getWeight_eq {ch : Channel} (h : ch.storedWeight < 2 ^ 63) :
    ch.getWeight = ch.storedWeight := by
  have hlow : -2 ^ 63 ≤ (ch.storedWeight : ℤ) := by omega
  have hhigh : (ch.storedWeight : ℤ) < 2 ^ 63 := by omega
  exact int_eq hlow hhigh

theorem sumWeight_eq {sum : ℕ} (h : sum + sumWeights storedWeight targets < 2 ^ 63) :
    sumWeight targets sum = (sum + sumWeights storedWeight targets : ℕ) := by
  induction targets generalizing sum with
  | nil => rfl
  | cons ch rest ih =>
    rw [sumWeights_cons] at h
    have hnext : int (sum + ch.getWeight) = (sum + ch.storedWeight : ℕ) := by
      rw [getWeight_eq (by omega), int_eq (by omega) (by omega), cast_add]
    rw [sumWeight, hnext, ih (by omega), sumWeights_cons, add_assoc]

theorem smoothing_of_sum {sum : ℕ} (h : sumWeight targets 0 = sum) :
    smoothing targets = if sum = 0 then ⟨1, 100, int (targets.length * 100)⟩
      else if sum / targets.length < 10 then ⟨100, 0, int (sum * 100)⟩
      else ⟨1, 0, sum⟩ := by
  have hdiv : (sum : ℤ).tdiv targets.length = (sum / targets.length : ℕ) :=
    (Int.ofNat_tdiv sum targets.length).symm
  simp only [smoothing, h, hdiv]
  norm_cast

theorem smoothingOf_eq : smoothingOf (targets.map storedWeight) =
    if sumWeights storedWeight targets = 0 then (1, 100)
    else if sumWeights storedWeight targets / targets.length < 10 then (100, 0) else (1, 0) := by
  rw [smoothingOf, length_map]
  exact if_congr sum_eq_zero_iff.symm rfl rfl

theorem sumWeights_effectiveWeight : sumWeights (effectiveWeight targets) targets =
    sumWeights storedWeight targets * (smoothingOf (targets.map storedWeight)).1 +
      targets.length * (smoothingOf (targets.map storedWeight)).2 :=
  sumWeights_mul_add _ _ targets

theorem smoothingOf_pos (weights : List ℕ) : 0 < (smoothingOf weights).1 := by
  rw [smoothingOf]
  repeat' split
  all_goals decide

theorem sumWeights_effectiveWeight_pos (h : targets ≠ []) :
    0 < sumWeights (effectiveWeight targets) targets := by
  have hlength : 0 < targets.length := length_pos_iff.2 h
  rw [sumWeights_effectiveWeight, smoothingOf_eq]
  repeat' split
  all_goals omega

/-- As long as the sum of the effective weights is an `int`, nothing wraps around. -/
theorem smoothing_eq (h : sumWeights (effectiveWeight targets) targets < 2 ^ 63) :
    smoothing targets =
      ⟨(smoothingOf (targets.map storedWeight)).1,
        (smoothingOf (targets.map storedWeight)).2,
        sumWeights (effectiveWeight targets) targets⟩ := by
  have hsum (hfits : sumWeights storedWeight targets < 2 ^ 63) :
      sumWeight targets 0 = sumWeights storedWeight targets := by
    have hsumWeight := @sumWeight_eq targets 0 (by rwa [zero_add])
    rwa [zero_add] at hsumWeight
  rw [sumWeights_effectiveWeight, smoothingOf_eq] at h ⊢
  split at h
  next hzero =>
    rw [smoothing_of_sum (hsum (by omega)), if_pos hzero, if_pos hzero,
      int_eq (by omega) (by omega), hzero]
    simp
  next hpos =>
    split at h
    next haverage =>
      rw [smoothing_of_sum (hsum (by omega)), if_neg hpos, if_pos haverage, if_neg hpos,
        if_pos haverage, int_eq (by omega) (by omega)]
      simp
    next haverage =>
      rw [smoothing_of_sum (hsum (by omega)), if_neg hpos, if_neg haverage, if_neg hpos,
        if_neg haverage]
      simp

theorem pickByWeight_eq {f a x : ℕ} {total : ℤ} (hx : x < 2 ^ 63)
    (h : sumWeights (fun ch : Channel ↦ ch.storedWeight * f + a) targets < 2 ^ 63) (hf : 0 < f) :
    pickByWeight ⟨f, a, total⟩ targets x =
      weightedPick (fun ch : Channel ↦ ch.storedWeight * f + a) targets x := by
  induction targets generalizing x with
  | nil => rfl
  | cons ch rest ih =>
    rw [sumWeights_cons] at h
    have hle : ch.storedWeight ≤ ch.storedWeight * f := Nat.le_mul_of_pos_right _ hf
    have hcast : ((ch.storedWeight * f : ℕ) : ℤ) = ch.storedWeight * f := cast_mul _ _
    have hmul : int (ch.getWeight * f) = (ch.storedWeight * f : ℕ) := by
      rw [getWeight_eq (by omega), ← hcast, int_eq (by omega) (by omega)]
    have hweight : int (int (ch.getWeight * f) + a) = (ch.storedWeight * f + a : ℕ) := by
      rw [hmul, ← cast_add, int_eq (by omega) (by omega)]
    have hleft : int (x - int (int (ch.getWeight * f) + a)) =
        x - (ch.storedWeight * f + a : ℕ) := by
      rw [hweight, int_eq (by omega) (by omega)]
    simp only [pickByWeight, hleft, weightedPick]
    by_cases hlt : x < ch.storedWeight * f + a
    · rw [if_pos (by omega), if_pos hlt]
    · rw [if_neg (by omega), if_neg hlt, ← Nat.cast_sub (Nat.le_of_not_lt hlt)]
      exact ih (by omega) (by omega)

theorem pick_smoothing (hfits : sumWeights (effectiveWeight targets) targets < 2 ^ 63) {x : ℕ}
    (hx : x < sumWeights (effectiveWeight targets) targets) :
    (if (smoothing targets).totalWeight ≤ 0 then diverges
      else do
        let ch ← required "channel not found"
          (pickByWeight (smoothing targets) targets (x % (smoothing targets).totalWeight))
        pure (some ch)) =
      Call.ok (weightedPick (effectiveWeight targets) targets x) := by
  obtain ⟨ch, -, hpick⟩ := exists_weightedPick hx
  have hvalue : (x : ℤ) % (sumWeights (effectiveWeight targets) targets : ℕ) = x :=
    Int.emod_eq_of_lt (by omega) (by omega)
  rw [smoothing_eq hfits, if_neg (by dsimp only; omega)]
  rw [hvalue, pickByWeight_eq (by omega) hfits (smoothingOf_pos _)]
  change (required _ (weightedPick (effectiveWeight targets) targets x) >>= _) = _
  rw [hpick]
  rfl

end

/-- `q` is the `r + 1`-th highest of the distinct numbers, or the lowest one if there are fewer. -/
def HasRank (numbers : List ℤ) (r : ℕ) (q : ℤ) : Prop :=
  q ∈ numbers ∧ (numbers.toFinset.filter (q < ·)).card = min r (numbers.toFinset.card - 1)

theorem card_greater {sorted : List ℤ} (h : sorted.Pairwise (· > ·)) {k : ℕ}
    (hk : k < sorted.length) : (sorted.toFinset.filter (sorted[k] < ·)).card = k := by
  induction sorted generalizing k with
  | nil => simp at hk
  | cons a rest ih =>
    obtain ⟨hgreater, hrest⟩ := pairwise_cons.1 h
    cases k with
    | zero =>
      rw [Finset.card_eq_zero, Finset.filter_eq_empty_iff]
      intro b hb
      rcases mem_cons.1 (mem_toFinset.1 hb) with rfl | hb
      · exact lt_irrefl _
      · exact not_lt_of_gt (hgreater b hb)
    | succ k =>
      have hk' : k < rest.length := by simpa using hk
      have hlt : rest[k] < a := hgreater _ (getElem_mem hk')
      have hnew : a ∉ rest.toFinset.filter (rest[k] < ·) := fun hmem ↦
        lt_irrefl a (hgreater a (mem_toFinset.1 (Finset.mem_filter.1 hmem).1))
      rw [getElem_cons_succ, toFinset_cons, Finset.filter_insert, if_pos hlt,
        Finset.card_insert_of_notMem hnew, ih hrest hk']

theorem sortedUniquePriorities_pairwise (channels : List Channel) :
    (sortedUniquePriorities channels).Pairwise (· > ·) := by
  have hsorted := pairwise_insertionSort (· ≥ ·) (channels.map getPriority).dedup
  have hnodup : (sortedUniquePriorities channels).Nodup :=
    (perm_insertionSort _ _).nodup_iff.2 (nodup_dedup _)
  refine (hsorted.and hnodup).imp ?_
  rintro a b ⟨hge, hne⟩
  exact lt_of_le_of_ne hge (Ne.symm hne)

theorem mem_sortedUniquePriorities {channels : List Channel} {q : ℤ} :
    q ∈ sortedUniquePriorities channels ↔ q ∈ channels.map getPriority := by
  rw [sortedUniquePriorities, mem_insertionSort, mem_dedup]

theorem targetPriority_eq {channels : List Channel} {retry q : ℤ} (hretry : 0 ≤ retry)
    (hq : HasRank (channels.map getPriority) retry.toNat q) :
    targetPriority (sortedUniquePriorities channels) retry = some q := by
  obtain ⟨hmem, hrank⟩ := hq
  have hpairwise := sortedUniquePriorities_pairwise channels
  have hfinset : (channels.map getPriority).toFinset =
      (sortedUniquePriorities channels).toFinset := by
    ext p
    rw [mem_toFinset, mem_toFinset, mem_sortedUniquePriorities]
  have hcard : (sortedUniquePriorities channels).toFinset.card =
      (sortedUniquePriorities channels).length :=
    toFinset_card_of_nodup (hpairwise.imp fun h ↦ ne_of_gt h)
  -- the place of `q` in the sorted list is the number of greater priorities
  obtain ⟨k, hk, rfl⟩ := getElem_of_mem (mem_sortedUniquePriorities.2 hmem)
  rw [hfinset, card_greater hpairwise hk, hcard] at hrank
  rw [targetPriority]
  by_cases hclamp : retry ≥ (sortedUniquePriorities channels).length
  · have hlast : ((sortedUniquePriorities channels).length - 1 : ℤ).toNat = k := by omega
    rw [if_pos hclamp, if_neg (by omega), hlast, getElem?_eq_getElem hk]
  · have hplace : retry.toNat = k := by omega
    rw [if_neg hclamp, if_neg (by omega), hplace, getElem?_eq_getElem hk]

section

variable (rt : Runtime) (cache : Cache) (group model requestPath : String)

def Cache.Consistent : Prop :=
  ∀ group model, ∀ id ∈ cache.group2model2channels.channels group model,
    ∃ ch, cache.channelsIDM.find id = some ch

def candidateChannels : List Channel :=
  (candidates rt cache group model requestPath).filterMap cache.channelsIDM.find

def targetChannels (priority : ℤ) : List Channel :=
  (candidateChannels rt cache group model requestPath).filter fun ch ↦ ch.getPriority = priority

def returnedId : Call String (Option Channel) → Option ℤ
  | .ok (some ch) => some ch.id
  | _ => none

variable {rt cache group model requestPath} {retry q : ℤ}

theorem lookupAll_eq {ids : List ℤ} (h : ∀ id ∈ ids, ∃ ch, cache.channelsIDM.find id = some ch) :
    cache.lookupAll ids = .ok (ids.filterMap cache.channelsIDM.find) ∧
      (ids.filterMap cache.channelsIDM.find).map Channel.id = ids := by
  induction ids with
  | nil => exact ⟨rfl, rfl⟩
  | cons id ids ih =>
    obtain ⟨ch, hch⟩ := h id mem_cons_self
    obtain ⟨hall, hids⟩ := ih fun id hid ↦ h id (mem_cons_of_mem _ hid)
    have hlookup : cache.lookup id = .ok ch := required_eq_ok.2 hch
    have hid : ch.id = id := Table.key_of_find hch
    rw [Cache.lookupAll, hlookup, hall, filterMap_cons_some hch, map_cons, hid, hids]
    exact ⟨rfl, rfl⟩

theorem Cache.Consistent.candidates (h : cache.Consistent) :
    ∀ id ∈ candidates rt cache group model requestPath,
      ∃ ch, cache.channelsIDM.find id = some ch := by
  intro id hid
  obtain ⟨model', hindexed⟩ := candidates_indexed hid
  exact h group model' id hindexed

theorem targetChannels_ne_nil
    (hq : HasRank ((candidateChannels rt cache group model requestPath).map getPriority)
      retry.toNat q) : targetChannels rt cache group model requestPath q ≠ [] := by
  obtain ⟨ch, hch, hpriority⟩ := mem_map.1 hq.1
  refine ne_nil_of_mem (a := ch) (mem_filter.2 ⟨hch, ?_⟩)
  exact decide_eq_true hpriority

theorem getRandomSatisfiedChannel_eq (hcache : cache.Consistent)
    (htwo : 2 ≤ (candidates rt cache group model requestPath).length) (hretry : 0 ≤ retry)
    (hq : HasRank ((candidateChannels rt cache group model requestPath).map getPriority)
      retry.toNat q)
    (hfits : sumWeights (effectiveWeight (targetChannels rt cache group model requestPath q))
      (targetChannels rt cache group model requestPath q) < 2 ^ 63)
    {x : ℕ} (hx : x < sumWeights (effectiveWeight
      (targetChannels rt cache group model requestPath q))
      (targetChannels rt cache group model requestPath q)) :
    getRandomSatisfiedChannel rt cache group model retry requestPath x =
      .ok (weightedPick (effectiveWeight (targetChannels rt cache group model requestPath q))
        (targetChannels rt cache group model requestPath q) x) := by
  have hne := targetChannels_ne_nil hq
  have hpriority := targetPriority_eq hretry hq
  obtain ⟨hlookup, -⟩ := lookupAll_eq (hcache.candidates : ∀ id ∈ candidates rt cache group model
    requestPath, ∃ ch, cache.channelsIDM.find id = some ch)
  unfold getRandomSatisfiedChannel
  split
  next hids => simp [hids] at htwo
  next hids => simp [hids] at htwo
  rw [hlookup, ok_bind]
  change (ofOption (targetPriority (sortedUniquePriorities (candidateChannels rt cache group
    model requestPath)) retry) >>= _) = _
  rw [hpriority]
  change (check _ (decide (targetChannels rt cache group model requestPath q ≠ [])) >>=
    fun _ ↦ _) = _
  rw [check_eq_ok (u := ()).2 (decide_eq_true hne)]
  exact pick_smoothing hfits hx

end

namespace WeightedExample

def channel (id : ℤ) (weight : ℕ) : Channel :=
  { RoutingExample.channel "gpt-4" with id := id, weight := some weight }

def cache (first second : ℕ) : Cache where
  group2model2channels group :=
    if group = "default" then some fun model ↦ if model = "gpt-4" then [1, 2] else [] else none
  channelsIDM := ⟨[channel 1 first, channel 2 second], by simp [channel]⟩
  channel2advancedCustomConfig _ := none

theorem cache_consistent (first second : ℕ) : (cache first second).Consistent := by
  intro group model id hid
  have hids : id = 1 ∨ id = 2 := by
    by_cases hgroup : group = "default"
    · by_cases hmodel : model = "gpt-4" <;>
        simp_all [Index.channels, cache]
    · simp_all [Index.channels, cache]
  rcases hids with rfl | rfl
  · exact ⟨channel 1 first, rfl⟩
  · exact ⟨channel 2 second, rfl⟩

end WeightedExample

open WeightedExample

end Moligate.Channels
