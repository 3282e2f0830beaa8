import Mathlib.Algebra.Order.Group.Int
import Mathlib.Data.List.Induction

namespace Moligate.RateLimits

open List Function Option

/-- The times of the accepted calls of each key, the oldest first. -/
abbrev Store := String → Option (List ℤ)

structure World where
  store : Store
  now : ℤ
  /-- All the calls that were accepted. -/
  accepted : String → List ℤ

def clearExpiredItems (expirationDuration : ℤ) (w : World) : Store := fun key ↦
  (w.store key).filter fun queue ↦
    !(queue.getLast?.all fun last ↦ expirationDuration < w.now - last)

def request (store : Store) (now : ℤ) (key : String) (maxRequestNum : ℕ) (duration : ℤ) :
    Store × Bool :=
  match store key with
  | some queue =>
    if queue.length < maxRequestNum then (update store key (some (queue ++ [now])), true)
    else if queue.head?.any fun oldest ↦ duration ≤ now - oldest then
      (update store key (some (queue.tail ++ [now])), true)
    else (store, false)
  | none => (update store key (some [now]), true)

inductive Action
  | tick (seconds : ℕ)
  | request (key : String) (maxRequestNum : ℕ) (duration : ℤ)
  | clearExpiredItems

def step (expirationDuration : ℤ) (w : World) : Action → World
  | .tick seconds => { w with now := w.now + seconds }
  | .request key maxRequestNum duration =>
    let out := request w.store w.now key maxRequestNum duration
    ⟨out.1, w.now, if out.2 then update w.accepted key (w.accepted key ++ [w.now]) else w.accepted⟩
  | .clearExpiredItems => { w with store := clearExpiredItems expirationDuration w }

/-- How many calls were accepted in the last `d` seconds. -/
def recent (accepted : List ℤ) (now d : ℤ) : ℕ := accepted.countP fun t ↦ now - d < t

/-- What is no more in the queue of a key has left the window, too. -/
structure Exact (m : ℕ) (d : ℤ) (queue accepted : List ℤ) (now : ℤ) : Prop where
  kept : ∃ old, accepted = old ++ queue ∧ ∀ t ∈ old, t ≤ now - d
  length : queue.length ≤ m
  sorted : queue.Pairwise (· ≤ ·)
  past : ∀ t ∈ queue, t ≤ now
  within : ∀ s, accepted.countP (fun t ↦ s ≤ t ∧ t < s + d) ≤ m

variable {m : ℕ} {d now expirationDuration : ℤ} {key : String} {queue accepted : List ℤ}
  {w : World} {a : Action}

theorem Exact.recent_eq (h : Exact m d queue accepted now) :
    recent accepted now d = recent queue now d := by
  obtain ⟨old, rfl, hleft⟩ := h.kept
  rw [recent, countP_append, countP_eq_zero.2, Nat.zero_add, recent]
  simpa using hleft

theorem Exact.drop {left rest : List ℤ} (h : Exact m d (left ++ rest) accepted now)
    (hleft : ∀ t ∈ left, t ≤ now - d) : Exact m d rest accepted now := by
  obtain ⟨old, hold, hgone⟩ := h.kept
  have hlength := h.length
  rw [length_append] at hlength
  exact { h with
    kept := ⟨old ++ left, by rw [hold, append_assoc], forall_mem_append.2 ⟨hgone, hleft⟩⟩
    length := by omega
    sorted := (pairwise_append.1 h.sorted).2.1
    past := (forall_mem_append.1 h.past).2 }

theorem Exact.accept (h : Exact m d queue accepted now) (hroom : queue.length < m) :
    recent accepted now d < m ∧ Exact m d (queue ++ [now]) (accepted ++ [now]) now := by
  have hrecent : recent accepted now d < m := by
    rw [h.recent_eq]
    exact countP_le_length.trans_lt hroom
  obtain ⟨old, rfl, hgone⟩ := h.kept
  refine ⟨hrecent, ⟨old, append_assoc .., hgone⟩, by simpa [Nat.succ_le_iff] using hroom,
    ?_, ?_, fun s ↦ ?_⟩
  · exact pairwise_append.2 ⟨h.sorted, pairwise_singleton _ _, by simpa using h.past⟩
  · exact forall_mem_append.2 ⟨h.past, by simp⟩
  · have := h.within s
    rw [countP_append, countP_singleton]
    split
    next hs =>
      -- the interval ends after the new call, so its other calls are recent
      have : countP (fun t ↦ s ≤ t ∧ t < s + d) (old ++ queue) ≤ recent (old ++ queue) now d :=
        countP_mono_left fun t _ ht ↦ by
          simp only [decide_eq_true_eq] at hs ht ⊢
          omega
      omega
    next => omega

theorem Exact.full {oldest : ℤ} {rest : List ℤ} (h : Exact m d (oldest :: rest) accepted now)
    (hm : m ≤ rest.length + 1) (hnew : now - oldest < d) : m ≤ recent accepted now d := by
  rw [h.recent_eq, recent, countP_eq_length.2 ?_, length_cons]
  · exact hm
  · intro t ht
    rcases mem_cons.1 ht with rfl | ht
    · simp
      omega
    · have := rel_of_pairwise_cons h.sorted ht
      simp
      omega

theorem Exact.request {store : Store} (h : Exact m d ((store key).getD []) accepted now)
    (hm : 1 ≤ m) :
    (recent accepted now d < m ∧
      ∃ queue, Exact m d queue (accepted ++ [now]) now ∧
        request store now key m d = (update store key (some queue), true)) ∨
    m ≤ recent accepted now d ∧ request store now key m d = (store, false) := by
  rw [RateLimits.request]
  cases hstore : store key with
  | none =>
    rw [hstore, getD_none] at h
    obtain ⟨hrecent, h'⟩ := h.accept hm
    exact .inl ⟨hrecent, _, h', rfl⟩
  | some queue =>
    rw [hstore, getD_some] at h
    dsimp only
    split
    next hroom =>
      obtain ⟨hrecent, h'⟩ := h.accept hroom
      exact .inl ⟨hrecent, _, h', rfl⟩
    next hfull =>
      have hlength := h.length
      cases queue with
      | nil => exact absurd hm hfull
      | cons oldest rest =>
        rw [length_cons] at hlength hfull
        simp only [head?_cons, any_some, decide_eq_true_eq, tail_cons]
        split
        next hold =>
          have hrest : Exact m d rest accepted now :=
            drop (show Exact m d ([oldest] ++ rest) accepted now from h) (by simp; omega)
          obtain ⟨hrecent, h'⟩ := hrest.accept (by omega)
          exact .inl ⟨hrecent, _, h', rfl⟩
        next hnew => exact .inr ⟨h.full (by omega) (by omega), rfl⟩

theorem request_other {key' : String} (hkey : key ≠ key') (store : Store) :
    (request store now key' m d).1 key = store key := by
  rw [request]
  split
  · split_ifs
    all_goals simp [hkey]
  · simp [hkey]

def World.Exact (w : World) (m : ℕ) (d : ℤ) (key : String) : Prop :=
  RateLimits.Exact m d ((w.store key).getD []) (w.accepted key) w.now

theorem World.Exact.clearExpiredItems (h : w.Exact m d key) (hd : d ≤ expirationDuration) :
    { w with store := clearExpiredItems expirationDuration w }.Exact m d key := by
  dsimp only [World.Exact, RateLimits.clearExpiredItems]
  cases hstore : w.store key with
  | none => simpa [World.Exact, hstore] using h
  | some queue =>
    rw [World.Exact, hstore, getD_some] at h
    rw [filter_some]
    split
    next => exact h
    next hexpired =>
      have hsorted := h.sorted
      rw [← append_nil queue] at h
      refine h.drop fun t ht ↦ ?_
      cases queue using reverseRecOn with
      | nil => cases ht
      | append_singleton queue last =>
        have hle : t ≤ last := by
          rcases mem_append.1 ht with ht | ht
          · exact (pairwise_append.1 hsorted).2.2 t ht last (mem_singleton_self last)
          · exact (mem_singleton.1 ht).le
        simp at hexpired
        omega

theorem World.Exact.step (h : w.Exact m d key) (hm : 1 ≤ m) (hd : d ≤ expirationDuration)
    (ha : ∀ m' d', a = .request key m' d' → m' = m ∧ d' = d) :
    (step expirationDuration w a).Exact m d key := by
  cases a with
  | tick seconds =>
    obtain ⟨old, hold, hleft⟩ := h.kept
    refine { h with kept := ⟨old, hold, fun t ht ↦ ?_⟩, past := fun t ht ↦ ?_ }
    · have := hleft t ht
      dsimp only [RateLimits.step]
      omega
    · have := h.past t ht
      dsimp only [RateLimits.step]
      omega
  | request key' m' d' =>
    by_cases hkey : key = key'
    · subst hkey
      obtain ⟨rfl, rfl⟩ := ha m' d' rfl
      rcases h.request hm with ⟨-, queue, h', heq⟩ | ⟨-, heq⟩
      · simpa [World.Exact, RateLimits.step, heq] using h'
      · simpa [World.Exact, RateLimits.step, heq] using h
    · simp only [World.Exact, RateLimits.step, request_other hkey]
      split
      · rwa [update_of_ne hkey]
      · exact h
  | clearExpiredItems => exact h.clearExpiredItems hd

/-- A call is accepted just when there is room in the window that ends with it, whatever the
cleanup has deleted. -/
theorem limiter_exact {actions : List Action} (hm : 1 ≤ m) (hd : d ≤ expirationDuration)
    (hactions : ∀ m' d', .request key m' d' ∈ actions → m' = m ∧ d' = d) (now : ℤ) :
    let w := actions.foldl (step expirationDuration) ⟨fun _ ↦ none, now, fun _ ↦ []⟩
    ((request w.store w.now key m d).2 ↔ recent (w.accepted key) w.now d < m) ∧
      ∀ s, (w.accepted key).countP (fun t ↦ s ≤ t ∧ t < s + d) ≤ m := by
  intro w
  have hexact : w.Exact m d key := by
    refine foldlRecOn (motive := (World.Exact · m d key)) actions _
      ⟨⟨[], rfl, nofun⟩, Nat.zero_le m, .nil, nofun, by simp⟩ fun w h a ha ↦ h.step hm hd ?_
    rintro m' d' rfl
    exact hactions m' d' ha
  refine ⟨?_, hexact.within⟩
  rcases hexact.request hm with ⟨hroom, _, -, heq⟩ | ⟨hfull, heq⟩
  · simpa only [heq, true_iff] using hroom
  · simpa [heq] using hfull

theorem limiter_exact_shared :
    let w := [.request "a" 1 60, .request "b" 5 10, .tick 59, .clearExpiredItems].foldl (step 60)
      ⟨fun _ ↦ none, 0, fun _ ↦ []⟩
    (request w.store w.now "a" 1 60).2 ↔ recent (w.accepted "a") w.now 60 < 1 :=
  (limiter_exact le_rfl le_rfl (by simp) 0).1

end Moligate.RateLimits
