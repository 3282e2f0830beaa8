import Mathlib.Algebra.Order.Floor.Div
import Mathlib.Tactic.Linarith

namespace Moligate.RateLimits.TokenBucket

open List

structure Bucket where
  (tokens lastTime : ℤ)

/-- The numbers of the script are exact for a capacity of at most `2 ^ 53`. -/
def script (requested rate capacity now : ℤ) (bucket : Option Bucket) : Bucket × Bool :=
  let tokens := match bucket with
    | none => capacity
    | some bucket => min capacity (bucket.tokens + (now - bucket.lastTime) * rate)
  if requested ≤ tokens then (⟨tokens - requested, now⟩, true) else (⟨tokens, now⟩, false)

structure World where
  now : ℤ
  bucket : Option Bucket := none
  /-- The times of the requests. -/
  (admitted rejected : List ℤ := [])

/-- The next request, `gap` seconds after the one before. -/
def World.allow (N d : ℕ) (w : World) (gap : ℕ) : World :=
  let now := w.now + gap
  let (bucket, allowed) := script d N (N * d) now w.bucket
  { now, bucket
    admitted := if allowed then now :: w.admitted else w.admitted
    rejected := if allowed then w.rejected else now :: w.rejected }

def World.tokens (N d : ℕ) (w : World) : ℤ := (w.bucket.map (·.tokens)).getD (N * d)

/-- A token that was spent since `s` was there at `s` or came afterwards. -/
structure Bounded (N d : ℕ) (w : World) : Prop where
  current : ∀ bucket ∈ w.bucket, bucket.lastTime = w.now
  nonneg : 0 ≤ w.tokens N d
  le : w.tokens N d ≤ N * d
  past : ∀ t ∈ w.admitted, t ≤ w.now
  since : ∀ s ≤ w.now, d * w.admitted.countP (s ≤ ·) + w.tokens N d ≤ N * d + N * (w.now - s)
  within : ∀ (s : ℤ) (L : ℕ),
    d * w.admitted.countP (fun t ↦ s ≤ t ∧ t ≤ s + L) ≤ N * d + N * L

variable {N d : ℕ} {gaps : List ℕ} {w : World}

/-- What a request finds in the bucket. -/
def World.level (N d : ℕ) (w : World) (gap : ℕ) : ℤ := min (N * d) (w.tokens N d + gap * N)

theorem Bounded.allow_eq (h : Bounded N d w) (gap : ℕ) :
    w.allow N d gap =
      if d ≤ w.level N d gap then
        ⟨w.now + gap, some ⟨w.level N d gap - d, w.now + gap⟩, (w.now + gap) :: w.admitted,
          w.rejected⟩
      else
        ⟨w.now + gap, some ⟨w.level N d gap, w.now + gap⟩, w.admitted,
          (w.now + gap) :: w.rejected⟩ := by
  cases hbucket : w.bucket with
  | none =>
    have hlevel : w.level N d gap = N * d := by
      simp only [World.level, World.tokens, hbucket]
      exact min_eq_left (by simp; positivity)
    simp only [World.allow, script, hbucket, hlevel]
    split <;> rfl
  | some b =>
    have hlevel : w.level N d gap =
        min (N * d : ℤ) (b.tokens + (w.now + gap - b.lastTime) * N) := by
      simp [World.level, World.tokens, hbucket, h.current b hbucket]
    simp only [World.allow, script, hbucket, ← hlevel]
    split <;> rfl

theorem Bounded.allow (h : Bounded N d w) (gap : ℕ) : Bounded N d (w.allow N d gap) := by
  have hlevel : w.level N d gap ≤ N * d := min_le_left _ _
  have hnonneg : 0 ≤ w.level N d gap := le_min (by positivity) (by have := h.nonneg; positivity)
  have hrefill : w.level N d gap ≤ w.tokens N d + gap * N := min_le_right _ _
  have hsince (s : ℤ) (hs : s ≤ w.now + gap) :
      d * w.admitted.countP (s ≤ ·) + w.level N d gap ≤ N * d + N * (w.now + gap - s) := by
    rcases le_or_gt s w.now with hle | hgt
    · have := h.since s hle
      linarith
    · have hzero : w.admitted.countP (s ≤ ·) = 0 := countP_eq_zero.2 fun t ht ↦ by
        have := h.past t ht
        simp
        omega
      have : 0 ≤ (N : ℤ) * (w.now + gap - s) := mul_nonneg (by positivity) (by omega)
      rw [hzero]
      push_cast
      linarith
  have hpast (t : ℤ) (ht : t ∈ w.admitted) : t ≤ w.now + gap := (h.past t ht).trans (by simp)
  rw [h.allow_eq]
  split
  next hallowed =>
    have hspent (s : ℤ) (hs : s ≤ w.now + gap) :
        d * ((w.now + gap) :: w.admitted).countP (s ≤ ·) + (w.level N d gap - d) ≤
          N * d + N * (w.now + gap - s) := by
      have := hsince s hs
      rw [countP_cons_of_pos (by simpa using hs)]
      push_cast
      linarith
    refine ⟨by simp, ?_, ?_, ?_, hspent, fun s L ↦ ?_⟩
    · simp [World.tokens]
      omega
    · simp [World.tokens]
      omega
    · simpa using hpast
    · by_cases hin : s ≤ w.now + gap ∧ w.now + gap ≤ s + L
      · have hmono : ((w.now + gap) :: w.admitted).countP (fun t ↦ s ≤ t ∧ t ≤ s + L) ≤
            ((w.now + gap) :: w.admitted).countP (s ≤ ·) :=
          countP_mono_left fun t _ ht ↦ by simp_all
        have hL : (N : ℤ) * (w.now + gap - s) ≤ N * L := by gcongr; omega
        have := hspent s hin.1
        refine (Nat.mul_le_mul_left d hmono).trans ?_
        zify
        linarith
      · rw [countP_cons_of_neg (by simpa using hin)]
        exact h.within s L
  next hrejected =>
    exact ⟨by simp, hnonneg, hlevel, hpast, hsince, h.within⟩

/-- With such gaps the bucket is full again at every request. -/
theorem never_rejected (hN : 1 ≤ N) (hgaps : ∀ gap ∈ gaps, d ⌈/⌉ N ≤ gap) (h : Bounded N d w)
    (hfull : N * d - d ≤ w.tokens N d) :
    (gaps.foldl (World.allow N d) w).rejected = w.rejected := by
  induction gaps generalizing w with
  | nil => rfl
  | cons gap gaps ih =>
    have hgap : (d : ℤ) ≤ gap * N := by
      have := (ceilDiv_le_iff_le_mul hN).1 (hgaps gap mem_cons_self)
      zify at this
      linarith
    have hlevel : w.level N d gap = N * d := min_eq_left (by linarith)
    have hd : (d : ℤ) ≤ N * d := by
      have : (1 : ℤ) ≤ N := by exact_mod_cast hN
      nlinarith
    have heq := h.allow_eq gap
    rw [hlevel, if_pos hd] at heq
    rw [foldl_cons, ih (fun gap hgap ↦ hgaps gap (mem_cons_of_mem _ hgap)) (h.allow gap)]
    · rw [heq]
    · rw [heq]
      rfl

end Moligate.RateLimits.TokenBucket
