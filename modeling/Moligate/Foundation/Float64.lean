import Mathlib.Data.Rat.Floor

namespace Moligate.Foundation

/-- Values of a binary floating-point format, without the sign of zero. -/
inductive Float64 where
  | nan
  | inf (negative : Bool)
  | finite (q : ℚ)
  deriving DecidableEq

namespace Float64

instance : Inhabited Float64 := ⟨finite 0⟩

def isNaN : Float64 → Bool
  | nan => true
  | _ => false

def isInf : Float64 → Bool
  | inf _ => true
  | _ => false

/-- The ordered comparison `x ≤ q` with a constant; false for a NaN. -/
def le (x : Float64) (q : ℚ) : Bool :=
  match x with
  | nan => false
  | inf negative => negative
  | finite a => a ≤ q

def ge (x : Float64) (q : ℚ) : Bool :=
  match x with
  | nan => false
  | inf negative => !negative
  | finite a => q ≤ a

def gt (x : Float64) (q : ℚ) : Bool :=
  match x with
  | nan => false
  | inf negative => !negative
  | finite a => q < a

/-- The product; `round` takes the exact product of two finite values to the format. -/
def mul (round : ℚ → Float64) : Float64 → Float64 → Float64
  | finite a, finite b => round (a * b)
  | inf s, inf t => inf (s != t)
  | inf s, finite b => if b = 0 then nan else inf (s != decide (b < 0))
  | finite a, inf t => if a = 0 then nan else inf (t != decide (a < 0))
  | nan, _ => nan
  | _, nan => nan

/-- The quotient; a zero divisor is taken as positive. -/
def div (round : ℚ → Float64) : Float64 → Float64 → Float64
  | finite a, finite b => if b = 0 then (if a = 0 then nan else inf (decide (a < 0))) else round (a / b)
  | finite _, inf _ => finite 0
  | inf s, finite b => inf (s != decide (b < 0))
  | inf _, inf _ => nan
  | nan, _ => nan
  | _, nan => nan

def roundHalfAway : Float64 → Float64
  | finite q => finite (if 0 ≤ q then ⌊q + 1 / 2⌋ else -⌊-q + 1 / 2⌋ : ℤ)
  | x => x

def toInt : Float64 → ℤ
  | finite q => q.num.tdiv q.den
  | _ => 0

@[simp]
theorem toInt_intCast (n : ℤ) : toInt (finite n) = n := by
  simp [toInt]

theorem toInt_neg (x : ℚ) : toInt (finite (-x)) = -toInt (finite x) := by
  simp [toInt]

theorem toInt_of_nonneg {x : ℚ} (hx : 0 ≤ x) : toInt (finite x) = ⌊x⌋ := by
  rw [toInt, Rat.floor_def', Int.tdiv_eq_ediv_of_nonneg (Rat.num_nonneg.2 hx)]

theorem toInt_lt {x : ℚ} {m : ℤ} (hm : 0 < m) (hx : x < m) : toInt (finite x) < m := by
  rcases le_total 0 x with h | h
  · rw [toInt_of_nonneg h]
    exact Int.floor_lt.2 hx
  · have hneg : toInt (finite x) = -toInt (finite (-x)) := by rw [toInt_neg, neg_neg]
    have hfloor : (0 : ℤ) ≤ ⌊-x⌋ := Int.floor_nonneg.2 (neg_nonneg.2 h)
    rw [hneg, toInt_of_nonneg (neg_nonneg.2 h)]
    omega

theorem lt_toInt {x : ℚ} {m : ℤ} (hm : m < 0) (hx : (m : ℚ) < x) : m < toInt (finite x) := by
  have hneg : toInt (finite (-x)) < -m :=
    toInt_lt (by omega) (by rw [Int.cast_neg]; exact neg_lt_neg hx)
  rw [toInt_neg] at hneg
  omega

theorem le_toInt {x : ℚ} {m : ℤ} (hm : 0 ≤ m) (hx : (m : ℚ) ≤ x) : m ≤ toInt (finite x) := by
  rw [toInt_of_nonneg (le_trans (Int.cast_nonneg hm) hx)]
  exact Int.le_floor.2 hx

end Float64

variable {p r h n : ℤ}

theorem div_le_of_lt_half (hr : 0 < r) (hlt : (p : ℚ) / r < n + 1 / 2) :
    (p : ℚ) / r ≤ n + 1 / 2 - 1 / (2 * r) := by
  have hr₀ : (0 : ℚ) < r := Int.cast_pos.2 hr
  rw [div_lt_iff₀ hr₀] at hlt
  have hnum : 2 * p < (2 * n + 1) * r := by
    have hcast : (2 * p : ℚ) < (2 * n + 1) * r := by linarith
    exact_mod_cast hcast
  have hnum' : (2 * p + 1 : ℚ) ≤ (2 * n + 1) * r := by exact_mod_cast hnum
  have hright : (n + 1 / 2 - 1 / (2 * r) : ℚ) * r = n * r + r / 2 - 1 / 2 := by field_simp
  rw [div_le_iff₀ hr₀, hright]
  linarith

/-- A quotient has the same nearest integer after it was rounded to a multiple of `1 / (2 * h)`,
if that is finer than its unit `1 / r`. -/
theorem floor_round_add_half (hr : 0 < r) (hh : r < 2 * h) :
    ⌊(round ((p : ℚ) / r * (2 * h)) : ℚ) / (2 * h) + 1 / 2⌋ = ⌊(p : ℚ) / r + 1 / 2⌋ := by
  set n := ⌊(p : ℚ) / r + 1 / 2⌋ with hn
  set y := round ((p : ℚ) / r * (2 * h)) with hy
  obtain ⟨hlow, hhigh⟩ := Int.floor_eq_iff.1 hn.symm
  have hr₀ : (0 : ℚ) < r := Int.cast_pos.2 hr
  have hh₀ : (0 : ℚ) < 2 * h := by exact_mod_cast (by omega : 0 < 2 * h)
  have hbelow : (n - 1 / 2 : ℚ) ≤ y / (2 * h) := by
    -- the half below is itself a multiple, so rounding does not go past it
    have hint : (2 * n - 1) * h ≤ y := by
      rw [hy, round_eq, Int.le_floor]
      push_cast
      nlinarith
    have hcast : ((2 * n - 1) * h : ℚ) ≤ y := by exact_mod_cast hint
    rw [le_div_iff₀ hh₀]
    linarith
  have habove : (y / (2 * h) : ℚ) < n + 1 / 2 := by
    have hquot := div_le_of_lt_half hr (by linarith : (p : ℚ) / r < n + 1 / 2)
    have hgap : (1 : ℚ) / 2 < 1 / (2 * r) * (2 * h) := by
      have hclose : (r : ℚ) < 2 * h := by exact_mod_cast hh
      rw [one_div_mul_eq_div, div_lt_div_iff₀ (by norm_num) (by linarith)]
      linarith
    have hround : (y : ℚ) ≤ (p : ℚ) / r * (2 * h) + 1 / 2 := by
      rw [hy, round_eq]
      exact Int.floor_le _
    rw [div_lt_iff₀ hh₀]
    nlinarith
  exact Int.floor_eq_iff.2 ⟨by linarith, by linarith⟩

end Moligate.Foundation
