import Moligate.Foundation.Float64

namespace Moligate.Common

open Foundation Float64

def maxQuota : ℤ := 2147483647
def minQuota : ℤ := -2147483648
def maxInt64 : ℤ := 9223372036854775807
def minInt64 : ℤ := -9223372036854775808

inductive QuotaClampKind where
  | overflow | underflow | nan
  deriving DecidableEq

structure QuotaClamp where
  op : String
  kind : QuotaClampKind
  original : Float64
  clamped : ℤ
  deriving DecidableEq

def saturateQuota (value : Float64) (op : String) : ℤ × Option QuotaClamp :=
  if value.isNaN then (0, some ⟨op, .nan, value, 0⟩)
  else if value.ge maxQuota then (maxQuota, some ⟨op, .overflow, value, maxQuota⟩)
  else if value.le minQuota then (minQuota, some ⟨op, .underflow, value, minQuota⟩)
  else (value.toInt, none)

def strictQuota : ℤ × Option QuotaClamp → Except QuotaClamp ℤ
  | (_, some clamp) => .error clamp
  | (quota, none) => .ok quota

def quotaFromFloatChecked (value : Float64) : ℤ × Option QuotaClamp :=
  saturateQuota value "QuotaFromFloat"

def quotaFromFloatStrict (value : Float64) : Except QuotaClamp ℤ :=
  strictQuota (quotaFromFloatChecked value)

def quotaRoundChecked (value : Float64) : ℤ × Option QuotaClamp :=
  saturateQuota value.roundHalfAway "QuotaRound"

def quotaRoundStrict (value : Float64) : Except QuotaClamp ℤ :=
  strictQuota (quotaRoundChecked value)

def quotaFromDecimalChecked (d : ℚ) : ℤ × Option QuotaClamp :=
  saturateQuota (roundHalfAway (.finite d)) "QuotaFromDecimal"

def quotaFromDecimalStrict (d : ℚ) : Except QuotaClamp ℤ :=
  strictQuota (saturateQuota (roundHalfAway (.finite d)) "QuotaFromDecimal")

variable {value : Float64} {quota : ℤ} {op : String} {x d : ℚ}

theorem quotaFromFloatStrict_eq_ok :
    quotaFromFloatStrict value = .ok quota ↔ quotaFromFloatChecked value = (quota, none) := by
  rw [quotaFromFloatStrict]
  obtain ⟨q, c⟩ := quotaFromFloatChecked value
  cases c <;> simp [strictQuota]

theorem saturateQuota_finite :
    saturateQuota (.finite x) op = (quota, none) ↔
      minQuota < x ∧ x < maxQuota ∧ quota = toInt (.finite x) := by
  simp only [saturateQuota, isNaN, Float64.ge, Float64.le, decide_eq_true_eq,
    Bool.false_eq_true, if_false]
  by_cases hmax : (maxQuota : ℚ) ≤ x
  · simp [hmax, not_lt_of_ge hmax]
  · by_cases hmin : x ≤ minQuota
    · simp [hmax, hmin, not_lt_of_ge hmin]
    · simp [hmax, hmin, lt_of_not_ge hmax, lt_of_not_ge hmin, eq_comm]

theorem quotaFromFloatChecked_finite :
    quotaFromFloatChecked (.finite x) = (quota, none) ↔
      minQuota < x ∧ x < maxQuota ∧ quota = toInt (.finite x) :=
  saturateQuota_finite

theorem quotaFromFloatChecked_toInt (h : quotaFromFloatChecked (.finite x) = (quota, none)) :
    quotaFromFloatChecked (.finite quota) = (quota, none) := by
  obtain ⟨hmin, hmax, rfl⟩ := quotaFromFloatChecked_finite.1 h
  exact quotaFromFloatChecked_finite.2 ⟨Int.cast_lt.2 (lt_toInt (by decide) hmin),
    Int.cast_lt.2 (toInt_lt (by decide) hmax), (toInt_intCast _).symm⟩

/-- A decimal rounded to an integer, half away from zero. -/
def roundDecimal (d : ℚ) : ℤ := (roundHalfAway (.finite d)).toInt

theorem roundDecimal_of_nonneg (hd : 0 ≤ d) : roundDecimal d = ⌊d + 1 / 2⌋ := by
  rw [roundDecimal, roundHalfAway, if_pos hd, toInt_intCast]

theorem roundHalfAway_finite (d : ℚ) : roundHalfAway (.finite d) = .finite (roundDecimal d) := by
  rw [roundDecimal, roundHalfAway, toInt_intCast]

theorem saturateQuota_round (op : String) (hmin : minQuota < roundDecimal d)
    (hmax : roundDecimal d < maxQuota) :
    saturateQuota (roundHalfAway (.finite d)) op = (roundDecimal d, none) := by
  rw [roundHalfAway_finite, saturateQuota_finite]
  exact ⟨Int.cast_lt.2 hmin, Int.cast_lt.2 hmax, (toInt_intCast _).symm⟩

theorem toInt_of_strictQuota
    (h : strictQuota (saturateQuota value op) = .ok quota) : quota = value.toInt := by
  rw [saturateQuota] at h
  split_ifs at h
  iterate 3 exact nomatch h
  · exact (Except.ok.inj h).symm

/-- The quotient of two decimals, to 16 places. -/
def divDecimal (a b : ℚ) : ℚ := roundDecimal (a / b * 10 ^ 16) / 10 ^ 16

end Moligate.Common
