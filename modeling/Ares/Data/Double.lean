import Mathlib.Algebra.Order.Round
import Mathlib.Data.Int.Log
import Mathlib.Data.Rat.Floor
import Mathlib.Tactic.FieldSimp
import Mathlib.Tactic.Linarith
import Mathlib.Tactic.Positivity
import Mathlib.Tactic.Ring

/-! The division of two numbers as doubles: the double nearest to the quotient, of two the one with an
even last digit.  Rounded up to a whole number it may be one less than the quotient rounded up. -/

namespace Data

/-- The whole number nearest to `x`, of two the even one. -/
def roundHalfEven (x : ℚ) : ℤ :=
  if x - ⌊x⌋ < 1 / 2 ∨ (x - ⌊x⌋ = 1 / 2 ∧ Even ⌊x⌋) then ⌊x⌋ else ⌊x⌋ + 1

/-- The exponent of the last digit of a double of the size of `x`: 53 digits, and no digit below the
least double. -/
def lastPlace (x : ℚ) : ℤ := max (Int.log 2 x - 52) (-1074)

/-- The distance of the doubles next to `x`. -/
def spacing (x : ℚ) : ℚ := 2 ^ lastPlace x

/-- The double nearest to `x`, while it is in range. -/
def nearestDouble (x : ℚ) : ℚ := roundHalfEven (x / spacing x) * spacing x

def doubleBound : ℚ := 2 ^ 1024

/-- `math.ceil(a / b)`; `none` is the exception for a quotient out of range and for `b = 0`. -/
def ceilQuotient (a b : ℕ) : Option ℕ :=
  if b ≠ 0 ∧ nearestDouble (a / b) < doubleBound then some ⌈nearestDouble (a / b)⌉₊ else none

/-- The whole number below `x` that is not `x` itself. -/
def below (x : ℚ) : ℤ := ⌈x⌉ - 1

/-- The doubles tell `x` from the whole number below it: while they are not further apart than whole
numbers, `x` is past the middle between that number and the next double; else the number above `x` is
a double. -/
def Resolved (x : ℚ) : Prop :=
  if spacing x ≤ 1 then
    spacing x / 2 < x - below x ∨ (spacing x = 1 ∧ x - below x = 1 / 2 ∧ Even ⌈x⌉)
  else ∃ k : ℤ, (⌈x⌉ : ℚ) = k * spacing x

variable {x : ℚ} {k n : ℤ}

theorem spacing_pos (x : ℚ) : 0 < spacing x := zpow_pos (by norm_num) _

/-! ### Rounding -/

theorem lt_roundHalfEven_iff : k < roundHalfEven x ↔
    1 / 2 < x - k ∨ (x - k = 1 / 2 ∧ ¬Even k) := by
  have hfloor := Int.floor_le x
  have hlt := Int.lt_floor_add_one x
  rw [roundHalfEven]
  rcases lt_trichotomy k ⌊x⌋ with h | rfl | h
  · have hcast : (k : ℚ) + 1 ≤ ⌊x⌋ := by exact_mod_cast h
    refine iff_of_true ?_ (.inl (by linarith))
    split <;> omega
  · split
    · next hdown =>
      refine iff_of_false (lt_irrefl _) ?_
      rintro (hup | ⟨heq, hodd⟩)
      · rcases hdown with hdown | ⟨heq, -⟩ <;> linarith
      · rcases hdown with hdown | ⟨-, heven⟩
        · linarith
        · exact hodd heven
    · next hup =>
      refine iff_of_true (by omega) ?_
      rw [not_or, not_and, not_lt] at hup
      rcases eq_or_lt_of_le hup.1 with heq | hlt
      · exact .inr ⟨heq.symm, hup.2 heq.symm⟩
      · exact .inl hlt
  · have hcast : (⌊x⌋ : ℚ) + 1 ≤ k := by exact_mod_cast h
    refine iff_of_false ?_ ?_
    · split <;> omega
    · rintro (hup | ⟨heq, -⟩) <;> linarith

theorem roundHalfEven_le (h : x ≤ n) : roundHalfEven x ≤ n := by
  by_contra hlt
  rcases lt_roundHalfEven_iff.mp (not_le.mp hlt) with hup | ⟨heq, -⟩ <;> linarith

theorem le_roundHalfEven (h : (n : ℚ) ≤ x) : n ≤ roundHalfEven x := by
  have hlt : n - 1 < roundHalfEven x := lt_roundHalfEven_iff.mpr (.inl (by push_cast; linarith))
  omega

/-! ### The quotient rounded up -/

theorem below_lt (x : ℚ) : (below x : ℚ) < x := by
  have := Int.ceil_lt_add_one x
  rw [below]
  push_cast
  linarith

theorem spacing_eq (x : ℚ) : (∃ j : ℕ, spacing x * 2 ^ j = 1) ∨ ∃ j : ℕ, spacing x = 2 * 2 ^ j := by
  rcases le_or_gt (lastPlace x) 0 with h | h
  · left
    obtain ⟨j, hj⟩ := Int.eq_ofNat_of_zero_le (neg_nonneg.mpr h)
    refine ⟨j, ?_⟩
    rw [spacing, ← zpow_natCast, ← zpow_add₀ (by norm_num), ← hj, add_neg_cancel, zpow_zero]
  · right
    obtain ⟨j, hj⟩ := Int.eq_ofNat_of_zero_le (show 0 ≤ lastPlace x - 1 by omega)
    refine ⟨j, ?_⟩
    rw [spacing, ← zpow_natCast, ← hj, ← zpow_one_add₀ (by norm_num)]
    congr 1
    ring

/-- Where the doubles are as close as whole numbers or closer, whole numbers are doubles, and the
nearest double lies between those around `x`. -/
theorem ceil_nearest_of_fine {j : ℕ} (hj : spacing x * 2 ^ j = 1) :
    ⌈nearestDouble x⌉ = ⌈x⌉ ↔
      spacing x / 2 < x - below x ∨ (spacing x = 1 ∧ x - below x = 1 / 2 ∧ Even ⌈x⌉) := by
  have hpos := spacing_pos x
  have hscale : ∀ m : ℤ, (m : ℚ) = (m * 2 ^ j : ℤ) * spacing x := by
    intro m
    push_cast
    rw [mul_assoc, mul_comm _ (spacing x), hj, mul_one]
  have hupper : nearestDouble x ≤ ⌈x⌉ := by
    have hround : roundHalfEven (x / spacing x) ≤ ⌈x⌉ * 2 ^ j := by
      refine roundHalfEven_le ?_
      rw [div_le_iff₀ hpos, ← hscale]
      exact Int.le_ceil x
    rw [nearestDouble, hscale ⌈x⌉]
    exact mul_le_mul_of_nonneg_right (by exact_mod_cast hround) hpos.le
  have hgap : x / spacing x - (below x * 2 ^ j : ℤ) = (x - below x) / spacing x := by
    rw [eq_div_iff hpos.ne', sub_mul, div_mul_cancel₀ _ hpos.ne', ← hscale]
  have habove : ⌈nearestDouble x⌉ = ⌈x⌉ ↔ below x * 2 ^ j < roundHalfEven (x / spacing x) := by
    have hceil : ⌈nearestDouble x⌉ ≤ ⌈x⌉ := Int.ceil_le.mpr hupper
    rw [show (⌈nearestDouble x⌉ = ⌈x⌉) ↔ below x < ⌈nearestDouble x⌉ by rw [below]; omega,
      Int.lt_ceil, nearestDouble, hscale (below x), mul_lt_mul_iff_left₀ hpos]
    exact_mod_cast Iff.rfl
  rw [habove, lt_roundHalfEven_iff, hgap, lt_div_iff₀ hpos, div_eq_iff hpos.ne']
  refine or_congr (by rw [one_div_mul_eq_div]) ?_
  cases j with
  | zero =>
    rw [pow_zero, mul_one] at hj
    rw [hj, pow_zero, mul_one, mul_one, below, Int.even_sub_one, not_not]
    simp
  | succ j =>
    have heven : Even (below x * 2 ^ (j + 1)) := ⟨below x * 2 ^ j, by ring⟩
    refine iff_of_false (fun h => h.2 heven) ?_
    rintro ⟨hone, -⟩
    rw [hone, one_mul] at hj
    exact absurd hj (one_lt_pow₀ (by norm_num) (Nat.succ_ne_zero j)).ne'

theorem ceil_nearest_of_coarse {j : ℕ} (hj : spacing x = 2 * 2 ^ j) :
    ⌈nearestDouble x⌉ = ⌈x⌉ ↔ ∃ k : ℤ, (⌈x⌉ : ℚ) = k * spacing x := by
  have hpos := spacing_pos x
  have hwhole : nearestDouble x = (roundHalfEven (x / spacing x) * (2 * 2 ^ j) : ℤ) := by
    rw [nearestDouble, hj]
    push_cast
    ring
  constructor
  · intro h
    refine ⟨roundHalfEven (x / spacing x), ?_⟩
    rw [← h, hwhole, Int.ceil_intCast, hj]
    push_cast
    ring
  · rintro ⟨k, hk⟩
    have hle : x / spacing x ≤ k := (div_le_iff₀ hpos).mpr (hk ▸ Int.le_ceil x)
    have htwo : 2 ≤ spacing x := by
      have := one_le_pow₀ (n := j) (show (1 : ℚ) ≤ 2 by norm_num)
      linarith
    have hlt : k - 1 / 2 < x / spacing x := by
      rw [lt_div_iff₀ hpos]
      have := Int.ceil_lt_add_one x
      nlinarith
    have hround : roundHalfEven (x / spacing x) = k := by
      have hup : k - 1 < roundHalfEven (x / spacing x) :=
        lt_roundHalfEven_iff.mpr (.inl (by push_cast; linarith))
      have := roundHalfEven_le hle
      omega
    rw [nearestDouble, hround, ← hk, Int.ceil_intCast]

theorem ceil_nearest_iff (x : ℚ) : ⌈nearestDouble x⌉ = ⌈x⌉ ↔ Resolved x := by
  rw [Resolved]
  rcases spacing_eq x with ⟨j, hj⟩ | ⟨j, hj⟩
  · have hle : spacing x ≤ 1 := by
      have := one_le_pow₀ (n := j) (show (1 : ℚ) ≤ 2 by norm_num)
      have := spacing_pos x
      nlinarith
    rw [if_pos hle]
    exact ceil_nearest_of_fine hj
  · have hlt : ¬spacing x ≤ 1 := by
      have := one_le_pow₀ (n := j) (show (1 : ℚ) ≤ 2 by norm_num)
      linarith
    rw [if_neg hlt]
    exact ceil_nearest_of_coarse hj

theorem nearestDouble_nonneg (h : 0 ≤ x) : 0 ≤ nearestDouble x := by
  have hround : (0 : ℤ) ≤ roundHalfEven (x / spacing x) :=
    le_roundHalfEven (by exact_mod_cast div_nonneg h (spacing_pos x).le)
  exact mul_nonneg (by exact_mod_cast hround) (spacing_pos x).le

theorem ceilQuotient_eq_iff {a b n : ℕ} (h : ceilQuotient a b = some n) :
    n = ⌈(a / b : ℚ)⌉₊ ↔ Resolved (a / b : ℚ) := by
  have hx : (0 : ℚ) ≤ a / b := div_nonneg a.cast_nonneg b.cast_nonneg
  rw [ceilQuotient] at h
  split at h
  · rw [← Option.some.inj h, ← ceil_nearest_iff, ← Int.ceil_toNat, ← Int.ceil_toNat]
    have hnear := Int.ceil_nonneg (nearestDouble_nonneg hx)
    have hquot := Int.ceil_nonneg hx
    omega
  · cases h

theorem resolved_of_lt {a b : ℕ} (hb : 0 < b) (hb' : b ≤ 65536) (ha : a < 2 ^ 53) :
    Resolved (a / b : ℚ) := by
  have hbpos : (0 : ℚ) < b := by exact_mod_cast hb
  have hsector : (b : ℚ) ≤ 65536 := by exact_mod_cast hb'
  have hgap : (1 / b : ℚ) ≤ a / b - below (a / b : ℚ) := by
    have hlt : (below (a / b : ℚ) * b : ℚ) < a := (lt_div_iff₀ hbpos).mp (below_lt _)
    have hle : (below (a / b : ℚ) * b + 1 : ℚ) ≤ a := by exact_mod_cast hlt
    rw [div_le_iff₀ hbpos, sub_mul, div_mul_cancel₀ _ hbpos.ne']
    linarith
  have hspacing : spacing (a / b : ℚ) / 2 < 1 / b := by
    rcases Nat.eq_zero_or_pos a with rfl | hapos
    · have hzero : spacing ((0 : ℕ) / b : ℚ) = 2 ^ (-52 : ℤ) := by
        rw [Nat.cast_zero, zero_div, spacing, lastPlace, Int.log_zero_right]
        norm_num
      rw [hzero, lt_div_iff₀ hbpos]
      norm_num
      linarith
    · have hx : (0 : ℚ) < a / b := by positivity
      have hlow : (-16 : ℤ) ≤ Int.log 2 (a / b : ℚ) := by
        rw [← Int.zpow_le_iff_le_log (by norm_num) hx, le_div_iff₀ hbpos]
        have hone : (1 : ℚ) ≤ a := by exact_mod_cast hapos
        norm_num
        linarith
      have hlast : lastPlace (a / b : ℚ) = Int.log 2 (a / b : ℚ) - 52 := max_eq_left (by omega)
      have hlog : (2 : ℚ) ^ Int.log 2 (a / b : ℚ) ≤ a / b := by
        exact_mod_cast Int.zpow_log_le_self (b := 2) (by norm_num) hx
      have hsize : (a : ℚ) < 9007199254740992 := by exact_mod_cast ha
      rw [spacing, hlast, zpow_sub₀ (by norm_num), lt_div_iff₀ hbpos]
      have hmul : (2 : ℚ) ^ Int.log 2 (a / b : ℚ) * b ≤ a := (le_div_iff₀ hbpos).mp hlog
      norm_num
      linarith
  rcases spacing_eq (a / b : ℚ) with ⟨j, hj⟩ | ⟨j, hj⟩
  · exact (ceil_nearest_iff _).mp ((ceil_nearest_of_fine hj).mpr (.inl (hspacing.trans_le hgap)))
  · have hone : (1 / b : ℚ) ≤ 1 := (div_le_one hbpos).mpr (by exact_mod_cast hb)
    have := one_le_pow₀ (n := j) (show (1 : ℚ) ≤ 2 by norm_num)
    linarith

end Data
