import Mathlib.Algebra.Order.Field.Power
import Mathlib.Algebra.Order.Round
import Mathlib.Data.Rat.Floor
import Mathlib.Order.WithBot
import Mathlib.Tactic.FieldSimp
import Mathlib.Tactic.Linarith
import Mathlib.Tactic.Positivity
import Mathlib.Tactic.Ring
import WorkerPool.Binary64

/-!
The numbers that doubles stand for.

`Binary64.value` reads sign, exponent and fraction of a pattern; patterns without a sign are in the
order of their numbers. `Rounds` says what the nearest whole number is.
-/
namespace WorkerPool

/-- The rational numbers and the infinities. -/
abbrev Extended := WithBot (WithTop ℚ)

namespace Extended

def finite (x : ℚ) : Extended := WithBot.some (WithTop.some x)

variable {x y : ℚ}

theorem finite_le_finite : finite x ≤ finite y ↔ x ≤ y :=
  WithBot.coe_le_coe.trans WithTop.coe_le_coe

theorem finite_lt_finite : finite x < finite y ↔ x < y :=
  WithBot.coe_lt_coe.trans WithTop.coe_lt_coe

theorem finite_injective : Function.Injective finite :=
  fun _ _ h => WithTop.coe_injective (WithBot.coe_injective h)

theorem finite_ne_top : finite x ≠ ⊤ := fun h => WithTop.coe_ne_top (WithBot.coe_injective h)

end Extended

namespace Binary64

/-- The hidden bit is there unless the exponent field is zero. -/
def significand (field fraction : ℕ) : ℕ := (if field = 0 then 0 else 2 ^ 52) + fraction

/-- What the last bit of the significand counts for. -/
def unit (field : ℕ) : ℚ := 2 ^ (max (field : ℤ) 1 - 1075)

/-- The number that a pattern without a sign stands for, below infinity. -/
def magnitude (pattern : ℕ) : ℚ :=
  significand (pattern / 2 ^ 52) (pattern % 2 ^ 52) * unit (pattern / 2 ^ 52)

/-- The number that a double stands for, unless it is none. -/
def value (bits : UInt64) : Option Extended :=
  let negative := 2 ^ 63 ≤ bits.toNat
  let field := bits.toNat / 2 ^ 52 % 2 ^ 11
  let fraction := bits.toNat % 2 ^ 52
  if field = 2 ^ 11 - 1 then
    if fraction = 0 then some (if negative then ⊥ else ⊤) else none
  else
    let x : ℚ := significand field fraction * unit field
    some (.finite (if negative then -x else x))

/-! ### The order of patterns -/

theorem unit_pos (field : ℕ) : 0 < unit field := by
  unfold unit
  positivity

theorem unit_succ (field : ℕ) :
    unit (field + 1) = if field = 0 then unit 0 else 2 * unit field := by
  unfold unit
  split
  · next h => simp [h]
  · next h =>
    rw [show max ((field + 1 : ℕ) : ℤ) 1 - 1075 = 1 + (max (field : ℤ) 1 - 1075) by omega,
      zpow_add₀ two_ne_zero, zpow_one]

/-- The largest significand stands for less than the smallest one of the next exponent. -/
theorem significand_lt_next (field : ℕ) : significand field (2 ^ 52 - 1) * unit field <
    significand (field + 1) 0 * unit (field + 1) := by
  have pos := unit_pos field
  rw [unit_succ]
  unfold significand
  split
  · next h =>
    subst h
    exact mul_lt_mul_of_pos_right (by norm_num) pos
  · rw [← mul_assoc]
    exact mul_lt_mul_of_pos_right (by norm_num) pos

theorem magnitude_strictMono : StrictMono magnitude := by
  refine strictMono_nat_of_lt_succ fun pattern => ?_
  unfold magnitude
  by_cases h : pattern % 2 ^ 52 + 1 < 2 ^ 52
  · rw [show (pattern + 1) / 2 ^ 52 = pattern / 2 ^ 52 by omega,
      show (pattern + 1) % 2 ^ 52 = pattern % 2 ^ 52 + 1 by omega]
    exact mul_lt_mul_of_pos_right (by exact_mod_cast Nat.lt_succ_self _) (unit_pos _)
  · rw [show (pattern + 1) / 2 ^ 52 = pattern / 2 ^ 52 + 1 by omega,
      show (pattern + 1) % 2 ^ 52 = 0 by omega,
      show pattern % 2 ^ 52 = 2 ^ 52 - 1 by omega]
    exact significand_lt_next _

theorem magnitude_nonneg (pattern : ℕ) : 0 ≤ magnitude pattern :=
  mul_nonneg (Nat.cast_nonneg _) (unit_pos _).le

/-- Mantissa and exponent of a pattern make up its number. -/
theorem decode_magnitude (pattern : ℕ) :
    ((decode pattern).1 : ℚ) * 2 ^ (decode pattern).2 = magnitude pattern := by
  simp only [decode, Nat.shiftRight_eq_div_pow, Nat.one_shiftLeft, magnitude, significand, unit]
  split
  · next h => simp [h]
  · next h =>
    rw [show max ((pattern / 2 ^ 52 : ℕ) : ℤ) 1 = (pattern / 2 ^ 52 : ℕ) by omega, Nat.add_comm]

theorem decode_lt (pattern : ℕ) : (decode pattern).1 < 2 ^ 53 := by
  simp only [decode, Nat.one_shiftLeft]
  split <;> simp only <;> omega

/-! ### Numbers of patterns -/

section value

variable {bits : UInt64}

/-- A pattern with a sign stands for no positive number. -/
theorem value_of_sign (h : 2 ^ 63 ≤ bits.toNat) {x : Extended} (hx : value bits = some x) :
    x ≤ .finite 0 := by
  simp only [value, h, if_true] at hx
  split at hx
  · split at hx
    · cases hx
      exact bot_le
    · cases hx
  · cases hx
    have := unit_pos (bits.toNat / 2 ^ 52 % 2 ^ 11)
    rw [Extended.finite_le_finite, neg_nonpos]
    positivity

theorem value_of_lt (h : bits.toNat < infinity) :
    value bits = some (.finite (magnitude bits.toNat)) := by
  simp only [infinity, Nat.shiftLeft_eq] at h
  have hfield : bits.toNat / 2 ^ 52 % 2 ^ 11 = bits.toNat / 2 ^ 52 := by omega
  simp only [value, hfield, magnitude]
  rw [if_neg (by omega), if_neg (by omega)]

theorem value_infinity (h : bits.toNat = infinity) : value bits = some ⊤ := by
  simp [value, h, infinity]

theorem value_nan (h : infinity < bits.toNat) (hs : bits.toNat < 2 ^ 63) : value bits = none := by
  simp only [infinity, Nat.shiftLeft_eq] at h
  simp only [value]
  rw [if_pos (by omega), if_neg (by omega)]

end value

end Binary64

/-! ### Nearest whole numbers -/

/-- The number `d` is the nearest whole one to `x`, and even if there are two. -/
structure Rounds (x : ℚ) (d : ℕ) : Prop where
  nearest : ∀ n : ℤ, |x - d| ≤ |x - n|
  even : ∀ n : ℤ, n ≠ d → |x - n| = |x - d| → Even d

namespace Rounds

variable {x y : ℚ} {d d' : ℕ}

/-- Whole numbers are one apart, so it is enough to be within a half. -/
theorem of_half (near : |x - d| ≤ 1 / 2) (tie : |x - d| = 1 / 2 → Even d) : Rounds x d := by
  have far (n : ℤ) (hn : n ≠ d) : 1 / 2 ≤ |x - n| := by
    have apart : (1 : ℚ) ≤ |(n : ℚ) - d| := by
      exact_mod_cast Int.one_le_abs (sub_ne_zero.mpr hn)
    have : |(n : ℚ) - d| ≤ |x - n| + |x - d| := by
      rw [abs_sub_comm x n]
      exact abs_sub_le _ _ _
    linarith
  refine ⟨fun n => ?_, fun n hn he => tie (le_antisymm near (he ▸ far n hn))⟩
  by_cases hn : n = d
  · simp [hn]
  · exact near.trans (far n hn)

theorem half (h : Rounds x d) : |x - d| ≤ 1 / 2 := (h.nearest _).trans (abs_sub_round x)

theorem tie (h : Rounds x d) (ht : |x - d| = 1 / 2) : Even d := by
  rcases (abs_eq (by norm_num : (0 : ℚ) ≤ 1 / 2)).mp ht with hx | hx
  · refine h.even (d + 1) (by omega) ?_
    rw [ht, show x - ((d + 1 : ℤ) : ℚ) = -(1 / 2) by push_cast; linarith]
    norm_num
  · refine h.even (d - 1) (by omega) ?_
    rw [ht, show x - ((d - 1 : ℤ) : ℚ) = 1 / 2 by push_cast; linarith]
    norm_num

theorem natCast (d : ℕ) : Rounds d d := of_half (by simp) (by norm_num)

theorem mono (h : Rounds x d) (h' : Rounds y d') (hxy : x ≤ y) : d ≤ d' := by
  by_contra hlt
  have near := abs_le.mp h.half
  have near' := abs_le.mp h'.half
  have next : (d' : ℚ) + 1 ≤ d := by exact_mod_cast Nat.lt_of_not_le hlt
  -- Both numbers lie half way between two whole ones, and these are even.
  have even := h.tie ((abs_eq (by norm_num)).mpr (.inr (by linarith)))
  have even' := h'.tie ((abs_eq (by norm_num)).mpr (.inl (by linarith)))
  have : d = d' + 1 := by
    have : (d : ℚ) = d' + 1 := by linarith
    exact_mod_cast this
  rw [this, Nat.even_add_one] at even
  exact even even'

end Rounds

theorem Binary64.rounds_quotient (num : ℕ) {den : ℕ} (hd : 0 < den) :
    Rounds ((num : ℚ) / den) (roundQuotient num den) := by
  have hd' : (0 : ℚ) < den := by exact_mod_cast hd
  have hr : ((num % den : ℕ) : ℚ) < den := by exact_mod_cast Nat.mod_lt _ hd
  have hr₀ : (0 : ℚ) ≤ ((num % den : ℕ) : ℚ) / den := by positivity
  have parts : (num : ℚ) / den = (num / den : ℕ) + (num % den : ℕ) / den := by
    have : (den : ℚ) * (num / den : ℕ) + (num % den : ℕ) = num := by
      exact_mod_cast Nat.div_add_mod num den
    field_simp
    linarith
  simp only [roundQuotient]
  rw [parts]
  split
  · next h =>
    have below : ((num % den : ℕ) : ℚ) / den ≤ 1 / 2 := by
      have : (2 : ℚ) * (num % den : ℕ) ≤ den := by exact_mod_cast (by omega : 2 * (num % den) ≤ den)
      rw [div_le_div_iff₀ hd' two_pos]
      linarith
    refine .of_half ?_ fun ht => ?_
    · rwa [add_sub_cancel_left, abs_of_nonneg hr₀]
    · rw [add_sub_cancel_left, abs_of_nonneg hr₀, div_eq_div_iff hd'.ne' two_ne_zero] at ht
      have : num % den * 2 = 1 * den := by exact_mod_cast ht
      exact Nat.even_iff.mpr (by omega)
  · next h =>
    have above : 1 / 2 ≤ ((num % den : ℕ) : ℚ) / den := by
      have : (den : ℚ) ≤ 2 * (num % den : ℕ) := by exact_mod_cast (by omega : den ≤ 2 * (num % den))
      rw [div_le_div_iff₀ two_pos hd']
      linarith
    have below : ((num % den : ℕ) : ℚ) / den < 1 := (div_lt_one hd').mpr hr
    have gap : |((num / den : ℕ) + ((num % den : ℕ) : ℚ) / den) - ((num / den + 1 : ℕ) : ℚ)| =
        1 - ((num % den : ℕ) : ℚ) / den := by
      rw [abs_sub_comm, abs_of_nonneg (by push_cast; linarith)]
      push_cast
      ring
    refine .of_half ?_ fun ht => ?_
    · rw [gap]
      linarith
    · rw [gap] at ht
      have half : ((num % den : ℕ) : ℚ) / den = 1 / 2 := by linarith
      rw [div_eq_div_iff hd'.ne' two_ne_zero] at half
      have : num % den * 2 = 1 * den := by exact_mod_cast half
      exact Nat.even_iff.mpr (by omega)

end WorkerPool
