import Evmos.Library.Dec

/-! How rounded products, quotients, and powers of decimals are ordered, and how far they are off. -/

namespace Library

theorem le_roundDiv (number : ℤ) {divisor : ℤ} (positive : 0 < divisor) :
    2 * number ≤ 2 * (divisor * roundDiv number divisor) + divisor := by
  have whole := Int.mul_ediv_add_emod number divisor
  have remainder := Int.emod_lt_of_pos number positive
  -- A remainder above one half is rounded up, so only a smaller one is lost.
  have up : divisor * (number / divisor + 1) = divisor * (number / divisor) + divisor := by ring
  simp only [roundDiv]
  split_ifs <;> omega

namespace Dec

theorem chopPrecisionAndRound_mono {smaller larger : ℤ} (sign : 0 ≤ smaller)
    (order : smaller ≤ larger) :
    chopPrecisionAndRound smaller ≤ chopPrecisionAndRound larger := by
  rw [chopPrecisionAndRound_of_nonneg sign, chopPrecisionAndRound_of_nonneg (sign.trans order)]
  exact roundDiv_mono precision_pos order

@[simp] theorem mul_one (d : Dec) : d.mul 1 = d := by
  rw [mul, atomics_one, chopPrecisionAndRound_mul_precision]

theorem mul_comm (d e : Dec) : d.mul e = e.mul d := by
  rw [mul, mul, Int.mul_comm]

@[simp] theorem one_mul (d : Dec) : (1 : Dec).mul d = d := by
  rw [mul_comm, mul_one]

theorem mul_le_mul {d e f g : Dec} (sign : 0 ≤ d) (left : d ≤ f) (positive : 0 ≤ e)
    (right : e ≤ g) : d.mul e ≤ f.mul g := by
  -- The exact products are ordered, and rounding keeps the order.
  refine chopPrecisionAndRound_mono (Int.mul_nonneg sign positive) ?_
  exact Int.mul_le_mul left right positive (sign.trans left)

theorem mul_le_of_le_one {d e : Dec} (sign : 0 ≤ d) (positive : 0 ≤ e) (fraction : e ≤ 1) :
    d.mul e ≤ d := by
  calc d.mul e ≤ d.mul 1 := mul_le_mul sign le_rfl positive fraction
    _ = d := mul_one d

theorem quo_le_quo {d f e : Dec} (sign : 0 ≤ d) (order : d ≤ f) (positive : 0 ≤ e) :
    d.quo e ≤ f.quo e := by
  have scaled : ∀ {g : Dec}, 0 ≤ g → 0 ≤ g.atomics * precision * precision := fun {g} sign =>
    Int.mul_nonneg (Int.mul_nonneg sign precision_pos.le) precision_pos.le
  have dividends : d.atomics * precision * precision ≤ f.atomics * precision * precision :=
    Int.mul_le_mul_of_nonneg_right (Int.mul_le_mul_of_nonneg_right order precision_pos.le)
      precision_pos.le
  -- Truncation at thirty-six places and rounding to eighteen both keep the order.
  refine chopPrecisionAndRound_mono (Int.tdiv_nonneg (scaled sign) positive) ?_
  rw [Int.tdiv_eq_ediv_of_nonneg (scaled sign),
    Int.tdiv_eq_ediv_of_nonneg (scaled (sign.trans order))]
  rcases (le_iff.mp positive).eq_or_lt with nothing | divisor
  · simp only [atomics_zero] at nothing
    rw [← nothing, Int.ediv_zero, Int.ediv_zero]
  · exact Int.ediv_le_ediv divisor dividends

section Power

variable {d acc other : Dec}

/-- Beyond the first power the loop squares the base, and multiplies it in at an odd bit. -/
theorem powerLoop_of_more {exponent : ℕ} (more : ¬exponent ≤ 1) :
    powerLoop d acc exponent =
      powerLoop (d.mul d) (if exponent % 2 ≠ 0 then acc.mul d else acc) (exponent / 2) := by
  rw [powerLoop, if_neg more]

theorem powerLoop_le_powerLoop (base : 0 ≤ d) (sign : 0 ≤ acc) (order : acc ≤ other)
    (exponent : ℕ) : powerLoop d acc exponent ≤ powerLoop d other exponent := by
  fun_induction powerLoop d acc exponent generalizing other with
  | case1 d acc exponent last =>
    rw [powerLoop, if_pos last]
    exact mul_le_mul base le_rfl sign order
  | case2 d acc exponent more ih =>
    rw [@powerLoop_of_more d other exponent more]
    -- The two loops take the same squares, and multiply them in at the same bits.
    by_cases odd : exponent % 2 ≠ 0
    · simp only [dif_pos odd, if_pos odd] at ih ⊢
      exact ih (mul_nonneg base base) (mul_nonneg sign base) (mul_le_mul sign order base le_rfl)
    · simp only [dif_neg odd, if_neg odd] at ih ⊢
      exact ih (mul_nonneg base base) sign order

/--
A carry into a new bit gives no more than the bits it clears.

The accumulator holds the product over the bits that were cleared, which is at least the next square.
-/
theorem powerLoop_carry_le (base : 0 ≤ d) (fraction : d ≤ 1) (cleared : d ≤ acc) {exponent : ℕ}
    (positive : 1 ≤ exponent) :
    powerLoop d 1 (exponent + 1) ≤ powerLoop d acc exponent := by
  fun_induction powerLoop d acc exponent with
  | case1 d acc exponent last =>
    -- The last bit is cleared too: the square stands against the product of all bits.
    obtain rfl : exponent = 1 := by omega
    rw [powerLoop, if_neg (by decide), if_neg (by decide), powerLoop, if_pos (by decide), mul_one]
    exact mul_le_mul base le_rfl base cleared
  | case2 d acc exponent more ih =>
    have square : 0 ≤ d.mul d := mul_nonneg base base
    rw [@powerLoop_of_more d 1 (exponent + 1) (by omega)]
    by_cases odd : exponent % 2 ≠ 0
    · -- The carry goes on, and one more bit is cleared.
      have even : ¬(exponent + 1) % 2 ≠ 0 := by omega
      have half : (exponent + 1) / 2 = exponent / 2 + 1 := by omega
      rw [if_neg even, half]
      simp only [dif_pos odd, if_pos odd] at ih ⊢
      exact ih square ((mul_le_of_le_one base base fraction).trans fraction)
        (mul_le_mul base cleared base le_rfl) (by omega)
    · -- The carry ends at a bit that was zero, and both loops go on with the same bits.
      have next : (exponent + 1) % 2 ≠ 0 := by omega
      have half : (exponent + 1) / 2 = exponent / 2 := by omega
      rw [if_pos next, half, one_mul, if_neg odd]
      exact powerLoop_le_powerLoop square base cleared _

/-- The next power of a fraction is not larger, although every product on the way is rounded. -/
theorem power_succ_le (base : 0 ≤ d) (fraction : d ≤ 1) (exponent : ℕ) :
    d.power (exponent + 1) ≤ d.power exponent := by
  rcases Nat.eq_zero_or_pos exponent with rfl | positive
  · -- The first power is the base, which is a fraction.
    rw [power, power, if_neg (by decide), if_pos rfl, powerLoop, if_pos (by decide), mul_one]
    exact fraction
  · rw [power, power, if_neg (by omega), if_neg (by omega)]
    exact powerLoop_carry_le base fraction fraction positive

theorem power_antitone (base : 0 ≤ d) (fraction : d ≤ 1) : Antitone d.power :=
  antitone_nat_of_succ_le (power_succ_le base fraction)

end Power

/-- A truncated ratio is off by less than one unit of the last place. -/
theorem quoInt_atomics_bounds {part whole : ℤ} (sign : 0 ≤ part) (positive : 0 < whole) :
    whole * ((ofInt part).quoInt whole).atomics ≤ part * precision ∧
      part * precision < whole * ((ofInt part).quoInt whole).atomics + whole := by
  -- For positive operands truncation is the floor, so the remainder bounds the error.
  have nonneg : 0 ≤ part * precision := Int.mul_nonneg sign precision_pos.le
  have quotient : ((ofInt part).quoInt whole).atomics = part * precision / whole :=
    Int.tdiv_eq_ediv_of_nonneg nonneg
  have split := Int.mul_ediv_add_emod (part * precision) whole
  have low := Int.emod_nonneg (part * precision) positive.ne'
  have high := Int.emod_lt_of_pos (part * precision) positive
  rw [quotient]
  constructor <;> linarith

theorem quoInt_le_quoInt {part larger whole : ℤ} (sign : 0 ≤ part) (order : part ≤ larger)
    (positive : 0 < whole) : (ofInt part).quoInt whole ≤ (ofInt larger).quoInt whole := by
  -- Both quotients are floors of numerators in the same order.
  show (part * precision).tdiv whole ≤ (larger * precision).tdiv whole
  rw [Int.tdiv_eq_ediv_of_nonneg (Int.mul_nonneg sign precision_pos.le),
    Int.tdiv_eq_ediv_of_nonneg (Int.mul_nonneg (sign.trans order) precision_pos.le)]
  exact Int.ediv_le_ediv positive (Int.mul_le_mul_of_nonneg_right order precision_pos.le)

theorem roundInt_ofInt_mul_le {number : ℤ} (sign : 0 ≤ number) {ratio larger : Dec}
    (low : 0 ≤ ratio) (order : ratio ≤ larger) :
    ((ofInt number).mul ratio).roundInt ≤ ((ofInt number).mul larger).roundInt := by
  -- A whole number is multiplied exactly, so only the last rounding matters, and it is monotone.
  rw [ofInt_mul, ofInt_mul]
  refine chopPrecisionAndRound_mono (Int.mul_nonneg sign low) ?_
  exact Int.mul_le_mul_of_nonneg_left order sign

/-- A fraction of a whole number is rounded by at most one half. -/
theorem roundInt_ofInt_mul_bounds {number : ℤ} (sign : 0 ≤ number) {ratio : Dec}
    (low : 0 ≤ ratio) :
    2 * (number * ratio.atomics) ≤
        2 * (precision * ((ofInt number).mul ratio).roundInt) + precision ∧
      2 * (precision * ((ofInt number).mul ratio).roundInt) ≤
        2 * (number * ratio.atomics) + precision := by
  rw [ofInt_mul, roundInt, chopPrecisionAndRound_of_nonneg (Int.mul_nonneg sign low)]
  exact ⟨le_roundDiv _ precision_pos, roundDiv_le _ precision_pos⟩

end Dec

end Library
