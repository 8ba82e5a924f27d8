import Mathlib

/-! Fixed-point decimals of eighteen places, rounded half to even. -/

namespace Library

/-- Division of a nonnegative number rounded to the nearest integer, a tie to the even one. -/
def roundDiv (number divisor : ℤ) : ℤ :=
  let quotient := number / divisor
  let remainder := number % divisor
  if 2 * remainder < divisor then quotient
  else if divisor < 2 * remainder then quotient + 1
  else if quotient % 2 = 0 then quotient
  else quotient + 1

variable {divisor : ℤ}

@[simp] theorem roundDiv_mul_self (number : ℤ) (positive : 0 < divisor) :
    roundDiv (number * divisor) divisor = number := by
  simp [roundDiv, positive, positive.ne']

theorem roundDiv_mono {smaller larger : ℤ} (positive : 0 < divisor) (order : smaller ≤ larger) :
    roundDiv smaller divisor ≤ roundDiv larger divisor := by
  have quotients := Int.ediv_le_ediv positive order
  have splitS := Int.mul_ediv_add_emod smaller divisor
  have splitL := Int.mul_ediv_add_emod larger divisor
  rcases quotients.lt_or_eq with below | same
  · -- A smaller quotient is at most rounded up to the larger one.
    simp only [roundDiv]
    split_ifs <;> omega
  · -- With the same quotient, the smaller remainder is not rounded further.
    rw [← same] at splitL
    have remainders : smaller % divisor ≤ larger % divisor := by linarith
    simp only [roundDiv, ← same]
    split_ifs <;> omega

theorem roundDiv_nonneg {number : ℤ} (positive : 0 < divisor) (sign : 0 ≤ number) :
    0 ≤ roundDiv number divisor := by
  calc 0 = roundDiv (0 * divisor) divisor := (roundDiv_mul_self 0 positive).symm
    _ ≤ roundDiv number divisor := roundDiv_mono positive (by simpa using sign)

/-- Rounding adds at most one half. -/
theorem roundDiv_le (number : ℤ) (positive : 0 < divisor) :
    2 * (divisor * roundDiv number divisor) ≤ 2 * number + divisor := by
  have whole := Int.mul_ediv_add_emod number divisor
  have remainder := Int.emod_nonneg number positive.ne'
  -- Rounding up adds one divisor, and happens only from one half of it on.
  have up : divisor * (number / divisor + 1) = divisor * (number / divisor) + divisor := by ring
  simp only [roundDiv]
  split_ifs <;> omega

/-- What is at most one half rounds to zero, a tie since zero is even. -/
theorem roundDiv_eq_zero_iff {number : ℤ} (positive : 0 < divisor) (sign : 0 ≤ number) :
    roundDiv number divisor = 0 ↔ 2 * number ≤ divisor := by
  have whole := Int.mul_ediv_add_emod number divisor
  have remainder := Int.emod_nonneg number positive.ne'
  have quotient := Int.ediv_nonneg sign positive.le
  simp only [roundDiv]
  rcases quotient.eq_or_lt with none | some
  · -- Below the divisor, the number is its own remainder.
    rw [← none, mul_zero, zero_add] at whole
    rw [← none, whole]
    split_ifs <;> omega
  · -- From the divisor on, the quotient is at least one.
    have below : divisor * 1 ≤ divisor * (number / divisor) :=
      Int.mul_le_mul_of_nonneg_left some positive.le
    split_ifs <;> omega

/-- A decimal of eighteen places. -/
@[ext] structure Dec where
  /-- The number of units of the last place. -/
  atomics : ℤ
  deriving DecidableEq, Repr

namespace Dec

/-- The units of the last place in one. -/
def precision : ℤ := 1000000000000000000

theorem precision_pos : 0 < precision := by decide

instance : LinearOrder Dec :=
  LinearOrder.lift' Dec.atomics fun _ _ => Dec.ext

instance : Zero Dec := ⟨⟨0⟩⟩
instance : One Dec := ⟨⟨precision⟩⟩
instance : Add Dec := ⟨fun d e => ⟨d.atomics + e.atomics⟩⟩
instance : Sub Dec := ⟨fun d e => ⟨d.atomics - e.atomics⟩⟩

/-- An integer as a decimal. -/
def ofInt (number : ℤ) : Dec := ⟨number * precision⟩

/-- An integer of units of the given decimal place, at most the eighteenth. -/
def ofIntWithPrec (number : ℤ) (place : ℕ) : Dec := ⟨number * 10 ^ (18 - place)⟩

/-- Drops eighteen places, rounding half to even away from neither sign. -/
def chopPrecisionAndRound (number : ℤ) : ℤ :=
  if number < 0 then -roundDiv (-number) precision else roundDiv number precision

/-- The rounded product. -/
def mul (d e : Dec) : Dec := ⟨chopPrecisionAndRound (d.atomics * e.atomics)⟩

/-- The exact product with an integer. -/
def mulInt (d : Dec) (number : ℤ) : Dec := ⟨d.atomics * number⟩

/-- The quotient, truncated at thirty-six places and then rounded to eighteen. -/
def quo (d e : Dec) : Dec :=
  ⟨chopPrecisionAndRound ((d.atomics * precision * precision).tdiv e.atomics)⟩

/-- The quotient by an integer, truncated toward zero. -/
def quoInt (d : Dec) (number : ℤ) : Dec := ⟨d.atomics.tdiv number⟩

/-- The integer part, truncated toward zero. -/
def truncateInt (d : Dec) : ℤ := d.atomics.tdiv precision

/-- The nearest integer, a tie to the even one. -/
def roundInt (d : Dec) : ℤ := chopPrecisionAndRound d.atomics

/-- The loop of `power`: the accumulator collects the odd bits, from the lowest upwards. -/
def powerLoop (d acc : Dec) (exponent : ℕ) : Dec :=
  if exponent ≤ 1 then d.mul acc
  else powerLoop (d.mul d) (if exponent % 2 ≠ 0 then acc.mul d else acc) (exponent / 2)
termination_by exponent

/-- The power by repeated squaring, every product rounded. -/
def power (d : Dec) (exponent : ℕ) : Dec :=
  if exponent = 0 then 1 else powerLoop d 1 exponent

/-- The decimal written out with all eighteen places. -/
def toString (d : Dec) : String :=
  let digits := d.atomics.natAbs
  let fraction := (digits % precision.natAbs).repr
  (if d.atomics < 0 then "-" else "") ++ (digits / precision.natAbs).repr ++ "." ++
    String.ofList (List.replicate (18 - fraction.length) '0') ++ fraction

@[simp] theorem atomics_zero : (0 : Dec).atomics = 0 := rfl
@[simp] theorem atomics_one : (1 : Dec).atomics = precision := rfl
@[simp] theorem atomics_add (d e : Dec) : (d + e).atomics = d.atomics + e.atomics := rfl
@[simp] theorem atomics_sub (d e : Dec) : (d - e).atomics = d.atomics - e.atomics := rfl
@[simp] theorem atomics_ofInt (number : ℤ) : (ofInt number).atomics = number * precision := rfl

instance : Neg Dec := ⟨fun d => ⟨-d.atomics⟩⟩

instance : AddCommGroup Dec where
  add_assoc d e f := Dec.ext (add_assoc d.atomics e.atomics f.atomics)
  zero_add d := Dec.ext (zero_add d.atomics)
  add_zero d := Dec.ext (add_zero d.atomics)
  add_comm d e := Dec.ext (add_comm d.atomics e.atomics)
  neg_add_cancel d := Dec.ext (neg_add_cancel d.atomics)
  sub_eq_add_neg d e := Dec.ext (sub_eq_add_neg d.atomics e.atomics)
  nsmul := nsmulRec
  zsmul := zsmulRec

instance : IsOrderedAddMonoid Dec where
  add_le_add_left _ _ order e := Int.add_le_add_right order e.atomics

variable {d ratio : Dec} {number : ℤ}

theorem le_iff {e : Dec} : d ≤ e ↔ d.atomics ≤ e.atomics := Iff.rfl

theorem chopPrecisionAndRound_of_nonneg (sign : 0 ≤ number) :
    chopPrecisionAndRound number = roundDiv number precision :=
  if_neg (not_lt.mpr sign)

@[simp] theorem chopPrecisionAndRound_mul_precision (number : ℤ) :
    chopPrecisionAndRound (number * precision) = number := by
  unfold chopPrecisionAndRound
  -- A negative number is rounded by its absolute value.
  split_ifs with negative
  · rw [← Int.neg_mul, roundDiv_mul_self (-number) precision_pos, neg_neg]
  · exact roundDiv_mul_self number precision_pos

theorem chopPrecisionAndRound_nonneg (sign : 0 ≤ number) : 0 ≤ chopPrecisionAndRound number := by
  rw [chopPrecisionAndRound_of_nonneg sign]
  exact roundDiv_nonneg precision_pos sign

theorem mul_nonneg {e : Dec} (left : 0 ≤ d) (right : 0 ≤ e) : 0 ≤ d.mul e :=
  chopPrecisionAndRound_nonneg (Int.mul_nonneg left right)

theorem quo_nonneg {e : Dec} (left : 0 ≤ d) (right : 0 ≤ e) : 0 ≤ d.quo e := by
  have dividend : 0 ≤ d.atomics * precision * precision :=
    Int.mul_nonneg (Int.mul_nonneg left precision_pos.le) precision_pos.le
  exact chopPrecisionAndRound_nonneg (Int.tdiv_nonneg dividend right)

/-- Repeated squaring keeps a nonnegative base and accumulator nonnegative. -/
theorem powerLoop_nonneg {acc : Dec} (base : 0 ≤ d) (collected : 0 ≤ acc) (exponent : ℕ) :
    0 ≤ powerLoop d acc exponent := by
  fun_induction powerLoop d acc exponent with
  | case1 d acc exponent last => exact mul_nonneg base collected
  | case2 d acc exponent more ih =>
    refine ih (mul_nonneg base base) ?_
    -- The base is multiplied into the accumulator at odd exponents.
    split_ifs
    · exact mul_nonneg collected base
    · exact collected

theorem power_nonneg (base : 0 ≤ d) (exponent : ℕ) : 0 ≤ d.power exponent := by
  unfold power
  split_ifs
  · exact precision_pos.le
  · exact powerLoop_nonneg base precision_pos.le exponent

@[simp] theorem zero_quo (d : Dec) : (0 : Dec).quo d = 0 := by
  rw [quo, atomics_zero, Int.zero_mul, Int.zero_mul, Int.zero_tdiv]
  rfl

/-- A quotient of integers that eighteen places can hold is not rounded. -/
theorem quo_ofInt {divisor quotient : ℤ} (nonzero : divisor ≠ 0)
    (exactly : quotient * divisor = number * precision) :
    (ofInt number).quo (ofInt divisor) = ⟨quotient⟩ := by
  -- The divisor cancels before anything is truncated.
  have scaled : number * precision * precision * precision =
      quotient * precision * (divisor * precision) := by
    rw [← exactly]
    ring
  have divides : divisor * precision ≠ 0 := Int.mul_ne_zero nonzero precision_pos.ne'
  rw [quo, atomics_ofInt, atomics_ofInt, scaled, Int.mul_tdiv_cancel _ divides,
    chopPrecisionAndRound_mul_precision]

@[simp] theorem mul_zero (d : Dec) : d.mul 0 = 0 := by
  rw [mul, atomics_zero, Int.mul_zero]
  rfl

/-- Rounding a product adds at most one half of the last place. -/
theorem mul_atomics_le {e : Dec} (left : 0 ≤ d) (right : 0 ≤ e) :
    2 * (precision * (d.mul e).atomics) ≤ 2 * (d.atomics * e.atomics) + precision := by
  rw [mul, chopPrecisionAndRound_of_nonneg (Int.mul_nonneg left right)]
  exact roundDiv_le _ precision_pos

/-- Rounding a quotient adds at most one half of the last place. -/
theorem quo_atomics_le {e : Dec} (left : 0 ≤ d) (right : 0 < e) :
    2 * (e.atomics * (d.quo e).atomics) ≤ 2 * (d.atomics * precision) + e.atomics := by
  have divisor : 0 < e.atomics := right
  have dividend : 0 ≤ d.atomics * precision * precision :=
    Int.mul_nonneg (Int.mul_nonneg left precision_pos.le) precision_pos.le
  have rounded := roundDiv_le (d.atomics * precision * precision / e.atomics) precision_pos
  have truncated := Int.mul_ediv_self_le
    (x := d.atomics * precision * precision) (k := e.atomics) divisor.ne'
  rw [quo, Int.tdiv_eq_ediv_of_nonneg dividend,
    chopPrecisionAndRound_of_nonneg (Int.ediv_nonneg dividend divisor.le)]
  -- Both bounds hold up to the common factor of the precision.
  refine le_of_mul_le_mul_left ?_ precision_pos
  nlinarith

/-- A part of a target, times the slope that reaches a height at the target, stays at the height. -/
theorem mul_quo_le {part target height : Dec} (low : 0 ≤ part) (within : part ≤ target)
    (positive : 0 < target) (fraction : target ≤ 1) (sign : 0 ≤ height) :
    part.mul (height.quo target) ≤ height + ⟨1⟩ := by
  have slope := quo_nonneg sign positive.le
  have product := mul_atomics_le low slope
  have quotient := quo_atomics_le sign positive
  have order : part.atomics * (height.quo target).atomics ≤
      target.atomics * (height.quo target).atomics := Int.mul_le_mul_of_nonneg_right within slope
  have whole : target.atomics ≤ precision := fraction
  -- The two roundings together add less than two halves of the last place.
  show (part.mul (height.quo target)).atomics ≤ height.atomics + 1
  refine le_of_mul_le_mul_left ?_ precision_pos
  linarith

theorem ofInt_mul (number : ℤ) (d : Dec) : (ofInt number).mul d = ⟨number * d.atomics⟩ := by
  have places : number * precision * d.atomics = number * d.atomics * precision := by ring
  rw [mul, atomics_ofInt, places, chopPrecisionAndRound_mul_precision]

theorem roundInt_bounds (sign : 0 ≤ number) (low : 0 ≤ ratio) (high : ratio ≤ 1) :
    0 ≤ ((ofInt number).mul ratio).roundInt ∧ ((ofInt number).mul ratio).roundInt ≤ number := by
  have low : 0 ≤ ratio.atomics := low
  have high : ratio.atomics ≤ precision := high
  have product : 0 ≤ number * ratio.atomics := Int.mul_nonneg sign low
  rw [ofInt_mul, roundInt, chopPrecisionAndRound_of_nonneg product]
  constructor
  · exact roundDiv_nonneg precision_pos product
  · -- Rounding is monotone, and leaves whole numbers as they are.
    calc roundDiv (number * ratio.atomics) precision
        ≤ roundDiv (number * precision) precision :=
          roundDiv_mono precision_pos (Int.mul_le_mul_of_nonneg_left high sign)
      _ = number := roundDiv_mul_self number precision_pos

/-- A decimal rounds to zero when it is at most one half away from it. -/
theorem roundInt_eq_zero_iff : d.roundInt = 0 ↔ 2 * |d.atomics| ≤ precision := by
  unfold roundInt chopPrecisionAndRound
  split_ifs with negative
  · rw [neg_eq_zero, abs_of_neg negative]
    exact roundDiv_eq_zero_iff precision_pos (neg_nonneg.mpr negative.le)
  · rw [abs_of_nonneg (not_lt.mp negative)]
    exact roundDiv_eq_zero_iff precision_pos (not_lt.mp negative)

theorem truncateInt_ofInt_mul (sign : 0 ≤ number) (low : 0 ≤ ratio) :
    ((ofInt number).mul ratio).truncateInt = number * ratio.atomics / precision := by
  have product : 0 ≤ number * ratio.atomics := Int.mul_nonneg sign (le_iff.mp low)
  rw [ofInt_mul, truncateInt]
  exact Int.tdiv_eq_ediv_of_nonneg product

theorem truncateInt_le (sign : 0 ≤ number) (low : 0 ≤ ratio) (high : ratio ≤ 1) :
    ((ofInt number).mul ratio).truncateInt ≤ number := by
  rw [truncateInt_ofInt_mul sign low]
  refine Int.ediv_le_of_le_mul precision_pos ?_
  exact Int.mul_le_mul_of_nonneg_left (le_iff.mp high) sign

/-- Truncating each fraction loses no less than truncating their sum. -/
theorem sum_truncateInt_le (sign : 0 ≤ number) (ratios : List Dec)
    (low : ∀ ratio ∈ ratios, 0 ≤ ratio) :
    (ratios.map fun ratio => ((ofInt number).mul ratio).truncateInt).sum ≤
      ((ofInt number).mul ratios.sum).truncateInt := by
  induction ratios with
  | nil =>
    rw [List.map_nil, List.sum_nil, List.sum_nil, truncateInt_ofInt_mul sign le_rfl]
    simp
  | cons ratio ratios ih =>
    obtain ⟨first, rest⟩ := List.forall_mem_cons.mp low
    have sum : 0 ≤ ratios.sum := List.sum_nonneg rest
    have tail := ih rest
    rw [truncateInt_ofInt_mul sign sum] at tail
    rw [List.map_cons, List.sum_cons, List.sum_cons, truncateInt_ofInt_mul sign first,
      truncateInt_ofInt_mul sign (add_nonneg first sum), atomics_add, Int.mul_add]
    -- The remainders of both parts may carry one more unit into the quotient of the sum.
    calc number * ratio.atomics / precision + _
        ≤ number * ratio.atomics / precision + number * ratios.sum.atomics / precision :=
          Int.add_le_add_left tail _
      _ ≤ (number * ratio.atomics + number * ratios.sum.atomics) / precision := by
          refine Int.le_ediv_of_mul_le precision_pos ?_
          rw [Int.add_mul]
          exact Int.add_le_add (Int.ediv_mul_le _ precision_pos.ne')
            (Int.ediv_mul_le _ precision_pos.ne')

theorem quoInt_bounds {part whole : ℤ} (sign : 0 ≤ part) (bounded : part ≤ whole)
    (positive : 0 < whole) : 0 ≤ (ofInt part).quoInt whole ∧ (ofInt part).quoInt whole ≤ 1 := by
  have nonneg : 0 ≤ part * precision := Int.mul_nonneg sign precision_pos.le
  -- Nothing is negative, so truncation is the floor.
  have quotient : ((ofInt part).quoInt whole).atomics = part * precision / whole :=
    Int.tdiv_eq_ediv_of_nonneg nonneg
  constructor
  · rw [le_iff, quotient]
    exact Int.ediv_nonneg nonneg positive.le
  · rw [le_iff, quotient]
    refine Int.ediv_le_of_le_mul positive ?_
    rw [atomics_one, mul_comm]
    exact Int.mul_le_mul_of_nonneg_left bounded precision_pos.le

theorem one_sub_bounds (low : 0 ≤ ratio) (high : ratio ≤ 1) : 0 ≤ 1 - ratio ∧ 1 - ratio ≤ 1 := by
  simp only [le_iff, atomics_zero, atomics_one, atomics_sub] at low high ⊢
  omega

end Dec

end Library
