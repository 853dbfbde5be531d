import Mathlib
import Provenance.Proofs.Binary64.Shortest

/-!
# Rounding to the nearest double

Rounding works with fifty-three bits at a scale that depends on the number.  What
it finds is the magnitude whose interval the number lies in
(`rounds_roundMagnitude`).  So every operation on doubles gives the double nearest
to the exact result (`IsNearest`), if that is finite.
-/

namespace Provenance.Binary64

/-- A quotient rounded half to even is at most a half away, and exactly a half only
if it is even. -/
theorem divideHalfEven_bounds (numerator : Nat) {denominator : Nat} (positive : 0 < denominator) :
    let rounded := divideHalfEven numerator denominator
    2 * (rounded * denominator) ≤ 2 * numerator + denominator ∧
      2 * numerator ≤ 2 * (rounded * denominator) + denominator ∧
      (rounded % 2 = 1 → 2 * (rounded * denominator) < 2 * numerator + denominator ∧
        2 * numerator < 2 * (rounded * denominator) + denominator) := by
  have split := Nat.div_add_mod' numerator denominator
  have remainder := Nat.mod_lt numerator positive
  unfold divideHalfEven
  dsimp only
  generalize numerator / denominator = quotient at *
  generalize numerator % denominator = left at *
  split
  · omega
  · split
    · rw [Nat.add_mul, one_mul]
      omega
    · rcases Nat.mod_two_eq_zero_or_one quotient with even | odd
      · rw [even, Nat.add_zero]
        omega
      · rw [odd, Nat.add_mul, one_mul]
        omega

/-- A number of at most fifty-three bits, scaled by a power of two, is a magnitude. -/
theorem unitsOf_scaled {scale bits : Nat} (fits : bits ≤ 2 * fractionCount)
    (normal : scale = 0 ∨ fractionCount ≤ bits) :
    unitsOf (scale * fractionCount + bits) = bits * 2 ^ scale := by
  by_cases subnormal : bits < fractionCount
  · obtain rfl : scale = 0 := normal.resolve_right (Nat.not_le.mpr subnormal)
    rw [Nat.zero_mul, Nat.zero_add, pow_zero, Nat.mul_one, unitsOf, if_pos subnormal]
  have leading : fractionCount ≤ bits := Nat.not_lt.mp subnormal
  have isNormal : fractionCount ≤ scale * fractionCount + bits :=
    Nat.le_trans leading (Nat.le_add_left _ _)
  rw [unitsOf_normal isNormal, spacing]
  by_cases carries : bits = 2 * fractionCount
  · have magnitude : scale * fractionCount + bits = (scale + 2) * fractionCount := by
      rw [carries]
      ring
    rw [magnitude, Nat.mul_mod_left, Nat.mul_div_cancel _ (by decide), carries, Nat.add_zero]
    change fractionCount * 2 ^ (scale + 1) = _
    ring
  · have fraction : bits - fractionCount < fractionCount := by omega
    have magnitude : scale * fractionCount + bits =
        bits - fractionCount + fractionCount * (scale + 1) := by
      rw [Nat.mul_add, Nat.mul_comm scale]
      omega
    rw [magnitude, Nat.add_mul_mod_self_left, Nat.add_mul_div_left _ _ (by decide),
      Nat.mod_eq_of_lt fraction, Nat.div_eq_of_lt fraction, Nat.zero_add, Nat.add_sub_cancel,
      Nat.add_sub_cancel' leading]

/-- The scale leaves fifty-three bits of a quotient, or fewer if it is zero. -/
theorem scale_bounds (numerator : Nat) {denominator : Nat} (positive : 0 < denominator) :
    let scale := Nat.log2 (numerator / denominator) - 52
    numerator < 2 * fractionCount * (denominator * 2 ^ scale) ∧
      (scale = 0 ∨ fractionCount * (denominator * 2 ^ scale) ≤ numerator) := by
  intro scale
  have power : fractionCount = 2 ^ 52 := by decide
  constructor
  · have below : numerator / denominator < 2 ^ (52 + scale + 1) := by
      apply Nat.lt_of_lt_of_le Nat.lt_log2_self
      exact Nat.pow_le_pow_right (by decide) (by omega)
    calc
      numerator < 2 ^ (52 + scale + 1) * denominator := (Nat.div_lt_iff_lt_mul positive).mp below
      _ = 2 * fractionCount * (denominator * 2 ^ scale) := by
          rw [power]
          ring
  · by_cases small : Nat.log2 (numerator / denominator) ≤ 52
    · exact Or.inl (Nat.sub_eq_zero_of_le small)
    · right
      have nonzero : numerator / denominator ≠ 0 := by
        intro zero
        rw [zero] at small
        exact small (by decide)
      have leading : 2 ^ (52 + scale) ≤ numerator / denominator := by
        have exponent : 52 + scale = Nat.log2 (numerator / denominator) := by omega
        rw [exponent]
        exact Nat.log2_self_le nonzero
      calc
        fractionCount * (denominator * 2 ^ scale) = 2 ^ (52 + scale) * denominator := by
          rw [power]
          ring
        _ ≤ numerator := (Nat.le_div_iff_mul_le positive).mp leading

section Scaled

variable {scale bits : Nat}

/-- The next magnitude is at least one step of the scale further. -/
theorem two_pow_le_spacing (normal : scale = 0 ∨ fractionCount ≤ bits) :
    2 ^ scale ≤ spacing (scale * fractionCount + bits) := by
  apply Nat.pow_le_pow_right (by decide)
  rcases normal with rfl | leading
  · exact Nat.zero_le _
  · apply Nat.le_sub_of_add_le
    rw [Nat.le_div_iff_mul_le (by decide), Nat.succ_mul]
    exact Nat.add_le_add_left leading _

/-- Half a step above, the midpoint is not passed. -/
theorem le_midpointAbove (fits : bits ≤ 2 * fractionCount)
    (normal : scale = 0 ∨ fractionCount ≤ bits) :
    2 * (bits * 2 ^ scale) + 2 ^ scale ≤ midpointAbove (scale * fractionCount + bits) := by
  have step := two_pow_le_spacing normal
  rw [midpointAbove, unitsOf_succ, unitsOf_scaled fits normal]
  omega

/-- Half a step below, the midpoint is not passed, but for the least number of an
exponent, where the magnitudes below are closer. -/
theorem midpointBelow_le (fits : bits ≤ 2 * fractionCount)
    (normal : scale = 0 ∨ fractionCount ≤ bits) :
    midpointBelow (scale * fractionCount + bits) + 2 ^ scale ≤ 2 * (bits * 2 ^ scale) ∨
      midpointBelow (scale * fractionCount + bits) ≤ 2 * (bits * 2 ^ scale) ∧
        (bits = 0 ∨ bits = fractionCount ∧ scale ≠ 0) := by
  rcases Nat.eq_zero_or_pos bits with rfl | positive
  · obtain rfl : scale = 0 := normal.resolve_right (by decide)
    exact .inr ⟨by decide, .inl rfl⟩
  obtain ⟨before, rfl⟩ := Nat.exists_eq_add_one_of_ne_zero positive.ne'
  have isUnits := unitsOf_scaled fits normal
  rw [← Nat.add_assoc] at isUnits ⊢
  rw [midpointBelow, Nat.add_sub_cancel, ← isUnits, unitsOf_succ]
  by_cases least : before + 1 = fractionCount ∧ scale ≠ 0
  · right
    exact ⟨by omega, .inr least⟩
  · left
    have step : 2 ^ scale ≤ spacing (scale * fractionCount + before) := by
      apply two_pow_le_spacing
      omega
    omega

end Scaled

/-- Rounding finds the magnitude whose interval a quotient lies in. -/
theorem roundsTo_roundMagnitude (numerator : Nat) {denominator : Nat}
    (positive : 0 < denominator) :
    roundsTo (roundMagnitude numerator denominator) (2 * numerator) denominator = true := by
  obtain ⟨below, above⟩ := scale_bounds numerator positive
  unfold roundMagnitude
  dsimp only at below above ⊢
  generalize Nat.log2 (numerator / denominator) - 52 = scale at *
  have gridPositive := Nat.mul_pos positive (Nat.two_pow_pos scale)
  obtain ⟨notBelow, notAbove, strict⟩ := divideHalfEven_bounds numerator gridPositive
  change roundsTo (_ + divideHalfEven numerator (denominator * 2 ^ scale)) _ _ = _
  generalize divideHalfEven numerator (denominator * 2 ^ scale) = bits at *
  have step : 2 ^ scale * denominator = denominator * 2 ^ scale := Nat.mul_comm _ _
  generalize denominator * 2 ^ scale = grid at *
  have scaled (count : Nat) : count * 2 ^ scale * denominator = count * grid := by
    rw [Nat.mul_assoc, step]
  have fits : bits ≤ 2 * fractionCount := by
    by_contra tooLarge
    have most := Nat.mul_le_mul_right grid (Nat.lt_of_not_le tooLarge)
    rw [Nat.succ_mul (2 * fractionCount)] at most
    omega
  have normal : scale = 0 ∨ fractionCount ≤ bits := by
    apply above.imp_right
    intro leading
    by_contra tooSmall
    have most := Nat.mul_le_mul_right grid (Nat.lt_of_not_le tooSmall)
    rw [Nat.succ_mul bits] at most
    omega
  have upper := Nat.mul_le_mul_right denominator (le_midpointAbove fits normal)
  rw [Nat.add_mul, Nat.mul_assoc 2, scaled, step] at upper
  have lower : midpointBelow (scale * fractionCount + bits) * denominator + grid ≤
        2 * (bits * grid) ∨
      midpointBelow (scale * fractionCount + bits) * denominator ≤ 2 * numerator ∧
        bits % 2 = 0 := by
    rcases midpointBelow_le fits normal with apart | ⟨close, least⟩
    · left
      have times := Nat.mul_le_mul_right denominator apart
      rwa [Nat.add_mul, Nat.mul_assoc 2, scaled, step] at times
    · right
      have times := Nat.mul_le_mul_right denominator close
      rw [Nat.mul_assoc 2, scaled] at times
      rcases least with rfl | ⟨rfl, notZero⟩
      · exact ⟨by omega, rfl⟩
      · have leading := above.resolve_left notZero
        exact ⟨by omega, by decide⟩
  have parity : (scale * fractionCount + bits) % 2 = bits % 2 := by
    have even : fractionCount = 2 * 2 ^ 51 := by decide
    rw [even, Nat.mul_left_comm, Nat.mul_add_mod_self_left]
  rw [roundsTo, parity, ← midpointBelow, ← midpointAbove]
  split
  · simp only [Bool.and_eq_true, decide_eq_true_iff]
    omega
  · rename_i odd
    have strictly := strict (Nat.mod_two_ne_zero.mp odd)
    simp only [Bool.and_eq_true, decide_eq_true_iff]
    omega

/-- The rounded quotient is the one magnitude that the quotient rounds to. -/
theorem rounds_roundMagnitude (numerator : Nat) {denominator : Nat} (positive : 0 < denominator) :
    Rounds (roundMagnitude numerator denominator) (2 * (numerator / denominator : ℚ)) := by
  have rounds := (roundsTo_iff _ _ positive).mp (roundsTo_roundMagnitude numerator positive)
  rwa [Nat.cast_mul, Nat.cast_ofNat, mul_div_assoc] at rounds

/-- A magnitude rounds to itself. -/
theorem rounds_units (magnitude : Nat) : Rounds magnitude (2 * (unitsOf magnitude : ℚ)) := by
  have exact : roundsTo magnitude (2 * unitsOf magnitude) 1 = true := by
    cases magnitude with
    | zero => decide
    | succ before =>
        obtain ⟨above, below⟩ := midpoints_around before
        exact roundsTo_of_between (by omega) (by omega)
  have rounds := (roundsTo_iff _ _ Nat.one_pos).mp exact
  rwa [Nat.cast_mul, Nat.cast_ofNat, Nat.cast_one, div_one] at rounds

/-! ## The nearest double -/

theorem halvesOf_mono {value other : ℚ} (order : value ≤ other) : halvesOf value ≤ halvesOf other :=
  mul_le_mul_of_nonneg_right order (mul_nonneg zero_le_two (Nat.cast_nonneg _))

/-- A result is the double nearest to a number that is not negative, or nothing
if the nearest magnitude is not finite. -/
def IsNearest (result : Option Binary64) (value : ℚ) : Prop :=
  ∃ magnitude, Rounds magnitude (halvesOf value) ∧
    result = if finite : magnitude < infinite then some ⟨false, magnitude, finite⟩ else none

theorem isNearest_nearest? {numerator denominator : Nat} (positive : 0 < denominator) {value : ℚ}
    (isValue : (numerator / denominator : ℚ) = value * unitsPerOne) :
    IsNearest (nearest? numerator denominator) value := by
  refine ⟨roundMagnitude numerator denominator, ?_, rfl⟩
  have halves : halvesOf value = 2 * (numerator / denominator : ℚ) := by
    rw [isValue, halvesOf]
    ring
  rw [halves]
  exact rounds_roundMagnitude numerator positive

namespace IsNearest

variable {result : Option Binary64} {value : ℚ} {magnitude : Nat}
  (nearest : IsNearest result value) (finite : magnitude < infinite)

include nearest finite

/-- The double that a number rounds to is the result. -/
theorem eq_some (rounds : Rounds magnitude (halvesOf value)) :
    result = some ⟨false, magnitude, finite⟩ := by
  obtain ⟨found, roundsFound, isResult⟩ := nearest
  obtain rfl := rounds.unique roundsFound
  rw [isResult, dif_pos finite]

/-- There is a result if the number is at most one that rounds to a double. -/
theorem exists_of_le {bound : ℚ} (rounds : Rounds magnitude (halvesOf bound))
    (order : value ≤ bound) :
    ∃ x, result = some x ∧ x.negative = false ∧ x.magnitude ≤ magnitude ∧
      Rounds x.magnitude (halvesOf value) := by
  obtain ⟨found, roundsFound, isResult⟩ := nearest
  have least : found ≤ magnitude := roundsFound.mono rounds (halvesOf_mono order)
  rw [dif_pos (least.trans_lt finite)] at isResult
  exact ⟨_, isResult, rfl, least, roundsFound⟩

end IsNearest

/-- The absolute value of a double. -/
def size (x : Binary64) : ℚ :=
  x.units / unitsPerOne

theorem size_nonneg (x : Binary64) : 0 ≤ x.size :=
  div_nonneg (Nat.cast_nonneg _) (Nat.cast_nonneg _)

theorem size_mul_unitsPerOne (x : Binary64) : x.size * unitsPerOne = x.units :=
  div_mul_cancel₀ _ (Nat.cast_ne_zero.mpr unitsPerOne_pos.ne')

theorem size_of_zero {x : Binary64} (zero : x.magnitude = 0) : x.size = 0 := by
  have noUnits : x.units = 0 := by
    rw [units, zero]
    rfl
  rw [size, noUnits, Nat.cast_zero, zero_div]

/-- A double rounds to itself. -/
theorem rounds_size (x : Binary64) : Rounds x.magnitude (halvesOf x.size) := by
  have halves : halvesOf x.size = 2 * (unitsOf x.magnitude : ℚ) := by
    rw [halvesOf, mul_left_comm, size_mul_unitsPerOne]
    rfl
  rw [halves]
  exact rounds_units x.magnitude

/-- Every operation gives the double nearest to the exact result. -/
theorem isNearest_ofNat? (n : Nat) : IsNearest (ofNat? n) n := by
  apply isNearest_nearest? Nat.one_pos
  push_cast
  rw [div_one]

theorem isNearest_powerOfTen? (exponent : Nat) :
    IsNearest (powerOfTen? exponent) ((10 : ℚ) ^ exponent) := by
  have power : ((Nat.pow 10 exponent : Nat) : ℚ) = (10 : ℚ) ^ exponent := by
    rw [Nat.pow_eq]
    push_cast
    rfl
  rw [← power]
  exact isNearest_ofNat? _

theorem isNearest_times? (x y : Binary64) : IsNearest (x.times? y) (x.size * y.size) := by
  apply isNearest_nearest? unitsPerOne_pos
  push_cast
  rw [← size_mul_unitsPerOne x, ← size_mul_unitsPerOne y, ← mul_assoc,
    mul_div_cancel_right₀ _ (Nat.cast_ne_zero.mpr unitsPerOne_pos.ne')]
  ring

theorem isNearest_over? (x : Binary64) {y : Binary64} (nonzero : 0 < y.units) :
    IsNearest (x.over? y) (x.size / y.size) := by
  apply isNearest_nearest? nonzero
  push_cast
  rw [size, size, div_div_div_cancel_right₀ (Nat.cast_ne_zero.mpr unitsPerOne_pos.ne'),
    div_mul_eq_mul_div]

/-! ## Exact results -/

/-- Twice a magnitude is a magnitude. -/
theorem exists_unitsOf_eq_two_mul (magnitude : Nat) :
    ∃ doubled, unitsOf doubled = 2 * unitsOf magnitude := by
  by_cases subnormal : magnitude < fractionCount
  · refine ⟨2 * magnitude, ?_⟩
    have small := @unitsOf_scaled 0 (2 * magnitude) (by omega) (Or.inl rfl)
    rw [Nat.zero_mul, Nat.zero_add, pow_zero, Nat.mul_one] at small
    rw [small, unitsOf, if_pos subnormal]
  · have normal := Nat.not_lt.mp subnormal
    refine ⟨magnitude + fractionCount, ?_⟩
    have exponent : 1 ≤ magnitude / fractionCount :=
      (Nat.one_le_div_iff (by decide)).mpr normal
    rw [unitsOf_normal normal, unitsOf_normal (Nat.le_add_left_of_le (Nat.le_refl _)), spacing,
      spacing, Nat.add_mod_right, Nat.add_div_right _ (by decide), Nat.succ_sub_one,
      ← Nat.two_pow_pred_mul_two exponent]
    ring

/-- A number of at most fifty-three bits times a power of two is a magnitude. -/
theorem exists_unitsOf_eq {bits : Nat} (fits : bits ≤ 2 * fractionCount) (scale : Nat) :
    ∃ magnitude, unitsOf magnitude = bits * 2 ^ scale := by
  induction scale with
  | zero =>
      have small := @unitsOf_scaled 0 bits fits (Or.inl rfl)
      exact ⟨_, small⟩
  | succ scale ih =>
      obtain ⟨magnitude, isUnits⟩ := ih
      obtain ⟨doubled, isDoubled⟩ := exists_unitsOf_eq_two_mul magnitude
      refine ⟨doubled, ?_⟩
      rw [isDoubled, isUnits]
      ring

theorem unitsPerOne_eq_two_pow : unitsPerOne = 2 ^ 1074 := by
  rw [unitsPerOne_eq, ← pow_mul]

/-- Great powers are variables, or they would be evaluated. -/
theorem lt_two_pow_of_lt {n digits limit : Nat} (few : n < 2 ^ digits) (within : digits ≤ limit) :
    n < 2 ^ limit :=
  few.trans_le (Nat.pow_le_pow_right (by decide) within)

theorem unitsOf_fractionCount_lt : 10 * unitsOf fractionCount < unitsPerOne := by
  have few : 10 * unitsOf fractionCount < 2 ^ 56 := by decide
  rw [unitsPerOne_eq_two_pow]
  exact lt_two_pow_of_lt few (by decide)

/-- The first magnitude that is not finite would stand for `2^1024`. -/
theorem unitsOf_infinite : unitsOf infinite = 2 ^ 1024 * unitsPerOne := by
  decide +kernel

theorem finite_iff {magnitude : Nat} :
    magnitude < infinite ↔ unitsOf magnitude < 2 ^ 1024 * unitsPerOne := by
  rw [← unitsOf_infinite]
  exact unitsOf_strictMono.lt_iff_lt.symm

/-- Doubles are finite. -/
theorem size_lt (x : Binary64) : x.size < 2 ^ 1024 := by
  have finite := (Nat.cast_lt (α := ℚ)).mpr (finite_iff.mp x.finite)
  rw [Nat.cast_mul, Nat.cast_pow, Nat.cast_ofNat, ← units, ← size_mul_unitsPerOne] at finite
  exact lt_of_mul_lt_mul_right finite (Nat.cast_nonneg _)

/-- The leading digits of finite doubles count small powers of ten. -/
theorem natAbs_leadingExponent_shortest_le {magnitude : Nat} (nonzero : magnitude ≠ 0)
    (finite : magnitude < infinite) : (shortest magnitude).leadingExponent.natAbs ≤ 1000 := by
  obtain ⟨places, few, chosen⟩ := exists_withPlaces?_shortest nonzero
  obtain ⟨-, scale, -⟩ := of_withPlaces? chosen
  have digits : (Nat.toDigits 10 (shortest magnitude).coefficient).length ≤ 18 :=
    (Nat.length_toDigits_le_iff (by decide) (by decide)).mpr
      ((shortest_coefficient_le nonzero).trans_lt (by decide))
  -- The limit and the powers are variables, or they would be evaluated.
  obtain ⟨limit, isLimit⟩ : ∃ limit, limit = 1000 := ⟨1000, rfl⟩
  have leading : (Nat.toDigits 10 (unitsOf magnitude * (10 ^ 54) ^ 6 / unitsPerOne)).length ≤
      limit := by
    have most : (2 : Nat) ^ 1024 * (10 ^ 54) ^ 6 ≤ 10 ^ limit := by
      rw [isLimit]
      decide +kernel
    apply (Nat.length_toDigits_le_iff (by decide) (by omega)).mpr
    apply (Nat.div_lt_iff_lt_mul unitsPerOne_pos).mpr
    have bound := finite_iff.mp finite
    have positive : (0 : Nat) < (10 ^ 54) ^ 6 := Nat.pow_pos (Nat.pow_pos (by decide))
    generalize (2 : Nat) ^ 1024 = finiteLimit at most bound
    generalize ((10 : Nat) ^ 54) ^ 6 = power at most positive ⊢
    calc
      unitsOf magnitude * power < finiteLimit * unitsPerOne * power :=
        Nat.mul_lt_mul_of_pos_right bound positive
      _ = finiteLimit * power * unitsPerOne := Nat.mul_right_comm _ _ _
      _ ≤ 10 ^ limit * unitsPerOne := Nat.mul_le_mul_right _ most
  rw [leadingPower_eq] at scale
  rw [Decimal.leadingExponent, Decimal.allDigits]
  omega

theorem mul_two_pow_lt {bits digits scale : Nat} (few : bits < 2 ^ digits)
    (within : digits + scale ≤ 1024) : bits * 2 ^ scale < 2 ^ 1024 := by
  have product : bits * 2 ^ scale < 2 ^ (digits + scale) := by
    rw [pow_add]
    exact Nat.mul_lt_mul_of_pos_right few (Nat.two_pow_pos scale)
  exact lt_two_pow_of_lt product within

/-- A number of at most fifty-three bits times a power of two is a double, unless it
is too large. -/
theorem exists_size_eq {n bits scale : Nat} (isScaled : n = bits * 2 ^ scale)
    (fits : bits ≤ 2 * fractionCount) (small : n < 2 ^ 1024) :
    ∃ x : Binary64, x.negative = false ∧ x.size = n := by
  obtain ⟨magnitude, isUnits⟩ := exists_unitsOf_eq fits (scale + 1074)
  have units : unitsOf magnitude = n * unitsPerOne := by
    rw [isUnits, isScaled, pow_add, unitsPerOne_eq_two_pow, Nat.mul_assoc]
  have finite : magnitude < infinite := by
    rw [finite_iff, units]
    exact Nat.mul_lt_mul_of_pos_right small unitsPerOne_pos
  refine ⟨⟨false, magnitude, finite⟩, rfl, ?_⟩
  rw [size, Binary64.units, units]
  push_cast
  exact mul_div_cancel_right₀ _ (Nat.cast_ne_zero.mpr unitsPerOne_pos.ne')

/-- A number that is a double is its own nearest double. -/
theorem IsNearest.eq_some_of_size {result : Option Binary64} {x : Binary64}
    (nearest : IsNearest result x.size) (notNegative : x.negative = false) : result = some x := by
  rw [nearest.eq_some x.finite x.rounds_size, ← notNegative]

theorem size_mono {x y : Binary64} (order : x.magnitude ≤ y.magnitude) : x.size ≤ y.size :=
  div_le_div_of_nonneg_right (Nat.cast_le.mpr (unitsOf_strictMono.monotone order))
    (Nat.cast_nonneg _)

theorem exists_size_eq_one : ∃ one : Binary64, one.size = 1 := by
  obtain ⟨one, -, isOne⟩ := @exists_size_eq 1 1 0 rfl (by decide)
    (lt_two_pow_of_lt (by decide : 1 < 2 ^ 1) (by decide))
  exact ⟨one, isOne.trans Nat.cast_one⟩

/-- What is at least one rounds to at least one. -/
theorem one_le_size {x : Binary64} {value : ℚ} (rounds : Rounds x.magnitude (halvesOf value))
    (least : 1 ≤ value) : 1 ≤ x.size := by
  obtain ⟨one, isOne⟩ := exists_size_eq_one
  rw [← isOne] at least ⊢
  exact size_mono (one.rounds_size.mono rounds (halvesOf_mono least))

/-- A double that is at least one is normal, and so is the one before it. -/
theorem fractionCount_lt_of_one_le {x : Binary64} (least : 1 ≤ x.size) :
    fractionCount < x.magnitude := by
  have units : unitsPerOne ≤ x.units := by
    have scaled := mul_le_mul_of_nonneg_right least (Nat.cast_nonneg (α := ℚ) unitsPerOne)
    rw [size_mul_unitsPerOne, one_mul] at scaled
    exact_mod_cast scaled
  have small := unitsOf_fractionCount_lt
  exact unitsOf_strictMono.lt_iff_lt.mp (by omega : unitsOf fractionCount < x.units)

theorem units_pos_of_one_le {x : Binary64} (least : 1 ≤ x.size) : 0 < x.units :=
  (Nat.zero_le _).trans_lt
    (unitsOf_strictMono (Nat.zero_lt_of_lt (fractionCount_lt_of_one_le least)))

/-- Rounding a number that is at least one adds at most its `2^53`th part. -/
theorem size_le_of_rounds {x : Binary64} {value : ℚ} (rounds : Rounds x.magnitude (halvesOf value))
    (least : 1 ≤ value) : x.size * 2 ^ 53 ≤ value * (2 ^ 53 + 1) := by
  have normal := fractionCount_lt_of_one_le (one_le_size rounds least)
  obtain ⟨before, isNext⟩ :=
    Nat.exists_eq_add_one_of_ne_zero (Nat.ne_of_gt (Nat.zero_lt_of_lt normal))
  have isUnits : x.units = unitsOf before + spacing before := by
    rw [units, isNext, unitsOf_succ]
  have wide : (2 ^ 52 : ℚ) * spacing before ≤ unitsOf before := by
    have leading : fractionCount * spacing before ≤ unitsOf before := by
      rw [unitsOf_normal (by omega)]
      exact Nat.mul_le_mul_right _ (Nat.le_add_right _ _)
    exact_mod_cast leading
  have middle : (unitsOf before : ℚ) + x.units ≤ 2 * (value * unitsPerOne) := by
    have below := rounds.bounds.1
    rw [midpointBelow, isNext, Nat.add_sub_cancel, ← isNext, ← units, halvesOf] at below
    push_cast at below
    linarith only [below]
  rw [isUnits] at middle
  push_cast at middle
  apply le_of_mul_le_mul_right _ (Nat.cast_pos.mpr unitsPerOne_pos : (0 : ℚ) < unitsPerOne)
  calc
    x.size * 2 ^ 53 * unitsPerOne = x.units * 2 ^ 53 := by
      rw [mul_right_comm, size_mul_unitsPerOne]
    _ = ((unitsOf before : ℚ) + spacing before) * 2 ^ 53 := by
      rw [isUnits, Nat.cast_add]
    _ ≤ value * unitsPerOne * (2 ^ 53 + 1) := by
      linarith only [wide, middle]
    _ = value * (2 ^ 53 + 1) * unitsPerOne := by
      ring

/-- What rounds to a magnitude that is not among the four greatest is so far below the
greatest double that two further roundings do not pass it. -/
theorem le_of_rounds {magnitude : Nat} {value : ℚ} (rounds : Rounds magnitude (halvesOf value))
    (apart : magnitude + 4 < infinite) : value ≤ 18014398509481975 * 2 ^ 970 := by
  have greatest : unitsOf (infinite - 5) + unitsOf (infinite - 4) =
      18014398509481975 * 2 ^ 970 * (2 * unitsPerOne) := by
    decide +kernel
  have most : midpointAbove magnitude ≤ 18014398509481975 * 2 ^ 970 * (2 * unitsPerOne) := by
    rw [← greatest]
    exact Nat.add_le_add (unitsOf_strictMono.monotone (by omega))
      (unitsOf_strictMono.monotone (by omega))
  have bound := rounds.bounds.2.trans ((Nat.cast_le (α := ℚ)).mpr most)
  rw [halvesOf, Nat.cast_mul, Nat.cast_mul, Nat.cast_mul, Nat.cast_pow, Nat.cast_ofNat,
    Nat.cast_ofNat] at bound
  exact le_of_mul_le_mul_right bound (mul_pos two_pos (Nat.cast_pos.mpr unitsPerOne_pos))

/-- The greatest double. -/
theorem exists_size_eq_greatest : ∃ x : Binary64, x.size = 9007199254740991 * 2 ^ 971 := by
  obtain ⟨x, -, isSize⟩ := @exists_size_eq (9007199254740991 * 2 ^ 971) 9007199254740991 971 rfl
    (by decide) (mul_two_pow_lt (by decide : 9007199254740991 < 2 ^ 53) (by decide))
  rw [Nat.cast_mul, Nat.cast_pow, Nat.cast_ofNat, Nat.cast_ofNat] at isSize
  exact ⟨x, isSize⟩

end Provenance.Binary64
