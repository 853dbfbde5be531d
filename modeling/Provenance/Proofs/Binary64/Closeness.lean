import Mathlib
import Provenance.Proofs.Binary64.Rounding

/-!
# How far roundings lead away

A rounding to a normal double changes a number at most by a `2^53`th part.  What several
roundings change is counted in such steps (`Near`): steps add up when numbers are
multiplied or divided and when one rounding follows another, whichever direction each of
them goes.
-/

namespace Provenance.Binary64

/-- What is left of one if a `2^53`th part is taken away. -/
def step : ℚ :=
  1 - 1 / 2 ^ 53

theorem step_pos : 0 < step := by
  norm_num [step]

/-- What is left after several steps, at least. -/
theorem sub_mul_le_step_pow (steps : Nat) : 1 - steps * (1 / 2 ^ 53 : ℚ) ≤ step ^ steps := by
  have bernoulli := one_add_mul_le_pow (a := (-(1 / 2 ^ 53) : ℚ)) (by norm_num) steps
  rw [step, sub_eq_add_neg, sub_eq_add_neg, ← mul_neg]
  exact bernoulli

/-- Neither number is less than what is left of the other after so many steps. -/
structure Near (steps : Nat) (x y : ℚ) : Prop where
  left : x * step ^ steps ≤ y
  right : y * step ^ steps ≤ x

namespace Near

variable {steps more : Nat} {x y z x' y' : ℚ}

theorem refl (x : ℚ) : Near 0 x x := by
  constructor
  · rw [pow_zero, mul_one]
  · rw [pow_zero, mul_one]

theorem symm (near : Near steps x y) : Near steps y x :=
  ⟨near.right, near.left⟩

theorem trans (first : Near steps x y) (second : Near more y z) : Near (steps + more) x z := by
  have positive : (0 : ℚ) ≤ step ^ more := (pow_pos step_pos _).le
  have positiveToo : (0 : ℚ) ≤ step ^ steps := (pow_pos step_pos _).le
  constructor
  · calc
      x * step ^ (steps + more) = x * step ^ steps * step ^ more := by rw [pow_add, mul_assoc]
      _ ≤ y * step ^ more := mul_le_mul_of_nonneg_right first.left positive
      _ ≤ z := second.left
  · calc
      z * step ^ (steps + more) = z * step ^ more * step ^ steps := by ring
      _ ≤ y * step ^ steps := mul_le_mul_of_nonneg_right second.right positiveToo
      _ ≤ x := first.right

theorem mul (near : Near steps x y) (nearToo : Near more x' y') (xPos : 0 ≤ x') (yPos : 0 ≤ y')
    (xNonneg : 0 ≤ x) (yNonneg : 0 ≤ y) : Near (steps + more) (x * x') (y * y') := by
  have positive : (0 : ℚ) ≤ step ^ more := (pow_pos step_pos _).le
  constructor
  · calc
      x * x' * step ^ (steps + more) = x * step ^ steps * (x' * step ^ more) := by ring
      _ ≤ y * y' := mul_le_mul near.left nearToo.left (mul_nonneg xPos positive) yNonneg
  · calc
      y * y' * step ^ (steps + more) = y * step ^ steps * (y' * step ^ more) := by ring
      _ ≤ x * x' := mul_le_mul near.right nearToo.right (mul_nonneg yPos positive) xNonneg

theorem inv (near : Near steps x y) (xPos : 0 < x) (yPos : 0 < y) : Near steps x⁻¹ y⁻¹ := by
  constructor
  · rw [inv_mul_le_iff₀ xPos, le_mul_inv_iff₀ yPos, mul_comm]
    exact near.right
  · rw [inv_mul_le_iff₀ yPos, le_mul_inv_iff₀ xPos, mul_comm]
    exact near.left

theorem div (near : Near steps x y) (nearToo : Near more x' y') (xPos : 0 < x') (yPos : 0 < y')
    (xNonneg : 0 ≤ x) (yNonneg : 0 ≤ y) : Near (steps + more) (x / x') (y / y') := by
  rw [div_eq_mul_inv, div_eq_mul_inv]
  exact near.mul (nearToo.inv xPos yPos) (inv_pos.mpr xPos).le (inv_pos.mpr yPos).le xNonneg yNonneg

/-- Numbers are at a distance of so many `2^53`th parts of the greater one. -/
theorem abs_sub_le (near : Near steps x y) (xNonneg : 0 ≤ x) (yNonneg : 0 ≤ y) :
    |x - y| * 2 ^ 53 ≤ steps * max x y := by
  have least := sub_mul_le_step_pow steps
  have left := (mul_le_mul_of_nonneg_left least xNonneg).trans near.left
  have right := (mul_le_mul_of_nonneg_left least yNonneg).trans near.right
  have most : (steps : ℚ) * x ≤ steps * max x y :=
    mul_le_mul_of_nonneg_left (le_max_left x y) (Nat.cast_nonneg _)
  have mostToo : (steps : ℚ) * y ≤ steps * max x y :=
    mul_le_mul_of_nonneg_left (le_max_right x y) (Nat.cast_nonneg _)
  rw [← le_div_iff₀ (by norm_num), abs_sub_le_iff]
  constructor
  · linarith only [left, most]
  · linarith only [right, mostToo]

end Near

/-! ## Roundings -/

/-- Rounding to a normal double is one step. -/
theorem near_of_rounds {x : Binary64} {value : ℚ} (rounds : Rounds x.magnitude (halvesOf value))
    (normal : fractionCount ≤ x.magnitude) : Near 1 x.size value := by
  obtain ⟨before, isNext⟩ := Nat.exists_eq_add_one_of_ne_zero
    (Nat.ne_of_gt (Nat.lt_of_lt_of_le (by decide : 0 < fractionCount) normal))
  have wide : (2 ^ 52 : ℚ) * spacing x.magnitude ≤ x.units := by
    have leading : fractionCount * spacing x.magnitude ≤ unitsOf x.magnitude := by
      rw [unitsOf_normal normal]
      exact Nat.mul_le_mul_right _ (Nat.le_add_right _ _)
    exact_mod_cast leading
  have narrower : (spacing before : ℚ) ≤ spacing x.magnitude := by
    rw [Nat.cast_le, isNext]
    exact Nat.pow_le_pow_right (by decide)
      (Nat.sub_le_sub_right (Nat.div_le_div_right (Nat.le_succ before)) 1)
  have isUnits : (x.units : ℚ) = unitsOf before + spacing before := by
    rw [units, isNext, unitsOf_succ, Nat.cast_add]
  rcases rounds.bounds with ⟨above, below⟩
  rw [midpointAbove, unitsOf_succ, ← units, halvesOf] at below
  rw [midpointBelow, isNext, Nat.add_sub_cancel, ← isNext, ← units, halvesOf] at above
  push_cast at above below
  have positive : (0 : ℚ) < unitsPerOne := Nat.cast_pos.mpr unitsPerOne_pos
  have sizeUnits := x.size_mul_unitsPerOne
  constructor
  · apply le_of_mul_le_mul_right _ positive
    rw [pow_one, mul_right_comm, sizeUnits, step]
    linarith only [above, wide, narrower, isUnits]
  · apply le_of_mul_le_mul_right _ positive
    rw [pow_one, mul_right_comm, sizeUnits, step]
    have spacingNonneg : (0 : ℚ) ≤ spacing x.magnitude := Nat.cast_nonneg _
    linarith only [below, wide, spacingNonneg]

theorem IsNearest.of_some {x : Binary64} {value : ℚ} (nearest : IsNearest (some x) value) :
    x.negative = false ∧ Rounds x.magnitude (halvesOf value) := by
  rcases nearest with ⟨magnitude, rounds, isResult⟩
  split at isResult
  · obtain rfl := Option.some.inj isResult
    exact ⟨rfl, rounds⟩
  · contradiction

/-- What rounds to a double that is at least one is at one step from it. -/
theorem near_of_one_le {x : Binary64} {value : ℚ} (rounds : Rounds x.magnitude (halvesOf value))
    (least : 1 ≤ value) : Near 1 x.size value :=
  near_of_rounds rounds (fractionCount_lt_of_one_le (one_le_size rounds least)).le

end Provenance.Binary64
