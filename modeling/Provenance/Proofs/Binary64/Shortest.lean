import Mathlib
import Provenance.Binary64.Shortest
import Provenance.Proofs.Text.Decimal

/-!
# Shortest decimals read back

The text of a double spells a decimal that rounds to the double.  Two facts carry
this: the numbers that round to a magnitude are those between the midpoints to
its neighbours, so that a number rounds to one magnitude only (`Rounds.unique`),
and a grid of seventeen decimal digits is finer than the distance of these
midpoints, so that the search for a decimal never fails (`readsBackAs_shortest`).

Hence a double is determined by its text (`text_injective`).
-/

namespace Provenance.Binary64

/-- The number of units between a magnitude and the next. -/
def spacing (magnitude : Nat) : Nat :=
  2 ^ (magnitude / fractionCount - 1)

theorem spacing_pos (magnitude : Nat) : 0 < spacing magnitude :=
  Nat.two_pow_pos _

/-- Subnormal magnitudes stand one unit apart. -/
theorem spacing_eq_one {magnitude : Nat} (subnormal : magnitude < fractionCount) :
    spacing magnitude = 1 := by
  rw [spacing, Nat.div_eq_of_lt subnormal, Nat.zero_sub, pow_zero]

/-- The spacing is kept within one exponent field. -/
theorem spacing_succ_of_ne {magnitude : Nat}
    (inside : magnitude % fractionCount + 1 ≠ fractionCount) :
    spacing (magnitude + 1) = spacing magnitude := by
  unfold spacing
  congr 1
  simp only [fractionCount] at inside ⊢
  omega

/-- The spacing doubles where the exponent field of a normal number grows. -/
theorem spacing_succ_of_eq {magnitude : Nat} (normal : fractionCount ≤ magnitude)
    (last : magnitude % fractionCount + 1 = fractionCount) :
    spacing (magnitude + 1) = 2 * spacing magnitude := by
  have exponent : (magnitude + 1) / fractionCount - 1 = magnitude / fractionCount - 1 + 1 := by
    simp only [fractionCount] at normal last ⊢
    omega
  rw [spacing, spacing, exponent, pow_succ, Nat.mul_comm]

/-- A normal magnitude is its fraction with the leading bit, times the spacing. -/
theorem unitsOf_normal {magnitude : Nat} (normal : fractionCount ≤ magnitude) :
    unitsOf magnitude = (fractionCount + magnitude % fractionCount) * spacing magnitude := by
  rw [unitsOf, if_neg (Nat.not_lt.mpr normal)]
  rfl

/-- The next magnitude is one spacing further. -/
theorem unitsOf_succ (magnitude : Nat) :
    unitsOf (magnitude + 1) = unitsOf magnitude + spacing magnitude := by
  by_cases subnormal : magnitude < fractionCount
  · rw [spacing_eq_one subnormal, unitsOf.eq_1 magnitude, if_pos subnormal]
    by_cases next : magnitude + 1 < fractionCount
    · rw [unitsOf, if_pos next]
    · have first : magnitude + 1 = fractionCount := by omega
      rw [first]
      decide
  · have normal : fractionCount ≤ magnitude := Nat.not_lt.mp subnormal
    rw [unitsOf_normal normal, unitsOf_normal (Nat.le_succ_of_le normal)]
    by_cases last : magnitude % fractionCount + 1 = fractionCount
    · have remainder : (magnitude + 1) % fractionCount = 0 := by
        simp only [fractionCount] at last ⊢
        omega
      have whole : fractionCount + magnitude % fractionCount + 1 = 2 * fractionCount := by omega
      calc
        (fractionCount + (magnitude + 1) % fractionCount) * spacing (magnitude + 1) =
            2 * fractionCount * spacing magnitude := by
              rw [remainder, spacing_succ_of_eq normal last]
              ring
        _ = (fractionCount + magnitude % fractionCount) * spacing magnitude +
            spacing magnitude := by
              rw [← whole]
              ring
    · have remainder : (magnitude + 1) % fractionCount = magnitude % fractionCount + 1 := by
        simp only [fractionCount] at last ⊢
        omega
      rw [remainder, spacing_succ_of_ne last]
      ring

theorem unitsOf_strictMono : StrictMono unitsOf := by
  apply strictMono_nat_of_lt_succ
  intro magnitude
  rw [unitsOf_succ]
  exact Nat.lt_add_of_pos_right (spacing_pos magnitude)

/-- A magnitude has at most fifty-three significant bits. -/
theorem unitsOf_lt (magnitude : Nat) :
    unitsOf magnitude < 2 * fractionCount * spacing magnitude := by
  by_cases subnormal : magnitude < fractionCount
  · rw [unitsOf, if_pos subnormal, spacing_eq_one subnormal]
    omega
  · have normal : fractionCount ≤ magnitude := Nat.not_lt.mp subnormal
    have fraction : magnitude % fractionCount < fractionCount := Nat.mod_lt _ (by decide)
    rw [unitsOf_normal normal]
    exact Nat.mul_lt_mul_of_pos_right (by omega) (spacing_pos magnitude)

/-- The distance to the magnitude before is the same as to the next one, or half
of it at the least magnitude of an exponent field. -/
theorem spacing_before (magnitude : Nat) :
    spacing (magnitude + 1) = spacing magnitude ∨
      spacing (magnitude + 1) = 2 * spacing magnitude ∧
        unitsOf (magnitude + 1) = fractionCount * spacing (magnitude + 1) := by
  by_cases subnormal : magnitude < fractionCount
  · left
    unfold spacing
    congr 1
    simp only [fractionCount] at subnormal ⊢
    omega
  · have normal : fractionCount ≤ magnitude := Nat.not_lt.mp subnormal
    by_cases last : magnitude % fractionCount + 1 = fractionCount
    · right
      refine ⟨spacing_succ_of_eq normal last, ?_⟩
      have remainder : (magnitude + 1) % fractionCount = 0 := by
        simp only [fractionCount] at last ⊢
        omega
      rw [unitsOf_normal (Nat.le_succ_of_le normal), remainder, Nat.add_zero]
    · exact Or.inl (spacing_succ_of_ne last)

/-- The midpoint between a magnitude and the one before, in half units. -/
def midpointBelow (magnitude : Nat) : Nat :=
  unitsOf (magnitude - 1) + unitsOf magnitude

/-- The midpoint between a magnitude and the next one, in half units. -/
def midpointAbove (magnitude : Nat) : Nat :=
  unitsOf magnitude + unitsOf (magnitude + 1)

/-- The numbers of half units that round to a magnitude: those between the two
midpoints, and the midpoints of an even magnitude. -/
def Rounds (magnitude : Nat) (halves : ℚ) : Prop :=
  if magnitude % 2 = 0 then midpointBelow magnitude ≤ halves ∧ halves ≤ midpointAbove magnitude
  else midpointBelow magnitude < halves ∧ halves < midpointAbove magnitude

/-- The exact test compares with the two midpoints. -/
theorem roundsTo_iff (magnitude numerator : Nat) {denominator : Nat}
    (positive : 0 < denominator) :
    roundsTo magnitude numerator denominator = true ↔
      Rounds magnitude ((numerator : ℚ) / denominator) := by
  have castPositive : (0 : ℚ) < denominator := by exact_mod_cast positive
  unfold roundsTo Rounds
  split
  · rw [le_div_iff₀ castPositive, div_le_iff₀ castPositive]
    simp only [Bool.and_eq_true, decide_eq_true_iff]
    norm_cast
  · rw [lt_div_iff₀ castPositive, div_lt_iff₀ castPositive]
    simp only [Bool.and_eq_true, decide_eq_true_iff]
    norm_cast

theorem Rounds.bounds {magnitude : Nat} {halves : ℚ} (rounds : Rounds magnitude halves) :
    midpointBelow magnitude ≤ halves ∧ halves ≤ midpointAbove magnitude := by
  unfold Rounds at rounds
  split at rounds
  · exact rounds
  · exact ⟨rounds.1.le, rounds.2.le⟩

/-- A greater number rounds to a greater magnitude, or to the same.  Neighbours
share their midpoint, but only one of them is even; the intervals of other
magnitudes are apart. -/
theorem Rounds.mono {magnitude other : Nat} {halves further : ℚ}
    (rounds : Rounds magnitude halves) (roundsOther : Rounds other further)
    (order : halves ≤ further) : magnitude ≤ other := by
  by_contra greater
  have between : (midpointBelow magnitude : ℚ) ≤ midpointAbove other :=
    (rounds.bounds.1.trans order).trans roundsOther.bounds.2
  rcases Nat.lt_or_eq_of_le (Nat.succ_le_of_lt (Nat.lt_of_not_le greater)) with beyond | next
  · have apart : midpointBelow magnitude ≤ midpointAbove other := by exact_mod_cast between
    have first : unitsOf other < unitsOf (magnitude - 1) := unitsOf_strictMono (by omega)
    have second : unitsOf (other + 1) < unitsOf magnitude := unitsOf_strictMono beyond
    unfold midpointBelow midpointAbove at apart
    omega
  · subst next
    have shared : midpointBelow (other + 1) = midpointAbove other := rfl
    unfold Rounds at rounds roundsOther
    rw [Nat.succ_eq_add_one, shared] at rounds
    by_cases even : other % 2 = 0
    · rw [if_neg (by omega)] at rounds
      rw [if_pos even] at roundsOther
      exact absurd ((rounds.1.trans_le order).trans_le roundsOther.2) (lt_irrefl _)
    · rw [if_pos (by omega)] at rounds
      rw [if_neg even] at roundsOther
      exact absurd ((rounds.1.trans order).trans_lt roundsOther.2) (lt_irrefl _)

/-- A number rounds to one magnitude only. -/
theorem Rounds.unique {magnitude other : Nat} {halves : ℚ} (rounds : Rounds magnitude halves)
    (roundsOther : Rounds other halves) : magnitude = other :=
  le_antisymm (rounds.mono roundsOther le_rfl) (roundsOther.mono rounds le_rfl)

theorem tenPower_pos (exponent : ℤ) : 0 < (tenPower exponent).1 ∧ 0 < (tenPower exponent).2 :=
  ⟨Nat.pow_pos (by decide), Nat.pow_pos (by decide)⟩

/-- Numerator and denominator of a power of ten, as a quotient. -/
theorem tenPower_div (exponent : ℤ) :
    ((tenPower exponent).1 : ℚ) / (tenPower exponent).2 = (10 : ℚ) ^ exponent := by
  have split : exponent = (exponent.toNat : ℤ) - ((-exponent).toNat : ℤ) := by omega
  conv_rhs => rw [split, zpow_sub₀ (by norm_num), zpow_natCast, zpow_natCast]
  simp [tenPower]

/-- A decimal in half units. -/
def halvesOf (x : ℚ) : ℚ :=
  x * (2 * unitsPerOne)

theorem readsBackAs_iff (magnitude : Nat) (x : Decimal) :
    readsBackAs magnitude x = true ↔ Rounds magnitude (halvesOf x.value) := by
  rw [readsBackAs, roundsTo_iff _ _ (tenPower_pos x.scale).2]
  have quotient : ((x.coefficient * (tenPower x.scale).1 * (2 * unitsPerOne) : Nat) : ℚ) /
      (tenPower x.scale).2 = halvesOf x.value := by
    rw [halvesOf, Decimal.value, ← tenPower_div]
    push_cast
    ring
  rw [quotient]

/-- A quotient rounded half to even is the one below or the one above. -/
theorem divideHalfEven_eq (numerator denominator : Nat) :
    divideHalfEven numerator denominator = numerator / denominator ∨
      divideHalfEven numerator denominator = numerator / denominator + 1 := by
  unfold divideHalfEven
  dsimp only
  split
  · exact Or.inl rfl
  · split
    · exact Or.inr rfl
    · rcases Nat.mod_two_eq_zero_or_one (numerator / denominator) with even | odd
      · rw [even]
        exact Or.inl rfl
      · rw [odd]
        exact Or.inr rfl

/-- A decimal that was chosen reads back, and is one of the two neighbours on the
grid. -/
theorem of_withPlaces? {magnitude places : Nat} {x : Decimal}
    (chosen : withPlaces? magnitude places = some x) :
    readsBackAs magnitude x = true ∧ x.scale = leadingPower (unitsOf magnitude) + 1 - places ∧
      x.coefficient ≤ unitsOf magnitude * (tenPower x.scale).2 /
        ((tenPower x.scale).1 * unitsPerOne) + 1 := by
  unfold withPlaces? at chosen
  dsimp only at chosen
  split at chosen
  · rename_i belowReads aboveReads
    obtain rfl := Option.some.inj chosen
    rcases divideHalfEven_eq
        (unitsOf magnitude * (tenPower (leadingPower (unitsOf magnitude) + 1 - places)).2)
        ((tenPower (leadingPower (unitsOf magnitude) + 1 - places)).1 * unitsPerOne) with
      below | above
    · rw [below]
      exact ⟨belowReads, rfl, Nat.le_succ _⟩
    · rw [above]
      exact ⟨aboveReads, rfl, Nat.le_refl _⟩
  · rename_i belowReads _
    obtain rfl := Option.some.inj chosen
    exact ⟨belowReads, rfl, Nat.le_succ _⟩
  · rename_i _ aboveReads
    obtain rfl := Option.some.inj chosen
    exact ⟨aboveReads, rfl, Nat.le_refl _⟩
  · contradiction

/-! ## Seventeen digits suffice -/

/-- A power of ten brought over a common power. -/
theorem tenPower_mul {exponent : ℤ} {plus minus : Nat} (split : exponent = plus - minus) :
    (tenPower exponent).1 * 10 ^ minus = (tenPower exponent).2 * 10 ^ plus := by
  have sum : exponent.toNat + minus = (-exponent).toNat + plus := by omega
  change 10 ^ exponent.toNat * 10 ^ minus = 10 ^ (-exponent).toNat * 10 ^ plus
  rw [← pow_add, ← pow_add, sum]

/-- The first digit of a number counts no more than the number. -/
theorem pow_length_toDigits_le {n : Nat} (positive : 0 < n) :
    10 ^ ((Nat.toDigits 10 n).length - 1) ≤ n := by
  rcases Nat.eq_zero_or_pos ((Nat.toDigits 10 n).length - 1) with zero | more
  · rw [zero, pow_zero]
    exact positive
  · by_contra less
    have short := (Nat.length_toDigits_le_iff (by decide) more).mpr (Nat.lt_of_not_le less)
    omega

private theorem natPow_eq {exponent inner outer : Nat} (base : Nat)
    (factors : exponent = inner * outer) : Nat.pow base exponent = (base ^ inner) ^ outer := by
  rw [factors, Nat.pow_eq, pow_mul]

-- The exponent is a variable while the power is taken apart, or it would be evaluated.
theorem unitsPerOne_eq : unitsPerOne = (2 ^ 179) ^ 6 := by
  unfold unitsPerOne
  generalize factors : 1074 = exponent
  exact natPow_eq 2 factors.symm

theorem unitsPerOne_pos : 0 < unitsPerOne := by
  rw [unitsPerOne_eq]
  exact pow_pos (pow_pos (by decide) _) _

/-- There are fewer units in one than `10^324`. -/
theorem unitsPerOne_le : unitsPerOne ≤ (10 ^ 54) ^ 6 := by
  rw [unitsPerOne_eq]
  apply Nat.pow_le_pow_left
  norm_num

theorem leadingPower_eq (units : Nat) :
    leadingPower units =
      ((Nat.toDigits 10 (units * (10 ^ 54) ^ 6 / unitsPerOne)).length : ℤ) - 325 := by
  unfold leadingPower
  generalize factors : 324 = exponent
  have power : Nat.pow 10 exponent = (10 ^ 54) ^ 6 := natPow_eq 10 factors.symm
  rw [power]

/-- The grid of a number of digits, brought over a common power. -/
theorem tenPower_leadingPower_mul (units places : Nat) :
    (tenPower (leadingPower units + 1 - places)).1 * ((10 ^ 54) ^ 6 * 10 ^ places) =
      (tenPower (leadingPower units + 1 - places)).2 *
        10 ^ (Nat.toDigits 10 (units * (10 ^ 54) ^ 6 / unitsPerOne)).length := by
  have power : (10 ^ 54) ^ 6 * 10 ^ places = 10 ^ (54 * 6 + places) := by
    rw [pow_add, pow_mul]
  rw [power]
  apply tenPower_mul
  rw [leadingPower_eq]
  push_cast
  ring

/-- On the grid of seventeen digits, the distance of neighbours is at most the
`10^16`th part of the number. -/
theorem seventeen_grid_le {units : Nat} (positive : 0 < units) :
    (tenPower (leadingPower units + 1 - 17)).1 * unitsPerOne * 10 ^ 16 ≤
      units * (tenPower (leadingPower units + 1 - 17)).2 := by
  obtain ⟨others, count⟩ : ∃ others,
      (Nat.toDigits 10 (units * (10 ^ 54) ^ 6 / unitsPerOne)).length = others + 1 :=
    Nat.exists_eq_add_one.mpr Nat.length_toDigits_pos
  have scaledPositive : 0 < units * (10 ^ 54) ^ 6 / unitsPerOne :=
    Nat.div_pos (unitsPerOne_le.trans (Nat.le_mul_of_pos_left _ positive)) unitsPerOne_pos
  have first : 10 ^ others * unitsPerOne ≤ units * (10 ^ 54) ^ 6 := by
    have fits := pow_length_toDigits_le scaledPositive
    rw [count, Nat.add_sub_cancel] at fits
    exact (Nat.le_div_iff_mul_le unitsPerOne_pos).mp fits
  have scaled := tenPower_leadingPower_mul units 17
  rw [count, Nat.cast_ofNat] at scaled
  have powerPositive : 0 < (10 ^ 54) ^ 6 * 10 :=
    Nat.mul_pos (Nat.pow_pos (Nat.pow_pos (by decide))) (by decide)
  apply Nat.le_of_mul_le_mul_right _ powerPositive
  generalize (10 ^ 54) ^ 6 = power at first scaled ⊢
  generalize tenPower (leadingPower units + 1 - 17) = grid at scaled ⊢
  calc
    grid.1 * unitsPerOne * 10 ^ 16 * (power * 10) =
        grid.1 * (power * 10 ^ 17) * unitsPerOne := by ring
    _ = grid.2 * 10 * (10 ^ others * unitsPerOne) := by
        rw [scaled]
        ring
    _ ≤ grid.2 * 10 * (units * power) := Nat.mul_le_mul_left _ first
    _ = units * grid.2 * (power * 10) := by ring

/-- A grid has no more digits in front of the number than it is made for. -/
theorem units_lt_grid (units places : Nat) :
    units * (tenPower (leadingPower units + 1 - places)).2 <
      (tenPower (leadingPower units + 1 - places)).1 * unitsPerOne * 10 ^ places := by
  have last : units * (10 ^ 54) ^ 6 < 10 ^ (Nat.toDigits 10
      (units * (10 ^ 54) ^ 6 / unitsPerOne)).length * unitsPerOne := by
    apply (Nat.div_lt_iff_lt_mul unitsPerOne_pos).mp
    exact (Nat.length_toDigits_le_iff (by decide) Nat.length_toDigits_pos).mp (Nat.le_refl _)
  have scaled := tenPower_leadingPower_mul units places
  have positive := (tenPower_pos (leadingPower units + 1 - places)).2
  apply Nat.lt_of_mul_lt_mul_right (a := (10 ^ 54) ^ 6)
  generalize (10 ^ 54) ^ 6 = power at last scaled ⊢
  generalize 10 ^ (Nat.toDigits 10 (units * power / unitsPerOne)).length = next at last scaled
  generalize tenPower (leadingPower units + 1 - places) = grid at scaled positive ⊢
  calc
    units * grid.2 * power = units * power * grid.2 := by ring
    _ < next * unitsPerOne * grid.2 := Nat.mul_lt_mul_of_pos_right last positive
    _ = grid.2 * next * unitsPerOne := by ring
    _ = grid.1 * unitsPerOne * 10 ^ places * power := by
        rw [← scaled]
        ring

/-- The midpoints around a magnitude are as far apart as its two neighbours. -/
theorem midpointAbove_succ (before : Nat) :
    midpointAbove (before + 1) =
      midpointBelow (before + 1) + (spacing before + spacing (before + 1)) := by
  rw [midpointAbove, midpointBelow, unitsOf_succ (before + 1), Nat.add_sub_cancel,
    unitsOf_succ before]
  omega

/-- The midpoints around a magnitude are further apart than two `10^16`th parts
of it. -/
theorem lt_spacing_add (before : Nat) :
    2 * unitsOf (before + 1) < (spacing before + spacing (before + 1)) * 10 ^ 16 := by
  have bits := unitsOf_lt (before + 1)
  have positive := spacing_pos before
  rcases spacing_before before with same | ⟨doubled, least⟩
  · rw [same] at bits ⊢
    simp only [fractionCount] at bits
    omega
  · rw [doubled] at least ⊢
    simp only [fractionCount] at least
    omega

/-- The cell of a fine grid does not cover the interval between the midpoints. -/
theorem grid_not_covering {before grid denominator : Nat} (positive : 0 < denominator)
    (fine : grid * 10 ^ 16 ≤ unitsOf (before + 1) * denominator) (quotient : Nat) :
    midpointBelow (before + 1) * denominator < quotient * (2 * grid) ∨
      (quotient + 1) * (2 * grid) < midpointAbove (before + 1) * denominator := by
  by_contra neither
  obtain ⟨lowerFails, upperFails⟩ := not_or.mp neither
  have wide : (spacing before + spacing (before + 1)) * denominator ≤ 2 * grid := by
    rw [midpointAbove_succ, Nat.add_mul quotient, one_mul,
      Nat.add_mul (midpointBelow (before + 1))] at upperFails
    omega
  have cover : (spacing before + spacing (before + 1)) * 10 ^ 16 * denominator ≤
      2 * unitsOf (before + 1) * denominator := by
    calc
      (spacing before + spacing (before + 1)) * 10 ^ 16 * denominator =
          (spacing before + spacing (before + 1)) * denominator * 10 ^ 16 := by ring
      _ ≤ 2 * grid * 10 ^ 16 := Nat.mul_le_mul_right _ wide
      _ = 2 * (grid * 10 ^ 16) := by ring
      _ ≤ 2 * (unitsOf (before + 1) * denominator) := Nat.mul_le_mul_left _ fine
      _ = 2 * unitsOf (before + 1) * denominator := by ring
  exact absurd (lt_spacing_add before)
    (Nat.not_lt.mpr (Nat.le_of_mul_le_mul_right cover positive))

/-- The midpoints lie around the magnitude. -/
theorem midpoints_around (before : Nat) :
    midpointBelow (before + 1) < 2 * unitsOf (before + 1) ∧
      2 * unitsOf (before + 1) < midpointAbove (before + 1) := by
  have first : unitsOf before < unitsOf (before + 1) := unitsOf_strictMono (Nat.lt_succ_self _)
  have second : unitsOf (before + 1) < unitsOf (before + 1 + 1) :=
    unitsOf_strictMono (Nat.lt_succ_self _)
  unfold midpointBelow midpointAbove
  rw [Nat.add_sub_cancel]
  omega

/-- A fraction strictly between the midpoints passes the exact test. -/
theorem roundsTo_of_between {magnitude numerator denominator : Nat}
    (above : midpointBelow magnitude * denominator < numerator)
    (below : numerator < midpointAbove magnitude * denominator) :
    roundsTo magnitude numerator denominator = true := by
  unfold midpointBelow at above
  unfold midpointAbove at below
  unfold roundsTo
  split
  · simp only [Bool.and_eq_true, decide_eq_true_iff]
    exact ⟨above.le, below.le⟩
  · simp only [Bool.and_eq_true, decide_eq_true_iff]
    exact ⟨above, below⟩

/-- A choice is made if one of the two neighbours on the grid reads back. -/
theorem withPlaces?_isSome {magnitude places quotient : Nat} {scale : ℤ}
    (scaleEq : scale = leadingPower (unitsOf magnitude) + 1 - places)
    (quotientEq : quotient = unitsOf magnitude * (tenPower scale).2 /
      ((tenPower scale).1 * unitsPerOne))
    (reads : readsBackAs magnitude ⟨quotient, scale⟩ = true ∨
      readsBackAs magnitude ⟨quotient + 1, scale⟩ = true) :
    (withPlaces? magnitude places).isSome := by
  subst quotientEq scaleEq
  unfold withPlaces?
  dsimp only
  split
  · rfl
  · rfl
  · rfl
  · rename_i belowFails aboveFails
    rw [belowFails, aboveFails] at reads
    simp at reads

/-- Some decimal of seventeen digits reads back as any magnitude but zero. -/
theorem withPlaces?_seventeen (before : Nat) : (withPlaces? (before + 1) 17).isSome := by
  have unitsPositive : 0 < unitsOf (before + 1) :=
    (Nat.zero_le _).trans_lt (unitsOf_strictMono (Nat.lt_succ_self before))
  have fine := seventeen_grid_le unitsPositive
  obtain ⟨aboveBefore, belowAfter⟩ := midpoints_around before
  refine withPlaces?_isSome rfl rfl ?_
  unfold readsBackAs
  dsimp only [Nat.cast_ofNat]
  obtain ⟨numeratorPositive, positive⟩ :=
    tenPower_pos (leadingPower (unitsOf (before + 1)) + 1 - 17)
  generalize tenPower (leadingPower (unitsOf (before + 1)) + 1 - 17) = power at *
  have regroup : ∀ count, count * power.1 * (2 * unitsPerOne) =
      count * (2 * (power.1 * unitsPerOne)) := fun count => by ring
  rw [regroup, regroup]
  have gridPositive : 0 < power.1 * unitsPerOne := Nat.mul_pos numeratorPositive unitsPerOne_pos
  generalize power.1 * unitsPerOne = grid at *
  have below := Nat.div_mul_le_self (unitsOf (before + 1) * power.2) grid
  have above := Nat.lt_mul_div_succ (unitsOf (before + 1) * power.2) gridPositive
  generalize unitsOf (before + 1) * power.2 / grid = quotient at *
  have scaledBefore := Nat.mul_lt_mul_of_pos_right aboveBefore positive
  have scaledAfter := Nat.mul_lt_mul_of_pos_right belowAfter positive
  rw [Nat.mul_assoc] at scaledBefore scaledAfter
  rcases grid_not_covering positive fine quotient with lower | upper
  · left
    refine roundsTo_of_between lower ?_
    calc
      quotient * (2 * grid) = 2 * (quotient * grid) := by ring
      _ ≤ 2 * (unitsOf (before + 1) * power.2) := Nat.mul_le_mul_left _ below
      _ < midpointAbove (before + 1) * power.2 := scaledAfter
  · right
    refine roundsTo_of_between ?_ upper
    calc
      midpointBelow (before + 1) * power.2 < 2 * (unitsOf (before + 1) * power.2) := scaledBefore
      _ ≤ 2 * (grid * (quotient + 1)) := Nat.mul_le_mul_left _ above.le
      _ = (quotient + 1) * (2 * grid) := by ring

/-- The shortest decimal has at most seventeen digits. -/
theorem exists_withPlaces?_shortest {magnitude : Nat} (nonzero : magnitude ≠ 0) :
    ∃ places ≤ 17, withPlaces? magnitude places = some (shortest magnitude) := by
  obtain ⟨before, rfl⟩ := Nat.exists_eq_add_one_of_ne_zero nonzero
  obtain ⟨x, chosen⟩ : ∃ x, ((List.range 17).findSome? fun places =>
      withPlaces? (before + 1) (places + 1)) = some x := by
    rw [← Option.isSome_iff_exists, List.findSome?_isSome_iff]
    exact ⟨16, by decide, withPlaces?_seventeen before⟩
  rw [shortest, chosen, Option.getD_some]
  obtain ⟨places, few, found⟩ := List.exists_of_findSome?_eq_some chosen
  exact ⟨places + 1, List.mem_range.mp few, found⟩

/-- The shortest decimal of a magnitude reads back as the magnitude. -/
theorem readsBackAs_shortest {magnitude : Nat} (nonzero : magnitude ≠ 0) :
    readsBackAs magnitude (shortest magnitude) = true := by
  obtain ⟨places, -, chosen⟩ := exists_withPlaces?_shortest nonzero
  exact (of_withPlaces? chosen).1

theorem rounds_shortest {magnitude : Nat} (nonzero : magnitude ≠ 0) :
    Rounds magnitude (halvesOf (shortest magnitude).value) :=
  (readsBackAs_iff _ _).mp (readsBackAs_shortest nonzero)

theorem rounds_zero : Rounds 0 (halvesOf 0) := by
  have below : midpointBelow 0 = 0 := by decide
  have above : midpointAbove 0 = 1 := by decide
  rw [halvesOf, zero_mul, Rounds, below, above]
  norm_num

/-- Only zero is read from the digit zero. -/
theorem coefficient_pos {magnitude : Nat} {x : Decimal} (nonzero : magnitude ≠ 0)
    (rounds : Rounds magnitude (halvesOf x.value)) : 0 < x.coefficient := by
  by_contra notPositive
  rw [Decimal.value, Nat.eq_zero_of_not_pos notPositive, Nat.cast_zero, zero_mul] at rounds
  exact nonzero (rounds.unique rounds_zero)

theorem shortest_coefficient_pos {magnitude : Nat} (nonzero : magnitude ≠ 0) :
    0 < (shortest magnitude).coefficient :=
  coefficient_pos nonzero (rounds_shortest nonzero)

theorem shortest_coefficient_le {magnitude : Nat} (nonzero : magnitude ≠ 0) :
    (shortest magnitude).coefficient ≤ 10 ^ 17 := by
  obtain ⟨places, few, chosen⟩ := exists_withPlaces?_shortest nonzero
  obtain ⟨-, scale, neighbour⟩ := of_withPlaces? chosen
  rw [scale] at neighbour
  exact (neighbour.trans (Nat.div_lt_of_lt_mul (units_lt_grid _ places))).trans
    (Nat.pow_le_pow_right (by decide) few)

/-! ## The text of a double -/

/-- The text of a double is that of its absolute value, behind its sign. -/
theorem text_eq (style : DecimalStyle) (x : Binary64) :
    x.text style =
      if x.negative then '-' :: (x.withSign false).text style else (x.withSign false).text style :=
  rfl

/-- Without a sign, the text is that of a decimal or of zero. -/
theorem text_withSign_false (style : DecimalStyle) (x : Binary64) :
    (x.withSign false).text style =
      if x.magnitude = 0 then ['0', '.', '0'] else (shortest x.magnitude).text style :=
  rfl

theorem head?_text_withSign_false (style : DecimalStyle) (x : Binary64) :
    ((x.withSign false).text style).head? ≠ some '-' := by
  rw [text_withSign_false]
  split
  · decide
  · exact Decimal.head?_text_ne_minus _ _

/-- Without a sign, the text spells a number that rounds to the magnitude. -/
theorem rounds_spelledValue (style : DecimalStyle) (x : Binary64) :
    Rounds x.magnitude (halvesOf (spelledValue ((x.withSign false).text style))) := by
  rw [text_withSign_false]
  split
  · rename_i zero
    have spelled : spelledValue ['0', '.', '0'] = 0 := by
      simp [spelledValue, spelledDecimal, Decimal.value, Nat.ofDigitChars]
    rw [zero, spelled]
    exact rounds_zero
  · rename_i nonzero
    rw [Decimal.spelledValue_text style (shortest_coefficient_pos nonzero)]
    exact rounds_shortest nonzero

/-- Different doubles have different texts; the two zeros differ as well. -/
theorem text_injective (style : DecimalStyle) : Function.Injective (text style) := by
  intro left right same
  have leftHead := head?_text_withSign_false style left
  have rightHead := head?_text_withSign_false style right
  rw [text_eq style left, text_eq style right] at same
  have parts : left.negative = right.negative ∧
      (left.withSign false).text style = (right.withSign false).text style := by
    cases leftSign : left.negative <;> cases rightSign : right.negative <;>
      rw [leftSign, rightSign] at same
    · exact ⟨rfl, same⟩
    · exact absurd (congrArg List.head? same) leftHead
    · exact absurd (congrArg List.head? same).symm rightHead
    · exact ⟨rfl, List.tail_eq_of_cons_eq same⟩
  have leftRounds := rounds_spelledValue style left
  rw [parts.2] at leftRounds
  have magnitudes := leftRounds.unique (rounds_spelledValue style right)
  cases left
  cases right
  simp only [mk.injEq]
  exact ⟨parts.1, magnitudes⟩

/-- The text of a double shows that it is no integer. -/
theorem point_or_mark_mem_text (style : DecimalStyle) (x : Binary64) :
    '.' ∈ x.text style ∨ 'e' ∈ x.text style := by
  have unsigned : ∀ digits, ('.' ∈ digits ∨ 'e' ∈ digits) →
      '.' ∈ (if x.negative then '-' :: digits else digits) ∨
        'e' ∈ (if x.negative then '-' :: digits else digits) := by
    intro digits marked
    split
    · exact marked.imp (List.mem_cons_of_mem _) (List.mem_cons_of_mem _)
    · exact marked
  apply unsigned
  split
  · exact Or.inl (by decide)
  · exact Decimal.point_or_mark_mem_text _ _

/-- The text of a double has only characters of numerals. -/
theorem all_isNumeralChar_text (style : DecimalStyle) (x : Binary64) :
    (x.text style).all isNumeralChar = true := by
  have unsigned : ∀ digits : List Char, digits.all isNumeralChar = true →
      (if x.negative then '-' :: digits else digits).all isNumeralChar = true := by
    intro digits numeral
    split
    · rw [List.all_cons, numeral]
      rfl
    · exact numeral
  apply unsigned
  split
  · decide
  · exact Decimal.all_isNumeralChar_text _ _

end Provenance.Binary64
