import AlertAdmission.Decimal.Layout
import AlertAdmission.Proofs.Text.Digits

/-!
Whole numbers up to 2 ^ 53 as doubles.

Such a number is the value of a double, so that nothing is rounded, whichever fraction it is given
as: neither as a whole number (`Binary64.isNat_ofInt`) nor as a decimal numeral with a point or a
power of ten (`Binary64.isNat_toBinary64`).
-/

namespace AlertAdmission

open Text

namespace Binary64

variable {n den limit : Nat} {e : Int} {negative : Bool} {x : Binary64}

/-- A double has a natural number as its value; a zero may have either sign. -/
def IsNat (x : Binary64) (n : Nat) : Prop :=
  ∃ negative significand exponent, x = .finite negative significand exponent ∧
    (magnitude significand exponent).1 = n * (magnitude significand exponent).2 ∧
    (negative = true → n = 0)

theorem inUnits_eq (num den : Nat) (e : Int) :
    inUnits num den e = (num * 2 ^ (-e).toNat, den * 2 ^ e.toNat) := by
  unfold inUnits
  split
  · next nonneg => simp [Int.toNat_of_nonpos (Int.neg_nonpos_of_nonneg nonneg)]
  · next negative => simp [Int.toNat_of_nonpos (Int.le_of_lt (Int.not_le.mp negative))]

theorem magnitude_eq (significand : Nat) (e : Int) :
    magnitude significand e = (significand * 2 ^ e.toNat, 2 ^ (-e).toNat) := by
  unfold magnitude
  split
  · next nonneg => simp [Int.toNat_of_nonpos (Int.neg_nonpos_of_nonneg nonneg)]
  · next negative => simp [Int.toNat_of_nonpos (Int.le_of_lt (Int.not_le.mp negative))]

theorem magnitude_pos (significand : Nat) (e : Int) : 0 < (magnitude significand e).2 := by
  rw [magnitude_eq]
  exact Nat.two_pow_pos _

theorem IsNat.clampToNat (h : x.IsNat n) (within : n ≤ limit) : x.clampToNat limit = n := by
  obtain ⟨negative, significand, exponent, rfl, value, sign⟩ := h
  have whole : wholePart significand exponent = n := by
    rw [wholePart, value, Nat.mul_div_cancel _ (magnitude_pos significand exponent)]
  cases negative with
  | true => simp [Binary64.clampToNat, sign rfl]
  | false =>
    simp only [Binary64.clampToNat, whole, Bool.false_eq_true, if_false]
    split <;> omega

/-! ### Fractions that are whole -/

theorem divideToEven_mul (k : Nat) (pos : 0 < den) : divideToEven (k * den) den = k := by
  simp [divideToEven, Nat.mul_div_cancel _ pos, pos]

/-- The bits of a product are those of its factors, or one less. -/
theorem log2_mul (some : n ≠ 0) (pos : 0 < den) :
    Nat.log2 (n * den) = Nat.log2 n + Nat.log2 den ∨
      Nat.log2 (n * den) = Nat.log2 n + Nat.log2 den + 1 := by
  have positive : den ≠ 0 := Nat.ne_of_gt pos
  have least := Nat.mul_le_mul (Nat.log2_self_le some) (Nat.log2_self_le positive)
  have most := Nat.mul_lt_mul'' (Nat.lt_log2_self (n := n)) (Nat.lt_log2_self (n := den))
  rw [← Nat.pow_add] at least most
  have bits := (Nat.le_log2 (Nat.mul_ne_zero some positive)).mpr least
  have fewer := (Nat.log2_lt (Nat.mul_ne_zero some positive)).mpr most
  omega

theorem leastFull_mul_pow {k : Nat} (h : (k : Int) = e + 52) :
    leastFull * 2 ^ e.toNat = 2 ^ k * 2 ^ (-e).toNat := by
  have same : 52 + e.toNat = k + (-e).toNat := by omega
  rw [← Nat.pow_add, ← same, Nat.pow_add]
  rfl

/-- Whether there are too few bits before the point does not depend on the denominator. -/
theorem inUnits_lt_iff (pos : 0 < den) :
    (inUnits (n * den) den e).1 < leastFull * (inUnits (n * den) den e).2 ↔
      n * 2 ^ (-e).toNat < leastFull * 2 ^ e.toNat := by
  rw [inUnits_eq]
  dsimp only
  rw [Nat.mul_right_comm, Nat.mul_left_comm, Nat.mul_comm den, Nat.mul_lt_mul_right pos]

theorem lastPlace_of_whole (some : n ≠ 0) (pos : 0 < den) :
    lastPlace (n * den) den = (Nat.log2 n : Int) - 52 := by
  have enough := Nat.log2_self_le some
  have few := Nat.lt_log2_self (n := n)
  have inRange : ¬ (Nat.log2 n : Int) - 52 < leastExponent := by
    unfold leastExponent
    omega
  unfold lastPlace
  rcases log2_mul some pos with bits | bits
  · have guess : (Nat.log2 (n * den) : Int) - Nat.log2 den - 52 = Nat.log2 n - 52 := by omega
    have full : ¬ (inUnits (n * den) den (Nat.log2 n - 52)).1 <
        leastFull * (inUnits (n * den) den (Nat.log2 n - 52)).2 := by
      rw [inUnits_lt_iff pos, leastFull_mul_pow (k := Nat.log2 n) (by omega), Nat.not_lt]
      exact Nat.mul_le_mul_right _ enough
    simp only [guess, full, if_false, inRange]
  · -- the first guess leaves one bit too few
    have guess : (Nat.log2 (n * den) : Int) - Nat.log2 den - 52 = Nat.log2 n - 51 := by omega
    have less : (inUnits (n * den) den (Nat.log2 n - 51)).1 <
        leastFull * (inUnits (n * den) den (Nat.log2 n - 51)).2 := by
      rw [inUnits_lt_iff pos, leastFull_mul_pow (k := Nat.log2 n + 1) (by omega)]
      exact Nat.mul_lt_mul_of_pos_right few (Nat.two_pow_pos _)
    have next : (Nat.log2 n : Int) - 51 - 1 = Nat.log2 n - 52 := by omega
    simp only [guess, less, if_true, next, inRange, if_false]

/-- A whole number of up to 53 bits, and 2 ^ 53, in units of the last place of its double. -/
theorem exists_significand (some : n ≠ 0) (small : n ≤ 2 ^ 53) (h : e = (Nat.log2 n : Int) - 52) :
    ∃ significand < 2 * leastFull, n * 2 ^ (-e).toNat = significand * 2 ^ e.toNat := by
  have few := Nat.lt_log2_self (n := n)
  rcases Int.lt_or_le 0 e with beyond | whole
  · -- only 2 ^ 53 itself has more than 53 bits
    have enough := Nat.log2_self_le some
    have large : 53 ≤ Nat.log2 n := by omega
    have least : 2 ^ 53 ≤ n := (Nat.le_log2 some).mp large
    have same : n = 2 ^ 53 := Nat.le_antisymm small least
    subst same
    rw [Nat.log2_two_pow] at h
    subst h
    exact ⟨leastFull, by decide, by decide⟩
  · have unit : e.toNat = 0 := Int.toNat_of_nonpos whole
    refine ⟨n * 2 ^ (-e).toNat, ?_, by rw [unit, Nat.pow_zero, Nat.mul_one]⟩
    have below : n * 2 ^ (-e).toNat < 2 ^ (Nat.log2 n + 1) * 2 ^ (-e).toNat :=
      Nat.mul_lt_mul_of_pos_right few (Nat.two_pow_pos _)
    have bits : Nat.log2 n + 1 + (-e).toNat = 53 := by omega
    rwa [← Nat.pow_add, bits] at below

/-- A fraction that is a whole number up to 2 ^ 53 is not rounded. -/
theorem isNat_ofFraction (small : n ≤ 2 ^ 53) (pos : 0 < den) (sign : negative = true → n = 0) :
    (ofFraction negative (n * den) den).IsNat n := by
  by_cases none : n = 0
  · subst none
    rw [Nat.zero_mul]
    exact ⟨negative, 0, leastExponent, rfl, by simp [magnitude_eq], fun _ => rfl⟩
  · have place := lastPlace_of_whole none pos
    obtain ⟨significand, below, value⟩ := exists_significand none small rfl
    have finite : ¬ greatestExponent < (Nat.log2 n : Int) - 52 := by
      have bits := (Nat.log2_lt none).mpr (Nat.lt_of_le_of_lt small (by decide : _ < 2 ^ 54))
      unfold greatestExponent
      omega
    generalize (Nat.log2 n : Int) - 52 = e at place value finite
    have rounded : divideToEven (inUnits (n * den) den e).1 (inUnits (n * den) den e).2 =
        significand := by
      rw [inUnits_eq]
      dsimp only
      rw [Nat.mul_right_comm, value, Nat.mul_assoc, Nat.mul_comm (2 ^ e.toNat),
        divideToEven_mul significand (Nat.mul_pos pos (Nat.two_pow_pos _))]
    refine ⟨negative, significand, e, ?_, by rw [magnitude_eq, value], sign⟩
    simp only [ofFraction, Nat.mul_ne_zero none (Nat.ne_of_gt pos), place, rounded,
      Nat.ne_of_lt below, finite, if_false]

theorem isNat_ofInt (small : n ≤ 2 ^ 53) : (ofInt n).IsNat n := by
  have fraction : (ofFraction false (n * 1) 1).IsNat n :=
    isNat_ofFraction small Nat.one_pos (by simp)
  rw [Nat.mul_one] at fraction
  have notNegative : decide ((n : Int) < 0) = false := decide_eq_false (by omega)
  rwa [ofInt, notNegative, Int.natAbs_natCast]

/-! ### Decimal numerals that are whole -/

/-- `coefficient * 10 ^ power` is the number; a negative power is moved to the other side. -/
def IsWhole (coefficient : Nat) (power : Int) (n : Nat) : Prop :=
  coefficient * 10 ^ power.toNat = n * 10 ^ (-power).toNat

instance (coefficient : Nat) (power : Int) (n : Nat) : Decidable (IsWhole coefficient power n) :=
  inferInstanceAs (Decidable (_ = _))

variable {coefficient : Nat} {power : Int}

theorem lt_pow_length_repr (n : Nat) : n < 10 ^ (Nat.repr n).length := by
  have bound := natOfDigits_lt (isDigit_repr n)
  rwa [natOfDigits_repr, String.length_toList] at bound

/-- The cut-off for large powers of ten leaves out no number up to 2 ^ 53. -/
theorem IsWhole.power_le (h : IsWhole coefficient power n) (some : coefficient ≠ 0)
    (small : n ≤ 2 ^ 53) : power ≤ 400 := by
  refine Int.not_lt.mp fun large => ?_
  have unit : (-power).toNat = 0 := by omega
  have least : 10 ^ 16 ≤ 10 ^ power.toNat := Nat.pow_le_pow_right (by decide) (by omega)
  have product := Nat.le_mul_of_pos_left (10 ^ power.toNat) (Nat.pos_of_ne_zero some)
  unfold IsWhole at h
  rw [unit] at h
  omega

/-- The cut-off for small powers of ten leaves out no number but zero. -/
theorem IsWhole.le_power (h : IsWhole coefficient power n) (some : coefficient ≠ 0) :
    -400 ≤ power + (Nat.repr coefficient).length := by
  refine Int.not_lt.mp fun tiny => ?_
  have unit : power.toNat = 0 := by omega
  have most : 10 ^ (Nat.repr coefficient).length ≤ 10 ^ (-power).toNat :=
    Nat.pow_le_pow_right (by decide) (by omega)
  have digits := lt_pow_length_repr coefficient
  unfold IsWhole at h
  rw [unit, Nat.pow_zero, Nat.mul_one] at h
  have positive : 0 < n := Nat.pos_of_ne_zero fun none => some (by rw [h, none, Nat.zero_mul])
  have product := Nat.le_mul_of_pos_left (10 ^ (-power).toNat) positive
  omega

theorem isNat_ofDecimal (small : n ≤ 2 ^ 53) (value : IsWhole coefficient power n)
    (sign : negative = true → n = 0) : (ofDecimal negative coefficient power).IsNat n := by
  by_cases none : coefficient = 0
  · have zero : n = 0 := by
      have product := value.symm
      rw [none, Nat.zero_mul] at product
      exact (Nat.mul_eq_zero.mp product).resolve_right (by simp)
    subst none zero
    exact ⟨negative, 0, leastExponent, rfl, by simp [magnitude_eq], fun _ => rfl⟩
  · simp only [ofDecimal, none, Int.not_lt.mpr (value.power_le none small),
      Int.not_lt.mpr (value.le_power none), if_false]
    unfold IsWhole at value
    split
    · next nonneg =>
      have unit : (-power).toNat = 0 := by omega
      rw [unit] at value
      have fraction := isNat_ofFraction small Nat.one_pos sign
      rw [Nat.pow_zero] at value
      rwa [← value] at fraction
    · next below =>
      have unit : power.toNat = 0 := by omega
      rw [unit, Nat.pow_zero, Nat.mul_one] at value
      rw [value]
      exact isNat_ofFraction small (Nat.pow_pos (by decide)) sign

end Binary64

/-- The number that a numeral writes. -/
def Decimal.Numeral.IsNat (d : Decimal.Numeral) (n : Nat) : Prop :=
  Binary64.IsWhole (natOfDigits (d.whole ++ d.fraction)) (d.power - d.fraction.length) n

instance (d : Decimal.Numeral) (n : Nat) : Decidable (d.IsNat n) :=
  inferInstanceAs (Decidable (Binary64.IsWhole _ _ _))

theorem Binary64.isNat_toBinary64 {d : Decimal.Numeral} {n : Nat} {negative : Bool}
    (small : n ≤ 2 ^ 53) (value : d.IsNat n) (sign : negative = true → n = 0) :
    (d.toBinary64 negative).IsNat n :=
  isNat_ofDecimal small value sign

end AlertAdmission
