import AlertAdmission.Proofs.Decimal.Whole

/-!
Doubles as words of 64 bits.

Whatever has been rounded has the one form of a double (`Binary64.isDouble_ofFraction`), and so have
the numbers that are read and computed. Each double has a word of its own
(`Binary64.eq_of_toWord_eq`).
-/

namespace AlertAdmission.Binary64

variable {num den k m n : Nat} {e f : Int} {negative other : Bool} {x y : Binary64}

/-- The form of a double: a significand of 53 bits, or one of fewer bits and the least exponent. -/
def IsDouble : Binary64 → Prop
  | .finite _ significand exponent =>
    significand < 2 * leastFull ∧ leastExponent ≤ exponent ∧ exponent ≤ greatestExponent ∧
      (leastFull ≤ significand ∨ exponent = leastExponent)
  | _ => True

/-! ### Rounding -/

/-- In units of a power of two, a fraction is below a natural number. -/
def Below (num den k : Nat) (e : Int) : Prop := num * 2 ^ (-e).toNat < k * (den * 2 ^ e.toNat)

theorem below_iff : (inUnits num den e).1 < k * (inUnits num den e).2 ↔ Below num den k e := by
  rw [inUnits_eq]
  rfl

/-- In units half as large, the bound is twice as large. -/
theorem below_pred : Below num den (2 * k) (e - 1) ↔ Below num den k e := by
  unfold Below
  rcases Int.lt_or_le 0 e with positive | small
  · have unit : (-(e - 1)).toNat = (-e).toNat := by omega
    have double : e.toNat = (e - 1).toNat + 1 := by omega
    rw [unit, double, Nat.pow_succ, Nat.mul_comm 2 k, Nat.mul_assoc, Nat.mul_left_comm 2,
      Nat.mul_comm 2]
  · have unit : (e - 1).toNat = e.toNat := by omega
    have double : (-(e - 1)).toNat = (-e).toNat + 1 := by omega
    rw [unit, double, Nat.pow_succ, ← Nat.mul_assoc, Nat.mul_comm _ 2, Nat.mul_assoc 2 k,
      Nat.mul_lt_mul_left (by decide)]

/-- In larger units a fraction stays below what it was below. -/
theorem Below.mono (h : Below num den k e) (larger : e ≤ f) : Below num den k f := by
  unfold Below at h ⊢
  calc num * 2 ^ (-f).toNat
      ≤ num * 2 ^ (-e).toNat :=
        Nat.mul_le_mul_left _ (Nat.pow_le_pow_right (by decide) (by omega))
    _ < k * (den * 2 ^ e.toNat) := h
    _ ≤ k * (den * 2 ^ f.toNat) :=
        Nat.mul_le_mul_left _ (Nat.mul_le_mul_left _ (Nat.pow_le_pow_right (by decide) (by omega)))

/-- The first guess leaves at most 53 bits before the point. -/
theorem below_guess (pos : 0 < den)
    (guess : e = (Nat.log2 num : Int) - Nat.log2 den - 52) :
    Below num den (2 * leastFull) e := by
  have few := Nat.lt_log2_self (n := num)
  have enough := Nat.log2_self_le (Nat.ne_of_gt pos)
  have bits : Nat.log2 num + 1 + (-e).toNat = 53 + (Nat.log2 den + e.toNat) := by omega
  unfold Below
  calc num * 2 ^ (-e).toNat
      < 2 ^ (Nat.log2 num + 1) * 2 ^ (-e).toNat :=
        Nat.mul_lt_mul_of_pos_right few (Nat.two_pow_pos _)
    _ = 2 ^ 53 * (2 ^ Nat.log2 den * 2 ^ e.toNat) := by
        rw [← Nat.pow_add, bits, Nat.pow_add, Nat.pow_add]
    _ ≤ 2 * leastFull * (den * 2 ^ e.toNat) :=
        Nat.mul_le_mul_left _ (Nat.mul_le_mul_right _ enough)

/-- The first guess leaves at least 52 bits before the point. -/
theorem not_below_guess (some : num ≠ 0)
    (guess : e = (Nat.log2 num : Int) - Nat.log2 den - 52) : ¬ Below num den (2 ^ 51) e := by
  have few := Nat.lt_log2_self (n := den)
  have enough := Nat.log2_self_le some
  have bits : 51 + (Nat.log2 den + 1 + e.toNat) = Nat.log2 num + (-e).toNat := by omega
  unfold Below
  rw [Nat.not_lt]
  calc 2 ^ 51 * (den * 2 ^ e.toNat)
      ≤ 2 ^ 51 * (2 ^ (Nat.log2 den + 1) * 2 ^ e.toNat) :=
        Nat.mul_le_mul_left _ (Nat.mul_le_mul_right _ (Nat.le_of_lt few))
    _ = 2 ^ Nat.log2 num * 2 ^ (-e).toNat := by
        rw [← Nat.pow_add, ← Nat.pow_add, bits, Nat.pow_add]
    _ ≤ num * 2 ^ (-e).toNat := Nat.mul_le_mul_right _ enough

/-- The last place leaves 53 bits before the point, or fewer where it is the least exponent. -/
theorem lastPlace_spec (some : num ≠ 0) (pos : 0 < den) :
    leastExponent ≤ lastPlace num den ∧ Below num den (2 * leastFull) (lastPlace num den) ∧
      (¬ Below num den leastFull (lastPlace num den) ∨ lastPlace num den = leastExponent) := by
  obtain ⟨guess, isGuess⟩ : ∃ e, e = (Nat.log2 num : Int) - Nat.log2 den - 52 := ⟨_, rfl⟩
  obtain ⟨place, isPlace⟩ : ∃ e, e =
      if (inUnits num den guess).1 < leastFull * (inUnits num den guess).2 then guess - 1
      else guess := ⟨_, rfl⟩
  have spec : Below num den (2 * leastFull) place ∧ ¬ Below num den leastFull place := by
    rw [isPlace]
    split
    · next short =>
      rw [below_iff] at short
      exact ⟨below_pred.mpr short,
        fun less => not_below_guess some isGuess (below_pred.mp less)⟩
    · next full =>
      rw [below_iff] at full
      exact ⟨below_guess pos isGuess, full⟩
  have last : lastPlace num den = if place < leastExponent then leastExponent else place := by
    rw [isPlace, isGuess]
    rfl
  rw [last]
  split
  · next low => exact ⟨Int.le_refl _, spec.1.mono (Int.le_of_lt low), .inr rfl⟩
  · next inRange => exact ⟨Int.not_lt.mp inRange, spec.1, .inl spec.2⟩

theorem divideToEven_bounds (num den : Nat) :
    num / den ≤ divideToEven num den ∧ divideToEven num den ≤ num / den + 1 := by
  unfold divideToEven
  dsimp only
  split
  · omega
  · split
    · omega
    · split <;> omega

theorem isDouble_zero (negative : Bool) : (zero negative).IsDouble :=
  ⟨by decide, by decide, by decide, .inr rfl⟩

/-- A quotient that has been rounded is a double. -/
theorem isDouble_ofFraction (negative : Bool) (num : Nat) (pos : 0 < den) :
    (ofFraction negative num den).IsDouble := by
  unfold ofFraction
  by_cases none : num = 0
  · rw [if_pos none]
    exact isDouble_zero negative
  · rw [if_neg none]
    obtain ⟨least, below, full⟩ := lastPlace_spec none pos
    rw [← below_iff] at below full
    generalize lastPlace num den = e at least below full
    obtain ⟨down, up⟩ := divideToEven_bounds (inUnits num den e).1 (inUnits num den e).2
    have few : (inUnits num den e).1 / (inUnits num den e).2 < 2 * leastFull :=
      Nat.div_lt_of_lt_mul (Nat.mul_comm _ _ ▸ below)
    have enough : leastFull ≤ divideToEven (inUnits num den e).1 (inUnits num den e).2 ∨
        e = leastExponent := by
      refine full.imp_left fun full => Nat.le_trans ?_ down
      refine (Nat.le_div_iff_mul_le ?_).mpr (Nat.not_lt.mp full)
      rw [inUnits_eq]
      exact Nat.mul_pos pos (Nat.two_pow_pos _)
    dsimp only
    generalize divideToEven (inUnits num den e).1 (inUnits num den e).2 = rounded at down up enough
    by_cases carried : rounded = 2 * leastFull
    · simp only [if_pos carried]
      split
      · trivial
      · next inRange =>
        exact ⟨by decide, by omega, Int.not_lt.mp inRange, .inl (Nat.le_refl _)⟩
    · simp only [if_neg carried]
      split
      · trivial
      · next inRange => exact ⟨by omega, least, Int.not_lt.mp inRange, enough⟩

theorem isDouble_ofInt (i : Int) : (ofInt i).IsDouble := isDouble_ofFraction _ _ Nat.one_pos

theorem isDouble_ofDecimal (negative : Bool) (coefficient : Nat) (power : Int) :
    (ofDecimal negative coefficient power).IsDouble := by
  unfold ofDecimal
  split
  · exact isDouble_zero negative
  · split
    · trivial
    · split
      · exact isDouble_zero negative
      · split
        · exact isDouble_ofFraction _ _ Nat.one_pos
        · exact isDouble_ofFraction _ _ (Nat.pow_pos (by decide))

theorem isDouble_div (x y : Binary64) : (x.div y).IsDouble := by
  fun_cases div x y with
  | case1 s e t f => trivial
  | case2 s m e t f some => trivial
  | case3 s m e t n f some =>
    have divisor : 0 < (magnitude n f).1 := by
      rw [magnitude_eq]
      exact Nat.mul_pos (Nat.pos_of_ne_zero some) (Nat.two_pow_pos _)
    exact isDouble_ofFraction _ _ (Nat.mul_pos (magnitude_pos m e) divisor)
  | case4 s t m e => trivial
  | case5 s m e t => exact isDouble_zero _
  | case6 x y _ _ _ => trivial

theorem IsDouble.truncate (h : x.IsDouble) : x.truncate.IsDouble := by
  cases x with
  | finite negative m e => exact isDouble_ofFraction _ _ Nat.one_pos
  | infinite negative => trivial
  | notANumber => trivial

/-- Whatever is read from a text is a double. -/
theorem isDouble_of_read {cs : List Char} (h : Decimal.double? cs = some x) : x.IsDouble := by
  have unsigned (negative : Bool) (rest : List Char)
      (read : Decimal.unsignedDouble? negative rest = some x) : x.IsDouble := by
    unfold Decimal.unsignedDouble? at read
    dsimp only at read
    split at read
    · cases read
      trivial
    · split at read
      · cases read
        trivial
      · obtain ⟨d, _, rfl⟩ := Option.map_eq_some_iff.mp read
        exact isDouble_ofDecimal _ _ _
  unfold Decimal.double? at h
  split at h
  · exact unsigned _ _ h
  · exact unsigned _ _ h
  · exact unsigned _ _ h

/-! ### Words -/

/-- The word of a number by its significand and exponent, without its sign. -/
def unsigned (significand : Nat) (exponent : Int) : Nat :=
  if significand < leastFull then significand
  else (exponent + 1075).toNat * leastFull + (significand - leastFull)

theorem toWord_finite : toWord (.finite negative m e) = signBit negative + unsigned m e := by
  change (if m < leastFull then _ else _) = _
  unfold unsigned
  split
  · rfl
  · exact Nat.add_assoc _ _ _

/-- The words from there on are those of infinities and of what is not a number. -/
theorem unsigned_lt (h : IsDouble (.finite negative m e)) : unsigned m e < 2047 * leastFull := by
  obtain ⟨few, least, greatest, -⟩ := h
  unfold greatestExponent at greatest
  unfold unsigned leastFull at *
  split <;> omega

theorem eq_of_unsigned_eq (h : IsDouble (.finite negative m e)) (h' : IsDouble (.finite other n f))
    (same : unsigned m e = unsigned n f) : m = n ∧ e = f := by
  obtain ⟨few, least, -, full⟩ := h
  obtain ⟨few', least', -, full'⟩ := h'
  unfold unsigned at same
  unfold leastExponent leastFull at *
  split at same <;> split at same <;> omega

theorem toWord_lt (h : x.IsDouble) : x.toWord < 2 ^ 64 := by
  cases x with
  | finite negative m e =>
    have below := unsigned_lt h
    rw [toWord_finite]
    unfold leastFull at below
    cases negative <;> simp [signBit] <;> omega
  | infinite negative => cases negative <;> decide
  | notANumber => decide

theorem toWord_ne (h : IsDouble (.finite negative m e)) (special : y.isFinite = false) :
    toWord (.finite negative m e) ≠ y.toWord := by
  have below := unsigned_lt h
  rw [toWord_finite]
  unfold leastFull at below
  cases y with
  | finite other n f => cases special
  | infinite other => cases negative <;> cases other <;> simp [signBit, toWord, leastFull] <;> omega
  | notANumber => cases negative <;> simp [signBit, toWord, leastFull] <;> omega

/-- No two doubles have the same word. -/
theorem eq_of_toWord_eq (h : x.IsDouble) (h' : y.IsDouble) (same : x.toWord = y.toWord) :
    x = y := by
  cases x with
  | finite negative m e =>
    cases y with
    | finite other n f =>
      have below := unsigned_lt h
      have below' := unsigned_lt h'
      rw [toWord_finite, toWord_finite] at same
      have parts : negative = other ∧ unsigned m e = unsigned n f := by
        unfold leastFull at below below'
        cases negative <;> cases other <;> simp [signBit] at same ⊢ <;> omega
      obtain ⟨rfl, rfl⟩ := eq_of_unsigned_eq h h' parts.2
      rw [parts.1]
    | infinite other => exact absurd same (toWord_ne h rfl)
    | notANumber => exact absurd same (toWord_ne h rfl)
  | infinite negative =>
    cases y with
    | finite other n f => exact absurd same.symm (toWord_ne h' rfl)
    | infinite other =>
      clear h h'
      revert negative other
      decide
    | notANumber => cases negative <;> cases same
  | notANumber =>
    cases y with
    | finite other n f => exact absurd same.symm (toWord_ne h' rfl)
    | infinite other => cases other <;> cases same
    | notANumber => rfl

end AlertAdmission.Binary64
