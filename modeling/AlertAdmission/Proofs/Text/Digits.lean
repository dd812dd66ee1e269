import AlertAdmission.Text
import Mathlib.Algebra.GroupWithZero.Nat

/-!
Decimal digits are read back as the number that they write.
-/

namespace AlertAdmission.Text

variable {ds rest : List Char}

/-- What follows does not go on with a digit. -/
def NoDigitFirst (rest : List Char) : Prop := ∀ c ∈ rest.head?, c.isDigit = false

theorem noDigitFirst_nil : NoDigitFirst [] := by
  intro c first
  cases first

theorem noDigitFirst_cons {c : Char} (h : c.isDigit = false) (rest : List Char) :
    NoDigitFirst (c :: rest) := by
  intro first same
  rwa [← Option.some.inj same]

theorem NoDigitFirst.take (h : NoDigitFirst rest) (n : Nat) : NoDigitFirst (rest.take n) := by
  cases n with
  | zero => exact noDigitFirst_nil
  | succ n =>
    cases rest with
    | nil => exact noDigitFirst_nil
    | cons c tail => exact noDigitFirst_cons (h c rfl) _

theorem isDigit_iff {c : Char} : c.isDigit = true ↔ 48 ≤ c.toNat ∧ c.toNat ≤ 57 := by
  simp [Char.isDigit, UInt32.le_iff_toNat_le]

theorem isBlank_of_isDigit {c : Char} (h : c.isDigit = true) : isBlank c = false := by
  have range := isDigit_iff.mp h
  simp only [isBlank, Bool.or_eq_false_iff, Bool.and_eq_false_iff, decide_eq_false_iff_not,
    beq_eq_false_iff_ne]
  omega

theorem skipBlanks_of_not_blank {c : Char} (h : isBlank c = false) (rest : List Char) :
    skipBlanks (c :: rest) = c :: rest :=
  List.dropWhile_cons_of_neg (by simp [h])

theorem skipBlanks_digits (digits : ∀ c ∈ ds, c.isDigit = true) (some : ds ≠ []) :
    skipBlanks (ds ++ rest) = ds ++ rest := by
  obtain ⟨c, tail, rfl⟩ := List.exists_cons_of_ne_nil some
  exact skipBlanks_of_not_blank (isBlank_of_isDigit (digits c List.mem_cons_self)) _

theorem takeWhile_digits (digits : ∀ c ∈ ds, c.isDigit = true) (stop : NoDigitFirst rest) :
    (ds ++ rest).takeWhile Char.isDigit = ds := by
  rw [List.takeWhile_append_of_pos digits]
  cases rest with
  | nil => exact List.append_nil ds
  | cons c tail => rw [List.takeWhile_cons_of_neg (by simp [stop c rfl]), List.append_nil]

theorem natOfDigits_eq (ds : List Char) : natOfDigits ds = Nat.ofDigitChars 10 ds 0 :=
  Nat.ofDigitChars_eq_foldl.symm

theorem natOfDigits_lt (digits : ∀ c ∈ ds, c.isDigit = true) : natOfDigits ds < 10 ^ ds.length := by
  induction ds with
  | nil => decide
  | cons c tail ih =>
    have range := isDigit_iff.mp (digits c List.mem_cons_self)
    have zero : '0'.toNat = 48 := rfl
    have shorter := ih fun d member => digits d (List.mem_cons_of_mem _ member)
    rw [natOfDigits_eq] at shorter ⊢
    rw [Nat.ofDigitChars_cons, Nat.ofDigitChars_eq_ofDigitChars_zero, List.length_cons, Nat.pow_succ]
    have first : 10 ^ tail.length * (10 * 0 + (c.toNat - '0'.toNat)) ≤ 10 ^ tail.length * 9 :=
      Nat.mul_le_mul_left _ (by omega)
    omega

/-! ### Numbers as they are written -/

theorem toList_repr (n : Nat) : (Nat.repr n).toList = Nat.toDigits 10 n := by
  rw [Nat.repr_eq_ofList_toDigits, String.toList_ofList]

theorem isDigit_repr (n : Nat) : ∀ c ∈ (Nat.repr n).toList, c.isDigit = true := by
  intro c member
  rw [toList_repr] at member
  exact Nat.isDigit_of_mem_toDigits (by decide) (by decide) member

theorem repr_ne_nil (n : Nat) : (Nat.repr n).toList ≠ [] := by
  rw [toList_repr]
  exact Nat.toDigits_ne_nil

theorem natOfDigits_repr (n : Nat) : natOfDigits (Nat.repr n).toList = n := by
  rw [toList_repr, natOfDigits_eq]
  exact Nat.ofDigitChars_toDigits (by decide) (by decide)

theorem toList_zeroPadded (width n : Nat) : (zeroPadded width n).toList =
    List.replicate (width - (Nat.repr n).toList.length) '0' ++ (Nat.repr n).toList := by
  unfold zeroPadded
  rw [String.toList_append, String.toList_ofList, String.length_toList]

theorem isDigit_zeroPadded (width n : Nat) :
    ∀ c ∈ (zeroPadded width n).toList, c.isDigit = true := by
  intro c member
  rw [toList_zeroPadded] at member
  rcases List.mem_append.mp member with padding | digit
  · rw [List.eq_of_mem_replicate padding]
    rfl
  · exact isDigit_repr n c digit

theorem zeroPadded_ne_nil (width n : Nat) : (zeroPadded width n).toList ≠ [] := by
  rw [toList_zeroPadded]
  exact List.append_ne_nil_of_right_ne_nil _ (repr_ne_nil n)

theorem natOfDigits_zeroPadded (width n : Nat) : natOfDigits (zeroPadded width n).toList = n := by
  have number := natOfDigits_repr n
  rw [natOfDigits_eq] at number ⊢
  rw [toList_zeroPadded, Nat.ofDigitChars_append, Nat.ofDigitChars_replicate_zero, Nat.mul_zero,
    number]

theorem length_zeroPadded {width n : Nat} (pos : 0 < width) (h : n < 10 ^ width) :
    (zeroPadded width n).toList.length = width := by
  have fits : (Nat.repr n).toList.length ≤ width := by
    rw [toList_repr]
    exact (Nat.length_toDigits_le_iff (by decide) pos).mpr h
  rw [toList_zeroPadded, List.length_append, List.length_replicate]
  omega

end AlertAdmission.Text
