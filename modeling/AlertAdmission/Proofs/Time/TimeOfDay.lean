import AlertAdmission.Proofs.Text.Digits
import AlertAdmission.QuietHours
import Mathlib.Data.List.Basic
import Mathlib.Data.List.TakeWhile

/-!
Which texts are times of day.

The grammar is given by itself: hours, a colon and minutes, each of one or two digits, with blanks
before and after. The reader accepts the texts of this grammar whose hour and minute are in range,
and for every other text it says which of the two is not so (`TimeOfDay.accepts_exactly_written`).
-/

namespace AlertAdmission

namespace Text

variable {cs core before after : List Char} {sep : Char}

theorem skipBlanks_append (blank : ∀ c ∈ before, isBlank c = true) :
    skipBlanks (before ++ core) = skipBlanks core :=
  List.dropWhile_append_of_pos blank

/-- Blanks around a text that neither begins nor ends with one are taken off. -/
theorem trim_eq (start : ∀ c ∈ core.head?, isBlank c = false)
    (finish : ∀ c ∈ core.getLast?, isBlank c = false) (blankBefore : ∀ c ∈ before, isBlank c = true)
    (blankAfter : ∀ c ∈ after, isBlank c = true) (some : core ≠ []) :
    trim (before ++ core ++ after) = core := by
  have begins : skipBlanks (before ++ core ++ after) = core ++ after := by
    obtain ⟨c, tail, rfl⟩ := List.exists_cons_of_ne_nil some
    rw [List.append_assoc, skipBlanks_append blankBefore]
    exact skipBlanks_of_not_blank (start c rfl) _
  have ends : skipBlanks (core ++ after).reverse = core.reverse := by
    obtain ⟨tail, c, rfl⟩ := List.eq_nil_or_concat core |>.resolve_left some
    rw [List.reverse_append, skipBlanks_append (by simpa using blankAfter)]
    simpa using skipBlanks_of_not_blank (finish c (by simp)) tail.reverse
  rw [trim, begins, ends, List.reverse_reverse]

/-- Only blanks are taken off. -/
theorem exists_trim (cs : List Char) : ∃ before after, cs = before ++ trim cs ++ after ∧
    (∀ c ∈ before, isBlank c = true) ∧ ∀ c ∈ after, isBlank c = true := by
  have blanks : ∀ l : List Char, ∀ c ∈ l.takeWhile isBlank, isBlank c = true :=
    fun _ _ member => List.mem_takeWhile_imp member
  refine ⟨cs.takeWhile isBlank, ((skipBlanks cs).reverse.takeWhile isBlank).reverse, ?_,
    blanks cs, fun c member => blanks _ c (List.mem_reverse.mp member)⟩
  rw [trim, List.append_assoc, ← List.reverse_append, skipBlanks, skipBlanks,
    List.takeWhile_append_dropWhile, List.reverse_reverse, List.takeWhile_append_dropWhile]

theorem splitFirst_eq_some_iff :
    splitFirst sep cs = some (before, after) ↔ cs = before ++ sep :: after ∧ sep ∉ before := by
  induction cs generalizing before with
  | nil => simp [splitFirst]
  | cons c rest ih =>
    by_cases own : c = sep
    · subst own
      cases before with
      | nil => simp [splitFirst, eq_comm]
      | cons first tail => simp +contextual [splitFirst]
    · cases before with
      | nil => simp [splitFirst, own]
      | cons first tail =>
        rw [splitFirst, if_neg own, Option.map_eq_some_iff]
        constructor
        · rintro ⟨⟨_, _⟩, found, same⟩
          cases same
          obtain ⟨shape, absent⟩ := ih.mp found
          exact ⟨congrArg (c :: ·) shape, by simp [Ne.symm own, absent]⟩
        · rintro ⟨shape, absent⟩
          cases shape
          have later := ih.mpr ⟨rfl, fun member => absent (List.mem_cons_of_mem _ member)⟩
          exact ⟨(tail, after), later, rfl⟩

end Text

namespace TimeOfDay

open Text

variable {text : String} {cs : List Char} {hour minute n : Nat}

/-- One or two digits, and the number that they write. -/
inductive Field : List Char → Nat → Prop where
  | one (a : Fin 10) : Field [Nat.digitChar a] a
  | two (a b : Fin 10) : Field [Nat.digitChar a, Nat.digitChar b] (10 * a + b)

/-- A text is hours, a colon and minutes, with nothing but blanks before and after. -/
def Written (text : String) (hour minute : Nat) : Prop :=
  ∃ before h m after, text.toList = before ++ (h ++ ':' :: m) ++ after ∧
    (∀ c ∈ before, isBlank c = true) ∧ (∀ c ∈ after, isBlank c = true) ∧
    Field h hour ∧ Field m minute

/-! ### Fields -/

theorem exists_digitChar {c : Char} (digit : c.isDigit = true) :
    ∃ a : Fin 10, c = Nat.digitChar a := by
  have range := isDigit_iff.mp digit
  refine ⟨⟨c.toNat - 48, by omega⟩, Char.toNat_inj.mp ?_⟩
  rw [Nat.toNat_digitChar_of_lt_ten (by omega)]
  dsimp only
  omega

theorem Field.isDigit (h : Field cs n) : ∀ c ∈ cs, c.isDigit = true := by
  cases h <;> simp

theorem Field.ne_nil (h : Field cs n) : cs ≠ [] := by
  cases h <;> simp

theorem Field.isField (h : Field cs n) : isField cs = true := by
  cases h <;> simp [TimeOfDay.isField]

theorem Field.natOfDigits (h : Field cs n) : natOfDigits cs = n := by
  cases h with
  | one a => revert a; decide
  | two a b => revert a b; decide

theorem exists_field (h : isField cs = true) : ∃ n, Field cs n := by
  simp only [isField, Bool.and_eq_true, decide_eq_true_eq, List.all_eq_true] at h
  obtain ⟨⟨some, short⟩, digits⟩ := h
  match cs with
  | [] => simp at some
  | [a] =>
    obtain ⟨a, rfl⟩ := exists_digitChar (digits a (by simp))
    exact ⟨_, .one a⟩
  | [a, b] =>
    obtain ⟨a, rfl⟩ := exists_digitChar (digits a (by simp))
    obtain ⟨b, rfl⟩ := exists_digitChar (digits b (by simp))
    exact ⟨_, .two a b⟩
  | a :: b :: c :: rest => simp at short

/-! ### The reader -/

theorem splitFirst_of_written (h : Written text hour minute) :
    ∃ hours minutes, splitFirst ':' (trim text.toList) = some (hours, minutes) ∧
      Field hours hour ∧ Field minutes minute := by
  obtain ⟨before, hours, minutes, after, shape, blankBefore, blankAfter, isHour, isMinute⟩ := h
  have nonblank : ∀ c ∈ hours ++ minutes, isBlank c = false := by
    intro c member
    rcases List.mem_append.mp member with inHours | inMinutes
    · exact isBlank_of_isDigit (isHour.isDigit c inHours)
    · exact isBlank_of_isDigit (isMinute.isDigit c inMinutes)
  have core : trim text.toList = hours ++ ':' :: minutes := by
    rw [shape]
    refine trim_eq ?_ ?_ blankBefore blankAfter (by simp)
    · intro c first
      rw [List.head?_append_of_ne_nil _ isHour.ne_nil] at first
      exact nonblank c (List.mem_append_left _ (List.mem_of_mem_head? first))
    · intro c last
      rw [List.append_cons, List.getLast?_append_of_ne_nil _ isMinute.ne_nil] at last
      exact nonblank c (List.mem_append_right _ (List.mem_of_mem_getLast? last))
  refine ⟨hours, minutes, splitFirst_eq_some_iff.mpr ⟨core, fun colon => ?_⟩, isHour, isMinute⟩
  exact absurd (isHour.isDigit ':' colon) (by decide)

theorem parse_of_written (h : Written text hour minute) : parse text =
    if 23 < hour ∨ 59 < minute then .error (.outOfRange hour minute)
    else .ok (hour * 60 + minute) := by
  obtain ⟨hours, minutes, parts, isHour, isMinute⟩ := splitFirst_of_written h
  simp [parse, parts, isHour.isField, isMinute.isField, isHour.natOfDigits, isMinute.natOfDigits]

theorem parse_of_not_written (h : ∀ hour minute, ¬ Written text hour minute) :
    parse text = .error (.malformed text) := by
  unfold parse
  split
  · rfl
  · next hours minutes parts =>
    split
    · next fields =>
      rw [Bool.and_eq_true] at fields
      obtain ⟨hour, isHour⟩ := exists_field fields.1
      obtain ⟨minute, isMinute⟩ := exists_field fields.2
      obtain ⟨before, after, shape, blankBefore, blankAfter⟩ := exists_trim text.toList
      rw [(splitFirst_eq_some_iff.mp parts).1] at shape
      exact absurd ⟨before, hours, minutes, after, shape, blankBefore, blankAfter, isHour, isMinute⟩
        (h hour minute)
    · rfl

theorem parse_cases (text : String) :
    (∃ hour minute, Written text hour minute ∧ parse text =
      if 23 < hour ∨ 59 < minute then .error (.outOfRange hour minute)
      else .ok (hour * 60 + minute)) ∨
    ((∀ hour minute, ¬ Written text hour minute) ∧ parse text = .error (.malformed text)) := by
  by_cases form : ∃ hour minute, Written text hour minute
  · obtain ⟨hour, minute, written⟩ := form
    exact .inl ⟨hour, minute, written, parse_of_written written⟩
  · have none : ∀ hour minute, ¬ Written text hour minute :=
      fun hour minute written => form ⟨hour, minute, written⟩
    exact .inr ⟨none, parse_of_not_written none⟩

theorem parse_eq_ok_iff {m : Nat} : parse text = .ok m ↔ ∃ hour minute,
    Written text hour minute ∧ hour ≤ 23 ∧ minute ≤ 59 ∧ m = 60 * hour + minute := by
  constructor
  · intro read
    rcases parse_cases text with ⟨hour, minute, written, answer⟩ | ⟨_, answer⟩
    · rw [answer] at read
      split at read
      · cases read
      · next inRange =>
        cases read
        exact ⟨hour, minute, written, by omega, by omega, by omega⟩
    · rw [answer] at read
      cases read
  · rintro ⟨hour, minute, written, hourInRange, minuteInRange, rfl⟩
    rw [parse_of_written written, if_neg (by omega), Nat.mul_comm]

theorem parse_eq_outOfRange_iff : parse text = .error (.outOfRange hour minute) ↔
    Written text hour minute ∧ (23 < hour ∨ 59 < minute) := by
  constructor
  · intro read
    rcases parse_cases text with ⟨hour, minute, written, answer⟩ | ⟨_, answer⟩
    · rw [answer] at read
      split at read
      · next outOfRange =>
        cases read
        exact ⟨written, outOfRange⟩
      · cases read
    · rw [answer] at read
      cases read
  · rintro ⟨written, outOfRange⟩
    rw [parse_of_written written, if_pos outOfRange]

theorem parse_eq_malformed_iff {other : String} : parse text = .error (.malformed other) ↔
    other = text ∧ ∀ hour minute, ¬ Written text hour minute := by
  constructor
  · intro read
    rcases parse_cases text with ⟨hour, minute, _, answer⟩ | ⟨none, answer⟩
    · rw [answer] at read
      split at read <;> cases read
    · rw [answer] at read
      cases read
      exact ⟨rfl, none⟩
  · rintro ⟨rfl, none⟩
    exact parse_of_not_written none

/-- The reader accepts hours up to 23, a colon and minutes up to 59, with blanks around them, and
tells the minutes since midnight. Of any other text it says whether it is of another form or out of
range, and asking when held alerts go out at such a time fails with what it says. -/
theorem accepts_exactly_written [ZoneDatabase] (text : String) :
    (∀ m, parse text = .ok m ↔ ∃ hour minute, Written text hour minute ∧
      hour ≤ 23 ∧ minute ≤ 59 ∧ m = 60 * hour + minute ∧ m < 1440) ∧
    (∀ hour minute, parse text = .error (.outOfRange hour minute) ↔
      Written text hour minute ∧ (23 < hour ∨ 59 < minute)) ∧
    (∀ other, parse text = .error (.malformed other) ↔
      other = text ∧ ∀ hour minute, ¬ Written text hour minute) ∧
    ∀ q : QuietHours, q.endTime = text → (∀ m, parse text ≠ .ok m) →
      ∃ fault, parse text = .error fault ∧
        ∀ now, q.nextDelivery now = .error (.invalid (.time fault)) := by
  refine ⟨fun m => parse_eq_ok_iff.trans ?_, fun _ _ => parse_eq_outOfRange_iff,
    fun _ => parse_eq_malformed_iff, ?_⟩
  · constructor
    · rintro ⟨hour, minute, written, hourInRange, minuteInRange, rfl⟩
      exact ⟨hour, minute, written, hourInRange, minuteInRange, rfl, by omega⟩
    · rintro ⟨hour, minute, written, hourInRange, minuteInRange, same, _⟩
      exact ⟨hour, minute, written, hourInRange, minuteInRange, same⟩
  · rintro q rfl none
    cases answer : parse q.endTime with
    | ok m => exact absurd answer (none m)
    | error fault =>
      refine ⟨fault, rfl, fun now => ?_⟩
      simp [QuietHours.nextDelivery, QuietHours.nextDeliveryIn, answer]

example : parse "\t9:05 " = .ok 545 ∧ parse "24:00" = .error (.outOfRange 24 0) ∧
    parse "12:+5" = .error (.malformed "12:+5") := by
  decide

end TimeOfDay

end AlertAdmission
