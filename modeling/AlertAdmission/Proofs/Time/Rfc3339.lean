import AlertAdmission.Proofs.Text.Digits
import AlertAdmission.Proofs.Time.Dates
import AlertAdmission.Time.Rfc3339

/-!
Instants are read back from the texts that they are written as.

Only an instant with a date can be written, and a leap second only at the end of a minute
(`Rfc3339.Writable`). These are also the only ones that are ever read (`Rfc3339.writable_of_read`).
-/

namespace AlertAdmission.Rfc3339

open Text

variable {ds rest : List Char}

/-! ### Fields -/

theorem number?_digits {limit : Nat} (digits : ∀ c ∈ ds, c.isDigit = true) (some : ds ≠ [])
    (fits : ds.length = limit ∨ ds.length ≤ limit ∧ NoDigitFirst rest) :
    number? limit (ds ++ rest) = .some (natOfDigits ds, rest) := by
  have read : ((ds ++ rest).take limit).takeWhile Char.isDigit = ds := by
    rcases fits with full | ⟨short, stop⟩
    · have all := takeWhile_digits digits noDigitFirst_nil
      rw [← full, List.take_left]
      rwa [List.append_nil] at all
    · rw [List.take_append, List.take_of_length_le short]
      exact takeWhile_digits digits (stop.take _)
  unfold number?
  dsimp only
  rw [read, if_neg some, List.drop_left]

theorem field?_zeroPadded {n : Nat} (h : n < 100) (rest : List Char) :
    field? ((zeroPadded 2 n).toList ++ rest) = some (n, rest) := by
  unfold field?
  rw [skipBlanks_digits (isDigit_zeroPadded 2 n) (zeroPadded_ne_nil 2 n),
    number?_digits (isDigit_zeroPadded 2 n) (zeroPadded_ne_nil 2 n)
      (.inl (length_zeroPadded (by decide) h)), natOfDigits_zeroPadded]

theorem mark?_mark {mark : Char} (h : isBlank mark = false) (rest : List Char) :
    mark? mark (mark :: rest) = some rest := by
  unfold mark?
  rw [skipBlanks_of_not_blank h]
  exact if_pos rfl

theorem number?_signed (n : Nat) (stop : NoDigitFirst rest) :
    number? ((zeroPadded 4 n).toList ++ rest).length ((zeroPadded 4 n).toList ++ rest) =
      some (n, rest) := by
  rw [number?_digits (isDigit_zeroPadded 4 n) (zeroPadded_ne_nil 4 n) (.inr ⟨?_, stop⟩),
    natOfDigits_zeroPadded]
  rw [List.length_append]
  exact Nat.le_add_right _ _

theorem year?_minus (rest : List Char) : year? ('-' :: rest) =
    (number? rest.length rest).map fun (n, rest) => (-(n : Int), rest) := by
  rw [year?, skipBlanks_of_not_blank (by decide)]
  rfl

theorem year?_plus (rest : List Char) : year? ('+' :: rest) =
    (number? rest.length rest).map fun (n, rest) => ((n : Int), rest) := by
  rw [year?, skipBlanks_of_not_blank (by decide)]
  rfl

theorem year?_unsigned {n : Nat} (h : n < 10 ^ 4) (rest : List Char) :
    year? ((zeroPadded 4 n).toList ++ rest) = some ((n : Int), rest) := by
  have some := zeroPadded_ne_nil 4 n
  have digits := isDigit_zeroPadded 4 n
  have number : number? 4 ((zeroPadded 4 n).toList ++ rest) =
      .some (natOfDigits (zeroPadded 4 n).toList, rest) :=
    number?_digits digits some (.inl (length_zeroPadded (by decide) h))
  rw [natOfDigits_zeroPadded] at number
  rw [year?, skipBlanks_digits digits some]
  -- a digit comes first, and that is not a sign
  obtain ⟨c, tail, written⟩ := List.exists_cons_of_ne_nil some
  rw [written] at number digits ⊢
  have first := digits c List.mem_cons_self
  split
  · next same =>
    cases same
    cases first
  · next same =>
    cases same
    cases first
  · rw [number, Option.map_some]

theorem year?_yearText (year : Int) (stop : NoDigitFirst rest) :
    year? ((yearText year).toList ++ rest) = some (year, rest) := by
  unfold yearText
  have signed (sign : String) : (sign ++ zeroPadded 4 year.natAbs).toList ++ rest =
      sign.toList ++ ((zeroPadded 4 year.natAbs).toList ++ rest) := by
    rw [String.toList_append, List.append_assoc]
  split
  · have back : -(year.natAbs : Int) = year := by omega
    have minus : "-".toList = ['-'] := rfl
    rw [signed, minus, List.singleton_append, year?_minus, number?_signed _ stop, Option.map_some]
    dsimp only
    rw [back]
  · have back : (year.natAbs : Int) = year := by omega
    split
    · have plus : "+".toList = ['+'] := rfl
      rw [signed, plus, List.singleton_append, year?_plus, number?_signed _ stop, Option.map_some]
      dsimp only
      rw [back]
    · rw [year?_unsigned (by omega) rest, back]

/-! ### Dates and times of day -/

theorem bounds_of_isValid {d : Date} (valid : d.isValid = true) : d.month ≤ 12 ∧ d.day ≤ 31 := by
  obtain ⟨year, month, day⟩ := d
  simp only [Date.isValid, Bool.and_eq_true, decide_eq_true_eq] at valid ⊢
  have most : Date.daysInMonth year month ≤ 31 := by
    unfold Date.daysInMonth
    split <;> first | split <;> omega | omega
  refine ⟨Decidable.byContradiction fun beyond => ?_, by omega⟩
  have none : Date.daysInMonth year month = 0 := by
    unfold Date.daysInMonth
    split <;> omega
  omega

theorem date?_dateText {d : Date} (valid : d.isValid = true) (rest : List Char) :
    date? ((dateText d).toList ++ rest) = some (d, rest) := by
  obtain ⟨inYear, inMonth⟩ := bounds_of_isValid valid
  have text : (dateText d).toList ++ rest = (yearText d.year).toList ++
      ('-' :: ((zeroPadded 2 d.month).toList ++
        ('-' :: ((zeroPadded 2 d.day).toList ++ rest)))) := by
    simp [dateText]
  rw [text, date?, year?_yearText d.year (noDigitFirst_cons rfl _)]
  simp only [Option.bind_eq_bind, Option.bind_some]
  rw [mark?_mark (by decide), Option.bind_some, field?_zeroPadded (by omega)]
  simp only [Option.bind_some]
  rw [mark?_mark (by decide), Option.bind_some, field?_zeroPadded (by omega)]
  simp only [Option.bind_some]
  rw [if_pos valid]

theorem fraction?_group {width n : Nat} (pos : 0 < width) (short : width ≤ 9)
    (h : n < 10 ^ width) : fraction? (("." ++ zeroPadded width n).toList ++ ['Z']) =
      some (n * 10 ^ (9 - width), ['Z']) := by
  have length := length_zeroPadded pos h
  have mark : 'Z'.isDigit = false := rfl
  have digits := takeWhile_digits (isDigit_zeroPadded width n) (noDigitFirst_cons mark [])
  have text : ("." ++ zeroPadded width n).toList ++ ['Z'] =
      '.' :: ((zeroPadded width n).toList ++ ['Z']) := by
    simp
  rw [text, fraction?, digits, if_neg (zeroPadded_ne_nil width n),
    List.take_of_length_le (by omega), natOfDigits_zeroPadded, List.drop_left, length]
  rfl

theorem fraction?_fractionText {nanos : Nat} (h : nanos < 1000000000) :
    fraction? ((fractionText nanos).toList ++ ['Z']) = some (nanos, ['Z']) := by
  unfold fractionText
  split
  · next none =>
    rw [none]
    rfl
  · split
    · rw [fraction?_group (by decide) (by decide) (by omega)]
      congr 2
      omega
    · split
      · rw [fraction?_group (by decide) (by decide) (by omega)]
        congr 2
        omega
      · rw [fraction?_group (by decide) (by decide) (by omega)]
        congr 2
        omega

/-- The second that is shown tells the second and whether it is a leap second. -/
theorem second_of_shown {second shown : Nat} {leap : Bool} (inMinute : second < 60)
    (atMinuteEnd : leap = true → second = 59) (h : shown = if leap then second + 1 else second) :
    (if shown = 60 then 59 else shown) = second ∧ decide (shown = 60) = leap ∧ shown < 100 := by
  cases leap with
  | false =>
    rw [if_neg Bool.false_ne_true] at h
    rw [if_neg (by omega), decide_eq_false (by omega)]
    exact ⟨h, rfl, by omega⟩
  | true =>
    have last := atMinuteEnd rfl
    rw [if_pos rfl] at h
    rw [if_pos (by omega), decide_eq_true (by omega)]
    exact ⟨last.symm, rfl, by omega⟩

theorem clock?_clockText (wall : WallTime) {leap : Bool}
    (atMinuteEnd : leap = true → sinceMidnight wall / 1000000000 % 60 = 59) :
    clock? ((clockText wall leap).toList ++
      ((fractionText (sinceMidnight wall % 1000000000)).toList ++ ['Z'])) =
      some (sinceMidnight wall, leap, ['Z']) := by
  have inDay : sinceMidnight wall < 86400 * 1000000000 := by
    unfold sinceMidnight Span.day Span.ofHours Span.ofSeconds
    omega
  unfold clockText
  generalize sinceMidnight wall = nanos at *
  have fraction : fraction? ((fractionText (nanos % 1000000000)).toList ++ ['Z']) =
      some (nanos % 1000000000, ['Z']) :=
    fraction?_fractionText (Nat.mod_lt nanos (by decide))
  obtain ⟨second, shown⟩ : ∃ second, second = if leap then nanos / 1000000000 % 60 + 1
      else nanos / 1000000000 % 60 := ⟨_, rfl⟩
  obtain ⟨counted, isLeap, fits⟩ :=
    second_of_shown (Nat.mod_lt _ (by decide)) atMinuteEnd shown
  dsimp only
  rw [← shown]
  have text (rest : List Char) : (zeroPadded 2 (nanos / 1000000000 / 3600) ++ ":" ++
      zeroPadded 2 (nanos / 1000000000 / 60 % 60) ++ ":" ++ zeroPadded 2 second).toList ++ rest =
      (zeroPadded 2 (nanos / 1000000000 / 3600)).toList ++
        (':' :: ((zeroPadded 2 (nanos / 1000000000 / 60 % 60)).toList ++
          (':' :: ((zeroPadded 2 second).toList ++ rest)))) := by
    simp
  rw [text, clock?, field?_zeroPadded (by omega)]
  simp only [Option.bind_eq_bind, Option.bind_some]
  rw [mark?_mark (by decide), Option.bind_some, field?_zeroPadded (by omega)]
  simp only [Option.bind_some]
  rw [mark?_mark (by decide), Option.bind_some, field?_zeroPadded fits]
  simp only [Option.bind_some]
  rw [fraction]
  simp only [Option.bind_some]
  rw [counted, isLeap, if_pos (by omega)]
  congr 3
  omega

/-! ### Instants -/

/-- Instants that can be written: those with a date and, in a leap second, at the end of a minute. -/
structure Writable (t : Instant) : Prop where
  dated : t.isDated = true
  atMinuteEnd : t.leap = true → t.second % 60 = 59

theorem between?_mark (rest : List Char) : between? ('T' :: rest) = some rest := rfl

theorem offset?_mark : offset? ['Z'] = some (0, []) := rfl

theorem read?_write {t : Instant} (writable : Writable t) : read? (write t) = some t := by
  obtain ⟨nanos, leap⟩ := t
  have minuteEnd : leap = true → sinceMidnight nanos / 1000000000 % 60 = 59 := by
    intro inLeap
    have last := writable.atMinuteEnd inLeap
    unfold Instant.second at last
    unfold sinceMidnight Span.day Span.ofHours Span.ofSeconds
    dsimp only at last
    lia
  have text : (write ⟨nanos, leap⟩).toList = (dateText (Date.ofDays (dayOf nanos))).toList ++
      ('T' :: ((clockText nanos leap).toList ++
        ((fractionText (sinceMidnight nanos % 1000000000)).toList ++ ['Z']))) := by
    simp [write, unmarked, clockOf, Instant.wallTime]
  have shown : startOfDay (dayOf nanos) + sinceMidnight nanos = nanos := by
    unfold startOfDay dayOf sinceMidnight Span.day Span.ofHours Span.ofSeconds
    lia
  rw [read?, text, date?_dateText (Date.isValid_ofDays _)]
  simp only [Option.bind_eq_bind, Option.bind_some]
  rw [between?_mark, Option.bind_some, clock?_clockText nanos minuteEnd]
  simp only [Option.bind_some]
  rw [offset?_mark]
  simp only [Option.bind_some]
  rw [Date.toDays_ofDays, shown]
  have dated : hasDate nanos = true := writable.dated
  have unmoved : nanos - Span.ofSeconds 0 = nanos := Int.sub_zero nanos
  rw [unmoved, if_pos ⟨rfl, dated, dated⟩]

theorem fraction?_lt {cs : List Char} {n : Nat} (h : fraction? cs = some (n, rest)) :
    n < 1000000000 := by
  unfold fraction? at h
  split at h
  · next tail =>
    dsimp only at h
    split at h
    · cases h
    · cases h
      have digits : ∀ c ∈ (tail.takeWhile Char.isDigit).take 9, c.isDigit = true :=
        fun c member => List.all_eq_true.mp List.all_takeWhile c (List.mem_of_mem_take member)
      have short : ((tail.takeWhile Char.isDigit).take 9).length ≤ 9 := List.length_take_le 9 _
      generalize (tail.takeWhile Char.isDigit).take 9 = kept at digits short
      have pos : 0 < 10 ^ (9 - kept.length) := Nat.pow_pos (by decide)
      have less := Nat.mul_lt_mul_of_pos_right (natOfDigits_lt digits) pos
      rw [← Nat.pow_add, Nat.add_sub_cancel' short] at less
      exact less
  · cases h
    decide

/-- A leap second is read at the end of a minute only. -/
theorem clock?_atMinuteEnd {cs : List Char} {nanos : Nat} {leap : Bool}
    (h : clock? cs = some (nanos, leap, rest)) (inLeap : leap = true) :
    nanos / 1000000000 % 60 = 59 := by
  simp only [clock?, Option.bind_eq_bind, Option.bind_eq_some_iff, Prod.exists] at h
  obtain ⟨hour, _, _, _, _, minute, _, _, _, _, second, _, _, fraction, _, read, h⟩ := h
  have below := fraction?_lt read
  rw [Option.ite_none_right_eq_some] at h
  obtain ⟨-, h⟩ := h
  cases h
  rw [decide_eq_true_eq] at inLeap
  rw [if_pos inLeap]
  omega

theorem offsetSize?_minutes {cs : List Char} {n : Nat} (h : offsetSize? cs = some (n, rest)) :
    n % 60 = 0 := by
  simp only [offsetSize?, Option.bind_eq_bind, Option.bind_eq_some_iff, Prod.exists] at h
  obtain ⟨hours, _, _, minutes, _, _, h⟩ := h
  split at h
  · cases h
    omega
  · cases h

/-- Offsets are whole minutes, to the east and to the west. -/
theorem offset?_minutes {cs : List Char} {offset : Int} (h : offset? cs = some (offset, rest)) :
    offset % 60 = 0 := by
  have east {cs : List Char}
      (h : (offsetSize? cs).map (fun (n, rest) => ((n : Int), rest)) = some (offset, rest)) :
      offset % 60 = 0 := by
    obtain ⟨⟨n, _⟩, read, same⟩ := Option.map_eq_some_iff.mp h
    cases same
    have whole := offsetSize?_minutes read
    omega
  have west {cs : List Char}
      (h : (offsetSize? cs).map (fun (n, rest) => (-(n : Int), rest)) = some (offset, rest)) :
      offset % 60 = 0 := by
    obtain ⟨⟨n, _⟩, read, same⟩ := Option.map_eq_some_iff.mp h
    cases same
    have whole := offsetSize?_minutes read
    omega
  unfold offset? at h
  split at h
  · cases h
    rfl
  · cases h
    rfl
  · exact east h
  · exact west h
  · exact west h
  · split at h
    · cases h
      rfl
    · cases h
  · cases h

theorem writable_of_read {text : String} {t : Instant} (h : read? text = some t) : Writable t := by
  simp only [read?, Option.bind_eq_bind, Option.bind_eq_some_iff, Prod.exists] at h
  obtain ⟨date, _, _, _, _, nanos, leap, _, clock, offset, _, zone, h⟩ := h
  split at h
  · next dated =>
    cases h
    refine ⟨dated.2.2, fun inLeap => ?_⟩
    have last := clock?_atMinuteEnd clock inLeap
    have whole := offset?_minutes zone
    unfold Instant.second startOfDay Span.day Span.ofHours Span.ofSeconds
    dsimp only
    lia
  · cases h

end AlertAdmission.Rfc3339
