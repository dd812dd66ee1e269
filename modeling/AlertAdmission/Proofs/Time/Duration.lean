import AlertAdmission.Proofs.Text.Digits
import AlertAdmission.Time.Duration
import Mathlib.Algebra.BigOperators.Group.List.Basic
import Mathlib.Algebra.GroupWithZero.Nat

/-!
Durations are read back from the texts that they are written as.

A written duration is a list of parts, each a count of a unit. The reader takes one part after the
other and adds it up (`Duration.parts?_textOf`); no count on the way is too large, because none is
larger than that of the whole (`Duration.read?_write`).
-/

namespace AlertAdmission.Duration

open Text

variable {cs rest : List Char}

/-- A count of a unit under one of its names. -/
structure Part where
  count : Nat
  name : String
  unit : TimeUnit

namespace Part

def text (p : Part) : String := Nat.repr p.count ++ p.name

def length (p : Part) : Nat := p.count * p.unit.size

/-- The name of the unit is known, and the grid that the count is kept in is that of seconds or, for
less than a second, that of nanoseconds. -/
structure Readable (p : Part) : Prop where
  named : unit? p.name = some p.unit
  letters : ∀ c ∈ p.name.toList, isUnitLetter c = true
  pos : 0 < p.unit.size
  kept : p.unit.wholeGrid = 1 ∧ p.length < 1000000000 ∨
    p.unit.wholeGrid = 1000000000 ∧ p.unit.size % 1000000000 = 0

theorem Readable.name_ne_nil {p : Part} (h : p.Readable) : p.name.toList ≠ [] := by
  intro none
  have named := h.named
  rw [String.toList_eq_nil_iff.mp none] at named
  cases named

end Part

/-- What follows a part: nothing, or a blank. -/
def EndsPart (rest : List Char) : Prop := ∀ c ∈ rest.head?, c = ' '

theorem of_isUnitLetter {c : Char} (h : isUnitLetter c = true) :
    c.isDigit = false ∧ isBlank c = false ∧ c ≠ '.' := by
  have range : 65 ≤ c.toNat ∧ c.toNat ≤ 90 ∨ 97 ≤ c.toNat ∧ c.toNat ≤ 122 ∨ c.toNat = 181 := by
    have letter : c = 'µ' → c.toNat = 181 := fun same => same ▸ rfl
    have ranges : isUnitLetter c = (decide (65 ≤ c.val ∧ c.val ≤ 90) ||
        decide (97 ≤ c.val) && decide (c.val ≤ 122) || decide (c = 'µ')) := rfl
    simp only [ranges, UInt32.le_iff_toNat_le, Bool.or_eq_true, Bool.and_eq_true,
      decide_eq_true_eq] at h
    rcases h with (upper | lower) | micro
    · exact .inl upper
    · exact .inr (.inl lower)
    · exact .inr (.inr (letter micro))
  have notDigit : ¬ c.isDigit = true := by
    rw [isDigit_iff]
    omega
  refine ⟨by simpa using notDigit, ?_, ?_⟩
  · simp only [isBlank, Bool.or_eq_false_iff, Bool.and_eq_false_iff, decide_eq_false_iff_not,
      beq_eq_false_iff_ne]
    omega
  · rintro rfl
    have point : '.'.toNat = 46 := rfl
    omega

/-! ### One part -/

theorem word?_of_lt {n : Nat} (h : n < UInt64.size) : word? n = some n := if_pos h

/-- The digits of a part, up to the name of its unit. -/
theorem spaced_text {name : List Char} (n : Nat) (letters : ∀ c ∈ name, isUnitLetter c = true)
    (some : name ≠ []) :
    spaced ((Nat.repr n).toList ++ (name ++ rest)) = ((Nat.repr n).toList, name ++ rest) := by
  obtain ⟨first, tail, rfl⟩ := List.exists_cons_of_ne_nil some
  obtain ⟨notDigit, notBlank, -⟩ := of_isUnitLetter (letters first List.mem_cons_self)
  have digits := isDigit_repr n
  have run : ((Nat.repr n).toList ++ (first :: tail ++ rest)).takeWhile
      (fun c => c.isDigit || isBlank c) = (Nat.repr n).toList := by
    rw [List.takeWhile_append_of_pos fun c member => by simp [digits c member], List.cons_append,
      List.takeWhile_cons_of_neg (by simp [notDigit, notBlank]), List.append_nil]
  unfold spaced
  dsimp only
  rw [run, List.filter_eq_self.mpr digits, List.drop_left]

theorem add?_of_fits {total grid count : Nat} (small : count < UInt64.size)
    (kept : grid = 1 → total % 1000000000 + count < UInt64.size)
    (fits : total + count * grid < UInt64.size * 1000000000) :
    add? total grid count = some (total + count * grid) := by
  have seconds : (total + count * grid) / 1000000000 < UInt64.size :=
    Nat.div_lt_of_lt_mul (Nat.mul_comm .. ▸ fits)
  by_cases nanos : grid = 1
  · have both := kept nanos
    subst nanos
    rw [Nat.mul_one] at seconds ⊢
    simp [add?, word?_of_lt small, word?_of_lt seconds, word?_of_lt both]
  · simp [add?, word?_of_lt small, word?_of_lt seconds, nanos]

theorem addWhole?_of_lt {n total : Nat} (small : n < UInt64.size) (unit : TimeUnit) :
    addWhole? total unit (Nat.repr n).toList =
      add? total unit.wholeGrid (n * (unit.size / unit.wholeGrid)) := by
  rw [addWhole?, natOfDigits_repr, word?_of_lt small]
  rfl

theorem addWhole?_of_fits {p : Part} (h : p.Readable) {total : Nat}
    (fits : total + p.length < UInt64.size * 1000000000) :
    addWhole? total p.unit (Nat.repr p.count).toList = some (total + p.length) := by
  have pos := h.pos
  have kept := h.kept
  have enough : 2000000000 ≤ UInt64.size := by decide
  unfold Part.length at fits kept ⊢
  rcases kept with ⟨grid, less⟩ | ⟨grid, whole⟩
  · have count : p.count ≤ p.count * p.unit.size := Nat.le_mul_of_pos_right _ pos
    rw [addWhole?_of_lt (by omega), grid, Nat.div_one,
      add?_of_fits (by omega) (by omega) (by omega), Nat.mul_one]
  · obtain ⟨seconds, size⟩ : ∃ seconds, p.unit.size = seconds * 1000000000 :=
      ⟨p.unit.size / 1000000000, by omega⟩
    have count : p.count ≤ p.count * seconds := Nat.le_mul_of_pos_right _ (by omega)
    rw [size, ← Nat.mul_assoc] at fits
    have small : p.count * seconds < UInt64.size := by omega
    rw [addWhole?_of_lt (by omega), grid, size, Nat.mul_div_cancel _ (by decide),
      add?_of_fits small (by omega) fits, Nat.mul_assoc]

theorem part?_text {p : Part} (h : p.Readable) (ends : EndsPart rest) {total : Nat}
    (fits : total + p.length < UInt64.size * 1000000000) :
    part? total (p.text.toList ++ rest) = some (total + p.length, rest) := by
  have letters : (p.name.toList ++ rest).takeWhile isUnitLetter = p.name.toList := by
    rw [List.takeWhile_append_of_pos h.letters]
    cases rest with
    | nil => exact List.append_nil _
    | cons c tail =>
      rw [List.takeWhile_cons_of_neg (by rw [ends c rfl]; decide), List.append_nil]
  have fraction : fraction? (p.name.toList ++ rest) = some ([], p.name.toList ++ rest) := by
    obtain ⟨first, tail, same⟩ := List.exists_cons_of_ne_nil h.name_ne_nil
    have noPoint := (of_isUnitLetter (h.letters first (same ▸ List.mem_cons_self))).2.2
    rw [same, List.cons_append]
    unfold fraction?
    split
    · next point => exact absurd (List.cons.inj point).1 noPoint
    · rfl
  have first : (((Nat.repr p.count).toList ++ (p.name.toList ++ rest)).head?.map
      Char.isDigit).getD false = true := by
    obtain ⟨c, tail, same⟩ := List.exists_cons_of_ne_nil (repr_ne_nil p.count)
    rw [same]
    exact isDigit_repr p.count c (same ▸ List.mem_cons_self)
  rw [Part.text, String.toList_append, List.append_assoc, part?,
    spaced_text p.count h.letters h.name_ne_nil]
  simp only [Option.bind_eq_bind]
  rw [fraction]
  simp only [Option.bind_some]
  rw [letters, String.ofList_toList, h.named, Option.bind_some, if_pos first,
    addWhole?_of_fits h fits, Option.bind_some, addFraction?, if_pos rfl, Option.bind_some,
    List.drop_left]

/-! ### All parts -/

def textOf (parts : List Part) : List Char := (String.intercalate " " (parts.map Part.text)).toList

def lengthOf (parts : List Part) : Nat := (parts.map Part.length).sum

theorem textOf_cons_cons (p next : Part) (later : List Part) :
    textOf (p :: next :: later) = p.text.toList ++ ' ' :: textOf (next :: later) := by
  unfold textOf
  rw [List.map_cons, List.map_cons, String.intercalate_cons_cons, String.toList_append,
    String.toList_append, List.append_assoc]
  rfl

theorem textOf_singleton (p : Part) : textOf [p] = p.text.toList := by
  simp [textOf]

theorem skipBlanks_textOf (p : Part) (later : List Part) :
    skipBlanks (textOf (p :: later)) = textOf (p :: later) := by
  have start : ∃ rest, textOf (p :: later) = (Nat.repr p.count).toList ++ rest := by
    cases later with
    | nil => exact ⟨p.name.toList, by simp [textOf_singleton, Part.text]⟩
    | cons next later =>
      exact ⟨p.name.toList ++ ' ' :: textOf (next :: later),
        by simp [textOf_cons_cons, Part.text]⟩
  obtain ⟨rest, same⟩ := start
  rw [same, skipBlanks_digits (isDigit_repr p.count) (repr_ne_nil p.count)]

theorem length_le_textOf (parts : List Part) : parts.length ≤ (textOf parts).length := by
  induction parts with
  | nil => exact Nat.zero_le _
  | cons p later ih =>
    have digits : 0 < p.text.toList.length := by
      rw [Part.text, String.toList_append, List.length_append]
      exact Nat.add_pos_left (List.length_pos_iff.mpr (repr_ne_nil p.count)) _
    cases later with
    | nil =>
      rw [textOf_singleton]
      exact digits
    | cons next later =>
      simp only [textOf_cons_cons, List.length_append, List.length_cons] at ih ⊢
      omega

theorem parts?_skip (fuel total : Nat) (cs : List Char) :
    parts? fuel total (' ' :: cs) = parts? fuel total cs := by
  cases fuel with
  | zero => rfl
  | succ fuel =>
    have blank : skipBlanks (' ' :: cs) = skipBlanks cs := List.dropWhile_cons_of_pos rfl
    rw [parts?, blank, parts?]

/-- Parts are read one after the other, with a blank between two of them. -/
theorem parts?_textOf {p : Part} {later : List Part} (readable : ∀ q ∈ p :: later, q.Readable)
    {total fuel : Nat} (enough : (p :: later).length ≤ fuel)
    (fits : total + lengthOf (p :: later) < UInt64.size * 1000000000) :
    parts? fuel total (textOf (p :: later)) = some (total + lengthOf (p :: later)) := by
  obtain ⟨fuel, rfl⟩ := Nat.exists_eq_add_of_lt (Nat.lt_of_lt_of_le (Nat.succ_pos _) enough)
  rw [Nat.zero_add] at enough ⊢
  induction later generalizing p total fuel with
  | nil =>
    have only : lengthOf [p] = p.length := by simp [lengthOf]
    have read : part? total (p.text.toList ++ []) = some (total + p.length, []) :=
      part?_text (readable p List.mem_cons_self) (by intro c first; cases first) (only ▸ fits)
    rw [List.append_nil, ← textOf_singleton] at read
    rw [parts?, skipBlanks_textOf, read, only]
    rfl
  | cons next later ih =>
    have sum : lengthOf (p :: next :: later) = p.length + lengthOf (next :: later) := by
      simp [lengthOf]
    rw [sum, ← Nat.add_assoc] at fits ⊢
    have read : part? total (p.text.toList ++ ' ' :: textOf (next :: later)) =
        some (total + p.length, ' ' :: textOf (next :: later)) :=
      part?_text (readable p List.mem_cons_self) (by intro c first; cases first; rfl)
        (Nat.lt_of_le_of_lt (Nat.le_add_right _ _) fits)
    have more : skipBlanks (' ' :: textOf (next :: later)) ≠ [] := by
      have blank : skipBlanks (' ' :: textOf (next :: later)) =
          skipBlanks (textOf (next :: later)) := List.dropWhile_cons_of_pos rfl
      rw [blank, skipBlanks_textOf]
      have some := length_le_textOf (next :: later)
      exact List.ne_nil_of_length_pos (Nat.lt_of_lt_of_le (Nat.succ_pos _) some)
    rw [← textOf_cons_cons] at read
    rw [parts?, skipBlanks_textOf, read]
    dsimp only
    rw [if_neg more, parts?_skip]
    cases fuel with
    | zero => cases Nat.le_of_succ_le_succ enough
    | succ fuel =>
      exact ih (fun q member => readable q (List.mem_cons_of_mem _ member)) fits fuel
        (Nat.le_of_succ_le_succ enough)

/-! ### Durations as they are written -/

def counts (count : Nat) (name : String) (unit : TimeUnit) : List Part :=
  if count = 0 then [] else [⟨count, name, unit⟩]

def written (d : Duration) : List Part :=
  let seconds := d / 1000000000
  let nanos := d % 1000000000
  let inYear := seconds % 31557600
  let inMonth := inYear % 2630016
  let inDay := inMonth % 86400
  let plural (count : Nat) (name : String) := if count = 1 then name else name ++ "s"
  counts (seconds / 31557600) (plural (seconds / 31557600) "year") (.large 31557600) ++
    counts (inYear / 2630016) (plural (inYear / 2630016) "month") (.large 2630016) ++
    counts (inMonth / 86400) (plural (inMonth / 86400) "day") (.large 86400) ++
    counts (inDay / 3600) "h" (.large 3600) ++ counts (inDay % 3600 / 60) "m" (.medium 60) ++
    counts (inDay % 60) "s" (.medium 1) ++ counts (nanos / 1000000) "ms" (.small 1000000) ++
    counts (nanos / 1000 % 1000) "us" (.small 1000) ++ counts (nanos % 1000) "ns" .nanosecond

theorem counted_eq (count : Nat) (name : String) :
    counted count name = measured count (if count = 1 then name else name ++ "s") := by
  unfold counted measured
  split
  · rfl
  · split
    · next one =>
      rw [one]
      rfl
    · rw [String.append_assoc]

theorem measured_eq (count : Nat) (name : String) (unit : TimeUnit) : measured count name =
    (counts count name unit).map Part.text := by
  unfold measured counts
  split <;> rfl

theorem parts_eq (d : Duration) : parts d = (written d).map Part.text := by
  unfold parts written
  simp only [List.map_append, counted_eq, ← measured_eq]

theorem lengthOf_append (l r : List Part) : lengthOf (l ++ r) = lengthOf l + lengthOf r := by
  simp [lengthOf]

theorem lengthOf_counts (count : Nat) (name : String) (unit : TimeUnit) :
    lengthOf (counts count name unit) = count * unit.size := by
  unfold counts
  split
  · next none => rw [none, Nat.zero_mul]; rfl
  · simp [lengthOf, Part.length]

theorem lengthOf_written (d : Duration) : lengthOf (written d) = d := by
  simp only [written, lengthOf_append, lengthOf_counts, TimeUnit.large, TimeUnit.medium,
    TimeUnit.small, TimeUnit.nanosecond]
  omega

theorem eq_of_mem_counts {count : Nat} {name : String} {unit : TimeUnit} {p : Part}
    (member : p ∈ counts count name unit) : p = ⟨count, name, unit⟩ := by
  unfold counts at member
  split at member
  · cases member
  · exact List.mem_singleton.mp member

theorem readable_seconds {name : String} {unit : TimeUnit} (named : unit? name = some unit)
    (letters : name.toList.all isUnitLetter = true) (grid : unit.wholeGrid = 1000000000)
    (size : 0 < unit.size ∧ unit.size % 1000000000 = 0) (count : Nat) :
    Part.Readable ⟨count, name, unit⟩ :=
  ⟨named, List.all_eq_true.mp letters, size.1, .inr ⟨grid, size.2⟩⟩

theorem readable_plural {name : String} {unit : TimeUnit} (named : unit? name = some unit)
    (plural : unit? (name ++ "s") = some unit)
    (letters : (name ++ "s").toList.all isUnitLetter = true)
    (grid : unit.wholeGrid = 1000000000) (size : 0 < unit.size ∧ unit.size % 1000000000 = 0)
    (count : Nat) : Part.Readable ⟨count, if count = 1 then name else name ++ "s", unit⟩ := by
  split
  · rw [String.toList_append, List.all_append, Bool.and_eq_true] at letters
    exact readable_seconds named letters.1 grid size count
  · exact readable_seconds plural letters grid size count

theorem readable_nanos {name : String} {unit : TimeUnit} (named : unit? name = some unit)
    (letters : name.toList.all isUnitLetter = true) (grid : unit.wholeGrid = 1)
    (pos : 0 < unit.size) {count : Nat} (less : count * unit.size < 1000000000) :
    Part.Readable ⟨count, name, unit⟩ :=
  ⟨named, List.all_eq_true.mp letters, pos, .inl ⟨grid, less⟩⟩

theorem readable_written {d : Duration} {p : Part} (member : p ∈ written d) : p.Readable := by
  simp only [written, List.mem_append] at member
  rcases member with (((((((year | month) | day) | hour) | minute) | second) | milli) | micro) | nano
  · rw [eq_of_mem_counts year]
    exact readable_plural rfl rfl (by decide) rfl (by decide) _
  · rw [eq_of_mem_counts month]
    exact readable_plural rfl rfl (by decide) rfl (by decide) _
  · rw [eq_of_mem_counts day]
    exact readable_plural rfl rfl (by decide) rfl (by decide) _
  · rw [eq_of_mem_counts hour]
    exact readable_seconds rfl (by decide) rfl (by decide) _
  · rw [eq_of_mem_counts minute]
    exact readable_seconds rfl (by decide) rfl (by decide) _
  · rw [eq_of_mem_counts second]
    exact readable_seconds rfl (by decide) rfl (by decide) _
  · rw [eq_of_mem_counts milli]
    exact readable_nanos rfl (by decide) rfl (by decide) (by simp only [TimeUnit.small]; omega)
  · rw [eq_of_mem_counts micro]
    exact readable_nanos rfl (by decide) rfl (by decide) (by simp only [TimeUnit.small]; omega)
  · rw [eq_of_mem_counts nano]
    exact readable_nanos rfl (by decide) rfl (by decide) (by simp only [TimeUnit.nanosecond]; omega)

/-! ### Reading back -/

theorem parts?_written {d : Duration} (some : d ≠ 0)
    (fits : (d : Nat) < UInt64.size * 1000000000) :
    parts? ((textOf (written d)).length + 1) 0 (textOf (written d)) = .some d := by
  have sum := lengthOf_written d
  have readable := @readable_written d
  have enough := length_le_textOf (written d)
  cases parts : written d with
  | nil =>
    rw [parts] at sum
    exact absurd sum.symm some
  | cons p later =>
    rw [parts] at sum readable enough
    have fits : 0 + lengthOf (p :: later) < UInt64.size * 1000000000 := by
      rwa [Nat.zero_add, sum]
    have read := parts?_textOf (fun q member => readable member) (Nat.le_succ_of_le enough) fits
    rwa [Nat.zero_add, sum] at read

theorem read?_write {d : Duration} (fits : (d : Nat) < UInt64.size * 1000000000) :
    read? d.write = some d := by
  unfold write
  split
  · next none =>
    rw [none]
    rfl
  · next some =>
    have read := parts?_written some fits
    have text : (String.intercalate " " (parts d)).toList = textOf (written d) := by
      rw [parts_eq, textOf]
    -- a zero without a unit is read on its own, and is no list of parts
    have notZero : String.intercalate " " (parts d) ≠ "0" := by
      intro zero
      rw [← text, zero] at read
      cases read
    rw [read?, if_neg notZero, text, read]

theorem add?_lt {total grid count d : Nat} (h : add? total grid count = some d) :
    d < UInt64.size * 1000000000 := by
  have last {n : Nat} (h : ((word? (n / 1000000000)).bind fun _ => some n) = some d) :
      d < UInt64.size * 1000000000 := by
    obtain ⟨_, word, h⟩ := Option.bind_eq_some_iff.mp h
    cases h
    have seconds := (Option.ite_none_right_eq_some.mp word).1
    omega
  obtain ⟨_, -, h⟩ := Option.bind_eq_some_iff.mp h
  dsimp only at h
  split at h
  · obtain ⟨_, -, h⟩ := Option.bind_eq_some_iff.mp h
    exact last h
  · exact last h

theorem part?_lt {total d : Nat} (h : part? total cs = some (d, rest)) :
    d < UInt64.size * 1000000000 := by
  simp only [part?, Option.bind_eq_bind, Option.bind_eq_some_iff, Prod.exists] at h
  obtain ⟨_, _, _, _, _, h⟩ := h
  rw [Option.ite_none_right_eq_some] at h
  obtain ⟨-, h⟩ := h
  obtain ⟨whole, added, h⟩ := Option.bind_eq_some_iff.mp h
  obtain ⟨sum, fraction, h⟩ := Option.bind_eq_some_iff.mp h
  cases h
  unfold addFraction? at fraction
  split at fraction
  · cases fraction
    obtain ⟨_, -, added⟩ := Option.bind_eq_some_iff.mp added
    exact add?_lt added
  · obtain ⟨_, -, fraction⟩ := Option.bind_eq_some_iff.mp fraction
    obtain ⟨_, -, fraction⟩ := Option.bind_eq_some_iff.mp fraction
    obtain ⟨_, -, fraction⟩ := Option.bind_eq_some_iff.mp fraction
    exact add?_lt (Option.ite_none_right_eq_some.mp fraction).2

theorem parts?_lt {fuel total d : Nat} (h : parts? fuel total cs = some d) :
    d < UInt64.size * 1000000000 := by
  induction fuel generalizing total cs with
  | zero => cases h
  | succ fuel ih =>
    rw [parts?] at h
    split at h
    · cases h
    · next read =>
      split at h
      · cases h
        exact part?_lt read
      · exact ih h

theorem lt_of_read {text : String} {d : Duration} (h : read? text = some d) :
    (d : Nat) < UInt64.size * 1000000000 := by
  unfold read? at h
  split at h
  · cases h
    decide
  · exact parts?_lt h

end AlertAdmission.Duration
