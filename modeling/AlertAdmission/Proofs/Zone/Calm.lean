import AlertAdmission.Proofs.Time.Order
import AlertAdmission.Proofs.Zone.Resolution
import AlertAdmission.Zone.Season
import Mathlib.Control.Monad.Basic

/-!
Wall times near an instant around which the clocks of a zone are not moved.

Such a wall time resolves to the one instant that shows it under the present offset
(`resolve_of_calm`): however the clocks were moved before, an earlier instant that shows it too would
take clocks that are put back by more than 24 hours within 24 hours. Where that instant comes after
the end of the calendar, the wall time resolves to nothing (`resolve_eq_none_of_calm`).
-/

namespace AlertAdmission

namespace Instant

def ofSecond (s : Int) : Instant := ofNanos (Span.ofSeconds s)

theorem ofSecond_le_iff {s : Int} {t : Instant} : ofSecond s ≤ t ↔ s ≤ t.second := by
  unfold ofSecond
  rw [ofNanos_le_iff]
  unfold settled second Span.ofSeconds
  cases t.leap with
  | false =>
    rw [if_neg Bool.false_ne_true, if_neg Bool.false_ne_true]
    omega
  | true =>
    rw [if_pos rfl, if_pos rfl]
    omega

theorem lt_ofSecond_iff {s : Int} {t : Instant} : t < ofSecond s ↔ t.second < s := by
  rw [← not_le, ofSecond_le_iff, Int.not_le]

theorem second_ofSecond (s : Int) : (ofSecond s).second = s := by
  unfold ofSecond second ofNanos Span.ofSeconds
  exact Int.mul_ediv_cancel _ (by decide)

theorem second_le_of_le {t u : Instant} (h : t ≤ u) : t.second ≤ u.second :=
  ofSecond_le_iff.mp (le_trans (ofSecond_le_iff.mpr (Int.le_refl _)) h)

end Instant

namespace Zone

open Instant (ofSecond)

variable {z : Zone} {now t u : Instant}

/-- The clocks of a zone are a whole number of seconds and less than a day off universal time, and
are moved at the start of a second. Within 24 hours they are put back by no more than 24 hours. -/
structure Regular (z : Zone) : Prop where
  short : ∀ t, ∃ s : Int, -86400 < s ∧ s < 86400 ∧ z.offsetAt t = Span.ofSeconds s
  perSecond : ∀ t, z.offsetAt t = z.offsetAt (ofSecond t.second)
  gradual : ∀ t u : Instant, t ≤ u → u ≤ t + Span.day → z.setBack t u ≤ Span.day

/-- The clocks of a zone are not moved for 48 hours before and after an instant. -/
def CalmAround (z : Zone) (now : Instant) : Prop :=
  ∀ u, now - Span.ofHours 48 ≤ u → u ≤ now + Span.ofHours 48 → z.offsetAt u = z.offsetAt now

/-! ### Offsets -/

theorem foldl_offset_mem (changes : List OffsetChange) (t : Instant) (initial : Span) :
    changes.foldl (fun offset change => if change.instant ≤ t then change.offset else offset)
      initial ∈ initial :: changes.map OffsetChange.offset := by
  induction changes generalizing initial with
  | nil => exact List.mem_cons_self
  | cons change later ih =>
    rw [List.foldl_cons, List.map_cons]
    rcases List.mem_cons.mp (ih (if change.instant ≤ t then change.offset else initial)) with
      first | rest
    · rw [first]
      split <;> simp
    · exact List.mem_cons_of_mem _ (List.mem_cons_of_mem _ rest)

theorem offsetAt_mem (z : Zone) (t : Instant) : z.offsetAt t ∈ z.offsets := by
  rw [offsets, List.mem_eraseDups]
  exact foldl_offset_mem z.changes t z.initial

theorem offsetAt_congr (h : ∀ c ∈ z.changes, c.instant ≤ t ↔ c.instant ≤ u) :
    z.offsetAt t = z.offsetAt u := by
  unfold offsetAt
  generalize z.changes = changes at h
  generalize z.initial = initial
  induction changes generalizing initial with
  | nil => rfl
  | cons change later ih =>
    rw [List.foldl_cons, List.foldl_cons]
    simp only [h change List.mem_cons_self]
    exact ih (fun c member => h c (List.mem_cons_of_mem _ member)) _

theorem regular_of_half_days
    (halfDay : ∀ offset ∈ z.offsets, ∃ s : Int, -43200 ≤ s ∧ s ≤ 43200 ∧ offset = Span.ofSeconds s)
    (atSecond : ∀ c ∈ z.changes, ∃ s, c.instant = ofSecond s) : z.Regular where
  short := by
    intro t
    obtain ⟨s, below, above, offset⟩ := halfDay _ (z.offsetAt_mem t)
    exact ⟨s, by omega, by omega, offset⟩
  perSecond := by
    intro t
    apply offsetAt_congr
    intro c member
    obtain ⟨s, same⟩ := atSecond c member
    rw [same, Instant.ofSecond_le_iff, Instant.ofSecond_le_iff, Instant.second_ofSecond]
  gradual := by
    intro t u _ _
    obtain ⟨a, _, above, offset⟩ := halfDay _ (z.offsetAt_mem t)
    obtain ⟨b, below, _, offset'⟩ := halfDay _ (z.offsetAt_mem u)
    unfold setBack
    rw [offset, offset']
    unfold Span.day Span.ofHours Span.ofSeconds
    omega

theorem constant_regular (name : String) {offset : Int} (below : -43200 ≤ offset)
    (above : offset ≤ 43200) : (constant name offset).Regular := by
  apply regular_of_half_days
  · intro o member
    have same : o = Span.ofSeconds offset := by simpa [offsets, constant] using member
    exact ⟨offset, below, above, same⟩
  · intro c member
    cases member

theorem constant_calm (name : String) (offset : Int) (now : Instant) :
    (constant name offset).CalmAround now := fun _ _ _ => rfl

theorem season_instant (s : Season) (switch : YearlySwitch) (year : Int) :
    ∃ n, s.instantOf switch year = ofSecond n := by
  have atSecond (day minutes offset : Int) :
      Instant.ofNanos (startOfDay day + Span.ofMinutes minutes - Span.ofSeconds offset) =
        ofSecond (day * 86400 + minutes * 60 - offset) := by
    apply congrArg Instant.ofNanos
    unfold startOfDay Span.day Span.ofHours Span.ofMinutes Span.ofSeconds
    lia
  exact ⟨_, atSecond _ switch.minutes (s.readingOffset switch.reading)⟩

theorem season_change (s : Season) {firstYear : Int} {years : Nat} {c : OffsetChange}
    (member : c ∈ s.changes firstYear years) :
    (∃ n, c.instant = ofSecond n) ∧
      (c.offset = Span.ofSeconds s.standard ∨ c.offset = Span.ofSeconds (s.standard + s.gain)) := by
  obtain ⟨n, _, inYear⟩ := List.mem_flatMap.mp member
  have either : c.instant = s.instantOf s.begins (firstYear + n) ∧
        c.offset = Span.ofSeconds (s.standard + s.gain) ∨
      c.instant = s.instantOf s.ends (firstYear + n) ∧ c.offset = Span.ofSeconds s.standard := by
    unfold Season.changesIn at inYear
    dsimp only at inYear
    split at inYear
    · rcases List.mem_pair.mp inYear with rfl | rfl
      · exact .inl ⟨rfl, rfl⟩
      · exact .inr ⟨rfl, rfl⟩
    · rcases List.mem_pair.mp inYear with rfl | rfl
      · exact .inr ⟨rfl, rfl⟩
      · exact .inl ⟨rfl, rfl⟩
  rcases either with ⟨instant, offset⟩ | ⟨instant, offset⟩
  · exact ⟨instant ▸ season_instant s _ _, .inr offset⟩
  · exact ⟨instant ▸ season_instant s _ _, .inl offset⟩

/-- Zones with a yearly season are regular. -/
theorem season_regular (s : Season) (name : String) (firstYear : Int)
    (standard : -43200 ≤ s.standard ∧ s.standard ≤ 43200)
    (advanced : -43200 ≤ s.standard + s.gain ∧ s.standard + s.gain ≤ 43200) :
    (s.zone name firstYear).Regular := by
  apply regular_of_half_days
  · intro o member
    rcases List.mem_cons.mp (List.mem_eraseDups.mp member) with initial | changed
    · exact ⟨s.standard, standard.1, standard.2, initial⟩
    · obtain ⟨c, isChange, rfl⟩ := List.mem_map.mp changed
      rcases (season_change s isChange).2 with ordinary | ahead
      · exact ⟨s.standard, standard.1, standard.2, ordinary⟩
      · exact ⟨s.standard + s.gain, advanced.1, advanced.2, ahead⟩
  · intro c isChange
    exact (season_change s isChange).1

/-- The clocks stand still around an instant that is more than 48 hours from every change. -/
theorem calmAround_of_apart (apart : ∀ c ∈ z.changes,
      c.instant ≤ now - Span.ofHours 48 ∨ now + Span.ofHours 48 < c.instant) :
    z.CalmAround now := by
  have starts : now - Span.ofHours 48 ≤ now := Instant.le_of_lt (Instant.sub_lt (by decide))
  have finishes : now ≤ now + Span.ofHours 48 := by
    have below := now.fraction_lt
    have nonneg := now.fraction_nonneg
    have parts := now.nanos_eq
    rw [Instant.add_of_second_le (by decide), Instant.le_ofNanos_iff]
    unfold Instant.settled Span.ofHours Span.ofSeconds
    split <;> omega
  refine fun u after before => offsetAt_congr fun c member => ?_
  rcases apart c member with early | late
  · exact iff_of_true (Instant.le_trans early after) (Instant.le_trans early starts)
  · exact iff_of_false (Instant.not_le.mpr (Instant.lt_of_le_of_lt before late))
      (Instant.not_le.mpr (Instant.lt_of_le_of_lt finishes late))

/-! ### How far clocks are put back -/

def secondsOff (z : Zone) (s : Int) : Int := z.offsetAt (ofSecond s) / 1000000000

theorem Regular.offsetAt_eq (regular : z.Regular) (t : Instant) :
    z.offsetAt t = Span.ofSeconds (z.secondsOff t.second) ∧
      -86400 < z.secondsOff t.second ∧ z.secondsOff t.second < 86400 := by
  obtain ⟨s, above, below, offset⟩ := regular.short t
  have seconds : z.secondsOff t.second = s := by
    rw [secondsOff, ← regular.perSecond, offset]
    exact Int.mul_ediv_cancel _ (by decide)
  rw [seconds]
  exact ⟨offset, above, below⟩

theorem Regular.secondsOff_le_of_days (regular : z.Regular) (days : Nat) {a b : Int} (ahead : a ≤ b)
    (near : b ≤ a + days * 86400) : z.secondsOff a - z.secondsOff b ≤ days * 86400 := by
  induction days generalizing a with
  | zero =>
    have same : a = b := by omega
    simp [same]
  | succ days ih =>
    -- the first day, or what there is of it, and then the others
    obtain ⟨middle, after, within, before, rest⟩ : ∃ middle, a ≤ middle ∧ middle ≤ a + 86400 ∧
        middle ≤ b ∧ b ≤ middle + days * 86400 := by
      by_cases close : b ≤ a + 86400
      · exact ⟨b, ahead, close, Int.le_refl b, by omega⟩
      · exact ⟨a + 86400, by omega, by omega, by omega, by omega⟩
    have later := ih before rest
    have order : ofSecond a ≤ ofSecond middle := by
      rw [Instant.ofSecond_le_iff, Instant.second_ofSecond]
      exact after
    have soon : ofSecond middle ≤ ofSecond a + Span.day := by
      have next : ofSecond a + Span.day = ofSecond (a + 86400) := by
        unfold ofSecond
        rw [Instant.ofNanos_add]
        congr 1
        unfold Span.day Span.ofHours Span.ofSeconds
        omega
      rw [next, Instant.ofSecond_le_iff, Instant.second_ofSecond]
      exact within
    have first := regular.gradual _ _ order soon
    unfold setBack at first
    have atStart := (regular.offsetAt_eq (ofSecond a)).1
    have atMiddle := (regular.offsetAt_eq (ofSecond middle)).1
    rw [Instant.second_ofSecond] at atStart atMiddle
    rw [atStart, atMiddle] at first
    unfold Span.day Span.ofHours Span.ofSeconds at first
    omega

/-- In any time clocks are put back by less than that time and a day. -/
theorem Regular.secondsOff_lt (regular : z.Regular) {a b : Int} (ahead : a < b) :
    z.secondsOff a - z.secondsOff b < b - a + 86400 := by
  have most := regular.secondsOff_le_of_days ((b - a + 86399) / 86400).toNat (Int.le_of_lt ahead)
    (by omega)
  omega

/-! ### Wall times that are resolved -/

theorem earliestOf_eq_some {l : List Instant} (member : t ∈ l) (first : ∀ u ∈ l, t ≤ u) :
    earliestOf l = some t := by
  induction l with
  | nil => exact absurd member List.not_mem_nil
  | cons head rest ih =>
    have below := first head List.mem_cons_self
    unfold earliestOf
    split
    · next none =>
      rcases List.mem_cons.mp member with rfl | later
      · rfl
      · rw [ih later fun u hu => first u (List.mem_cons_of_mem _ hu)] at none
        cases none
    · next u found =>
      have above := first u (List.mem_cons_of_mem _ (earliestOf_mem found))
      rcases List.mem_cons.mp member with rfl | later
      · rw [if_neg (Instant.not_lt.mpr above)]
      · cases (ih later fun u hu => first u (List.mem_cons_of_mem _ hu)).symm.trans found
        split
        · rfl
        · next reached =>
          have same : head = t :=
            Instant.eq_of_rank_eq (Int.le_antisymm (Instant.not_lt.mp reached) below)
          rw [same]

theorem mem_instantsShowing {wall : WallTime} (ordinary : t.leap = false)
    (shows : z.wallTime t = wall) (dated : t.isDated) : t ∈ z.instantsShowing wall := by
  unfold instantsShowing
  refine List.mem_filterMap.mpr ⟨z.offsetAt t, z.offsetAt_mem t, ?_⟩
  have back : Instant.ofNanos (wall - z.offsetAt t) = t := by
    rw [← Instant.ofNanos_nanos ordinary]
    congr 1
    rw [← shows]
    unfold wallTime Instant.wallTime
    rw [Instant.ofNanos_nanos ordinary]
    exact Int.add_sub_cancel _ _
  rw [back, if_pos ⟨rfl, dated⟩]

theorem resolve_of_first {wall : WallTime} (member : t ∈ z.instantsShowing wall)
    (first : ∀ u ∈ z.instantsShowing wall, t ≤ u) (dated : hasDate wall) :
    z.resolve? wall = some t := by
  have atOnce : wall + Span.ofMinutes (0 : Nat) = wall := Int.add_zero wall
  unfold resolve?
  rw [List.range_succ_eq_map, List.findSome?_cons]
  simp only [atOnce, dated, if_true]
  rw [firstShowing?, earliestOf_eq_some member first]

/-! ### Calm -/

theorem CalmAround.secondsOff_eq (calm : z.CalmAround now) (regular : z.Regular) {s : Int}
    (after : now.second + 1 - 172800 ≤ s) (before : s ≤ now.second + 172800) :
    z.secondsOff s = z.secondsOff now.second := by
  -- as far into the second as now is into its own
  have below := now.fraction_lt
  have nonneg := now.fraction_nonneg
  have parts := now.nanos_eq
  have inSecond : (Instant.ofNanos (s * 1000000000 + now.fraction)).second = s := by
    unfold Instant.second Instant.ofNanos
    dsimp only
    omega
  have begins : now - Span.ofHours 48 ≤ Instant.ofNanos (s * 1000000000 + now.fraction) := by
    cases leap : now.leap with
    | false =>
      rw [Instant.sub_of_ordinary leap, Instant.ofNanos_le]
      unfold Span.ofHours Span.ofSeconds
      omega
    | true =>
      rw [Instant.sub_of_leap leap (by decide), if_neg, Instant.ofNanos_le]
      · unfold Span.ofHours Span.ofSeconds
        omega
      · unfold Span.ofHours Span.ofSeconds
        omega
  have ends : Instant.ofNanos (s * 1000000000 + now.fraction) ≤ now + Span.ofHours 48 := by
    rw [Instant.add_of_second_le (by decide), Instant.ofNanos_le]
    unfold Span.ofHours Span.ofSeconds
    omega
  have same := calm _ begins ends
  rw [regular.perSecond, inSecond, regular.perSecond now] at same
  unfold secondsOff
  rw [same]

theorem hasDate_of_between {first last wall : Int} (begins : hasDate first) (ends : hasDate last)
    (after : first ≤ wall) (before : wall ≤ last) : hasDate wall := by
  unfold hasDate at *
  simp only [Bool.and_eq_true, decide_eq_true_eq] at *
  exact ⟨Int.le_trans begins.1 after, Int.lt_of_le_of_lt before ends.2⟩

theorem hasDate_iff_day (wall : WallTime) : hasDate wall ↔
    Date.toDays ⟨-262143, 1, 1⟩ ≤ dayOf wall ∧ dayOf wall < Date.toDays ⟨262143, 1, 1⟩ := by
  unfold hasDate firstMoment endOfDates startOfDay dayOf
  simp only [Bool.and_eq_true, decide_eq_true_eq]
  exact and_congr (Int.le_ediv_iff_mul_le (by decide)).symm
    (Int.ediv_lt_iff_lt_mul (by decide)).symm

/-- The calendar has whole days. -/
theorem hasDate_of_sameDay {wall other : WallTime} (same : dayOf wall = dayOf other)
    (dated : hasDate wall) : hasDate other := by
  rw [hasDate_iff_day] at *
  rwa [← same]

theorem isDated_iff_day (t : Instant) : t.isDated ↔
    Date.toDays ⟨-262143, 1, 1⟩ ≤ t.second / 86400 ∧
      t.second / 86400 < Date.toDays ⟨262143, 1, 1⟩ := by
  have day : dayOf t.wallTime = t.second / 86400 := by
    unfold dayOf Instant.wallTime Instant.second Span.day Span.ofHours Span.ofSeconds
    omega
  rw [Instant.isDated, hasDate_iff_day, day]

theorem isDated_of_between {first last : Instant} (begins : first.isDated) (ends : last.isDated)
    (after : first.second ≤ t.second) (before : t.second ≤ last.second) : t.isDated := by
  rw [isDated_iff_day] at *
  omega

/-- No instant shows what the clocks show less than a day ago, or in the two days to come, and comes
before the second that shows it under the present offset. -/
theorem CalmAround.le_second_of_shows (calm : z.CalmAround now) (regular : z.Regular) {s : Int}
    (after : now.second - 86400 < s) (before : s ≤ now.second + 172800)
    (shows : z.wallTime u = Span.ofSeconds (s + z.secondsOff now.second)) : s ≤ u.second := by
  have sameClock : u.second + z.secondsOff u.second = s + z.secondsOff now.second := by
    have offset := (regular.offsetAt_eq u).1
    unfold wallTime Instant.wallTime at shows
    rw [offset] at shows
    unfold Span.ofSeconds at shows
    unfold Instant.second at *
    lia
  by_cases near : now.second + 1 - 172800 ≤ u.second
  · -- under the present offset, or else not before
    by_cases earlier : u.second < s
    · rw [calm.secondsOff_eq regular near (by omega)] at sameClock
      omega
    · omega
  · have putBack := regular.secondsOff_lt (a := u.second) (b := now.second + 1 - 172800) (by omega)
    rw [calm.secondsOff_eq regular (Int.le_refl _) (by omega)] at putBack
    omega

/-- A wall time that the clocks show in a second less than a day ago, or in the day to come, stands
for that second. -/
theorem resolve_of_calm (regular : z.Regular) (calm : z.CalmAround now) {s : Int}
    (after : now.second - 86400 < s) (before : s ≤ now.second + 86400)
    (dated : (ofSecond s).isDated)
    (shown : hasDate (Span.ofSeconds (s + z.secondsOff now.second))) :
    z.resolve? (Span.ofSeconds (s + z.secondsOff now.second)) = some (ofSecond s) := by
  have present := calm.secondsOff_eq regular (s := s) (by omega) (by omega)
  have offset := (regular.offsetAt_eq (ofSecond s)).1
  rw [Instant.second_ofSecond, present] at offset
  apply resolve_of_first
  · apply mem_instantsShowing rfl
    · unfold wallTime Instant.wallTime
      rw [offset]
      unfold ofSecond Instant.ofNanos Span.ofSeconds
      dsimp only
      lia
    · exact dated
  · intro u member
    rw [Instant.ofSecond_le_iff]
    exact calm.le_second_of_shows regular after (by omega) (shows_of_mem member).2.1
  · exact shown

/-- What the clocks show only after the end of the calendar stands for nothing, and the search for a
later wall time finds nothing either. -/
theorem resolve_eq_none_of_calm (regular : z.Regular) (calm : z.CalmAround now) (dated : now.isDated)
    {s : Int} (after : now.second ≤ s) (before : s ≤ now.second + 86400)
    (undated : ¬ (ofSecond s).isDated) :
    z.resolve? (Span.ofSeconds (s + z.secondsOff now.second)) = none := by
  unfold resolve?
  rw [List.findSome?_eq_none_iff]
  intro m inRange
  have short : m < longestGap + 1 := List.mem_range.mp inRange
  unfold longestGap at short
  have later : (Span.ofSeconds (s + z.secondsOff now.second) + Span.ofMinutes m : Int) =
      Span.ofSeconds (s + m * 60 + z.secondsOff now.second) := by
    unfold Span.ofMinutes Span.ofSeconds
    lia
  have unshown : z.instantsShowing (Span.ofSeconds (s + z.secondsOff now.second) +
      Span.ofMinutes m : Int) = [] := by
    rw [List.eq_nil_iff_forall_not_mem]
    intro u member
    obtain ⟨_, shows, shownDated⟩ := shows_of_mem member
    have reached :=
      calm.le_second_of_shows regular (by omega) (by omega) (shows.trans later)
    apply undated
    refine isDated_of_between dated shownDated ?_ ?_ <;> rw [Instant.second_ofSecond] <;> omega
  dsimp only
  rw [firstShowing?, unshown, earliestOf, ite_self]

end Zone

end AlertAdmission
