import AlertAdmission.QuietHours.Loose
import AlertAdmission.Wire.Models
import AlertAdmission.Zone.Catalogue
import Mathlib.Data.UInt

/-!
What the reader of loose configurations accepts, against what quiet hours are checked with.

Whatever is read can be checked: its window is readable again and its zone is known, so that the
fallbacks of a check are never taken. Of the configurations as they are written the reader accepts
the valid ones, and gives each of these back (`parse_exact`). All this for any time zone database
that has no zone without a name.
-/

namespace AlertAdmission.QuietHours

variable {q : QuietHours} {raw : Json}

/-! ### The parts of a configuration -/

theorem bind_eq_ok {α β : Type} {x : Except Fault α} {f : α → Except Fault β} {b : β} :
    x >>= f = .ok b ↔ ∃ a, x = .ok a ∧ f a = .ok b := by
  cases x with
  | error fault => simp [Bind.bind, Except.bind]
  | ok a => simp [Bind.bind, Except.bind]

theorem dayAt_le {index : Nat} {value : Json} {day : UInt8} (h : dayAt index value = .ok day) :
    day ≤ 6 := by
  unfold dayAt at h
  split at h
  · cases h
  · split at h
    · next n _ =>
      split at h
      · next small =>
        cases h
        have fits : n < UInt8.size := Nat.lt_of_le_of_lt small (by decide)
        rw [UInt8.le_iff_toNat_le, UInt8.toNat_ofNat_of_lt' fits]
        exact small
      · cases h
    · cases h

theorem toInt?_of_day : ∀ n ≤ 6, (Binary64.ofInt (n : Nat)).toInt? = some (.ofNat n) := by
  decide +kernel

theorem dayAt_encode {day : UInt8} (small : day ≤ 6) (index : Nat) :
    dayAt index (Codec.word8.encode day) = .ok day := by
  have bound : day.toNat ≤ 6 := UInt8.le_iff_toNat_le.mp small
  simp [dayAt, Codec.word8, Json.double?, toInt?_of_day _ bound, bound]

theorem daysFrom_le {index : Nat} {values : List Json} {days : List UInt8}
    (h : daysFrom index values = .ok days) : ∀ day ∈ days, day ≤ 6 := by
  induction values generalizing index days with
  | nil =>
    cases h
    simp
  | cons value rest ih =>
    obtain ⟨day, first, more⟩ := bind_eq_ok.mp h
    obtain ⟨later, tail, listed⟩ := bind_eq_ok.mp more
    cases listed
    exact List.forall_mem_cons.mpr ⟨dayAt_le first, ih tail⟩

theorem daysFrom_encode {days : List UInt8} (small : ∀ day ∈ days, day ≤ 6) (index : Nat) :
    daysFrom index (days.map Codec.word8.encode) = .ok days := by
  induction days generalizing index with
  | nil => rfl
  | cons day rest ih =>
    obtain ⟨first, later⟩ := List.forall_mem_cons.mp small
    rw [List.map_cons, daysFrom, dayAt_encode first, ih later]
    rfl

theorem looseDays_le {value : Option Json} {days : List UInt8} (h : looseDays value = .ok days) :
    ∀ day ∈ days, day ≤ 6 := by
  unfold looseDays at h
  split at h
  · cases h
    simp
  · cases h
    simp
  · exact daysFrom_le h
  · cases h

theorem requiredText_eq_ok {key text : String}
    (h : raw.member? key = some (.str text)) (present : text ≠ "") :
    requiredText raw key = .ok text := by
  simp [requiredText, h, Json.nonemptyText?, present]

section Reading

variable [ZoneDatabase]

/-- Quiet hours with a readable window, the name of a zone, and days of the week. -/
structure Valid (q : QuietHours) : Prop where
  start : ∃ minute, TimeOfDay.parse q.startTime = .ok minute
  finish : ∃ minute, TimeOfDay.parse q.endTime = .ok minute
  zone : ∃ z, ZoneDatabase.find? q.timezone = some z
  days : ∀ day ∈ q.daysOfWeek, day ≤ 6

/-! ### Checks of valid quiet hours -/

theorem Valid.zone_eq (valid : q.Valid) : ZoneDatabase.find? q.timezone = some q.zone := by
  obtain ⟨z, found⟩ := valid.zone
  rw [QuietHours.zone, Zone.ofName, found, Option.getD_some]

theorem Valid.timezone_ne_empty (valid : q.Valid) (unnamed : ZoneDatabase.find? "" = Option.none) :
    q.timezone ≠ "" := by
  obtain ⟨z, found⟩ := valid.zone
  intro empty
  rw [empty, unnamed] at found
  cases found

theorem Valid.configured (valid : q.Valid) : q.isConfigured = true := by
  obtain ⟨_, start⟩ := valid.start
  obtain ⟨_, finish⟩ := valid.finish
  simp [isConfigured, TimeOfDay.ne_empty_of_parse start, TimeOfDay.ne_empty_of_parse finish]

theorem Valid.windowVerdict_eq (valid : q.Valid) (minute : Nat) :
    q.windowVerdict minute = .active q.startTime q.endTime q.timezone ∨
      q.windowVerdict minute = .outside := by
  obtain ⟨start, start_eq⟩ := valid.start
  obtain ⟨finish, finish_eq⟩ := valid.finish
  simp only [windowVerdict, start_eq, finish_eq]
  split
  · exact .inl rfl
  · exact .inr rfl

theorem Valid.check_ne (valid : q.Valid) (severity : Severity) (now : Instant)
    (fault : TimeOfDay.Fault) :
    q.check severity now ≠ .invalidStart fault ∧ q.check severity now ≠ .invalidEnd fault := by
  unfold check checkIn
  split
  · simp
  · split
    · simp
    · dsimp only
      split
      · rcases valid.windowVerdict_eq (q.zone.minuteOfDay now) with active | outside
        · simp [active]
        · simp [outside]
      · simp

/-! ### What is accepted -/

theorem validated_eq_ok {p : QuietHours} : validated q = .ok p ↔
    q = p ∧ (∃ z, ZoneDatabase.find? q.timezone = some z) ∧
      (∃ minute, TimeOfDay.parse q.startTime = .ok minute) ∧
      ∃ minute, TimeOfDay.parse q.endTime = .ok minute := by
  unfold validated
  cases ZoneDatabase.find? q.timezone with
  | none => simp
  | some z =>
    cases TimeOfDay.parse q.startTime with
    | error fault => simp
    | ok start =>
      cases TimeOfDay.parse q.endTime with
      | error fault => simp
      | ok finish => simp

theorem valid_of_parse (h : parse raw = .ok q) : q.Valid := by
  cases raw with
  | obj members =>
    obtain ⟨startTime, _, h⟩ := bind_eq_ok.mp h
    obtain ⟨endTime, _, h⟩ := bind_eq_ok.mp h
    obtain ⟨days, listed, h⟩ := bind_eq_ok.mp h
    obtain ⟨rfl, known, start, finish⟩ := validated_eq_ok.mp h
    exact ⟨start, finish, known, looseDays_le listed⟩
  | null => cases h
  | bool value => cases h
  | int value => cases h
  | float value => cases h
  | str value => cases h
  | arr items => cases h

theorem parse_encode (unnamed : ZoneDatabase.find? "" = Option.none) (valid : q.Valid) :
    parse (Codec.quietHours.encode q) = .ok q := by
  obtain ⟨_, start⟩ := valid.start
  obtain ⟨_, finish⟩ := valid.finish
  have named := valid.timezone_ne_empty unnamed
  have startTime : requiredText (Codec.quietHours.encode q) "startTime" = .ok q.startTime :=
    requiredText_eq_ok rfl (TimeOfDay.ne_empty_of_parse start)
  have endTime : requiredText (Codec.quietHours.encode q) "endTime" = .ok q.endTime :=
    requiredText_eq_ok rfl (TimeOfDay.ne_empty_of_parse finish)
  have timezone : (((Codec.quietHours.encode q).member? "timezone").bind
      Json.nonemptyText?).getD "UTC" = q.timezone := by
    have member : (Codec.quietHours.encode q).member? "timezone" = some (.str q.timezone) := rfl
    simp [member, Json.nonemptyText?, named]
  have days : looseDays ((Codec.quietHours.encode q).member? "daysOfWeek") = .ok q.daysOfWeek :=
    daysFrom_encode valid.days 0
  have accepted : validated q = .ok q :=
    validated_eq_ok.mpr ⟨rfl, valid.zone, valid.start, valid.finish⟩
  refine bind_eq_ok.mpr ⟨_, startTime, bind_eq_ok.mpr ⟨_, endTime, bind_eq_ok.mpr ⟨_, days, ?_⟩⟩⟩
  rw [timezone]
  exact accepted

/-- What is read is valid: checks of it take no fallback, and its written form is read as the same
again. In general a written form is read as the quiet hours it is of exactly when they are valid. -/
theorem parse_exact (unnamed : ZoneDatabase.find? "" = Option.none) (raw : Json) (q : QuietHours) :
    (parse raw = .ok q →
      q.Valid ∧ q.isConfigured = true ∧ ZoneDatabase.find? q.timezone = some q.zone ∧
        (∀ severity now fault, q.check severity now ≠ .invalidStart fault ∧
          q.check severity now ≠ .invalidEnd fault) ∧
        parse (Codec.quietHours.encode q) = .ok q) ∧
      (parse (Codec.quietHours.encode q) = .ok q ↔ q.Valid) := by
  refine ⟨fun read => ?_, valid_of_parse, parse_encode unnamed⟩
  have valid := valid_of_parse read
  exact ⟨valid, valid.configured, valid.zone_eq, valid.check_ne, parse_encode unnamed valid⟩

end Reading

/-- Nights of a working week in Berlin, one of its days written with a fraction. -/
def weekNights : Json :=
  .obj [("startTime", .str " 22:00"), ("endTime", .str "7:00"), ("timezone", .str "Europe/Berlin"),
    ("bypassCritical", .str "no"), ("daysOfWeek", .arr [.int 1, .float (.ofDecimal false 25 (-1))])]

theorem weekNights_read :
    parse weekNights = .ok ⟨" 22:00", "7:00", "Europe/Berlin", true, [1, 2]⟩ ∧
      (⟨" 22:00", "7:00", "Europe/Berlin", true, [1, 2]⟩ : QuietHours).Valid := by
  have read : parse weekNights = .ok ⟨" 22:00", "7:00", "Europe/Berlin", true, [1, 2]⟩ := by
    decide +kernel
  exact ⟨read, ((parse_exact (by decide) weekNights _).1 read).1⟩

end AlertAdmission.QuietHours
