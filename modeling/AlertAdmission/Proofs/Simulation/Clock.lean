import AlertAdmission.Proofs.Simulation.Report
import AlertAdmission.Proofs.Time.Range

/-!
Simulations that stay in the calendar have a report, and every report adds up.

The clock of a simulation goes on by the same span with each alert. From where it stands, an alert
takes it back by the windows of the gates, and ahead by the cooldown of a storm that has started
since, or by the lifetime of a notification (`Simulation.mem_reach`).
-/

namespace AlertAdmission

namespace Gates

theorem storm_arrive [ZoneDatabase] (g : Gates) (c : StormConfig) (a : Arrival) :
    (g.arrive c a).1.storm = (g.storm.record c a.now).1 := by
  cases passes : (g.storm.record c a.now).2 with
  | false => rw [arrive_of_storm passes]
  | true =>
    cases called : a.call? with
    | none =>
      rw [arrive_of_unlimited passes called]
      exact (passQuietHours_spec ⟨(g.storm.record c a.now).1, g.throttle, g.held⟩ g a rfl).2.1
    | some call =>
      rw [arrive_of_called passes called]
      split
      · exact (passQuietHours_spec ⟨_, g.throttle.afterCall call, g.held⟩ g a rfl).2.1
      · rfl

end Gates

namespace Simulation

variable {s : Simulation} {settings : Settings} {quiet : Option QuietHours}
  {state final : SimulationState} {alerts number : Nat}

/-- Where the count of the clock is after all alerts. -/
def finish (s : Simulation) : Int := s.start.nanos + s.events * s.spacing

/-- The clock does not go back, and whatever the alerts of a simulation take it to has a date. -/
structure StaysInCalendar (s : Simulation) (settings : Settings) : Prop where
  goesOn : 0 ≤ s.spacing
  stormWindow : firstMoment ≤ s.start.nanos - settings.storm.window
  limitWindow : s.limit.isEnabled → firstMoment ≤ s.start.nanos - s.limit.window
  cooldown : s.finish + settings.storm.cooldown < endOfDates
  lifetime : s.finish + Notification.lifetime < endOfDates

/-- The clock after so many alerts, and a storm since the simulation began. -/
structure Clocked (s : Simulation) (alerts : Nat) (state : SimulationState) : Prop where
  now : state.now.nanos = s.start.nanos + alerts * s.spacing
  storm : ∀ t ∈ state.gates.storm.startedAt,
    s.start.nanos ≤ t.nanos ∧ t.nanos ≤ state.now.nanos

theorem clocked_initial (s : Simulation) : s.Clocked 0 s.initial where
  now := by
    unfold initial
    dsimp only
    omega
  storm := by
    intro t started
    cases started

theorem Clocked.next [ZoneDatabase] (h : s.Clocked alerts state) (goesOn : 0 ≤ s.spacing)
    (settings : Settings) (quiet : Option QuietHours) (number : Nat) :
    s.Clocked (alerts + 1) (s.next settings quiet state number) := by
  have now : (s.next settings quiet state number).now.nanos = state.now.nanos + s.spacing :=
    Instant.nanos_add goesOn
  have gates : (s.next settings quiet state number).gates =
      (state.gates.arrive settings.storm (s.arrival quiet number state.now)).1 := by
    unfold Simulation.next tally
    dsimp only
    split <;> rfl
  refine ⟨?_, ?_⟩
  · rw [now, h.now, Int.natCast_add, Int.add_mul, Int.natCast_one, Int.one_mul, Int.add_assoc]
  · intro t started
    rw [gates, Gates.storm_arrive] at started
    rw [now]
    rcases Storm.startedAt_record started with before | same
    · have bounds := h.storm t before
      lia
    · have begins := h.now
      have elapsed : 0 ≤ alerts * s.spacing := Int.mul_nonneg (Int.natCast_nonneg _) goesOn
      rw [same]
      dsimp only [arrival]
      lia

/-! ### Instants with dates -/

/-- What the clock and the gates can be taken to while alerts are left. -/
theorem Clocked.within (h : s.Clocked alerts state) (stays : s.StaysInCalendar settings)
    (before : alerts ≤ s.events) :
    s.start.nanos ≤ state.now.nanos ∧ state.now.nanos ≤ s.finish := by
  have elapsed : 0 ≤ alerts * s.spacing := Int.mul_nonneg (Int.natCast_nonneg _) stays.goesOn
  have left : alerts * s.spacing ≤ s.events * s.spacing :=
    Int.mul_le_mul_of_nonneg_right (Int.ofNat_le.mpr before) stays.goesOn
  rw [h.now]
  unfold finish
  lia

theorem Clocked.isDated_storm (h : s.Clocked alerts state) (stays : s.StaysInCalendar settings)
    (before : alerts ≤ s.events) {t : Instant}
    (reached : t ∈ state.gates.storm.reach settings.storm state.now) : t.isDated := by
  obtain ⟨begins, ends⟩ := h.within stays before
  have window := stays.stormWindow
  have cooldown := stays.cooldown
  have long : 0 ≤ settings.storm.cooldown := windowLength_nonneg _
  have wide : 0 ≤ settings.storm.window := windowLength_nonneg _
  rw [Instant.isDated_iff]
  rcases List.mem_cons.mp reached with rfl | storm
  · have bounds := state.now.nanos_sub_window settings.storm.windowSeconds.toNat
    unfold StormConfig.window at *
    lia
  · obtain ⟨start, started, rfl⟩ := Option.map_eq_some_iff.mp (Option.mem_toList.mp storm)
    have bounds := h.storm start started
    rw [Instant.nanos_add long]
    lia

theorem Clocked.isDated_limit (h : s.Clocked alerts state) (stays : s.StaysInCalendar settings)
    (before : alerts ≤ s.events) {t : Instant} (reached : t ∈ s.limit.reach state.now) :
    t.isDated := by
  obtain ⟨begins, ends⟩ := h.within stays before
  have cooldown := stays.cooldown
  have long : 0 ≤ settings.storm.cooldown := windowLength_nonneg _
  unfold RateLimit.reach at reached
  split at reached
  · next enabled =>
    have window := stays.limitWindow enabled
    have bounds := state.now.nanos_sub_window s.limit.periodSeconds.toNat
    rw [Instant.isDated_iff, List.mem_singleton.mp reached]
    unfold RateLimit.window at *
    lia
  · cases reached

theorem mem_reach {n : Notification} {admission : Admission} {t : Instant}
    (reached : t ∈ s.reach settings state n admission) :
    t ∈ state.gates.storm.reach settings.storm state.now ∨ t ∈ s.limit.reach state.now ∨
      t = state.now + Notification.lifetime ∨ t = state.now + s.spacing := by
  unfold reach at reached
  rw [List.mem_append, List.mem_append, List.mem_singleton] at reached
  rcases reached with (gates | queued) | clock
  · have parts : t ∈ state.gates.storm.reach settings.storm state.now ++
        s.limit.reach state.now := by
      unfold Gates.reach at gates
      cases admission with
      | droppedByStorm => exact List.mem_append_left _ gates
      | deliver => exact gates
      | droppedByThrottle reason => exact gates
      | deferred reason => exact gates
    rcases List.mem_append.mp parts with storm | limit
    · exact .inl storm
    · exact .inr (.inl limit)
  · cases admission with
    | deferred reason =>
      dsimp only [ChannelQueues.reach] at queued
      split at queued
      · cases queued
      · exact .inr (.inr (.inl (List.mem_singleton.mp queued)))
    | deliver => cases queued
    | droppedByStorm => cases queued
    | droppedByThrottle reason => cases queued
  · exact .inr (.inr (.inr clock))

theorem Clocked.isDated_reach (h : s.Clocked alerts state) (stays : s.StaysInCalendar settings)
    (before : alerts < s.events) {n : Notification} {admission : Admission} {t : Instant}
    (reached : t ∈ s.reach settings state n admission) : t.isDated := by
  rcases mem_reach reached with storm | limit | lifetime | clock
  · exact h.isDated_storm stays (Nat.le_of_lt before) storm
  · exact h.isDated_limit stays (Nat.le_of_lt before) limit
  · obtain ⟨begins, ends⟩ := h.within stays (Nat.le_of_lt before)
    have room := stays.lifetime
    have window := stays.stormWindow
    have wide : 0 ≤ settings.storm.window := windowLength_nonneg _
    have living : 0 ≤ Notification.lifetime := by decide
    rw [Instant.isDated_iff, lifetime, Instant.nanos_add living]
    lia
  · have after := (h.next stays.goesOn settings none 0).within stays before
    have room := stays.lifetime
    have window := stays.stormWindow
    have wide : 0 ≤ settings.storm.window := windowLength_nonneg _
    have living : 0 ≤ Notification.lifetime := by decide
    rw [Instant.isDated_iff, clock]
    have same : (s.next settings none state 0).now = state.now + s.spacing := rfl
    rw [same] at after
    lia

/-! ### Runs -/

theorem run?_of_stays [ZoneDatabase] (stays : s.StaysInCalendar settings)
    (h : s.Clocked alerts state) (quiet : Option QuietHours) (number : Nat) {left : Nat}
    (within : alerts + left ≤ s.events) :
    ∃ final, s.run? settings quiet left number state = some final ∧
      s.Clocked (alerts + left) final := by
  induction left generalizing alerts number state with
  | zero => exact ⟨state, rfl, h⟩
  | succ rest ih =>
    have stepped : s.step? settings quiet state number =
        some (s.next settings quiet state number) := by
      refine if_pos (List.all_eq_true.mpr ?_)
      intro t reached
      exact h.isDated_reach stays (by omega) reached
    obtain ⟨final, ran, clocked⟩ :=
      ih (h.next stays.goesOn settings quiet number) (number + 1) (by omega)
    refine ⟨final, ?_, ?_⟩
    · rw [run?, stepped]
      exact ran
    · rwa [Nat.add_assoc, Nat.add_comm 1] at clocked

theorem isDated_reportReach (stays : s.StaysInCalendar settings)
    (clocked : s.Clocked s.events state)
    (counts : s.Counts settings.queue.maxQueueSize.toNat s.events state) {t : Instant}
    (reached : t ∈ s.reportReach settings state) : t.isDated := by
  rcases List.mem_append.mp reached with storm | limit
  · exact clocked.isDated_storm stays (Nat.le_refl _) storm
  · apply clocked.isDated_limit stays (Nat.le_refl _)
    have throttled := counts.throttled
    generalize state.gates.throttle = throttle at limit throttled
    cases throttled with
    | unused _ _ => cases limit
    | used _ _ r own _ =>
      rw [Table.get?_insert, if_pos rfl, Option.map_some, Option.getD_some, own] at limit
      exact limit

/-- A simulation that stays in the calendar has a report. In every report each alert has one fate,
the digests tell of the deferred alerts, the queue has refused what it had no room for, and the
summary of the rule, which is there once an alert got past the storm detector under a limit that is
turned on, counts the alerts that the throttle dropped, as the one summary that is published does. -/
theorem report_adds_up [ZoneDatabase] (s : Simulation) (settings : Settings)
    (quiet : Option QuietHours) :
    (s.StaysInCalendar settings → (s.report? settings quiet).isSome) ∧
      ∀ report, s.report? settings quiet = some report → report.AddsUp s settings := by
  have counted : ∀ final, s.final? settings quiet = some final →
      s.Counts settings.queue.maxQueueSize.toNat s.events final := by
    intro final ran
    have counts := (counts_initial s settings.queue.maxQueueSize.toNat).run ran
    rwa [Nat.zero_add] at counts
  constructor
  · intro stays
    have all : 0 + s.events ≤ s.events := by omega
    obtain ⟨final, ran, clocked⟩ := run?_of_stays stays (clocked_initial s) quiet 0 all
    rw [Nat.zero_add] at clocked
    have dated : (s.reportReach settings final).all Instant.isDated = true := by
      refine List.all_eq_true.mpr fun t reached => ?_
      exact isDated_reportReach stays clocked (counted final ran) reached
    rw [report?, final?, ran]
    dsimp only
    rw [if_pos dated]
    rfl
  · intro report reported
    rw [report?] at reported
    cases ran : s.final? settings quiet with
    | none =>
      rw [ran] at reported
      cases reported
    | some final =>
      rw [ran] at reported
      dsimp only at reported
      split at reported
      · cases reported
        exact (counted final ran).addsUp
      · cases reported

/-- Twelve alerts of three routers, a second apart, in the night. -/
def nightAlerts : Simulation where
  events := 12
  rule := "link"
  spacing := Span.ofSeconds 1
  limit := ⟨2, 60, some "device_id"⟩
  devices := 3
  severity := .warning
  start := Instant.epoch

/-- Nine alerts in a minute are the most that is no storm, and four notifications fill a queue. -/
def tightSettings : Settings where
  storm := ⟨9, 60, 300⟩
  queue := { QueueSettings.standard with maxQueueSize := 4 }
  quietHours := none
  logging := LoggingSettings.standard

theorem nightAlerts_add_up :
    ∃ report, nightAlerts.report? tightSettings (some Gates.night) = some report ∧
      report.AddsUp nightAlerts tightSettings ∧
      (report.delivered, report.droppedByStorm, report.droppedByThrottle, report.deferred,
        report.queueRejected, report.summariesPublished) = (0, 3, 3, 6, 2, 1) := by
  obtain ⟨exists_report, adds_up⟩ :=
    report_adds_up nightAlerts tightSettings (some Gates.night)
  have stays : nightAlerts.StaysInCalendar tightSettings := by
    constructor <;> decide +kernel
  obtain ⟨report, reported⟩ := Option.isSome_iff_exists.mp (exists_report stays)
  have fates : (nightAlerts.report? tightSettings (some Gates.night)).map (fun r =>
      (r.delivered, r.droppedByStorm, r.droppedByThrottle, r.deferred, r.queueRejected,
        r.summariesPublished)) = some (0, 3, 3, 6, 2, 1) := by
    decide +kernel
  rw [reported] at fates
  exact ⟨report, reported, adds_up report reported, Option.some.inj fates⟩

end Simulation

end AlertAdmission
