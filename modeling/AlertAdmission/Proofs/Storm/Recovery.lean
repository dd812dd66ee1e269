import AlertAdmission.Proofs.Storm.Retained

/-!
Storms end, and what a detector retains stays small.

Where the cooldown is no shorter than the window, everything that is retained from a storm has left
the window by the end of the cooldown, so the alert that ends it is alone and passes. A storm that
starts in a leap second is an exception for the rest of one second, since its cooldown counts from
the second before (`Storm.EndsClear`).
-/

namespace AlertAdmission

namespace Storm

variable {c : StormConfig} {s : Storm} {start now : Instant} {operations : List Operation}

/-! ### One alert -/

/-- Whatever is retained in a storm came by its start. -/
def ByStart (s : Storm) : Prop := ∀ start ∈ s.startedAt, ∀ t ∈ s.counted, t ≤ start

/-- A calm detector has retained no more alerts than the threshold, and in a storm there may be one
more. -/
structure Contained (c : StormConfig) (s : Storm) : Prop where
  ofCalm : s.startedAt = none → s.counted.length ≤ c.threshold.toNat
  ofStorm : s.counted.length ≤ c.threshold.toNat + 1

theorem byStart_calm : ByStart calm := fun _ started => absurd started (Option.not_mem_none _)

theorem contained_calm (c : StormConfig) : Contained c calm :=
  ⟨fun _ => Nat.zero_le _, Nat.zero_le _⟩

theorem not_raging_of_elapsed (started : s.startedAt = some start)
    (elapsed : start + c.cooldown ≤ now) : s.isRaging c now = false := by
  simpa [isRaging, started] using elapsed

theorem raging_of_within (started : s.startedAt = some start) (within : now < start + c.cooldown) :
    s.isRaging c now = true := by
  simpa [isRaging, started] using within

/-- Nothing from the storm is left when its start has left the window. -/
theorem ByStart.prune_of_left (h : ByStart s) (started : s.startedAt = some start)
    (left : start ≤ now - c.window) : (s.prune (now - c.window)).counted = [] := by
  unfold prune
  rw [List.dropWhile_eq_nil_iff]
  intro t member
  simpa using Instant.le_trans (h start started t member) left

/-- The alert that ends a storm starts from nothing. -/
theorem ByStart.record_ending (h : ByStart s) (started : s.startedAt = some start)
    (elapsed : start + c.cooldown ≤ now) (left : start ≤ now - c.window) :
    s.record c now = (⟨[now], if 1 ≤ c.threshold.toNat then none else some now, 0⟩,
      decide (1 ≤ c.threshold.toNat)) := by
  rw [record_of_not_raging (not_raging_of_elapsed started elapsed), h.prune_of_left started left]
  simp

theorem ByStart.record (h : ByStart s) (past : ∀ t ∈ s.counted, t ≤ now) :
    ByStart (s.record c now).1 := by
  intro start started t member
  have known := (sublist_counted_record s c now).subset member
  cases raging : s.isRaging c now with
  | true =>
    rw [record_of_raging raging] at started member
    exact h start started t ((List.dropWhile_sublist _).subset member)
  | false =>
    rw [record_of_not_raging raging, Option.mem_def, Option.ite_none_left_eq_some,
      Option.some.injEq] at started
    rw [← started.2]
    rcases List.mem_append.mp known with before | itself
    · exact past t before
    · exact List.mem_singleton.mp itself ▸ Instant.le_refl now

theorem Contained.record (h : Contained c s) (byStart : ByStart s)
    (clear : ∀ start ∈ s.startedAt, start + c.cooldown ≤ now → start ≤ now - c.window) :
    Contained c (s.record c now).1 := by
  have shorter : (s.prune (now - c.window)).counted.length ≤ s.counted.length :=
    (List.dropWhile_sublist _).length_le
  cases raging : s.isRaging c now with
  | true =>
    rw [record_of_raging raging]
    exact ⟨fun calm => Nat.le_trans shorter (h.ofCalm calm), Nat.le_trans shorter h.ofStorm⟩
  | false =>
    have room : (s.prune (now - c.window)).counted.length ≤ c.threshold.toNat := by
      cases started : s.startedAt with
      | none => exact Nat.le_trans shorter (h.ofCalm started)
      | some start =>
        have elapsed : start + c.cooldown ≤ now := by simpa [isRaging, started] using raging
        simp [byStart.prune_of_left started (clear start started elapsed)]
    rw [record_of_not_raging raging]
    constructor
    · intro calm
      simpa using calm
    · simpa using room

/-! ### Runs -/

/-- No alert that ends a storm finds the start of it in its window, if that lies in a leap second. -/
def EndsClear (c : StormConfig) (operations : List Operation) : Prop :=
  Justified (fun earlier last => ∀ now, last = .record now →
    ∀ start ∈ (run c earlier).1.startedAt, start.leap = true → start + c.cooldown ≤ now →
      start ≤ now - c.window) operations

theorem start_left (long : c.window ≤ c.cooldown) (elapsed : start + c.cooldown ≤ now)
    (clear : start.leap = true → start ≤ now - c.window) : start ≤ now - c.window := by
  cases leap : start.leap with
  | true => exact clear leap
  | false => exact Instant.le_sub_of_add_le (windowLength_nonneg _) long leap elapsed

theorem mem_of_onset {calls : List StormCall} (h : onset calls = some start) :
    start ∈ calls.map StormCall.now := by
  obtain ⟨call, last, found⟩ := Option.bind_eq_some_iff.mp h
  rw [Option.ite_none_left_eq_some, Option.some.injEq] at found
  rw [← found.2]
  exact List.mem_map_of_mem (List.mem_filter.mp (List.mem_of_getLast? last)).1

theorem mem_instants_of_started (started : (run c operations).1.startedAt = some start) :
    start ∈ (run c operations).2.instants :=
  (history_sublist c _).subset (mem_of_onset (startedAt_run c operations ▸ started))

theorem endsClear_of_ordinary (ordinary : ∀ t ∈ (run c operations).2.instants, t.leap = false) :
    EndsClear c operations := by
  induction operations using List.reverseRecOn with
  | nil => exact .nil
  | append_singleton operations last ih =>
    rw [run_snoc, StormLog.instants_append, List.forall_mem_append] at ordinary
    apply (ih ordinary.1).snoc
    intro now _ start started leap
    rw [ordinary.1 start (mem_instants_of_started started)] at leap
    contradiction

theorem byStart_run (ordered : (run c operations).2.Ordered) : ByStart (run c operations).1 := by
  induction operations using List.reverseRecOn with
  | nil => exact byStart_calm
  | append_singleton operations last ih =>
    have before := ih (ordered_of_snoc ordered)
    rw [run_snoc]
    cases last with
    | status now => exact before
    | reset => exact byStart_calm
    | record now => exact before.record (past_of_snoc ordered)

theorem contained_run (long : c.window ≤ c.cooldown) (ordered : (run c operations).2.Ordered)
    (clear : EndsClear c operations) : Contained c (run c operations).1 := by
  induction operations using List.reverseRecOn with
  | nil => exact contained_calm c
  | append_singleton operations last ih =>
    have before := ordered_of_snoc ordered
    have contained := ih before clear.of_append
    rw [run_snoc]
    cases last with
    | status now => exact contained
    | reset => exact contained_calm c
    | record now =>
      apply contained.record (byStart_run before)
      intro start started elapsed
      exact start_left long elapsed fun leap => clear.last now rfl start started leap elapsed

/-- Alerts that come within the cooldown are denied, and do not prolong the storm. -/
theorem run_within (started : (run c operations).1.startedAt = some start) {during : List Instant}
    (within : ∀ t ∈ during, t < start + c.cooldown) :
    (run c (operations ++ during.map .record)).1.startedAt = some start ∧
      (run c (operations ++ during.map .record)).2 =
        (run c operations).2 ++ during.map (.alert · false) := by
  induction during using List.reverseRecOn with
  | nil => simpa using started
  | append_singleton during t ih =>
    rw [List.forall_mem_append, List.forall_mem_singleton] at within
    obtain ⟨storm, log⟩ := ih within.1
    have raging := raging_of_within storm within.2
    rw [List.map_append, List.map_append, ← List.append_assoc, List.map_singleton, run_snoc, log]
    simpa [perform, record_of_raging raging, prune] using storm

/-- Where the cooldown is no shorter than the window, a detector never retains more alerts than the
threshold and one, and whenever it is in a storm, all alerts before the end of the cooldown are
denied and the first one after it passes and leaves the detector calm, with that alert alone. This
holds for every run under a clock that does not go back. Only a storm that starts in a leap second
has to have left the window of the alert that ends it. -/
theorem storm_ends_after_cooldown (c : StormConfig) (long : c.window ≤ c.cooldown)
    (operations : List Operation) (ordered : (run c operations).2.Ordered) :
    (EndsClear c operations → (run c operations).1.counted.length ≤ c.threshold.toNat + 1) ∧
      ∀ (earlier : List Operation) (during : List Instant) (start : Instant),
        (run c earlier).1.startedAt = some start → (∀ t ∈ during, t < start + c.cooldown) →
        (operations = earlier ++ during.map .record →
          (run c operations).2 = (run c earlier).2 ++ during.map (.alert · false)) ∧
        ∀ now, operations = earlier ++ during.map .record ++ [.record now] →
          start + c.cooldown ≤ now → (start.leap = true → start ≤ now - c.window) →
          1 ≤ c.threshold.toNat →
          (run c operations).2 =
              (run c earlier).2 ++ during.map (.alert · false) ++ [.alert now true] ∧
            (run c operations).1 = ⟨[now], none, 0⟩ := by
  refine ⟨fun clear => (contained_run long ordered clear).ofStorm, ?_⟩
  intro earlier during start started within
  obtain ⟨storm, log⟩ := run_within started within
  constructor
  · rintro rfl
    exact log
  · rintro now rfl elapsed clear room
    have left : start ≤ now - c.window := start_left long elapsed clear
    have ended := (byStart_run (ordered_of_snoc ordered)).record_ending storm elapsed left
    rw [run_snoc]
    simp [perform, ended, log, room]

/-- Two alerts in a minute are the most, and a storm lasts for a minute. -/
def minuteStorms : StormConfig := ⟨2, 60, 60⟩

/-- Three alerts in two seconds start a storm, and the last three come in it and at its end. -/
def minuteLong : List Operation :=
  [.record (atSecond 0), .record (atSecond 1), .record (atSecond 2)] ++
    [atSecond 10, atSecond 61].map .record ++ [.record (atSecond 62)]

theorem passes_at_end_of_minute :
    minuteStorms.window ≤ minuteStorms.cooldown ∧ (run minuteStorms minuteLong).2.Ordered ∧
      EndsClear minuteStorms minuteLong ∧ (run minuteStorms minuteLong).1.counted.length ≤ 3 ∧
      (run minuteStorms minuteLong).2 =
        [.alert (atSecond 0) true, .alert (atSecond 1) true, .alert (atSecond 2) false,
         .alert (atSecond 10) false, .alert (atSecond 61) false, .alert (atSecond 62) true] ∧
      (run minuteStorms minuteLong).1 = ⟨[atSecond 62], none, 0⟩ := by
  have long : minuteStorms.window ≤ minuteStorms.cooldown := by decide
  have ordered : (run minuteStorms minuteLong).2.Ordered := by
    unfold StormLog.Ordered
    decide +kernel
  have clear : EndsClear minuteStorms minuteLong := endsClear_of_ordinary (by decide +kernel)
  obtain ⟨bound, ends⟩ := storm_ends_after_cooldown minuteStorms long minuteLong ordered
  obtain ⟨log, alone⟩ := (ends _ _ (atSecond 2) (by decide +kernel) (by decide)).2
    (atSecond 62) rfl (by decide) (by decide) (by decide)
  exact ⟨long, ordered, clear, bound clear, log.trans (by decide +kernel), alone⟩

/-- Two alerts within the leap second at the end of 2016 start a storm. -/
def stormInLeapSecond : List Operation :=
  [.record ⟨1483228799500000000, true⟩, .record ⟨1483228799500000000, true⟩]

/-- A minute later both are in the window still, and the alert that ends the storm starts the next
one. -/
theorem stormy_after_leap_second :
    ¬ ∀ (c : StormConfig) (operations : List Operation) (start now : Instant),
      c.window ≤ c.cooldown → 1 ≤ c.threshold.toNat →
      (run c (operations ++ [.record now])).2.Ordered →
      (run c operations).1.startedAt = some start → start + c.cooldown ≤ now →
      ((run c operations).1.record c now).2 = true ∧
        (run c (operations ++ [.record now])).1.counted.length ≤ c.threshold.toNat + 1 := by
  intro claim
  have ordered : (run ⟨1, 60, 60⟩
      (stormInLeapSecond ++ [.record (Instant.ofNanos 1483228859500000000)])).2.Ordered := by
    unfold StormLog.Ordered
    decide +kernel
  have passes := (claim ⟨1, 60, 60⟩ stormInLeapSecond ⟨1483228799500000000, true⟩
    (Instant.ofNanos 1483228859500000000) (by decide) (by decide) ordered (by decide +kernel)
    (by decide +kernel)).1
  revert passes
  decide +kernel

end Storm

end AlertAdmission
