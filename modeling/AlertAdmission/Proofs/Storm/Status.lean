import AlertAdmission.Proofs.Storm.Retained
import AlertAdmission.Proofs.Time.Difference

/-!
The status of a detector tells what the next alert would be told.

A status filters what the detector retains, and subtracts the instant from the end of the storm; an
alert drops the front of what is retained, and compares the instant with the end of the storm. Under
a clock that does not go back the first two agree at every instant, and the other two wherever a
difference tells the order (`Storm.status_foretells`).
-/

namespace AlertAdmission

namespace Storm

variable {c : StormConfig} {s : Storm} {now : Instant}

/-- An alert would be denied and not be recorded: nothing is retained that was not there before. -/
def TurnsAway (s : Storm) (c : StormConfig) (now : Instant) : Prop :=
  (s.record c now).2 = false ∧
    (s.record c now).1.counted = (s.prune (now - c.window)).counted

/-- The time from an instant to the end of the storm does not tell which of them is later. -/
def EndBlurs (s : Storm) (c : StormConfig) (now : Instant) : Prop :=
  ∃ start ∈ s.startedAt, now.Blurs (start + c.cooldown)

theorem isRaging_iff :
    s.isRaging c now = true ↔ ∃ start ∈ s.startedAt, now < start + c.cooldown := by
  unfold isRaging
  cases s.startedAt <;> simp

theorem turnsAway_iff : s.TurnsAway c now ↔ s.isRaging c now = true := by
  rw [TurnsAway, counted_record]
  cases raging : s.isRaging c now with
  | true => simp [record_of_raging raging]
  | false => simp

theorem cooldownRemaining_ne_zero_iff : s.cooldownRemaining c now ≠ 0 ↔
    ∃ start ∈ s.startedAt, 0 < (start + c.cooldown).since now := by
  unfold cooldownRemaining
  cases s.startedAt with
  | none => simp
  | some start =>
    simp only [Option.mem_def, Option.some.injEq, exists_eq_left']
    show ((start + c.cooldown).since now).toNat ≠ 0 ↔ _
    lia

theorem cooldownRemaining_tells_iff :
    (s.cooldownRemaining c now ≠ 0 ↔ s.TurnsAway c now) ↔ ¬ s.EndBlurs c now := by
  rw [cooldownRemaining_ne_zero_iff, turnsAway_iff, isRaging_iff, EndBlurs]
  cases s.startedAt with
  | none => simp
  | some start => simpa using Instant.difference_tells_iff

theorem passes_iff_of_ordered (ordered : s.counted.Pairwise (· ≤ ·)) :
    (s.record c now).2 = true ↔
      ¬ s.TurnsAway c now ∧ s.countInWindow c now + 1 ≤ c.threshold.toNat := by
  have retained : (s.prune (now - c.window)).counted.length = s.countInWindow c now :=
    congrArg List.length (Instant.dropWhile_eq_filter ordered _)
  rw [passes_iff, turnsAway_iff, retained, Bool.not_eq_true]

/-- Under a clock that does not go back, an alert at the instant of a status passes just when the
status shows no time left of a storm and what it counts leaves room for one more; and time is left
just when the alert would be denied without being recorded. The exception is where the difference of
the instant and the end of the storm has the wrong sign, at the end of a day with a leap second. -/
theorem status_foretells (c : StormConfig) (operations : List Operation)
    (ordered : (run c operations).2.Ordered) (now : Instant) :
    let s := (run c operations).1
    (((s.status c now).cooldownRemaining ≠ 0 ↔ s.TurnsAway c now) ↔ ¬ s.EndBlurs c now) ∧
      (¬ s.EndBlurs c now → ((s.record c now).2 = true ↔
        (s.status c now).cooldownRemaining = 0 ∧
          s.countInWindow c now + 1 ≤ c.threshold.toNat)) := by
  intro s
  refine ⟨cooldownRemaining_tells_iff, fun clear => ?_⟩
  have told : s.cooldownRemaining c now ≠ 0 ↔ s.TurnsAway c now :=
    cooldownRemaining_tells_iff.mpr clear
  rw [passes_iff_of_ordered (ordered_counted_run ordered), ← told, not_not]
  exact Iff.rfl

/-- The cooldown of the storm at second 32 is past at second 70, though no alert has ended it yet. -/
theorem passes_after_twoStorms :
    let s := (run shortStorms twoStorms).1
    (run shortStorms twoStorms).2.Ordered ∧ (s.status shortStorms (atSecond 70)).inStorm = true ∧
      ¬ s.EndBlurs shortStorms (atSecond 70) ∧
      (s.status shortStorms (atSecond 70)).cooldownRemaining = 0 ∧
      s.countInWindow shortStorms (atSecond 70) = 1 ∧
      (s.record shortStorms (atSecond 70)).2 = true := by
  intro s
  have ordered : (run shortStorms twoStorms).2.Ordered := by
    unfold StormLog.Ordered
    decide +kernel
  have started : s.startedAt = some (atSecond 32) := by decide +kernel
  have clear : ¬ s.EndBlurs shortStorms (atSecond 70) := by
    rw [EndBlurs, started]
    decide +kernel
  have elapsed : (s.status shortStorms (atSecond 70)).cooldownRemaining = 0 := by decide +kernel
  have one : s.countInWindow shortStorms (atSecond 70) = 1 := by decide +kernel
  have foretold := (status_foretells shortStorms twoStorms ordered (atSecond 70)).2 clear
  refine ⟨ordered, by decide +kernel, clear, elapsed, one, foretold.mpr ⟨elapsed, ?_⟩⟩
  exact Nat.le_of_eq (congrArg (· + 1) one)

/-- Two alerts half a minute before the end of 2016 start a storm that lasts until midnight. -/
def untilMidnight : List Operation :=
  [.record (Instant.ofNanos 1483228770000000000), .record (Instant.ofNanos 1483228770000000000)]

/-- Within the leap second before midnight no time is left of the storm, which still goes on. -/
theorem not_foretold_in_leap_second :
    ¬ ∀ (c : StormConfig) (operations : List Operation) (now : Instant),
      (run c operations).2.Ordered → (∀ t ∈ (run c operations).2.instants, t ≤ now) →
      ((((run c operations).1.record c now).2 = true ↔
          ((run c operations).1.status c now).cooldownRemaining = 0 ∧
            (run c operations).1.countInWindow c now + 1 ≤ c.threshold.toNat) ∧
        (((run c operations).1.status c now).cooldownRemaining ≠ 0 ↔
          (run c operations).1.TurnsAway c now)) := by
  intro claim
  have ordered : (run ⟨1, 1, 30⟩ untilMidnight).2.Ordered := by
    unfold StormLog.Ordered
    decide +kernel
  have foretold := claim ⟨1, 1, 30⟩ untilMidnight ⟨1483228799500000000, true⟩ ordered
    (by decide +kernel)
  have denied := foretold.1
  revert denied
  decide +kernel

end Storm

end AlertAdmission
