import AlertAdmission.Proofs.Storm.History

/-!
What a detector retains, whatever its clock does.

Before an alert is counted, the old alerts at the front of the list are dropped. Under a clock that
is put back an old alert may stand behind one that is still in the window, and then it is retained
and counted too. It comes to that just when the alerts do not leave the window in the order in which
they came (`Storm.retained_current_iff`).
-/

namespace AlertAdmission

namespace Storm

variable {c : StormConfig} {s : Storm} {now : Instant}

/-! ### One alert -/

theorem record_of_raging (raging : s.isRaging c now = true) :
    s.record c now =
      ({ s.prune (now - c.window) with swallowed := s.swallowed + 1 }, false) := if_pos raging

theorem record_of_not_raging (calm : s.isRaging c now = false) :
    s.record c now = (⟨(s.prune (now - c.window)).counted ++ [now],
        if (s.prune (now - c.window)).counted.length + 1 ≤ c.threshold.toNat then none
        else some now, 0⟩,
      decide ((s.prune (now - c.window)).counted.length + 1 ≤ c.threshold.toNat)) := by
  have unchanged : (s.prune (now - c.window)).isRaging c now = false := calm
  rw [record_of_calm unchanged rfl decide_eq_true_iff]
  simp only [decide_eq_true_eq]

theorem counted_record (s : Storm) (c : StormConfig) (now : Instant) :
    (s.record c now).1.counted = (s.prune (now - c.window)).counted ++
      if s.isRaging c now then [] else [now] := by
  cases raging : s.isRaging c now with
  | true => simp [record_of_raging raging]
  | false => simp [record_of_not_raging raging]

theorem passes_iff : (s.record c now).2 = true ↔ s.isRaging c now = false ∧
    (s.prune (now - c.window)).counted.length + 1 ≤ c.threshold.toNat := by
  cases raging : s.isRaging c now with
  | true => simp [record_of_raging raging]
  | false => simp [record_of_not_raging raging]

/-- Everything that is retained is in the window that ends at an instant. -/
def Current (s : Storm) (c : StormConfig) (now : Instant) : Prop :=
  ∀ t ∈ s.counted, now - c.window < t

theorem Current.countInWindow (h : s.Current c now) :
    s.countInWindow c now = s.counted.length := by
  unfold Storm.countInWindow
  rw [List.filter_eq_self.mpr]
  simpa [Current] using h

theorem current_record_iff (pos : 0 < c.window) :
    (s.record c now).1.Current c now ↔ Instant.LeftInOrder (now - c.window) s.counted := by
  have itself : now - c.window < now := Instant.sub_lt pos
  rw [← Instant.newer_dropWhile_iff, Current, counted_record, List.forall_mem_append]
  simp [prune, itself]

/-! ### Runs -/

theorem startedAt_run (c : StormConfig) (operations : List Operation) :
    (run c operations).1.startedAt = onset (history c (run c operations).2) := by
  induction operations using List.reverseRecOn with
  | nil => rfl
  | append_singleton operations last ih =>
    rw [run_snoc]
    cases last with
    | status now => simpa [perform] using ih
    | reset => simp [perform, calm, history_reset, onset, countedCalls]
    | record now =>
      have same := isRaging_of_onset (c := c) ih now
      simp only [perform, history_alert, ← same]
      cases raging : (run c operations).1.isRaging c now with
      | true =>
        simp only [record_of_raging raging, onset, countedCalls_swallowed]
        exact ih
      | false => simp [record_of_not_raging raging, onset_counted]

theorem sublist_counted_record (s : Storm) (c : StormConfig) (now : Instant) :
    (s.record c now).1.counted.Sublist (s.counted ++ [now]) := by
  rw [counted_record]
  apply List.Sublist.append (List.dropWhile_sublist _)
  split
  · exact List.nil_sublist _
  · exact List.Sublist.refl _

theorem sublist_counted_run (c : StormConfig) (operations : List Operation) :
    (run c operations).1.counted.Sublist (run c operations).2.instants := by
  induction operations using List.reverseRecOn with
  | nil => exact List.Sublist.refl _
  | append_singleton operations last ih =>
    rw [run_snoc, StormLog.instants_append]
    cases last with
    | status now => simpa [perform, StormLog.instants] using ih
    | reset => exact List.nil_sublist _
    | record now =>
      exact (sublist_counted_record _ c now).trans (ih.append (List.Sublist.refl _))

theorem ordered_counted_run {c : StormConfig} {operations : List Operation}
    (ordered : (run c operations).2.Ordered) : (run c operations).1.counted.Pairwise (· ≤ ·) :=
  ordered.sublist (sublist_counted_run c operations)

theorem ordered_of_snoc {c : StormConfig} {operations : List Operation} {last : Operation}
    (ordered : (run c (operations ++ [last])).2.Ordered) : (run c operations).2.Ordered := by
  rw [run_snoc, StormLog.Ordered, StormLog.instants_append, List.pairwise_append] at ordered
  exact ordered.1

theorem past_of_snoc {c : StormConfig} {operations : List Operation} {now : Instant}
    (ordered : (run c (operations ++ [.record now])).2.Ordered) :
    ∀ t ∈ (run c operations).1.counted, t ≤ now := by
  rw [run_snoc, StormLog.Ordered, StormLog.instants_append, List.pairwise_append] at ordered
  intro t member
  have known := (sublist_counted_run c operations).subset member
  exact ordered.2.2 t known now (List.mem_singleton_self now)

/-! ### Alerts alone -/

/-- The counted alerts that have been in the window of every call after them. -/
def lasting (c : StormConfig) : List StormCall → List Instant
  | [] => []
  | call :: later =>
    if !call.swallowed && later.all fun u => u.now - c.window < call.now
    then call.now :: lasting c later else lasting c later

theorem lasting_snoc (c : StormConfig) (calls : List StormCall) (last : StormCall) :
    lasting c (calls ++ [last]) =
      (lasting c calls).filter (fun t => last.now - c.window < t) ++
        if last.swallowed then [] else [last.now] := by
  induction calls with
  | nil => cases swallowed : last.swallowed <;> simp [lasting, swallowed]
  | cons call later ih =>
    simp only [List.cons_append, lasting, List.all_append, List.all_cons, List.all_nil,
      Bool.and_true, ← Bool.and_assoc, ih]
    cases lasts : !call.swallowed && later.all fun u => u.now - c.window < call.now with
    | true => by_cases newer : last.now - c.window < call.now <;> simp [newer]
    | false => simp

/-- A detector that has recorded alerts at these instants and nothing else. -/
def recorded (c : StormConfig) (readings : List Instant) : Storm × StormLog :=
  run c (readings.map .record)

def callsOf (c : StormConfig) (readings : List Instant) : List StormCall :=
  history c (recorded c readings).2

variable {readings : List Instant}

theorem recorded_snoc (c : StormConfig) (readings : List Instant) (now : Instant) :
    recorded c (readings ++ [now]) = (((recorded c readings).1.record c now).1,
      (recorded c readings).2 ++ [.alert now ((recorded c readings).1.record c now).2]) := by
  simp only [recorded, List.map_append, List.map_singleton, run_snoc, perform]

theorem callsOf_snoc (c : StormConfig) (readings : List Instant) (now : Instant) :
    callsOf c (readings ++ [now]) = callsOf c readings ++
      [⟨now, (recorded c readings).1.isRaging c now, ((recorded c readings).1.record c now).2⟩] := by
  have same := isRaging_of_onset (c := c) (startedAt_run c (readings.map .record)) now
  rw [callsOf, recorded_snoc, history_alert, recorded, ← same]
  rfl

/-- At each call, of the alerts that have lasted until then, those that are no longer in the window
came before all others. -/
def LeaveInOrder (c : StormConfig) (calls : List StormCall) : Prop :=
  Justified (fun earlier call => Instant.LeftInOrder (call.now - c.window) (lasting c earlier)) calls

theorem counted_of_leaveInOrder (inOrder : LeaveInOrder c (callsOf c readings)) :
    (recorded c readings).1.counted = lasting c (callsOf c readings) := by
  induction readings using List.reverseRecOn with
  | nil => rfl
  | append_singleton readings now ih =>
    rw [callsOf_snoc, LeaveInOrder, Justified.snoc_iff] at inOrder
    have counted := ih inOrder.1
    rw [recorded_snoc, callsOf_snoc, lasting_snoc, counted_record, prune, counted,
      Instant.dropWhile_eq_filter_of_leftInOrder inOrder.2]

theorem map_now_callsOf (c : StormConfig) (readings : List Instant) :
    (callsOf c readings).map StormCall.now = readings := by
  induction readings using List.reverseRecOn with
  | nil => rfl
  | append_singleton readings now ih => simp [callsOf_snoc, ih]

theorem sublist_lasting (c : StormConfig) (calls : List StormCall) :
    (lasting c calls).Sublist (calls.map StormCall.now) := by
  induction calls with
  | nil => exact List.Sublist.refl _
  | cons call later ih =>
    rw [lasting, List.map_cons]
    split
    · exact ih.cons_cons _
    · exact ih.cons _

theorem leaveInOrder_of_ordered (ordered : readings.Pairwise (· ≤ ·)) :
    LeaveInOrder c (callsOf c readings) := by
  intro before call after position
  have all : (callsOf c readings).map StormCall.now = readings := map_now_callsOf c readings
  rw [position, List.map_append] at all
  have first : (before.map StormCall.now).Sublist readings := by
    rw [← all]
    exact List.sublist_append_left _ _
  exact Instant.leftInOrder_of_ordered (ordered.sublist ((sublist_lasting c before).trans first)) _

/-- After each alert of a run, whatever the clock does, everything retained is in the window of that
alert, and a status counts it all, just when the alerts leave the window in the order in which they
came. They do while the clock does not go back. -/
theorem retained_current_iff (c : StormConfig) (pos : 0 < c.windowSeconds.toNat)
    (readings : List Instant) :
    (Justified (fun earlier now =>
        let after := (recorded c (earlier ++ [now])).1
        (∀ t ∈ after.counted, now - c.window < t) ∧
          after.counted.length = after.countInWindow c now) readings ↔
      LeaveInOrder c (callsOf c readings)) ∧
    (readings.Pairwise (· ≤ ·) → LeaveInOrder c (callsOf c readings)) := by
  refine ⟨?_, leaveInOrder_of_ordered⟩
  -- as long as the alerts have left in order, the detector retains what has lasted, and no more
  induction readings using List.reverseRecOn with
  | nil => simp [Justified, LeaveInOrder, callsOf, history, recorded, run]
  | append_singleton readings now ih =>
    rw [callsOf_snoc, LeaveInOrder, Justified.snoc_iff, Justified.snoc_iff, ← LeaveInOrder, ih]
    apply and_congr_right
    intro inOrder
    rw [← counted_of_leaveInOrder inOrder, ← current_record_iff (windowLength_pos pos),
      recorded_snoc]
    exact ⟨And.left, fun current => ⟨current, current.countInWindow.symm⟩⟩

/-- The second of three alerts comes by a clock that has been put back for a while. -/
def clockPutBack : List Instant := [atSecond 100, atSecond 0, atSecond 65]

/-- At the third alert the second one has left the window but stands behind the first, which has
not. It is counted too, and the third alert starts a storm. -/
theorem stale_behind_first :
    0 < shortStorms.windowSeconds.toNat ∧
      ¬ LeaveInOrder shortStorms (callsOf shortStorms clockPutBack) ∧
      (recorded shortStorms clockPutBack).1.counted = [atSecond 100, atSecond 0, atSecond 65] ∧
      (recorded shortStorms clockPutBack).1.countInWindow shortStorms (atSecond 65) = 2 ∧
      (recorded shortStorms clockPutBack).1.startedAt = some (atSecond 65) := by
  have pos : 0 < shortStorms.windowSeconds.toNat := by decide
  refine ⟨pos, ?_, by decide +kernel, by decide +kernel, by decide +kernel⟩
  rw [← (retained_current_iff shortStorms pos clockPutBack).1]
  intro current
  have three := (current [atSecond 100, atSecond 0] (atSecond 65) [] rfl).2
  revert three
  decide +kernel

/-- What is retained after an alert need not be in its window, though no reading of the clock lies
in a leap second. -/
theorem not_all_retained_current :
    ¬ ∀ (c : StormConfig) (readings : List Instant) (now : Instant), 0 < c.windowSeconds.toNat →
      (∀ t ∈ readings ++ [now], t.leap = false) →
      ∀ t ∈ (recorded c (readings ++ [now])).1.counted, now - c.window < t := by
  intro claim
  have stale := claim shortStorms [atSecond 100, atSecond 0] (atSecond 65) (by decide) (by decide)
    (atSecond 0) (by decide +kernel)
  revert stale
  decide +kernel

end Storm

end AlertAdmission
