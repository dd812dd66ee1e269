import AlertAdmission.Proofs.Justified
import AlertAdmission.Storm
import Mathlib.Data.List.DropRight

/-!
A storm detector against the whole history since its last reset.

The detector prunes its list of alerts and carries a start and a count along. `Storm.history` keeps
every call, and says of each whether a storm swallowed it; the detector agrees with that history
after every run (`Storm.Keeps`). The window must not go back, as it can after a leap second.
-/

namespace AlertAdmission

/-- What happened to a detector: an alert was recorded, and passed or did not, or it was reset. -/
inductive StormRecord where
  | alert (now : Instant) (passed : Bool)
  | reset
  deriving DecidableEq

abbrev StormLog := List StormRecord

namespace StormLog

def instant? : StormRecord → Option Instant
  | .alert now _ => some now
  | .reset => none

def instants (log : StormLog) : List Instant := log.filterMap instant?

/-- The alerts are recorded under a clock that does not go back. -/
def Ordered (log : StormLog) : Prop := log.instants.Pairwise (· ≤ ·)

/-- Nor do the starts of the windows behind the alerts go back. -/
def Steady (log : StormLog) (window : Span) : Prop := log.instants.Pairwise (Instant.Leads window)

theorem Ordered.steady {log : StormLog} (ordered : log.Ordered)
    (ordinary : ∀ t ∈ log.instants, t.leap = false) (c : StormConfig) : log.Steady c.window := by
  apply List.Pairwise.imp_of_mem _ ordered
  intro t later member _ le
  exact Instant.leads_of_le (windowLength_nonneg _) (ordinary t member) le

theorem instants_append (log more : StormLog) :
    instants (log ++ more) = log.instants ++ instants more := List.filterMap_append

end StormLog

/-- A recorded alert, and whether a storm swallowed it. -/
structure StormCall where
  now : Instant
  swallowed : Bool
  passed : Bool
  deriving DecidableEq

namespace Storm

/-! ### The whole history -/

def countedCalls (calls : List StormCall) : List StormCall :=
  calls.filter fun call => !call.swallowed

/-- The instant of the last call that was not swallowed, if that one was denied. -/
def onset (calls : List StormCall) : Option Instant :=
  (countedCalls calls).getLast?.bind fun call => if call.passed then none else some call.now

/-- Whether a call is swallowed: the last one that was not was denied, and its cooldown goes on. -/
def swallows (c : StormConfig) (calls : List StormCall) (now : Instant) : Bool :=
  (onset calls).any fun start => now < start + c.cooldown

/-- The number of calls that a call at an instant finds in its window. -/
def earlierInWindow (c : StormConfig) (calls : List StormCall) (now : Instant) : Nat :=
  ((countedCalls calls).filter fun call => now - c.window < call.now).length

/-- The calls since the last reset. -/
def history (c : StormConfig) (log : StormLog) : List StormCall :=
  log.foldl (fun calls record => match record with
    | .alert now passed => calls ++ [⟨now, swallows c calls now, passed⟩]
    | .reset => []) []

variable {c : StormConfig} {log : StormLog} {s : Storm}

theorem history_alert (c : StormConfig) (log : StormLog) (now : Instant) (passed : Bool) :
    history c (log ++ [.alert now passed]) =
      history c log ++ [⟨now, swallows c (history c log) now, passed⟩] := by
  rw [history, List.foldl_append]
  rfl

theorem history_reset (c : StormConfig) (log : StormLog) :
    history c (log ++ [.reset]) = [] := by
  rw [history, List.foldl_append]
  rfl

theorem history_sublist (c : StormConfig) (log : StormLog) :
    ((history c log).map StormCall.now).Sublist log.instants := by
  induction log using List.reverseRecOn with
  | nil => exact List.Sublist.refl _
  | append_singleton log record ih =>
    rw [StormLog.instants_append]
    cases record with
    | alert now passed =>
      rw [history_alert, List.map_append]
      exact ih.append (List.Sublist.refl _)
    | reset =>
      rw [history_reset]
      exact List.nil_sublist _

theorem countedCalls_append (calls more : List StormCall) :
    countedCalls (calls ++ more) = countedCalls calls ++ countedCalls more :=
  List.filter_append ..

theorem countedCalls_swallowed (calls : List StormCall) (now : Instant) (passed : Bool) :
    countedCalls (calls ++ [⟨now, true, passed⟩]) = countedCalls calls := by
  rw [countedCalls_append]
  exact List.append_nil _

theorem onset_counted (calls : List StormCall) (now : Instant) (passed : Bool) :
    onset (calls ++ [⟨now, false, passed⟩]) = if passed then none else some now := by
  rw [onset, countedCalls_append]
  show (countedCalls calls ++ [_]).getLast?.bind _ = _
  rw [List.getLast?_concat]
  rfl

/-! ### What a detector keeps of it -/

def countedInstants (calls : List StormCall) : List Instant :=
  (countedCalls calls).map StormCall.now

/-- A detector that agrees with the history: what it has pruned had left the window of some alert. -/
structure Keeps (c : StormConfig) (log : StormLog) (s : Storm) : Prop where
  started : s.startedAt = onset (history c log)
  swallowed : s.swallowed = ((history c log).rtakeWhile StormCall.swallowed).length
  counted : ∃ gone, countedInstants (history c log) = gone ++ s.counted ∧
    ∀ t ∈ gone, ∃ u ∈ log.instants, t ≤ u - c.window

theorem ordered_countedInstants (steady : log.Steady c.window) :
    (countedInstants (history c log)).Pairwise (· ≤ ·) := by
  have instants : log.instants.Pairwise (· ≤ ·) := List.Pairwise.imp And.left steady
  have sublist : (countedInstants (history c log)).Sublist ((history c log).map StormCall.now) :=
    List.filter_sublist.map _
  exact instants.sublist (sublist.trans (history_sublist c log))

/-- Pruning leaves exactly the counted calls in the window, and what it takes away has left it. -/
theorem Keeps.prune (h : Keeps c log s) (steady : log.Steady c.window) {now : Instant}
    (next : ∀ t ∈ log.instants, t.Leads c.window now) :
    (s.prune (now - c.window)).counted =
        (countedInstants (history c log)).filter (fun t => now - c.window < t) ∧
      ∃ gone, countedInstants (history c log) = gone ++ (s.prune (now - c.window)).counted ∧
        ∀ t ∈ gone, t ≤ now - c.window := by
  obtain ⟨gone, split, left⟩ := h.counted
  have ordered := ordered_countedInstants steady
  rw [split, List.pairwise_append] at ordered
  -- what is gone had left some earlier window, and no later window starts before that one
  have reached : ∀ t ∈ gone, t ≤ now - c.window := by
    intro t ht
    obtain ⟨u, hu, passed⟩ := left t ht
    exact Instant.le_trans passed (next u hu).2
  constructor
  · have nothing : (gone.filter fun t => now - c.window < t) = [] := by
      rw [List.filter_eq_nil_iff]
      intro t ht
      simpa using reached t ht
    rw [split, List.filter_append, nothing, List.nil_append]
    exact Instant.dropWhile_eq_filter ordered.2.1 _
  · refine ⟨gone ++ s.counted.takeWhile fun t => t ≤ now - c.window, ?_, ?_⟩
    · rw [List.append_assoc, split]
      congr 1
      exact List.takeWhile_append_dropWhile.symm
    · intro t ht
      rcases List.mem_append.mp ht with ht | ht
      · exact reached t ht
      · simpa using List.mem_takeWhile_imp ht

theorem keeps_calm (c : StormConfig) : Keeps c [] calm where
  started := rfl
  swallowed := rfl
  counted := ⟨[], rfl, fun _ ht => absurd ht List.not_mem_nil⟩

theorem Keeps.reset (c : StormConfig) (log : StormLog) : Keeps c (log ++ [.reset]) calm where
  started := by
    rw [history_reset]
    rfl
  swallowed := by
    rw [history_reset]
    rfl
  counted := ⟨[], by rw [history_reset]; rfl, fun _ ht => absurd ht List.not_mem_nil⟩

theorem isRaging_of_onset {calls : List StormCall} (started : s.startedAt = onset calls)
    (now : Instant) : s.isRaging c now = swallows c calls now := by
  unfold Storm.isRaging swallows
  rw [started]
  cases onset calls <;> rfl

theorem Keeps.isRaging (h : Keeps c log s) (now : Instant) :
    s.isRaging c now = swallows c (history c log) now := isRaging_of_onset h.started now

theorem length_filter_countedInstants (c : StormConfig) (calls : List StormCall) (now : Instant) :
    ((countedInstants calls).filter fun t => now - c.window < t).length =
      earlierInWindow c calls now := by
  rw [countedInstants, List.filter_map, List.length_map]
  rfl

theorem Keeps.record_swallowed (h : Keeps c log s) (steady : log.Steady c.window) {now : Instant}
    (next : ∀ t ∈ log.instants, t.Leads c.window now)
    (inside : swallows c (history c log) now = true) :
    (s.record c now).2 = false ∧
      Keeps c (log ++ [.alert now false]) (s.record c now).1 := by
  have raging : (s.prune (now - c.window)).isRaging c now = true := (h.isRaging now).trans inside
  obtain ⟨_, gone, split, left⟩ := h.prune steady next
  have grown : history c (log ++ [.alert now false]) = history c log ++ [⟨now, true, false⟩] := by
    rw [history_alert, inside]
  have same : countedCalls (history c (log ++ [.alert now false])) =
      countedCalls (history c log) := by
    rw [grown, countedCalls_swallowed]
  unfold record
  simp only [raging, if_true, true_and]
  refine ⟨?_, ?_, gone, ?_, ?_⟩
  · rw [onset, same]
    exact h.started
  · rw [grown, List.rtakeWhile_concat, if_pos rfl, List.length_append]
    exact congrArg (· + 1) h.swallowed
  · rw [countedInstants, same]
    exact split
  · intro t ht
    refine ⟨now, ?_, left t ht⟩
    rw [StormLog.instants_append]
    exact List.mem_append_right _ (List.mem_singleton.mpr rfl)

theorem record_of_calm {now : Instant} {found : Nat} {passed : Bool}
    (calm : (s.prune (now - c.window)).isRaging c now = false)
    (length : (s.prune (now - c.window)).counted.length = found)
    (room : passed = true ↔ found + 1 ≤ c.threshold.toNat) :
    s.record c now = (⟨(s.prune (now - c.window)).counted ++ [now],
      if passed then none else some now, 0⟩, passed) := by
  unfold record
  simp only [calm, Bool.false_eq_true, if_false, count, List.length_append, List.length_singleton,
    length]
  cases passed with
  | true =>
    have fits := room.mp rfl
    rw [if_neg (by omega)]
    rfl
  | false =>
    have full : ¬ found + 1 ≤ c.threshold.toNat := fun fits => Bool.false_ne_true (room.mpr fits)
    rw [if_pos (by omega)]
    rfl

theorem Keeps.record_counted (h : Keeps c log s) (steady : log.Steady c.window) {now : Instant}
    (next : ∀ t ∈ log.instants, t.Leads c.window now)
    (outside : swallows c (history c log) now = false) :
    ((s.record c now).2 = true ↔
        earlierInWindow c (history c log) now + 1 ≤ c.threshold.toNat) ∧
      Keeps c (log ++ [.alert now (s.record c now).2]) (s.record c now).1 := by
  have calm : (s.prune (now - c.window)).isRaging c now = false := (h.isRaging now).trans outside
  obtain ⟨window, gone, split, left⟩ := h.prune steady next
  have found : (s.prune (now - c.window)).counted.length =
      earlierInWindow c (history c log) now := by
    rw [window, length_filter_countedInstants]
  obtain ⟨passed, room⟩ : ∃ passed : Bool, passed = true ↔
      earlierInWindow c (history c log) now + 1 ≤ c.threshold.toNat :=
    ⟨decide _, decide_eq_true_iff⟩
  have grown : history c (log ++ [.alert now passed]) = history c log ++ [⟨now, false, passed⟩] := by
    rw [history_alert, outside]
  rw [record_of_calm calm found room]
  refine ⟨room, ?_, ?_, gone, ?_, ?_⟩
  · rw [grown, onset_counted]
  · rw [grown, List.rtakeWhile_concat]
    rfl
  · rw [grown, countedInstants, countedCalls_append, List.map_append, ← List.append_assoc, ← split]
    rfl
  · intro t ht
    refine ⟨now, ?_, left t ht⟩
    rw [StormLog.instants_append]
    exact List.mem_append_right _ (List.mem_singleton.mpr rfl)

/-! ### Runs -/

inductive Operation where
  | record (now : Instant)
  | status (now : Instant)
  | reset

/-- The detector after an operation, and what the operation writes into the log. A status is only
read. -/
def perform (c : StormConfig) (s : Storm) : Operation → Storm × StormLog
  | .record now => ((s.record c now).1, [.alert now (s.record c now).2])
  | .status _ => (s, [])
  | .reset => (calm, [.reset])

def run (c : StormConfig) (operations : List Operation) : Storm × StormLog :=
  operations.foldl (fun state operation =>
    ((state.1.perform c operation).1, state.2 ++ (state.1.perform c operation).2)) (calm, [])

theorem run_snoc (c : StormConfig) (operations : List Operation) (last : Operation) :
    run c (operations ++ [last]) = (((run c operations).1.perform c last).1,
      (run c operations).2 ++ ((run c operations).1.perform c last).2) := by
  rw [run, List.foldl_append]
  rfl

/-- What the last call of a log gave is what the history before it makes of it. -/
def Faithful (c : StormConfig) (calls : List StormCall) (now : Instant) (passed : Bool) : Prop :=
  (swallows c calls now = true → passed = false) ∧
    (swallows c calls now = false →
      (passed = true ↔ earlierInWindow c calls now + 1 ≤ c.threshold.toNat))

theorem Keeps.record (h : Keeps c log s) (steady : log.Steady c.window) {now : Instant}
    (next : ∀ t ∈ log.instants, t.Leads c.window now) :
    Faithful c (history c log) now (s.record c now).2 ∧
      Keeps c (log ++ [.alert now (s.record c now).2]) (s.record c now).1 := by
  cases inside : swallows c (history c log) now with
  | true =>
    obtain ⟨stopped, kept⟩ := h.record_swallowed steady next inside
    rw [stopped]
    refine ⟨⟨fun _ => rfl, fun out => ?_⟩, kept⟩
    rw [inside] at out
    contradiction
  | false =>
    obtain ⟨room, kept⟩ := h.record_counted steady next inside
    refine ⟨⟨fun within => ?_, fun _ => room⟩, kept⟩
    rw [inside] at within
    contradiction

theorem steady_of_append {more : StormLog} {window : Span}
    (steady : StormLog.Steady (log ++ more) window) : log.Steady window := by
  rw [StormLog.Steady, StormLog.instants_append, List.pairwise_append] at steady
  exact steady.1

/-- Whether every alert of a log passed or not as the history before it says. -/
def FaithfulLog (c : StormConfig) (log : StormLog) : Prop :=
  Justified (fun before record => ∀ now passed, record = .alert now passed →
    Faithful c (history c before) now passed) log

theorem run_keeps (c : StormConfig) (operations : List Operation)
    (steady : (run c operations).2.Steady c.window) :
    Keeps c (run c operations).2 (run c operations).1 ∧ FaithfulLog c (run c operations).2 := by
  induction operations using List.reverseRecOn with
  | nil =>
    exact ⟨keeps_calm c, .nil⟩
  | append_singleton operations last ih =>
    rw [run_snoc] at steady ⊢
    obtain ⟨kept, faithful⟩ := ih (steady_of_append steady)
    cases last with
    | record now =>
      rw [StormLog.Steady, StormLog.instants_append, List.pairwise_append] at steady
      have next : ∀ t ∈ (run c operations).2.instants, t.Leads c.window now :=
        fun t ht => steady.2.2 t ht now (List.mem_singleton.mpr rfl)
      obtain ⟨right, keeps⟩ := kept.record steady.1 next
      refine ⟨keeps, faithful.snoc ?_⟩
      intro now' passed' same
      cases same
      exact right
    | status now =>
      simp only [perform, List.append_nil]
      exact ⟨kept, faithful⟩
    | reset =>
      refine ⟨Keeps.reset c _, faithful.snoc ?_⟩
      intro now passed same
      cases same

/-! ### Alerts let through -/

theorem room_of_passed (h : FaithfulLog c log) :
    Justified (fun before call => call.passed = true → call.swallowed = false ∧
      earlierInWindow c before call.now + 1 ≤ c.threshold.toNat) (history c log) := by
  induction log using List.reverseRecOn with
  | nil => exact .nil
  | append_singleton log record ih =>
    cases record with
    | reset =>
      rw [history_reset]
      exact .nil
    | alert now passed =>
      rw [history_alert]
      refine (ih h.of_append).snoc ?_
      intro passes
      obtain ⟨swallowed, counted⟩ := h.last now passed rfl
      cases inside : swallows c (history c log) now with
      | true =>
        rw [swallowed inside] at passes
        contradiction
      | false => exact ⟨rfl, (counted inside).mp passes⟩

def passedInWindow (c : StormConfig) (calls : List StormCall) (u : Instant) : List StormCall :=
  calls.filter fun call => call.passed && u - c.window < call.now && call.now ≤ u

theorem length_passedInWindow_le (h : FaithfulLog c log) {u : Instant}
    (leads : ∀ t ∈ log.instants, t ≤ u → t - c.window ≤ u - c.window) :
    (passedInWindow c (history c log) u).length ≤ c.threshold.toNat := by
  apply Justified.length_trailing_le
  · intro before last after position passes
    obtain ⟨_, room⟩ := room_of_passed h before last after position passes
    apply Nat.lt_of_lt_of_le (Nat.lt_succ_of_le _) room
    rw [earlierInWindow, countedCalls, List.filter_filter, ← List.countP_eq_length_filter,
      ← List.countP_eq_length_filter]
    apply List.countP_mono_left
    intro call member holds
    simp only [Bool.and_eq_true, decide_eq_true_eq] at holds
    have known : call ∈ history c log := by
      rw [position]
      exact List.mem_append_left _ member
    obtain ⟨_, outside⟩ := (room_of_passed h).exists_of_mem known
    simp only [(outside holds.1).1, Bool.not_false, Bool.and_true, decide_eq_true_eq]
    exact holds.2
  · intro call member _ reached
    exact leads _ ((history_sublist c log).subset (List.mem_map_of_mem member)) reached

theorem nothing_swallowed_of_calm (calm : onset (history c log) = none) :
    (history c log).rtakeWhile StormCall.swallowed = [] := by
  induction log using List.reverseRecOn with
  | nil => rfl
  | append_singleton log record ih =>
    cases record with
    | reset =>
      rw [history_reset]
      rfl
    | alert now passed =>
      rw [history_alert] at calm ⊢
      cases inside : swallows c (history c log) now with
      | true =>
        rw [inside, onset, countedCalls_swallowed] at calm
        have quiet : onset (history c log) = none := calm
        rw [swallows, quiet] at inside
        contradiction
      | false =>
        rw [List.rtakeWhile_concat]
        rfl

/-- After every run the decisions were those of the whole history, the detector shows what the
history says of the storm, and no trailing window has more passed calls than the threshold. -/
theorem run_exact (c : StormConfig) (operations : List Operation)
    (steady : (run c operations).2.Steady c.window) :
    (∀ before now passed after, (run c operations).2 = before ++ .alert now passed :: after →
      (swallows c (history c before) now = true → passed = false) ∧
        (swallows c (history c before) now = false →
          (passed = true ↔
            earlierInWindow c (history c before) now + 1 ≤ c.threshold.toNat))) ∧
    (∀ now, ((run c operations).1.status c now).inStorm =
        (onset (history c (run c operations).2)).isSome ∧
      ((run c operations).1.status c now).startedAt = onset (history c (run c operations).2) ∧
      ((run c operations).1.status c now).swallowed =
        ((history c (run c operations).2).rtakeWhile StormCall.swallowed).length ∧
      (((run c operations).1.status c now).inStorm = false →
        ((run c operations).1.status c now).swallowed = 0)) ∧
    ∀ u, (∀ t ∈ (run c operations).2.instants, t ≤ u → t - c.window ≤ u - c.window) →
      (passedInWindow c (history c (run c operations).2) u).length ≤ c.threshold.toNat := by
  obtain ⟨kept, faithful⟩ := run_keeps c operations steady
  refine ⟨fun before now passed after position => faithful before _ after position now passed rfl,
    ?_, fun u leads => length_passedInWindow_le faithful leads⟩
  intro now
  refine ⟨congrArg Option.isSome kept.started, kept.started, kept.swallowed, ?_⟩
  intro calm
  have quiet : onset (history c (run c operations).2) = none := by
    rw [← kept.started]
    exact Option.not_isSome_iff_eq_none.mp (Bool.eq_false_iff.mp calm)
  show (run c operations).1.swallowed = 0
  rw [kept.swallowed, nothing_swallowed_of_calm quiet]
  rfl

/-- Two alerts in a minute are the most, and a storm lasts half a minute, which is less than it
takes for the alerts to leave the window. -/
def shortStorms : StormConfig := ⟨2, 60, 30⟩

def atSecond (n : Int) : Instant := Instant.ofNanos (n * 1000000000)

/-- The third alert starts a storm, and the first one after it starts the next. -/
def twoStorms : List Operation :=
  [.record (atSecond 0), .record (atSecond 1), .record (atSecond 2), .record (atSecond 10),
   .record (atSecond 32), .status (atSecond 33), .record (atSecond 40)]

theorem storm_after_storm :
    (run shortStorms twoStorms).2.Steady shortStorms.window ∧
      (run shortStorms twoStorms).2 =
        [.alert (atSecond 0) true, .alert (atSecond 1) true, .alert (atSecond 2) false,
         .alert (atSecond 10) false, .alert (atSecond 32) false, .alert (atSecond 40) false] ∧
      ((run shortStorms twoStorms).1.status shortStorms (atSecond 40)).startedAt =
        some (atSecond 32) ∧
      ((run shortStorms twoStorms).1.status shortStorms (atSecond 40)).swallowed = 1 := by
  have steady : (run shortStorms twoStorms).2.Steady shortStorms.window := by
    unfold StormLog.Steady
    decide +kernel
  obtain ⟨_, shown, _⟩ := run_exact shortStorms twoStorms steady
  obtain ⟨_, started, swallowed, _⟩ := shown (atSecond 40)
  refine ⟨steady, by decide +kernel, started.trans (by decide +kernel),
    swallowed.trans (by decide +kernel)⟩

/-! ### Leap seconds -/

/-- Half a second into the leap second at the end of 2016, the first alert is pruned; at midnight
it would be in the window again. -/
def endOfYear : List Operation :=
  [.record (Instant.ofNanos 1483228740300000000), .record ⟨1483228799500000000, true⟩,
   .record (Instant.ofNanos 1483228800000000000)]

/-- A clock that goes on is not enough: right after a leap second a third alert passes. -/
theorem storm_missed_after_leap_second :
    ¬ ∀ (c : StormConfig) (operations : List Operation), (run c operations).2.Ordered →
      ∀ before now passed after, (run c operations).2 = before ++ .alert now passed :: after →
        swallows c (history c before) now = false →
        (passed = true ↔ earlierInWindow c (history c before) now + 1 ≤ c.threshold.toNat) := by
  intro claim
  have ordered : (run shortStorms endOfYear).2.Ordered := by
    unfold StormLog.Ordered
    decide +kernel
  have third := claim shortStorms endOfYear ordered ((run shortStorms endOfYear).2.take 2)
    (Instant.ofNanos 1483228800000000000) true [] (by decide +kernel) (by decide +kernel)
  revert third
  decide +kernel

end Storm

end AlertAdmission
