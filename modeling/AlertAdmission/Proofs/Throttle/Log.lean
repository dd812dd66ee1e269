import AlertAdmission.Proofs.Justified
import AlertAdmission.Throttle.Report
import Mathlib.Data.List.DropRight

/-!
Runs of a throttle and the logs they write.

A log tells everything that happened to a throttle: the decisions, also those made for a publisher
with an event in its hands, the rules dropped, and the counts given back. What a throttle has been
through is `Throttle.Reached`; `Throttle.run_reached` says that it holds of every run of operations.
The turns of a round of publishing may come in any order, each at an instant of its own and with
other operations in between.
-/

namespace AlertAdmission

theorem RateLimit.capacity_pos {limit : RateLimit} (enabled : limit.isEnabled) :
    0 < limit.capacity := by
  simp only [isEnabled, Bool.and_eq_true, decide_eq_true_eq] at enabled
  exact enabled.1

theorem RateLimit.window_pos {limit : RateLimit} (enabled : limit.isEnabled) :
    0 < limit.window := by
  simp only [isEnabled, Bool.and_eq_true, decide_eq_true_eq] at enabled
  exact windowLength_pos enabled.2

def ThrottleCall.group (call : ThrottleCall) : String :=
  Grouping.groupKey call.limit.groupBy call.fields

def ThrottleCall.cutoff (call : ThrottleCall) : Instant := call.now - call.limit.window

inductive ThrottleRecord where
  | decided (call : ThrottleCall) (decision : ThrottleDecision)
  | reset (rule : String)
  | cleaned (active : List String)
  | countsReset (rule : String)
  | offered (event : SummaryEvent) (published : Bool)

namespace ThrottleRecord

def drops (rule : String) : ThrottleRecord → Bool
  | .reset other => rule = other
  | .cleaned active => !active.contains rule
  | _ => false

/-- A record that does not take suppressed alerts of a rule off its counts. -/
def keepsCounts (rule : String) : ThrottleRecord → Bool
  | .countsReset other => other ≠ rule
  | .offered event published => !published || event.rule ≠ rule
  | _ => true

/-- The call that was decided on, if its limit is turned on. -/
def call? : ThrottleRecord → Option ThrottleCall
  | .decided call _ => if call.limit.isEnabled then some call else none
  | _ => none

/-- The instant of an alert of a group that a limit let pass. -/
def allowedAt? (rule group : String) : ThrottleRecord → Option Instant
  | .decided call .allowed =>
    if call.limit.isEnabled ∧ call.rule = rule ∧ call.group = group then some call.now else none
  | _ => none

theorem allowedAt?_of_other {record : ThrottleRecord} {rule : String}
    (other : ∀ call ∈ record.call?, call.rule ≠ rule) (group : String) :
    record.allowedAt? rule group = none := by
  unfold allowedAt?
  split
  · exact if_neg fun own => other _ (if_pos own.1) own.2.1
  · rfl

end ThrottleRecord

/-- Everything that happened to a throttle, the first record first. -/
abbrev ThrottleLog := List ThrottleRecord

namespace ThrottleLog

def calls (log : ThrottleLog) : List ThrottleCall := log.filterMap ThrottleRecord.call?

/-- The instants of the alerts of a group allowed since its rule was last dropped. -/
def allowedSinceDrop (log : ThrottleLog) (rule group : String) : List Instant :=
  (log.rtakeWhile fun record => !record.drops rule).filterMap
    (ThrottleRecord.allowedAt? rule group)

/-- Of these instants, those after one and up to another. -/
def allowedBetween (log : ThrottleLog) (rule group : String) (start last : Instant) :
    List Instant :=
  (log.allowedSinceDrop rule group).filter fun t => start < t ∧ t ≤ last

theorem calls_append (log more : ThrottleLog) : (log ++ more).calls = log.calls ++ more.calls :=
  List.filterMap_append

theorem calls_decided (log : ThrottleLog) {call : ThrottleCall} (enabled : call.limit.isEnabled)
    (decision : ThrottleDecision) :
    calls (log ++ [.decided call decision]) = log.calls ++ [call] := by
  rw [calls_append, calls, calls, List.filterMap_cons, ThrottleRecord.call?, if_pos enabled]
  rfl

theorem allowedSinceDrop_snoc (log : ThrottleLog) (record : ThrottleRecord) (rule group : String) :
    (log ++ [record]).allowedSinceDrop rule group =
      if record.drops rule then []
      else log.allowedSinceDrop rule group ++ (record.allowedAt? rule group).toList := by
  rw [allowedSinceDrop, List.rtakeWhile_concat]
  cases dropped : record.drops rule with
  | true => simp
  | false =>
    cases instant : record.allowedAt? rule group <;>
      simp [allowedSinceDrop, List.filterMap_append, instant]

end ThrottleLog

namespace Throttle

def decision (t : Throttle) (call : ThrottleCall) : ThrottleDecision :=
  (t.allow call.rule call.fields call.limit call.now).2

def afterCall (t : Throttle) (call : ThrottleCall) : Throttle :=
  (t.allow call.rule call.fields call.limit call.now).1

/-- What one record tells: the throttle before and after it. -/
inductive Step : Throttle → ThrottleRecord → Throttle → Prop where
  | call (t : Throttle) (call : ThrottleCall) :
      Step t (.decided call (t.decision call)) (t.afterCall call)
  | reset (t : Throttle) (rule : String) : Step t (.reset rule) (t.reset rule)
  | cleanup (t : Throttle) (active : List String) : Step t (.cleaned active) (t.cleanup active)
  | resetCounts (t : Throttle) (rule : String) : Step t (.countsReset rule) (t.resetCounts rule)
  | offered (t : Throttle) (event : SummaryEvent) (published : Bool) :
      Step t (.offered event published) (if published then t.deduct event else t)

/-- What a log tells, record by record, leads from one throttle to another. -/
inductive Steps (t : Throttle) : ThrottleLog → Throttle → Prop where
  | none : Steps t [] t
  | snoc {log : ThrottleLog} {u v : Throttle} {record : ThrottleRecord} :
      Steps t log u → Step u record v → Steps t (log ++ [record]) v

/-- The throttles that have been through what a log tells, from the beginning. -/
abbrev Reached : ThrottleLog → Throttle → Prop := Steps empty

theorem Step.steps {t u : Throttle} {record : ThrottleRecord} (h : Step t record u) :
    Steps t [record] u := .snoc .none h

theorem Steps.append {t u v : Throttle} {log more : ThrottleLog} (h : Steps t log u)
    (h' : Steps u more v) : Steps t (log ++ more) v := by
  induction h' with
  | none => simpa using h
  | snoc _ step ih =>
    rw [← List.append_assoc]
    exact .snoc ih step

/-- Whatever was decided on the way was the decision of the throttle at that point. -/
theorem Steps.justified {t u : Throttle} {log : ThrottleLog} (h : Steps t log u) :
    Justified (fun before record => ∀ c d, record = .decided c d →
      ∃ s, Steps t before s ∧ d = s.decision c) log := by
  induction h with
  | none => exact .nil
  | snoc reached last ih =>
    refine ih.snoc ?_
    intro c d same
    subst same
    cases last
    exact ⟨_, reached, rfl⟩

/-! ### Operations -/

/-- The turn of a rule in a round of publishing, at the instant at which the clock stands then. -/
structure Turn where
  rule : String
  now : Instant

/-- What a caller may ask of a throttle. A publisher may itself ask for decisions. A round of
publishing is the turns it takes, or, in order of the rules and at one instant, `publish`. -/
inductive Operation where
  | allow (call : ThrottleCall)
  | reset (rule : String)
  | cleanup (active : List String)
  | resetCounts (rule : String)
  | summary (rule : String) (now : Instant)
  | status (rule : Option String) (now : Instant)
  | publish (publisher : SummaryEvent → PublisherReaction) (now : Instant)
  | turn (publisher : SummaryEvent → PublisherReaction) (turn : Turn)

def answers (t : Throttle) : List ThrottleCall → ThrottleLog
  | [] => []
  | call :: rest => .decided call (t.decision call) :: (t.afterCall call).answers rest

def turn (t : Throttle) (publisher : SummaryEvent → PublisherReaction) :
    Option SummaryEvent → ThrottleLog
  | none => []
  | some event => t.answers (publisher event).calls ++ [.offered event (publisher event).succeeds]

def turns (publisher : SummaryEvent → PublisherReaction) (now : Instant) :
    List String → Throttle × Offered → ThrottleLog
  | [], _ => []
  | name :: rest, state =>
    state.1.turn publisher (state.1.event? name now) ++
      turns publisher now rest (publishRule publisher now state name)

/-- The throttle after an operation, and what the operation writes into the log. Summaries and
statuses are only read. -/
def perform (t : Throttle) : Operation → Throttle × ThrottleLog
  | .allow call => (t.afterCall call, [.decided call (t.decision call)])
  | .reset rule => (t.reset rule, [.reset rule])
  | .cleanup active => (t.cleanup active, [.cleaned active])
  | .resetCounts rule => (t.resetCounts rule, [.countsReset rule])
  | .summary _ _ => (t, [])
  | .status _ _ => (t, [])
  | .publish publisher now =>
    ((t.publish publisher now).1, turns publisher now t.names (t, []))
  | .turn publisher turn =>
    ((publishRule publisher turn.now (t, []) turn.rule).1,
      t.turn publisher (t.event? turn.rule turn.now))

/-- The throttle after some operations, and what they write into the log. -/
def course (t : Throttle) : List Operation → Throttle × ThrottleLog
  | [] => (t, [])
  | operation :: later =>
    let next := t.perform operation
    ((next.1.course later).1, next.2 ++ (next.1.course later).2)

def run (operations : List Operation) : Throttle × ThrottleLog := empty.course operations

theorem answer_steps (t : Throttle) (calls : List ThrottleCall) :
    Steps t (t.answers calls) (t.answer calls) := by
  induction calls generalizing t with
  | nil => exact .none
  | cons call rest ih => exact (Step.call t call).steps.append (ih (t.afterCall call))

theorem publishRule_steps (publisher : SummaryEvent → PublisherReaction) (now : Instant)
    (state : Throttle × Offered) (name : String) :
    Steps state.1 (state.1.turn publisher (state.1.event? name now))
      (publishRule publisher now state name).1 := by
  unfold publishRule
  cases state.1.event? name now with
  | none => exact .none
  | some event => exact .snoc (answer_steps _ _) (.offered _ event _)

theorem turns_steps (publisher : SummaryEvent → PublisherReaction) (now : Instant)
    (names : List String) (state : Throttle × Offered) :
    Steps state.1 (turns publisher now names state)
      (names.foldl (publishRule publisher now) state).1 := by
  induction names generalizing state with
  | nil => exact .none
  | cons name rest ih => exact (publishRule_steps publisher now state name).append (ih _)

theorem perform_steps (t : Throttle) (operation : Operation) :
    Steps t (t.perform operation).2 (t.perform operation).1 := by
  cases operation with
  | allow call => exact (Step.call t call).steps
  | reset rule => exact (Step.reset t rule).steps
  | cleanup active => exact (Step.cleanup t active).steps
  | resetCounts rule => exact (Step.resetCounts t rule).steps
  | summary rule now => exact .none
  | status rule now => exact .none
  | publish publisher now => exact turns_steps publisher now t.names (t, [])
  | turn publisher turn => exact publishRule_steps publisher turn.now (t, []) turn.rule

theorem course_append (t : Throttle) (operations more : List Operation) :
    t.course (operations ++ more) = (((t.course operations).1.course more).1,
      (t.course operations).2 ++ ((t.course operations).1.course more).2) := by
  induction operations generalizing t with
  | nil => rfl
  | cons operation later ih => simp [course, ih]

theorem course_steps (t : Throttle) (operations : List Operation) :
    Steps t (t.course operations).2 (t.course operations).1 := by
  induction operations generalizing t with
  | nil => exact .none
  | cons operation later ih => exact (t.perform_steps operation).append (ih _)

/-- Every run has been through what its log tells. -/
theorem run_reached (operations : List Operation) :
    Reached (run operations).2 (run operations).1 := course_steps empty operations

end Throttle

end AlertAdmission
