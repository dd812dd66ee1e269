import AlertAdmission.Proofs.Throttle.Reports

/-!
Denials while a summary is in flight.

Between the making of an event and the deduction that follows its publishing, decisions, resets of
counts and whole rounds may take place. The deduction takes off what the event has told, whatever
was zeroed or told by others in the meantime, and stops at zero. Each denial of the interval stays
counted where the counts of the rule were left alone; where they were not, the deduction comes out
of the denials that followed (`denials_kept_iff`).
-/

namespace AlertAdmission.Throttle

/-- What can happen while a summary is in flight. A round of publishing is a list of turns. -/
inductive InFlight where
  | allow (call : ThrottleCall)
  | resetCounts (rule : String)
  | offer (publisher : SummaryEvent → PublisherReaction) (turn : Turn)

namespace InFlight

def operation : InFlight → Operation
  | .allow call => .allow call
  | .resetCounts rule => .resetCounts rule
  | .offer publisher turn => .turn publisher turn

/-- Whether the counts of a rule are zeroed, or told by another event that is published. -/
def settles (t : Throttle) (rule : String) : InFlight → Bool
  | .allow _ => false
  | .resetCounts name => rule = name
  | .offer publisher turn =>
    rule = turn.rule && (t.event? turn.rule turn.now).any fun e => (publisher e).succeeds

/-- How many denials of a group no published event includes and no reset has zeroed: their number
after one more operation, from the number before it. An event includes what was counted when it was
made, not what is denied while its publisher has it. -/
def unsettled (t : Throttle) (rule group : String) (before : Nat) : InFlight → Nat
  | .allow call =>
    before + if rule = call.rule ∧ group = call.group then (t.decision call).denials else 0
  | .resetCounts name => if rule = name then 0 else before
  | .offer publisher turn =>
    match t.event? turn.rule turn.now with
    | none => before
    | some e =>
      (if rule = turn.rule ∧ (publisher e).succeeds = true then 0 else before) +
        (t.answers (publisher e).calls).denied rule group

end InFlight

def settled (t : Throttle) (rule : String) : List InFlight → Bool
  | [] => false
  | o :: later => o.settles t rule || (t.perform o.operation).1.settled rule later

def unsettled (t : Throttle) (rule group : String) (before : Nat) : List InFlight → Nat
  | [] => before
  | o :: later =>
    (t.perform o.operation).1.unsettled rule group (o.unsettled t rule group before) later

variable {t : Throttle} {rule group : String} {carried before : Nat}

theorem suppressedOf_answer (t : Throttle) (calls : List ThrottleCall) (rule group : String) :
    (t.answer calls).suppressedOf rule group =
      t.suppressedOf rule group + (t.answers calls).denied rule group := by
  induction calls generalizing t with
  | nil => rfl
  | cons call rest ih =>
    have answered : t.answer (call :: rest) = (t.afterCall call).answer rest := rfl
    rw [answered, ih, suppressedOf_afterCall, Nat.add_assoc]
    rfl

theorem suppressedOf_perform (o : InFlight)
    (counted : t.suppressedOf rule group = carried + before) :
    (t.perform o.operation).1.suppressedOf rule group =
      (if o.settles t rule then 0 else carried) + o.unsettled t rule group before := by
  cases o with
  | allow call =>
    have after := t.suppressedOf_afterCall call rule group
    rw [counted, Nat.add_assoc] at after
    simpa [InFlight.operation, InFlight.settles, InFlight.unsettled, perform] using after
  | resetCounts name =>
    have after := t.suppressedOf_resetCounts name rule group
    rw [counted] at after
    by_cases own : rule = name <;>
      simpa [InFlight.operation, InFlight.settles, InFlight.unsettled, perform, own] using after
  | offer publisher turn =>
    cases event : t.event? turn.rule turn.now with
    | none =>
      simpa [InFlight.operation, InFlight.settles, InFlight.unsettled, perform, publishRule, event]
        using counted
    | some e =>
      have answered := t.suppressedOf_answer (publisher e).calls rule group
      have told := (told_of_event event).2 rule group
      simp only [InFlight.operation, InFlight.settles, InFlight.unsettled, perform, publishRule,
        event, Option.any_some]
      cases (publisher e).succeeds with
      | false => simp [answered, counted, Nat.add_assoc]
      | true =>
        by_cases own : rule = turn.rule
        · subst own
          simp [suppressedOf_deduct, answered, told]
        · simp [suppressedOf_deduct, answered, told, own, counted, Nat.add_assoc]

theorem suppressedOf_course (operations : List InFlight)
    (counted : t.suppressedOf rule group = carried + before) :
    (t.course (operations.map InFlight.operation)).1.suppressedOf rule group =
      (if t.settled rule operations then 0 else carried) +
        t.unsettled rule group before operations := by
  induction operations generalizing t carried before with
  | nil => simpa [course, settled, unsettled] using counted
  | cons o later ih =>
    have next := ih (suppressedOf_perform o counted)
    rw [List.map_cons, course, unsettled]
    dsimp only
    rw [next, settled]
    cases o.settles t rule <;> simp

/-- After the deduction a group counts what came in the interval and, unless somebody has settled
it, what was counted before, less what the event has told. So nothing that came is lost exactly
where the counts were left alone, or where nothing was told or nothing came. -/
theorem denials_kept_iff (t : Throttle) (name : String) (now : Instant)
    (operations : List InFlight) : ∀ e ∈ t.event? name now, ∀ rule group,
    let after := (t.course (operations.map InFlight.operation)).1.deduct e
    let came := t.unsettled rule group 0 operations
    after.suppressedOf rule group =
      (if t.settled rule operations then 0 else t.suppressedOf rule group) + came -
        e.toldOf rule group ∧
    (came ≤ after.suppressedOf rule group ↔
      t.settled rule operations = false ∨ e.toldOf rule group = 0 ∨ came = 0) := by
  intro e event rule group
  have told : e.toldOf rule group ≤ t.suppressedOf rule group := by
    rw [(told_of_event event).2]
    split <;> omega
  have counted := suppressedOf_course operations
    (Nat.add_zero (t.suppressedOf rule group)).symm
  dsimp only
  rw [suppressedOf_deduct, counted]
  cases t.settled rule operations with
  | true =>
    simp
    omega
  | false =>
    simp
    omega

def zeroedThenFourth : List InFlight := [.resetCounts "link", .allow fourth]

set_option maxRecDepth 2000 in
/-- A denial after a reset is taken off with what was reset, and no event has told of it. -/
theorem fourth_lost_after_reset : ∃ e ∈ afterThird.event? "link" fiftySeconds.now,
    afterThird.unsettled "link" "a" 0 zeroedThenFourth = 1 ∧
      ((afterThird.course (zeroedThenFourth.map InFlight.operation)).1.deduct e).suppressedOf
        "link" "a" = 0 := by
  decide

end AlertAdmission.Throttle
