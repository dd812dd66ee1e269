import AlertAdmission.Proofs.Throttle.Suppressed
import Mathlib.Data.List.Nodup

/-!
Suppressed alerts are reported once.

Between two drops of its counts, a group has had as many alerts denied as published events have told
of it and as it still counts (`ThrottleLog.Accounted`). Every record that the log of a run has keeps
this up. A round takes a turn for each rule with state, in any order and with the time as it comes,
and an event is made up when its rule has its turn (`Throttle.suppressed_reported_once`).
-/

namespace AlertAdmission

namespace ThrottleRecord

/-- Whether counts of a rule are dropped that no event has told of. -/
def touches (rule : String) : ThrottleRecord → Bool
  | .countsReset other => rule = other
  | record => record.drops rule

def denials (rule group : String) : ThrottleRecord → Nat
  | .decided call decision => if rule = call.rule ∧ group = call.group then decision.denials else 0
  | _ => 0

def reported (rule group : String) : ThrottleRecord → Nat
  | .offered event true => event.toldOf rule group
  | _ => 0

def offer? : ThrottleRecord → Option (SummaryEvent × Bool)
  | .offered event published => some (event, published)
  | _ => none

end ThrottleRecord

namespace ThrottleLog

def sinceTouched (log : ThrottleLog) (rule : String) : ThrottleLog :=
  log.rtakeWhile fun record => !record.touches rule

def denied (log : ThrottleLog) (rule group : String) : Nat :=
  (log.map (ThrottleRecord.denials rule group)).sum

/-- The suppressed alerts of a group that published events have told of. -/
def reported (log : ThrottleLog) (rule group : String) : Nat :=
  (log.map (ThrottleRecord.reported rule group)).sum

/-- The events that a publisher was offered, each with whether it was published. -/
def offers (log : ThrottleLog) : List (SummaryEvent × Bool) :=
  log.filterMap ThrottleRecord.offer?

theorem denied_snoc (log : ThrottleLog) (record : ThrottleRecord) (rule group : String) :
    denied (log ++ [record]) rule group = log.denied rule group + record.denials rule group := by
  simp [denied]

theorem reported_snoc (log : ThrottleLog) (record : ThrottleRecord) (rule group : String) :
    reported (log ++ [record]) rule group =
      log.reported rule group + record.reported rule group := by
  simp [reported]

theorem sinceTouched_snoc (log : ThrottleLog) (record : ThrottleRecord) (rule : String) :
    sinceTouched (log ++ [record]) rule =
      if record.touches rule then [] else log.sinceTouched rule ++ [record] := by
  rw [sinceTouched, List.rtakeWhile_concat]
  cases record.touches rule <;> rfl

def Accounted (log : ThrottleLog) (t : Throttle) : Prop :=
  ∀ rule group, (log.sinceTouched rule).denied rule group =
    (log.sinceTouched rule).reported rule group + t.suppressedOf rule group

variable {log : ThrottleLog} {t u : Throttle}

theorem Accounted.snoc {record : ThrottleRecord} (h : log.Accounted t)
    (touched : ∀ rule, record.touches rule = true → ∀ group, u.suppressedOf rule group = 0)
    (kept : ∀ rule, record.touches rule = false → ∀ group,
      t.suppressedOf rule group + record.denials rule group =
        u.suppressedOf rule group + record.reported rule group) :
    Accounted (log ++ [record]) u := by
  intro rule group
  have before := h rule group
  rw [sinceTouched_snoc]
  cases drops : record.touches rule with
  | true =>
    rw [touched rule drops group]
    rfl
  | false =>
    have next := kept rule drops group
    simp only [Bool.false_eq_true, if_false]
    rw [denied_snoc, reported_snoc]
    omega

theorem Accounted.touch {record : ThrottleRecord} (h : log.Accounted t)
    (denials : ∀ rule group, record.denials rule group = 0)
    (reported : ∀ rule group, record.reported rule group = 0)
    (after : ∀ rule group, u.suppressedOf rule group =
      if record.touches rule then 0 else t.suppressedOf rule group) :
    Accounted (log ++ [record]) u := by
  apply h.snoc
  · intro rule touched group
    rw [after, if_pos touched]
  · intro rule kept group
    rw [after, kept, denials, reported]
    rfl

end ThrottleLog

namespace Throttle

open ThrottleLog (Accounted)

variable {log : ThrottleLog} {t : Throttle}

theorem accounted_empty : Accounted [] empty := fun _ _ => rfl

theorem accounted_call (h : Accounted log t) (call : ThrottleCall) :
    Accounted (log ++ [.decided call (t.decision call)]) (t.afterCall call) := by
  apply h.snoc
  · intro rule touched
    cases touched
  · intro rule _ group
    rw [suppressedOf_afterCall]
    rfl

theorem accounted_answers (h : Accounted log t) (calls : List ThrottleCall) :
    Accounted (log ++ t.answers calls) (t.answer calls) := by
  induction calls generalizing log t with
  | nil => exact (List.append_nil log).symm ▸ h
  | cons call rest ih =>
    rw [answers, List.append_cons]
    exact ih (accounted_call h call)

/-- Publishing an event takes off what it has told, which is still counted. -/
theorem accounted_offered (h : Accounted log t) {e : SummaryEvent}
    (counted : ∀ rule group, e.toldOf rule group ≤ t.suppressedOf rule group) (published : Bool) :
    Accounted (log ++ [.offered e published]) (if published then t.deduct e else t) := by
  apply h.snoc
  · intro rule touched
    cases touched
  · intro rule _ group
    cases published with
    | false => rfl
    | true =>
      have enough := counted rule group
      have after := t.suppressedOf_deduct e rule group
      simp only [if_true, ThrottleRecord.denials, ThrottleRecord.reported]
      omega

/-- Alerts that are denied while an event is in the hands of its publisher stay counted. -/
theorem accounted_turn (h : Accounted log t) (publisher : SummaryEvent → PublisherReaction)
    (now : Instant) (offered : Offered) (name : String) :
    Accounted (log ++ t.turn publisher (t.event? name now))
      (publishRule publisher now (t, offered) name).1 := by
  unfold publishRule
  cases event : t.event? name now with
  | none => simpa [turn, event] using h
  | some e =>
    have told := (told_of_event event).2
    -- the answers to the publisher only add to what the event has told
    have counted : ∀ rule group,
        e.toldOf rule group ≤ (t.answer (publisher e).calls).suppressedOf rule group := by
      intro rule group
      have grown := t.le_suppressedOf_answer (publisher e).calls rule group
      rw [told]
      split <;> omega
    dsimp only
    rw [turn, ← List.append_assoc]
    exact accounted_offered (accounted_answers h _) counted _

theorem accounted_turns (h : Accounted log t) (publisher : SummaryEvent → PublisherReaction)
    (now : Instant) (names : List String) (offered : Offered) :
    Accounted (log ++ turns publisher now names (t, offered))
      (names.foldl (publishRule publisher now) (t, offered)).1 := by
  induction names generalizing log t offered with
  | nil => simpa [turns] using h
  | cons name rest ih =>
    rw [turns, ← List.append_assoc]
    exact ih (accounted_turn h publisher now offered name) _

theorem accounted_perform (h : Accounted log t) (operation : Operation) :
    Accounted (log ++ (t.perform operation).2) (t.perform operation).1 := by
  cases operation with
  | allow call => exact accounted_call h call
  | reset name =>
    apply h.touch (fun _ _ => rfl) (fun _ _ => rfl)
    intro rule group
    rw [perform, suppressedOf_reset]
    simp [ThrottleRecord.touches, ThrottleRecord.drops]
  | cleanup active =>
    apply h.touch (fun _ _ => rfl) (fun _ _ => rfl)
    intro rule group
    rw [perform, suppressedOf_cleanup]
    by_cases kept : active.contains rule = true <;>
      simp_all [ThrottleRecord.touches, ThrottleRecord.drops]
  | resetCounts name =>
    apply h.touch (fun _ _ => rfl) (fun _ _ => rfl)
    intro rule group
    rw [perform, suppressedOf_resetCounts]
    simp [ThrottleRecord.touches]
  | summary rule now => exact (List.append_nil log).symm ▸ h
  | status rule now => exact (List.append_nil log).symm ▸ h
  | publish publisher now => exact accounted_turns h publisher now t.names []
  | turn publisher turn => exact accounted_turn h publisher turn.now [] turn.rule

theorem accounted_course (h : Accounted log t) (operations : List Operation) :
    Accounted (log ++ (t.course operations).2) (t.course operations).1 := by
  induction operations generalizing log t with
  | nil => exact (List.append_nil log).symm ▸ h
  | cons operation later ih =>
    rw [course, ← List.append_assoc]
    exact ih (accounted_perform h operation)

theorem accounted_run (operations : List Operation) :
    Accounted (run operations).2 (run operations).1 := accounted_course accounted_empty operations

/-! ### Rounds -/

def round (t : Throttle) (publisher : SummaryEvent → PublisherReaction) (turns : List Turn) :
    Throttle × ThrottleLog := t.course (turns.map (.turn publisher))

theorem offers_answers (t : Throttle) (calls : List ThrottleCall) :
    ThrottleLog.offers (t.answers calls) = [] := by
  induction calls generalizing t with
  | nil => rfl
  | cons call rest ih => exact ih (t.afterCall call)

variable {publisher : SummaryEvent → PublisherReaction}

theorem offers_turn (t : Throttle) (event : Option SummaryEvent) :
    ThrottleLog.offers (t.turn publisher event) =
      (event.map fun e => (e, (publisher e).succeeds)).toList := by
  cases event with
  | none => rfl
  | some e =>
    have silent := t.offers_answers (publisher e).calls
    unfold ThrottleLog.offers at silent ⊢
    rw [turn, List.filterMap_append, silent]
    rfl

theorem offers_round_cons (t : Throttle) (turn : Turn) (later : List Turn) :
    (t.round publisher (turn :: later)).2.offers =
      ((t.event? turn.rule turn.now).map fun e => (e, (publisher e).succeeds)).toList ++
        ((t.perform (.turn publisher turn)).1.round publisher later).2.offers := by
  rw [← offers_turn t]
  exact List.filterMap_append

theorem rule_mem_of_offered (t : Throttle) (turns : List Turn) :
    ∀ offer ∈ (t.round publisher turns).2.offers, offer.1.rule ∈ turns.map Turn.rule := by
  induction turns generalizing t with
  | nil =>
    intro offer member
    cases member
  | cons turn later ih =>
    intro offer member
    rw [offers_round_cons] at member
    rw [List.map_cons]
    rcases List.mem_append.mp member with here | there
    · simp only [Option.mem_toList, Option.map_eq_some_iff] at here
      obtain ⟨e, event, rfl⟩ := here
      rw [(told_of_event event).1]
      exact List.mem_cons_self
    · exact List.mem_cons_of_mem _ (ih _ offer there)

theorem round_append (t : Throttle) (earlier later : List Turn) :
    t.round publisher (earlier ++ later) =
      (((t.round publisher earlier).1.round publisher later).1,
        (t.round publisher earlier).2 ++
          ((t.round publisher earlier).1.round publisher later).2) := by
  rw [round, List.map_append, course_append]
  rfl

theorem filter_offers_eq_nil {turns : List Turn} {rule : String}
    (without : rule ∉ turns.map Turn.rule) (t : Throttle) :
    ((t.round publisher turns).2.offers.filter fun offer => offer.1.rule = rule) = [] := by
  rw [List.filter_eq_nil_iff]
  intro offer member same
  have turned := t.rule_mem_of_offered turns offer member
  rw [decide_eq_true_eq] at same
  exact without (same ▸ turned)

theorem offers_of_rule {earlier later : List Turn} {turn : Turn} (t : Throttle)
    (once : ((earlier ++ turn :: later).map Turn.rule).Nodup) :
    ((t.round publisher (earlier ++ turn :: later)).2.offers.filter fun offer =>
      offer.1.rule = turn.rule) =
      (((t.round publisher earlier).1.event? turn.rule turn.now).map fun e =>
        (e, (publisher e).succeeds)).toList := by
  rw [List.map_append, List.map_cons, List.nodup_middle, List.nodup_cons, List.mem_append,
    not_or] at once
  obtain ⟨⟨notBefore, notAfter⟩, _⟩ := once
  -- the turns before and after are of other rules
  rw [round_append]
  generalize (t.round publisher earlier).1 = u
  have split : ThrottleLog.offers ((t.round publisher earlier).2 ++
      (u.round publisher (turn :: later)).2) = (t.round publisher earlier).2.offers ++
        (u.round publisher (turn :: later)).2.offers := List.filterMap_append
  rw [split, offers_round_cons, List.filter_append, List.filter_append,
    filter_offers_eq_nil notBefore, filter_offers_eq_nil notAfter, List.nil_append,
    List.append_nil]
  cases event : u.event? turn.rule turn.now with
  | none => rfl
  | some e => simp [(told_of_event event).1]

/-- A failed publish takes nothing off. -/
theorem perform_of_failed {turn : Turn} {e : SummaryEvent}
    (event : t.event? turn.rule turn.now = some e) (fails : (publisher e).succeeds = false) :
    (t.perform (.turn publisher turn)).1 = t.answer (publisher e).calls := by
  unfold perform publishRule
  simp only [event, fails]
  rfl

/-- What was offered before makes no difference to a turn. -/
theorem publishRule_eq (t : Throttle) (publisher : SummaryEvent → PublisherReaction)
    (now : Instant) (offered : Offered) (name : String) :
    publishRule publisher now (t, offered) name =
      ((publishRule publisher now (t, []) name).1,
        ((t.event? name now).map fun e => (e, (publisher e).succeeds)).toList ++ offered) := by
  unfold publishRule
  cases t.event? name now <;> rfl

/-- Publishing is the round that takes the rules in order of their names and at one instant. -/
theorem publish_eq_round (t : Throttle) (publisher : SummaryEvent → PublisherReaction)
    (now : Instant) : t.publish publisher now =
      let result := t.round publisher (t.names.map fun name => ⟨name, now⟩)
      (result.1, result.2.offers) := by
  have folded : ∀ (names : List String) (u : Throttle) (offered : Offered),
      names.foldl (publishRule publisher now) (u, offered) =
        ((u.round publisher (names.map fun name => ⟨name, now⟩)).1,
          (u.round publisher (names.map fun name => ⟨name, now⟩)).2.offers.reverse ++ offered) := by
    intro names
    induction names with
    | nil => exact fun u offered => rfl
    | cons name rest ih =>
      intro u offered
      rw [List.foldl_cons, publishRule_eq, ih, List.map_cons, offers_round_cons]
      cases u.event? name now <;> simp [round, course, perform]
  unfold publish
  rw [folded]
  simp

/-- In every run each denied alert of a group, since counts of its rule were dropped last, has been
told of by one published event or is still counted. In whatever order and at whatever instants a
round takes its turns, it offers one event for each rule with state that has suppressed alerts when
its turn comes, and none for other rules; where that event fails, nothing is taken off, and the
round goes on. -/
theorem suppressed_reported_once (operations : List Operation) :
    let t := (run operations).1
    let log := (run operations).2
    (∀ rule group, (log.sinceTouched rule).denied rule group =
      (log.sinceTouched rule).reported rule group + t.suppressedOf rule group) ∧
    (∀ publisher now, t.publish publisher now =
      let result := t.round publisher (t.names.map fun name => ⟨name, now⟩)
      (result.1, result.2.offers)) ∧
    ∀ publisher turns, (turns.map Turn.rule).Perm t.names →
      (∀ offer ∈ (t.round publisher turns).2.offers, offer.1.rule ∈ t.names) ∧
      ∀ earlier turn later, turns = earlier ++ turn :: later →
        let u := (t.round publisher earlier).1
        let event := u.event? turn.rule turn.now
        ((t.round publisher turns).2.offers.filter fun offer => offer.1.rule = turn.rule) =
          (event.map fun e => (e, (publisher e).succeeds)).toList ∧
        (event.isSome = true ↔ ∃ group, 0 < u.suppressedOf turn.rule group) ∧
        ∀ e ∈ event, (publisher e).succeeds = false →
          (t.round publisher (earlier ++ [turn])).1 = u.answer (publisher e).calls := by
  intro t log
  refine ⟨accounted_run operations, t.publish_eq_round, ?_⟩
  intro publisher turns order
  constructor
  · intro offer member
    exact order.subset (t.rule_mem_of_offered turns offer member)
  · rintro earlier turn later rfl
    have once : ((earlier ++ turn :: later).map Turn.rule).Nodup :=
      order.nodup_iff.mpr t.names_nodup
    refine ⟨t.offers_of_rule once, event_isSome_iff _ _ _, ?_⟩
    intro e event fails
    rw [round_append]
    exact perform_of_failed (Option.mem_def.mp event) fails

/-- The third alert of a port within a minute is denied. -/
def thirdDenied : List Operation :=
  [.allow (portCall "a" (Instant.ofNanos 0)), .allow (portCall "a" (Instant.ofNanos 40000000000)),
   .allow (portCall "a" (Instant.ofNanos 41000000000))]

def afterThird : Throttle := (run thirdDenied).1

def fiftySeconds : Turn := ⟨"link", Instant.ofNanos 50000000000⟩

def fourth : ThrottleCall := portCall "a" (Instant.ofNanos 51000000000)

/-- A publisher that fails, after a fourth alert of the port. -/
def failing : SummaryEvent → PublisherReaction := fun _ => ⟨[fourth], false⟩

theorem two_after_failed_event :
    afterThird.suppressedOf "link" "a" = 1 ∧
      (afterThird.round failing [fiftySeconds]).2.offers.map Prod.snd = [false] ∧
      (afterThird.round failing [fiftySeconds]).1.suppressedOf "link" "a" = 2 := by
  have one : afterThird.suppressedOf "link" "a" = 1 := by decide +kernel
  have order : ["link"].Perm afterThird.names := by decide +kernel
  obtain ⟨_, _, rounds⟩ := suppressed_reported_once thirdDenied
  obtain ⟨_, turns⟩ := rounds failing [fiftySeconds] order
  obtain ⟨_, due, failed⟩ := turns [] fiftySeconds [] rfl
  obtain ⟨e, event⟩ := Option.isSome_iff_exists.mp (due.mpr ⟨"a", by decide +kernel⟩)
  have answered : ∀ u : Throttle, (u.round failing []).1.answer (failing e).calls =
      u.afterCall fourth := fun _ => rfl
  have kept : (afterThird.round failing [fiftySeconds]).1 = afterThird.afterCall fourth :=
    (failed e event rfl).trans (answered afterThird)
  have two : (afterThird.afterCall fourth).suppressedOf "link" "a" = 2 := by decide +kernel
  exact ⟨one, by decide +kernel, kept ▸ two⟩

end Throttle

end AlertAdmission
