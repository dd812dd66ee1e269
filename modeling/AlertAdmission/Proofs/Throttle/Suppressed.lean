import AlertAdmission.Proofs.Throttle.Exact
import Mathlib.Algebra.GroupWithZero.Nat

/-!
Counts of suppressed alerts: what decisions add to them, what events tell of them, and what is taken
off when an event has been published.

An event tells exactly what its rule has counted (`Throttle.told_of_event`). Until it is published
the counts can only grow, so taking off what it told loses nothing that came in the meantime.
-/

namespace AlertAdmission

def ThrottleDecision.denials : ThrottleDecision → Nat
  | .allowed => 0
  | .denied _ _ _ => 1

/-! ### Groups of a rule -/

namespace GroupWindow

theorem suppressed_prepare (w : GroupWindow) (capacity : Nat) (window : Span) (now : Instant) :
    (w.prepare capacity window now).suppressed = w.suppressed := by
  unfold prepare compact
  split <;> rfl

theorem suppressed_offer (w : GroupWindow) (capacity : Nat) (window : Span) (now : Instant) :
    (w.offer capacity window now).1.suppressed =
      w.suppressed + if (w.offer capacity window now).2.isSome then 1 else 0 := by
  have same := w.suppressed_prepare capacity window now
  unfold offer
  dsimp only
  split
  · exact same
  · exact congrArg (· + 1) same

end GroupWindow

namespace RuleState

/-- The suppressed alerts of a group that no published event has told of. -/
def suppressedOf (s : RuleState) (group : String) : Nat :=
  ((s.groups.get? group).map GroupWindow.suppressed).getD 0

/-- Only groups without suppressed alerts are dropped. -/
theorem suppressedOf_sweep (s : RuleState) (now : Instant) (window : Span) (group : String) :
    (s.sweep now window).suppressedOf group = s.suppressedOf group := by
  unfold sweep
  split
  · rfl
  · unfold suppressedOf
    rw [Table.get?_filter]
    cases s.groups.get? group with
    | none => rfl
    | some w =>
      by_cases idle : w.isIdle (now - window) = true
      · have none : w.suppressed = 0 := by
          simp only [GroupWindow.isIdle, Bool.and_eq_true, beq_iff_eq] at idle
          exact idle.1
        simp [Option.filter, idle, none]
      · simp [Option.filter, idle]

theorem suppressed_group (s : RuleState) (key : String) (capacity : Nat) (now : Instant) :
    (s.group key capacity now).suppressed = s.suppressedOf key := by
  unfold group suppressedOf
  cases s.groups.get? key <;> rfl

theorem suppressedOf_insert (s : RuleState) (key : String) (w : GroupWindow) (group : String) :
    ({ s with groups := s.groups.insert key w } : RuleState).suppressedOf group =
      if group = key then w.suppressed else s.suppressedOf group := by
  unfold suppressedOf
  dsimp only
  rw [Table.get?_insert]
  split <;> rfl

theorem suppressedOf_offer (s : RuleState) (key : String) (limit : RateLimit) (now : Instant)
    (group : String) : (s.offer key limit now).1.suppressedOf group =
      s.suppressedOf group +
        if group = key then (s.offer key limit now).2.denials else 0 := by
  unfold offer
  have before : ∀ other, (sweep { s with limit := limit } now limit.window).suppressedOf other =
      s.suppressedOf other := suppressedOf_sweep { s with limit := limit } now limit.window
  generalize sweep { s with limit := limit } now limit.window = swept at before
  have after := (swept.group key limit.capacity now).suppressed_offer limit.capacity
    limit.window now
  rw [suppressed_group, before] at after
  dsimp only
  rw [suppressedOf_insert, before]
  by_cases own : group = key
  · subst own
    rw [if_pos rfl, if_pos rfl, after]
    generalize ((swept.group group limit.capacity now).offer limit.capacity limit.window now).2 =
      full
    cases full <;> rfl
  · rw [if_neg own, if_neg own]
    rfl

/-- The suppressed alerts of all groups that no published event has told of. -/
def allSuppressed (s : RuleState) : Nat := total (s.groups.values.map GroupWindow.suppressed)

theorem allSuppressed_sweep (s : RuleState) (now : Instant) (window : Span) :
    (s.sweep now window).allSuppressed = s.allSuppressed := by
  unfold sweep
  split
  · rfl
  · unfold allSuppressed Table.values Table.filter
    dsimp only
    induction s.groups.toList with
    | nil => rfl
    | cons entry rest ih =>
      by_cases idle : entry.2.isIdle (now - window) = true
      · have none : entry.2.suppressed = 0 := by
          simp only [GroupWindow.isIdle, Bool.and_eq_true, beq_iff_eq] at idle
          exact idle.1
        rw [List.filter_cons_of_neg (by simp [idle]), ih, List.map_cons, List.map_cons, total_cons,
          none, Nat.zero_add]
      · rw [List.filter_cons_of_pos (by simp [idle])]
        simp only [List.map_cons, total_cons, ih]

theorem allSuppressed_offer (s : RuleState) (key : String) (limit : RateLimit) (now : Instant) :
    (s.offer key limit now).1.allSuppressed =
      s.allSuppressed + (s.offer key limit now).2.denials := by
  unfold offer
  have before : (sweep { s with limit := limit } now limit.window).allSuppressed =
      s.allSuppressed := allSuppressed_sweep { s with limit := limit } now limit.window
  generalize sweep { s with limit := limit } now limit.window = swept at before
  have after := (swept.group key limit.capacity now).suppressed_offer limit.capacity
    limit.window now
  rw [suppressed_group] at after
  dsimp only
  have sum := swept.groups.total_insert GroupWindow.suppressed key
    ((swept.group key limit.capacity now).offer limit.capacity limit.window now).1
  rw [after] at sum
  unfold allSuppressed at before ⊢
  unfold suppressedOf at sum
  dsimp only
  generalize ((swept.group key limit.capacity now).offer limit.capacity limit.window now).2 =
    full at sum ⊢
  cases full with
  | none =>
    simp only [Option.isSome_none, Bool.false_eq_true, if_false] at sum
    simp only [ThrottleDecision.denials]
    omega
  | some current =>
    simp only [Option.isSome_some, if_true] at sum
    simp only [ThrottleDecision.denials]
    omega

theorem suppressedOf_forgetSuppressed (s : RuleState) (group : String) :
    s.forgetSuppressed.suppressedOf group = 0 := by
  unfold suppressedOf forgetSuppressed
  rw [Table.get?_map]
  cases s.groups.get? group <;> rfl

end RuleState

/-! ### What events tell -/

/-- The suppressed alerts of a group that summaries tell of. -/
def toldOf (told : List GroupSummary) (group : String) : Nat :=
  ((told.filter fun g => g.group = group).map GroupSummary.suppressed).sum

def SummaryEvent.toldOf (e : SummaryEvent) (rule group : String) : Nat :=
  if rule = e.rule then AlertAdmission.toldOf e.groups group else 0

theorem toldOf_cons (first : GroupSummary) (rest : List GroupSummary) (group : String) :
    toldOf (first :: rest) group =
      (if group = first.group then first.suppressed else 0) + toldOf rest group := by
  by_cases own : first.group = group
  · simp [toldOf, own]
  · simp [toldOf, own, Ne.symm own]

theorem total_eq_zero_iff (counts : List Nat) : total counts = 0 ↔ ∀ n ∈ counts, n = 0 := by
  induction counts with
  | nil => simp
  | cons n rest ih => simp [ih]

namespace RuleState

theorem toldOf_eq_zero {groups : List (String × GroupWindow)} {start : Instant} {name : String}
    (others : ∀ entry ∈ groups, name < entry.1) :
    toldOf (groups.map fun entry => entry.2.summary entry.1 start) name = 0 := by
  induction groups with
  | nil => rfl
  | cons entry rest ih =>
    have differs : name ≠ entry.1 := by
      intro same
      have below := others entry List.mem_cons_self
      rw [same] at below
      exact String.lt_irrefl _ below
    rw [List.map_cons, toldOf_cons, ih fun other member => others other
      (List.mem_cons_of_mem _ member)]
    simp [GroupWindow.summary, differs]

theorem toldOf_summary (s : RuleState) (name : String) (now : Instant) (group : String) :
    toldOf (s.summary name now).groups group = s.suppressedOf group := by
  have summaries : (s.summary name now).groups =
      s.groups.toList.map fun entry => entry.2.summary entry.1 (now - s.limit.window) := by
    simp [summary, Table.values, Table.map]
  have ordered := s.groups.ordered
  rw [summaries]
  unfold suppressedOf Table.get?
  generalize s.groups.toList = groups at ordered
  induction groups with
  | nil => rfl
  | cons entry rest ih =>
    obtain ⟨key, w⟩ := entry
    rw [List.pairwise_cons] at ordered
    rw [List.map_cons, toldOf_cons, Table.lookup_pair]
    by_cases own : group = key
    · subst own
      rw [toldOf_eq_zero ordered.1]
      simp [GroupWindow.summary]
    · rw [ih ordered.2]
      simp [GroupWindow.summary, own]

theorem totalSuppressed_summary (s : RuleState) (name : String) (now : Instant) :
    (s.summary name now).totalSuppressed = s.allSuppressed := by
  simp [summary, allSuppressed, Table.values, Table.map, GroupWindow.summary, Function.comp_def]

theorem totalSuppressed_eq_zero_iff (s : RuleState) (name : String) (now : Instant) :
    (s.summary name now).totalSuppressed = 0 ↔ ∀ group, s.suppressedOf group = 0 := by
  have counts : (s.summary name now).totalSuppressed =
      total (s.groups.toList.map fun entry => entry.2.suppressed) := by
    rw [totalSuppressed_summary, allSuppressed, Table.values, List.map_map]
    rfl
  rw [counts, total_eq_zero_iff]
  constructor
  · intro none group
    unfold suppressedOf
    cases found : s.groups.get? group with
    | none => rfl
    | some w =>
      have member := (s.groups.mem_toList_iff group w).mpr found
      exact none _ (List.mem_map_of_mem member)
  · intro none n member
    obtain ⟨⟨group, w⟩, entry, rfl⟩ := List.mem_map.mp member
    have zero := none group
    rw [Table.mem_toList_iff] at entry
    rwa [suppressedOf, entry] at zero

theorem suppressedOf_deduct (s : RuleState) (told : List GroupSummary) (group : String) :
    (s.deduct told).suppressedOf group = s.suppressedOf group - toldOf told group := by
  unfold deduct suppressedOf
  dsimp only
  generalize s.groups = groups
  induction told generalizing groups with
  | nil => rfl
  | cons first rest ih =>
    rw [List.foldl_cons, ih, toldOf_cons, ← Nat.sub_sub, Table.get?_modify]
    congr 1
    split
    · next own =>
      rw [own]
      cases groups.get? first.group with
      | none => exact (Nat.zero_sub _).symm
      | some w => rfl
    · exact (Nat.sub_zero _).symm

end RuleState

namespace Throttle

variable {t : Throttle} {name : String} {now : Instant}

def suppressedOf (t : Throttle) (rule group : String) : Nat :=
  ((t.get? rule).map fun s => s.suppressedOf group).getD 0

theorem suppressedOf_rule (t : Throttle) (name : String) (limit : RateLimit) (now : Instant)
    (group : String) : (t.rule name limit now).suppressedOf group = t.suppressedOf name group := by
  unfold rule suppressedOf
  cases t.get? name <;> rfl

theorem suppressedOf_insert (t : Throttle) (name : String) (s : RuleState) (rule group : String) :
    suppressedOf (t.insert name s) rule group =
      if rule = name then s.suppressedOf group else t.suppressedOf rule group := by
  unfold suppressedOf
  rw [Table.get?_insert]
  split <;> rfl

/-- An event is of the rule that it was made up for, and tells what the rule has counted. -/
theorem told_of_event {e : SummaryEvent} (h : t.event? name now = some e) :
    e.rule = name ∧ ∀ rule group,
      e.toldOf rule group = if rule = name then t.suppressedOf rule group else 0 := by
  unfold event? summary? at h
  cases found : t.get? name with
  | none => simp [found] at h
  | some s =>
    simp only [found, Option.map_some] at h
    split at h
    · cases h
    · cases h
      refine ⟨rfl, fun rule group => ?_⟩
      have ofName : (s.summary name now).toEvent.rule = name := rfl
      unfold SummaryEvent.toldOf
      rw [ofName]
      by_cases own : rule = name
      · subst own
        rw [if_pos rfl, if_pos rfl, suppressedOf, found]
        exact s.toldOf_summary rule now group
      · rw [if_neg own, if_neg own]

theorem event_isSome_iff (t : Throttle) (name : String) (now : Instant) :
    (t.event? name now).isSome = true ↔ ∃ group, 0 < t.suppressedOf name group := by
  unfold event? summary? suppressedOf
  cases t.get? name with
  | none => simp
  | some s =>
    have none := s.totalSuppressed_eq_zero_iff name now
    by_cases zero : (s.summary name now).totalSuppressed = 0
    · simp [zero, none.mp zero]
    · simpa [zero, Nat.pos_iff_ne_zero] using mt none.mpr zero

theorem suppressedOf_deduct (t : Throttle) (e : SummaryEvent) (rule group : String) :
    (t.deduct e).suppressedOf rule group = t.suppressedOf rule group - e.toldOf rule group := by
  unfold deduct suppressedOf SummaryEvent.toldOf
  rw [Table.get?_modify]
  split
  · next own =>
    rw [own]
    cases t.get? e.rule with
    | none => exact (Nat.zero_sub _).symm
    | some s => exact s.suppressedOf_deduct e.groups group
  · rfl

/-! ### What decisions add -/

theorem suppressedOf_afterCall (t : Throttle) (call : ThrottleCall) (rule group : String) :
    (t.afterCall call).suppressedOf rule group = t.suppressedOf rule group +
      if rule = call.rule ∧ group = call.group then (t.decision call).denials else 0 := by
  by_cases enabled : call.limit.isEnabled
  · obtain ⟨decision, after⟩ := t.call_of_enabled enabled
    rw [decision, after, suppressedOf_insert, ruleAfter, RuleState.suppressedOf_offer,
      suppressedOf_rule]
    by_cases own : rule = call.rule
    · subst own
      simp
    · simp [own]
  · obtain ⟨passes, same⟩ := t.decision_of_disabled enabled
    rw [passes, same]
    simp [ThrottleDecision.denials]

theorem le_suppressedOf_answer (t : Throttle) (calls : List ThrottleCall) (rule group : String) :
    t.suppressedOf rule group ≤ (t.answer calls).suppressedOf rule group := by
  induction calls generalizing t with
  | nil => exact Nat.le_refl _
  | cons call rest ih =>
    have one := t.suppressedOf_afterCall call rule group
    exact Nat.le_trans (by omega) (ih (t.afterCall call))

/-! ### What drops counts -/

theorem suppressedOf_resetCounts (t : Throttle) (name rule group : String) :
    (t.resetCounts name).suppressedOf rule group =
      if rule = name then 0 else t.suppressedOf rule group := by
  unfold resetCounts suppressedOf
  rw [Table.get?_modify]
  split
  · cases t.get? name with
    | none => rfl
    | some s => exact s.suppressedOf_forgetSuppressed group
  · rfl

theorem suppressedOf_reset (t : Throttle) (name rule group : String) :
    (t.reset name).suppressedOf rule group =
      if rule = name then 0 else t.suppressedOf rule group := by
  unfold reset suppressedOf
  rw [Table.get?_erase]
  split <;> rfl

theorem suppressedOf_cleanup (t : Throttle) (active : List String) (rule group : String) :
    (t.cleanup active).suppressedOf rule group =
      if active.contains rule then t.suppressedOf rule group else 0 := by
  unfold suppressedOf
  rw [get?_cleanup]
  split <;> rfl

end Throttle

end AlertAdmission
