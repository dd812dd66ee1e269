import AlertAdmission.Admission
import AlertAdmission.Proofs.Throttle.Exact
import AlertAdmission.Zone.Catalogue

/-!
Admission as the composition of its gates.

`Arrival.expected` works out what becomes of an alert from the log of all alerts before it: the
storm detector has seen every one of them, a limit counts those of its group that got past both
gates that drop, whether they were delivered or deferred, and quiet hours look at nothing but the
alert. The gates keep to it in every run (`Gates.admission_exact`).
-/

namespace AlertAdmission

/-- An alert as it reaches the gates, with the limit and the quiet hours of its rule. -/
structure Arrival where
  alert : Alert
  limit : Option RateLimit
  quiet : Option QuietHours
  now : Instant

structure Received where
  arrival : Arrival
  fate : Admission

abbrev AdmissionLog := List Received

/-- Whether an alert got past both gates that drop. -/
def Admission.isAdmitted : Admission → Bool
  | .deliver | .deferred _ => true
  | .droppedByStorm | .droppedByThrottle _ => false

def Arrival.call? (a : Arrival) : Option ThrottleCall :=
  a.limit.map fun limit => ⟨a.alert.rule, a.alert.fields, limit, a.now⟩

/-- Whether an alert got past both gates that drop, and counts for a group of a rule. -/
def Received.spends (rule group : String) (entry : Received) : Bool :=
  entry.fate.isAdmitted &&
    entry.arrival.call?.any fun call => call.rule = rule && call.group = group

namespace AdmissionLog

/-- A storm detector fed with every alert of a log. -/
def storm (c : StormConfig) (log : AdmissionLog) : Storm :=
  log.foldl (fun s entry => (s.record c entry.arrival.now).1) Storm.calm

/-- The instants of the alerts that count for a group of a rule. -/
def spent (log : AdmissionLog) (rule group : String) : List Instant :=
  (log.filter (Received.spends rule group)).map fun entry => entry.arrival.now

def calls (log : AdmissionLog) : List ThrottleCall := log.filterMap fun entry => entry.arrival.call?

end AdmissionLog

namespace Arrival

def quietFate [ZoneDatabase] (a : Arrival) : Admission :=
  match a.quiet with
  | none => .deliver
  | some q =>
    let verdict := q.check a.alert.severity a.now
    if verdict.suppresses then .deferred (verdict.reason?.getD "") else .deliver

/-- What becomes of an arrival that no storm drops. -/
def limitedFate [ZoneDatabase] (log : AdmissionLog) (a : Arrival) : Admission :=
  match a.call? with
  | none => a.quietFate
  | some call =>
    let inWindow := (log.spent call.rule call.group).filter fun t => call.cutoff < t
    if inWindow.length < call.limit.capacity then a.quietFate
    else .droppedByThrottle ((ThrottleDecision.denied call.limit.maxAlerts
      call.limit.periodSeconds call.limit.capacity).reason?.getD "")

/-- What becomes of an arrival, from everything that became of the alerts before it. -/
def expected [ZoneDatabase] (c : StormConfig) (log : AdmissionLog) (a : Arrival) : Admission :=
  if ((log.storm c).record c a.now).2 then a.limitedFate log else .droppedByStorm

/-- The alerts arrive under a clock that does not go back. -/
def Ordered (arrivals : List Arrival) : Prop :=
  arrivals.Pairwise fun a later => a.now ≤ later.now

/-- Where an alert has a limit, the start of the window behind it does not go back either. -/
def Steady (arrivals : List Arrival) : Prop :=
  arrivals.Pairwise fun a later => ∀ limit ∈ later.limit, a.now.Leads limit.window later.now

/-- A rule has one limit, which is turned on, or none. -/
def OneLimit (arrivals : List Arrival) : Prop :=
  (∀ a ∈ arrivals, ∀ limit ∈ a.limit, limit.isEnabled) ∧
    ∀ a ∈ arrivals, ∀ other ∈ arrivals, a.alert.rule = other.alert.rule → a.limit = other.limit

end Arrival

namespace Gates

variable {c : StormConfig} {g : Gates} {a : Arrival} {log : AdmissionLog}

/-- What an arrival leaves of the gates, by what becomes of it: no trace behind the gate that drops
it, and one more held alert of its device, held from its instant on, if it is deferred. -/
def Leaves (g after : Gates) (a : Arrival) : Admission → Prop
  | .droppedByStorm => after.throttle = g.throttle ∧ after.held = g.held
  | .droppedByThrottle _ => after.held = g.held
  | .deferred _ => ∀ device, after.held.ofDevice device =
      if device = a.alert.device then g.held.ofDevice device ++ [a.alert.hold a.now]
      else g.held.ofDevice device
  | .deliver => after.held = g.held

section Arriving

variable [ZoneDatabase]

def arrive (g : Gates) (c : StormConfig) (a : Arrival) : Gates × Admission :=
  g.receive c a.alert a.limit a.quiet a.now

def run (c : StormConfig) (arrivals : List Arrival) : Gates × AdmissionLog :=
  arrivals.foldl (fun state a =>
    ((state.1.arrive c a).1, state.2 ++ [⟨a, (state.1.arrive c a).2⟩])) (fresh, [])

theorem run_snoc (c : StormConfig) (arrivals : List Arrival) (last : Arrival) :
    run c (arrivals ++ [last]) = (((run c arrivals).1.arrive c last).1,
      (run c arrivals).2 ++ [⟨last, ((run c arrivals).1.arrive c last).2⟩]) := by
  rw [run, List.foldl_append]
  rfl

theorem map_arrival_run (c : StormConfig) (arrivals : List Arrival) :
    (run c arrivals).2.map Received.arrival = arrivals := by
  induction arrivals using List.reverseRecOn with
  | nil => rfl
  | append_singleton arrivals last ih =>
    rw [run_snoc, List.map_append, ih]
    rfl

/-! ### One arrival -/

/-- What quiet hours make of an alert does not depend on the gates, and they touch no other gate. -/
theorem passQuietHours_spec (g before : Gates) (a : Arrival) (same : g.held = before.held) :
    let result := g.passQuietHours a.alert a.quiet a.now
    result.2 = a.quietFate ∧ result.1.storm = g.storm ∧ result.1.throttle = g.throttle ∧
      Leaves before result.1 a result.2 := by
  unfold passQuietHours Arrival.quietFate
  cases a.quiet with
  | none => exact ⟨rfl, rfl, rfl, same⟩
  | some q =>
    dsimp only
    split
    · refine ⟨rfl, rfl, rfl, ?_⟩
      rw [same]
      exact fun device => before.held.ofDevice_add _ device
    · exact ⟨rfl, rfl, rfl, same⟩

theorem isAdmitted_quietFate (a : Arrival) : a.quietFate.isAdmitted = true := by
  unfold Arrival.quietFate
  cases a.quiet with
  | none => rfl
  | some q =>
    dsimp only
    split <;> rfl

/-! ### Paths through the gates -/

variable {call : ThrottleCall}

theorem arrive_of_storm (stops : (g.storm.record c a.now).2 = false) :
    g.arrive c a = ({ g with storm := (g.storm.record c a.now).1 }, .droppedByStorm) := by
  unfold arrive receive
  simp only [stops, Bool.false_eq_true, if_false]

theorem arrive_of_unlimited (passes : (g.storm.record c a.now).2 = true) (free : a.call? = none) :
    g.arrive c a =
      (⟨(g.storm.record c a.now).1, g.throttle, g.held⟩ : Gates).passQuietHours a.alert a.quiet
        a.now := by
  have none : a.limit = none := Option.map_eq_none_iff.mp free
  unfold arrive receive
  simp only [passes, if_true, none, passThrottle]

theorem arrive_of_called (passes : (g.storm.record c a.now).2 = true)
    (called : a.call? = some call) :
    g.arrive c a =
      match (g.throttle.decision call).reason? with
      | none => (⟨(g.storm.record c a.now).1, g.throttle.afterCall call, g.held⟩ :
          Gates).passQuietHours a.alert a.quiet a.now
      | some reason => (⟨(g.storm.record c a.now).1, g.throttle.afterCall call, g.held⟩,
          .droppedByThrottle reason) := by
  obtain ⟨limit, given, rfl⟩ := Option.map_eq_some_iff.mp called
  unfold arrive receive
  simp only [passes, if_true, given, passThrottle]
  rfl

theorem leaves_arrive (g : Gates) (c : StormConfig) (a : Arrival) :
    Leaves g (g.arrive c a).1 a (g.arrive c a).2 := by
  cases passes : (g.storm.record c a.now).2 with
  | false =>
    rw [arrive_of_storm passes]
    exact ⟨rfl, rfl⟩
  | true =>
    cases called : a.call? with
    | none =>
      rw [arrive_of_unlimited passes called]
      exact (passQuietHours_spec ⟨(g.storm.record c a.now).1, g.throttle, g.held⟩ g a rfl).2.2.2
    | some call =>
      rw [arrive_of_called passes called]
      split
      · exact (passQuietHours_spec ⟨_, g.throttle.afterCall call, g.held⟩ g a rfl).2.2.2
      · rfl

end Arriving

/-! ### What the gates keep of the log -/

/-- Gates that agree with a log: the detector has seen all of it, and the throttle has made
decisions in which the same alerts count. -/
structure Keeps (c : StormConfig) (log : AdmissionLog) (g : Gates) : Prop where
  storm : g.storm = log.storm c
  throttle : ∃ decisions : ThrottleLog, Throttle.Reached decisions g.throttle ∧
    decisions.calls.Sublist log.calls ∧
    ∀ rule group, decisions.allowedSinceDrop rule group = log.spent rule group

theorem keeps_fresh (c : StormConfig) : Keeps c [] fresh where
  storm := rfl
  throttle := ⟨[], .none, List.Sublist.refl _, fun _ _ => rfl⟩

theorem storm_snoc (log : AdmissionLog) (c : StormConfig) (entry : Received) :
    AdmissionLog.storm c (log ++ [entry]) = ((log.storm c).record c entry.arrival.now).1 := by
  rw [AdmissionLog.storm, List.foldl_append]
  rfl

theorem calls_snoc (log : AdmissionLog) (entry : Received) :
    AdmissionLog.calls (log ++ [entry]) = log.calls ++ entry.arrival.call?.toList := by
  rw [AdmissionLog.calls, List.filterMap_append]
  congr 1

theorem spent_snoc (log : AdmissionLog) (entry : Received) (rule group : String) :
    AdmissionLog.spent (log ++ [entry]) rule group = log.spent rule group ++
      if entry.spends rule group then [entry.arrival.now] else [] := by
  rw [AdmissionLog.spent, List.filter_append, List.map_append]
  congr 1
  cases spends : entry.spends rule group <;> simp [spends]

theorem Keeps.uncalled (h : Keeps c log g) {after : Gates} {fate : Admission}
    (storm : after.storm = (g.storm.record c a.now).1) (throttle : after.throttle = g.throttle)
    (silent : ∀ rule group, Received.spends rule group ⟨a, fate⟩ = false) :
    Keeps c (log ++ [⟨a, fate⟩]) after where
  storm := by
    rw [storm_snoc, ← h.storm]
    exact storm
  throttle := by
    obtain ⟨decisions, reached, calls, counts⟩ := h.throttle
    refine ⟨decisions, by rwa [throttle], ?_, ?_⟩
    · rw [calls_snoc]
      exact calls.trans (List.sublist_append_left _ _)
    · intro rule group
      rw [spent_snoc, silent, counts]
      exact (List.append_nil _).symm

theorem Keeps.called (h : Keeps c log g) {after : Gates} {fate : Admission}
    (called : a.call? = some call) (enabled : call.limit.isEnabled)
    (storm : after.storm = (g.storm.record c a.now).1)
    (throttle : after.throttle = g.throttle.afterCall call)
    (agrees : fate.isAdmitted = (g.throttle.decision call).isAllowed) :
    Keeps c (log ++ [⟨a, fate⟩]) after where
  storm := by
    rw [storm_snoc, ← h.storm]
    exact storm
  throttle := by
    obtain ⟨decisions, reached, calls, counts⟩ := h.throttle
    refine ⟨decisions ++ [.decided call (g.throttle.decision call)], ?_, ?_, ?_⟩
    · rw [throttle]
      exact .snoc reached (.call _ call)
    · rw [calls_snoc, called, ThrottleLog.calls_decided decisions enabled]
      exact calls.append (List.Sublist.refl _)
    · intro rule group
      have now : call.now = a.now := by
        obtain ⟨limit, _, rfl⟩ := Option.map_eq_some_iff.mp called
        rfl
      -- what is spent and what is allowed grow together, or neither does
      rw [spent_snoc, ThrottleLog.allowedSinceDrop_snoc, counts]
      simp only [ThrottleRecord.drops, Bool.false_eq_true, if_false]
      congr 1
      simp only [Received.spends, agrees, called, Option.any_some]
      cases g.throttle.decision call with
      | denied _ _ _ => simp [ThrottleRecord.allowedAt?, ThrottleDecision.isAllowed]
      | allowed =>
        by_cases own : call.rule = rule ∧ call.group = group
        · simp [ThrottleRecord.allowedAt?, ThrottleDecision.isAllowed, enabled, own, now]
        · simp only [ThrottleRecord.allowedAt?, ThrottleDecision.isAllowed, enabled, own, and_false,
            if_false, Bool.true_and, ← Bool.decide_and, decide_false, Bool.false_eq_true,
            Option.toList_none]

theorem Keeps.decision (h : Keeps c log g) (enabled : call.limit.isEnabled)
    (steady : (log.calls ++ [call]).Pairwise fun x later =>
      x.now.Leads later.limit.window later.now)
    (one : ∀ x ∈ log.calls ++ [call], ∀ y ∈ log.calls ++ [call], x.rule = y.rule →
      x.limit = y.limit) :
    g.throttle.decision call =
      if ((log.spent call.rule call.group).filter fun t => call.cutoff < t).length <
        call.limit.capacity then .allowed
      else .denied call.limit.maxAlerts call.limit.periodSeconds call.limit.capacity := by
  obtain ⟨decisions, reached, calls, counts⟩ := h.throttle
  rw [List.pairwise_append] at steady
  have last : call ∈ [call] := List.mem_singleton.mpr rfl
  have earlier : ∀ x ∈ decisions.calls, x ∈ log.calls ++ [call] :=
    fun x hx => List.mem_append_left _ (calls.subset hx)
  have agree : ∀ x ∈ log.calls ++ [call], ∀ y ∈ log.calls ++ [call], x.rule = y.rule →
      x.limit.maxAlerts = y.limit.maxAlerts ∧ x.limit.periodSeconds = y.limit.periodSeconds := by
    intro x hx y hy own
    rw [one x hx y hy own]
    exact ⟨rfl, rfl⟩
  have kept : decisions.Kept g.throttle :=
    Throttle.kept_of_reached reached (steady.1.sublist calls)
      fun x hx y hy own => agree x (earlier x hx) y (earlier y hy) own
  have next : decisions.Continues call := {
    leads := fun x hx => steady.2.2 x (calls.subset hx) call last
    same := fun x hx own => agree x (earlier x hx) call (List.mem_append_right _ last) own }
  have ruling := (Throttle.kept_call kept enabled next).1
  rw [ruling, ThrottleCall.ruling, if_pos enabled, counts]

section Receiving

variable [ZoneDatabase]

theorem Keeps.arrive_unlimited (h : Keeps c log g) (passes : (g.storm.record c a.now).2 = true)
    (free : a.call? = none) :
    (g.arrive c a).2 = a.limitedFate log ∧
      Keeps c (log ++ [⟨a, (g.arrive c a).2⟩]) (g.arrive c a).1 := by
  rw [Arrival.limitedFate, free, arrive_of_unlimited passes free]
  obtain ⟨fate, storm, throttle, _⟩ :=
    passQuietHours_spec ⟨(g.storm.record c a.now).1, g.throttle, g.held⟩ g a rfl
  refine ⟨fate, h.uncalled storm throttle fun rule group => ?_⟩
  rw [Received.spends, free]
  exact Bool.and_false _

theorem Keeps.arrive_called (h : Keeps c log g) (passes : (g.storm.record c a.now).2 = true)
    (called : a.call? = some call) (enabled : call.limit.isEnabled)
    (decision : g.throttle.decision call =
      if ((log.spent call.rule call.group).filter fun t => call.cutoff < t).length <
        call.limit.capacity then .allowed
      else .denied call.limit.maxAlerts call.limit.periodSeconds call.limit.capacity) :
    (g.arrive c a).2 = a.limitedFate log ∧
      Keeps c (log ++ [⟨a, (g.arrive c a).2⟩]) (g.arrive c a).1 := by
  rw [Arrival.limitedFate, called, arrive_of_called passes called]
  by_cases room : ((log.spent call.rule call.group).filter fun t => call.cutoff < t).length <
      call.limit.capacity
  · rw [if_pos room] at decision
    have silent : (g.throttle.decision call).reason? = none := by
      rw [decision]
      rfl
    obtain ⟨fate, storm, throttle, _⟩ := passQuietHours_spec
      ⟨(g.storm.record c a.now).1, g.throttle.afterCall call, g.held⟩ g a rfl
    rw [silent]
    refine ⟨fate.trans (if_pos room).symm, h.called called enabled storm throttle ?_⟩
    dsimp only
    rw [fate, isAdmitted_quietFate, decision]
    rfl
  · rw [if_neg room] at decision
    rw [decision]
    refine ⟨(if_neg room).symm, h.called called enabled rfl rfl ?_⟩
    rw [decision]
    rfl

theorem Keeps.arrive (h : Keeps c log g)
    (steady : (log.calls ++ a.call?.toList).Pairwise fun x later =>
      x.now.Leads later.limit.window later.now)
    (one : ∀ x ∈ log.calls ++ a.call?.toList, ∀ y ∈ log.calls ++ a.call?.toList, x.rule = y.rule →
      x.limit = y.limit)
    (enabled : ∀ x ∈ a.call?, x.limit.isEnabled) :
    (g.arrive c a).2 = a.expected c log ∧
      Keeps c (log ++ [⟨a, (g.arrive c a).2⟩]) (g.arrive c a).1 := by
  unfold Arrival.expected
  rw [← h.storm]
  cases passes : (g.storm.record c a.now).2 with
  | false =>
    rw [arrive_of_storm passes]
    exact ⟨rfl, h.uncalled rfl rfl fun _ _ => rfl⟩
  | true =>
    rw [if_pos rfl]
    cases called : a.call? with
    | none => exact h.arrive_unlimited passes called
    | some call =>
      rw [called] at steady one
      have on : call.limit.isEnabled := enabled call called
      exact h.arrive_called passes called on (h.decision on steady one)

end Receiving

end Gates

namespace Arrival

variable {arrivals : List Arrival}

theorem Ordered.steady (ordered : Ordered arrivals)
    (ordinary : ∀ a ∈ arrivals, a.now.leap = false) : Steady arrivals := by
  apply List.Pairwise.imp_of_mem _ ordered
  intro a later member _ le limit _
  exact Instant.leads_of_le (windowLength_nonneg _) (ordinary a member) le

theorem steady_calls (steady : Steady arrivals) :
    (arrivals.filterMap call?).Pairwise fun x later =>
      x.now.Leads later.limit.window later.now := by
  rw [List.pairwise_filterMap]
  refine steady.imp ?_
  rintro a later leads x hx y hy
  obtain ⟨_, _, rfl⟩ := Option.map_eq_some_iff.mp hx
  obtain ⟨limit, given, rfl⟩ := Option.map_eq_some_iff.mp hy
  exact leads limit given

theorem oneLimit_calls (one : OneLimit arrivals) :
    (∀ x ∈ arrivals.filterMap call?, x.limit.isEnabled) ∧
      ∀ x ∈ arrivals.filterMap call?, ∀ y ∈ arrivals.filterMap call?, x.rule = y.rule →
        x.limit = y.limit := by
  have origin : ∀ x ∈ arrivals.filterMap call?, ∃ a ∈ arrivals, a.limit = some x.limit ∧
      a.alert.rule = x.rule := by
    intro x hx
    obtain ⟨a, member, called⟩ := List.mem_filterMap.mp hx
    obtain ⟨limit, given, rfl⟩ := Option.map_eq_some_iff.mp called
    exact ⟨a, member, given, rfl⟩
  constructor
  · intro x hx
    obtain ⟨a, member, given, _⟩ := origin x hx
    exact one.1 a member x.limit given
  · intro x hx y hy own
    obtain ⟨a, ha, given, rule⟩ := origin x hx
    obtain ⟨b, hb, given', rule'⟩ := origin y hy
    have same : a.limit = b.limit := one.2 a ha b hb (rule.trans (own.trans rule'.symm))
    rw [given, given'] at same
    exact Option.some.inj same

theorem steady_of_append {more : List Arrival} (steady : Steady (arrivals ++ more)) :
    Steady arrivals := (List.pairwise_append.mp steady).1

theorem oneLimit_of_append {more : List Arrival} (one : OneLimit (arrivals ++ more)) :
    OneLimit arrivals := by
  constructor
  · intro a ha
    exact one.1 a (List.mem_append_left _ ha)
  · intro a ha b hb
    exact one.2 a (List.mem_append_left _ ha) b (List.mem_append_left _ hb)

end Arrival

namespace Gates

variable {c : StormConfig} {arrivals : List Arrival}

section Runs

variable [ZoneDatabase]

def AsExpected (c : StormConfig) (before : AdmissionLog) (entry : Received) : Prop :=
  entry.fate = entry.arrival.expected c before

theorem calls_run (c : StormConfig) (arrivals : List Arrival) :
    (run c arrivals).2.calls = arrivals.filterMap Arrival.call? := by
  have same : (run c arrivals).2.calls =
      ((run c arrivals).2.map Received.arrival).filterMap Arrival.call? := by
    rw [List.filterMap_map]
    rfl
  rw [same, map_arrival_run]

theorem run_keeps (c : StormConfig) (steady : Arrival.Steady arrivals)
    (one : Arrival.OneLimit arrivals) :
    Keeps c (run c arrivals).2 (run c arrivals).1 ∧ Justified (AsExpected c) (run c arrivals).2 := by
  induction arrivals using List.reverseRecOn with
  | nil => exact ⟨keeps_fresh c, .nil⟩
  | append_singleton arrivals last ih =>
    -- the conditions on the arrivals hold of those before the last one
    obtain ⟨kept, expected⟩ := ih (Arrival.steady_of_append steady) (Arrival.oneLimit_of_append one)
    have calls : (run c arrivals).2.calls ++ last.call?.toList =
        (arrivals ++ [last]).filterMap Arrival.call? := by
      rw [calls_run, List.filterMap_append]
      congr 1
    obtain ⟨enabled, limits⟩ := Arrival.oneLimit_calls one
    obtain ⟨fate, keeps⟩ := kept.arrive (calls ▸ Arrival.steady_calls steady) (calls ▸ limits)
      fun x hx => enabled x (List.mem_filterMap.mpr
        ⟨last, List.mem_append_right _ (List.mem_singleton.mpr rfl), hx⟩)
    rw [run_snoc]
    exact ⟨keeps, expected.snoc fate⟩

/-! ### Alerts let through -/

def spentInWindow (log : AdmissionLog) (rule group : String) (window : Span) (u : Instant) :
    AdmissionLog :=
  log.filter fun entry => entry.spends rule group && u - window < entry.arrival.now &&
    entry.arrival.now ≤ u

theorem room_of_spends {before : AdmissionLog} {entry : Received} {rule group : String}
    (expected : AsExpected c before entry) (spends : entry.spends rule group = true) :
    ∃ limit, entry.arrival.limit = some limit ∧ entry.arrival.alert.rule = rule ∧
      ((before.spent rule group).filter fun t => entry.arrival.now - limit.window < t).length <
        limit.capacity := by
  rw [Received.spends, Bool.and_eq_true, Option.any_eq_true] at spends
  obtain ⟨admitted, call, called, same⟩ := spends
  simp only [Bool.and_eq_true, decide_eq_true_eq] at same
  obtain ⟨rfl, rfl⟩ := same
  rw [expected, Arrival.expected] at admitted
  split at admitted
  · rw [Arrival.limitedFate, called] at admitted
    dsimp only at admitted
    split at admitted
    · next room =>
      obtain ⟨limit, given, rfl⟩ := Option.map_eq_some_iff.mp called
      exact ⟨limit, given, rfl, room⟩
    · cases admitted
  · cases admitted

theorem length_spentInWindow_le {log : AdmissionLog} (expected : Justified (AsExpected c) log)
    {rule : String} {limit : RateLimit}
    (own : ∀ entry ∈ log, entry.arrival.alert.rule = rule → entry.arrival.limit = some limit)
    (group : String) {u : Instant}
    (leads : ∀ entry ∈ log, entry.arrival.now ≤ u →
      entry.arrival.now - limit.window ≤ u - limit.window) :
    (spentInWindow log rule group limit.window u).length ≤ limit.capacity := by
  apply Justified.length_trailing_le
  · intro before entry after position spends
    have member : entry ∈ log := by
      rw [position]
      exact List.mem_append_right _ List.mem_cons_self
    obtain ⟨_, given, rule, room⟩ :=
      room_of_spends (expected before entry after position) spends
    cases given.symm.trans (own entry member rule)
    rw [AdmissionLog.spent, List.filter_map, List.length_map, List.filter_filter] at room
    simpa [Bool.and_comm] using room
  · exact fun entry member _ => leads entry member

/-- Every alert of a run meets the fate that the log before it makes. No window that trails an
instant has more alerts of a group, delivered or deferred, than the limit of the rule. Whatever
the gates have been through, a dropped alert leaves no trace behind the gate that drops it, and a
deferred one is the one more held alert of its device. -/
theorem admission_exact (c : StormConfig) (arrivals : List Arrival)
    (steady : Arrival.Steady arrivals) (one : Arrival.OneLimit arrivals) :
    (∀ before entry after, (run c arrivals).2 = before ++ entry :: after →
      entry.fate = entry.arrival.expected c before) ∧
    (∀ a ∈ arrivals, ∀ limit ∈ a.limit, ∀ group u,
      (∀ t ∈ arrivals.map Arrival.now, t ≤ u → t - limit.window ≤ u - limit.window) →
      (spentInWindow (run c arrivals).2 a.alert.rule group limit.window u).length ≤
        limit.capacity) ∧
    ∀ (g : Gates) (a : Arrival), Leaves g (g.arrive c a).1 a (g.arrive c a).2 := by
  obtain ⟨_, expected⟩ := run_keeps c steady one
  refine ⟨expected, ?_, fun g a => leaves_arrive g c a⟩
  intro a ha limit given group u leads
  have arrived : ∀ entry ∈ (run c arrivals).2, entry.arrival ∈ arrivals := by
    intro entry member
    rw [← map_arrival_run c arrivals]
    exact List.mem_map_of_mem member
  apply length_spentInWindow_le expected
  · intro entry member same
    exact (one.2 _ (arrived entry member) a ha same).trans given
  · intro entry member
    exact leads _ (List.mem_map_of_mem (arrived entry member))

end Runs

def portDown (port : String) (quiet : Option QuietHours) (now : Instant) : Arrival where
  alert := ⟨"link", "router", "port.down", .warning, .obj [("port", .str port)]⟩
  limit := some ⟨2, 60, some "port"⟩
  quiet := quiet
  now := now

def night : QuietHours := ⟨"22:00", "06:00", "UTC", true, []⟩

/-- Alerts just after midnight. The second is deferred, and still counts for its port. -/
def afterMidnight : List Arrival :=
  [portDown "a" none (Instant.ofNanos 0), portDown "a" (some night) (Instant.ofNanos 1000000000),
   portDown "a" (some night) (Instant.ofNanos 2000000000),
   portDown "b" none (Instant.ofNanos 3000000000),
   portDown "b" none (Instant.ofNanos 4000000000)]

/-- All four fates in one minute, where four alerts are the most that is no storm. -/
theorem all_fates_after_midnight :
    Arrival.Steady afterMidnight ∧ Arrival.OneLimit afterMidnight ∧
      (run ⟨4, 60, 300⟩ afterMidnight).2.map Received.fate =
        [.deliver, .deferred "quiet hours active (22:00-06:00 UTC)",
         .droppedByThrottle "throttled (limit: 2 per 60 seconds, current: 2)", .deliver,
         .droppedByStorm] ∧
      (spentInWindow (run ⟨4, 60, 300⟩ afterMidnight).2 "link" "a"
        (windowLength 60) (Instant.ofNanos 2000000000)).length = 2 := by
  have steady : Arrival.Steady afterMidnight := by
    unfold Arrival.Steady
    decide
  have one : Arrival.OneLimit afterMidnight := by
    unfold Arrival.OneLimit
    decide
  obtain ⟨_, most, _⟩ := admission_exact ⟨4, 60, 300⟩ afterMidnight steady one
  have bound := most (portDown "a" none (Instant.ofNanos 0)) (by simp [afterMidnight]) _ rfl "a"
    (Instant.ofNanos 2000000000) (by decide)
  exact ⟨steady, one, by decide, Nat.le_antisymm bound (by decide +kernel)⟩

/-! ### Leap seconds -/

/-- Half a second into the leap second at the end of 2016, the first alert has left the window. Half
a second on, at midnight, it would be in the window again, but it is forgotten. -/
def newYear : List Arrival :=
  [portDown "a" none (Instant.ofNanos 1483228740300000000),
   portDown "a" none ⟨1483228799500000000, true⟩,
   portDown "a" none (Instant.ofNanos 1483228800000000000)]

/-- A clock that goes on is not enough: right after a leap second a third alert is delivered. -/
theorem delivered_after_leap_second :
    ¬ ∀ (c : StormConfig) (arrivals : List Arrival), Arrival.Ordered arrivals →
      Arrival.OneLimit arrivals → ∀ before entry after,
      (run c arrivals).2 = before ++ entry :: after →
      entry.fate = entry.arrival.expected c before := by
  intro claim
  have ordered : Arrival.Ordered newYear := by
    unfold Arrival.Ordered
    decide
  have one : Arrival.OneLimit newYear := by
    unfold Arrival.OneLimit
    decide
  have position : (run StormConfig.standard newYear).2 =
      (run StormConfig.standard newYear).2.take 2 ++
        ⟨portDown "a" none (Instant.ofNanos 1483228800000000000), .deliver⟩ ::
          (run StormConfig.standard newYear).2.drop 3 := by rfl
  have third := claim StormConfig.standard newYear ordered one _ _ _ position
  revert third
  decide

end Gates

end AlertAdmission
