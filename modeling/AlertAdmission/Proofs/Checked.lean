import AlertAdmission.ChannelQueues
import AlertAdmission.Proofs.Time.Range
import AlertAdmission.Storm
import AlertAdmission.Throttle.Report

/-!
No time arithmetic leaves its range in years of four digits.

Each operation that reads the clock has a checked form, in which every length of a window, sum and
difference is worked out by an operation that has no result outside of its range. The checked form
has no result just where the operation reaches an instant without a date, and else it does what the
operation does. In years of four digits nothing is reached that has no date, whatever the lengths in
seconds that are configured, for windows are cut; and stored instants are earlier readings of the
clock (`Components.Stores`), whether or not the clock goes back. So no run leaves the range
(`Components.runChecked_eq`).
-/

namespace AlertAdmission

variable {P : Instant → Prop} {now : Instant}

/-! ### Windows -/

def RateLimit.windowChecked (limit : RateLimit) : Option Span :=
  windowLengthChecked limit.periodSeconds.toNat

def StormConfig.windowChecked (c : StormConfig) : Option Span :=
  windowLengthChecked c.windowSeconds.toNat

def StormConfig.cooldownChecked (c : StormConfig) : Option Span :=
  windowLengthChecked c.cooldownSeconds.toNat

theorem RateLimit.windowChecked_eq (limit : RateLimit) :
    limit.windowChecked = some limit.window := windowLengthChecked_eq _

theorem StormConfig.windowChecked_eq (c : StormConfig) :
    c.windowChecked = some c.window := windowLengthChecked_eq _

theorem StormConfig.cooldownChecked_eq (c : StormConfig) :
    c.cooldownChecked = some c.cooldown := windowLengthChecked_eq _

/-! ### Groups and rules -/

namespace GroupWindow

def compactChecked (w : GroupWindow) (now : Instant) (window : Span) : Option GroupWindow := do
  let elapsed ← now.sinceChecked w.lastCleanup
  if elapsed < window / 2 then return w
  else
    let cutoff ← now.subChecked window
    return { w with recent := w.recent.keepAfter cutoff, lastCleanup := now }

def offerChecked (w : GroupWindow) (capacity : Nat) (window : Span) (now : Instant) :
    Option (GroupWindow × Option Nat) := do
  let ready ← (w.resize capacity).compactChecked now window
  let cutoff ← now.subChecked window
  let current := ready.countSince cutoff
  return if current < capacity then (ready.push now, none) else (ready.suppress, some current)

variable {w : GroupWindow} {window : Span}

theorem compactChecked_eq (cleaned : w.lastCleanup.isDated) (dated : now.isDated)
    (begins : (now - window).isDated) :
    w.compactChecked now window = some (w.compact now window) := by
  rw [compactChecked, Instant.sinceChecked_eq dated cleaned, compact]
  simp only [Option.bind_eq_bind, Option.bind_some, Instant.subChecked,
    Instant.dated?_of_isDated begins]
  split <;> rfl

theorem offerChecked_eq (cleaned : w.lastCleanup.isDated) (dated : now.isDated)
    (begins : (now - window).isDated) (capacity : Nat) :
    w.offerChecked capacity window now = some (w.offer capacity window now) := by
  have ready : (w.resize capacity).compactChecked now window =
      some (w.prepare capacity window now) := compactChecked_eq cleaned dated begins
  rw [offerChecked, ready]
  simp only [Option.bind_eq_bind, Option.bind_some, Instant.subChecked,
    Instant.dated?_of_isDated begins]
  rfl

theorem offerChecked_eq_none (outside : ¬ (now - window).isDated) (w : GroupWindow)
    (capacity : Nat) : w.offerChecked capacity window now = none := by
  simp only [offerChecked, Option.bind_eq_bind, Instant.subChecked, Instant.dated?,
    if_neg outside, Option.bind_none, Option.bind_fun_none]

theorem lastCleanup_offer (w : GroupWindow) (capacity : Nat) (window : Span) (now : Instant) :
    (w.offer capacity window now).1.lastCleanup = w.lastCleanup ∨
      (w.offer capacity window now).1.lastCleanup = now := by
  have prepared : (w.prepare capacity window now).lastCleanup = w.lastCleanup ∨
      (w.prepare capacity window now).lastCleanup = now := by
    unfold prepare compact
    split
    · exact .inl rfl
    · exact .inr rfl
  unfold offer
  dsimp only
  split <;> exact prepared

end GroupWindow

namespace RuleState

def sweepChecked (s : RuleState) (now : Instant) (window : Span) : Option RuleState := do
  let elapsed ← now.sinceChecked s.lastSweep
  if elapsed < window then return s
  else
    let cutoff ← now.subChecked window
    return { s with groups := s.groups.filter fun _ w => !w.isIdle cutoff, lastSweep := now }

def offerChecked (s : RuleState) (key : String) (limit : RateLimit) (now : Instant) :
    Option (RuleState × ThrottleDecision) := do
  let window ← limit.windowChecked
  let swept ← { s with limit := limit }.sweepChecked now window
  let (w, full) ← (swept.group key limit.capacity now).offerChecked limit.capacity window now
  let decision := match full with
    | none => .allowed
    | some current => .denied limit.maxAlerts limit.periodSeconds current
  return ({ swept with groups := swept.groups.insert key w }, decision)

def summaryChecked (s : RuleState) (name : String) (now : Instant) : Option RuleSummary := do
  let window ← s.limit.windowChecked
  let windowStart ← now.subChecked window
  let groups := (s.groups.map fun key w => w.summary key windowStart).values
  return { s.summary name now with
    totalAllowed := total (groups.map GroupSummary.allowed)
    totalSuppressed := total (groups.map GroupSummary.suppressed)
    groups := groups }

def statusChecked (s : RuleState) (name : String) (now : Instant) : Option RuleStatus := do
  let window ← s.limit.windowChecked
  let windowStart ← now.subChecked window
  let groups := (s.groups.map fun key w => w.status key s.limit.capacity windowStart now).values
  return { s.status name now with
    isThrottled := groups.any GroupStatus.isThrottled
    suppressed := total (groups.map GroupStatus.suppressed)
    windowStart := windowStart
    groups := groups }

/-- What is required of every instant that a rule goes back to. -/
structure Stores (P : Instant → Prop) (s : RuleState) : Prop where
  swept : P s.lastSweep
  cleaned : ∀ key w, s.groups.get? key = some w → P w.lastCleanup

variable {s : RuleState}

theorem stores_fresh (limit : RateLimit) (reading : P now) : (fresh limit now).Stores P where
  swept := reading
  cleaned := by
    intro key w found
    cases found

theorem Stores.sweep (h : s.Stores P) (reading : P now) (window : Span) :
    (s.sweep now window).Stores P := by
  unfold RuleState.sweep
  split
  · exact h
  · refine ⟨reading, fun key w found => ?_⟩
    rw [Table.get?_filter] at found
    exact h.cleaned key w (Option.filter_eq_some_iff.mp found).1

theorem Stores.group (h : s.Stores P) (reading : P now) (key : String) (capacity : Nat) :
    P (s.group key capacity now).lastCleanup := by
  unfold RuleState.group
  cases found : s.groups.get? key with
  | none => exact reading
  | some w => exact h.cleaned key w found

theorem Stores.offer (h : s.Stores P) (reading : P now) (key : String) (limit : RateLimit) :
    (s.offer key limit now).1.Stores P := by
  have limited : RuleState.Stores P { s with limit := limit } := ⟨h.swept, h.cleaned⟩
  have swept := limited.sweep reading limit.window
  have own := swept.group reading key limit.capacity
  refine ⟨swept.swept, fun other w found => ?_⟩
  unfold RuleState.offer at found
  dsimp only at found
  rw [Table.get?_insert] at found
  split at found
  · cases found
    rcases GroupWindow.lastCleanup_offer _ limit.capacity limit.window now with kept | cleaned
    · rw [kept]
      exact own
    · rw [cleaned]
      exact reading
  · exact swept.cleaned other w found

theorem sweepChecked_eq {window : Span} (swept : s.lastSweep.isDated) (dated : now.isDated)
    (begins : (now - window).isDated) : s.sweepChecked now window = some (s.sweep now window) := by
  rw [sweepChecked, Instant.sinceChecked_eq dated swept, sweep]
  simp only [Option.bind_eq_bind, Option.bind_some, Instant.subChecked,
    Instant.dated?_of_isDated begins]
  split <;> rfl

theorem offerChecked_eq (h : s.Stores (·.isDated)) (dated : now.isDated) (key : String)
    {limit : RateLimit} (begins : (now - limit.window).isDated) :
    s.offerChecked key limit now = some (s.offer key limit now) := by
  have limited : RuleState.Stores (·.isDated) { s with limit := limit } := ⟨h.swept, h.cleaned⟩
  have swept := limited.sweep dated limit.window
  have group := GroupWindow.offerChecked_eq (swept.group dated key limit.capacity) dated begins
    limit.capacity
  rw [offerChecked, RateLimit.windowChecked_eq]
  simp only [Option.bind_eq_bind, Option.bind_some]
  rw [sweepChecked_eq limited.swept dated begins, Option.bind_some, group]
  rfl

theorem offerChecked_eq_none {limit : RateLimit} (outside : ¬ (now - limit.window).isDated)
    (s : RuleState) (key : String) : s.offerChecked key limit now = none := by
  rw [offerChecked, RateLimit.windowChecked_eq]
  simp only [Option.bind_eq_bind, Option.bind_some, GroupWindow.offerChecked_eq_none outside,
    Option.bind_none, Option.bind_fun_none]

theorem summaryChecked_eq (begins : (now - s.limit.window).isDated) (name : String) :
    s.summaryChecked name now = some (s.summary name now) := by
  rw [summaryChecked, RateLimit.windowChecked_eq]
  simp only [Option.bind_eq_bind, Option.bind_some, Instant.subChecked,
    Instant.dated?_of_isDated begins]
  rfl

theorem statusChecked_eq (begins : (now - s.limit.window).isDated) (name : String) :
    s.statusChecked name now = some (s.status name now) := by
  rw [statusChecked, RateLimit.windowChecked_eq]
  simp only [Option.bind_eq_bind, Option.bind_some, Instant.subChecked,
    Instant.dated?_of_isDated begins]
  rfl

end RuleState

namespace Throttle

def allowChecked (t : Throttle) (name : String) (fields : Json) (limit : RateLimit)
    (now : Instant) : Option (Throttle × ThrottleDecision) :=
  if limit.isEnabled then do
    let (s, decision) ←
      (t.rule name limit now).offerChecked (Grouping.groupKey limit.groupBy fields) limit now
    return (t.insert name s, decision)
  else some (t, .allowed)

def summaryChecked (t : Throttle) (name : String) (now : Instant) : Option (Option RuleSummary) :=
  match t.get? name with
  | none => some none
  | some s => (s.summaryChecked name now).map some

/-- The status of one rule, or of all rules where none is named. -/
def statusOn (t : Throttle) (name : Option String) (now : Instant) : List RuleStatus :=
  match name with
  | some name => t.statusOf name now
  | none => t.statuses now

def statusOnChecked (t : Throttle) (name : Option String) (now : Instant) :
    Option (List RuleStatus) :=
  match name with
  | some name =>
    match t.get? name with
    | none => some []
    | some s => (s.statusChecked name now).map fun status => [status]
  | none => t.toList.mapM fun rule => rule.2.statusChecked rule.1 now

/-- What is required of every instant that the rules go back to. -/
def Stores (P : Instant → Prop) (t : Throttle) : Prop :=
  ∀ name s, t.get? name = some s → s.Stores P

variable {t : Throttle}

theorem Stores.mono {Q : Instant → Prop} (h : t.Stores P) (weaker : ∀ u, P u → Q u) :
    t.Stores Q := by
  intro name s found
  obtain ⟨swept, cleaned⟩ := h name s found
  exact ⟨weaker _ swept, fun key w there => weaker _ (cleaned key w there)⟩

theorem Stores.rule (h : t.Stores P) (reading : P now) (name : String) (limit : RateLimit) :
    (t.rule name limit now).Stores P := by
  unfold Throttle.rule
  cases found : t.get? name with
  | none => exact RuleState.stores_fresh limit reading
  | some s => exact h name s found

theorem Stores.allow (h : t.Stores P) (reading : P now) (name : String) (fields : Json)
    (limit : RateLimit) : (t.allow name fields limit now).1.Stores P := by
  unfold Throttle.allow
  split
  · intro other s found
    dsimp only at found
    rw [Table.get?_insert] at found
    split at found
    · cases found
      exact (h.rule reading name limit).offer reading _ limit
    · exact h other s found
  · exact h

theorem allowChecked_eq (h : t.Stores (·.isDated)) (dated : now.isDated) (name : String)
    (fields : Json) (limit : RateLimit) : t.allowChecked name fields limit now =
      if (limit.reach now).all Instant.isDated then some (t.allow name fields limit now)
      else none := by
  unfold allowChecked allow RateLimit.reach
  by_cases enabled : limit.isEnabled
  · simp only [if_pos enabled, List.all_cons, List.all_nil, Bool.and_true]
    split
    · next begins =>
      rw [RuleState.offerChecked_eq (h.rule dated name limit) dated _ begins]
      rfl
    · next outside =>
      rw [RuleState.offerChecked_eq_none outside]
      rfl
  · simp only [if_neg enabled, List.all_nil, if_true]

theorem summaryChecked_eq (begins : ∀ limit : RateLimit, (now - limit.window).isDated)
    (t : Throttle) (name : String) : t.summaryChecked name now = some (t.summary? name now) := by
  unfold summaryChecked summary?
  cases t.get? name with
  | none => rfl
  | some s =>
    dsimp only
    rw [RuleState.summaryChecked_eq (begins s.limit)]
    rfl

theorem statusOnChecked_eq (begins : ∀ limit : RateLimit, (now - limit.window).isDated)
    (t : Throttle) (name : Option String) :
    t.statusOnChecked name now = some (t.statusOn name now) := by
  have single (s : RuleState) := s.statusChecked_eq (begins s.limit)
  cases name with
  | some name =>
    unfold statusOnChecked statusOn statusOf
    dsimp only
    cases t.get? name with
    | none => rfl
    | some s =>
      dsimp only
      rw [single]
      rfl
  | none =>
    have listed : (t.toList.mapM fun rule => rule.2.statusChecked rule.1 now) =
        some (t.toList.map fun rule => rule.2.status rule.1 now) := by
      simp only [single]
      exact List.mapM_pure
    simp only [statusOnChecked, statusOn, statuses, listed, Table.values, Table.map, List.map_map]
    rfl

end Throttle

/-! ### Storms and notifications -/

namespace Storm

def isRagingChecked (s : Storm) (c : StormConfig) (now : Instant) : Option Bool :=
  match s.startedAt with
  | none => some false
  | some start => do
    let cooldown ← c.cooldownChecked
    let finish ← start.addChecked cooldown
    return now < finish

def recordChecked (s : Storm) (c : StormConfig) (now : Instant) : Option (Storm × Bool) := do
  let window ← c.windowChecked
  let cutoff ← now.subChecked window
  let pruned := s.prune cutoff
  let raging ← pruned.isRagingChecked c now
  return if raging then ({ pruned with swallowed := pruned.swallowed + 1 }, false)
    else pruned.count c now

/-- A storm that should have ended has none of its cooldown left. -/
def cooldownRemainingChecked (s : Storm) (c : StormConfig) (now : Instant) : Option Duration :=
  match s.startedAt with
  | none => some 0
  | some start => do
    let cooldown ← c.cooldownChecked
    let finish ← start.addChecked cooldown
    let left ← finish.sinceChecked now
    return left.toNat

def statusChecked (s : Storm) (c : StormConfig) (now : Instant) : Option StormStatus := do
  let window ← c.windowChecked
  let cutoff ← now.subChecked window
  let remaining ← s.cooldownRemainingChecked c now
  return { s.status c now with
    currentRate := rate c (s.counted.filter fun t => cutoff < t).length
    cooldownRemaining := remaining }

/-- The end of the storm, if there is one, has a date. -/
def endsDated (s : Storm) (c : StormConfig) : Bool :=
  s.startedAt.all fun (start : Instant) => (start + c.cooldown).isDated

theorem all_reach (s : Storm) (c : StormConfig) (now : Instant) :
    (s.reach c now).all Instant.isDated = ((now - c.window).isDated && s.endsDated c) := by
  unfold reach endsDated
  cases s.startedAt <;> simp

/-- What starts with the cutoff of the window and then needs the end of the storm has a result just
where both have a date. -/
theorem bind_cutoff_eq {α : Type} {s : Storm} {c : StormConfig} {rest : Instant → Option α}
    {value : α} (h : rest (now - c.window) = if s.endsDated c then some value else none) :
    (now.subChecked c.window).bind rest =
      if (s.reach c now).all Instant.isDated then some value else none := by
  unfold Instant.subChecked Instant.dated?
  rw [all_reach]
  by_cases begins : (now - c.window).isDated
  · rw [if_pos begins, begins, Bool.true_and, Option.bind_some, h]
  · rw [if_neg begins, Bool.eq_false_of_not_eq_true begins]
    rfl

theorem isRagingChecked_eq (s : Storm) (c : StormConfig) (now : Instant) :
    s.isRagingChecked c now = if s.endsDated c then some (s.isRaging c now) else none := by
  unfold isRagingChecked isRaging endsDated
  cases started : s.startedAt with
  | none => simp
  | some start =>
    simp only [StormConfig.cooldownChecked_eq, Option.bind_eq_bind,
      Option.bind_some, Instant.addChecked, Instant.dated?, Option.all_some]
    split <;> rfl

theorem cooldownRemainingChecked_eq (s : Storm) (c : StormConfig) (dated : now.isDated) :
    s.cooldownRemainingChecked c now =
      if s.endsDated c then some (s.cooldownRemaining c now) else none := by
  unfold cooldownRemainingChecked cooldownRemaining endsDated
  cases started : s.startedAt with
  | none => simp
  | some start =>
    simp only [StormConfig.cooldownChecked_eq, Option.bind_eq_bind,
      Option.bind_some, Instant.addChecked, Instant.dated?, Option.all_some]
    split
    · next ends =>
      rw [Option.bind_some, Instant.sinceChecked_eq ends dated]
      rfl
    · rfl

theorem recordChecked_eq (s : Storm) (c : StormConfig) (now : Instant) :
    s.recordChecked c now =
      if (s.reach c now).all Instant.isDated then some (s.record c now) else none := by
  have raging : (s.prune (now - c.window)).isRagingChecked c now =
      if s.endsDated c then some ((s.prune (now - c.window)).isRaging c now) else none :=
    isRagingChecked_eq _ c now
  simp only [recordChecked, StormConfig.windowChecked_eq, Option.bind_eq_bind, Option.bind_some]
  apply bind_cutoff_eq
  rw [raging]
  split <;> rfl

theorem statusChecked_eq (s : Storm) (c : StormConfig) (dated : now.isDated) :
    s.statusChecked c now =
      if (s.reach c now).all Instant.isDated then some (s.status c now) else none := by
  simp only [statusChecked, StormConfig.windowChecked_eq, Option.bind_eq_bind, Option.bind_some]
  apply bind_cutoff_eq
  rw [s.cooldownRemainingChecked_eq c dated]
  split <;> rfl

end Storm

def Notification.stampChecked (n : Notification) (now : Instant) : Option Notification := do
  let lifetime ← Span.fit? lifetime
  let expiry ← now.addChecked lifetime
  return { n with queuedAt := now, expiresAt := expiry }

theorem Notification.stampChecked_eq (n : Notification) (now : Instant) :
    n.stampChecked now =
      if (n.stamp now).expiresAt.isDated then some (n.stamp now) else none := by
  have fits : Span.Fits lifetime := by decide
  have expiry : (n.stamp now).expiresAt = now + lifetime := rfl
  rw [stampChecked, Span.fit?_of_fits fits, expiry]
  simp only [Option.bind_eq_bind, Option.bind_some, Instant.addChecked, Instant.dated?]
  split <;> rfl

def ChannelQueues.enqueueChecked (queues : ChannelQueues) (capacity : Nat) (n : Notification)
    (now : Instant) : Option (ChannelQueues × Except Fault Unit) :=
  let queue := queues.ofChannel n.channel
  if capacity ≤ queue.length then
    some (queues.insert n.channel queue, .error (.queueFull n.channel capacity))
  else do
    let stamped ← n.stampChecked now
    return (queues.insert n.channel (queue ++ [stamped]), .ok ())

theorem ChannelQueues.enqueueChecked_eq (queues : ChannelQueues) (capacity : Nat)
    (n : Notification) (now : Instant) : queues.enqueueChecked capacity n now =
      if (queues.reach capacity n now).all Instant.isDated
      then some (queues.enqueue capacity n now) else none := by
  unfold enqueueChecked enqueue reach count
  by_cases full : capacity ≤ (queues.ofChannel n.channel).length
  · simp only [if_pos full, List.all_nil, if_true]
  · simp only [if_neg full, List.all_cons, List.all_nil, Bool.and_true, n.stampChecked_eq now]
    split <;> rfl

/-! ### Years of four digits -/

namespace Instant.InFourDigitYear

theorem isDated_sub_window (year : now.InFourDigitYear) (seconds : Nat) :
    (now - windowLength seconds).isDated :=
  year.isDated_sub (windowLength_nonneg seconds) (windowLength_le seconds)

theorem isDated_reach (year : now.InFourDigitYear) (limit : RateLimit) :
    (limit.reach now).all Instant.isDated := by
  unfold RateLimit.reach
  split
  · have begins : (now - limit.window).isDated := year.isDated_sub_window _
    simp [begins]
  · rfl

theorem isDated_storm_reach (year : now.InFourDigitYear) {s : Storm}
    (h : ∀ start ∈ s.startedAt, start.InFourDigitYear) (c : StormConfig) :
    (s.reach c now).all Instant.isDated := by
  rw [Storm.all_reach, Bool.and_eq_true, Storm.endsDated, Option.all_eq_true]
  refine ⟨year.isDated_sub_window _, fun start started => ?_⟩
  exact (h start started).isDated_add (windowLength_nonneg _) (windowLength_le _)

theorem isDated_queue_reach (year : now.InFourDigitYear) (queues : ChannelQueues)
    (capacity : Nat) (n : Notification) : (queues.reach capacity n now).all Instant.isDated := by
  unfold ChannelQueues.reach
  split
  · rfl
  · have expires : (now + Notification.lifetime).isDated :=
      year.isDated_add (by decide) (by decide)
    simpa [Notification.stamp] using expires

end Instant.InFourDigitYear

/-! ### Runs -/

inductive TimedOperation where
  | allow (rule : String) (fields : Json) (limit : RateLimit)
  | summary (rule : String)
  /-- The status of one rule or of all of them. -/
  | status (rule : Option String)
  | record
  | stormStatus
  | enqueue (n : Notification)

inductive TimedAnswer where
  | decision (decision : ThrottleDecision)
  | summary (summary : Option RuleSummary)
  | status (statuses : List RuleStatus)
  | recorded (mayProceed : Bool)
  | stormStatus (status : StormStatus)
  | enqueued (result : Except Fault Unit)

structure Components where
  throttle : Throttle
  storm : Storm
  queues : ChannelQueues

namespace Components

def fresh : Components := ⟨Throttle.empty, Storm.calm, ChannelQueues.empty⟩

/-- The components after an operation for which the clock reads `now`, and its answer. -/
def perform (c : StormConfig) (capacity : Nat) (now : Instant) (state : Components) :
    TimedOperation → Components × TimedAnswer
  | .allow rule fields limit =>
    let (throttle, decision) := state.throttle.allow rule fields limit now
    ({ state with throttle := throttle }, .decision decision)
  | .summary rule => (state, .summary (state.throttle.summary? rule now))
  | .status rule => (state, .status (state.throttle.statusOn rule now))
  | .record =>
    let (storm, mayProceed) := state.storm.record c now
    ({ state with storm := storm }, .recorded mayProceed)
  | .stormStatus => (state, .stormStatus (state.storm.status c now))
  | .enqueue n =>
    let (queues, result) := state.queues.enqueue capacity n now
    ({ state with queues := queues }, .enqueued result)

def performChecked (c : StormConfig) (capacity : Nat) (now : Instant) (state : Components) :
    TimedOperation → Option (Components × TimedAnswer)
  | .allow rule fields limit => do
    let (throttle, decision) ← state.throttle.allowChecked rule fields limit now
    return ({ state with throttle := throttle }, .decision decision)
  | .summary rule => do
    let summary ← state.throttle.summaryChecked rule now
    return (state, .summary summary)
  | .status rule => do
    let statuses ← state.throttle.statusOnChecked rule now
    return (state, .status statuses)
  | .record => do
    let (storm, mayProceed) ← state.storm.recordChecked c now
    return ({ state with storm := storm }, .recorded mayProceed)
  | .stormStatus => do
    let status ← state.storm.statusChecked c now
    return (state, .stormStatus status)
  | .enqueue n => do
    let (queues, result) ← state.queues.enqueueChecked capacity n now
    return ({ state with queues := queues }, .enqueued result)

/-- The components after operations, each with its reading of the clock, and their answers. -/
def run (c : StormConfig) (capacity : Nat) (state : Components) :
    List (TimedOperation × Instant) → Components × List TimedAnswer
  | [] => (state, [])
  | (operation, now) :: rest =>
    let (next, answer) := state.perform c capacity now operation
    let (last, answers) := next.run c capacity rest
    (last, answer :: answers)

def runChecked (c : StormConfig) (capacity : Nat) (state : Components) :
    List (TimedOperation × Instant) → Option (Components × List TimedAnswer)
  | [] => some (state, [])
  | (operation, now) :: rest => do
    let (next, answer) ← state.performChecked c capacity now operation
    let (last, answers) ← next.runChecked c capacity rest
    return (last, answer :: answers)

/-- What is required of every stored instant that an operation works with. -/
structure Stores (P : Instant → Prop) (state : Components) : Prop where
  throttle : state.throttle.Stores P
  storm : ∀ start ∈ state.storm.startedAt, P start

variable {state : Components}

theorem stores_fresh (P : Instant → Prop) : fresh.Stores P where
  throttle := by
    intro name s found
    cases found
  storm := by
    intro start started
    cases started

/-- What holds of all readings of the clock holds of all instants that are stored. -/
theorem Stores.perform (h : state.Stores P) (reading : P now) (c : StormConfig) (capacity : Nat)
    (operation : TimedOperation) : (state.perform c capacity now operation).1.Stores P := by
  cases operation with
  | allow rule fields limit => exact ⟨h.throttle.allow reading rule fields limit, h.storm⟩
  | summary rule => exact h
  | status rule => exact h
  | record =>
    refine ⟨h.throttle, fun start started => ?_⟩
    rcases Storm.startedAt_record started with before | rfl
    · exact h.storm start before
    · exact reading
  | stormStatus => exact h
  | enqueue n => exact ⟨h.throttle, h.storm⟩

theorem performChecked_eq (h : state.Stores Instant.InFourDigitYear) (year : now.InFourDigitYear)
    (c : StormConfig) (capacity : Nat) (operation : TimedOperation) :
    state.performChecked c capacity now operation =
      some (state.perform c capacity now operation) := by
  have begins (limit : RateLimit) : (now - limit.window).isDated := year.isDated_sub_window _
  have storm := year.isDated_storm_reach h.storm c
  cases operation with
  | allow rule fields limit =>
    have stored : state.throttle.Stores (·.isDated) :=
      h.throttle.mono fun _ reading => reading.isDated
    rw [performChecked, Throttle.allowChecked_eq stored year.isDated,
      if_pos (year.isDated_reach limit)]
    rfl
  | summary rule =>
    rw [performChecked, Throttle.summaryChecked_eq begins]
    rfl
  | status rule =>
    rw [performChecked, Throttle.statusOnChecked_eq begins]
    rfl
  | record =>
    rw [performChecked, Storm.recordChecked_eq, if_pos storm]
    rfl
  | stormStatus =>
    rw [performChecked, Storm.statusChecked_eq _ c year.isDated, if_pos storm]
    rfl
  | enqueue n =>
    rw [performChecked, ChannelQueues.enqueueChecked_eq,
      if_pos (year.isDated_queue_reach state.queues capacity n)]
    rfl

theorem runChecked_of_stores (h : state.Stores Instant.InFourDigitYear) (c : StormConfig)
    (capacity : Nat) (steps : List (TimedOperation × Instant))
    (years : ∀ step ∈ steps, step.2.InFourDigitYear) :
    state.runChecked c capacity steps = some (state.run c capacity steps) := by
  -- By induction on the run, for every state in which stored instants are in such years.
  induction steps generalizing state with
  | nil => rfl
  | cons step rest ih =>
    obtain ⟨operation, now⟩ := step
    have year : now.InFourDigitYear := years (operation, now) List.mem_cons_self
    have later := ih (h.perform year c capacity operation)
      fun step member => years step (List.mem_cons_of_mem _ member)
    rw [runChecked, performChecked_eq h year]
    simp only [Option.bind_eq_bind, Option.bind_some]
    rw [later]
    rfl

/-- Whatever the lengths in seconds of limits, storms and cooldowns, and in whatever order the clock
reads instants in years of four digits: no operation leaves the range of spans and of dates. -/
theorem runChecked_eq (c : StormConfig) (capacity : Nat) (steps : List (TimedOperation × Instant))
    (years : ∀ step ∈ steps, step.2.InFourDigitYear) :
    fresh.runChecked c capacity steps = some (fresh.run c capacity steps) :=
  runChecked_of_stores (stores_fresh _) c capacity steps years

/-- A storm at the first alert, over a window and with a cooldown as long as a word can say. -/
def endlessStorm : StormConfig := ⟨0, 0xffffffffffffffff, 0xffffffffffffffff⟩

def firstReading : Instant := Instant.ofNanos (startOfDay (Date.toDays ⟨0, 1, 1⟩))

/-- The last nanosecond of a leap second at the end of the year 9999. -/
def lastReading : Instant := ⟨startOfDay (Date.toDays ⟨10000, 1, 1⟩) - 1, true⟩

/-- Every operation at both ends of the years, the clock going ahead and back. -/
def throughAllYears : List (TimedOperation × Instant) :=
  let call := TimedOperation.allow "link" .null ⟨1, 0xffffffffffffffff, none⟩
  let queued := TimedOperation.enqueue (Notification.unqueued "mail" "1" "" "" .info "" .null)
  [(call, firstReading), (call, lastReading), (call, firstReading), (.summary "link", firstReading),
    (.status (some "link"), lastReading), (.status none, firstReading), (.record, lastReading),
    (.stormStatus, firstReading), (.record, firstReading), (queued, lastReading)]

theorem runChecked_throughAllYears :
    (∀ step ∈ throughAllYears, step.2.InFourDigitYear) ∧
    fresh.runChecked endlessStorm 1 throughAllYears =
      some (fresh.run endlessStorm 1 throughAllYears) ∧
    (firstReading - windowLength 0xffffffffffffffff).year = -100 ∧
    (lastReading + endlessStorm.cooldown).year = 10099 := by
  have years : ∀ step ∈ throughAllYears, step.2.InFourDigitYear := by decide +kernel
  exact ⟨years, runChecked_eq endlessStorm 1 throughAllYears years, by decide +kernel,
    by decide +kernel⟩

/-- At the first instant that has a date there is no window behind an alert. -/
example : (fresh.runChecked endlessStorm 1 [(.record, Instant.earliest)]).isNone := by
  decide +kernel

end Components

end AlertAdmission
