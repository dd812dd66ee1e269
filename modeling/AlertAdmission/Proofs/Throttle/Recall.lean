import AlertAdmission.Proofs.Throttle.Exact

/-!
What a throttle remembers of a group while limits change.

A group has as many slots as the limit of its last call counts. An alert that is allowed is
remembered; one that is denied leaves only as many of the last allowed alerts as its limit counts
(`ThrottleLog.recalled`), and a higher limit later does not bring the others back. Compaction,
overwriting and the dropping of idle groups lose nothing else that the window of a later call
reaches, as long as what has left a window of the rule stays out of the windows of the group
(`ThrottleLog.Trails`).
-/

namespace AlertAdmission

open Instant (Trims)

/-! ### One group -/

namespace GroupWindow

variable {w : GroupWindow} {capacity : Nat} {window : Span} {now : Instant}

theorem toList_prepare (pos : 0 < capacity) (w : GroupWindow) (window : Span) (now : Instant) :
    (w.prepare capacity window now).recent.toList = w.recent.toList.rtake capacity ∨
      (w.prepare capacity window now).recent.toList =
        (w.recent.toList.rtake capacity).filter fun t => now - window < t := by
  have fits : (w.resize capacity).recent.toList = w.recent.toList.rtake capacity := by
    rw [resize, Ring.toList_resize, Ring.slotCount_of_pos pos]
    rfl
  unfold prepare compact
  split
  · exact .inl fits
  · exact .inr (by rw [Ring.toList_keepAfter, fits])

theorem capacity_prepare (pos : 0 < capacity) (w : GroupWindow) (window : Span) (now : Instant) :
    (w.prepare capacity window now).recent.capacity = capacity := by
  have slots : (w.resize capacity).recent.capacity = capacity := by
    rw [resize, Ring.capacity_resize, Ring.slotCount_of_pos pos]
  unfold prepare compact
  split <;> exact slots

theorem countSince_prepare (pos : 0 < capacity) (ordered : w.recent.toList.Pairwise (· ≤ ·))
    (window : Span) (now : Instant) :
    (w.prepare capacity window now).countSince (now - window) =
      min capacity (w.recent.toList.filter fun t => now - window < t).length := by
  have count := Instant.length_filter_rtake ordered capacity (now - window)
  unfold countSince entriesSince
  rcases toList_prepare pos w window now with same | compacted
  · rw [same, count]
  · rw [compacted, List.filter_filter]
    simpa only [Bool.and_self] using count

theorem trims_prepare (pos : 0 < capacity) (ordered : w.recent.toList.Pairwise (· ≤ ·))
    (room : (w.recent.toList.filter fun t => now - window < t).length < capacity) :
    Trims [now - window] w.recent.toList (w.prepare capacity window now).recent.toList := by
  have resized := Instant.trims_rtake ordered room
  rcases toList_prepare pos w window now with same | compacted
  · rwa [same]
  · rw [compacted]
    exact resized.trans (Instant.trims_filter (ordered.sublist resized.suffix.sublist) _)

/-- With room for one more the alert is allowed, and what the group lets go of has left the
window. -/
theorem offer_of_room (pos : 0 < capacity) (ordered : w.recent.toList.Pairwise (· ≤ ·))
    (room : (w.recent.toList.filter fun t => now - window < t).length < capacity) :
    (w.offer capacity window now).2 = none ∧
      ∃ kept, (w.offer capacity window now).1.recent.toList = kept ++ [now] ∧
        Trims [now - window] w.recent.toList kept := by
  have count := countSince_prepare pos ordered window now
  have ready := trims_prepare pos ordered room
  have slots := capacity_prepare pos w window now
  rw [Nat.min_eq_right (Nat.le_of_lt room)] at count
  unfold offer
  simp only [count, if_pos room, true_and]
  generalize w.prepare capacity window now = prepared at *
  by_cases free : prepared.recent.size < prepared.recent.capacity
  · exact ⟨_, Ring.toList_push_of_room prepared.recent now free, ready⟩
  · -- a full ring overwrites its first entry, which has left the window: not all are in it
    have full : prepared.recent.size = prepared.recent.capacity :=
      Nat.le_antisymm prepared.recent.size_le (Nat.le_of_not_lt free)
    have reached : prepared.countSince (now - window) < prepared.recent.toList.length := by
      rw [Ring.length_toList, full, slots, count]
      exact room
    have overwritten := Instant.trims_tail (ordered.sublist ready.suffix.sublist) reached
    exact ⟨_, Ring.toList_push_of_full prepared.recent now full, ready.trans overwritten⟩

/-- Once the window is full the alert is denied, and the group keeps the last entries that its limit
counts. -/
theorem offer_of_full (pos : 0 < capacity) (ordered : w.recent.toList.Pairwise (· ≤ ·))
    (full : capacity ≤ (w.recent.toList.filter fun t => now - window < t).length) :
    (w.offer capacity window now).2 = some capacity ∧
      (w.offer capacity window now).1.recent.toList = w.recent.toList.rtake capacity := by
  have count := countSince_prepare pos ordered window now
  rw [Nat.min_eq_left full] at count
  have kept : (w.prepare capacity window now).recent.toList = w.recent.toList.rtake capacity := by
    rcases toList_prepare pos w window now with same | compacted
    · exact same
    · -- all entries that fit are in the window, so compaction drops none of them
      have inWindow := Instant.length_filter_rtake ordered capacity (now - window)
      have size := Instant.length_rtake w.recent.toList capacity
      have most := List.length_filter_le (fun t => decide (now - window < t)) w.recent.toList
      rw [compacted]
      exact List.filter_sublist.eq_of_length_le (by omega)
  unfold offer
  simp only [count, Nat.lt_irrefl, if_false, true_and]
  exact kept

theorem reached_of_isIdle {cutoff : Instant} (idle : w.isIdle cutoff = true) :
    ∀ t ∈ w.recent.toList, t ≤ cutoff := by
  simp only [isIdle, countSince, entriesSince, Bool.and_eq_true, beq_iff_eq,
    List.length_eq_zero_iff, List.filter_eq_nil_iff, decide_eq_true_eq, Instant.not_lt] at idle
  exact idle.2

end GroupWindow

/-! ### The groups of a rule -/

namespace RuleState

def entries (s : RuleState) (group : String) : List Instant :=
  ((s.groups.get? group).map fun w => w.recent.toList).getD []

variable {s : RuleState} {limit : RateLimit} {now : Instant} {key : String}

theorem toList_group (s : RuleState) (key : String) (capacity : Nat) (now : Instant) :
    (s.group key capacity now).recent.toList = s.entries key := by
  unfold group entries
  cases s.groups.get? key <;> rfl

theorem entries_insert (s : RuleState) (key : String) (w : GroupWindow) (group : String) :
    ({ s with groups := s.groups.insert key w } : RuleState).entries group =
      if group = key then w.recent.toList else s.entries group := by
  unfold entries
  rw [Table.get?_insert]
  split <;> rfl

/-- An idle group that is dropped has nothing that is still in the window. -/
theorem trims_sweep (s : RuleState) (now : Instant) (window : Span) (group : String) :
    Trims [now - window] (s.entries group) ((s.sweep now window).entries group) := by
  unfold sweep
  split
  · exact .refl _ _
  · unfold entries
    rw [Table.get?_filter]
    cases s.groups.get? group with
    | none => exact .refl _ _
    | some w =>
      cases idle : w.isIdle (now - window) with
      | false => simpa [Option.filter, idle] using Trims.refl _ _
      | true =>
        have reached := GroupWindow.reached_of_isIdle idle
        have gone : Trims [now - window] w.recent.toList [] :=
          ⟨_, (List.append_nil _).symm, fun t member =>
            ⟨_, List.mem_singleton_self _, reached t member⟩⟩
        simpa [Option.filter, idle] using gone

theorem trims_offer_other (s : RuleState) (limit : RateLimit) (now : Instant) {group : String}
    (different : group ≠ key) : Trims [now - limit.window] (s.entries group)
      ((s.offer key limit now).1.entries group) := by
  have swept := trims_sweep { s with limit := limit } now limit.window group
  unfold offer
  simp only [entries_insert, if_neg different]
  exact swept

theorem trims_ready (s : RuleState) (key : String) (limit : RateLimit) (now : Instant) :
    Trims [now - limit.window] (s.entries key)
      ((({ s with limit := limit } : RuleState).sweep now limit.window).group key limit.capacity
        now).recent.toList := by
  rw [toList_group]
  exact trims_sweep { s with limit := limit } now limit.window key

theorem offer_of_room (pos : 0 < limit.capacity) (ordered : (s.entries key).Pairwise (· ≤ ·))
    (room : ((s.entries key).filter fun t => now - limit.window < t).length < limit.capacity) :
    (s.offer key limit now).2 = .allowed ∧
      ∃ kept, (s.offer key limit now).1.entries key = kept ++ [now] ∧
        Trims [now - limit.window] (s.entries key) kept := by
  have swept := s.trims_ready key limit now
  have inWindow := swept.filter_self
  rw [← inWindow] at room
  obtain ⟨passes, kept, entries, trims⟩ :=
    GroupWindow.offer_of_room pos (ordered.sublist swept.suffix.sublist) room
  unfold offer
  simp only [entries_insert, if_true, passes]
  exact ⟨trivial, kept, entries, swept.trans trims⟩

theorem offer_of_full (pos : 0 < limit.capacity) (ordered : (s.entries key).Pairwise (· ≤ ·))
    (full : limit.capacity ≤ ((s.entries key).filter fun t => now - limit.window < t).length) :
    (s.offer key limit now).2 =
        .denied limit.maxAlerts limit.periodSeconds limit.capacity ∧
      (s.offer key limit now).1.entries key = (s.entries key).rtake limit.capacity := by
  have swept := s.trims_ready key limit now
  have inWindow := swept.filter_self
  rw [← inWindow] at full
  obtain ⟨stopped, entries⟩ :=
    GroupWindow.offer_of_full pos (ordered.sublist swept.suffix.sublist) full
  have enough := Nat.le_trans full (List.length_filter_le _ _)
  unfold offer
  simp only [entries_insert, if_true, stopped]
  exact ⟨trivial, entries.trans (Instant.rtake_of_suffix swept.suffix enough)⟩

theorem entries_of_recent {s' : RuleState} {group : String}
    (same : (s'.groups.get? group).map GroupWindow.recent =
      (s.groups.get? group).map GroupWindow.recent) : s'.entries group = s.entries group := by
  have lists : ∀ state : RuleState, state.entries group =
      (((state.groups.get? group).map GroupWindow.recent).map Ring.toList).getD [] := by
    intro state
    simp [entries, Function.comp_def]
  rw [lists, lists, same]

end RuleState

/-! ### What records leave -/

namespace ThrottleRecord

/-- What the limit counts under which an alert of a group was denied. -/
def deniedUnder? (rule group : String) : ThrottleRecord → Option Nat
  | .decided call (.denied _ _ _) =>
    if call.limit.isEnabled ∧ call.rule = rule ∧ call.group = group then some call.limit.capacity
    else none
  | _ => none

/-- What a group remembers after a record, from what it has remembered before. -/
def recalled (rule group : String) (memory : List Instant) (record : ThrottleRecord) :
    List Instant :=
  if record.drops rule then []
  else match record.deniedUnder? rule group with
    | some capacity => memory.rtake capacity
    | none => memory ++ (record.allowedAt? rule group).toList

theorem allowedAt?_of_deniedUnder? {record : ThrottleRecord} {rule group : String} {capacity : Nat}
    (h : record.deniedUnder? rule group = some capacity) :
    record.allowedAt? rule group = none := by
  cases record with
  | decided call decision =>
    cases decision with
    | allowed => simp [deniedUnder?] at h
    | denied maxAlerts periodSeconds current => rfl
  | reset other => rfl
  | cleaned active => rfl
  | countsReset other => rfl
  | offered event published => rfl

theorem eq_of_allowedAt? {record : ThrottleRecord} {rule group : String} {t : Instant}
    (h : record.allowedAt? rule group = some t) :
    ∃ call, record = .decided call .allowed ∧ call.limit.isEnabled ∧ call.rule = rule ∧
      call.group = group ∧ call.now = t := by
  unfold allowedAt? at h
  split at h
  · next call =>
    split at h
    · next own =>
      cases h
      exact ⟨call, rfl, own.1, own.2.1, own.2.2, rfl⟩
    · cases h
  · cases h

theorem deniedUnder?_of_other {record : ThrottleRecord} {rule : String}
    (other : ∀ call ∈ record.call?, call.rule ≠ rule) (group : String) :
    record.deniedUnder? rule group = none := by
  unfold deniedUnder?
  split
  · exact if_neg fun own => other _ (if_pos own.1) own.2.1
  · rfl

end ThrottleRecord

namespace ThrottleLog

/-- The instants of the allowed alerts that a group remembers. -/
def recalled (log : ThrottleLog) (rule group : String) : List Instant :=
  log.foldl (ThrottleRecord.recalled rule group) []

def cutoffs (log : ThrottleLog) (rule : String) : List Instant :=
  (log.calls.filter fun call => call.rule = rule).map ThrottleCall.cutoff

/-- A call that is made no earlier than those of its rule before it, and whose window does not reach
back to an alert of its group that had left one of theirs. -/
def Follows (log : ThrottleLog) (call : ThrottleCall) : Prop :=
  ∀ earlier ∈ log.calls, earlier.rule = call.rule → earlier.now ≤ call.now ∧
    ∀ t ∈ log.allowedSinceDrop call.rule call.group, t ≤ earlier.cutoff → t ≤ call.cutoff

instance (log : ThrottleLog) (call : ThrottleCall) : Decidable (log.Follows call) :=
  inferInstanceAs (Decidable (∀ earlier ∈ log.calls, _))

/-- The calls of a group follow those of its rule. -/
def Trails (log : ThrottleLog) (rule group : String) : Prop :=
  Justified (fun before record =>
    ∀ call ∈ record.call?, call.rule = rule ∧ call.group = group → Follows before call) log

variable {log : ThrottleLog} {record : ThrottleRecord} {rule group : String}

theorem recalled_snoc (log : ThrottleLog) (record : ThrottleRecord) (rule group : String) :
    recalled (log ++ [record]) rule group =
      record.recalled rule group (log.recalled rule group) := by
  rw [recalled, List.foldl_append]
  rfl

theorem recalled_of_silent (keeps : record.drops rule = false)
    (noDenial : record.deniedUnder? rule group = none)
    (noAlert : record.allowedAt? rule group = none) :
    recalled (log ++ [record]) rule group = log.recalled rule group := by
  simp [recalled_snoc, ThrottleRecord.recalled, keeps, noDenial, noAlert]

theorem recalled_allowed (log : ThrottleLog) {call : ThrottleCall} (enabled : call.limit.isEnabled) :
    recalled (log ++ [.decided call .allowed]) call.rule call.group =
      log.recalled call.rule call.group ++ [call.now] := by
  simp [recalled_snoc, ThrottleRecord.recalled, ThrottleRecord.drops, ThrottleRecord.deniedUnder?,
    ThrottleRecord.allowedAt?, enabled]

theorem recalled_denied (log : ThrottleLog) {call : ThrottleCall} (enabled : call.limit.isEnabled)
    (maxAlerts : UInt32) (periodSeconds : UInt64) (current : Nat) :
    recalled (log ++ [.decided call (.denied maxAlerts periodSeconds current)]) call.rule
      call.group = (log.recalled call.rule call.group).rtake call.limit.capacity := by
  simp [recalled_snoc, ThrottleRecord.recalled, ThrottleRecord.drops, ThrottleRecord.deniedUnder?,
    enabled]

theorem cutoffs_append (log more : ThrottleLog) (rule : String) :
    (log ++ more).cutoffs rule = log.cutoffs rule ++ more.cutoffs rule := by
  simp [cutoffs, calls_append]

theorem cutoffs_subset (log more : ThrottleLog) (rule : String) :
    log.cutoffs rule ⊆ (log ++ more).cutoffs rule := by
  rw [cutoffs_append]
  exact List.subset_append_left _ _

theorem cutoff_mem (log : ThrottleLog) {call : ThrottleCall} (enabled : call.limit.isEnabled)
    (decision : ThrottleDecision) :
    [call.cutoff] ⊆ cutoffs (log ++ [.decided call decision]) call.rule := by
  simp [cutoffs, calls_decided log enabled]

/-- A group remembers the last of its alerts that were allowed since its rule was dropped. -/
theorem recalled_suffix (log : ThrottleLog) (rule group : String) :
    log.recalled rule group <:+ log.allowedSinceDrop rule group := by
  induction log using List.reverseRecOn with
  | nil => exact List.suffix_rfl
  | append_singleton log last ih =>
    rw [recalled_snoc, allowedSinceDrop_snoc, ThrottleRecord.recalled]
    split
    · exact List.suffix_rfl
    · cases denied : last.deniedUnder? rule group with
      | none =>
        obtain ⟨forgotten, all⟩ := ih
        exact ⟨forgotten, by rw [← List.append_assoc, all]⟩
      | some capacity =>
        rw [ThrottleRecord.allowedAt?_of_deniedUnder? denied]
        simpa using (Instant.rtake_suffix _ _).trans ih

theorem mem_calls_of_allowed {t : Instant} (h : t ∈ log.allowedSinceDrop rule group) :
    ∃ call ∈ log.calls, call.rule = rule ∧ call.now = t := by
  obtain ⟨record, kept, allowed⟩ := List.mem_filterMap.mp h
  obtain ⟨call, rfl, enabled, own, _, instant⟩ := ThrottleRecord.eq_of_allowedAt? allowed
  have member := (List.rtakeWhile_suffix _ log).subset kept
  exact ⟨call, List.mem_filterMap.mpr ⟨_, member, if_pos enabled⟩, own, instant⟩

theorem Trails.nil : Trails [] rule group := Justified.nil

theorem Trails.snoc (h : log.Trails rule group)
    (follows : ∀ call ∈ record.call?, call.rule = rule ∧ call.group = group → log.Follows call) :
    Trails (log ++ [record]) rule group :=
  Justified.snoc h follows

theorem Trails.of_append {more : ThrottleLog} (h : Trails (log ++ more) rule group) :
    log.Trails rule group :=
  Justified.of_append h

theorem Trails.follows {call : ThrottleCall} {decision : ThrottleDecision}
    (h : Trails (log ++ [.decided call decision]) rule group) (enabled : call.limit.isEnabled)
    (own : call.rule = rule ∧ call.group = group) : log.Follows call :=
  Justified.last h call (if_pos enabled) own

theorem Trails.ordered (h : log.Trails rule group) :
    (log.allowedSinceDrop rule group).Pairwise (· ≤ ·) := by
  induction log using List.reverseRecOn with
  | nil => exact List.Pairwise.nil
  | append_singleton log last ih =>
    have before := ih h.of_append
    rw [allowedSinceDrop_snoc]
    split
    · exact List.Pairwise.nil
    · cases allowed : last.allowedAt? rule group with
      | none => simpa using before
      | some t =>
        obtain ⟨call, rfl, enabled, own, inGroup, rfl⟩ := ThrottleRecord.eq_of_allowedAt? allowed
        have follows := h.follows enabled ⟨own, inGroup⟩
        refine List.pairwise_append.mpr ⟨before, List.pairwise_singleton _ _, ?_⟩
        intro u member v last
        obtain ⟨earlier, made, same, rfl⟩ := mem_calls_of_allowed member
        rw [List.mem_singleton.mp last]
        exact (follows earlier made (same.trans own.symm)).1

end ThrottleLog

/-- What the limit of a call says of the alerts that are remembered. -/
def ThrottleCall.rulingFrom (call : ThrottleCall) (memory : List Instant) : ThrottleDecision :=
  if call.limit.isEnabled then
    if (memory.filter fun t => call.cutoff < t).length < call.limit.capacity then .allowed
    else .denied call.limit.maxAlerts call.limit.periodSeconds call.limit.capacity
  else .allowed

namespace Throttle

/-- The entries of a group in the state of its rule. -/
def entries (t : Throttle) (rule group : String) : List Instant :=
  ((t.get? rule).map fun s => s.entries group).getD []

/-- What is left of a group of what its log remembers: all but what has left a window of its rule. -/
def Recalls (t : Throttle) (log : ThrottleLog) (rule group : String) : Prop :=
  Trims (log.cutoffs rule) (log.recalled rule group) (t.entries rule group)

variable {t u : Throttle} {log : ThrottleLog} {record : ThrottleRecord} {call : ThrottleCall}
variable {rule group : String}

theorem entries_rule (t : Throttle) (name : String) (limit : RateLimit) (now : Instant)
    (group : String) : (t.rule name limit now).entries group = t.entries name group := by
  unfold Throttle.rule entries
  cases t.get? name <;> rfl

theorem entries_insert (t : Throttle) (name : String) (s : RuleState) (rule group : String) :
    entries (t.insert name s) rule group =
      if rule = name then s.entries group else t.entries rule group := by
  unfold entries
  rw [Table.get?_insert]
  split <;> rfl

/-- A record drops the entries of a group with its rule, or is a call of the rule, or leaves them as
they are. -/
theorem Step.entries_cases (step : Step t record u) (rule group : String) :
    (record.drops rule = true ∧ u.entries rule group = []) ∨
      (∃ call, record = .decided call (t.decision call) ∧ u = t.afterCall call ∧
        call.limit.isEnabled ∧ call.rule = rule) ∨
      (record.drops rule = false ∧ (∀ call ∈ record.call?, call.rule ≠ rule) ∧
        u.entries rule group = t.entries rule group) := by
  have leaves := step.leaves rule
  generalize found : u.get? rule = after at leaves
  cases leaves with
  | dropped drops => exact .inl ⟨drops, by rw [Throttle.entries, found]; rfl⟩
  | called same enabled own =>
    subst same
    cases step
    exact .inr (.inl ⟨_, rfl, rfl, enabled, own⟩)
  | kept keeps other recounts _ =>
    refine .inr (.inr ⟨keeps, other, ?_⟩)
    unfold Throttle.entries
    rw [found]
    cases t.get? rule with
    | none => rfl
    | some s => exact RuleState.entries_of_recent (recounts.recent s group)

theorem call_of_room (t : Throttle) (enabled : call.limit.isEnabled)
    (ordered : (t.entries call.rule call.group).Pairwise (· ≤ ·))
    (room : ((t.entries call.rule call.group).filter fun u => call.cutoff < u).length <
      call.limit.capacity) :
    t.decision call = .allowed ∧
      ∃ kept, (t.afterCall call).entries call.rule call.group = kept ++ [call.now] ∧
        Trims [call.cutoff] (t.entries call.rule call.group) kept := by
  obtain ⟨decision, after⟩ := t.call_of_enabled enabled
  rw [decision, after, entries_insert, if_pos rfl]
  rw [← t.entries_rule call.rule call.limit call.now] at ordered room ⊢
  exact RuleState.offer_of_room (RateLimit.capacity_pos enabled) ordered room

theorem call_of_full (t : Throttle) (enabled : call.limit.isEnabled)
    (ordered : (t.entries call.rule call.group).Pairwise (· ≤ ·))
    (full : call.limit.capacity ≤
      ((t.entries call.rule call.group).filter fun u => call.cutoff < u).length) :
    t.decision call =
        .denied call.limit.maxAlerts call.limit.periodSeconds call.limit.capacity ∧
      (t.afterCall call).entries call.rule call.group =
        (t.entries call.rule call.group).rtake call.limit.capacity := by
  obtain ⟨decision, after⟩ := t.call_of_enabled enabled
  rw [decision, after, entries_insert, if_pos rfl]
  rw [← t.entries_rule call.rule call.limit call.now] at ordered full ⊢
  exact RuleState.offer_of_full (RateLimit.capacity_pos enabled) ordered full

/-- A call of a group that remembers what later windows reach is decided from that, and the group
goes on to remember. -/
theorem recalls_own_call (inv : t.Recalls log call.rule call.group) (enabled : call.limit.isEnabled)
    (ordered : (log.allowedSinceDrop call.rule call.group).Pairwise (· ≤ ·))
    (follows : log.Follows call) :
    t.decision call = call.rulingFrom (log.recalled call.rule call.group) ∧
      (t.afterCall call).Recalls (log ++ [.decided call (t.decision call)]) call.rule
        call.group := by
  unfold Recalls at inv ⊢
  have inOrder : (t.entries call.rule call.group).Pairwise (· ≤ ·) :=
    ordered.sublist (inv.suffix.trans (log.recalled_suffix _ _)).sublist
  have latest : ∀ t ∈ log.recalled call.rule call.group, ∀ c ∈ log.cutoffs call.rule,
      t ≤ c → t ≤ call.cutoff := by
    intro t remembered c member reached
    obtain ⟨earlier, made, rfl⟩ := List.mem_map.mp member
    obtain ⟨made, own⟩ := List.mem_filter.mp made
    have allowed := (log.recalled_suffix call.rule call.group).subset remembered
    exact (follows earlier made (by simpa using own)).2 t allowed reached
  have inWindow := inv.filter_eq latest
  rw [ThrottleCall.rulingFrom, if_pos enabled, ← inWindow]
  by_cases room : ((t.entries call.rule call.group).filter fun t =>
      call.cutoff < t).length < call.limit.capacity
  · obtain ⟨passes, kept, entries, trims⟩ := t.call_of_room enabled inOrder room
    rw [passes, entries, if_pos room, log.recalled_allowed enabled]
    have left := (inv.widen (log.cutoffs_subset [.decided call .allowed] call.rule)).trans
      (trims.widen (log.cutoff_mem enabled .allowed))
    exact ⟨rfl, left.append [call.now]⟩
  · have full := Nat.le_of_not_lt room
    obtain ⟨stopped, entries⟩ := t.call_of_full enabled inOrder full
    have enough := Nat.le_trans full (List.length_filter_le _ _)
    rw [stopped, entries, if_neg room, log.recalled_denied enabled,
      Instant.rtake_of_suffix inv.suffix enough]
    exact ⟨rfl, .refl _ _⟩

theorem recalls_silent (inv : t.Recalls log rule group)
    (same : ThrottleLog.recalled (log ++ [record]) rule group = log.recalled rule group)
    (trims : Trims (ThrottleLog.cutoffs (log ++ [record]) rule) (t.entries rule group)
      (u.entries rule group)) :
    u.Recalls (log ++ [record]) rule group := by
  rw [Recalls, same]
  exact (inv.widen (log.cutoffs_subset _ _)).trans trims

/-- A call of another group of the rule may drop the group, once it is idle. -/
theorem recalls_other_call (inv : t.Recalls log call.rule group) (enabled : call.limit.isEnabled)
    (different : group ≠ call.group) :
    (t.afterCall call).Recalls (log ++ [.decided call (t.decision call)]) call.rule group := by
  have same : ThrottleLog.recalled (log ++ [.decided call (t.decision call)]) call.rule group =
      log.recalled call.rule group := by
    apply ThrottleLog.recalled_of_silent rfl
    · cases t.decision call <;> simp [ThrottleRecord.deniedUnder?, Ne.symm different]
    · cases t.decision call <;> simp [ThrottleRecord.allowedAt?, Ne.symm different]
  have trims := (t.rule call.rule call.limit call.now).trims_offer_other call.limit call.now
    different
  apply recalls_silent inv same
  rw [entries_rule] at trims
  rw [(t.call_of_enabled enabled).2, entries_insert, if_pos rfl]
  exact trims.widen (log.cutoff_mem enabled _)

theorem recalls_step (inv : t.Recalls log rule group) (step : Step t record u)
    (trails : ThrottleLog.Trails (log ++ [record]) rule group) :
    u.Recalls (log ++ [record]) rule group := by
  rcases step.entries_cases rule group with
    ⟨drops, nothing⟩ | ⟨call, rfl, rfl, enabled, rfl⟩ | ⟨keeps, other, same⟩
  · rw [Recalls, nothing, ThrottleLog.recalled_snoc, ThrottleRecord.recalled, if_pos drops]
    exact .refl _ _
  · by_cases own : group = call.group
    · subst own
      exact (recalls_own_call inv enabled trails.of_append.ordered
        (trails.follows enabled ⟨rfl, rfl⟩)).2
    · exact recalls_other_call inv enabled own
  · apply recalls_silent inv
    · exact ThrottleLog.recalled_of_silent keeps (ThrottleRecord.deniedUnder?_of_other other group)
        (ThrottleRecord.allowedAt?_of_other other group)
    · rw [same]
      exact .refl _ _

/-- Whatever a throttle has been through, a group has forgotten nothing but what its denied calls
made it forget and what has left a window of its rule. -/
theorem recalls_of_reached (h : Reached log t) (trails : log.Trails rule group) :
    t.Recalls log rule group := by
  induction h with
  | none => exact .refl _ _
  | snoc reached step ih => exact recalls_step (ih trails.of_append) step trails

/-- The decision on a call that follows the calls of its rule is the ruling from what its group
remembers. -/
theorem decision_eq_rulingFrom (h : Reached log t) (trails : log.Trails call.rule call.group)
    (follows : call.limit.isEnabled → log.Follows call) :
    t.decision call = call.rulingFrom (log.recalled call.rule call.group) := by
  by_cases enabled : call.limit.isEnabled
  · have inv := recalls_of_reached h trails
    exact (recalls_own_call inv enabled trails.ordered (follows enabled)).1
  · rw [(t.decision_of_disabled enabled).1, ThrottleCall.rulingFrom, if_neg enabled]

end Throttle

end AlertAdmission
