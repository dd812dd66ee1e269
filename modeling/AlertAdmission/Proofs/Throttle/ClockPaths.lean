import AlertAdmission.Proofs.Throttle.Drift
import AlertAdmission.Proofs.Throttle.Isolation
import AlertAdmission.Proofs.Throttle.Status
import AlertAdmission.Proofs.Throttle.Suppressed
import Mathlib.Data.List.SplitBy

/-!
One limit of one group under a clock that may go back.

A full ring lets go of the entry that was written first. Once the clock has been put back that need
not be the earliest one: the ring overwrites an alert that is in the window and keeps one that has
left it, and the window takes in more alerts than the limit counts. As long as the clock goes on
again the limit is kept whatever was before (`Throttle.length_allowed_stretch_le`), so how far it
can be exceeded depends on how often the clock goes back (`Throttle.limit_on_clock_paths`).
-/

namespace AlertAdmission

/-! ### Lists that still end with what has passed -/

namespace Instant

/-- A list that ends with what is left of some instants when cutoffs have reached their front. -/
def Retains (cutoffs passed entries : List Instant) : Prop :=
  ∃ kept, kept <:+ entries ∧ Trims cutoffs passed kept

variable {cutoffs passed entries : List Instant} {cutoff : Instant}

theorem Trims.of_suffix {l rest kept : List Instant} (h : Trims cutoffs l rest)
    (suffix : kept <:+ l) (shorter : rest <:+ kept) : Trims cutoffs kept rest := by
  obtain ⟨gone, all, reached⟩ := h
  obtain ⟨front, rfl⟩ := suffix
  obtain ⟨middle, rfl⟩ := shorter
  rw [← List.append_assoc] at all
  refine ⟨middle, rfl, fun t member => reached t ?_⟩
  rw [← List.append_cancel_right all]
  exact List.mem_append_right front member

namespace Retains

theorem nil (cutoffs entries : List Instant) : Retains cutoffs [] entries :=
  ⟨[], List.nil_suffix, .refl _ _⟩

theorem widen (h : Retains cutoffs passed entries) {more : List Instant} (sub : cutoffs ⊆ more) :
    Retains more passed entries := by
  obtain ⟨kept, suffix, trims⟩ := h
  exact ⟨kept, suffix, trims.widen sub⟩

theorem append (h : Retains cutoffs passed entries) (more : List Instant) :
    Retains cutoffs (passed ++ more) (entries ++ more) := by
  obtain ⟨kept, ⟨front, rfl⟩, trims⟩ := h
  exact ⟨kept ++ more, ⟨front, by simp⟩, trims.append more⟩

theorem trims (h : Retains cutoffs passed entries) {rest : List Instant}
    (lost : Trims cutoffs entries rest) : Retains cutoffs passed rest := by
  obtain ⟨kept, suffix, trims⟩ := h
  rcases List.suffix_or_suffix_of_suffix suffix lost.suffix with fewer | more
  · exact ⟨kept, fewer, trims⟩
  · exact ⟨rest, List.suffix_rfl, trims.trans (lost.of_suffix suffix more)⟩

theorem filter (h : Retains cutoffs passed entries) (ordered : passed.Pairwise (· ≤ ·))
    (member : cutoff ∈ cutoffs) :
    Retains cutoffs passed (entries.filter fun t => cutoff < t) := by
  obtain ⟨kept, suffix, trims⟩ := h
  have lost := trims_filter (ordered.sublist trims.suffix.sublist) cutoff
  exact ⟨_, suffix.filter _, trims.trans (lost.widen (by simpa using member))⟩

theorem tail (h : Retains cutoffs passed entries) (ordered : passed.Pairwise (· ≤ ·))
    (member : cutoff ∈ cutoffs)
    (reached : (entries.filter fun t => cutoff < t).length < entries.length) :
    Retains cutoffs passed entries.tail := by
  obtain ⟨kept, suffix, trims⟩ := h
  cases entries with
  | nil => exact ⟨kept, suffix, trims⟩
  | cons first rest =>
    rcases List.suffix_cons_iff.mp suffix with rfl | later
    · have lost := trims_tail (ordered.sublist trims.suffix.sublist) reached
      exact ⟨_, List.suffix_rfl, trims.trans (lost.widen (by simpa using member))⟩
    · exact ⟨kept, later, trims⟩

theorem length_filter_le (h : Retains cutoffs passed entries)
    (latest : ∀ t ∈ passed, ∀ c ∈ cutoffs, t ≤ c → t ≤ cutoff) :
    (passed.filter fun t => cutoff < t).length ≤ (entries.filter fun t => cutoff < t).length := by
  obtain ⟨kept, suffix, trims⟩ := h
  rw [← trims.filter_eq latest]
  exact (suffix.sublist.filter _).length_le

end Retains

end Instant

open Instant (Retains Trims)

/-! ### One group -/

namespace GroupWindow

variable {w : GroupWindow} {capacity : Nat} {window : Span} {now : Instant}
  {cutoffs passed : List Instant}

theorem length_offer_le (pos : 0 < capacity) (w : GroupWindow) (window : Span) (now : Instant) :
    (w.offer capacity window now).1.recent.toList.length ≤ capacity := by
  have slots := capacity_prepare pos w window now
  unfold offer
  dsimp only
  generalize w.prepare capacity window now = prepared at slots ⊢
  split
  · exact Nat.le_trans (Ring.length_toList_le (prepared.push now).recent) (Nat.le_of_eq slots)
  · exact Nat.le_trans (Ring.length_toList_le prepared.recent) (Nat.le_of_eq slots)

theorem retains_prepare (pos : 0 < capacity) (h : Retains cutoffs passed w.recent.toList)
    (ordered : passed.Pairwise (· ≤ ·)) (few : passed = [] ∨ w.recent.toList.length ≤ capacity)
    (member : now - window ∈ cutoffs) :
    Retains cutoffs passed (w.prepare capacity window now).recent.toList := by
  rcases few with rfl | few
  · exact .nil _ _
  · have fits : w.recent.toList.rtake capacity = w.recent.toList := by
      rw [List.rtake, Nat.sub_eq_zero_of_le few, List.drop_zero]
    rcases toList_prepare pos w window now with same | compacted
    · rwa [same, fits]
    · rw [compacted, fits]
      exact h.filter ordered member

/-- A group that goes on from whatever it holds allows an alert only while what has passed leaves
room, and then retains it. -/
theorem retains_offer (pos : 0 < capacity) (h : Retains cutoffs passed w.recent.toList)
    (ordered : passed.Pairwise (· ≤ ·)) (few : passed = [] ∨ w.recent.toList.length ≤ capacity)
    (member : now - window ∈ cutoffs)
    (latest : ∀ t ∈ passed, ∀ c ∈ cutoffs, t ≤ c → t ≤ now - window) :
    ((w.offer capacity window now).2 = none →
      (passed.filter fun t => now - window < t).length < capacity ∧
        Retains cutoffs (passed ++ [now]) (w.offer capacity window now).1.recent.toList) ∧
      ((w.offer capacity window now).2 ≠ none →
        Retains cutoffs passed (w.offer capacity window now).1.recent.toList) := by
  have ready := retains_prepare pos h ordered few member
  have slots := capacity_prepare pos w window now
  unfold offer
  dsimp only
  generalize w.prepare capacity window now = prepared at ready slots ⊢
  split
  · next room =>
    have counted := ready.length_filter_le latest
    refine ⟨fun _ => ⟨Nat.lt_of_le_of_lt counted room, ?_⟩, fun stopped => absurd rfl stopped⟩
    by_cases free : prepared.recent.size < prepared.recent.capacity
    · rw [push, Ring.toList_push_of_room prepared.recent now free]
      exact ready.append [now]
    · have full : prepared.recent.size = prepared.recent.capacity :=
        Nat.le_antisymm prepared.recent.size_le (Nat.le_of_not_lt free)
      have reached : (prepared.recent.toList.filter fun t => now - window < t).length <
          prepared.recent.toList.length := by
        rw [Ring.length_toList, full, slots]
        exact room
      rw [push, Ring.toList_push_of_full prepared.recent now full]
      exact (ready.tail ordered member reached).append [now]
  · refine ⟨fun passes => ?_, fun _ => ready⟩
    cases passes

theorem offer_of_nothing (pos : 0 < capacity) (nothing : w.recent.toList = []) (window : Span)
    (now : Instant) : (w.offer capacity window now).2 = none ∧
      (w.offer capacity window now).1.recent.toList = [now] := by
  have room : (w.recent.toList.filter fun u => now - window < u).length < capacity := by
    rwa [nothing]
  obtain ⟨passes, kept, entries, trims⟩ := offer_of_room pos (nothing ▸ List.Pairwise.nil) room
  rw [nothing] at trims
  rw [entries, List.suffix_nil.mp trims.suffix]
  exact ⟨passes, rfl⟩

end GroupWindow

/-! ### The groups of a rule -/

namespace RuleState

variable {s : RuleState} {key : String} {window : Span} {now : Instant}

theorem entries_sweep_of_idle (due : window ≤ now - s.lastSweep) (quiet : s.suppressedOf key = 0)
    (reached : ∀ u ∈ s.entries key, u ≤ now - window) : (s.sweep now window).entries key = [] := by
  unfold sweep
  rw [if_neg (Int.not_lt.mpr due)]
  unfold entries suppressedOf at *
  rw [Table.get?_filter]
  cases held : s.groups.get? key with
  | none => rfl
  | some w =>
    simp only [held, Option.map_some, Option.getD_some] at quiet reached
    have nothing : (w.recent.toList.filter fun u => now - window < u) = [] := by
      rw [List.filter_eq_nil_iff]
      simpa using reached
    simp [Option.filter, GroupWindow.isIdle, GroupWindow.countSince, GroupWindow.entriesSince,
      quiet, nothing]

theorem offer_of_dropped {limit : RateLimit} (pos : 0 < limit.capacity)
    (dropped : (({ s with limit := limit } : RuleState).sweep now limit.window).entries key = []) :
    (s.offer key limit now).2 = .allowed ∧ (s.offer key limit now).1.entries key = [now] := by
  have nothing := (({ s with limit := limit } : RuleState).sweep now limit.window).toList_group key
    limit.capacity now
  rw [dropped] at nothing
  obtain ⟨passes, entries⟩ := GroupWindow.offer_of_nothing pos nothing limit.window now
  unfold offer
  simp only [entries_insert, if_true, passes]
  exact ⟨trivial, entries⟩

end RuleState

/-! ### Calls of one group under one limit -/

/-- Each alert found room in the window among those before it. -/
def RateLimit.Admits (limit : RateLimit) (passed : List Instant) : Prop :=
  Justified (fun (before : List Instant) (now : Instant) =>
    (before.filter fun u => now - limit.window < u).length < limit.capacity) passed

theorem RateLimit.Admits.length_inWindow_le {limit : RateLimit} {passed : List Instant}
    (h : limit.Admits passed) {last : Instant}
    (starts : ∀ u ∈ passed, u ≤ last → u - limit.window ≤ last - limit.window) :
    (passed.filter fun u => last - limit.window < u ∧ u ≤ last).length ≤ limit.capacity := by
  have bound : (passed.filter fun u => true && last - limit.window < u && u ≤ last).length ≤
      limit.capacity := by
    apply Justified.length_trailing_le
    · simpa [Admits] using h
    · intro u member _ past
      exact starts u member past
  simpa using bound

namespace ThrottleCall

def Alike (rule group : String) (limit : RateLimit) (calls : List ThrottleCall) : Prop :=
  ∀ call ∈ calls, call.rule = rule ∧ call.group = group ∧ call.limit = limit

/-- The stretches of a path over which neither the clock nor the start of the window goes back. -/
def stretches (window : Span) (calls : List ThrottleCall) : List (List ThrottleCall) :=
  calls.splitBy fun call later => call.now.Leads window later.now

theorem Alike.of_append {rule group : String} {limit : RateLimit} {calls more : List ThrottleCall}
    (h : Alike rule group limit (calls ++ more)) : Alike rule group limit calls :=
  fun call member => h call (List.mem_append_left _ member)

theorem Alike.last {rule group : String} {limit : RateLimit} {calls : List ThrottleCall}
    {last : ThrottleCall} (h : Alike rule group limit (calls ++ [last])) :
    last.rule = rule ∧ last.group = group ∧ last.limit = limit :=
  h last (List.mem_append_right _ (List.mem_singleton_self last))

theorem leads_of_mem_stretches {window : Span} {calls stretch : List ThrottleCall}
    (h : stretch ∈ stretches window calls) :
    stretch.Pairwise fun call later => call.now.Leads window later.now := by
  have chain := List.isChain_of_mem_splitBy h
  simp only [decide_eq_true_eq] at chain
  have transitive : IsTrans ThrottleCall fun call later => call.now.Leads window later.now :=
    ⟨fun _ _ _ h h' => ⟨Instant.le_trans h.1 h'.1, Instant.le_trans h.2 h'.2⟩⟩
  exact List.isChain_iff_pairwise.mp chain

end ThrottleCall

namespace Throttle

open ThrottleCall (Alike stretches)

variable {t : Throttle} {rule group : String} {limit : RateLimit} {calls : List ThrottleCall}
  {call : ThrottleCall}

theorem answer_snoc (t : Throttle) (calls : List ThrottleCall) (last : ThrottleCall) :
    t.answer (calls ++ [last]) = (t.answer calls).afterCall last := by
  rw [answer, List.foldl_append]
  rfl

theorem answers_append (t : Throttle) (calls more : List ThrottleCall) :
    t.answers (calls ++ more) = t.answers calls ++ (t.answer calls).answers more := by
  induction calls generalizing t with
  | nil => rfl
  | cons call rest ih => exact congrArg _ (ih (t.afterCall call))

theorem keeps_of_mem_answers (t : Throttle) (calls : List ThrottleCall) (rule : String) :
    ∀ record ∈ t.answers calls, record.drops rule = false := by
  induction calls generalizing t with
  | nil => simp [answers]
  | cons call rest ih =>
    simp only [answers, List.mem_cons, forall_eq_or_imp]
    exact ⟨rfl, ih (t.afterCall call)⟩

theorem calls_answers (enabled : limit.isEnabled) (alike : Alike rule group limit calls)
    (t : Throttle) : (t.answers calls).calls = calls := by
  induction calls generalizing t with
  | nil => rfl
  | cons call rest ih =>
    obtain ⟨_, _, same⟩ := alike call List.mem_cons_self
    have made : (ThrottleRecord.decided call (t.decision call)).call? = some call :=
      if_pos (same ▸ enabled)
    rw [answers, ThrottleLog.calls, List.filterMap_cons_some made]
    exact congrArg _ (ih (fun c member => alike c (List.mem_cons_of_mem _ member)) _)

theorem allowed_snoc (t : Throttle) (calls : List ThrottleCall) (call : ThrottleCall)
    (enabled : call.limit.isEnabled) :
    (t.answers (calls ++ [call])).allowedSinceDrop call.rule call.group =
      (t.answers calls).allowedSinceDrop call.rule call.group ++
        if (t.answer calls).decision call = .allowed then [call.now] else [] := by
  rw [answers_snoc, ThrottleLog.allowedSinceDrop_snoc, if_neg (by simp [ThrottleRecord.drops])]
  cases (t.answer calls).decision call <;> simp [ThrottleRecord.allowedAt?, enabled]

theorem exists_call_of_allowed (enabled : limit.isEnabled) (alike : Alike rule group limit calls)
    {u : Instant} (h : u ∈ (t.answers calls).allowedSinceDrop rule group) :
    ∃ call ∈ calls, call.now = u := by
  obtain ⟨call, made, _, instant⟩ := ThrottleLog.mem_calls_of_allowed h
  rw [calls_answers enabled alike] at made
  exact ⟨call, made, instant⟩

theorem length_entries_afterCall_le (t : Throttle) (enabled : call.limit.isEnabled) :
    ((t.afterCall call).entries call.rule call.group).length ≤ call.limit.capacity := by
  obtain ⟨w, _, entries, _⟩ := t.call_eq enabled
  rw [entries]
  exact GroupWindow.length_offer_le (RateLimit.capacity_pos enabled) w call.limit.window call.now

/-! ### One stretch -/

/-- What a stretch of calls leaves, from whatever throttle it starts. -/
structure Trailed (t : Throttle) (rule group : String) (limit : RateLimit)
    (calls : List ThrottleCall) : Prop where
  retained : Retains (calls.map ThrottleCall.cutoff)
    ((t.answers calls).allowedSinceDrop rule group) ((t.answer calls).entries rule group)
  few : (t.answers calls).allowedSinceDrop rule group = [] ∨
    ((t.answer calls).entries rule group).length ≤ limit.capacity
  admitted : limit.Admits ((t.answers calls).allowedSinceDrop rule group)

theorem Trailed.snoc (h : t.Trailed call.rule call.group call.limit calls)
    (enabled : call.limit.isEnabled)
    (ordered : ((t.answers calls).allowedSinceDrop call.rule call.group).Pairwise (· ≤ ·))
    (latest : ∀ c ∈ calls, c.cutoff ≤ call.cutoff) :
    t.Trailed call.rule call.group call.limit (calls ++ [call]) := by
  have pos := RateLimit.capacity_pos enabled
  obtain ⟨w, swept, entries, decision⟩ := (t.answer calls).call_eq enabled
  have member : call.cutoff ∈ (calls ++ [call]).map ThrottleCall.cutoff := by simp
  have held : Retains ((calls ++ [call]).map ThrottleCall.cutoff)
      ((t.answers calls).allowedSinceDrop call.rule call.group) w.recent.toList :=
    (h.retained.widen (by simp)).trims (swept.widen (by simp))
  have few := h.few.imp_right (Nat.le_trans swept.suffix.length_le)
  obtain ⟨passes, stops⟩ := GroupWindow.retains_offer pos held ordered few member (by
    intro u _ c there reached
    obtain ⟨earlier, made, rfl⟩ := List.mem_map.mp there
    rcases List.mem_append.mp made with before | last
    · exact Instant.le_trans reached (latest earlier before)
    · rwa [List.mem_singleton.mp last] at reached)
  have slots := (t.answer calls).length_entries_afterCall_le enabled
  rw [← entries] at passes stops
  have allowed := t.allowed_snoc calls call enabled
  cases offered : (w.offer call.limit.capacity call.limit.window call.now).2 with
  | none =>
    rw [offered] at decision
    rw [decision, if_pos rfl] at allowed
    obtain ⟨room, kept⟩ := passes offered
    constructor
    · rwa [allowed, answer_snoc]
    · rw [answer_snoc]
      exact .inr slots
    · rw [allowed]
      exact Justified.snoc h.admitted room
  | some current =>
    rw [offered] at decision
    rw [decision, if_neg (by simp), List.append_nil] at allowed
    constructor
    · rw [allowed, answer_snoc]
      exact stops (by simp [offered])
    · rw [answer_snoc]
      exact .inr slots
    · rw [allowed]
      exact h.admitted

theorem trailed_of_steady (enabled : limit.isEnabled) (alike : Alike rule group limit calls)
    (steady : calls.Pairwise fun call later => call.now.Leads limit.window later.now)
    (t : Throttle) : t.Trailed rule group limit calls := by
  induction calls using List.reverseRecOn with
  | nil => exact ⟨.nil _ _, .inl rfl, .nil⟩
  | append_singleton calls last ih =>
    rw [List.pairwise_append] at steady
    obtain ⟨before, _, leads⟩ := steady
    have ordered : (t.answers calls).Ordered := by
      rw [ThrottleLog.Ordered, calls_answers enabled alike.of_append]
      exact before.imp And.left
    have trailed := ih alike.of_append before
    have limits : ∀ c ∈ calls, c.limit = limit := fun c member => (alike.of_append c member).2.2
    obtain ⟨rfl, rfl, rfl⟩ := alike.last
    apply trailed.snoc enabled (ordered.allowed _ _)
    intro c member
    rw [ThrottleCall.cutoff, limits c member]
    exact (leads c member last (List.mem_singleton_self last)).2

theorem length_allowed_stretch_le (enabled : limit.isEnabled) (alike : Alike rule group limit calls)
    (steady : calls.Pairwise fun call later => call.now.Leads limit.window later.now)
    {last : Instant} (leads : ∀ call ∈ calls, call.now ≤ last → call.now.Leads limit.window last)
    (t : Throttle) :
    ((t.answers calls).allowedBetween rule group (last - limit.window) last).length ≤
      limit.capacity := by
  apply (trailed_of_steady enabled alike steady t).admitted.length_inWindow_le
  intro u member past
  obtain ⟨call, made, rfl⟩ := exists_call_of_allowed enabled alike member
  exact (leads call made past).2

theorem length_allowed_flatten_le (enabled : limit.isEnabled) {last : Instant}
    (parts : List (List ThrottleCall)) (alike : Alike rule group limit parts.flatten)
    (steady : ∀ calls ∈ parts,
      calls.Pairwise fun call later => call.now.Leads limit.window later.now)
    (leads : ∀ call ∈ parts.flatten, call.now ≤ last → call.now.Leads limit.window last)
    (t : Throttle) : ((t.answers parts.flatten).allowedBetween rule group (last - limit.window)
      last).length ≤ limit.capacity * parts.length := by
  induction parts generalizing t with
  | nil => simp [answers, ThrottleLog.allowedBetween, ThrottleLog.allowedSinceDrop]
  | cons calls rest ih =>
    rw [List.flatten_cons] at alike leads ⊢
    have first := length_allowed_stretch_le enabled alike.of_append
      (steady calls List.mem_cons_self)
      (fun call member => leads call (List.mem_append_left _ member)) t
    have others := ih (fun call member => alike call (List.mem_append_right _ member))
      (fun part member => steady part (List.mem_cons_of_mem _ member))
      (fun call member => leads call (List.mem_append_right _ member)) (t.answer calls)
    have keeps := keeps_of_mem_answers (t.answer calls) rest.flatten rule
    rw [ThrottleLog.allowedBetween, answers_append,
      ThrottleLog.allowedSinceDrop_append keeps, List.filter_append, List.length_append,
      List.length_cons, Nat.mul_add, Nat.mul_one, Nat.add_comm]
    exact Nat.add_le_add others first

/-! ### Limits of one alert -/

/-- Under a limit of one alert a group holds its last one, and what it lets pass is in order
whatever the clock does. -/
structure KeepsLast (t : Throttle) (rule group : String) (limit : RateLimit)
    (passed : List Instant) : Prop where
  last : t.entries rule group = passed.rtake 1
  ordered : passed.Pairwise (· ≤ ·)
  admitted : limit.Admits passed

theorem KeepsLast.snoc {passed : List Instant}
    (h : t.KeepsLast call.rule call.group call.limit passed) (enabled : call.limit.isEnabled)
    (one : call.limit.capacity = 1) :
    (t.afterCall call).KeepsLast call.rule call.group call.limit
      (passed ++ if t.decision call = .allowed then [call.now] else []) := by
  have inOrder : (t.entries call.rule call.group).Pairwise (· ≤ ·) :=
    h.last ▸ h.ordered.sublist (Instant.rtake_suffix passed 1).sublist
  have counted := Instant.length_filter_rtake h.ordered 1 call.cutoff
  rw [← h.last] at counted
  by_cases room : ((t.entries call.rule call.group).filter fun u => call.cutoff < u).length <
      call.limit.capacity
  · obtain ⟨passes, kept, entries, _⟩ := t.call_of_room enabled inOrder room
    have slots := t.length_entries_afterCall_le enabled
    have gone : (passed.filter fun u => call.cutoff < u).length < call.limit.capacity := by omega
    have nothing : (passed.filter fun u => call.cutoff < u) = [] :=
      List.eq_nil_of_length_eq_zero (by omega)
    rw [passes, if_pos rfl]
    constructor
    · rw [entries, List.length_append, List.length_singleton, one] at slots
      have alone : kept = [] := List.eq_nil_of_length_eq_zero (by omega)
      rw [entries, alone, List.rtake_concat_succ, List.rtake_zero]
    · refine List.pairwise_append.mpr ⟨h.ordered, List.pairwise_singleton _ _, ?_⟩
      intro u member v now
      have later : call.cutoff < call.now := Instant.sub_lt (RateLimit.window_pos enabled)
      have reached : u ≤ call.cutoff := by simpa using List.filter_eq_nil_iff.mp nothing u member
      exact List.mem_singleton.mp now ▸ Instant.le_trans reached (Instant.le_of_lt later)
    · exact Justified.snoc h.admitted gone
  · have full := Nat.le_of_not_lt room
    obtain ⟨stopped, entries⟩ := t.call_of_full enabled inOrder full
    have some := Nat.le_trans full (List.length_filter_le _ _)
    rw [h.last, one] at entries some
    rw [Instant.rtake_of_suffix (Instant.rtake_suffix passed 1) some] at entries
    rw [stopped, if_neg (by simp), List.append_nil]
    exact ⟨entries, h.ordered, h.admitted⟩

theorem keepsLast_of_one (enabled : limit.isEnabled) (one : limit.capacity = 1)
    (alike : Alike rule group limit calls) :
    (empty.answer calls).KeepsLast rule group limit
      ((empty.answers calls).allowedSinceDrop rule group) := by
  induction calls using List.reverseRecOn with
  | nil => exact ⟨rfl, .nil, .nil⟩
  | append_singleton calls last ih =>
    have before := ih alike.of_append
    obtain ⟨rfl, rfl, rfl⟩ := alike.last
    rw [answer_snoc, empty.allowed_snoc calls last enabled]
    exact before.snoc enabled one

/-! ### Limits of more than one alert -/

/-- What calls of a group leave that all came at one instant and were all allowed. -/
structure Filled (t : Throttle) (rule group : String) (now : Instant) (count : Nat) : Prop where
  entries : t.entries rule group = List.replicate count now
  quiet : t.suppressedOf rule group = 0
  swept : ∀ s ∈ t.get? rule, s.lastSweep = now

theorem Filled.again {count : Nat} (h : t.Filled call.rule call.group call.now count)
    (enabled : call.limit.isEnabled) (room : count < call.limit.capacity) :
    t.decision call = .allowed ∧
      (t.afterCall call).Filled call.rule call.group call.now (count + 1) := by
  have inOrder : (t.entries call.rule call.group).Pairwise (· ≤ ·) := by
    rw [h.entries]
    exact List.pairwise_replicate.mpr (.inr (Instant.le_refl _))
  have few := List.length_filter_le (fun u => decide (call.cutoff < u))
    (t.entries call.rule call.group)
  rw [h.entries, List.length_replicate, ← h.entries] at few
  obtain ⟨passes, kept, entries, trims⟩ :=
    t.call_of_room enabled inOrder (Nat.lt_of_le_of_lt few room)
  -- the others came at this very instant, so none of them has left the window
  have later : call.cutoff < call.now := Instant.sub_lt (RateLimit.window_pos enabled)
  have all : kept = t.entries call.rule call.group := by
    have inWindow : (kept.filter fun u => call.cutoff < u) = t.entries call.rule call.group := by
      rw [trims.filter_self, h.entries]
      exact List.filter_eq_self.mpr (by simp [later])
    apply trims.suffix.eq_of_length_le
    rw [← inWindow]
    exact List.length_filter_le _ _
  refine ⟨passes, ?_, ?_, ?_⟩
  · rw [entries, all, h.entries, List.replicate_succ']
  · rw [suppressedOf_afterCall, h.quiet, passes]
    simp [ThrottleDecision.denials]
  · intro s after
    rw [(t.call_of_enabled enabled).2, Table.get?_insert, if_pos rfl, Option.mem_some_iff] at after
    have last : (t.rule call.rule call.limit call.now).lastSweep = call.now := by
      unfold rule
      cases found : t.get? call.rule with
      | none => rfl
      | some before => exact h.swept before found
    rw [← after, ruleAfter, RuleState.lastSweep_offer, last, ite_self]

theorem Filled.later {now : Instant} {count : Nat} (h : t.Filled call.rule call.group now count)
    (enabled : call.limit.isEnabled) (due : call.limit.window ≤ call.now - now)
    (left : now ≤ call.cutoff) :
    t.decision call = .allowed ∧ (t.afterCall call).entries call.rule call.group = [call.now] := by
  obtain ⟨decision, after⟩ := t.call_of_enabled enabled
  rw [decision, after, entries_insert, if_pos rfl]
  apply RuleState.offer_of_dropped (RateLimit.capacity_pos enabled)
  cases found : t.get? call.rule with
  | none =>
    have none := (RuleState.fresh call.limit call.now).trims_sweep call.now call.limit.window
      call.group
    rw [rule, found]
    exact List.suffix_nil.mp none.suffix
  | some s =>
    have entries := h.entries
    have quiet := h.quiet
    simp only [Throttle.entries, suppressedOf, found, Option.map_some, Option.getD_some]
      at entries quiet
    rw [rule, found, Option.getD_some]
    apply RuleState.entries_sweep_of_idle
    · rwa [← h.swept s found] at due
    · exact quiet
    · intro u member
      have among : u ∈ s.entries call.group := member
      rw [entries] at among
      rwa [List.eq_of_mem_replicate among]

theorem filled_replicate (call : ThrottleCall) (enabled : call.limit.isEnabled) {count : Nat}
    (fits : count ≤ call.limit.capacity) :
    (empty.answer (List.replicate count call)).Filled call.rule call.group call.now count ∧
      (empty.answers (List.replicate count call)).allowedSinceDrop call.rule call.group =
        List.replicate count call.now := by
  induction count with
  | zero => exact ⟨⟨rfl, rfl, by simp [answer, empty]⟩, rfl⟩
  | succ count ih =>
    obtain ⟨held, allowed⟩ := ih (Nat.le_of_succ_le fits)
    obtain ⟨passes, again⟩ := held.again enabled fits
    rw [List.replicate_succ', answer_snoc, empty.allowed_snoc _ call enabled, allowed,
      if_pos passes, List.replicate_succ']
    exact ⟨again, rfl⟩

/-- The window is filled, the clock goes on by a window, and then it is put back. -/
def detour (rule : String) (fields : Json) (limit : RateLimit) : List ThrottleCall :=
  List.replicate limit.capacity ⟨rule, fields, limit, Instant.ofNanos 0⟩ ++
    [⟨rule, fields, limit, Instant.ofNanos limit.window⟩] ++
    [⟨rule, fields, limit, Instant.ofNanos 0⟩]

theorem allowed_detour (rule : String) (fields : Json) (enabled : limit.isEnabled)
    (more : 1 < limit.capacity) :
    (empty.answers (detour rule fields limit)).allowedSinceDrop rule
        (Grouping.groupKey limit.groupBy fields) =
      List.replicate limit.capacity (Instant.ofNanos 0) ++ [Instant.ofNanos limit.window] ++
        [Instant.ofNanos 0] := by
  let start : ThrottleCall := ⟨rule, fields, limit, Instant.ofNanos 0⟩
  let ahead : ThrottleCall := ⟨rule, fields, limit, Instant.ofNanos limit.window⟩
  let starts := List.replicate limit.capacity start
  obtain ⟨full, allowed⟩ := filled_replicate start enabled (Nat.le_refl _)
  have filled : (empty.answer starts).Filled ahead.rule ahead.group start.now limit.capacity := full
  obtain ⟨passes, alone⟩ : (empty.answer starts).decision ahead = .allowed ∧
      ((empty.answer starts).afterCall ahead).entries ahead.rule ahead.group = [ahead.now] := by
    apply filled.later enabled
    · simp [start, ahead]
    · simp [start, ahead, ThrottleCall.cutoff]
  have back : (empty.answer (starts ++ [ahead])).decision start = .allowed := by
    rw [answer_snoc]
    refine (call_of_room _ enabled ?_ ?_).1
    · exact alone ▸ List.pairwise_singleton _ _
    · exact Nat.lt_of_le_of_lt (List.length_filter_le _ _) (alone ▸ more)
  have last := empty.allowed_snoc (starts ++ [ahead]) start enabled
  have first := empty.allowed_snoc starts ahead enabled
  rw [if_pos back] at last
  rw [if_pos passes] at first
  calc (empty.answers (detour rule fields limit)).allowedSinceDrop rule
        (Grouping.groupKey limit.groupBy fields)
      = (empty.answers (starts ++ [ahead])).allowedSinceDrop ahead.rule ahead.group ++
          [start.now] := last
    _ = (empty.answers starts).allowedSinceDrop start.rule start.group ++ [ahead.now] ++
          [start.now] := congrArg (· ++ [start.now]) first
    _ = List.replicate limit.capacity start.now ++ [ahead.now] ++ [start.now] := by rw [allowed]

theorem alike_detour (rule : String) (fields : Json) (limit : RateLimit) :
    Alike rule (Grouping.groupKey limit.groupBy fields) limit (detour rule fields limit) := by
  simp [Alike, detour, ThrottleCall.group, or_imp, forall_and]

theorem exceeded_on_detour (rule : String) (fields : Json) (enabled : limit.isEnabled)
    (more : 1 < limit.capacity) :
    ((empty.answers (detour rule fields limit)).allowedBetween rule
      (Grouping.groupKey limit.groupBy fields) (Instant.ofNanos 0 - limit.window)
      (Instant.ofNanos 0)).length = limit.capacity + 1 := by
  have pos := RateLimit.window_pos enabled
  rw [ThrottleLog.allowedBetween, allowed_detour rule fields enabled more]
  simp [List.filter_append, pos, Int.not_le.mpr pos]

/-- On every path of the clock, back and forth, a limit of one alert is kept, and a higher limit is
not. At most it lets pass what it counts once for each stretch over which the clock goes on. -/
theorem limit_on_clock_paths (enabled : limit.isEnabled) :
    ((∀ rule group calls last, Alike rule group limit calls →
        (∀ call ∈ calls, call.now.leap = false) →
        ((empty.answers calls).allowedBetween rule group (last - limit.window) last).length ≤
          limit.capacity) ↔ limit.capacity = 1) ∧
      ∀ rule group calls last, Alike rule group limit calls →
        (∀ call ∈ calls, call.now ≤ last → call.now.Leads limit.window last) →
        ((empty.answers calls).allowedBetween rule group (last - limit.window) last).length ≤
          limit.capacity * (stretches limit.window calls).length := by
  refine ⟨⟨fun keeps => ?_, fun one rule group calls last alike ordinary => ?_⟩,
    fun rule group calls last alike leads => ?_⟩
  · have pos := RateLimit.capacity_pos enabled
    by_contra notOne
    have exceeded := exceeded_on_detour "" .null enabled (by omega)
    have kept := keeps _ _ _ (Instant.ofNanos 0) (alike_detour "" .null limit) (by
      simp [detour, Instant.ofNanos, or_imp, forall_and])
    omega
  · apply (keepsLast_of_one enabled one alike).admitted.length_inWindow_le
    intro u member past
    obtain ⟨call, made, rfl⟩ := exists_call_of_allowed enabled alike member
    exact (Instant.leads_of_le (windowLength_nonneg _) (ordinary call made) past).2
  · have all : (stretches limit.window calls).flatten = calls := List.flatten_splitBy _ _
    have bound := length_allowed_flatten_le enabled (stretches limit.window calls)
      (all.symm ▸ alike) (fun _ member => ThrottleCall.leads_of_mem_stretches member)
      (all.symm ▸ leads) empty
    rwa [all] at bound

/-- Four alerts under a limit of two in a minute. The second comes a minute before the first, by a
clock that has been put back and will be put right again. -/
def minuteBack : List ThrottleCall :=
  [60, 0, 60, 60].map fun seconds =>
    ⟨"link", .null, ⟨2, 60, none⟩, Instant.epoch + Span.ofSeconds seconds⟩

theorem alike_minuteBack : Alike "link" "default" ⟨2, 60, none⟩ minuteBack := by
  unfold Alike
  decide

set_option maxRecDepth 1000 in
theorem length_allowed_minuteBack : ((empty.answers minuteBack).allowedBetween "link" "default"
    (Instant.ofNanos 60000000000 - windowLength 60) (Instant.ofNanos 60000000000)).length = 3 := by
  rfl

/-- Three of them pass within a minute, in two stretches. -/
theorem three_in_two_stretches :
    RateLimit.isEnabled ⟨2, 60, none⟩ ∧ (stretches (windowLength 60) minuteBack).length = 2 ∧
      ((empty.answers minuteBack).allowedBetween "link" "default"
        (Instant.ofNanos 60000000000 - windowLength 60) (Instant.ofNanos 60000000000)).length = 3 ∧
      3 ≤ 2 * (stretches (windowLength 60) minuteBack).length := by
  have enabled : RateLimit.isEnabled ⟨2, 60, none⟩ := by decide
  have leads : ∀ call ∈ minuteBack, call.now ≤ Instant.ofNanos 60000000000 →
      call.now.Leads (windowLength 60) (Instant.ofNanos 60000000000) := by decide
  have bound := (limit_on_clock_paths enabled).2 _ _ _ _ alike_minuteBack leads
  exact ⟨enabled, by rfl, length_allowed_minuteBack, length_allowed_minuteBack ▸ bound⟩

/-- A clock that is put back and put right again is enough to let a third alert pass. -/
theorem exceeded_after_minuteBack :
    ¬ ∀ (limit : RateLimit) (rule group : String) (calls : List ThrottleCall) (last : Instant),
        limit.isEnabled → limit.periodSeconds.toNat < longestWindow → Alike rule group limit calls →
        (∀ call ∈ calls, call.now.leap = false) →
        ((empty.answers calls).allowedBetween rule group (last - limit.window) last).length ≤
          limit.capacity := by
  intro claim
  have kept := claim ⟨2, 60, none⟩ _ _ _ (Instant.ofNanos 60000000000) (by decide) (by decide)
    alike_minuteBack (by decide)
  have three := length_allowed_minuteBack ▸ kept
  exact absurd three (by decide)

end Throttle

end AlertAdmission
