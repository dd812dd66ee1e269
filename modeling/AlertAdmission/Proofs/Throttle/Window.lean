import AlertAdmission.Proofs.Throttle.Ring
import AlertAdmission.Proofs.Time.Order
import AlertAdmission.Throttle.GroupWindow

/-!
A group's window against the log of all its allowed alerts.

The window forgets: it overwrites, and it compacts. What it forgets has left the trailing window for
good, as long as the start of that window does not go back. `GroupWindow.Holds` says so, and each
operation on a group keeps it.
-/

namespace AlertAdmission.GroupWindow

/-- A group that holds what a log of allowed alerts has in the window that trails the last instant,
in order and in as many slots as the limit counts. -/
structure Holds (w : GroupWindow) (capacity : Nat) (window : Span) (log : List Instant)
    (last : Instant) : Prop where
  slots : w.recent.capacity = capacity
  ordered : w.recent.toList.Pairwise (· ≤ ·)
  past : ∀ t ∈ w.recent.toList, t ≤ last
  agrees : (w.recent.toList.filter fun t => last - window < t) =
    log.filter fun t => last - window < t

variable {w : GroupWindow} {capacity : Nat} {window : Span} {log : List Instant}
  {last now : Instant}

theorem Holds.of_recent {w' : GroupWindow} (h : w.Holds capacity window log last)
    (same : w'.recent = w.recent) : w'.Holds capacity window log last := by
  obtain ⟨slots, ordered, past, agrees⟩ := h
  rw [← same] at slots ordered past agrees
  exact ⟨slots, ordered, past, agrees⟩

theorem holds_fresh (pos : 0 < capacity) (start : Instant)
    (nothing : (log.filter fun t => last - window < t) = []) :
    (fresh capacity start).Holds capacity window log last where
  slots := Ring.slotCount_of_pos pos
  ordered := List.Pairwise.nil
  past := fun _ ht => absurd ht List.not_mem_nil
  agrees := nothing.symm

theorem Holds.later (h : w.Holds capacity window log last) (leads : last.Leads window now) :
    w.Holds capacity window log now where
  slots := h.slots
  ordered := h.ordered
  past := fun t ht => Instant.le_trans (h.past t ht) leads.1
  agrees := Instant.filter_above_later leads.2 h.agrees

theorem Holds.countSince (h : w.Holds capacity window log now) :
    w.countSince (now - window) = (log.filter fun t => now - window < t).length := by
  rw [GroupWindow.countSince, entriesSince, h.agrees]

/-- An idle group may be dropped: the log has nothing in the window either. -/
theorem Holds.filter_of_idle (h : w.Holds capacity window log now)
    (idle : w.isIdle (now - window) = true) : (log.filter fun t => now - window < t) = [] := by
  simp only [isIdle, Bool.and_eq_true, beq_iff_eq, h.countSince] at idle
  exact List.eq_nil_of_length_eq_zero idle.2

theorem Holds.compact (h : w.Holds capacity window log now) :
    (w.compact now window).Holds capacity window log now := by
  unfold GroupWindow.compact
  split
  · exact h
  · exact {
      slots := h.slots
      ordered := by
        rw [Ring.toList_keepAfter]
        exact h.ordered.filter _
      past := fun t ht => by
        rw [Ring.toList_keepAfter] at ht
        exact h.past t (List.mem_filter.mp ht).1
      agrees := by
        rw [Ring.toList_keepAfter, List.filter_filter]
        simpa only [Bool.and_self] using h.agrees }

theorem Holds.prepare (pos : 0 < capacity) (h : w.Holds capacity window log now) :
    (w.prepare capacity window now).Holds capacity window log now := by
  have same : (w.resize capacity).recent = w.recent :=
    if_pos ((Ring.slotCount_of_pos pos).trans h.slots.symm)
  exact (h.of_recent same).compact

/-- With fewer alerts in the window than there are slots, a full ring has one to let go of. -/
theorem Holds.entries_push (h : w.Holds capacity window log now)
    (room : (log.filter fun t => now - window < t).length < capacity) :
    ∃ kept, (w.push now).recent.toList = kept ++ [now] ∧ kept.Sublist w.recent.toList ∧
      (kept.filter fun t => now - window < t) =
        w.recent.toList.filter fun t => now - window < t := by
  by_cases free : w.recent.size < w.recent.capacity
  · exact ⟨_, Ring.toList_push_of_room w.recent now free, List.Sublist.refl _, rfl⟩
  · have full : w.recent.size = w.recent.capacity :=
      Nat.le_antisymm w.recent.size_le (Nat.le_of_not_lt free)
    have reached : (w.recent.toList.filter fun t => now - window < t).length <
        w.recent.toList.length := by
      rw [h.agrees, Ring.length_toList, full, h.slots]
      exact room
    exact ⟨_, Ring.toList_push_of_full w.recent now full, List.tail_sublist _,
      Instant.filter_tail_of_reached h.ordered reached⟩

theorem Holds.push (h : w.Holds capacity window log now)
    (room : (log.filter fun t => now - window < t).length < capacity) :
    (w.push now).Holds capacity window (log ++ [now]) now := by
  obtain ⟨kept, entries, sublist, same⟩ := h.entries_push room
  have past : ∀ t ∈ kept, t ≤ now := fun t ht => h.past t (sublist.subset ht)
  refine ⟨h.slots, ?_, ?_, ?_⟩
  · rw [entries, List.pairwise_append]
    refine ⟨h.ordered.sublist sublist, List.pairwise_singleton _ _, ?_⟩
    intro t ht u hu
    rw [List.mem_singleton.mp hu]
    exact past t ht
  · intro t ht
    rw [entries, List.mem_append, List.mem_singleton] at ht
    rcases ht with ht | rfl
    · exact past t ht
    · exact Instant.le_refl _
  · rw [entries, List.filter_append, List.filter_append, same, h.agrees]

theorem Holds.offer_of_room (pos : 0 < capacity) (h : w.Holds capacity window log now)
    (room : (log.filter fun t => now - window < t).length < capacity) :
    (w.offer capacity window now).2 = none ∧
      (w.offer capacity window now).1.Holds capacity window (log ++ [now]) now := by
  have ready := h.prepare pos
  unfold GroupWindow.offer
  simp only [ready.countSince, if_pos room]
  exact ⟨trivial, ready.push room⟩

theorem Holds.offer_of_full (pos : 0 < capacity) (h : w.Holds capacity window log now)
    (full : ¬ (log.filter fun t => now - window < t).length < capacity) :
    (w.offer capacity window now).2 = some capacity ∧
      (w.offer capacity window now).1.Holds capacity window log now := by
  have ready := h.prepare pos
  have fits : (log.filter fun t => now - window < t).length ≤ capacity := by
    have slots := Ring.length_toList_le (w.prepare capacity window now).recent
    rw [ready.slots] at slots
    rw [← ready.agrees]
    exact Nat.le_trans (List.length_filter_le _ _) slots
  have exact_count : (log.filter fun t => now - window < t).length = capacity := by omega
  unfold GroupWindow.offer
  simp only [ready.countSince, if_neg full]
  exact ⟨congrArg some exact_count, ready.of_recent rfl⟩

end AlertAdmission.GroupWindow
