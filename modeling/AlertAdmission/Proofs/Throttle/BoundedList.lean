import AlertAdmission.Proofs.Throttle.Ring
import AlertAdmission.Throttle.GroupWindow
import Mathlib.Data.List.DropRight

/-!
A group's window is a bounded list.

`BoundedList` says what writing, compacting and resizing do to a plain list that holds only so many
instants. It has neither slots nor places that go around. A group goes through every sequence of
these operations as such a list does (`GroupWindow.runs_as_list`), whatever the instants are and in
whatever order they come.
-/

namespace AlertAdmission

/-- A list with room for so many instants, and when it was made or last compacted. -/
structure BoundedList where
  capacity : Nat
  entries : List Instant
  compactedAt : Instant

/-- What is done to the recent alerts of a group. -/
inductive WindowOperation where
  | push (t : Instant)
  | compact (now : Instant) (window : Span)
  | resize (capacity : Nat)

namespace BoundedList

def empty (capacity : Nat) (made : Instant) : BoundedList := ⟨max capacity 1, [], made⟩

/-- The list with an instant at its end, and without its first one if it gets too long. -/
def push (l : BoundedList) (t : Instant) : BoundedList :=
  let longer := l.entries ++ [t]
  { l with entries := if l.capacity < longer.length then longer.tail else longer }

/-- The list with only the instants in the window, if at least half a window has passed since it was
compacted. Half a window is a whole number of nanoseconds. -/
def compact (l : BoundedList) (now : Instant) (window : Span) : BoundedList :=
  if window / 2 ≤ now - l.compactedAt then
    { l with entries := l.entries.filter fun t => now - window < t, compactedAt := now }
  else l

/-- The list with other room, and as many of its last instants as there is room for. -/
def resize (l : BoundedList) (capacity : Nat) : BoundedList :=
  { l with capacity := max capacity 1, entries := l.entries.rtake (max capacity 1) }

def perform (l : BoundedList) : WindowOperation → BoundedList
  | .push t => l.push t
  | .compact now window => l.compact now window
  | .resize capacity => l.resize capacity

def run (l : BoundedList) (operations : List WindowOperation) : BoundedList :=
  operations.foldl perform l

end BoundedList

theorem Ring.slotCount_eq_max (capacity : Nat) : slotCount capacity = max capacity 1 := by
  unfold slotCount
  split <;> omega

namespace GroupWindow

def perform (w : GroupWindow) : WindowOperation → GroupWindow
  | .push t => w.push t
  | .compact now window => w.compact now window
  | .resize capacity => w.resize capacity

def run (w : GroupWindow) (operations : List WindowOperation) : GroupWindow :=
  operations.foldl perform w

/-- The recent alerts of a group as a list, the oldest first. -/
def toBoundedList (w : GroupWindow) : BoundedList :=
  ⟨w.recent.capacity, w.recent.toList, w.lastCleanup⟩

theorem toBoundedList_fresh (capacity : Nat) (made : Instant) :
    (fresh capacity made).toBoundedList = .empty capacity made := by
  have slots : (fresh capacity made).recent.capacity = max capacity 1 :=
    Ring.slotCount_eq_max capacity
  rw [toBoundedList, slots]
  rfl

theorem toBoundedList_push (w : GroupWindow) (t : Instant) :
    (w.push t).toBoundedList = w.toBoundedList.push t := by
  have entries : (w.recent.push t).toList = (w.toBoundedList.push t).entries := by
    have length : (w.recent.toList ++ [t]).length = w.recent.size + 1 := by simp
    simp only [BoundedList.push, toBoundedList, length]
    by_cases room : w.recent.size < w.recent.capacity
    · rw [if_neg (by omega), Ring.toList_push_of_room w.recent t room]
    · have full : w.recent.size = w.recent.capacity :=
        Nat.le_antisymm w.recent.size_le (Nat.le_of_not_lt room)
      have some_entry : w.recent.toList ≠ [] := by
        have pos := w.recent.capacity_pos
        rw [← List.length_pos_iff, Ring.length_toList]
        omega
      rw [if_pos (by omega), Ring.toList_push_of_full w.recent t full,
        List.tail_append_of_ne_nil some_entry]
  exact congrArg (BoundedList.mk w.recent.capacity · w.lastCleanup) entries

theorem toBoundedList_compact (w : GroupWindow) (now : Instant) (window : Span) :
    (w.compact now window).toBoundedList = w.toBoundedList.compact now window := by
  simp only [GroupWindow.compact, BoundedList.compact, toBoundedList, ← Int.not_lt, ite_not]
  split
  · rfl
  · exact congrArg (BoundedList.mk w.recent.capacity · now)
      (w.recent.toList_keepAfter (now - window))

theorem toBoundedList_resize (w : GroupWindow) (capacity : Nat) :
    (w.resize capacity).toBoundedList = w.toBoundedList.resize capacity := by
  simp only [GroupWindow.resize, BoundedList.resize, toBoundedList, Ring.capacity_resize,
    Ring.toList_resize, Ring.slotCount_eq_max, List.rtake]

/-- One operation does to a group what it does to the list of its recent alerts. -/
theorem toBoundedList_perform (w : GroupWindow) (operation : WindowOperation) :
    (w.perform operation).toBoundedList = w.toBoundedList.perform operation := by
  cases operation with
  | push t => exact w.toBoundedList_push t
  | compact now window => exact w.toBoundedList_compact now window
  | resize capacity => exact w.toBoundedList_resize capacity

theorem toBoundedList_run (w : GroupWindow) (operations : List WindowOperation) :
    (w.run operations).toBoundedList = w.toBoundedList.run operations := by
  induction operations generalizing w with
  | nil => rfl
  | cons operation rest ih =>
    have first := w.toBoundedList_perform operation
    have others := ih (w.perform operation)
    rw [first] at others
    exact others

theorem suppressed_perform (w : GroupWindow) (operation : WindowOperation) :
    (w.perform operation).suppressed = w.suppressed := by
  cases operation with
  | push t => rfl
  | compact now window =>
    show (w.compact now window).suppressed = w.suppressed
    unfold GroupWindow.compact
    split <;> rfl
  | resize capacity => rfl

theorem suppressed_run (w : GroupWindow) (operations : List WindowOperation) :
    (w.run operations).suppressed = w.suppressed := by
  induction operations generalizing w with
  | nil => rfl
  | cons operation rest ih =>
    exact (ih (w.perform operation)).trans (w.suppressed_perform operation)

/-- A group made for any capacity, with any number of suppressed alerts, goes through any sequence
of operations as an empty list with that room does. Its next slot and its size stay within the room
that the list has. -/
theorem runs_as_list (capacity suppressed : Nat) (made : Instant)
    (operations : List WindowOperation) :
    let w := GroupWindow.run { fresh capacity made with suppressed := suppressed } operations
    let l := (BoundedList.empty capacity made).run operations
    w.recent.toList = l.entries ∧ w.recent.capacity = l.capacity ∧
      w.recent.head < l.capacity ∧ w.recent.size ≤ l.capacity ∧
      w.lastCleanup = l.compactedAt ∧ w.suppressed = suppressed := by
  intro w l
  have agrees : w.toBoundedList = l := by
    rw [show l = _ from congrArg (BoundedList.run · operations)
      (toBoundedList_fresh capacity made).symm]
    exact toBoundedList_run _ operations
  have room : w.recent.capacity = l.capacity := congrArg BoundedList.capacity agrees
  refine ⟨congrArg BoundedList.entries agrees, room, ?_, ?_,
    congrArg BoundedList.compactedAt agrees, suppressed_run _ operations⟩
  · exact room ▸ w.recent.head_lt
  · exact room ▸ w.recent.size_le

end GroupWindow

end AlertAdmission
