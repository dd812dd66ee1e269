import AlertAdmission.Time.Instant

/-!
A ring of instants: a fixed number of slots, of which the last written ones count.

`head` is the slot written next, and the `size` slots before it hold entries, the oldest first.
`Ring.toList` is the list of entries. Writing to a full ring overwrites the oldest entry;
compaction moves the entries newer than a cutoff together, in the slots they are in.
-/

namespace AlertAdmission

/-- A ring of instants with at least one slot. -/
structure Ring where
  capacity : Nat
  slots : Vector Instant capacity
  head : Nat
  size : Nat
  head_lt : head < capacity
  size_le : size ≤ capacity

namespace Ring

theorem capacity_pos (r : Ring) : 0 < r.capacity := Nat.zero_lt_of_lt r.head_lt

def start (r : Ring) : Nat := (r.head + r.capacity - r.size) % r.capacity

def slotAt {n : Nat} (pos : 0 < n) (slots : Vector Instant n) (i : Nat) : Instant :=
  have : i % n < n := Nat.mod_lt i pos
  slots[i % n]

def setSlot {n : Nat} (pos : 0 < n) (slots : Vector Instant n) (i : Nat) (t : Instant) :
    Vector Instant n :=
  slots.set (i % n) t (Nat.mod_lt i pos)

/-- The entries, the oldest first. -/
def toList (r : Ring) : List Instant :=
  (List.range r.size).map fun i => slotAt r.capacity_pos r.slots (r.start + i)

/-- The number of slots a ring of the given capacity has: at least one. -/
def slotCount (capacity : Nat) : Nat := if capacity = 0 then 1 else capacity

theorem slotCount_pos (capacity : Nat) : 0 < slotCount capacity := by
  unfold slotCount; split <;> omega

def empty (capacity : Nat) : Ring where
  capacity := slotCount capacity
  slots := Vector.replicate (slotCount capacity) Instant.epoch
  head := 0
  size := 0
  head_lt := slotCount_pos capacity
  size_le := Nat.zero_le _

/-- The ring with one more entry, in place of the oldest one if it is full. -/
def push (r : Ring) (t : Instant) : Ring where
  capacity := r.capacity
  slots := r.slots.set r.head t r.head_lt
  head := (r.head + 1) % r.capacity
  size := if r.size < r.capacity then r.size + 1 else r.size
  head_lt := Nat.mod_lt _ r.capacity_pos
  size_le := by have := r.size_le; split <;> omega

/-- Moves the entries newer than a cutoff together. Of the slots from `start` on, `read` is looked
at next, `kept` is written next, and `todo` are still to be looked at. -/
def moveTogether {n : Nat} (pos : 0 < n) (cutoff : Instant) (start : Nat) :
    (todo read kept : Nat) → Vector Instant n → Nat × Vector Instant n
  | 0, _, kept, slots => (kept, slots)
  | todo + 1, read, kept, slots =>
    let t := slotAt pos slots (start + read)
    if cutoff < t then
      moveTogether pos cutoff start todo (read + 1) (kept + 1) (setSlot pos slots (start + kept) t)
    else moveTogether pos cutoff start todo (read + 1) kept slots

theorem moveTogether_fst_le {n : Nat} (pos : 0 < n) (cutoff : Instant) (start : Nat)
    (todo read kept : Nat) (slots : Vector Instant n) :
    (moveTogether pos cutoff start todo read kept slots).1 ≤ kept + todo := by
  induction todo generalizing read kept slots with
  | zero => simp [moveTogether]
  | succ todo ih =>
    simp only [moveTogether]
    split
    · have := ih (read + 1) (kept + 1) (setSlot pos slots (start + kept)
        (slotAt pos slots (start + read)))
      omega
    · have := ih (read + 1) kept slots
      omega

/-- The ring with only the entries newer than a cutoff. -/
def keepAfter (r : Ring) (cutoff : Instant) : Ring where
  capacity := r.capacity
  slots := (moveTogether r.capacity_pos cutoff r.start r.size 0 0 r.slots).2
  head := (r.start + (moveTogether r.capacity_pos cutoff r.start r.size 0 0 r.slots).1) % r.capacity
  size := (moveTogether r.capacity_pos cutoff r.start r.size 0 0 r.slots).1
  head_lt := Nat.mod_lt _ r.capacity_pos
  size_le := by
    have := moveTogether_fst_le r.capacity_pos cutoff r.start r.size 0 0 r.slots
    have := r.size_le
    omega

/-- A ring that holds the last entries of a list, as many as fit. -/
def ofList (capacity : Nat) (entries : List Instant) : Ring :=
  let kept := entries.drop (entries.length - slotCount capacity)
  { capacity := slotCount capacity
    slots := Vector.ofFn fun i => kept.getD i.val Instant.epoch
    head := kept.length % slotCount capacity
    size := kept.length
    head_lt := Nat.mod_lt _ (slotCount_pos capacity)
    size_le := by simp only [kept, List.length_drop]; omega }

/-- The ring with another number of slots and the newest entries that fit. -/
def resize (r : Ring) (capacity : Nat) : Ring :=
  if slotCount capacity = r.capacity then r else ofList capacity r.toList

end Ring

end AlertAdmission
