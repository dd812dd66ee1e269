import AlertAdmission.Throttle.Ring

/-!
A ring holds a bounded list. Pushing appends and lets go of the first entry when there is no room,
compaction filters, and another number of slots keeps the last entries that fit. No statement after
this module looks at slots again.
-/

namespace AlertAdmission.Ring

/-! ### Going around -/

theorem mod_eq_ite {x n : Nat} (h : x < 2 * n) : x % n = if x < n then x else x - n := by
  split
  · next below => exact Nat.mod_eq_of_lt below
  · next above =>
    rw [Nat.mod_eq_sub_mod (Nat.le_of_not_lt above), Nat.mod_eq_of_lt (by omega)]

/-- Fewer than `n` places from a start on are different places. -/
theorem place_injective {n start i j : Nat} (hs : start < n) (hi : i < n) (hj : j < n) :
    (start + i) % n = (start + j) % n ↔ i = j := by
  rw [mod_eq_ite (show start + i < 2 * n by omega), mod_eq_ite (show start + j < 2 * n by omega)]
  split <;> split <;> omega

/-- The entries in so many slots from a place on, going around. -/
def segment {n : Nat} (pos : 0 < n) (slots : Vector Instant n) (first count : Nat) : List Instant :=
  (List.range count).map fun i => slotAt pos slots (first + i)

theorem toList_eq_segment (r : Ring) :
    r.toList = segment r.capacity_pos r.slots r.start r.size := rfl

theorem segment_succ {n : Nat} (pos : 0 < n) (slots : Vector Instant n) (first count : Nat) :
    segment pos slots first (count + 1) =
      segment pos slots first count ++ [slotAt pos slots (first + count)] := by
  simp [segment, List.range_succ]

theorem segment_cons {n : Nat} (pos : 0 < n) (slots : Vector Instant n) (first count : Nat) :
    segment pos slots first (count + 1) =
      slotAt pos slots first :: segment pos slots (first + 1) count := by
  simp only [segment, List.range_succ_eq_map, List.map_cons, List.map_map, Nat.add_zero]
  congr 1
  apply List.map_congr_left
  intro i _
  show slotAt pos slots (first + (i + 1)) = slotAt pos slots (first + 1 + i)
  rw [show first + (i + 1) = first + 1 + i by omega]

theorem slotAt_set {n : Nat} (pos : 0 < n) (slots : Vector Instant n) (k i : Nat) (t : Instant)
    (hk : k < n) :
    slotAt pos (slots.set k t hk) i = if k = i % n then t else slotAt pos slots i := by
  simp only [slotAt, Vector.getElem_set]

theorem segment_congr {n : Nat} (pos : 0 < n) (slots : Vector Instant n) {i j : Nat}
    (h : i % n = j % n) (count : Nat) : segment pos slots i count = segment pos slots j count := by
  apply List.map_congr_left
  intro k _
  have same : (i + k) % n = (j + k) % n := by rw [← Nat.mod_add_mod, h, Nat.mod_add_mod]
  simp only [slotAt, same]

theorem segment_set {n : Nat} (pos : 0 < n) (slots : Vector Instant n) {first count k : Nat}
    (t : Instant) (hk : k < n) (apart : ∀ i < count, k ≠ (first + i) % n) :
    segment pos (slots.set k t hk) first count = segment pos slots first count := by
  apply List.map_congr_left
  intro i hi
  rw [slotAt_set, if_neg (apart i (List.mem_range.mp hi))]

theorem start_lt (r : Ring) : r.start < r.capacity := Nat.mod_lt _ r.capacity_pos

theorem start_add_size (r : Ring) : (r.start + r.size) % r.capacity = r.head := by
  have room := r.size_le
  have head := r.head_lt
  rw [start, mod_eq_ite (show r.head + r.capacity - r.size < 2 * r.capacity by omega)]
  split
  · rw [mod_eq_ite (by omega)]
    split <;> omega
  · rw [mod_eq_ite (by omega)]
    split <;> omega

/-- So many slots back from the slot after them, one is where they begin. -/
theorem start_of_head {n first count head : Nat} (hf : first < n) (hc : count ≤ n)
    (after : head = (first + count) % n) : (head + n - count) % n = first := by
  rw [after, mod_eq_ite (show first + count < 2 * n by omega)]
  split
  · rw [mod_eq_ite (by omega)]
    split <;> omega
  · rw [mod_eq_ite (by omega)]
    split <;> omega

/-! ### The list of entries -/

@[simp] theorem length_toList (r : Ring) : r.toList.length = r.size := by simp [toList]

theorem length_toList_le (r : Ring) : r.toList.length ≤ r.capacity := by
  rw [length_toList]
  exact r.size_le

@[simp] theorem toList_empty (capacity : Nat) : (empty capacity).toList = [] := rfl

@[simp] theorem capacity_empty (capacity : Nat) :
    (empty capacity).capacity = slotCount capacity := rfl

@[simp] theorem capacity_push (r : Ring) (t : Instant) : (r.push t).capacity = r.capacity := rfl

@[simp] theorem capacity_keepAfter (r : Ring) (cutoff : Instant) :
    (r.keepAfter cutoff).capacity = r.capacity := rfl

theorem capacity_resize (r : Ring) (capacity : Nat) :
    (r.resize capacity).capacity = slotCount capacity := by
  unfold resize
  split
  · next same => exact same.symm
  · rfl

theorem slotCount_of_pos {capacity : Nat} (h : 0 < capacity) : slotCount capacity = capacity := by
  rw [slotCount, if_neg (by omega)]

theorem toList_push_of_room (r : Ring) (t : Instant) (room : r.size < r.capacity) :
    (r.push t).toList = r.toList ++ [t] := by
  have count : (r.push t).size = r.size + 1 := if_pos room
  have first : (r.push t).start = r.start := by
    apply start_of_head r.start_lt (r.push t).size_le
    show (r.head + 1) % r.capacity = (r.start + (r.push t).size) % r.capacity
    rw [count, ← start_add_size r, Nat.mod_add_mod, Nat.add_assoc]
  have apart : ∀ i < r.size, r.head ≠ (r.start + i) % r.capacity := by
    intro i hi
    rw [← start_add_size r, Ne, place_injective r.start_lt room (by omega)]
    omega
  calc (r.push t).toList
      = segment r.capacity_pos (r.slots.set r.head t r.head_lt) r.start (r.size + 1) := by
        rw [toList_eq_segment, first, count]
        rfl
    _ = r.toList ++ [t] := by
        rw [segment_succ, segment_set _ _ _ _ apart, slotAt_set, start_add_size, if_pos rfl]
        rfl

/-- In a full ring a new entry takes the place of the oldest one. -/
theorem toList_push_of_full (r : Ring) (t : Instant) (full : r.size = r.capacity) :
    (r.push t).toList = r.toList.tail ++ [t] := by
  obtain ⟨rest, hrest⟩ : ∃ rest, r.size = rest + 1 :=
    ⟨r.size - 1, by have := r.capacity_pos; omega⟩
  have start_eq : r.start = r.head := by
    rw [start, full, Nat.add_sub_cancel, Nat.mod_eq_of_lt r.head_lt]
  have count : (r.push t).size = rest + 1 := by
    show (if r.size < r.capacity then r.size + 1 else r.size) = rest + 1
    rw [if_neg (by omega), hrest]
  have first : (r.push t).start = (r.start + 1) % r.capacity := by
    apply start_of_head (Nat.mod_lt _ r.capacity_pos) (r.push t).size_le
    show (r.head + 1) % r.capacity = ((r.start + 1) % r.capacity + (r.push t).size) % r.capacity
    rw [count, ← hrest, full, Nat.add_mod_right, Nat.mod_mod, start_eq]
  have apart : ∀ i < rest, r.head ≠ (r.start + 1 + i) % r.capacity := by
    intro i hi
    rw [← start_add_size r, full, Nat.add_mod_right, Nat.add_assoc]
    have different := place_injective r.start_lt r.capacity_pos (show 1 + i < r.capacity by omega)
    rw [Nat.add_zero] at different
    rw [Ne, different]
    omega
  have last : r.head = (r.start + 1 + rest) % r.capacity := by
    rw [Nat.add_assoc, Nat.add_comm 1 rest, ← hrest, start_add_size]
  calc (r.push t).toList
      = segment r.capacity_pos (r.slots.set r.head t r.head_lt) (r.start + 1) (rest + 1) := by
        rw [toList_eq_segment, first, count]
        exact segment_congr _ _ (Nat.mod_mod _ _) _
    _ = r.toList.tail ++ [t] := by
        rw [segment_succ, segment_set _ _ _ _ apart, slotAt_set, if_pos last, toList_eq_segment,
          hrest, segment_cons, List.tail_cons]

theorem mem_push (r : Ring) (t : Instant) : t ∈ (r.push t).toList := by
  by_cases room : r.size < r.capacity
  · simp [toList_push_of_room r t room]
  · have full : r.size = r.capacity := Nat.le_antisymm r.size_le (Nat.le_of_not_lt room)
    simp [toList_push_of_full r t full]

/-- Moving the newer ones of some entries together keeps those already moved and appends the newer
ones of those still to be looked at. -/
theorem segment_moveTogether {n : Nat} (pos : 0 < n) (cutoff : Instant) {start : Nat}
    (hs : start < n) (todo read kept : Nat) (slots : Vector Instant n) (behind : kept ≤ read)
    (within : read + todo ≤ n) :
    segment pos (moveTogether pos cutoff start todo read kept slots).2 start
        (moveTogether pos cutoff start todo read kept slots).1 =
      segment pos slots start kept ++
        (segment pos slots (start + read) todo).filter fun t => cutoff < t := by
  induction todo generalizing read kept slots with
  | zero => simp [moveTogether, segment]
  | succ todo ih =>
    rw [segment_cons, Nat.add_assoc start read 1]
    simp only [moveTogether]
    split
    · next newer =>
      have moved : ∀ i < kept, (start + kept) % n ≠ (start + i) % n := by
        intro i hi
        rw [Ne, place_injective hs (by omega) (by omega)]
        omega
      have ahead : ∀ i < todo, (start + kept) % n ≠ (start + (read + 1) + i) % n := by
        intro i hi
        rw [Nat.add_assoc, Ne, place_injective hs (by omega) (by omega)]
        omega
      rw [ih (read + 1) (kept + 1) _ (by omega) (by omega), setSlot, segment_succ,
        segment_set _ _ _ _ moved, segment_set _ _ _ _ ahead, slotAt_set, if_pos rfl,
        List.filter_cons_of_pos (by simpa using newer), List.append_assoc, List.singleton_append]
    · next older =>
      rw [ih (read + 1) kept _ (by omega) (by omega),
        List.filter_cons_of_neg (by simpa using older)]

/-- Compaction keeps the entries newer than the cutoff, in their order. -/
theorem toList_keepAfter (r : Ring) (cutoff : Instant) :
    (r.keepAfter cutoff).toList = r.toList.filter fun t => cutoff < t := by
  have first : (r.keepAfter cutoff).start = r.start :=
    start_of_head r.start_lt (r.keepAfter cutoff).size_le rfl
  have moved := segment_moveTogether r.capacity_pos cutoff r.start_lt r.size 0 0 r.slots
    (Nat.le_refl 0) (by rw [Nat.zero_add]; exact r.size_le)
  rw [toList_eq_segment, first]
  exact moved

theorem toList_ofList (capacity : Nat) (entries : List Instant) :
    (ofList capacity entries).toList = entries.drop (entries.length - slotCount capacity) := by
  have pos := slotCount_pos capacity
  have fits : (entries.drop (entries.length - slotCount capacity)).length ≤ slotCount capacity := by
    rw [List.length_drop]
    omega
  have first : (ofList capacity entries).start = 0 := by
    apply start_of_head pos fits
    rw [Nat.zero_add]
    rfl
  rw [toList_eq_segment, first]
  apply List.ext_getElem
  · simp [segment, ofList]
  · intro i hi _
    have below : i < (entries.drop (entries.length - slotCount capacity)).length := by
      simpa [segment, ofList] using hi
    have slot : i % slotCount capacity = i := Nat.mod_eq_of_lt (by omega)
    simp only [segment, List.getElem_map, List.getElem_range, Nat.zero_add, slotAt, ofList,
      Vector.getElem_ofFn, slot]
    rw [List.getD_eq_getElem?_getD, List.getElem?_eq_getElem below, Option.getD_some]

theorem toList_resize (r : Ring) (capacity : Nat) :
    (r.resize capacity).toList = r.toList.drop (r.toList.length - slotCount capacity) := by
  unfold resize
  split
  · next same =>
    have fits := r.length_toList_le
    rw [same, Nat.sub_eq_zero_of_le fits, List.drop_zero]
  · exact toList_ofList capacity r.toList

end AlertAdmission.Ring
