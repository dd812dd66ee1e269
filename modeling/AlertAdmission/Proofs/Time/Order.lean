import AlertAdmission.Time.Instant
import Mathlib.Data.List.DropRight

/-!
Instants in order, and windows that trail them.

The start of a window goes on with time as long as the earlier instant lies outside of leap seconds
(`leads_of_le`). From within one it may go back: the window that ends half a second into a leap
second starts later than the window that ends right after it.
-/

namespace AlertAdmission.Instant

theorem le_refl (t : Instant) : t ≤ t := Int.le_refl t.rank

theorem le_trans {t u v : Instant} (h : t ≤ u) (h' : u ≤ v) : t ≤ v := Int.le_trans h h'

theorem lt_of_le_of_lt {t u v : Instant} (h : t ≤ u) (h' : u < v) : t < v := Int.lt_of_le_of_lt h h'

theorem lt_of_lt_of_le {t u v : Instant} (h : t < u) (h' : u ≤ v) : t < v := Int.lt_of_lt_of_le h h'

theorem le_of_lt {t u : Instant} (h : t < u) : t ≤ u := Int.le_of_lt h

@[simp] theorem not_lt {t u : Instant} : ¬ t < u ↔ u ≤ t := Int.not_lt

@[simp] theorem not_le {t u : Instant} : ¬ t ≤ u ↔ u < t := Int.not_le

/-! ### Seconds and their fractions -/

theorem fraction_nonneg (t : Instant) : 0 ≤ t.fraction := Int.emod_nonneg _ (by decide)

theorem fraction_lt (t : Instant) : t.fraction < 1000000000 := Int.emod_lt_of_pos _ (by decide)

theorem nanos_eq (t : Instant) : t.nanos = t.second * 1000000000 + t.fraction :=
  (Int.ediv_mul_add_emod t.nanos 1000000000).symm

theorem second_le_nanos (t : Instant) : t.second * 1000000000 ≤ t.nanos :=
  Int.ediv_mul_le t.nanos (by decide)

/-! ### Trailing windows -/

/-- Time goes on from one instant to another, and so does the start of the window behind it. -/
def Leads (window : Span) (t u : Instant) : Prop := t ≤ u ∧ t - window ≤ u - window

instance (window : Span) (t u : Instant) : Decidable (t.Leads window u) :=
  inferInstanceAs (Decidable (_ ∧ _))

/-- The count of the first instant outside of leap seconds that is not earlier than this one. -/
def settled (t : Instant) : Int := if t.leap then (t.second + 1) * 1000000000 else t.nanos

theorem le_ofNanos_iff {t : Instant} {n : Int} : t ≤ ofNanos n ↔ t.settled ≤ n := by
  obtain ⟨m, b⟩ := t
  cases b <;> simp [le_iff_rank, rank, second, fraction, delay, ofNanos, settled] <;> omega

/-- Seen from outside of leap seconds, time runs as the counts do. -/
theorem ofNanos_le_iff {t : Instant} {n : Int} :
    ofNanos n ≤ t ↔ if t.leap then n < t.settled else n ≤ t.settled := by
  obtain ⟨m, b⟩ := t
  cases b <;> simp [le_iff_rank, rank, second, fraction, delay, ofNanos, settled] <;> omega

theorem ofNanos_nanos {t : Instant} (h : t.leap = false) : ofNanos t.nanos = t := by
  cases t
  simp_all [ofNanos]

theorem add_of_ordinary {t : Instant} (h : t.leap = false) (d : Int) :
    t + d = ofNanos (t.nanos + d) := by
  show shift t d = _
  rw [shift, h]
  rfl

theorem sub_of_ordinary {t : Instant} (h : t.leap = false) (d : Int) :
    t - d = ofNanos (t.nanos - d) := by
  show shift t (-d) = _
  rw [shift, h]
  rfl

/-- Back from within a leap second, a step that leaves it counts from the second after it. -/
theorem sub_of_leap {t : Instant} (h : t.leap = true) {d : Int} (nonneg : 0 ≤ d) :
    t - d = if d ≤ t.fraction then ⟨t.nanos - d, true⟩
      else ofNanos (t.nanos + 1000000000 - d) := by
  have below := t.fraction_lt
  show shift t (-d) = _
  rw [shift, if_pos h]
  by_cases stays : d ≤ t.fraction
  · rw [if_pos stays, if_pos (by omega)]
    rfl
  · rw [if_neg stays, if_neg (by omega), if_neg (show ¬ (0 : Int) < -d by omega)]
    rfl

/-- A second or more ahead, no leap second is left. -/
theorem add_of_second_le {t : Instant} {d : Int} (h : 1000000000 ≤ d) :
    t + d = ofNanos (t.nanos + d) := by
  have nonneg := t.fraction_nonneg
  show shift t d = _
  rw [shift, if_neg (show ¬(0 ≤ t.fraction + d ∧ t.fraction + d < 1000000000) by omega),
    if_pos (show (0 : Int) < d by omega), ite_self]

theorem sub_lt {t : Instant} {d : Int} (pos : 0 < d) : t - d < t := by
  cases leap : t.leap with
  | false =>
    have earlier : ofNanos (t.nanos - d) < ofNanos t.nanos := ofNanos_lt.mpr (by omega)
    rw [sub_of_ordinary leap]
    rwa [ofNanos_nanos leap] at earlier
  | true =>
    rw [sub_of_leap leap (Int.le_of_lt pos)]
    split
    · simp only [lt_iff_rank, rank, second, fraction, delay, leap, if_true] at *
      omega
    · simp only [lt_iff_rank, rank, second, fraction, delay, leap, ofNanos, if_true] at *
      simp only [Bool.false_eq_true, if_false]
      omega

/-- A window that ends outside of leap seconds starts no later than one that ends after it. -/
theorem leads_of_le {window : Int} {t u : Instant} (nonneg : 0 ≤ window) (ordinary : t.leap = false)
    (h : t ≤ u) : t.Leads window u := by
  refine ⟨h, ?_⟩
  rw [sub_of_ordinary ordinary]
  rw [← ofNanos_nanos ordinary, ofNanos_le_iff] at h
  cases hu : u.leap with
  | false =>
    rw [sub_of_ordinary hu, ofNanos_le]
    simp only [hu, settled, Bool.false_eq_true, if_false] at h
    omega
  | true =>
    simp only [hu, settled, if_true, second] at h
    rw [sub_of_leap hu nonneg]
    split
    · next stays =>
      rw [ofNanos_le_iff]
      simp only [fraction] at stays
      simp only [settled, second, if_true]
      omega
    · rw [ofNanos_le]
      omega

/-- A window that is no longer than a span, and ends that span after an instant or later, starts no
earlier than the instant. -/
theorem le_sub_of_add_le {window d : Int} {t u : Instant} (nonneg : 0 ≤ window) (le : window ≤ d)
    (ordinary : t.leap = false) (h : t + d ≤ u) : t ≤ u - window := by
  rw [add_of_ordinary ordinary] at h
  have later : ofNanos (t.nanos + d) - window ≤ u - window := (leads_of_le nonneg rfl h).2
  refine le_trans ?_ later
  rw [ofNanos_sub]
  conv_lhs => rw [← ofNanos_nanos ordinary]
  exact ofNanos_le.mpr (by omega)

/-! ### Lists of instants in order -/

theorem filter_above_later {l m : List Instant} {cutoff later : Instant} (h : cutoff ≤ later)
    (agree : (l.filter fun t => cutoff < t) = m.filter fun t => cutoff < t) :
    (l.filter fun t => later < t) = m.filter fun t => later < t := by
  have above : ∀ k : List Instant, (k.filter fun t => later < t) =
      (k.filter fun t => cutoff < t).filter fun t => later < t := by
    intro k
    rw [List.filter_filter]
    apply List.filter_congr
    intro t _
    by_cases newer : later < t
    · simp [newer, lt_of_le_of_lt h newer]
    · simp [newer]
  rw [above l, above m, agree]

/-- In a list, nothing old comes after an instant that is later than the cutoff. -/
def LeftInOrder (cutoff : Instant) (l : List Instant) : Prop :=
  l.Pairwise fun t u => cutoff < t → cutoff < u

instance (cutoff : Instant) (l : List Instant) : Decidable (LeftInOrder cutoff l) :=
  inferInstanceAs (Decidable (List.Pairwise _ _))

theorem leftInOrder_of_ordered {l : List Instant} (ordered : l.Pairwise (· ≤ ·))
    (cutoff : Instant) : LeftInOrder cutoff l :=
  ordered.imp fun le newer => lt_of_lt_of_le newer le

/-- Dropping the old front of a list leaves nothing old just when nothing old is behind it. -/
theorem newer_dropWhile_iff {l : List Instant} {cutoff : Instant} :
    (∀ t ∈ l.dropWhile fun t => t ≤ cutoff, cutoff < t) ↔ LeftInOrder cutoff l := by
  induction l with
  | nil => simp [LeftInOrder]
  | cons t rest ih =>
    rw [LeftInOrder, List.pairwise_cons]
    by_cases old : t ≤ cutoff
    · rw [List.dropWhile_cons_of_pos (by simpa using old), ih]
      simp [LeftInOrder, not_lt.mpr old]
    · have newer : cutoff < t := not_le.mp old
      rw [List.dropWhile_cons_of_neg (by simpa using newer), List.forall_mem_cons]
      constructor
      · intro all
        exact ⟨fun u member _ => all.2 u member,
          List.pairwise_of_forall_mem_list fun _ _ u member _ => all.2 u member⟩
      · intro behind
        exact ⟨newer, fun u member => behind.1 u member newer⟩

theorem dropWhile_eq_filter_of_leftInOrder {l : List Instant} {cutoff : Instant}
    (inOrder : LeftInOrder cutoff l) :
    (l.dropWhile fun t => t ≤ cutoff) = l.filter fun t => cutoff < t := by
  have newer := newer_dropWhile_iff.mpr inOrder
  have parts : (l.takeWhile fun t => t ≤ cutoff) ++ (l.dropWhile fun t => t ≤ cutoff) = l :=
    List.takeWhile_append_dropWhile
  have none : ((l.takeWhile fun t => t ≤ cutoff).filter fun t => cutoff < t) = [] := by
    rw [List.filter_eq_nil_iff]
    intro t member
    simpa using List.mem_takeWhile_imp member
  have all : ((l.dropWhile fun t => t ≤ cutoff).filter fun t => cutoff < t) =
      l.dropWhile fun t => t ≤ cutoff := by
    rw [List.filter_eq_self]
    simpa using newer
  conv_rhs => rw [← parts, List.filter_append, none, all, List.nil_append]

theorem dropWhile_eq_filter {l : List Instant} (ordered : l.Pairwise (· ≤ ·)) (cutoff : Instant) :
    (l.dropWhile fun t => t ≤ cutoff) = l.filter fun t => cutoff < t :=
  dropWhile_eq_filter_of_leftInOrder (leftInOrder_of_ordered ordered cutoff)

/-! ### Lists in order that have lost their front -/

/-- What is kept of a list when its front is gone, of which some cutoffs have reached everything. -/
def Trims (cutoffs l kept : List Instant) : Prop :=
  ∃ gone, l = gone ++ kept ∧ ∀ t ∈ gone, ∃ cutoff ∈ cutoffs, t ≤ cutoff

variable {cutoffs l kept : List Instant} {cutoff : Instant}

theorem Trims.refl (cutoffs l : List Instant) : Trims cutoffs l l :=
  ⟨[], rfl, fun _ none => absurd none List.not_mem_nil⟩

theorem Trims.suffix (h : Trims cutoffs l kept) : kept <:+ l := by
  obtain ⟨gone, all, _⟩ := h
  exact ⟨gone, all.symm⟩

theorem Trims.widen (h : Trims cutoffs l kept) {more : List Instant} (sub : cutoffs ⊆ more) :
    Trims more l kept := by
  obtain ⟨gone, all, passed⟩ := h
  refine ⟨gone, all, fun t member => ?_⟩
  obtain ⟨cutoff, there, reached⟩ := passed t member
  exact ⟨cutoff, sub there, reached⟩

theorem Trims.trans {rest : List Instant} (h : Trims cutoffs l kept)
    (h' : Trims cutoffs kept rest) : Trims cutoffs l rest := by
  obtain ⟨gone, rfl, passed⟩ := h
  obtain ⟨later, rfl, passed'⟩ := h'
  refine ⟨gone ++ later, (List.append_assoc _ _ _).symm, fun t member => ?_⟩
  rcases List.mem_append.mp member with first | second
  · exact passed t first
  · exact passed' t second

theorem Trims.append (h : Trims cutoffs l kept) (more : List Instant) :
    Trims cutoffs (l ++ more) (kept ++ more) := by
  obtain ⟨gone, rfl, passed⟩ := h
  exact ⟨gone, List.append_assoc _ _ _, passed⟩

/-- A cutoff sees no difference where it has reached whatever the others have. -/
theorem Trims.filter_eq (h : Trims cutoffs l kept)
    (latest : ∀ t ∈ l, ∀ c ∈ cutoffs, t ≤ c → t ≤ cutoff) :
    (kept.filter fun t => cutoff < t) = l.filter fun t => cutoff < t := by
  obtain ⟨gone, rfl, passed⟩ := h
  have none : (gone.filter fun t => cutoff < t) = [] := by
    rw [List.filter_eq_nil_iff]
    intro t member
    obtain ⟨c, there, reached⟩ := passed t member
    simpa using latest t (List.mem_append_left _ member) c there reached
  rw [List.filter_append, none, List.nil_append]

theorem Trims.filter_self (h : Trims [cutoff] l kept) :
    (kept.filter fun t => cutoff < t) = l.filter fun t => cutoff < t := by
  apply h.filter_eq
  intro t _ c there reached
  rwa [← List.mem_singleton.mp there]

/-- In order, everything before an instant that a cutoff has reached is reached as well. -/
theorem trims_of_reached {gone : List Instant} (ordered : (gone ++ kept).Pairwise (· ≤ ·))
    (reached : (kept.filter fun t => cutoff < t).length < kept.length) :
    Trims [cutoff] (gone ++ kept) kept := by
  rw [List.length_filter_lt_length_iff_exists] at reached
  obtain ⟨u, there, old⟩ := reached
  rw [decide_eq_true_eq, not_lt] at old
  refine ⟨gone, rfl, fun t member => ⟨cutoff, List.mem_singleton_self cutoff, ?_⟩⟩
  exact le_trans ((List.pairwise_append.mp ordered).2.2 t member u there) old

theorem trims_filter (ordered : l.Pairwise (· ≤ ·)) (cutoff : Instant) :
    Trims [cutoff] l (l.filter fun t => cutoff < t) := by
  refine ⟨l.takeWhile fun t => t ≤ cutoff, ?_, fun t member => ?_⟩
  · rw [← dropWhile_eq_filter ordered, List.takeWhile_append_dropWhile]
  · have old := List.all_eq_true.mp List.all_takeWhile t member
    rw [decide_eq_true_eq] at old
    exact ⟨cutoff, List.mem_singleton_self cutoff, old⟩

theorem trims_tail (ordered : l.Pairwise (· ≤ ·))
    (reached : (l.filter fun t => cutoff < t).length < l.length) :
    Trims [cutoff] l l.tail := by
  cases l with
  | nil => exact .refl _ _
  | cons t rest =>
    by_cases newer : cutoff < t
    · have all : ((t :: rest).filter fun t => cutoff < t) = t :: rest := by
        apply List.filter_eq_self.mpr
        intro u member
        rcases List.mem_cons.mp member with rfl | member
        · simpa using newer
        · simpa using lt_of_lt_of_le newer ((List.pairwise_cons.mp ordered).1 u member)
      rw [all] at reached
      omega
    · refine ⟨[t], rfl, List.forall_mem_singleton.mpr ?_⟩
      exact ⟨cutoff, List.mem_singleton_self cutoff, not_lt.mp newer⟩

theorem filter_tail_of_reached (ordered : l.Pairwise (· ≤ ·))
    (reached : (l.filter fun t => cutoff < t).length < l.length) :
    (l.tail.filter fun t => cutoff < t) = l.filter fun t => cutoff < t :=
  (trims_tail ordered reached).filter_self

/-- The end of a list in order has as many instants after a cutoff as it can. -/
theorem length_filter_suffix (ordered : l.Pairwise (· ≤ ·)) (suffix : kept <:+ l)
    (cutoff : Instant) : (kept.filter fun t => cutoff < t).length =
      min kept.length (l.filter fun t => cutoff < t).length := by
  obtain ⟨gone, rfl⟩ := suffix
  have most := List.length_filter_le (fun t => decide (cutoff < t)) kept
  by_cases reached : (kept.filter fun t => cutoff < t).length < kept.length
  · have same := (trims_of_reached ordered reached).filter_self
    rw [← same]
    omega
  · have fewer : (kept.filter fun t => cutoff < t).length ≤
        ((gone ++ kept).filter fun t => cutoff < t).length := by
      rw [List.filter_append, List.length_append]
      exact Nat.le_add_left _ _
    omega

theorem rtake_suffix (l : List Instant) (n : Nat) : l.rtake n <:+ l := List.drop_suffix _ _

theorem length_rtake (l : List Instant) (n : Nat) : (l.rtake n).length = min n l.length := by
  rw [List.rtake, List.length_drop]
  omega

theorem rtake_of_suffix (suffix : kept <:+ l) {n : Nat} (enough : n ≤ kept.length) :
    kept.rtake n = l.rtake n := by
  obtain ⟨gone, rfl⟩ := suffix
  rw [List.rtake, List.rtake, List.length_append, Nat.add_sub_assoc enough,
    List.drop_length_add_append]

theorem length_filter_rtake (ordered : l.Pairwise (· ≤ ·)) (n : Nat) (cutoff : Instant) :
    ((l.rtake n).filter fun t => cutoff < t).length =
      min n (l.filter fun t => cutoff < t).length := by
  have most := List.length_filter_le (fun t => decide (cutoff < t)) l
  rw [length_filter_suffix ordered (rtake_suffix l n), length_rtake]
  omega

/-- Of a list in order with fewer than so many instants after a cutoff, the last so many have all
of them. -/
theorem trims_rtake {n : Nat} (ordered : l.Pairwise (· ≤ ·))
    (room : (l.filter fun t => cutoff < t).length < n) : Trims [cutoff] l (l.rtake n) := by
  obtain ⟨gone, parts⟩ := rtake_suffix l n
  have count := length_filter_rtake ordered n cutoff
  have size := length_rtake l n
  by_cases fits : l.length ≤ n
  · have all : l.rtake n = l := by rw [List.rtake, Nat.sub_eq_zero_of_le fits, List.drop_zero]
    rw [all]
    exact .refl _ _
  · rw [← parts] at ordered
    have trims : Trims [cutoff] (gone ++ l.rtake n) (l.rtake n) :=
      trims_of_reached ordered (by omega)
    rwa [parts] at trims

/-! ### The first and the last of some instants -/

/-- Going through a list with the best element so far ends at one that no other is better than. -/
theorem foldl_best {α : Type} (better : α → α → Prop) [DecidableRel better]
    (asymm : ∀ a b, better a b → ¬ better b a)
    (trans : ∀ a b c, ¬ better a b → ¬ better b c → ¬ better a c) (l : List α) (first : α) :
    l.foldl (fun best a => if better a best then a else best) first ∈ first :: l ∧
      ∀ a ∈ first :: l,
        ¬ better a (l.foldl (fun best a => if better a best then a else best) first) := by
  induction l generalizing first with
  | nil => exact ⟨List.mem_cons_self, by simpa using fun h => asymm first first h h⟩
  | cons next rest ih =>
    obtain ⟨member, none⟩ := ih (if better next first then next else first)
    have best := none _ List.mem_cons_self
    rw [List.foldl_cons]
    generalize rest.foldl (fun best a => if better a best then a else best)
      (if better next first then next else first) = last at member none best ⊢
    constructor
    · rcases List.mem_cons.mp member with rfl | later
      · split <;> simp
      · exact List.mem_cons_of_mem _ (List.mem_cons_of_mem _ later)
    · have both : ¬ better first last ∧ ¬ better next last := by
        split at best
        · next wins => exact ⟨trans _ _ _ (asymm _ _ wins) best, best⟩
        · next loses => exact ⟨best, trans _ _ _ loses best⟩
      intro a there
      rcases List.mem_cons.mp there with rfl | there
      · exact both.1
      · rcases List.mem_cons.mp there with rfl | there
        · exact both.2
        · exact none a (List.mem_cons_of_mem _ there)

/-- Where no two elements are as good as each other there is no other such element. -/
theorem foldl_best_eq_iff {α : Type} (better : α → α → Prop) [DecidableRel better]
    (asymm : ∀ a b, better a b → ¬ better b a)
    (trans : ∀ a b c, ¬ better a b → ¬ better b c → ¬ better a c)
    (strict : ∀ a b, ¬ better a b → ¬ better b a → a = b) (l : List α) (first a : α) :
    l.foldl (fun best a => if better a best then a else best) first = a ↔
      a ∈ first :: l ∧ ∀ b ∈ first :: l, ¬ better b a := by
  obtain ⟨member, none⟩ := foldl_best better asymm trans l first
  constructor
  · rintro rfl
    exact ⟨member, none⟩
  · rintro ⟨there, best⟩
    exact strict _ _ (best _ member) (none a there)

theorem foldl_least_eq_iff (l : List Instant) (first t : Instant) :
    l.foldl (fun least u => if u < least then u else least) first = t ↔
      t ∈ first :: l ∧ ∀ u ∈ first :: l, t ≤ u := by
  have least := foldl_best_eq_iff (fun a b : Instant => a < b)
    (fun a b h => Int.lt_asymm h)
    (fun a b c h h' => not_lt.mpr (le_trans (not_lt.mp h') (not_lt.mp h)))
    (fun a b h h' => eq_of_rank_eq (Int.le_antisymm (not_lt.mp h') (not_lt.mp h))) l first t
  simpa only [not_lt] using least

theorem foldl_greatest_eq_iff (l : List Instant) (first t : Instant) :
    l.foldl (fun greatest u => if greatest < u then u else greatest) first = t ↔
      t ∈ first :: l ∧ ∀ u ∈ first :: l, u ≤ t := by
  have greatest := foldl_best_eq_iff (fun a b : Instant => b < a)
    (fun a b h => Int.lt_asymm h)
    (fun a b c h h' => not_lt.mpr (le_trans (not_lt.mp h) (not_lt.mp h')))
    (fun a b h h' => eq_of_rank_eq (Int.le_antisymm (not_lt.mp h) (not_lt.mp h'))) l first t
  simpa only [not_lt] using greatest

end AlertAdmission.Instant
