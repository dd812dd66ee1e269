import AlertAdmission.Proofs.Time.Order

/-!
Logs whose entries are justified by the entries before them.

Gates that decide from what they let through before write such logs: the entry that came last in a
window found all others there, so the window holds no more than the gate allows
(`Justified.length_trailing_le`).
-/

namespace AlertAdmission

/-- Each entry of a log is justified by the entries before it. -/
def Justified {α : Type} (because : List α → α → Prop) (log : List α) : Prop :=
  ∀ before entry after, log = before ++ entry :: after → because before entry

namespace Justified

variable {α : Type} {because : List α → α → Prop} {log : List α}

theorem iff_getElem : Justified because log ↔
    ∀ i, ∀ inside : i < log.length, because (log.take i) log[i] := by
  constructor
  · intro h i inside
    exact h (log.take i) log[i] (log.drop (i + 1)) (by simp)
  · rintro h before entry after rfl
    simpa using h before.length (by simp)

instance [∀ before entry, Decidable (because before entry)] : Decidable (Justified because log) :=
  decidable_of_iff _ iff_getElem.symm

theorem nil : Justified because [] := by
  intro before entry after position
  simp at position

theorem snoc {last : α} (h : Justified because log) (justified : because log last) :
    Justified because (log ++ [last]) := by
  intro before entry after position
  rcases List.eq_nil_or_concat after with rfl | ⟨rest, x, rfl⟩
  · obtain ⟨rfl, same⟩ := List.append_inj' position rfl
    cases List.head_eq_of_cons_eq same
    exact justified
  · rw [List.concat_eq_append, ← List.cons_append, ← List.append_assoc] at position
    exact h before entry rest (List.append_inj' position rfl).1

theorem of_append {more : List α} (h : Justified because (log ++ more)) :
    Justified because log := by
  intro before entry after position
  exact h before entry (after ++ more) (by rw [position]; simp)

theorem last {last : α} (h : Justified because (log ++ [last])) : because log last :=
  h log last [] rfl

theorem snoc_iff {last : α} :
    Justified because (log ++ [last]) ↔ Justified because log ∧ because log last :=
  ⟨fun h => ⟨h.of_append, h.last⟩, fun h => h.1.snoc h.2⟩

theorem exists_of_mem (h : Justified because log) {entry : α} (member : entry ∈ log) :
    ∃ before, because before entry := by
  obtain ⟨before, after, position⟩ := List.append_of_mem member
  exact ⟨before, h before entry after position⟩

/-! ### Trailing windows -/

variable {instant : α → Instant} {passes : α → Bool} {window : Span} {bound : Nat}

/-- Where every entry that passes finds fewer than the bound in its window, no trailing window has
more than the bound. -/
theorem length_trailing_le
    (room : Justified (fun before entry => passes entry →
      (before.filter fun e => passes e && instant entry - window < instant e).length < bound) log)
    {u : Instant} (leads : ∀ entry ∈ log, passes entry → instant entry ≤ u →
      instant entry - window ≤ u - window) :
    (log.filter fun e => passes e && u - window < instant e && instant e ≤ u).length ≤ bound := by
  rcases List.eq_nil_or_concat (log.filter fun e => passes e && u - window < instant e &&
    instant e ≤ u) with none | ⟨others, last, all⟩
  · rw [none]
    exact Nat.zero_le _
  · -- the last entry in the window found all others in its own window
    rw [List.concat_eq_append] at all
    obtain ⟨pre, rest, rfl, before, found⟩ := List.filter_eq_append_iff.mp all
    obtain ⟨gap, post, rfl, _, inside, _⟩ := List.filter_eq_cons_iff.mp found
    simp only [Bool.and_eq_true, decide_eq_true_eq] at inside
    have fewer := room (pre ++ gap) last post (by simp) inside.1.1
    have start := leads last (by simp) inside.1.1 inside.2
    have seen : others.length ≤
        ((pre ++ gap).filter fun e => passes e && instant last - window < instant e).length := by
      rw [← before, List.filter_append, List.length_append]
      apply Nat.le_trans _ (Nat.le_add_right _ _)
      rw [← List.countP_eq_length_filter, ← List.countP_eq_length_filter]
      apply List.countP_mono_left
      intro e _ holds
      simp only [Bool.and_eq_true, decide_eq_true_eq] at holds ⊢
      exact ⟨holds.1.1, Instant.lt_of_le_of_lt start holds.1.2⟩
    rw [all, List.length_append, List.length_singleton]
    omega

end Justified

end AlertAdmission
