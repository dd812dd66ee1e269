import AlertAdmission.Proofs.Decimal.Whole
import AlertAdmission.Wire.Models
import Mathlib.Data.UInt

/-!
Limits are read back from the form in which they are written.

A loose configuration gives its numbers as doubles, whole or not, so the reader goes through doubles
for every number. Up to 2 ^ 53 nothing is lost on the way, whichever notation the number has.
-/

namespace AlertAdmission

/-- A JSON number with a natural number as its value: the whole number, or the double of any numeral
that writes it. Only a zero may have a minus sign. -/
inductive Json.Writes (n : Nat) : Json → Prop
  | whole : Writes n (.int n)
  | literal (negative : Bool) (d : Decimal.Numeral) (value : d.IsNat n)
      (sign : negative = true → n = 0) : Writes n (.float (d.toBinary64 negative))

theorem Json.Writes.double? {n : Nat} {v : Json} (h : v.Writes n) (small : n ≤ 2 ^ 53) :
    ∃ x, v.double? = some x ∧ x.IsNat n := by
  cases h with
  | whole => exact ⟨_, rfl, Binary64.isNat_ofInt small⟩
  | literal negative d value sign => exact ⟨_, rfl, Binary64.isNat_toBinary64 small value sign⟩

namespace RateLimit

variable {limit : RateLimit} {raw v maxAlerts periodSeconds : Json} {key : String} {n : Nat}

theorem requiredNumber_of_writes (found : raw.member? key = some v) (writes : v.Writes n)
    (small : n ≤ 2 ^ 53) : ∃ x, requiredNumber raw key = .ok x ∧ x.IsNat n := by
  obtain ⟨x, number, value⟩ := writes.double? small
  refine ⟨x, ?_, value⟩
  simp [requiredNumber, found, number]

/-- A limit as an object, its two numbers in the given notation. -/
def withNumbers (limit : RateLimit) (maxAlerts periodSeconds : Json) : Json :=
  .obj ([("maxAlerts", maxAlerts), ("periodSeconds", periodSeconds)] ++
    memberOf "groupByField" .str limit.groupBy)

theorem member?_groupBy (limit : RateLimit) (maxAlerts periodSeconds : Json) :
    (limit.withNumbers maxAlerts periodSeconds).member? "groupByField" =
      limit.groupBy.map .str := by
  unfold withNumbers
  cases limit.groupBy <;> rfl

/-- A field with a name is read back; one without a name would be taken for none. -/
theorem nonemptyText?_groupBy (named : limit.groupBy ≠ some "") :
    (limit.groupBy.map Json.str).bind Json.nonemptyText? = limit.groupBy := by
  cases group : limit.groupBy with
  | none => rfl
  | some name =>
    have nonempty : name ≠ "" := fun empty => named (by rw [group, empty])
    simp [Json.nonemptyText?, nonempty]

theorem parse_withNumbers (exact : limit.periodSeconds.toNat ≤ 2 ^ 53)
    (named : limit.groupBy ≠ some "") (most : maxAlerts.Writes limit.maxAlerts.toNat)
    (period : periodSeconds.Writes limit.periodSeconds.toNat) :
    parse (limit.withNumbers maxAlerts periodSeconds) = .ok limit := by
  have few : limit.maxAlerts.toNat ≤ UInt32.size - 1 :=
    Nat.le_sub_one_of_lt limit.maxAlerts.toNat_lt
  have short : limit.periodSeconds.toNat ≤ UInt64.size - 1 :=
    Nat.le_sub_one_of_lt limit.periodSeconds.toNat_lt
  obtain ⟨a, alerts, a_value⟩ : ∃ x, requiredNumber (limit.withNumbers maxAlerts periodSeconds)
      "maxAlerts" = .ok x ∧ x.IsNat limit.maxAlerts.toNat :=
    requiredNumber_of_writes rfl most (Nat.le_trans few (by decide))
  obtain ⟨p, seconds, p_value⟩ : ∃ x, requiredNumber (limit.withNumbers maxAlerts periodSeconds)
      "periodSeconds" = .ok x ∧ x.IsNat limit.periodSeconds.toNat :=
    requiredNumber_of_writes rfl period exact
  have read : parse (limit.withNumbers maxAlerts periodSeconds) = .ok
      { maxAlerts := UInt32.ofNat (a.clampToNat (UInt32.size - 1))
        periodSeconds := UInt64.ofNat (p.clampToNat (UInt64.size - 1))
        groupBy := ((limit.withNumbers maxAlerts periodSeconds).member? "groupByField").bind
          Json.nonemptyText? } := by
    unfold parse
    rw [alerts, seconds]
    rfl
  rw [read, a_value.clampToNat few, p_value.clampToNat short, member?_groupBy,
    nonemptyText?_groupBy named, UInt32.ofNat_toNat, UInt64.ofNat_toNat]

theorem parse_written (limit : RateLimit) (exact : limit.periodSeconds.toNat ≤ 2 ^ 53)
    (named : limit.groupBy ≠ some "") :
    parse (Codec.rateLimit.encode limit) = .ok limit ∧
      ∀ maxAlerts periodSeconds : Json, maxAlerts.Writes limit.maxAlerts.toNat →
        periodSeconds.Writes limit.periodSeconds.toNat →
        parse (limit.withNumbers maxAlerts periodSeconds) = .ok limit :=
  ⟨parse_withNumbers exact named .whole .whole,
    fun _ _ most period => parse_withNumbers exact named most period⟩

/-- The largest limit that is covered, with its numbers as 4294967295.0 and 9.007199254740992e15. -/
theorem parse_written_largest :
    (9007199254740992 : UInt64).toNat ≤ 2 ^ 53 ∧ some "iface" ≠ some "" ∧
      parse (Codec.rateLimit.encode ⟨4294967295, 9007199254740992, some "iface"⟩) =
        .ok ⟨4294967295, 9007199254740992, some "iface"⟩ ∧
      parse (withNumbers ⟨4294967295, 9007199254740992, some "iface"⟩
        (.float (Decimal.Numeral.toBinary64 false
          ⟨"4294967295".toList, "0".toList, 0⟩))
        (.float (Decimal.Numeral.toBinary64 false
          ⟨"9".toList, "007199254740992".toList, 15⟩))) =
        .ok ⟨4294967295, 9007199254740992, some "iface"⟩ := by
  have exact : (9007199254740992 : UInt64).toNat ≤ 2 ^ 53 := by decide
  have named : some "iface" ≠ some "" := by decide
  have written := parse_written ⟨4294967295, 9007199254740992, some "iface"⟩ exact named
  exact ⟨exact, named, written.1, written.2 _ _ (.literal _ _ (by decide) (by decide))
    (.literal _ _ (by decide) (by decide))⟩

end RateLimit

end AlertAdmission
