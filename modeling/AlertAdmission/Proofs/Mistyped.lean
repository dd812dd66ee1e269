import AlertAdmission.Proofs.QuietHours.Validation
import AlertAdmission.Throttle.RateLimit

/-!
Members of the wrong type in loose configurations.

Of the declared members the readers check the required ones and the days. The zone, the bypass and
the grouping field are only looked for under their type, so that a value of another type reads as if
nothing had been written there (`mistyped_accepted_iff`).
-/

namespace AlertAdmission

namespace Json

inductive Kind where
  | text
  | flag
  | number
  | numbers
  deriving DecidableEq, Repr

def isOf : Kind → Json → Bool
  | .text, v => v.text?.isSome
  | .flag, v => v.bool?.isSome
  | .number, v => v.double?.isSome
  | .numbers, .arr items => items.all fun item => item.double?.isSome
  | .numbers, _ => false

/-- The member is there, is not null and is not of its type. -/
def Mistyped (raw : Json) (name : String) (kind : Kind) : Prop :=
  ∃ v, raw.member? name = some v ∧ v.isNull = false ∧ v.isOf kind = false

/-- A value, or null in place of one that is not of the declared type. -/
def forgiven : Option Kind → Json → Json
  | some kind, v => if v.isOf kind then v else .null
  | none, v => v

/-- An object with null for every declared member that is not of its type. -/
def forgive (declared : List (String × Kind)) : Json → Json
  | .obj members => .obj (members.map fun m => (m.1, forgiven (declared.lookup m.1) m.2))
  | v => v

variable {raw : Json} {name : String} {kind : Kind}

theorem member?_forgive (declared : List (String × Kind)) (raw : Json) (name : String) :
    (raw.forgive declared).member? name =
      (raw.member? name).map (forgiven (declared.lookup name)) := by
  cases raw with
  | obj members =>
    simp only [forgive, member?]
    induction members with
    | nil => rfl
    | cons m rest ih =>
      rw [List.map_cons, Table.lookup_pair, ih, ← Prod.mk.eta (p := m), Table.lookup_pair]
      split
      · next same => rw [same, Option.map_some]
      · rfl
  | null | bool _ | int _ | float _ | str _ | arr _ => rfl

variable {declared : List (String × Kind)}

theorem member?_forgive_of_none (h : declared.lookup name = none) :
    (raw.forgive declared).member? name = raw.member? name := by
  rw [member?_forgive, h]
  exact Option.map_id'

theorem nonemptyText?_forgive (name : String) (h : declared.lookup name = some .text) :
    ((raw.forgive declared).member? name).bind nonemptyText? =
      (raw.member? name).bind nonemptyText? := by
  have same : ∀ v : Json, (forgiven (some .text) v).nonemptyText? = v.nonemptyText? := by
    intro v
    cases v <;> rfl
  rw [member?_forgive, h, Option.bind_map]
  exact congrArg _ (funext same)

theorem bool?_forgive (name : String) (h : declared.lookup name = some .flag) :
    ((raw.forgive declared).member? name).bind bool? = (raw.member? name).bind bool? := by
  have same : ∀ v : Json, (forgiven (some .flag) v).bool? = v.bool? := by
    intro v
    cases v <;> rfl
  rw [member?_forgive, h, Option.bind_map]
  exact congrArg _ (funext same)

end Json

open Json

/-! ### Quiet hours -/

namespace QuietHours

variable {raw : Json} {q : QuietHours}

def declared : List (String × Kind) :=
  [("startTime", .text), ("endTime", .text), ("timezone", .text), ("bypassCritical", .flag),
    ("daysOfWeek", .numbers)]

/-- The members that are read without a check of their type. -/
def unchecked : List (String × Kind) := [("timezone", .text), ("bypassCritical", .flag)]

/-- A mistyped zone or bypass is read like one that is null. -/
theorem parse_forgive [ZoneDatabase] (raw : Json) :
    parse (raw.forgive unchecked) = parse raw := by
  cases raw with
  | obj members =>
    have kept : ∀ key, unchecked.lookup key = Option.none →
        ((Json.obj members).forgive unchecked).member? key = (Json.obj members).member? key :=
      fun _ => member?_forgive_of_none
    unfold parse requiredText
    rw [kept "startTime" rfl, kept "endTime" rfl, kept "daysOfWeek" rfl,
      nonemptyText?_forgive "timezone" rfl, bool?_forgive "bypassCritical" rfl]
    rfl
  | null | bool _ | int _ | float _ | str _ | arr _ => rfl

theorem not_mistyped_of_requiredText {key text : String} (h : requiredText raw key = .ok text) :
    ¬ raw.Mistyped key .text := by
  rintro ⟨v, found, _, wrong⟩
  cases v <;> simp_all [requiredText, nonemptyText?, isOf, text?]

theorem double?_isSome_of_daysFrom {index : Nat} {values : List Json} {days : List UInt8}
    (h : daysFrom index values = .ok days) : ∀ v ∈ values, v.double?.isSome = true := by
  induction values generalizing index days with
  | nil => simp
  | cons value rest ih =>
    obtain ⟨day, first, more⟩ := bind_eq_ok.mp h
    obtain ⟨later, tail, _⟩ := bind_eq_ok.mp more
    refine List.forall_mem_cons.mpr ⟨?_, ih tail⟩
    cases number : value.double? with
    | some x => rfl
    | none => simp [dayAt, number] at first

theorem not_mistyped_of_looseDays {days : List UInt8}
    (h : looseDays (raw.member? "daysOfWeek") = .ok days) :
    ¬ raw.Mistyped "daysOfWeek" .numbers := by
  rintro ⟨v, found, given, wrong⟩
  rw [found] at h
  cases v with
  | null => cases given
  | arr values =>
    have numbers : (Json.arr values).isOf .numbers = true :=
      List.all_eq_true.mpr (double?_isSome_of_daysFrom h)
    rw [numbers] at wrong
    cases wrong
  | bool _ | int _ | float _ | str _ | obj _ => cases h

theorem mem_unchecked_of_parse [ZoneDatabase] (h : parse raw = .ok q) :
    ∀ m ∈ declared, raw.Mistyped m.1 m.2 → m ∈ unchecked := by
  cases raw with
  | obj members =>
    obtain ⟨_, startTime, h⟩ := bind_eq_ok.mp h
    obtain ⟨_, endTime, h⟩ := bind_eq_ok.mp h
    obtain ⟨_, days, _⟩ := bind_eq_ok.mp h
    have startTime := not_mistyped_of_requiredText startTime
    have endTime := not_mistyped_of_requiredText endTime
    have daysOfWeek := not_mistyped_of_looseDays days
    simp [declared, unchecked, startTime, endTime, daysOfWeek]
  | null | bool _ | int _ | float _ | str _ | arr _ => cases h

end QuietHours

/-! ### Limits -/

namespace RateLimit

variable {raw : Json} {limit : RateLimit}

def declared : List (String × Kind) :=
  [("maxAlerts", .number), ("periodSeconds", .number), ("groupByField", .text)]

/-- The member that is read without a check of its type. -/
def unchecked : List (String × Kind) := [("groupByField", .text)]

/-- A mistyped grouping field is read like one that is null. -/
theorem parse_forgive (raw : Json) : parse (raw.forgive unchecked) = parse raw := by
  cases raw with
  | obj members =>
    have kept : ∀ key, unchecked.lookup key = Option.none →
        ((Json.obj members).forgive unchecked).member? key = (Json.obj members).member? key :=
      fun _ => member?_forgive_of_none
    unfold parse requiredNumber
    rw [kept "maxAlerts" rfl, kept "periodSeconds" rfl,
      nonemptyText?_forgive "groupByField" rfl]
    rfl
  | null | bool _ | int _ | float _ | str _ | arr _ => rfl

theorem isOf_number_of_requiredNumber {key : String} {x : Binary64}
    (h : requiredNumber raw key = .ok x) :
    ∃ v, raw.member? key = some v ∧ v.isOf .number = true := by
  unfold requiredNumber at h
  split at h
  · next found =>
    obtain ⟨v, member, number⟩ := Option.bind_eq_some_iff.mp found
    exact ⟨v, member, by simp [isOf, number]⟩
  · cases h

theorem numbers_of_parse (h : parse raw = .ok limit) : ∀ key ∈ ["maxAlerts", "periodSeconds"],
    ∃ v, raw.member? key = some v ∧ v.isOf .number = true := by
  cases raw with
  | obj members =>
    obtain ⟨_, maxAlerts, h⟩ := QuietHours.bind_eq_ok.mp h
    obtain ⟨_, periodSeconds, _⟩ := QuietHours.bind_eq_ok.mp h
    simpa using ⟨isOf_number_of_requiredNumber maxAlerts,
      isOf_number_of_requiredNumber periodSeconds⟩
  | null | bool _ | int _ | float _ | str _ | arr _ => cases h

theorem mem_unchecked_of_parse (h : parse raw = .ok limit) :
    ∀ m ∈ declared, raw.Mistyped m.1 m.2 → m ∈ unchecked := by
  have numbers := numbers_of_parse h
  have typed : ∀ key ∈ ["maxAlerts", "periodSeconds"], ¬ raw.Mistyped key .number := by
    rintro key listed ⟨v, found, _, wrong⟩
    obtain ⟨w, same, number⟩ := numbers key listed
    rw [found] at same
    cases same
    rw [number] at wrong
    cases wrong
  simp_all [declared, unchecked]

end RateLimit

/-- A configuration with mistyped members is accepted exactly where all of these are unchecked ones
and it is accepted with null in their place, and it then reads as the same. Accepted limits have
their two numbers. -/
theorem mistyped_accepted_iff [ZoneDatabase] (raw : Json) :
    (∀ q, QuietHours.parse raw = .ok q ∧ (∃ m ∈ QuietHours.declared, raw.Mistyped m.1 m.2) ↔
      QuietHours.parse (raw.forgive QuietHours.unchecked) = .ok q ∧
        (∃ m ∈ QuietHours.declared, raw.Mistyped m.1 m.2) ∧
        ∀ m ∈ QuietHours.declared, raw.Mistyped m.1 m.2 → m ∈ QuietHours.unchecked) ∧
    (∀ limit, RateLimit.parse raw = .ok limit ∧
        (∃ m ∈ RateLimit.declared, raw.Mistyped m.1 m.2) ↔
      RateLimit.parse (raw.forgive RateLimit.unchecked) = .ok limit ∧
        (∃ m ∈ RateLimit.declared, raw.Mistyped m.1 m.2) ∧
        ∀ m ∈ RateLimit.declared, raw.Mistyped m.1 m.2 → m ∈ RateLimit.unchecked) ∧
    ∀ limit, RateLimit.parse raw = .ok limit → ∀ key ∈ ["maxAlerts", "periodSeconds"],
      ∃ v, raw.member? key = some v ∧ v.isOf .number = true := by
  rw [QuietHours.parse_forgive, RateLimit.parse_forgive]
  refine ⟨fun q => ?_, fun limit => ?_, fun _ => RateLimit.numbers_of_parse⟩
  · constructor
    · rintro ⟨accepted, mistyped⟩
      exact ⟨accepted, mistyped, QuietHours.mem_unchecked_of_parse accepted⟩
    · rintro ⟨accepted, mistyped, _⟩
      exact ⟨accepted, mistyped⟩
  · constructor
    · rintro ⟨accepted, mistyped⟩
      exact ⟨accepted, mistyped, RateLimit.mem_unchecked_of_parse accepted⟩
    · rintro ⟨accepted, mistyped, _⟩
      exact ⟨accepted, mistyped⟩

/-- A bypass that is text reads as the bypass that is assumed when none is written. -/
theorem not_all_mistyped_refused :
    ¬ ∀ raw q, QuietHours.parse raw = .ok q →
      ∀ m ∈ QuietHours.declared, ¬ raw.Mistyped m.1 m.2 := by
  intro refused
  have accepted : QuietHours.parse (.obj [("startTime", .str "22:00"), ("endTime", .str "07:00"),
      ("bypassCritical", .str "no")]) = .ok ⟨"22:00", "07:00", "UTC", true, []⟩ := by rfl
  exact refused _ _ accepted ("bypassCritical", .flag) (by decide) ⟨.str "no", rfl, rfl, rfl⟩

end AlertAdmission
