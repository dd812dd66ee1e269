import AlertAdmission.Proofs.Time.Duration
import AlertAdmission.Proofs.Time.Rfc3339
import AlertAdmission.Wire.Codec

/-!
Codecs that read back what they write.

A codec is stable when every value that it reads from a proper document is one that it reads back
from what it writes. Single values are shown to be stable one by one. Optional values, lists and
records of stable ones are stable; for a record it is enough that each field is found again under
its name (`Codec.Restores`).
-/

namespace AlertAdmission

namespace Json

/-- A value as a document can hold it: whole numbers within a word of 64 bits, and finite doubles. -/
inductive Proper : Json → Prop where
  | null : Proper .null
  | bool (b : Bool) : Proper (.bool b)
  | int {i : Int} (least : leastInt ≤ i) (greatest : i ≤ greatestInt) : Proper (.int i)
  | float {x : Binary64} (finite : x.isFinite = true) : Proper (.float x)
  | str (s : String) : Proper (.str s)
  | arr {items : List Json} (proper : ∀ v ∈ items, Proper v) : Proper (.arr items)
  | obj {members : List (String × Json)} (proper : ∀ m ∈ members, Proper m.2) :
    Proper (.obj members)

end Json

namespace Codec

variable {α β : Type} {c : Codec α}

/-- A value is read back from what is written for it. -/
def Fixes (c : Codec α) (a : α) : Prop := c.decode (c.encode a) = some a

def Stable (c : Codec α) : Prop := ∀ v a, v.Proper → c.decode v = some a → c.Fixes a

/-! ### Single values -/

theorem stable_any : Stable any := fun _ _ _ _ => rfl

theorem stable_text : Stable text := fun _ _ _ _ => rfl

theorem stable_flag : Stable flag := fun _ _ _ _ => rfl

theorem natBelow?_of_lt {limit n : Nat} (h : n < limit) : natBelow? limit (.int n) = some n :=
  if_pos h

theorem lt_of_natBelow {limit n : Nat} {v : Json} (h : natBelow? limit v = some n) : n < limit := by
  unfold natBelow? at h
  split at h
  · obtain ⟨below, same⟩ := Option.ite_none_right_eq_some.mp h
    cases same
    exact below
  · cases h

theorem stable_count : Stable count := fun _ _ _ h => natBelow?_of_lt (lt_of_natBelow h)

theorem fixes_word64 (n : UInt64) : word64.Fixes n := by
  unfold Fixes word64
  dsimp only
  rw [natBelow?_of_lt n.toNat_lt, Option.map_some, UInt64.ofNat_toNat]

theorem fixes_word32 (n : UInt32) : word32.Fixes n := by
  unfold Fixes word32
  dsimp only
  rw [natBelow?_of_lt n.toNat_lt, Option.map_some, UInt32.ofNat_toNat]

theorem fixes_word8 (n : UInt8) : word8.Fixes n := by
  unfold Fixes word8
  dsimp only
  rw [natBelow?_of_lt n.toNat_lt, Option.map_some, UInt8.ofNat_toNat]

theorem stable_word64 : Stable word64 := fun _ n _ _ => fixes_word64 n

theorem stable_word32 : Stable word32 := fun _ n _ _ => fixes_word32 n

theorem stable_word8 : Stable word8 := fun _ n _ _ => fixes_word8 n

/-- A whole number of up to 64 bits needs no exponent that is out of range. -/
theorem isFinite_ofInt {i : Int} (least : Json.leastInt ≤ i) (greatest : i ≤ Json.greatestInt) :
    (Binary64.ofInt i).isFinite = true := by
  unfold Json.leastInt at least
  unfold Json.greatestInt at greatest
  have small : i.natAbs < 2 ^ 64 := by omega
  unfold Binary64.ofInt Binary64.ofFraction
  by_cases zero : i.natAbs = 0
  · rw [if_pos zero]
    rfl
  · rw [if_neg zero]
    have bits : Nat.log2 i.natAbs < 64 := (Nat.log2_lt zero).mpr small
    have place : Binary64.lastPlace i.natAbs 1 ≤ 12 := by
      have one : Nat.log2 1 = 0 := rfl
      unfold Binary64.lastPlace Binary64.leastExponent
      rw [one]
      dsimp only
      split <;> split <;> omega
    dsimp only
    rw [if_neg]
    · rfl
    · unfold Binary64.greatestExponent
      split <;> omega

theorem stableOn_double : double.StableOn fun x => x.isFinite = true := by
  intro v x _ finite
  unfold double Json.ofDouble
  dsimp only
  rw [if_pos finite]
  rfl

theorem stable_double : Stable double := by
  intro v x proper h
  apply stableOn_double v x h
  cases proper with
  | int least greatest =>
    cases h
    exact isFinite_ofInt least greatest
  | float finite =>
    cases h
    exact finite
  | null => cases h
  | bool b => cases h
  | str s => cases h
  | arr _ => cases h
  | obj _ => cases h

theorem stable_severity : Stable severity := fun _ s _ _ => Severity.ofName?_name s

theorem stable_instant : Stable instant := by
  intro v t _ h
  obtain ⟨text, _, read⟩ := Option.bind_eq_some_iff.mp h
  unfold Fixes instant
  dsimp only [Json.text?, Option.bind_some]
  rw [Rfc3339.read?_write (Rfc3339.writable_of_read read)]

theorem fixes_duration {d : Duration} (fits : (d : Nat) < UInt64.size * 1000000000) :
    duration.Fixes d := by
  unfold Fixes duration
  dsimp only [Json.text?, Option.bind_some]
  rw [Duration.read?_write fits]

theorem stable_duration : Stable duration := by
  intro v d _ h
  obtain ⟨text, _, read⟩ := Option.bind_eq_some_iff.mp h
  exact fixes_duration (Duration.lt_of_read read)

/-! ### Optional values and lists -/

theorem fixes_none : c.optional.Fixes none := rfl

theorem fixes_nil : c.list.Fixes [] := rfl

/-- What is written for a value that is there is not null, as that cannot be read. -/
theorem fixes_some (refuses : c.decode .null = none) {a : α} (h : c.Fixes a) :
    c.optional.Fixes (some a) := by
  unfold Fixes at h
  unfold Fixes optional Json.ofOption
  dsimp only
  split
  · next null =>
    rw [null, refuses] at h
    cases h
  · rw [h]
    rfl

theorem stable_optional (refuses : c.decode .null = none) (stable : Stable c) :
    Stable c.optional := by
  intro v a proper h
  unfold optional at h
  dsimp only at h
  split at h
  · cases h
    rfl
  · obtain ⟨b, read, same⟩ := Option.map_eq_some_iff.mp h
    cases same
    exact fixes_some refuses (stable v b proper read)

theorem stable_list (stable : Stable c) : Stable c.list := by
  intro v as proper h
  cases proper with
  | arr proper =>
    rename_i items
    unfold list at h
    dsimp only at h
    unfold Fixes list
    dsimp only
    induction items generalizing as with
    | nil =>
      cases h
      rfl
    | cons item rest ih =>
      simp only [decodeAll, Option.bind_eq_bind, Option.bind_eq_some_iff] at h
      obtain ⟨a, first, later, others, same⟩ := h
      cases same
      have fixed := stable item a (proper item List.mem_cons_self) first
      have fixes := ih later (fun v member => proper v (List.mem_cons_of_mem _ member)) others
      unfold Fixes at fixed
      rw [List.map_cons, decodeAll, fixed, fixes]
      rfl
  | null => cases h
  | bool b => cases h
  | int _ _ => cases h
  | float _ => cases h
  | str s => cases h
  | obj _ => cases h

/-! ### Records -/

namespace Fields

def Proper : Fields → Prop
  | .named members => ∀ m ∈ members, m.2.Proper
  | .listed items => ∀ v ∈ items, v.Proper

end Fields

variable {r : FieldReader α} {members : List (String × Json)}

/-- A reader finds a value among the members of an object. -/
def Finds (members : List (String × Json)) (r : FieldReader α) (a : α) : Prop :=
  r.run (.named members) = some (a, .named members)

theorem finds_pure (a : α) : Finds members (pure a) a := rfl

theorem Finds.bind {a : α} (h : Finds members r a) {k : α → FieldReader β} {b : β}
    (next : Finds members (k a) b) : Finds members (r >>= k) b := by
  unfold Finds at h next ⊢
  rw [StateT.run_bind, h]
  exact next

theorem finds_field {name : String} {missing : FieldReader α} {a : α}
    (found : members.lookup name = some (c.encode a)) (fixed : c.Fixes a) :
    Finds members (fieldOr name c missing) a := by
  unfold Fixes at fixed
  have next : Finds members (nextField name) (members.lookup name) := rfl
  refine next.bind ?_
  rw [found]
  unfold Finds StateT.lift
  dsimp only [StateT.run]
  rw [fixed]
  rfl

def Yields (r : FieldReader α) (good : α → Prop) : Prop :=
  ∀ fields a rest, fields.Proper → r.run fields = some (a, rest) → good a ∧ rest.Proper

theorem yields_pure {good : α → Prop} {a : α} (h : good a) : Yields (pure a) good := by
  intro fields b rest proper ran
  cases ran
  exact ⟨h, proper⟩

theorem Yields.bind {good : α → Prop} {k : α → FieldReader β} {next : β → Prop}
    (h : Yields r good) (yields : ∀ a, good a → Yields (k a) next) : Yields (r >>= k) next := by
  intro fields b rest proper ran
  rw [StateT.run_bind] at ran
  obtain ⟨⟨a, left⟩, first, second⟩ := Option.bind_eq_some_iff.mp ran
  obtain ⟨fine, properLeft⟩ := h fields a left proper first
  exact yields a fine left b rest properLeft second

theorem yields_nextField (name : String) :
    Yields (nextField name) fun v => ∀ j ∈ v, j.Proper := by
  intro fields v rest proper ran
  cases fields with
  | named members =>
    cases ran
    refine ⟨fun j found => ?_, proper⟩
    obtain ⟨l, r, same, _⟩ := List.lookup_eq_some_iff.mp found
    exact proper (name, j) (same ▸ List.mem_append_right _ List.mem_cons_self)
  | listed items =>
    cases items with
    | nil =>
      cases ran
      refine ⟨fun j found => ?_, proper⟩
      cases found
    | cons item later =>
      cases ran
      refine ⟨fun j found => ?_, fun v member => proper v (List.mem_cons_of_mem _ member)⟩
      cases found
      exact proper item List.mem_cons_self

theorem yields_field (stable : Stable c) {name : String} {missing : FieldReader α}
    (stands : Yields missing c.Fixes) : Yields (fieldOr name c missing) c.Fixes := by
  refine (yields_nextField name).bind fun v proper => ?_
  cases v with
  | none => exact stands
  | some v =>
    intro fields a rest properRest ran
    obtain ⟨b, decoded, same⟩ := Option.bind_eq_some_iff.mp ran
    cases same
    exact ⟨stable v a (proper v rfl) decoded, properRest⟩

theorem yields_required (stable : Stable c) (name : String) : Yields (required name c) c.Fixes :=
  yields_field stable fun _ _ _ _ ran => nomatch ran

theorem yields_defaulted (stable : Stable c) (name : String) {default : α}
    (fixed : c.Fixes default) : Yields (defaulted name c default) c.Fixes :=
  yields_field stable (yields_pure fixed)

theorem yields_omissible (refuses : c.decode .null = none) (stable : Stable c) (name : String) :
    Yields (omissible name c) c.optional.Fixes := by
  refine yields_field (stable_optional refuses stable) ?_
  intro fields a rest proper ran
  cases fields with
  | named members =>
    cases ran
    exact ⟨rfl, proper⟩
  | listed items => cases ran

/-- The values that a reader makes up from proper fields are found again among the members that are
written for them. What is known of them already goes along. -/
def Restores (members : β → List (String × Json)) (known : β → Prop) (r : FieldReader β) : Prop :=
  Yields r fun b => known b ∧ Finds (members b) r b

namespace Restores

variable {members : β → List (String × Json)} {known : β → Prop} {name : String}

theorem pure {b : β} (h : known b) : Restores members known (Pure.pure b) :=
  yields_pure ⟨h, finds_pure b⟩

theorem field {good : α → Prop} (yields : Yields r good) {k : α → FieldReader β}
    (next : ∀ a, good a → Restores members (fun b => known b ∧ Finds (members b) r a) (k a)) :
    Restores members known (r >>= k) := by
  refine yields.bind fun a fine => ?_
  intro fields b rest proper ran
  obtain ⟨⟨⟨knows, found⟩, finds⟩, properRest⟩ := next a fine fields b rest proper ran
  exact ⟨⟨knows, found.bind finds⟩, properRest⟩

/-- A field that is always written, and read in one way or another. -/
theorem written {missing : FieldReader α} (yields : Yields (fieldOr name c missing) c.Fixes)
    {k : α → FieldReader β} (next : ∀ a,
      Restores members (fun b => known b ∧ (members b).lookup name = some (c.encode a)) (k a)) :
    Restores members known (fieldOr name c missing >>= k) := by
  refine field yields fun a fixed => ?_
  intro fields b rest proper ran
  obtain ⟨⟨⟨knows, found⟩, finds⟩, properRest⟩ := next a fields b rest proper ran
  exact ⟨⟨⟨knows, finds_field found fixed⟩, finds⟩, properRest⟩

theorem required (stable : Stable c) {k : α → FieldReader β} (next : ∀ a,
      Restores members (fun b => known b ∧ (members b).lookup name = some (c.encode a)) (k a)) :
    Restores members known (Codec.required name c >>= k) :=
  written (yields_required stable name) next

theorem defaulted (stable : Stable c) {default : α} (fixed : c.Fixes default)
    {k : α → FieldReader β} (next : ∀ a,
      Restores members (fun b => known b ∧ (members b).lookup name = some (c.encode a)) (k a)) :
    Restores members known (Codec.defaulted name c default >>= k) :=
  written (yields_defaulted stable name fixed) next

theorem omissible (refuses : c.decode .null = none) (stable : Stable c)
    {k : Option α → FieldReader β} (next : ∀ a, Restores members
      (fun b => known b ∧ (members b).lookup name = some (c.optional.encode a)) (k a)) :
    Restores members known (Codec.omissible name c >>= k) :=
  written (yields_omissible refuses stable name) next

end Restores

theorem stable_record {members : α → List (String × Json)} {fields : FieldReader α}
    (restores : Restores members (fun _ => True) fields) : Stable (record members fields) := by
  have fixes (from_ : Fields) (a : α) (rest : Fields) (proper : from_.Proper)
      (ran : fields.run from_ = some (a, rest)) : (record members fields).Fixes a := by
    have finds := (restores from_ a rest proper ran).1.2
    unfold Finds at finds
    unfold Fixes record decodeRecord
    dsimp only
    rw [finds]
    rfl
  intro v a proper h
  cases proper with
  | obj proper =>
    obtain ⟨⟨b, rest⟩, ran, same⟩ := Option.map_eq_some_iff.mp h
    cases same
    exact fixes (.named _) b rest proper ran
  | arr proper =>
    unfold record decodeRecord at h
    dsimp only at h
    split at h
    · next ran =>
      cases h
      exact fixes (.listed _) a _ proper ran
    · cases h
  | null => cases h
  | bool b => cases h
  | int _ _ => cases h
  | float _ => cases h
  | str s => cases h

end Codec

end AlertAdmission
