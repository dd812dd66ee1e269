import AlertAdmission.Digest
import AlertAdmission.Proofs.Time.Order

/-!
What a digest tells.

Its text lists sections, each with counts of the alerts of one severity by their kinds
(`Digest.Contents`). For alerts that are given, only one such list has the right counts
(`Digest.eq_contents`), and the counts do not change with the order of the alerts. So neither does
the text (`Digest.text_of_counts`).
-/

namespace AlertAdmission

namespace HeldAlert

def stated (a : HeldAlert) : HeldAlert := { a with severity := some (a.severity.getD .info) }

@[simp] theorem reportedSeverity_stated (a : HeldAlert) :
    a.stated.reportedSeverity = a.reportedSeverity := rfl

@[simp] theorem kind_stated (a : HeldAlert) : a.stated.kind = a.kind := rfl

@[simp] theorem heldAt_stated (a : HeldAlert) : a.stated.heldAt = a.heldAt := rfl

end HeldAlert

namespace Digest

/-- The part of a digest about one severity: its alerts, and how many there are of each kind. -/
structure Section where
  severity : Severity
  alerts : Nat
  kinds : List (String × Nat)

structure Contents where
  device : String
  alerts : Nat
  sections : List Section
  first : Instant
  last : Instant

def Section.text (s : Section) : String :=
  s.severity.name ++ " (" ++ Nat.repr s.alerts ++ "):\n" ++
    String.join (s.kinds.map kindLine) ++ "\n"

def Contents.text (c : Contents) : String :=
  "Quiet Hours Digest for " ++ c.device ++ "\n" ++
    "Total Alerts: " ++ Nat.repr c.alerts ++ "\n\n" ++
    String.join (c.sections.map Section.text) ++
    "Period: " ++ Rfc3339.clockOf c.first ++ " to " ++ Rfc3339.clockOf c.last ++ "\n"

/-- A section with the right counts: a kind is listed where an alert has it, and the numbers of the
kinds add up to that of the section. -/
structure Section.Counts (s : Section) (alerts : List HeldAlert) : Prop where
  all : s.alerts = alerts.countP fun a => a.reportedSeverity = s.severity
  sum : s.alerts = total (s.kinds.map Prod.snd)
  ordered : (s.kinds.map Prod.fst).Pairwise (· < ·)
  kinds : ∀ kind count, (kind, count) ∈ s.kinds ↔
    0 < count ∧ count = alerts.countP fun a => a.reportedSeverity = s.severity ∧ a.kind = kind

/-- Contents that agree with some alerts: one section for each severity that occurs, the most urgent
first, with the right counts, which add up to the number of all; and the first and the last instant
at which one was held. -/
structure Contents.Tells (c : Contents) (device : String) (alerts : List HeldAlert) : Prop where
  device : c.device = device
  all : c.alerts = alerts.length
  sum : c.alerts = total (c.sections.map Section.alerts)
  severities : c.sections.map Section.severity =
    Severity.all.filter fun severity => ∃ a ∈ alerts, a.reportedSeverity = severity
  counts : ∀ s ∈ c.sections, s.Counts alerts
  first : c.first ∈ alerts.map HeldAlert.heldAt ∧ ∀ a ∈ alerts, c.first ≤ a.heldAt
  last : c.last ∈ alerts.map HeldAlert.heldAt ∧ ∀ a ∈ alerts, a.heldAt ≤ c.last

/-! ### Counts by kind -/

variable {alerts others : List HeldAlert} {severity : Severity} {kind device : String}

theorem countsByKind_snoc (alerts : List HeldAlert) (a : HeldAlert) :
    countsByKind (alerts ++ [a]) = (countsByKind alerts).insert a.kind
      (((countsByKind alerts).get? a.kind).getD 0 + 1) := by
  simp [countsByKind]

theorem getD_countsByKind (alerts : List HeldAlert) (kind : String) :
    ((countsByKind alerts).get? kind).getD 0 = alerts.countP fun a => a.kind = kind := by
  induction alerts using List.reverseRecOn with
  | nil => rfl
  | append_singleton alerts a ih =>
    rw [countsByKind_snoc, Table.get?_insert]
    by_cases own : a.kind = kind
    · simp [own, ih]
    · simp [own, Ne.symm own, ih]

theorem pos_of_get?_countsByKind {count : Nat}
    (found : (countsByKind alerts).get? kind = some count) : 0 < count := by
  induction alerts using List.reverseRecOn generalizing count with
  | nil => cases found
  | append_singleton alerts a ih =>
    rw [countsByKind_snoc, Table.get?_insert] at found
    split at found
    · cases found
      exact Nat.succ_pos _
    · exact ih found

theorem get?_countsByKind_eq_some_iff {count : Nat} :
    (countsByKind alerts).get? kind = some count ↔
      0 < count ∧ count = alerts.countP fun a => a.kind = kind := by
  have counted := getD_countsByKind alerts kind
  constructor
  · intro found
    exact ⟨pos_of_get?_countsByKind found, by simpa [found] using counted⟩
  · rintro ⟨pos, rfl⟩
    cases found : (countsByKind alerts).get? kind with
    | none =>
      rw [found] at counted
      exact absurd counted pos.ne
    | some count => simpa [found] using counted

theorem total_countsByKind (alerts : List HeldAlert) :
    total (countsByKind alerts).values = alerts.length := by
  induction alerts using List.reverseRecOn with
  | nil => rfl
  | append_singleton alerts a ih =>
    have added := (countsByKind alerts).total_insert id a.kind
      (((countsByKind alerts).get? a.kind).getD 0 + 1)
    simp only [List.map_id, Option.map_id_fun, id_eq, ih] at added
    rw [countsByKind_snoc]
    simp only [List.length_append, List.length_singleton]
    omega

/-! ### Sections -/

def sectionOf (alerts : List HeldAlert) (severity : Severity) : Section :=
  let counts := countsByKind (alerts.filter fun a => a.reportedSeverity = severity)
  ⟨severity, total counts.values, counts.toList⟩

theorem counts_sectionOf (alerts : List HeldAlert) (severity : Severity) :
    (sectionOf alerts severity).Counts alerts := by
  constructor
  · simp only [sectionOf, total_countsByKind, List.countP_eq_length_filter]
  · rfl
  · exact List.pairwise_map.mpr (Table.ordered _)
  · intro kind count
    simp only [sectionOf, Table.mem_toList_iff, get?_countsByKind_eq_some_iff, List.countP_filter,
      ← Bool.decide_and, and_comm]

/-- There is one section only with the right counts for a severity. -/
theorem Section.Counts.eq_sectionOf {s : Section} (h : s.Counts alerts) :
    s = sectionOf alerts s.severity := by
  have right := counts_sectionOf alerts s.severity
  have kinds : (⟨s.kinds, List.pairwise_map.mp h.ordered⟩ : Table Nat) =
      ⟨_, List.pairwise_map.mp right.ordered⟩ := by
    apply Table.ext_get?
    intro kind
    ext count
    rw [← Table.mem_toList_iff, ← Table.mem_toList_iff, h.kinds, right.kinds]
    rfl
  have alertsEq := h.all.trans right.all.symm
  cases s
  simp_all [sectionOf]

theorem toList_countsByKind_eq_nil_iff : (countsByKind alerts).toList = [] ↔ alerts = [] := by
  constructor
  · intro none
    have counted := total_countsByKind alerts
    simpa [Table.values, none, eq_comm] using counted
  · rintro rfl
    rfl

theorem section?_eq (alerts : List HeldAlert) (severity : Severity) : section? alerts severity =
    if ∃ a ∈ alerts, a.reportedSeverity = severity then some (sectionOf alerts severity).text
    else none := by
  simp only [section?, toList_countsByKind_eq_nil_iff, List.filter_eq_nil_iff, decide_eq_true_eq]
  by_cases occurs : ∃ a ∈ alerts, a.reportedSeverity = severity
  · obtain ⟨a, member, own⟩ := occurs
    rw [if_neg fun none => none a member own, if_pos ⟨a, member, own⟩]
    rfl
  · rw [if_pos fun a member own => occurs ⟨a, member, own⟩, if_neg occurs]

/-! ### All sections -/

def severities (alerts : List HeldAlert) : List Severity :=
  Severity.all.filter fun severity => ∃ a ∈ alerts, a.reportedSeverity = severity

theorem filterMap_section? (alerts : List HeldAlert) : Severity.all.filterMap (section? alerts) =
    ((severities alerts).map (sectionOf alerts)).map Section.text := by
  rw [List.map_map, ← List.filterMap_eq_map, severities, List.filterMap_filter]
  congr 1
  funext severity
  simp [section?_eq]

/-- Every alert has one severity. -/
theorem total_countP_all (alerts : List HeldAlert) :
    total (Severity.all.map fun severity => alerts.countP fun a => a.reportedSeverity = severity) =
      alerts.length := by
  induction alerts with
  | nil => rfl
  | cons a rest ih =>
    simp only [Severity.all, List.map_cons, List.map_nil, total_cons, total_nil] at ih
    simp only [Severity.all, List.map_cons, List.map_nil, total_cons, total_nil, List.countP_cons,
      List.length_cons]
    cases a.reportedSeverity <;> simp <;> omega

theorem total_filter {α : Type} {keep : α → Bool} {count : α → Nat} {l : List α}
    (none : ∀ a ∈ l, keep a = false → count a = 0) :
    total ((l.filter keep).map count) = total (l.map count) := by
  induction l with
  | nil => rfl
  | cons a rest ih =>
    have later := ih fun b member => none b (List.mem_cons_of_mem _ member)
    cases kept : keep a with
    | true => simp [kept, later]
    | false => simp [kept, later, none a List.mem_cons_self kept]

theorem total_sections (alerts : List HeldAlert) :
    total (((severities alerts).map (sectionOf alerts)).map Section.alerts) = alerts.length := by
  have counted : Section.alerts ∘ sectionOf alerts =
      fun severity => alerts.countP fun a => a.reportedSeverity = severity :=
    funext fun severity => (counts_sectionOf alerts severity).all
  rw [List.map_map, counted, severities, total_filter, total_countP_all]
  intro severity _ absent
  simpa [List.countP_eq_zero] using absent

/-! ### The whole digest -/

/-- What the digest of a device says of its held alerts, of which there is a first one. -/
def contents (device : String) (first : HeldAlert) (rest : List HeldAlert) : Contents where
  device := device
  alerts := (first :: rest).length
  sections := (severities (first :: rest)).map (sectionOf (first :: rest))
  first := oldest first.heldAt rest
  last := newest first.heldAt rest

theorem text_eq (device : String) (first : HeldAlert) (rest : List HeldAlert) :
    text device (first :: rest) = (contents device first rest).text := by
  unfold text Contents.text contents
  dsimp only
  rw [filterMap_section?]

theorem oldest_eq_iff {first : HeldAlert} {rest : List HeldAlert} {t : Instant} :
    oldest first.heldAt rest = t ↔ t ∈ (first :: rest).map HeldAlert.heldAt ∧
      ∀ a ∈ first :: rest, t ≤ a.heldAt := by
  have least := Instant.foldl_least_eq_iff (rest.map HeldAlert.heldAt) first.heldAt t
  simpa [List.foldl_map, oldest] using least

theorem newest_eq_iff {first : HeldAlert} {rest : List HeldAlert} {t : Instant} :
    newest first.heldAt rest = t ↔ t ∈ (first :: rest).map HeldAlert.heldAt ∧
      ∀ a ∈ first :: rest, a.heldAt ≤ t := by
  have greatest := Instant.foldl_greatest_eq_iff (rest.map HeldAlert.heldAt) first.heldAt t
  simpa [List.foldl_map, newest] using greatest

theorem contents_tells (device : String) (first : HeldAlert) (rest : List HeldAlert) :
    (contents device first rest).Tells device (first :: rest) := by
  constructor
  · rfl
  · rfl
  · exact (total_sections _).symm
  · simp [contents, severities, sectionOf, Function.comp_def]
  · intro s member
    obtain ⟨severity, _, rfl⟩ := List.mem_map.mp member
    exact counts_sectionOf _ severity
  · exact oldest_eq_iff.mp rfl
  · exact newest_eq_iff.mp rfl

theorem eq_contents {c : Contents} {first : HeldAlert} {rest : List HeldAlert}
    (h : c.Tells device (first :: rest)) : c = contents device first rest := by
  have sections : c.sections = (severities (first :: rest)).map (sectionOf (first :: rest)) := by
    calc c.sections = c.sections.map (fun s => sectionOf (first :: rest) s.severity) :=
          (List.map_id' _).symm.trans
            (List.map_congr_left fun s member => (h.counts s member).eq_sectionOf)
      _ = (c.sections.map Section.severity).map (sectionOf (first :: rest)) := by
          rw [List.map_map]
          rfl
      _ = _ := congrArg _ h.severities
  have oldest := oldest_eq_iff.mpr h.first
  have newest := newest_eq_iff.mpr h.last
  obtain ⟨_, _, _, _, _⟩ := c
  simp only [contents, Contents.mk.injEq]
  exact ⟨h.device, h.all, sections, oldest.symm, newest.symm⟩

theorem Section.Counts.perm {s : Section} (same : alerts.Perm others) (h : s.Counts alerts) :
    s.Counts others := by
  constructor
  · exact h.all.trans (same.countP_eq _)
  · exact h.sum
  · exact h.ordered
  · simpa only [same.countP_eq] using h.kinds

theorem Contents.Tells.perm {c : Contents} (same : alerts.Perm others)
    (h : c.Tells device alerts) : c.Tells device others := by
  constructor
  · exact h.device
  · exact h.all.trans same.length_eq
  · exact h.sum
  · simpa only [same.mem_iff] using h.severities
  · exact fun s member => (h.counts s member).perm same
  · simpa only [(same.map _).mem_iff, same.mem_iff] using h.first
  · simpa only [(same.map _).mem_iff, same.mem_iff] using h.last

theorem Section.Counts.stated {s : Section} (h : s.Counts alerts) :
    s.Counts (alerts.map HeldAlert.stated) := by
  constructor
  · rw [List.countP_map]
    exact h.all
  · exact h.sum
  · exact h.ordered
  · intro kind count
    rw [List.countP_map]
    exact h.kinds kind count

theorem Contents.Tells.stated {c : Contents} (h : c.Tells device alerts) :
    c.Tells device (alerts.map HeldAlert.stated) := by
  constructor
  · exact h.device
  · simpa using h.all
  · exact h.sum
  · simpa using h.severities
  · exact fun s member => (h.counts s member).stated
  · simpa using h.first
  · simpa using h.last

theorem text_of_tells {c : Contents} {first : HeldAlert} {rest : List HeldAlert}
    (h : c.Tells device (first :: rest)) : text device (first :: rest) = c.text := by
  rw [eq_contents h, text_eq]

/-- The digest of a device with held alerts is the text of contents that agree with them. It is the
same for every order of the alerts, and where those without a severity state the standard one. -/
theorem text_of_counts (device : String) (first : HeldAlert) (rest : List HeldAlert) :
    (∃ c : Contents, c.Tells device (first :: rest) ∧ text device (first :: rest) = c.text) ∧
      ∀ others : List HeldAlert, others.Perm (first :: rest) →
        text device others = text device (first :: rest) ∧
          text device (others.map HeldAlert.stated) = text device (first :: rest) := by
  have tells := contents_tells device first rest
  refine ⟨⟨_, tells, text_eq device first rest⟩, ?_⟩
  intro others same
  have told := tells.perm same.symm
  rw [text_eq device first rest]
  cases others with
  | nil => simp at same
  | cons a others => exact ⟨text_of_tells told, text_of_tells told.stated⟩

example : text "pump-1" [⟨"overheat", "temperature", .null, none, .ofNanos 3000000000, "pump-1"⟩,
    ⟨"leak", "pressure", .null, some .critical, .ofNanos 1000000000, "pump-1"⟩] =
    "Quiet Hours Digest for pump-1\nTotal Alerts: 2\n\n" ++
      "CRITICAL (1):\n  • pressure: 1\n\nINFO (1):\n  • temperature: 1\n\n" ++
      "Period: 00:00:01 to 00:00:03\n" := by
  decide +kernel

end Digest

end AlertAdmission
