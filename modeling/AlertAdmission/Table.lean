import AlertAdmission.Total

/-!
Tables from names to values, kept in increasing order of the names.

The order is part of the type: a table is a list of pairs with strictly increasing names, so it has
at most one value for a name, and listing it needs no sorting. Each operation is pinned down by what
a lookup gives afterwards (`get?_insert`, `get?_erase`, `get?_filter`, `get?_map`), and two tables
with the same lookups are equal (`Table.ext_get?`).
-/

namespace AlertAdmission

/-- A finite map from names to values, listed in increasing order of the names. -/
structure Table (α : Type) where
  toList : List (String × α)
  ordered : toList.Pairwise (fun a b => a.1 < b.1) := by exact List.Pairwise.nil

namespace Table

variable {α β : Type}

def empty : Table α where
  toList := []

instance : Inhabited (Table α) := ⟨empty⟩

def get? (t : Table α) (name : String) : Option α := t.toList.lookup name

def names (t : Table α) : List String := t.toList.map Prod.fst

def values (t : Table α) : List α := t.toList.map Prod.snd

def place (name : String) (value : α) : List (String × α) → List (String × α)
  | [] => [(name, value)]
  | (other, old) :: rest =>
    if name < other then (name, value) :: (other, old) :: rest
    else if other < name then (other, old) :: place name value rest
    else (name, value) :: rest

theorem not_lt_lt_iff_eq (a b : String) : ¬ a < b → ¬ b < a → a = b :=
  fun h h' => String.le_antisymm (String.not_lt.1 h') (String.not_lt.1 h)

theorem mem_place {name : String} {value : α} {l : List (String × α)} {p : String × α}
    (h : p ∈ place name value l) : p = (name, value) ∨ p ∈ l := by
  induction l with
  | nil => simpa [place] using h
  | cons head rest ih =>
    obtain ⟨other, old⟩ := head
    simp only [place] at h
    split at h
    · simpa using h
    · split at h
      · rcases List.mem_cons.1 h with rfl | h
        · simp
        · rcases ih h with h | h
          · exact .inl h
          · exact .inr (List.mem_cons_of_mem _ h)
      · rcases List.mem_cons.1 h with h | h
        · exact .inl h
        · exact .inr (List.mem_cons_of_mem _ h)

theorem ordered_place (name : String) (value : α) {l : List (String × α)}
    (h : l.Pairwise (fun a b => a.1 < b.1)) :
    (place name value l).Pairwise (fun a b => a.1 < b.1) := by
  induction l with
  | nil => simp [place]
  | cons head rest ih =>
    obtain ⟨other, old⟩ := head
    rw [List.pairwise_cons] at h
    simp only [place]
    split
    · next hlt =>
      refine List.pairwise_cons.2 ⟨?_, List.pairwise_cons.2 h⟩
      intro p hp
      rcases List.mem_cons.1 hp with rfl | hp
      · exact hlt
      · exact String.lt_trans hlt (h.1 p hp)
    · split
      · next hlt =>
        refine List.pairwise_cons.2 ⟨?_, ih h.2⟩
        intro p hp
        rcases mem_place hp with rfl | hp
        · exact hlt
        · exact h.1 p hp
      · next h₁ h₂ =>
        have heq := not_lt_lt_iff_eq name other h₁ h₂
        refine List.pairwise_cons.2 ⟨?_, h.2⟩
        intro p hp
        exact heq ▸ h.1 p hp

/-- The table with a value at a name, in place of the one that was there. -/
def insert (t : Table α) (name : String) (value : α) : Table α where
  toList := place name value t.toList
  ordered := ordered_place name value t.ordered

def filter (keep : String → α → Bool) (t : Table α) : Table α where
  toList := t.toList.filter fun entry => keep entry.1 entry.2
  ordered := t.ordered.filter _

def erase (t : Table α) (name : String) : Table α := t.filter fun other _ => other != name

def map (f : String → α → β) (t : Table α) : Table β where
  toList := t.toList.map fun entry => (entry.1, f entry.1 entry.2)
  ordered := by simpa [List.pairwise_map] using t.ordered

/-- The value of a name replaced by a function of itself; nothing happens where there is none. -/
def modify (t : Table α) (name : String) (f : α → α) : Table α :=
  match t.get? name with
  | none => t
  | some value => t.insert name (f value)

/-! ### What a lookup gives -/

@[simp] theorem get?_empty (name : String) : (empty : Table α).get? name = none := rfl

theorem lookup_pair (name other : String) (value : α) (rest : List (String × α)) :
    ((other, value) :: rest).lookup name =
      if name = other then some value else rest.lookup name := by
  rw [List.lookup_cons]
  by_cases h : name = other <;> simp [h, beq_eq_false_iff_ne.2]

theorem lookup_eq_none_of_forall_lt {name : String} {l : List (String × α)}
    (h : ∀ p ∈ l, name < p.1) : l.lookup name = none := by
  induction l with
  | nil => rfl
  | cons head rest ih =>
    obtain ⟨other, value⟩ := head
    have hne : name ≠ other := by
      rintro rfl
      exact String.lt_irrefl _ (h (name, value) List.mem_cons_self)
    rw [lookup_pair, if_neg hne]
    exact ih fun p hp => h p (List.mem_cons_of_mem _ hp)

theorem lookup_place (name other : String) (value : α) (l : List (String × α)) :
    (place name value l).lookup other = if other = name then some value else l.lookup other := by
  induction l with
  | nil => simp [place, lookup_pair]
  | cons head rest ih =>
    obtain ⟨key, old⟩ := head
    simp only [place]
    split
    · rw [lookup_pair]
    · split
      · next hlt =>
        rw [lookup_pair, lookup_pair, ih]
        by_cases he : other = name
        · have hne : name ≠ key := by rintro rfl; exact String.lt_irrefl _ hlt
          simp [he, hne]
        · simp [he]
      · next h₁ h₂ =>
        have heq := not_lt_lt_iff_eq name key h₁ h₂
        subst heq
        rw [lookup_pair, lookup_pair]
        by_cases he : other = name <;> simp [he]

theorem get?_insert (t : Table α) (name other : String) (value : α) :
    (t.insert name value).get? other = if other = name then some value else t.get? other :=
  lookup_place name other value t.toList

theorem lookup_filter (keep : String → α → Bool) (name : String) {l : List (String × α)}
    (h : l.Pairwise (fun a b => a.1 < b.1)) :
    (l.filter fun entry => keep entry.1 entry.2).lookup name =
      (l.lookup name).filter (keep name) := by
  induction l with
  | nil => rfl
  | cons head rest ih =>
    obtain ⟨key, value⟩ := head
    rw [List.pairwise_cons] at h
    have ih := ih h.2
    rw [lookup_pair, List.filter_cons]
    by_cases hn : name = key
    · subst hn
      have hrest : rest.lookup name = none := lookup_eq_none_of_forall_lt h.1
      by_cases hk : keep name value = true
      · simp [hk, Option.filter]
      · simp [hk, ih, hrest, Option.filter]
    · rw [if_neg hn]
      split
      · rw [lookup_pair, if_neg hn, ih]
      · exact ih

theorem get?_filter (t : Table α) (keep : String → α → Bool) (name : String) :
    (t.filter keep).get? name = (t.get? name).filter (keep name) :=
  lookup_filter keep name t.ordered

theorem get?_erase (t : Table α) (name other : String) :
    (t.erase name).get? other = if other = name then none else t.get? other := by
  rw [erase, get?_filter]
  by_cases h : other = name
  · cases t.get? other <;> simp [h, Option.filter]
  · cases t.get? other <;> simp [h, Option.filter]

theorem get?_map (t : Table α) (f : String → α → β) (name : String) :
    (t.map f).get? name = (t.get? name).map (f name) := by
  obtain ⟨l, h⟩ := t
  simp only [map, get?]
  clear h
  induction l with
  | nil => rfl
  | cons head rest ih =>
    obtain ⟨key, value⟩ := head
    rw [List.map_cons, lookup_pair, lookup_pair, ih]
    by_cases hn : name = key <;> simp [hn]

theorem get?_modify (t : Table α) (name other : String) (f : α → α) :
    (t.modify name f).get? other = if other = name then (t.get? name).map f else t.get? other := by
  unfold modify
  split
  · next h => by_cases he : other = name <;> simp [he, h]
  · next v h => rw [get?_insert, h]; rfl

theorem mem_toList_iff (t : Table α) (name : String) (value : α) :
    (name, value) ∈ t.toList ↔ t.get? name = some value := by
  obtain ⟨l, h⟩ := t
  simp only [get?]
  induction l with
  | nil => simp
  | cons head rest ih =>
    obtain ⟨key, old⟩ := head
    rw [List.pairwise_cons] at h
    rw [lookup_pair, List.mem_cons, ih h.2]
    by_cases hn : name = key
    · subst hn
      have hrest : rest.lookup name = none := lookup_eq_none_of_forall_lt h.1
      simp [hrest, eq_comm]
    · simp [hn]

theorem names_nodup (t : Table α) : t.names.Nodup := by
  refine List.Pairwise.map _ ?_ t.ordered
  intro a b lt eq
  rw [eq] at lt
  exact String.lt_irrefl _ lt

theorem not_lt_of_lookup_eq {m n : String} {v w : α} {l r : List (String × α)}
    (ordered : ((n, w) :: r).Pairwise fun a b => a.1 < b.1)
    (same : ((m, v) :: l).lookup m = ((n, w) :: r).lookup m) : ¬ m < n := by
  intro lt
  have absent : ((n, w) :: r).lookup m = none := by
    apply lookup_eq_none_of_forall_lt
    intro p member
    rcases List.mem_cons.1 member with rfl | later
    · exact lt
    · exact String.lt_trans lt ((List.pairwise_cons.1 ordered).1 p later)
  rw [absent, lookup_pair, if_pos rfl] at same
  cases same

theorem ext_get? {s t : Table α} (h : ∀ name, s.get? name = t.get? name) : s = t := by
  obtain ⟨l, hl⟩ := s
  obtain ⟨r, hr⟩ := t
  simp only [get?] at h
  congr
  induction l generalizing r with
  | nil =>
    cases r with
    | nil => rfl
    | cons head rest =>
      obtain ⟨n, w⟩ := head
      simpa [lookup_pair] using h n
  | cons a as ih =>
    obtain ⟨m, v⟩ := a
    cases r with
    | nil => simpa [lookup_pair] using h m
    | cons b bs =>
      obtain ⟨n, w⟩ := b
      obtain rfl := not_lt_lt_iff_eq m n (not_lt_of_lookup_eq hr (h m))
        (not_lt_of_lookup_eq hl (h n).symm)
      have hvalue : v = w := by simpa [lookup_pair] using h m
      have hl' := List.pairwise_cons.1 hl
      have hr' := List.pairwise_cons.1 hr
      have htail : as = bs := ih hl'.2 bs hr'.2 fun name => by
        by_cases hn : name = m
        · rw [hn, lookup_eq_none_of_forall_lt hl'.1, lookup_eq_none_of_forall_lt hr'.1]
        · simpa [lookup_pair, hn] using h name
      rw [hvalue, htail]

theorem mem_names_iff (t : Table α) (name : String) : name ∈ t.names ↔ (t.get? name).isSome := by
  rw [names, List.mem_map, Option.isSome_iff_exists]
  constructor
  · rintro ⟨⟨_, value⟩, entry, rfl⟩
    exact ⟨value, (t.mem_toList_iff _ _).mp entry⟩
  · rintro ⟨value, found⟩
    exact ⟨(name, value), (t.mem_toList_iff _ _).mpr found, rfl⟩

theorem mem_names_insert (t : Table α) (name other : String) (value : α) :
    other ∈ (t.insert name value).names ↔ other = name ∨ other ∈ t.names := by
  rw [mem_names_iff, mem_names_iff, get?_insert]
  by_cases same : other = name <;> simp [same]

/-- A table stays as it is where a name gets the value that it has. -/
theorem insert_eq_self_iff (t : Table α) (name : String) (value : α) :
    t.insert name value = t ↔ t.get? name = some value := by
  constructor
  · intro same
    have found := t.get?_insert name name value
    rwa [same, if_pos rfl] at found
  · intro found
    apply ext_get?
    intro other
    rw [get?_insert]
    split
    · next same => rw [same, found]
    · rfl

/-- Putting a value into a table adds to a total what it has more than the value it replaces. -/
theorem total_insert (t : Table α) (count : α → Nat) (name : String) (value : α) :
    total ((t.insert name value).values.map count) + ((t.get? name).map count).getD 0 =
      total (t.values.map count) + count value := by
  have ordered := t.ordered
  unfold values insert get?
  dsimp only
  generalize t.toList = entries at ordered
  induction entries with
  | nil => simp [place]
  | cons entry rest ih =>
    obtain ⟨other, old⟩ := entry
    have later := ih ordered.of_cons
    rw [place, lookup_pair]
    split
    · next before =>
      have absent : rest.lookup name = none :=
        lookup_eq_none_of_forall_lt fun p member =>
          String.lt_trans before ((List.pairwise_cons.mp ordered).1 p member)
      have differs : name ≠ other := fun same => String.lt_irrefl _ (same ▸ before)
      rw [if_neg differs, absent]
      simp only [List.map_cons, total_cons, Option.map_none, Option.getD_none]
      omega
    · split
      · next after =>
        have differs : name ≠ other := fun same => String.lt_irrefl _ (same ▸ after)
        rw [if_neg differs]
        simp only [List.map_cons, total_cons]
        omega
      · next notBefore notAfter =>
        rw [if_pos (not_lt_lt_iff_eq name other notBefore notAfter)]
        simp only [List.map_cons, total_cons, Option.map_some, Option.getD_some]
        omega

end Table

end AlertAdmission
