import AlertAdmission.Throttle.Grouping

/-!
Dotted paths lead on from where they lead.

What stands before a dot and what stands after it are paths, followed one after the other
(`fieldValue_dotted`). No form of path is an exception: an empty path is one empty name, and dots at
the ends of a path or next to each other have empty names between them, which are looked up like any
other name. A name with a dot in it is never reached. So the group of an alert under the longer path
is its group under the rest of it, seen from the value that the first part leads to.
-/

namespace AlertAdmission.Grouping

theorem names_dotted (first second : String) :
    names (first ++ "." ++ second) = names first ++ names second := by
  have characters : (first ++ "." ++ second).toList = first.toList ++ '.' :: second.toList := by
    simp
  rw [names, characters, Text.split_append, List.map_append]
  rfl

theorem fieldValue_dotted (first second : String) (data : Json) :
    fieldValue (first ++ "." ++ second) data =
      (fieldValue first data).bind (fieldValue second) := by
  rw [fieldValue, names_dotted, follow_append]
  rfl

theorem dotted_ne_empty (first second : String) : first ++ "." ++ second ≠ "" := by
  intro same
  have characters := congrArg String.toList same
  simp at characters

theorem groupKey_of_path {path : String} (some_path : path ≠ "") (data : Json) :
    groupKey (some path) data = ((fieldValue path data).map valueText).getD defaultGroup := by
  rw [groupKey, if_neg some_path]
  cases fieldValue path data <;> rfl

/-- A path with a dot leads to what its second part leads to from where its first part leads, and
groups alerts accordingly. -/
theorem lookup_dotted (first second : String) (data : Json) :
    (∀ value, fieldValue (first ++ "." ++ second) data = some value ↔
      ∃ inner, fieldValue first data = some inner ∧ fieldValue second inner = some value) ∧
    (∀ inner, fieldValue first data = some inner → second ≠ "" →
      groupKey (some (first ++ "." ++ second)) data = groupKey (some second) inner) ∧
    (fieldValue first data = none →
      groupKey (some (first ++ "." ++ second)) data = "default") := by
  have whole := fieldValue_dotted first second data
  have grouped := groupKey_of_path (dotted_ne_empty first second) data
  refine ⟨fun value => ?_, fun inner reached nonempty => ?_, fun missing => ?_⟩
  · rw [whole, Option.bind_eq_some_iff]
  · rw [grouped, whole, reached, groupKey_of_path nonempty]
    rfl
  · rw [grouped, whole, missing]
    rfl

/-- The payload `{"a": {"": {"b": 7}}, "a..b": 8}`. -/
def nestedPayload : Json :=
  .obj [("a", .obj [("", .obj [("b", .int 7)])]), ("a..b", .int 8)]

theorem lookup_dotted_empty_name :
    fieldValue "a..b" nestedPayload = some (.int 7) ∧
    groupKey (some "a..b") nestedPayload = "7" ∧
    groupKey (some "b..a") nestedPayload = "default" := by
  have reached : fieldValue "a." nestedPayload = some (.obj [("b", .int 7)]) := by rfl
  have inner : fieldValue "b" (.obj [("b", .int 7)]) = some (.int 7) := by rfl
  refine ⟨?_, ?_, ?_⟩
  · exact ((lookup_dotted "a." "b" nestedPayload).1 _).mpr ⟨_, reached, inner⟩
  · exact (lookup_dotted "a." "b" nestedPayload).2.1 _ reached (by decide)
  · exact (lookup_dotted "b" ".a" nestedPayload).2.2 (by rfl)

end AlertAdmission.Grouping
