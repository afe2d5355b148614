import QueryCache.Proofs.Table.Lookup

/-!
# Values with their members in order

`Json.Ordered` says that every object inside a value is a sorted table. It is
what a value from outside brings along; insertions keep it. Since sorted tables
have distinct keys, the members of an ordered object are found by look-up.
-/

namespace QueryCache

namespace Json

theorem orderedMembers_iff {members : List (String × Json)} :
    OrderedMembers members ↔ ∀ member ∈ members, Ordered member.2 := by
  induction members with
  | nil => simp [OrderedMembers]
  | cons member rest ih =>
      obtain ⟨name, value⟩ := member
      simp [OrderedMembers, ih]

theorem ordered_object_iff {members : Members} :
    Ordered (object members) ↔
      Table.Sorted members ∧ ∀ member ∈ members, Ordered member.2 :=
  and_congr_right fun _ => orderedMembers_iff

theorem ordered_emptyObject : Ordered emptyObject :=
  ordered_object_iff.2 ⟨Table.sorted_nil, by simp⟩

theorem nodup_keys_of_ordered {members : Members} (h : Ordered (object members)) :
    (Table.keys members).Nodup :=
  Table.nodup_keys_of_sorted (ordered_object_iff.1 h).1

theorem ordered_of_get? {members : Members} (h : Ordered (object members))
    {name : String} {value : Json} (hget : Table.get? members name = some value) :
    Ordered value :=
  (ordered_object_iff.1 h).2 _ (Table.mem_of_get?_eq_some hget)

theorem ordered_insert {members : Members} (h : Ordered (object members))
    (name : String) {value : Json} (hvalue : Ordered value) :
    Ordered (object (Table.insert members name value)) := by
  obtain ⟨hsorted, hmembers⟩ := ordered_object_iff.1 h
  refine ordered_object_iff.2 ⟨Table.sorted_insert hsorted name value, ?_⟩
  intro member hmem
  rcases Table.mem_insert hmem with rfl | hmem
  · exact hvalue
  · exact hmembers member hmem

theorem ordered_insertAll {members new : Members} (h : Ordered (object members))
    (hnew : ∀ member ∈ new, Ordered member.2) :
    Ordered (object (Table.insertAll members new)) := by
  induction new generalizing members with
  | nil => exact h
  | cons member rest ih =>
      rw [Table.insertAll_cons]
      refine ih (ordered_insert h member.1 (hnew member List.mem_cons_self)) ?_
      intro other hmem
      exact hnew other (List.mem_cons_of_mem _ hmem)

/-- The members of a new object win over those of the stored one. -/
theorem member?_insertAll (old : Members) {new : Members} (h : Ordered (object new))
    (name : String) :
    (object (Table.insertAll old new)).member? name =
      ((object new).member? name).or ((object old).member? name) :=
  Table.get?_insertAll old (nodup_keys_of_ordered h) name

end Json

end QueryCache
