import QueryCache.Proofs.Json.Ordered

/-!
# A result with a user

The smallest result that holds an entity: one user under a single field. Stores and
clients are tried out on it.
-/

namespace QueryCache

namespace Json

/-- A result that holds one user with some fields, all of them texts. -/
def ofUser (id : String) (fields : List (String × String)) : Json :=
  .object [("me", .object (Table.insertAll
    [("__typename", .string "User"), ("id", .string id)]
    (fields.map fun field => (field.1, .string field.2))))]

theorem ordered_ofUser (id : String) (fields : List (String × String)) :
    (ofUser id fields).Ordered := by
  have hkeys : Ordered (.object [("__typename", .string "User"), ("id", .string id)]) := by
    refine ordered_object_iff.2 ⟨?_, by simp [Ordered]⟩
    have hlt : "__typename" < "id" := by decide
    exact List.pairwise_pair.2 hlt
  refine ordered_object_iff.2 ⟨List.pairwise_singleton _ _, ?_⟩
  intro member hmember
  cases List.mem_singleton.1 hmember
  refine ordered_insertAll hkeys ?_
  intro field hfield
  obtain ⟨text, -, rfl⟩ := List.mem_map.1 hfield
  trivial

end Json

end QueryCache
