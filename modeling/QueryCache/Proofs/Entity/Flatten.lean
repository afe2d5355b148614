import QueryCache.Proofs.Json.Ordered

/-!
# What flattening produces

The entities of an ordered result form a sorted table of ordered objects,
`Snapshots.Flat`. Recording an occurrence keeps this, hence so does the walk
through the result.
-/

namespace QueryCache

namespace Snapshots

/-- A sorted table of objects, each with its members in order. -/
structure Flat (entities : Snapshots) : Prop where
  sorted : Table.Sorted entities
  object : ∀ entry ∈ entities, ∃ members, entry.2 = .object members
  ordered : ∀ entry ∈ entities, entry.2.Ordered

theorem flat_nil : Flat [] := ⟨Table.sorted_nil, by simp, by simp⟩

theorem Flat.nodup {entities : Snapshots} (h : Flat entities) :
    (Table.keys entities).Nodup :=
  Table.nodup_keys_of_sorted h.sorted

theorem Flat.get? {entities : Snapshots} (h : Flat entities) {key : EntityKey}
    {value : Json} (hget : Table.get? entities key = some value) :
    ∃ members, value = .object members ∧ Json.Ordered (.object members) := by
  have hmem := Table.mem_of_get?_eq_some hget
  obtain ⟨members, hmembers⟩ := h.object _ hmem
  have hordered := h.ordered _ hmem
  simp only at hmembers hordered
  exact ⟨members, hmembers, hmembers ▸ hordered⟩

theorem flat_insert {entities : Snapshots} (h : Flat entities) (key : EntityKey)
    {members : Json.Members} (hmembers : Json.Ordered (.object members)) :
    Flat (Table.insert entities key (.object members)) := by
  refine ⟨Table.sorted_insert h.sorted _ _, ?_, ?_⟩
  · intro entry hmem
    rcases Table.mem_insert hmem with rfl | hmem
    · exact ⟨members, rfl⟩
    · exact h.object entry hmem
  · intro entry hmem
    rcases Table.mem_insert hmem with rfl | hmem
    · exact hmembers
    · exact h.ordered entry hmem

theorem flat_record {found : Snapshots} (h : Flat found) (key : EntityKey)
    {members : Json.Members} (hmembers : Json.Ordered (.object members)) :
    Flat (found.record key members) := by
  rw [record]
  split
  · exact flat_insert h key hmembers
  · rename_i earlier hget
    obtain ⟨_, heq, hearlier⟩ := h.get? hget
    cases heq
    exact flat_insert h key
      (Json.ordered_insertAll hearlier (Json.ordered_object_iff.1 hmembers).2)
  · exact h

end Snapshots

namespace Json

open Snapshots

mutual

theorem flat_collect (identity : Identity) :
    ∀ (value : Json) (found : Snapshots), value.Ordered → Flat found →
      Flat (value.collect identity found)
  | null, _, _, h => h
  | bool _, _, _, h => h
  | number _, _, _, h => h
  | string _, _, _, h => h
  | array items, found, hordered, h => flat_collectFromItems identity items found hordered h
  | object members, found, hordered, h => by
      rw [collect]
      refine flat_collectFromMembers identity members _ hordered.2 ?_
      split
      · exact flat_record h _ hordered
      · exact h
termination_by structural value => value

theorem flat_collectFromItems (identity : Identity) :
    ∀ (items : List Json) (found : Snapshots), OrderedItems items → Flat found →
      Flat (collectFromItems identity items found)
  | [], _, _, h => h
  | item :: rest, found, hordered, h =>
      flat_collectFromItems identity rest _ hordered.2
        (flat_collect identity item found hordered.1 h)
termination_by structural items => items

theorem flat_collectFromMembers (identity : Identity) :
    ∀ (members : List (String × Json)) (found : Snapshots), OrderedMembers members →
      Flat found → Flat (collectFromMembers identity members found)
  | [], _, _, h => h
  | (_, value) :: rest, found, hordered, h =>
      flat_collectFromMembers identity rest _ hordered.2
        (flat_collect identity value found hordered.1 h)
termination_by structural members => members

end

end Json

/-- The entities of an ordered result are a sorted table of ordered objects. -/
theorem flat_flatten {result : Json} (h : result.Ordered) (identity : Identity) :
    (flatten result identity).Flat :=
  Json.flat_collect identity result [] h Snapshots.flat_nil

/-! ### Keys of entities -/

namespace Identity

variable {identity : Identity}

theorem keyOf?_eq_some_iff {members : Json.Members} {key : EntityKey} :
    identity.keyOf? members = some key ↔
      ∃ typeName value id, Table.get? members identity.typenameField = some (.string typeName) ∧
        Table.get? members identity.idField = some value ∧ idText? value = some id ∧
          key = .ofParts typeName id := by
  simp only [keyOf?, Option.bind_eq_bind, Option.bind_eq_some_iff, Option.pure_def,
    Option.some_inj]
  constructor
  · rintro ⟨first, hfirst, typeName, htype, value, hvalue, id, hid, rfl⟩
    cases first <;> simp only [Json.string?, Option.some_inj, reduceCtorEq] at htype
    subst htype
    exact ⟨_, value, id, hfirst, hvalue, hid, rfl⟩
  · rintro ⟨typeName, value, id, htype, hvalue, hid, rfl⟩
    exact ⟨_, htype, typeName, rfl, value, hvalue, id, hid, rfl⟩

/-- New members with a key of their own give the key. -/
theorem keyOf?_insertAll {new : Json.Members} {key : EntityKey}
    (h : identity.keyOf? new = some key) (hnew : Json.Ordered (.object new))
    (old : Json.Members) : identity.keyOf? (Table.insertAll old new) = some key := by
  obtain ⟨typeName, value, id, htype, hvalue, hid, rfl⟩ := keyOf?_eq_some_iff.1 h
  have hnodup := Json.nodup_keys_of_ordered hnew
  refine keyOf?_eq_some_iff.2 ⟨typeName, value, id, ?_, ?_, hid, rfl⟩
  · rw [Table.get?_insertAll old hnodup, htype]
    rfl
  · rw [Table.get?_insertAll old hnodup, hvalue]
    rfl

end Identity

namespace Snapshots

/-- Every entity stands under its own key. -/
def Keyed (identity : Identity) (entities : Snapshots) : Prop :=
  ∀ {key members}, Table.get? entities key = some (.object members) →
    identity.keyOf? members = some key

theorem keyed_nil (identity : Identity) : Keyed identity [] := by
  intro key members h
  simp at h

theorem keyed_record {identity : Identity} {found : Snapshots} (h : found.Keyed identity)
    {key : EntityKey} {members : Json.Members} (hkey : identity.keyOf? members = some key)
    (hmembers : Json.Ordered (.object members)) :
    Keyed identity (found.record key members) := by
  intro other others hother
  rw [record] at hother
  split at hother
  · rw [Table.get?_insert] at hother
    split at hother
    · cases hother
      exact ‹other = key› ▸ hkey
    · exact h hother
  · rw [Table.get?_insert] at hother
    split at hother
    · cases hother
      exact ‹other = key› ▸ Identity.keyOf?_insertAll hkey hmembers _
    · exact h hother
  · exact h hother

end Snapshots

namespace Json

open Snapshots

mutual

theorem keyed_collect (identity : Identity) :
    ∀ (value : Json) (found : Snapshots), value.Ordered → found.Keyed identity →
      Keyed identity (value.collect identity found)
  | null, _, _, h => h
  | bool _, _, _, h => h
  | number _, _, _, h => h
  | string _, _, _, h => h
  | array items, found, hordered, h =>
      keyed_collectFromItems identity items found hordered h
  | object members, found, hordered, h => by
      rw [collect]
      refine keyed_collectFromMembers identity members _ hordered.2 ?_
      split
      · exact keyed_record h ‹_› hordered
      · exact h
termination_by structural value => value

theorem keyed_collectFromItems (identity : Identity) :
    ∀ (items : List Json) (found : Snapshots), OrderedItems items → found.Keyed identity →
      Keyed identity (collectFromItems identity items found)
  | [], _, _, h => h
  | item :: rest, found, hordered, h =>
      keyed_collectFromItems identity rest _ hordered.2
        (keyed_collect identity item found hordered.1 h)
termination_by structural items => items

theorem keyed_collectFromMembers (identity : Identity) :
    ∀ (members : List (String × Json)) (found : Snapshots), OrderedMembers members →
      found.Keyed identity → Keyed identity (collectFromMembers identity members found)
  | [], _, _, h => h
  | (_, value) :: rest, found, hordered, h =>
      keyed_collectFromMembers identity rest _ hordered.2
        (keyed_collect identity value found hordered.1 h)
termination_by structural members => members

end

/-- Values without entities do not add to what has been found. -/
theorem collectFromMembers_of_plain (identity : Identity) {members : List (String × Json)}
    (h : ∀ member ∈ members, ∀ found, member.2.collect identity found = found)
    (found : Snapshots) : collectFromMembers identity members found = found := by
  induction members with
  | nil => rfl
  | cons member rest ih =>
      rw [collectFromMembers, h member List.mem_cons_self]
      exact ih fun other hother => h other (List.mem_cons_of_mem _ hother)

end Json

theorem keyed_flatten {result : Json} (h : result.Ordered) (identity : Identity) :
    (flatten result identity).Keyed identity :=
  Json.keyed_collect identity result [] h (Snapshots.keyed_nil identity)

/-- An entity without further entities inside is all that its result holds. -/
theorem flatten_of_plain {identity : Identity} {members : Json.Members} {key : EntityKey}
    (hkey : identity.keyOf? members = some key)
    (h : ∀ member ∈ members, ∀ found, member.2.collect identity found = found) :
    flatten (.object members) identity = [(key, .object members)] := by
  rw [flatten, Json.collect, hkey]
  exact Json.collectFromMembers_of_plain identity h _

end QueryCache
