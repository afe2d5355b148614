import Mathlib.Data.List.Induction
import QueryCache.Proofs.Entity.Flatten
import QueryCache.Proofs.Json.Position

/-!
# Where the fields of a snapshot come from

`Json.placed` lists the objects in a value, at any depth, with their positions: these are all of
them (`Json.mem_placed_iff`), in the order of positions (`Json.pairwise_placed`). Flattening is one
walk along this list that records the entities (`Json.collect_eq_foldl`).

So there is a snapshot for the key of every object, and for no other key. It is an object with the
fields of all objects of this key, and each field has the value that the last of them has that
carries the field (`flatten_gathers`).
-/

namespace QueryCache

/-- An object in a value. -/
structure PlacedObject where
  position : Json.Position
  members : Json.Members

/-- The object, seen from one step further out. -/
def PlacedObject.under (step : Json.Step) (found : PlacedObject) : PlacedObject :=
  ⟨step :: found.position, found.members⟩

/-- The object comes first in the order of positions. -/
def PlacedObject.Before (first second : PlacedObject) : Prop := first.position < second.position

namespace Json

mutual

/-- The objects in a value. An object comes before those inside it. -/
def placed : Json → List PlacedObject
  | array items => placedInItems items 0
  | object members => ⟨[], members⟩ :: placedInMembers members
  | _ => []
termination_by structural value => value

/-- The objects in the items of a list, the first of which has this index. -/
def placedInItems : List Json → ℕ → List PlacedObject
  | [], _ => []
  | item :: rest, index =>
    (placed item).map (.under (.item index)) ++ placedInItems rest (index + 1)
termination_by structural items => items

/-- The objects in the members of an object. -/
def placedInMembers : List (String × Json) → List PlacedObject
  | [] => []
  | (name, value) :: rest => (placed value).map (.under (.key name)) ++ placedInMembers rest
termination_by structural members => members

end

/-! ### All objects, in order -/

theorem mem_map_under_iff {step : Step} {others : List PlacedObject} {found : PlacedObject} :
    found ∈ others.map (.under step) ↔
      ∃ rest, found.position = step :: rest ∧ ⟨rest, found.members⟩ ∈ others := by
  rw [List.mem_map]
  constructor
  · rintro ⟨⟨rest, members⟩, hmem, rfl⟩
    exact ⟨rest, rfl, hmem⟩
  · obtain ⟨position, members⟩ := found
    rintro ⟨rest, rfl, hmem⟩
    exact ⟨_, hmem, rfl⟩

mutual

/-- The list has the objects that stand at some position, each with its position. -/
theorem mem_placed_iff :
    ∀ (value : Json) {found : PlacedObject}, value.Ordered →
      (found ∈ placed value ↔ value.locate? found.position = some (object found.members))
  | array items, ⟨position, members⟩, h => by
      rw [placed, mem_placedInItems_iff items 0 h]
      constructor
      · rintro ⟨index, item, rest, rfl, hitem, hrest⟩
        rw [Nat.zero_add, locate?_cons, child?, hitem]
        exact hrest
      · intro hfound
        cases position with
        | nil => cases hfound
        | cons step rest =>
            obtain ⟨item, hchild, hrest⟩ := locate?_cons_eq_some_iff.1 hfound
            cases step with
            | key name => cases hchild
            | item index => exact ⟨index, item, rest, by rw [Nat.zero_add], hchild, hrest⟩
  | object outer, ⟨position, members⟩, h => by
      rw [placed, List.mem_cons, mem_placedInMembers_iff outer h.2]
      constructor
      · rintro (heq | ⟨name, value, rest, rfl, hmem, hrest⟩)
        · cases heq
          rfl
        · rw [locate?_cons, child?, Table.get?_eq_some_of_mem (nodup_keys_of_ordered h) hmem]
          exact hrest
      · intro hfound
        cases position with
        | nil =>
            cases hfound
            exact Or.inl rfl
        | cons step rest =>
            obtain ⟨value, hchild, hrest⟩ := locate?_cons_eq_some_iff.1 hfound
            cases step with
            | key name =>
                exact Or.inr ⟨name, value, rest, rfl, Table.mem_of_get?_eq_some hchild, hrest⟩
            | item index => cases hchild
  | null, ⟨position, members⟩, _ => by cases position <;> simp [placed, locate?_cons, child?]
  | bool _, ⟨position, members⟩, _ => by cases position <;> simp [placed, locate?_cons, child?]
  | number _, ⟨position, members⟩, _ => by cases position <;> simp [placed, locate?_cons, child?]
  | string _, ⟨position, members⟩, _ => by cases position <;> simp [placed, locate?_cons, child?]
termination_by structural value => value

theorem mem_placedInItems_iff :
    ∀ (items : List Json) (first : ℕ) {found : PlacedObject}, OrderedItems items →
      (found ∈ placedInItems items first ↔ ∃ index item rest,
        found.position = .item (first + index) :: rest ∧ items[index]? = some item ∧
          item.locate? rest = some (object found.members))
  | [], _, _, _ => by simp [placedInItems]
  | item :: others, first, found, h => by
      rw [placedInItems, List.mem_append, mem_map_under_iff,
        mem_placedInItems_iff others (first + 1) h.2]
      constructor
      · rintro (⟨rest, hposition, hmem⟩ | ⟨index, other, rest, hposition, hother, hrest⟩)
        · exact ⟨0, item, rest, hposition, rfl, (mem_placed_iff item h.1).1 hmem⟩
        · refine ⟨index + 1, other, rest, ?_, hother, hrest⟩
          rw [hposition, Nat.add_assoc, Nat.add_comm 1]
      · rintro ⟨_ | index, other, rest, hposition, hother, hrest⟩
        · cases hother
          exact Or.inl ⟨rest, hposition, (mem_placed_iff item h.1).2 hrest⟩
        · refine Or.inr ⟨index, other, rest, ?_, hother, hrest⟩
          rw [hposition, Nat.add_assoc, Nat.add_comm 1]
termination_by structural items => items

theorem mem_placedInMembers_iff :
    ∀ (members : List (String × Json)) {found : PlacedObject}, OrderedMembers members →
      (found ∈ placedInMembers members ↔ ∃ name value rest,
        found.position = .key name :: rest ∧ (name, value) ∈ members ∧
          value.locate? rest = some (object found.members))
  | [], _, _ => by simp [placedInMembers]
  | (name, value) :: others, found, h => by
      rw [placedInMembers, List.mem_append, mem_map_under_iff,
        mem_placedInMembers_iff others h.2]
      constructor
      · rintro (⟨rest, hposition, hmem⟩ | ⟨other, inner, rest, hposition, hmem, hrest⟩)
        · exact ⟨name, value, rest, hposition, List.mem_cons_self,
            (mem_placed_iff value h.1).1 hmem⟩
        · exact ⟨other, inner, rest, hposition, List.mem_cons_of_mem _ hmem, hrest⟩
      · rintro ⟨other, inner, rest, hposition, hmem, hrest⟩
        rcases List.mem_cons.1 hmem with heq | hmem
        · cases heq
          exact Or.inl ⟨rest, hposition, (mem_placed_iff value h.1).2 hrest⟩
        · exact Or.inr ⟨other, inner, rest, hposition, hmem, hrest⟩
termination_by structural members => members

end

theorem pairwise_map_under {step : Step} {others : List PlacedObject}
    (h : others.Pairwise PlacedObject.Before) :
    (others.map (PlacedObject.under step)).Pairwise PlacedObject.Before :=
  List.pairwise_map.2 (h.imp List.cons_lt_cons_self.2)

mutual

/-- The list is in the order of positions. -/
theorem pairwise_placed :
    ∀ value : Json, value.Ordered →
      (placed value).Pairwise PlacedObject.Before
  | array items, h => pairwise_placedInItems items 0 h
  | object members, h => by
      refine List.pairwise_cons.2 ⟨fun found hfound => ?_, pairwise_placedInMembers members h⟩
      obtain ⟨name, value, rest, hposition, -⟩ := (mem_placedInMembers_iff members h.2).1 hfound
      rw [PlacedObject.Before, hposition]
      exact List.nil_lt_cons _ _
  | null, _ => List.Pairwise.nil
  | bool _, _ => List.Pairwise.nil
  | number _, _ => List.Pairwise.nil
  | string _, _ => List.Pairwise.nil
termination_by structural value => value

theorem pairwise_placedInItems :
    ∀ (items : List Json) (index : ℕ), OrderedItems items →
      (placedInItems items index).Pairwise PlacedObject.Before
  | [], _, _ => List.Pairwise.nil
  | item :: rest, index, h => by
      refine List.pairwise_append.2 ⟨pairwise_map_under (pairwise_placed item h.1),
        pairwise_placedInItems rest (index + 1) h.2, fun first hfirst second hsecond => ?_⟩
      obtain ⟨inner, hinner, -⟩ := mem_map_under_iff.1 hfirst
      obtain ⟨later, _, outer, houter, -⟩ := (mem_placedInItems_iff rest (index + 1) h.2).1 hsecond
      rw [PlacedObject.Before, hinner, houter]
      exact List.cons_lt_cons_iff.2 (Or.inl (Step.item_lt_item_iff.2 (by omega)))
termination_by structural items => items

theorem pairwise_placedInMembers :
    ∀ members : List (String × Json), (object members).Ordered →
      (placedInMembers members).Pairwise PlacedObject.Before
  | [], _ => List.Pairwise.nil
  | (name, value) :: rest, ⟨hsorted, hvalue, hrest⟩ => by
      refine List.pairwise_append.2 ⟨pairwise_map_under (pairwise_placed value hvalue),
        pairwise_placedInMembers rest ⟨hsorted.tail, hrest⟩, fun first hfirst second hsecond => ?_⟩
      obtain ⟨inner, hinner, -⟩ := mem_map_under_iff.1 hfirst
      obtain ⟨other, _, outer, houter, hmem, -⟩ := (mem_placedInMembers_iff rest hrest).1 hsecond
      rw [PlacedObject.Before, hinner, houter]
      exact List.cons_lt_cons_iff.2 (Or.inl
        (Step.key_lt_key_iff.2 (List.rel_of_pairwise_cons hsorted hmem)))
termination_by structural members => members

end

/-! ### One walk along the list -/

/-- Records an object, if it is an entity. -/
def note (identity : Identity) (found : Snapshots) (next : PlacedObject) : Snapshots :=
  match identity.keyOf? next.members with
  | some key => found.record key next.members
  | none => found

theorem foldl_note_map_under (identity : Identity) (step : Step) (others : List PlacedObject)
    (found : Snapshots) :
    (others.map (.under step)).foldl (note identity) found = others.foldl (note identity) found :=
  List.foldl_map

mutual

/-- Flattening records the objects of the list, one after the other. -/
theorem collect_eq_foldl (identity : Identity) :
    ∀ (value : Json) (found : Snapshots),
      value.collect identity found = (placed value).foldl (note identity) found
  | array items, found => collectFromItems_eq_foldl identity items 0 found
  | object members, _ => collectFromMembers_eq_foldl identity members _
  | null, _ => rfl
  | bool _, _ => rfl
  | number _, _ => rfl
  | string _, _ => rfl
termination_by structural value => value

theorem collectFromItems_eq_foldl (identity : Identity) :
    ∀ (items : List Json) (index : ℕ) (found : Snapshots),
      collectFromItems identity items found =
        (placedInItems items index).foldl (note identity) found
  | [], _, _ => rfl
  | item :: rest, index, found => by
      rw [collectFromItems, placedInItems, List.foldl_append, foldl_note_map_under,
        collect_eq_foldl identity item, collectFromItems_eq_foldl identity rest (index + 1)]
termination_by structural items => items

theorem collectFromMembers_eq_foldl (identity : Identity) :
    ∀ (members : List (String × Json)) (found : Snapshots),
      collectFromMembers identity members found =
        (placedInMembers members).foldl (note identity) found
  | [], _ => rfl
  | (_, value) :: rest, found => by
      rw [collectFromMembers, placedInMembers, List.foldl_append, foldl_note_map_under,
        collect_eq_foldl identity value, collectFromMembers_eq_foldl identity rest]
termination_by structural members => members

end

end Json

/-! ### What the walk gathers under a key -/

namespace Snapshots

variable {found : Snapshots} {key other : EntityKey} {earlier members : Json.Members}

theorem get?_record_of_ne (h : other ≠ key) :
    Table.get? (found.record key members) other = Table.get? found other := by
  rw [record]
  split
  · exact Table.get?_insert_of_ne _ _ h
  · exact Table.get?_insert_of_ne _ _ h
  · rfl

theorem get?_record_of_none (h : Table.get? found key = none) :
    Table.get? (found.record key members) key = some (.object members) := by
  rw [record, h]
  exact Table.get?_insert_self _ _ _

theorem get?_record_of_object (h : Table.get? found key = some (.object earlier)) :
    Table.get? (found.record key members) key =
      some (.object (Table.insertAll earlier members)) := by
  rw [record, h]
  exact Table.get?_insert_self _ _ _

end Snapshots

/-- What an object of this key has in a field. -/
def PlacedObject.field? (identity : Identity) (key : EntityKey) (name : String)
    (found : PlacedObject) : Option Json :=
  if identity.keyOf? found.members = some key then Table.get? found.members name else none

/-- The snapshot of the objects of this key in a list, if there are any: it has a field exactly if
one of them has it, and the value is that of the last one which does. -/
inductive Gathers (identity : Identity) (key : EntityKey) (objects : List PlacedObject) :
    Option Json → Prop
  | nothing (hnone : ∀ found ∈ objects, identity.keyOf? found.members ≠ some key) :
      Gathers identity key objects none
  | snapshot {fields : Json.Members}
      (hsome : ∃ found ∈ objects, identity.keyOf? found.members = some key)
      (hsorted : Table.Sorted fields)
      (hfields : ∀ name,
        Table.get? fields name = objects.reverse.findSome? (·.field? identity key name)) :
      Gathers identity key objects (some (.object fields))

namespace Gathers

variable {identity : Identity} {key : EntityKey} {objects : List PlacedObject}
  {next : PlacedObject}

theorem findSome?_reverse_append_singleton {α β : Type} (f : α → Option β) (items : List α)
    (last : α) : (items ++ [last]).reverse.findSome? f =
      (f last).or (items.reverse.findSome? f) := by
  rw [List.reverse_concat, List.findSome?_cons]
  cases f last <;> rfl

/-- An object of another key adds nothing. -/
theorem skip {snapshot : Option Json} (h : Gathers identity key objects snapshot)
    (hnext : identity.keyOf? next.members ≠ some key) :
    Gathers identity key (objects ++ [next]) snapshot := by
  cases h with
  | nothing hnone =>
      refine .nothing fun found hfound => ?_
      rcases List.mem_append.1 hfound with hfound | hfound
      · exact hnone found hfound
      · cases List.mem_singleton.1 hfound
        exact hnext
  | snapshot hsome hsorted hfields =>
      obtain ⟨found, hfound, hkey⟩ := hsome
      refine .snapshot ⟨found, List.mem_append_left _ hfound, hkey⟩ hsorted fun name => ?_
      rw [findSome?_reverse_append_singleton, PlacedObject.field?, if_neg hnext]
      exact hfields name

/-- Recording one more object adds its fields to the snapshot under its key. -/
theorem note {found : Snapshots} (h : Gathers identity key objects (Table.get? found key))
    (hnext : Json.Ordered (.object next.members)) :
    Gathers identity key (objects ++ [next]) (Table.get? (Json.note identity found next) key) := by
  have hmem : next ∈ objects ++ [next] := List.mem_append_right _ (List.mem_singleton_self _)
  rw [Json.note]
  cases hkey : identity.keyOf? next.members with
  | none => exact h.skip (hkey ▸ nofun)
  | some other =>
      by_cases hother : key = other
      · subst other
        have hfield (name : String) :
            next.field? identity key name = Table.get? next.members name := if_pos hkey
        -- The object starts the snapshot, or adds to what earlier ones have left.
        generalize hbefore : Table.get? found key = before at h
        cases h with
        | nothing hnone =>
            dsimp only
            rw [Snapshots.get?_record_of_none hbefore]
            refine .snapshot ⟨next, hmem, hkey⟩ (Json.ordered_object_iff.1 hnext).1 fun name => ?_
            have hothers : objects.reverse.findSome? (·.field? identity key name) = none :=
              List.findSome?_eq_none_iff.2 fun found hfound =>
                if_neg (hnone found (List.mem_reverse.1 hfound))
            rw [findSome?_reverse_append_singleton, hfield, hothers, Option.or_none]
        | snapshot hsome hsorted hfields =>
            dsimp only
            rw [Snapshots.get?_record_of_object hbefore]
            refine .snapshot ⟨next, hmem, hkey⟩ (Table.sorted_insertAll hsorted _) fun name => ?_
            rw [findSome?_reverse_append_singleton, hfield, ← hfields name,
              Table.get?_insertAll _ (Json.nodup_keys_of_ordered hnext)]
      · dsimp only
        rw [Snapshots.get?_record_of_ne hother]
        refine h.skip fun heq => hother ?_
        exact Option.some.inj (heq.symm.trans hkey)

/-- What a walk has recorded under a key is the snapshot of the objects on its way. -/
theorem foldl_note (identity : Identity) (key : EntityKey) (objects : List PlacedObject)
    (h : ∀ found ∈ objects, Json.Ordered (.object found.members)) :
    Gathers identity key objects
      (Table.get? (objects.foldl (Json.note identity) []) key) := by
  induction objects using List.reverseRecOn with
  | nil => exact .nothing (List.forall_mem_nil _)
  | append_singleton objects next ih =>
      rw [List.foldl_append]
      refine (ih fun found hfound => h found (List.mem_append_left _ hfound)).note ?_
      exact h next (List.mem_append_right _ (List.mem_singleton_self _))

end Gathers

/-- In a list that is in order, the last value is that of an element which no other one with a
value comes after. -/
theorem findSome?_reverse_eq_some_iff {α β : Type} {r : α → α → Prop} [Std.Asymm r]
    {items : List α} (hitems : items.Pairwise r) {f : α → Option β} {value : β} :
    items.reverse.findSome? f = some value ↔
      ∃ item ∈ items, f item = some value ∧
        ∀ later ∈ items, (∃ other, f later = some other) → ¬ r item later := by
  rw [List.findSome?_eq_some_iff]
  constructor
  · rintro ⟨after, item, before, hreverse, hvalue, hafter⟩
    have heq : items = before.reverse ++ item :: after.reverse := by
      rw [← List.reverse_reverse items, hreverse]
      simp
    subst heq
    obtain ⟨-, -, hbefore⟩ := List.pairwise_append.1 hitems
    refine ⟨item, List.mem_append_right _ List.mem_cons_self, hvalue, ?_⟩
    rintro later hlater ⟨other, hother⟩ hr
    rcases List.mem_append.1 hlater with hlater | hlater
    · exact Std.Asymm.asymm _ _ hr (hbefore later hlater item List.mem_cons_self)
    · rcases List.mem_cons.1 hlater with rfl | hlater
      · exact Std.Asymm.asymm _ _ hr hr
      · cases (hafter later (List.mem_reverse.1 hlater)).symm.trans hother
  · rintro ⟨item, hmem, hvalue, hlast⟩
    obtain ⟨before, after, rfl⟩ := List.append_of_mem hmem
    obtain ⟨-, hitem, -⟩ := List.pairwise_append.1 hitems
    refine ⟨after.reverse, item, before.reverse, by simp, hvalue, fun later hlater => ?_⟩
    have hlater := List.mem_reverse.1 hlater
    rw [Option.eq_none_iff_forall_ne_some]
    intro other hother
    exact hlast later (List.mem_append_right _ (List.mem_cons_of_mem _ hlater)) ⟨other, hother⟩
      (List.rel_of_pairwise_cons hitem hlater)

/-! ### Snapshots by position -/

/-- An entity of this key stands at the position. -/
def EntityAt (identity : Identity) (key : EntityKey) (value : Json) (position : Json.Position)
    (members : Json.Members) : Prop :=
  value.locate? position = some (.object members) ∧ identity.keyOf? members = some key

theorem entityAt_iff {identity : Identity} {key : EntityKey} {value : Json}
    (hvalue : value.Ordered) (found : PlacedObject) :
    EntityAt identity key value found.position found.members ↔
      found ∈ value.placed ∧ identity.keyOf? found.members = some key :=
  and_congr_left fun _ => (Json.mem_placed_iff value hvalue).symm

theorem PlacedObject.field?_eq_some_iff {identity : Identity} {key : EntityKey} {name : String}
    {found : PlacedObject} {field : Json} :
    found.field? identity key name = some field ↔
      identity.keyOf? found.members = some key ∧
        Table.get? found.members name = some field :=
  Option.ite_none_right_eq_some

instance : Std.Asymm PlacedObject.Before :=
  ⟨fun _ _ => Std.Asymm.asymm (r := (· < ·)) _ _⟩

/-- The last object of the list that has a field is the last one by position. -/
theorem exists_last_iff {identity : Identity} {key : EntityKey} {value field : Json}
    (hvalue : value.Ordered) {name : String} :
    (∃ found ∈ value.placed, found.field? identity key name = some field ∧
        ∀ later ∈ value.placed, (∃ other, later.field? identity key name = some other) →
          ¬ found.Before later) ↔
      ∃ position members, EntityAt identity key value position members ∧
        Table.get? members name = some field ∧
        ∀ later others, EntityAt identity key value later others →
          name ∈ Table.keys others → ¬ position < later := by
  constructor
  · rintro ⟨found, hmem, hfield, hlast⟩
    obtain ⟨hkey, hget⟩ := PlacedObject.field?_eq_some_iff.1 hfield
    refine ⟨found.position, found.members, (entityAt_iff hvalue found).2 ⟨hmem, hkey⟩, hget, ?_⟩
    intro later others hlater hname
    obtain ⟨hlater, hkey⟩ := (entityAt_iff hvalue ⟨later, others⟩).1 hlater
    obtain ⟨other, hother⟩ := Table.mem_keys_iff.1 hname
    exact hlast _ hlater ⟨other, PlacedObject.field?_eq_some_iff.2 ⟨hkey, hother⟩⟩
  · rintro ⟨position, members, hentity, hget, hlast⟩
    obtain ⟨hmem, hkey⟩ := (entityAt_iff hvalue ⟨position, members⟩).1 hentity
    refine ⟨_, hmem, PlacedObject.field?_eq_some_iff.2 ⟨hkey, hget⟩, ?_⟩
    rintro later hlater ⟨other, hother⟩
    obtain ⟨hkey, hother⟩ := PlacedObject.field?_eq_some_iff.1 hother
    exact hlast later.position later.members ((entityAt_iff hvalue later).2 ⟨hlater, hkey⟩)
      (Table.mem_keys_iff.2 ⟨other, hother⟩)

/-- There is a snapshot for the key of each object in a value, and for no other key. It is an object
with the fields of all objects of this key, and each field has the value of the last object which
has that field. -/
theorem flatten_gathers {value : Json} (hvalue : value.Ordered) (identity : Identity) :
    (∀ key, key ∈ Table.keys (flatten value identity) ↔
        ∃ position members, EntityAt identity key value position members) ∧
      ∀ key snapshot, Table.get? (flatten value identity) key = some snapshot →
        ∃ fields, snapshot = .object fields ∧ Table.Sorted fields ∧
          ∀ name field, Table.get? fields name = some field ↔
            ∃ position members, EntityAt identity key value position members ∧
              Table.get? members name = some field ∧
              ∀ later others, EntityAt identity key value later others →
                name ∈ Table.keys others → ¬ position < later := by
  have hordered : ∀ found ∈ value.placed, Json.Ordered (.object found.members) :=
    fun found hfound => Json.ordered_of_locate? hvalue ((Json.mem_placed_iff value hvalue).1 hfound)
  have hgathers (key : EntityKey) :
      Gathers identity key value.placed (Table.get? (flatten value identity) key) := by
    rw [flatten, Json.collect_eq_foldl]
    exact Gathers.foldl_note identity key value.placed hordered
  constructor
  · intro key
    rw [Table.mem_keys_iff]
    have hkey := hgathers key
    generalize Table.get? (flatten value identity) key = found at hkey ⊢
    constructor
    · rintro ⟨snapshot, rfl⟩
      cases hkey with
      | snapshot hsome =>
          obtain ⟨found, hfound⟩ := hsome
          exact ⟨found.position, found.members, (entityAt_iff hvalue found).2 hfound⟩
    · rintro ⟨position, members, hentity⟩
      obtain ⟨hmem, hentity⟩ := (entityAt_iff hvalue ⟨position, members⟩).1 hentity
      cases hkey with
      | nothing hnone => exact absurd hentity (hnone _ hmem)
      | snapshot => exact ⟨_, rfl⟩
  · intro key snapshot hsnapshot
    have hkey := hgathers key
    rw [hsnapshot] at hkey
    cases hkey with
    | @snapshot fields hsome hsorted hfields =>
        refine ⟨fields, rfl, hsorted, fun name field => ?_⟩
        rw [hfields, findSome?_reverse_eq_some_iff (Json.pairwise_placed value hvalue)]
        exact exists_last_iff hvalue

/-- A user among the friends of her own friend list goes by another name there. Her snapshot has
the list, which only the outer object has, and the inner name. -/
theorem flatten_gathers_friend :
    let user (others : Json.Members) (name : String) : Json.Members :=
      ("__typename", .string "User") ::
        (others ++ [("id", .string "1"), ("name", .string name)])
    let friends : Json := .array [.null, .array [.object (user [] "B")]]
    let value : Json := .object (user [("friends", friends)] "A")
    let identity : Identity := ⟨"__typename", "id"⟩
    value.Ordered ∧
      flatten value identity =
        [(⟨"User-1"⟩, .object (user [("friends", friends)] "B"))] ∧
      EntityAt identity ⟨"User-1"⟩ value [.key "friends", .item 1, .item 0] (user [] "B") ∧
      (∀ key, key ∈ Table.keys (flatten value identity) ↔
        ∃ position members, EntityAt identity key value position members) ∧
      ∀ field, Table.get? (user [("friends", friends)] "B") "name" = some field ↔
        ∃ position members, EntityAt identity ⟨"User-1"⟩ value position members ∧
          Table.get? members "name" = some field ∧
          ∀ later others, EntityAt identity ⟨"User-1"⟩ value later others →
            "name" ∈ Table.keys others → ¬ position < later := by
  intro user friends value identity
  have hinner : Table.Sorted (user [] "B") :=
    (List.pairwise_map (l := user [] "B")).1
      (by decide : ["__typename", "id", "name"].Pairwise (· < ·))
  have houter : Table.Sorted (user [("friends", friends)] "A") :=
    (List.pairwise_map (l := user [("friends", friends)] "A")).1
      (by decide : ["__typename", "friends", "id", "name"].Pairwise (· < ·))
  have hvalue : value.Ordered :=
    ⟨houter, trivial, ⟨trivial, ⟨⟨hinner, trivial, trivial, trivial, trivial⟩, trivial⟩, trivial⟩,
      trivial, trivial, trivial⟩
  obtain ⟨hkeys, hfields⟩ := flatten_gathers hvalue identity
  have hflat : flatten value identity =
      [(⟨"User-1"⟩, .object (user [("friends", friends)] "B"))] := rfl
  have hget : Table.get? (flatten value identity) ⟨"User-1"⟩ =
      some (.object (user [("friends", friends)] "B")) := by
    rw [hflat]
    rfl
  obtain ⟨fields, heq, -, hname⟩ := hfields _ _ hget
  cases heq
  exact ⟨hvalue, hflat, ⟨rfl, rfl⟩, hkeys, hname "name"⟩

end QueryCache
