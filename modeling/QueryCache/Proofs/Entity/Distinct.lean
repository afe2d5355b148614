import QueryCache.Proofs.Entity.Gathered

/-!
# Which entities share a key

What tells one entity from another is the name of its type and the text of its id
(`EntityName`). A key is both, with a dash in between, and either may have dashes itself, so the key
does not say where the one ends and the other begins: two different entities share a key exactly
if their names overlap (`EntityName.key_eq_iff`). For that one of the type names has to have a dash
(`EntityName.not_overlaps_of_dashless`).

Where no two names overlap, a snapshot is made of the fields of a single entity
(`flatten_keeps_apart`). Otherwise it may be made of the fields of two
(`flatten_mixes_order_and_line`).
-/

namespace QueryCache

/-- What tells entities apart: the name of the type, and the id as a text. -/
@[ext]
structure EntityName where
  typeName : String
  id : String
deriving DecidableEq

namespace EntityName

variable {a b : EntityName}

/-- The key of the entity. -/
def key (name : EntityName) : EntityKey := .ofParts name.typeName name.id

/-- The first type name goes on with a dash where the second one ends, and the second id begins
with what comes after this dash, up to a dash in front of the first id. -/
def Overlaps (a b : EntityName) : Prop :=
  ∃ middle, a.typeName = b.typeName ++ "-" ++ middle ∧ b.id = middle ++ "-" ++ a.id

theorem toList_text_key (name : EntityName) :
    name.key.text.toList = name.typeName.toList ++ '-' :: name.id.toList := by
  simp [key, EntityKey.ofParts]

theorem overlaps_iff : a.Overlaps b ↔ ∃ middle,
    a.typeName.toList = b.typeName.toList ++ '-' :: middle ∧
      b.id.toList = middle ++ '-' :: a.id.toList := by
  constructor
  · rintro ⟨middle, htype, hid⟩
    exact ⟨middle.toList, by simp [htype], by simp [hid]⟩
  · rintro ⟨middle, htype, hid⟩
    refine ⟨String.ofList middle, String.toList_inj.1 ?_, String.toList_inj.1 ?_⟩
    · simp [htype]
    · simp [hid]

theorem Overlaps.key_eq (h : a.Overlaps b) : a.key = b.key := by
  obtain ⟨middle, htype, hid⟩ := overlaps_iff.1 h
  have htext : a.key.text.toList = b.key.text.toList := by
    rw [toList_text_key, toList_text_key, htype, hid, List.append_assoc, List.cons_append]
  exact congrArg EntityKey.mk (String.toList_inj.1 htext)

/-- Of two keys that are written alike, the second one has its dash at the same place or later. -/
theorem eq_or_overlaps {rest : List Char} (htype : b.typeName.toList = a.typeName.toList ++ rest)
    (hid : '-' :: a.id.toList = rest ++ '-' :: b.id.toList) : a = b ∨ b.Overlaps a := by
  cases rest with
  | nil =>
      rw [List.append_nil] at htype
      exact Or.inl (EntityName.ext (String.toList_inj.1 htype.symm)
        (String.toList_inj.1 (List.cons.inj hid).2))
  | cons first middle =>
      obtain ⟨rfl, hmiddle⟩ := List.cons.inj hid
      exact Or.inr (overlaps_iff.2 ⟨middle, htype, hmiddle⟩)

/-- Two entities share a key exactly if they are one entity, or their names overlap. -/
theorem key_eq_iff : a.key = b.key ↔ a = b ∨ a.Overlaps b ∨ b.Overlaps a := by
  constructor
  · intro hkey
    have hchars : a.typeName.toList ++ '-' :: a.id.toList =
        b.typeName.toList ++ '-' :: b.id.toList := by
      rw [← toList_text_key, hkey, toList_text_key]
    rcases List.append_eq_append_iff.1 hchars with ⟨rest, htype, hid⟩ | ⟨rest, htype, hid⟩
    · exact (eq_or_overlaps htype hid).imp_right Or.inr
    · rcases eq_or_overlaps htype hid with heq | hoverlaps
      · exact Or.inl heq.symm
      · exact Or.inr (Or.inl hoverlaps)
  · rintro (rfl | h | h)
    · rfl
    · exact h.key_eq
    · exact h.key_eq.symm

/-- A type name without a dash ends at the first dash of a key. -/
theorem not_overlaps_of_dashless (h : '-' ∉ a.typeName.toList) (b : EntityName) :
    ¬ a.Overlaps b := by
  intro hoverlaps
  obtain ⟨middle, htype, -⟩ := overlaps_iff.1 hoverlaps
  exact h (htype ▸ List.mem_append_right _ List.mem_cons_self)

end EntityName

namespace Identity

variable {identity : Identity} {members : Json.Members}

/-- The name of an object, if it is an entity. -/
def nameOf? (identity : Identity) (members : Json.Members) : Option EntityName := do
  let typeName ← (← Table.get? members identity.typenameField).string?
  let id ← idText? (← Table.get? members identity.idField)
  return ⟨typeName, id⟩

/-- An entity has the key of its name. -/
theorem keyOf?_eq_map (identity : Identity) (members : Json.Members) :
    identity.keyOf? members = (identity.nameOf? members).map EntityName.key := by
  simp only [keyOf?, nameOf?, Option.bind_eq_bind, Option.pure_def, Option.map_bind,
    Function.comp_def, Option.map_some, EntityName.key]

theorem keyOf?_eq_some_iff_name {key : EntityKey} :
    identity.keyOf? members = some key ↔
      ∃ name, identity.nameOf? members = some name ∧ name.key = key := by
  rw [keyOf?_eq_map, Option.map_eq_some_iff]

end Identity

/-! ### Entities in a value -/

/-- An entity of this name stands at the position. -/
def NamedAt (identity : Identity) (name : EntityName) (value : Json) (position : Json.Position)
    (members : Json.Members) : Prop :=
  value.locate? position = some (.object members) ∧ identity.nameOf? members = some name

/-- The value holds an entity of this name, at some position. -/
def Json.Holds (identity : Identity) (value : Json) (name : EntityName) : Prop :=
  ∃ position members, NamedAt identity name value position members

/-- No two entities in the value that have this key have names that overlap. -/
def Json.Apart (identity : Identity) (value : Json) (key : EntityKey) : Prop :=
  ∀ a b, value.Holds identity a → value.Holds identity b → a.key = key → b.key = key →
    ¬ a.Overlaps b

variable {identity : Identity} {value : Json} {key : EntityKey} {name : EntityName}
  {position : Json.Position} {members : Json.Members}

theorem NamedAt.holds (h : NamedAt identity name value position members) :
    value.Holds identity name :=
  ⟨position, members, h⟩

theorem entityAt_iff_namedAt :
    EntityAt identity key value position members ↔
      ∃ name, NamedAt identity name value position members ∧ name.key = key := by
  rw [EntityAt, Identity.keyOf?_eq_some_iff_name]
  constructor
  · rintro ⟨hmembers, name, hname, hkey⟩
    exact ⟨name, ⟨hmembers, hname⟩, hkey⟩
  · rintro ⟨name, ⟨hmembers, hname⟩, hkey⟩
    exact ⟨hmembers, name, hname, hkey⟩

/-- The names of the entities in a value, in the order of their positions. -/
def Json.names (identity : Identity) (value : Json) : List EntityName :=
  value.placed.filterMap fun found => identity.nameOf? found.members

theorem Json.holds_iff (hvalue : value.Ordered) :
    value.Holds identity name ↔ name ∈ value.names identity := by
  rw [names, List.mem_filterMap]
  constructor
  · rintro ⟨position, members, hmembers, hname⟩
    exact ⟨⟨position, members⟩, (mem_placed_iff value hvalue).2 hmembers, hname⟩
  · rintro ⟨found, hfound, hname⟩
    exact ⟨found.position, found.members, (mem_placed_iff value hvalue).1 hfound, hname⟩

theorem Json.apart_of_dashless
    (h : ∀ name, value.Holds identity name → '-' ∉ name.typeName.toList) (key : EntityKey) :
    value.Apart identity key :=
  fun a b ha _ _ _ => EntityName.not_overlaps_of_dashless (h a ha) b

/-- Where names do not overlap, a key belongs to one entity. -/
theorem Json.Apart.name_eq (h : value.Apart identity key) {a b : EntityName}
    (ha : value.Holds identity a) (hb : value.Holds identity b) (hkey : a.key = key)
    (hkey' : b.key = key) : a = b := by
  rcases EntityName.key_eq_iff.1 (hkey.trans hkey'.symm) with heq | hoverlaps | hoverlaps
  · exact heq
  · exact absurd hoverlaps (h a b ha hb hkey hkey')
  · exact absurd hoverlaps (h b a hb ha hkey' hkey)

/-! ### Snapshots -/

/-- The snapshot under a key is gathered from the objects in the value. -/
theorem gathers_flatten (hvalue : value.Ordered) (identity : Identity) (key : EntityKey) :
    Gathers identity key value.placed (Table.get? (flatten value identity) key) := by
  rw [flatten, Json.collect_eq_foldl]
  refine Gathers.foldl_note identity key value.placed fun found hfound => ?_
  exact Json.ordered_of_locate? hvalue ((Json.mem_placed_iff value hvalue).1 hfound)

theorem EntityAt.mem_keys (h : EntityAt identity key value position members)
    (hvalue : value.Ordered) : key ∈ Table.keys (flatten value identity) := by
  obtain ⟨hmem, hkey⟩ := (entityAt_iff hvalue ⟨position, members⟩).1 h
  have hgathers := gathers_flatten hvalue identity key
  rw [Table.mem_keys_iff]
  generalize Table.get? (flatten value identity) key = found at hgathers ⊢
  cases hgathers with
  | nothing hnone => exact absurd hkey (hnone _ hmem)
  | snapshot => exact ⟨_, rfl⟩

/-- Every field of a snapshot is a field of an entity with its key, and there is such an entity. -/
theorem exists_entityAt_of_get? (hvalue : value.Ordered) {snapshot : Json}
    (h : Table.get? (flatten value identity) key = some snapshot) :
    (∃ position members, EntityAt identity key value position members) ∧
      ∃ fields, snapshot = .object fields ∧ ∀ field x, Table.get? fields field = some x →
        ∃ position members, EntityAt identity key value position members ∧
          Table.get? members field = some x := by
  have hgathers := gathers_flatten hvalue identity key
  rw [h] at hgathers
  cases hgathers with
  | @snapshot fields hsome hsorted hfields =>
      obtain ⟨found, hfound⟩ := hsome
      refine ⟨⟨_, _, (entityAt_iff hvalue found).2 hfound⟩, fields, rfl, fun field x hx => ?_⟩
      rw [hfields] at hx
      obtain ⟨source, hsource, hfield⟩ := List.exists_of_findSome?_eq_some hx
      obtain ⟨hkey, hget⟩ := PlacedObject.field?_eq_some_iff.1 hfield
      exact ⟨_, _, (entityAt_iff hvalue source).2 ⟨List.mem_reverse.1 hsource, hkey⟩, hget⟩

/-- Two entities in a value are recorded under one key exactly if they have the same name, or their
names overlap. Unless the latter is the case under a key, the snapshot there belongs to one entity,
and all of its fields are fields of objects with the name of this entity. So it is under every key
if no type name has a dash. -/
theorem flatten_keeps_apart {value : Json} (hvalue : value.Ordered) (identity : Identity) :
    (∀ a b position position' members members', NamedAt identity a value position members →
        NamedAt identity b value position' members' →
          ((∃ key ∈ Table.keys (flatten value identity),
              EntityAt identity key value position members ∧
                EntityAt identity key value position' members') ↔
            a = b ∨ a.Overlaps b ∨ b.Overlaps a)) ∧
      (∀ key snapshot, Table.get? (flatten value identity) key = some snapshot →
        value.Apart identity key → ∃ name : EntityName, name.key = key ∧
          (∀ position members, EntityAt identity key value position members →
            NamedAt identity name value position members) ∧
          ∃ fields, snapshot = .object fields ∧
            ∀ field x, Table.get? fields field = some x →
              ∃ position members, NamedAt identity name value position members ∧
                Table.get? members field = some x) ∧
      ((∀ name, value.Holds identity name → '-' ∉ name.typeName.toList) →
        ∀ key, value.Apart identity key) := by
  refine ⟨?_, ?_, Json.apart_of_dashless⟩
  · intro a b position position' members members' ha hb
    rw [← EntityName.key_eq_iff]
    constructor
    · rintro ⟨key, -, hkey, hkey'⟩
      obtain ⟨a', ha', rfl⟩ := entityAt_iff_namedAt.1 hkey
      obtain ⟨b', hb', heq⟩ := entityAt_iff_namedAt.1 hkey'
      cases ha.2.symm.trans ha'.2
      cases hb.2.symm.trans hb'.2
      exact heq.symm
    · intro hkey
      have hfirst := entityAt_iff_namedAt.2 ⟨a, ha, rfl⟩
      have hsecond := entityAt_iff_namedAt.2 ⟨b, hb, hkey.symm⟩
      exact ⟨a.key, hfirst.mem_keys hvalue, hfirst, hsecond⟩
  · intro key snapshot hsnapshot hapart
    obtain ⟨⟨first, owner, howner⟩, fields, rfl, hfields⟩ :=
      exists_entityAt_of_get? hvalue hsnapshot
    obtain ⟨name, hname, rfl⟩ := entityAt_iff_namedAt.1 howner
    have hall : ∀ position members, EntityAt identity name.key value position members →
        NamedAt identity name value position members := by
      intro position members hentity
      obtain ⟨other, hother, hkey⟩ := entityAt_iff_namedAt.1 hentity
      exact hapart.name_eq hother.holds hname.holds hkey rfl ▸ hother
    refine ⟨name, rfl, hall, fields, rfl, fun field x hx => ?_⟩
    obtain ⟨position, members, hentity, hget⟩ := hfields field x hx
    exact ⟨position, members, hall position members hentity, hget⟩

/-- A user is both author and editor of a book, with her id once as a number and once as a text.
The id of the book has a dash, the type names have none. -/
theorem flatten_keeps_apart_author :
    let author : Json.Members :=
      [("__typename", .string "User"), ("id", .number (.int 1)), ("name", .string "Al")]
    let editor : Json.Members :=
      [("__typename", .string "User"), ("age", .string "40"), ("id", .string "1")]
    let book : Json.Members := [("__typename", .string "Book"), ("author", .object author),
      ("editor", .array [.object editor]), ("id", .string "User-1")]
    let value : Json := .object book
    let identity : Identity := ⟨"__typename", "id"⟩
    value.Ordered ∧ (∀ name, value.Holds identity name → '-' ∉ name.typeName.toList) ∧
      (∃ snapshot, Table.get? (flatten value identity) ⟨"User-1"⟩ = some snapshot) ∧
      NamedAt identity ⟨"User", "1"⟩ value [.key "author"] author ∧
      NamedAt identity ⟨"User", "1"⟩ value [.key "editor", .item 0] editor ∧
      (∃ key ∈ Table.keys (flatten value identity),
        EntityAt identity key value [.key "author"] author ∧
          EntityAt identity key value [.key "editor", .item 0] editor) ∧
      ∀ key snapshot, Table.get? (flatten value identity) key = some snapshot →
        ∃ name : EntityName, name.key = key ∧
          (∀ position members, EntityAt identity key value position members →
            NamedAt identity name value position members) ∧
          ∃ fields, snapshot = .object fields ∧
            ∀ field x, Table.get? fields field = some x →
              ∃ position members, NamedAt identity name value position members ∧
                Table.get? members field = some x := by
  intro author editor book value identity
  have hauthor : Table.Sorted author :=
    (List.pairwise_map (l := author)).1 (by decide : ["__typename", "id", "name"].Pairwise (· < ·))
  have heditor : Table.Sorted editor :=
    (List.pairwise_map (l := editor)).1 (by decide : ["__typename", "age", "id"].Pairwise (· < ·))
  have hbook : Table.Sorted book := (List.pairwise_map (l := book)).1
    (by decide : ["__typename", "author", "editor", "id"].Pairwise (· < ·))
  have hvalue : value.Ordered :=
    ⟨hbook, trivial, ⟨hauthor, trivial, trivial, trivial, trivial⟩,
      ⟨⟨heditor, trivial, trivial, trivial, trivial⟩, trivial⟩, trivial, trivial⟩
  have hdashless : ∀ name, value.Holds identity name → '-' ∉ name.typeName.toList := by
    intro name hname
    have hall : ∀ name ∈ value.names identity, '-' ∉ name.typeName.toList := by decide +kernel
    exact hall name ((Json.holds_iff hvalue).1 hname)
  have hfirst : NamedAt identity ⟨"User", "1"⟩ value [.key "author"] author :=
    ⟨rfl, by decide +kernel⟩
  have hsecond : NamedAt identity ⟨"User", "1"⟩ value [.key "editor", .item 0] editor :=
    ⟨rfl, by decide +kernel⟩
  obtain ⟨hshared, hsnapshots, hapart⟩ := flatten_keeps_apart hvalue identity
  refine ⟨hvalue, hdashless, ?_, hfirst, hsecond, ?_, fun key snapshot hsnapshot => ?_⟩
  · have hsome : (Table.get? (flatten value identity) ⟨"User-1"⟩).isSome = true := by
      decide +kernel
    exact Option.isSome_iff_exists.1 hsome
  · exact (hshared _ _ _ _ _ _ hfirst hsecond).2 (Or.inl rfl)
  · exact hsnapshots key snapshot hsnapshot (hapart hdashless key)

/-- Line 7 of an order, and the order with the id `Line-7`: their snapshot is made of both. -/
theorem flatten_mixes_order_and_line :
    let line : Json.Members :=
      [("__typename", .string "Order-Line"), ("id", .string "7"), ("price", .string "1")]
    let order : Json.Members :=
      [("__typename", .string "Order"), ("id", .string "Line-7"), ("total", .string "5")]
    let value : Json := .object [("line", .object line), ("order", .object order)]
    let identity : Identity := ⟨"__typename", "id"⟩
    NamedAt identity ⟨"Order-Line", "7"⟩ value [.key "line"] line ∧
      NamedAt identity ⟨"Order", "Line-7"⟩ value [.key "order"] order ∧
      flatten value identity = [(⟨"Order-Line-7"⟩, .object [("__typename", .string "Order"),
        ("id", .string "Line-7"), ("price", .string "1"), ("total", .string "5")])] ∧
      ¬ ∀ (identity : Identity) (value : Json), value.Ordered →
        ∀ key position position' members members', EntityAt identity key value position members →
          EntityAt identity key value position' members' →
            identity.nameOf? members = identity.nameOf? members' := by
  intro line order value identity
  have hline : Table.Sorted line :=
    (List.pairwise_map (l := line)).1 (by decide : ["__typename", "id", "price"].Pairwise (· < ·))
  have horder : Table.Sorted order :=
    (List.pairwise_map (l := order)).1 (by decide : ["__typename", "id", "total"].Pairwise (· < ·))
  have hvalue : value.Ordered :=
    ⟨List.pairwise_pair.2 (by decide : "line" < "order"),
      ⟨hline, trivial, trivial, trivial, trivial⟩, ⟨horder, trivial, trivial, trivial, trivial⟩,
      trivial⟩
  refine ⟨⟨rfl, rfl⟩, ⟨rfl, rfl⟩, rfl, fun hclaim => ?_⟩
  have hnames := hclaim identity value hvalue ⟨"Order-Line-7"⟩ [.key "line"] [.key "order"]
    line order ⟨rfl, by decide +kernel⟩ ⟨rfl, by decide +kernel⟩
  exact absurd hnames (by decide +kernel)

end QueryCache
