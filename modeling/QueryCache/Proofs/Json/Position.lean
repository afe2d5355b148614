import QueryCache.Proofs.Json.Ordered

/-!
# Positions in a value

A position says where in a value something stands: it goes into objects by key and into lists by
index. `value.locate? position` is what stands there. Other than a path of keys (`Json.at?`,
`Json.reached`), a position goes through lists one item at a time, so it leads to one place. Its
keys alone are the path that a response key path is compared with (`Position.keys`), to which lists
are transparent.

Positions are ordered like the words of a dictionary: an object comes before what is inside it,
the members of an object stand in the order of their keys, and items in the order of the list.
-/

namespace QueryCache

namespace Json

/-- A step into a value. -/
inductive Step where
  | key (name : String)
  | item (index : ℕ)
deriving DecidableEq

/-- Steps into a value, from the outside in. -/
abbrev Position := List Step

namespace Step

/-- Keys are in their order, and so are indices. No value has both. -/
def Before : Step → Step → Prop
  | key name, key other => name < other
  | item index, item other => index < other
  | _, _ => False

instance : LT Step := ⟨Before⟩

theorem key_lt_key_iff {name other : String} : key name < key other ↔ name < other := Iff.rfl

theorem item_lt_item_iff {index other : ℕ} : item index < item other ↔ index < other := Iff.rfl

instance : Std.Asymm (α := Step) (· < ·) :=
  ⟨fun a b hab hba => by
    cases a <;> cases b
    · exact Std.Asymm.asymm (r := (· < ·)) _ _ (key_lt_key_iff.1 hab) (key_lt_key_iff.1 hba)
    · exact hab
    · exact hab
    · exact Nat.lt_asymm (item_lt_item_iff.1 hab) (item_lt_item_iff.1 hba)⟩

end Step

/-- The keys on the way to a position. -/
def Position.keys (position : Position) : List String :=
  position.filterMap fun
    | .key name => some name
    | .item _ => none

theorem Position.keys_cons_key (name : String) (rest : Position) :
    keys (.key name :: rest) = name :: keys rest := rfl

/-- What a step leads to. -/
def child? : Json → Step → Option Json
  | object members, .key name => Table.get? members name
  | array items, .item index => items[index]?
  | _, _ => none

/-- What stands at a position. -/
def locate? : Position → Json → Option Json
  | [], value => some value
  | step :: rest, value => (value.child? step).bind (locate? rest)

@[simp] theorem locate?_nil (value : Json) : value.locate? [] = some value := rfl

theorem locate?_cons (value : Json) (step : Step) (rest : Position) :
    value.locate? (step :: rest) = (value.child? step).bind (locate? rest) := rfl

theorem child?_key_eq_some_iff {value child : Json} {name : String} :
    value.child? (.key name) = some child ↔
      ∃ members, value = object members ∧ Table.get? members name = some child := by
  cases value <;> simp [child?]

theorem child?_item_eq_some_iff {value child : Json} {index : ℕ} :
    value.child? (.item index) = some child ↔
      ∃ items, value = array items ∧ items[index]? = some child := by
  cases value <;> simp [child?]

theorem locate?_cons_eq_some_iff {value found : Json} {step : Step} {rest : Position} :
    value.locate? (step :: rest) = some found ↔
      ∃ child, value.child? step = some child ∧ child.locate? rest = some found := by
  rw [locate?_cons, Option.bind_eq_some_iff]

theorem sizeOf_lt_of_child? {value child : Json} {step : Step}
    (h : value.child? step = some child) : sizeOf child < sizeOf value := by
  cases step with
  | key name =>
      obtain ⟨members, rfl, hmember⟩ := child?_key_eq_some_iff.1 h
      have hmem := List.sizeOf_lt_of_mem (Table.mem_of_get?_eq_some hmember)
      simp only [Prod.mk.sizeOf_spec, object.sizeOf_spec] at hmem ⊢
      omega
  | item index =>
      obtain ⟨items, rfl, hitem⟩ := child?_item_eq_some_iff.1 h
      have hmem := List.sizeOf_lt_of_mem (List.mem_of_getElem? hitem)
      simp only [array.sizeOf_spec]
      omega

theorem ordered_of_mem {items : List Json} (h : OrderedItems items) {item : Json}
    (hitem : item ∈ items) : Ordered item := by
  induction items with
  | nil => cases hitem
  | cons first rest ih =>
      rcases List.mem_cons.1 hitem with rfl | hitem
      · exact h.1
      · exact ih h.2 hitem

theorem ordered_of_child? {value child : Json} (h : value.Ordered) {step : Step}
    (hchild : value.child? step = some child) : child.Ordered := by
  cases step with
  | key name =>
      obtain ⟨members, rfl, hmember⟩ := child?_key_eq_some_iff.1 hchild
      exact ordered_of_get? h hmember
  | item index =>
      obtain ⟨items, rfl, hitem⟩ := child?_item_eq_some_iff.1 hchild
      exact ordered_of_mem h (List.mem_of_getElem? hitem)

/-- What stands in an ordered value is ordered. -/
theorem ordered_of_locate? {value found : Json} (h : value.Ordered) {position : Position}
    (hfound : value.locate? position = some found) : found.Ordered := by
  induction position generalizing value with
  | nil =>
      cases hfound
      exact h
  | cons step rest ih =>
      obtain ⟨child, hchild, hrest⟩ := locate?_cons_eq_some_iff.1 hfound
      exact ih (ordered_of_child? h hchild) hrest

end Json

end QueryCache
