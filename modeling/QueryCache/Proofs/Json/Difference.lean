import QueryCache.Proofs.Json.Equality
import QueryCache.Proofs.Json.Ordered
import QueryCache.Store.Snapshot

/-!
# Differences at a path

`x.at? p` follows a path of member names, and `x.lacks p` says that the path
ends early, at an object without the next member. A scalar that a new value
holds at `p` makes the stored value differ unless the stored value lacks `p` or
holds the same scalar there (`Json.differs_of_at?`).
-/

namespace QueryCache

namespace Json

/-- The value at the end of a path of member names. -/
def at? : Json → List String → Option Json
  | value, [] => some value
  | value, name :: path => (value.member? name).bind fun child => child.at? path

/-- The path leads to an object that does not have its next member. -/
def lacks : Json → List String → Bool
  | object members, name :: path =>
    match Table.get? members name with
    | some child => child.lacks path
    | none => true
  | _, _ => false

@[simp] theorem at?_nil (x : Json) : x.at? [] = some x := by
  cases x <;> rfl

theorem at?_cons (x : Json) (name : String) (path : List String) :
    x.at? (name :: path) = (x.member? name).bind fun child => child.at? path := by
  cases x <;> rfl

theorem member?_eq_some_iff {x y : Json} {name : String} :
    x.member? name = some y ↔ ∃ members, x = object members ∧
      Table.get? members name = some y := by
  cases x <;> simp [member?]

theorem at?_singleton (x : Json) (name : String) : x.at? [name] = x.member? name := by
  rw [at?_cons]
  cases x.member? name <;> simp

theorem at?_cons_eq_some_iff {x y : Json} {name : String} {path : List String} :
    x.at? (name :: path) = some y ↔
      ∃ child, x.member? name = some child ∧ child.at? path = some y := by
  rw [at?_cons, Option.bind_eq_some_iff]

@[simp] theorem lacks_nil (x : Json) : x.lacks [] = false := by
  cases x <;> rfl

theorem lacks_object_cons (members : Members) (name : String) (path : List String) :
    (object members).lacks (name :: path) =
      match Table.get? members name with
      | some child => child.lacks path
      | none => true := rfl

theorem differs_eq_not_same_of_isScalar {stored new : Json} (h : new.isScalar = true) :
    stored.differs new = !stored.same new := by
  cases new <;> simp_all [isScalar, differs, differsFrom]

theorem differs_eq_not_same_of_isScalar_left {stored new : Json}
    (h : stored.isScalar = true) : stored.differs new = !stored.same new := by
  cases stored <;> cases new <;> simp_all [isScalar, differs, differsFrom]

theorem memberDiffers_iff {new stored : Members} :
    memberDiffers new stored = true ↔
      ∃ name value old, (name, value) ∈ new ∧ Table.get? stored name = some old ∧
        old.differs value = true := by
  induction new with
  | nil => simp [memberDiffers]
  | cons member rest ih =>
      obtain ⟨name, value⟩ := member
      rw [memberDiffers, Bool.or_eq_true, ih]
      constructor
      · rintro (hhead | ⟨name', value', old, hmem, hrest⟩)
        · cases hget : Table.get? stored name with
          | none => simp [hget] at hhead
          | some old =>
              rw [hget] at hhead
              exact ⟨name, value, old, List.mem_cons_self, hget, hhead⟩
        · exact ⟨name', value', old, List.mem_cons_of_mem _ hmem, hrest⟩
      · rintro ⟨name', value', old, hmem, hget, hdiffers⟩
        rcases List.mem_cons.1 hmem with heq | hmem
        · cases heq
          rw [hget]
          exact Or.inl hdiffers
        · exact Or.inr ⟨name', value', old, hmem, hget, hdiffers⟩

/-- Objects differ exactly when a member that both have does. -/
theorem differs_object_iff {stored new : Members} :
    (object stored).differs (object new) = true ↔
      ∃ name value old, (name, value) ∈ new ∧ Table.get? stored name = some old ∧
        old.differs value = true :=
  memberDiffers_iff

theorem itemDiffers_iff {new stored : List Json} :
    itemDiffers new stored = true ↔
      ∃ (index : ℕ) (value old : Json), new[index]? = some value ∧ stored[index]? = some old ∧
        old.differs value = true := by
  induction new generalizing stored with
  | nil => simp [itemDiffers]
  | cons value rest ih =>
      cases stored with
      | nil => simp [itemDiffers]
      | cons old stored =>
          rw [itemDiffers, Bool.or_eq_true, ih]
          constructor
          · rintro (hhead | ⟨index, value', old', hvalue, hold, hdiffers⟩)
            · exact ⟨0, value, old, rfl, rfl, hhead⟩
            · exact ⟨index + 1, value', old', hvalue, hold, hdiffers⟩
          · rintro ⟨index, value', old', hvalue, hold, hdiffers⟩
            cases index with
            | zero =>
                cases hvalue
                cases hold
                exact Or.inl hdiffers
            | succ index => exact Or.inr ⟨index, value', old', hvalue, hold, hdiffers⟩

/-- Lists differ exactly when their lengths do or two items at one index. -/
theorem differs_array_iff {stored new : List Json} :
    (array stored).differs (array new) = true ↔
      new.length ≠ stored.length ∨
        ∃ (index : ℕ) (value old : Json), new[index]? = some value ∧ stored[index]? = some old ∧
          old.differs value = true := by
  rw [← itemDiffers_iff]
  simp [differs, differsFrom]

theorem differs_object_of_not_object {stored : Json} {new : Members}
    (h : ∀ members, stored ≠ object members) :
    stored.differs (object new) = true := by
  cases stored <;> simp_all [differs, differsFrom, same]

/-- A scalar at a path makes the stored value differ, unless that value lacks the
path or holds the same scalar there. -/
theorem differs_of_at? {stored new y : Json} {path : List String}
    (hnew : new.at? path = some y) (hy : y.isScalar = true)
    (hlacks : stored.lacks path = false)
    (hstored : ∀ x, stored.at? path = some x → x.same y = false) :
    stored.differs new = true := by
  induction path generalizing stored new with
  | nil =>
      cases hnew.symm.trans (at?_nil new)
      rw [differs_eq_not_same_of_isScalar hy, hstored stored (at?_nil stored)]
      rfl
  | cons name path ih =>
      obtain ⟨value, hvalue, hrest⟩ := at?_cons_eq_some_iff.1 hnew
      obtain ⟨new, rfl, hget⟩ := member?_eq_some_iff.1 hvalue
      by_cases hobject : ∃ members, stored = object members
      · obtain ⟨members, rfl⟩ := hobject
        rw [lacks_object_cons] at hlacks
        cases hold : Table.get? members name with
        | none => simp [hold] at hlacks
        | some old =>
            rw [hold] at hlacks
            have hdiffers : old.differs value = true := by
              refine ih hrest hlacks fun x hx => hstored x ?_
              exact at?_cons_eq_some_iff.2 ⟨old, hold, hx⟩
            exact differs_object_iff.2
              ⟨name, value, old, Table.mem_of_get?_eq_some hget, hold, hdiffers⟩
      · exact differs_object_of_not_object fun members heq => hobject ⟨members, heq⟩

/-! ### Values that are the same -/

theorem length_eq_of_sameItems {xs ys : List Json} (h : sameItems xs ys = true) :
    xs.length = ys.length := by
  induction xs generalizing ys with
  | nil => cases ys <;> simp_all [sameItems]
  | cons x xs ih =>
      cases ys with
      | nil => simp [sameItems] at h
      | cons y ys =>
          simp only [sameItems, Bool.and_eq_true] at h
          simp [ih h.2]

mutual

theorem differsFrom_eq_false : ∀ new stored : Json, stored.Ordered →
    same stored new = true → differsFrom new stored = false
  | null, stored, _, h => by simp [differsFrom, h]
  | bool _, stored, _, h => by simp [differsFrom, h]
  | number _, stored, _, h => by simp [differsFrom, h]
  | string _, stored, _, h => by simp [differsFrom, h]
  | array items, stored, hstored, h => by
      cases stored with
      | array stored =>
          have hlength := length_eq_of_sameItems h
          have hitems := itemDiffers_eq_false items stored hstored h
          simp [differsFrom, hlength, hitems]
      | _ => simp [same] at h
  | object members, stored, hstored, h => by
      cases stored with
      | object stored =>
          have hnodup := nodup_keys_of_ordered hstored
          have hmembers := (ordered_object_iff.1 hstored).2
          exact memberDiffers_eq_false members stored stored
            (fun member hmember => Table.get?_eq_some_of_mem hnodup hmember) hmembers h
      | _ => simp [same] at h
termination_by structural new => new

theorem itemDiffers_eq_false : ∀ new stored : List Json, OrderedItems stored →
    sameItems stored new = true → itemDiffers new stored = false
  | [], _, _, _ => rfl
  | _ :: _, [], _, _ => rfl
  | value :: rest, old :: stored, hstored, h => by
      simp only [sameItems, Bool.and_eq_true] at h
      simp [itemDiffers, differsFrom_eq_false value old hstored.1 h.1,
        itemDiffers_eq_false rest stored hstored.2 h.2]
termination_by structural new => new

/-- The new members are compared with the whole stored table, of which `part` is
what is left to be compared. -/
theorem memberDiffers_eq_false : ∀ (new part stored : List (String × Json)),
    (∀ member ∈ part, Table.get? stored member.1 = some member.2) →
      (∀ member ∈ part, member.2.Ordered) → sameMembers part new = true →
        memberDiffers new stored = false
  | [], _, _, _, _, _ => rfl
  | _ :: _, [], _, _, _, h => by simp [sameMembers] at h
  | (name, value) :: rest, (other, old) :: part, stored, hget, hordered, h => by
      simp only [sameMembers, Bool.and_eq_true, beq_iff_eq] at h
      obtain ⟨⟨rfl, hvalue⟩, hrest⟩ := h
      have hhead := hget _ List.mem_cons_self
      have hold := hordered _ List.mem_cons_self
      simp only [memberDiffers, hhead, differsFrom_eq_false value old hold hvalue,
        Bool.false_or]
      exact memberDiffers_eq_false rest part stored
        (fun member hmember => hget member (List.mem_cons_of_mem _ hmember))
        (fun member hmember => hordered member (List.mem_cons_of_mem _ hmember)) hrest
termination_by structural new => new

end

/-- A value does not differ from one that is the same. -/
theorem differs_eq_false_of_same {stored new : Json} (hstored : stored.Ordered)
    (h : stored.same new = true) : stored.differs new = false :=
  differsFrom_eq_false new stored hstored h

/-! ### A value at the end of a path -/

/-- The objects along a path, with a value at its end. -/
def nest : List String → Json → Json
  | [], value => value
  | name :: path, value => object [(name, nest path value)]

@[simp] theorem at?_nest (path : List String) (y : Json) : (nest path y).at? path = some y := by
  induction path with
  | nil => exact at?_nil y
  | cons name path ih =>
      have hmember : (nest (name :: path) y).member? name = some (nest path y) := by
        simp [nest, member?, Table.get?_cons]
      exact at?_cons_eq_some_iff.2 ⟨_, hmember, ih⟩

/-- A value that lacks the path does not differ from anything that stands there. -/
theorem differs_nest_of_lacks {x : Json} {path : List String} (h : x.lacks path = true)
    (y : Json) : x.differs (nest path y) = false := by
  induction path generalizing x with
  | nil => simp at h
  | cons name path ih =>
      by_cases hobject : ∃ members, x = object members
      · obtain ⟨members, rfl⟩ := hobject
        rw [lacks_object_cons] at h
        refine Bool.eq_false_iff.2 fun hdiffers => ?_
        obtain ⟨other, value, old, hmem, hget, hold⟩ := differs_object_iff.1 hdiffers
        cases List.mem_singleton.1 hmem
        rw [hget] at h
        rw [ih h] at hold
        simp at hold
      · cases x <;> simp_all [lacks]

end Json

end QueryCache
