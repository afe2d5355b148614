import QueryCache.Proofs.Json.Difference
import QueryCache.Proofs.Json.Position

/-!
# Where two values clash

A position is common to two values when the same keys of objects and the same indices of equally
long lists lead to it in both (`Json.CommonPosition`). The values clash there when what they hold
cannot be one value: unequal scalars, values of different kinds, or lists of different lengths
(`Json.Clash`).

Values that differ clash right away, or have a common step to values that differ
(`Json.clash_or_step_of_differs`). So the comparison of snapshots finds a clash at a common position
if there is one, and nothing else (`Json.differs_iff_exists_clash`). A clash has no direction, and
hence neither has the comparison (`Json.differs_comm`).
-/

namespace QueryCache

namespace Json

/-! ### Clashes -/

/-- The kinds of values. -/
inductive Kind where
  | null
  | bool
  | number
  | string
  | array
  | object
deriving DecidableEq

/-- The kind of a value. -/
def kind : Json → Kind
  | null => .null
  | bool _ => .bool
  | number _ => .number
  | string _ => .string
  | array _ => .array
  | object _ => .object

/-- Whatever stands inside of them, the two are not the same value. -/
inductive Clash : Json → Json → Prop where
  | scalars {x y : Json} (hx : x.isScalar = true) (hy : y.isScalar = true)
      (h : x.same y = false) : Clash x y
  | kinds {x y : Json} (h : x.kind ≠ y.kind) : Clash x y
  | lengths {xs ys : List Json} (h : xs.length ≠ ys.length) : Clash (array xs) (array ys)

theorem Clash.symm {x y : Json} (h : Clash x y) : Clash y x := by
  cases h with
  | scalars hx hy h => exact .scalars hy hx ((same_comm y x).trans h)
  | kinds h => exact .kinds h.symm
  | lengths h => exact .lengths h.symm

theorem Clash.differs {x y : Json} (h : Clash x y) : x.differs y = true := by
  cases h with
  | scalars _ hy h => rw [differs_eq_not_same_of_isScalar hy, h, Bool.not_false]
  | kinds h => cases x <;> cases y <;> simp_all [kind, Json.differs, differsFrom, same]
  | lengths h => simp [Json.differs, differsFrom, h.symm]

theorem clash_of_isScalar {x y : Json} (hy : y.isScalar = true) (h : x.same y = false) :
    Clash x y := by
  cases hx : x.isScalar with
  | true => exact .scalars hx hy h
  | false => exact .kinds (by cases x <;> cases y <;> simp_all [isScalar, kind])

/-! ### Common positions -/

/-- A step that can be taken in both values, and what it leads to: a key of both objects, or an
index of two lists that are equally long. -/
inductive CommonStep : Json → Json → Step → Json → Json → Prop where
  | key {ms ns : Members} {name : String} {x y : Json} (hx : Table.get? ms name = some x)
      (hy : Table.get? ns name = some y) : CommonStep (object ms) (object ns) (.key name) x y
  | item {xs ys : List Json} {index : ℕ} {x y : Json} (hlength : xs.length = ys.length)
      (hx : xs[index]? = some x) (hy : ys[index]? = some y) :
      CommonStep (array xs) (array ys) (.item index) x y

/-- A position that is reached in both values by common steps. -/
inductive CommonPosition : Json → Json → Position → Prop where
  | nil (a b : Json) : CommonPosition a b []
  | cons {a b c d : Json} {step : Step} {rest : Position} (hstep : CommonStep a b step c d)
      (hrest : CommonPosition c d rest) : CommonPosition a b (step :: rest)

variable {a b c d x y : Json} {step : Step} {position : Position}

theorem CommonStep.symm (h : CommonStep a b step c d) : CommonStep b a step d c := by
  cases h with
  | key hx hy => exact .key hy hx
  | item hlength hx hy => exact .item hlength.symm hy hx

theorem CommonStep.child?_left (h : CommonStep a b step c d) : a.child? step = some c := by
  cases h with
  | key hx _ => exact hx
  | item _ hx _ => exact hx

theorem CommonStep.child?_right (h : CommonStep a b step c d) : b.child? step = some d :=
  h.symm.child?_left

theorem CommonStep.locate?_left (h : CommonStep a b step c d) (rest : Position) :
    a.locate? (step :: rest) = c.locate? rest := by
  rw [locate?_cons, h.child?_left, Option.bind_some]

theorem CommonStep.locate?_right (h : CommonStep a b step c d) (rest : Position) :
    b.locate? (step :: rest) = d.locate? rest :=
  h.symm.locate?_left rest

theorem CommonPosition.symm (h : CommonPosition a b position) : CommonPosition b a position := by
  induction h with
  | nil a b => exact .nil b a
  | cons hstep _ ih => exact .cons hstep.symm ih

/-! ### One level of the comparison -/

theorem CommonStep.differs (h : CommonStep a b step c d) (hdiffers : c.differs d = true) :
    a.differs b = true := by
  cases h with
  | key hx hy =>
      exact differs_object_iff.2 ⟨_, d, c, Table.mem_of_get?_eq_some hy, hx, hdiffers⟩
  | item _ hx hy => exact differs_array_iff.2 (Or.inr ⟨_, d, c, hy, hx, hdiffers⟩)

theorem clash_or_step_of_differs_array {xs ys : List Json}
    (h : (array xs).differs (array ys) = true) :
    Clash (array xs) (array ys) ∨
      ∃ step c d, CommonStep (array xs) (array ys) step c d ∧ c.differs d = true := by
  by_cases hlength : xs.length = ys.length
  · rcases differs_array_iff.1 h with hne | ⟨index, d, c, hd, hc, hdiffers⟩
    · exact absurd hlength.symm hne
    · exact Or.inr ⟨.item index, c, d, .item hlength hc hd, hdiffers⟩
  · exact Or.inl (.lengths hlength)

theorem exists_step_of_differs_object {ms ns : Members} (hns : (object ns).Ordered)
    (h : (object ms).differs (object ns) = true) :
    ∃ step c d, CommonStep (object ms) (object ns) step c d ∧ c.differs d = true := by
  obtain ⟨name, d, c, hmem, hc, hdiffers⟩ := differs_object_iff.1 h
  have hd : Table.get? ns name = some d :=
    Table.get?_eq_some_of_mem (nodup_keys_of_ordered hns) hmem
  exact ⟨.key name, c, d, .key hc hd, hdiffers⟩

/-- Values that differ clash, or else differ in something that a common step leads to. -/
theorem clash_or_step_of_differs (hb : b.Ordered) (h : a.differs b = true) :
    Clash a b ∨ ∃ step c d, CommonStep a b step c d ∧ c.differs d = true := by
  cases b with
  | array ys =>
      cases a with
      | array xs => exact clash_or_step_of_differs_array h
      | _ => exact Or.inl (.kinds nofun)
  | object ns =>
      cases a with
      | object ms => exact Or.inr (exists_step_of_differs_object hb h)
      | _ => exact Or.inl (.kinds nofun)
  | _ =>
      rw [differs_eq_not_same_of_isScalar rfl, Bool.not_eq_true'] at h
      exact Or.inl (clash_of_isScalar rfl h)

/-! ### The whole comparison -/

theorem CommonPosition.differs (h : CommonPosition a b position)
    (hx : a.locate? position = some x) (hy : b.locate? position = some y)
    (hdiffers : x.differs y = true) : a.differs b = true := by
  induction h with
  | nil a b =>
      cases hx
      cases hy
      exact hdiffers
  | cons hstep _ ih =>
      rw [hstep.locate?_left] at hx
      rw [hstep.locate?_right] at hy
      exact hstep.differs (ih hx hy)

/-- Values that differ clash at a common position. Each step leads to smaller values, so the search
for the clash comes to an end. -/
theorem exists_clash_of_differs {a b : Json} (hb : b.Ordered) (h : a.differs b = true) :
    ∃ position x y, CommonPosition a b position ∧ a.locate? position = some x ∧
      b.locate? position = some y ∧ Clash x y := by
  rcases clash_or_step_of_differs hb h with hclash | ⟨step, c, d, hstep, hdiffers⟩
  · exact ⟨[], a, b, .nil a b, locate?_nil a, locate?_nil b, hclash⟩
  · have hd : d.Ordered := ordered_of_child? hb hstep.child?_right
    obtain ⟨rest, x, y, hrest, hx, hy, hclash⟩ := exists_clash_of_differs hd hdiffers
    exact ⟨step :: rest, x, y, .cons hstep hrest, (hstep.locate?_left rest).trans hx,
      (hstep.locate?_right rest).trans hy, hclash⟩
termination_by sizeOf b
decreasing_by exact sizeOf_lt_of_child? hstep.child?_right

theorem differs_iff_exists_clash (hb : b.Ordered) :
    a.differs b = true ↔
      ∃ position x y, CommonPosition a b position ∧ a.locate? position = some x ∧
        b.locate? position = some y ∧ Clash x y := by
  refine ⟨exists_clash_of_differs hb, ?_⟩
  rintro ⟨position, x, y, hposition, hx, hy, hclash⟩
  exact hposition.differs hx hy hclash.differs

theorem differs_swap (hb : b.Ordered) (h : a.differs b = true) : b.differs a = true := by
  obtain ⟨position, x, y, hposition, hx, hy, hclash⟩ := exists_clash_of_differs hb h
  exact hposition.symm.differs hy hx hclash.symm.differs

theorem differs_comm (ha : a.Ordered) (hb : b.Ordered) : a.differs b = b.differs a :=
  Bool.eq_iff_iff.2 ⟨differs_swap hb, differs_swap ha⟩

/-- Two values differ exactly when they clash at a common position. It does not matter which of them
is the stored one, and equal values do not differ. -/
theorem differs_laws (ha : a.Ordered) (hb : b.Ordered) :
    (a.differs b = true ↔
        ∃ position x y, CommonPosition a b position ∧ a.locate? position = some x ∧
          b.locate? position = some y ∧ Clash x y) ∧
      a.differs b = b.differs a ∧
      (a.same b = true → a.differs b = false) :=
  ⟨differs_iff_exists_clash hb, differs_comm ha hb, differs_eq_false_of_same ha⟩

/-- A club as it is stored, with the levels of two members and a motto. -/
def storedClub : Json :=
  .object [("members", .array [.object [("level", .number (.int 1))],
    .object [("level", .number (.int 2)), ("title", .null)]]), ("motto", .string "onward")]

/-- The club later on: the second member has risen, and other fields were asked for. -/
def laterClub : Json :=
  .object [("members", .array [.object [("level", .number (.int 1)), ("name", .string "Ann")],
    .object [("level", .number (.int 3))]]), ("size", .number (.int 2))]

/-- Where the level of the second member stands. -/
def secondLevel : Position := [.key "members", .item 1, .key "level"]

/-- The clubs clash at the level of the second member. The fields that only one of them has do not
matter, and a club does not differ from itself. -/
theorem differs_laws_club :
    storedClub.Ordered ∧ laterClub.Ordered ∧
      CommonPosition storedClub laterClub secondLevel ∧
      storedClub.locate? secondLevel = some (.number (.int 2)) ∧
      laterClub.locate? secondLevel = some (.number (.int 3)) ∧
      storedClub.differs laterClub = true ∧ laterClub.differs storedClub = true ∧
      storedClub.differs storedClub = false := by
  have hstored : storedClub.Ordered := by
    have hmembers : "members" < "motto" := by decide
    have hlevel : "level" < "title" := by decide
    exact ⟨List.pairwise_pair.2 hmembers, ⟨⟨List.pairwise_singleton _ _, trivial, trivial⟩,
      ⟨List.pairwise_pair.2 hlevel, trivial, trivial, trivial⟩, trivial⟩, trivial, trivial⟩
  have hlater : laterClub.Ordered := by
    have hmembers : "members" < "size" := by decide
    have hlevel : "level" < "name" := by decide
    exact ⟨List.pairwise_pair.2 hmembers, ⟨⟨List.pairwise_pair.2 hlevel, trivial, trivial, trivial⟩,
      ⟨List.pairwise_singleton _ _, trivial, trivial⟩, trivial⟩, trivial, trivial⟩
  have hposition : CommonPosition storedClub laterClub secondLevel :=
    .cons (.key rfl rfl) (.cons (.item rfl rfl rfl) (.cons (.key rfl rfl) (.nil _ _)))
  obtain ⟨hiff, hcomm, -⟩ := differs_laws hstored hlater
  have hdiffers : storedClub.differs laterClub = true :=
    hiff.2 ⟨secondLevel, _, _, hposition, rfl, rfl, .scalars rfl rfl rfl⟩
  obtain ⟨-, -, hsame⟩ := differs_laws hstored hstored
  exact ⟨hstored, hlater, hposition, rfl, rfl, hdiffers, hcomm.symm.trans hdiffers,
    hsame (same_refl storedClub)⟩

end Json

end QueryCache
