import QueryCache.Proofs.Json.Equality
import QueryCache.Proofs.Store.History

/-!
# Changes that a write reports

A write compares with the snapshots at every depth, but a snapshot takes the fields
of an entity whole: an object that a field held before is replaced, not merged. A
scalar inside an object is therefore forgotten when a later write brings the object
without it, and its next change goes unnoticed. `Store.notices_iff` says that this is
the only way in which a change is lost.
-/

namespace QueryCache

namespace Json

theorem lacks_cons_of_member? {x child : Json} {name : String}
    (h : x.member? name = some child) (path : List String) :
    x.lacks (name :: path) = child.lacks path := by
  obtain ⟨members, rfl, hget⟩ := member?_eq_some_iff.1 h
  rw [lacks_object_cons, hget]

theorem object_of_lacks {x : Json} {path : List String} (h : x.lacks path = true) :
    ∃ members, x = object members := by
  cases path with
  | nil => simp at h
  | cons name path => cases x <;> simp_all [lacks]

theorem ordered_of_isScalar {x : Json} (h : x.isScalar = true) : x.Ordered := by
  cases x <;> simp_all [isScalar, Ordered]

theorem ordered_nest (path : List String) {y : Json} (h : y.Ordered) :
    (nest path y).Ordered := by
  induction path with
  | nil => exact h
  | cons name path ih =>
      refine ordered_object_iff.2 ⟨List.pairwise_singleton _ _, ?_⟩
      intro member hmember
      cases List.mem_singleton.1 hmember
      exact ih

/-- A scalar that is neither a text nor a number has no part in the key of an entity. -/
def IsPlain (y : Json) : Prop := y = null ∨ ∃ value, y = bool value

/-- For every scalar there is a plain one that is different. -/
theorem exists_isPlain_not_same {x : Json} (hx : x.isScalar = true) :
    ∃ y : Json, y.IsPlain ∧ x.same y = false := by
  cases x with
  | null => exact ⟨bool true, Or.inr ⟨true, rfl⟩, rfl⟩
  | bool value => exact ⟨null, Or.inl rfl, rfl⟩
  | number value => exact ⟨null, Or.inl rfl, rfl⟩
  | string value => exact ⟨null, Or.inl rfl, rfl⟩
  | array items => simp [isScalar] at hx
  | object members => simp [isScalar] at hx

theorem IsPlain.isScalar {y : Json} (h : y.IsPlain) : y.isScalar = true := by
  rcases h with rfl | ⟨value, rfl⟩ <;> rfl

theorem IsPlain.string?_nest {y : Json} (h : y.IsPlain) (path : List String) :
    (nest path y).string? = none := by
  cases path with
  | nil => rcases h with rfl | ⟨value, rfl⟩ <;> rfl
  | cons name path => rfl

/-- There are no entities along a path that leads to a plain scalar. -/
theorem IsPlain.collect_nest {y : Json} (h : y.IsPlain) (identity : Identity)
    (path : List String) (found : Snapshots) :
    (nest path y).collect identity found = found := by
  induction path with
  | nil => rcases h with rfl | ⟨value, rfl⟩ <;> rfl
  | cons name path ih =>
      have hkey : identity.keyOf? [(name, nest path y)] = none := by
        refine Option.eq_none_iff_forall_ne_some.2 fun key hkey => ?_
        obtain ⟨typeName, value, id, htype, -⟩ := Identity.keyOf?_eq_some_iff.1 hkey
        rw [Table.get?_cons] at htype
        split at htype
        · have hstring := h.string?_nest path
          rw [Option.some_inj.1 htype] at hstring
          simp [string?] at hstring
        · simp at htype
      rw [nest, collect, hkey]
      exact ih

/-- Nothing differs if a value comes where an object was without the path, and the
other fields are scalars from before. -/
theorem differs_eq_false_of_nest {members bare : Members} (hordered : Ordered (object bare))
    {field : String} {path : List String} {child y : Json}
    (hchild : Table.get? members field = some child) (hlacks : child.lacks path = true)
    (hfield : Table.get? bare field = some (nest path y))
    (hrest : ∀ name value, Table.get? bare name = some value → name ≠ field →
      Table.get? members name = some value ∧ value.isScalar = true) :
    (object members).differs (object bare) = false := by
  refine Bool.eq_false_iff.2 fun hdiffers => ?_
  obtain ⟨name, value, stored, hmem, hstored, hvalueDiffers⟩ := differs_object_iff.1 hdiffers
  have hvalue := Table.get?_eq_some_of_mem (nodup_keys_of_ordered hordered) hmem
  by_cases hname : name = field
  · subst hname
    cases hchild.symm.trans hstored
    cases hfield.symm.trans hvalue
    rw [differs_nest_of_lacks hlacks] at hvalueDiffers
    simp at hvalueDiffers
  · obtain ⟨hsame, hscalar⟩ := hrest name value hvalue hname
    cases hsame.symm.trans hstored
    rw [differs_eq_not_same_of_isScalar hscalar, same_refl] at hvalueDiffers
    simp at hvalueDiffers

end Json

/-- The members of an entity with a value at one path, and with nothing else. -/
def Identity.bare (identity : Identity) (typeName : String) (id : Json) (field : String)
    (path : List String) (y : Json) : Json.Members :=
  Table.insert (Table.insert (Table.insert [] identity.typenameField (.string typeName))
    identity.idField id) field (Json.nest path y)

namespace Identity

variable (identity : Identity) (typeName : String) {id : Json} (field : String)
  (path : List String) {y : Json}

theorem get?_bare (id y : Json) (name : String) :
    Table.get? (identity.bare typeName id field path y) name =
      if name = field then some (Json.nest path y)
      else if name = identity.idField then some id
      else if name = identity.typenameField then some (.string typeName)
      else none := by
  rw [bare, Table.get?_insert, Table.get?_insert, Table.get?_insert, Table.get?_nil]

theorem ordered_bare (hid : id.Ordered) (hy : y.Ordered) :
    Json.Ordered (.object (identity.bare typeName id field path y)) := by
  have hempty : Json.Ordered (.object []) := Json.ordered_emptyObject
  have htype : (Json.string typeName).Ordered := trivial
  exact Json.ordered_insert (Json.ordered_insert (Json.ordered_insert hempty _ htype) _ hid) _
    (Json.ordered_nest path hy)

theorem isScalar_of_idText? {id : Json} {text : String} (h : idText? id = some text) :
    id.isScalar = true := by
  cases id <;> simp_all [idText?, Json.isScalar]

theorem collect_of_idText? {id : Json} {text : String} (h : idText? id = some text)
    (found : Snapshots) : id.collect identity found = found := by
  cases id <;> simp_all [idText?, Json.collect]

/-- The entity itself is all that flattening finds. -/
theorem flatten_bare {text : String} (hid : idText? id = some text) (hy : y.IsPlain)
    {key : EntityKey}
    (hkey : identity.keyOf? (identity.bare typeName id field path y) = some key) :
    flatten (.object (identity.bare typeName id field path y)) identity =
      [(key, .object (identity.bare typeName id field path y))] := by
  refine flatten_of_plain hkey ?_
  intro member hmember found
  rcases Table.mem_insert hmember with rfl | hmember
  · exact hy.collect_nest identity path found
  · rcases Table.mem_insert hmember with rfl | hmember
    · exact identity.collect_of_idText? hid found
    · rcases Table.mem_insert hmember with rfl | hmember
      · rfl
      · simp at hmember

/-- A result that repeats the key of an entity, and has a plain scalar at a path of it.
The path begins in a field that held an object, which is no part of the key. -/
theorem exists_bare {members : Json.Members} {key : EntityKey}
    (hkey : identity.keyOf? members = some key) {inner : Json.Members}
    (hinner : Table.get? members field = some (.object inner)) (hy : y.IsPlain) :
    ∃ bare, Json.Ordered (.object bare) ∧
      Table.get? bare field = some (Json.nest path y) ∧
      flatten (.object bare) identity = [(key, .object bare)] ∧
      ∀ name value, Table.get? bare name = some value → name ≠ field →
        Table.get? members name = some value ∧ value.isScalar = true := by
  obtain ⟨typeName, id, text, htype, hid, htext, hentity⟩ := keyOf?_eq_some_iff.1 hkey
  have hidScalar := isScalar_of_idText? htext
  have htypeField : identity.typenameField ≠ field := by
    intro heq
    rw [heq, hinner] at htype
    simp at htype
  have hidField : identity.idField ≠ field := by
    intro heq
    rw [heq, hinner] at hid
    cases hid
    simp [idText?] at htext
  have hbare : identity.keyOf? (identity.bare typeName id field path y) = some key := by
    refine keyOf?_eq_some_iff.2 ⟨typeName, id, text, ?_, ?_, htext, hentity⟩
    · rw [get?_bare, if_neg htypeField, if_pos rfl]
      split
      · rw [‹identity.typenameField = identity.idField›, hid] at htype
        exact htype
      · rfl
    · rw [get?_bare, if_neg hidField, if_pos rfl]
  refine ⟨identity.bare typeName id field path y, ?_, ?_, ?_, ?_⟩
  · exact identity.ordered_bare typeName field path (Json.ordered_of_isScalar hidScalar)
      (Json.ordered_of_isScalar hy.isScalar)
  · rw [get?_bare, if_pos rfl]
  · exact identity.flatten_bare typeName field path htext hy hbare
  · intro name value hvalue hne
    rw [get?_bare, if_neg hne] at hvalue
    split at hvalue
    · cases hvalue
      exact ⟨‹name = identity.idField› ▸ hid, hidScalar⟩
    · split at hvalue
      · cases hvalue
        exact ⟨‹name = identity.typenameField› ▸ htype, rfl⟩
      · simp at hvalue

end Identity

namespace Store

variable {identity : Identity} {history : List Write} {entity : EntityKey} {field : String}
  {path : List String} {x : Json}

/-- Whatever other scalar is written next at the path, the write reports the entity
and all queries ever written with it, other than the writer. -/
def Notices (identity : Identity) (history : List Write) (entity : EntityKey)
    (path : List String) (x : Json) : Prop :=
  ∀ next : Write, next.FromFlatten identity →
    ∀ value y, Table.get? next.entities entity = some value → value.at? path = some y →
      y.isScalar = true → x.same y = false →
        entity ∈ ((after history).enter next).1.changed ∧
          ∀ query, some query ≠ next.writer →
            (∃ write ∈ history, write.IsResultOf query ∧
              entity ∈ Table.keys write.entities) →
            query ∈ ((after history).enter next).1.queries

theorem at?_isSome_of_latest {value : Json} (h : latest history entity path = some value) :
    (value.at? path).isSome = true := by
  obtain ⟨write, -, hwrite⟩ := List.exists_of_findSome?_eq_some h
  exact (Option.filter_eq_some_iff.1 hwrite).2

/-- The first field of a path that has been written has been written. -/
theorem exists_latest_field {value : Json}
    (h : latest history entity (field :: path) = some value) :
    ∃ last, latest history entity [field] = some last := by
  obtain ⟨write, hwrite, hfilter⟩ := List.exists_of_findSome?_eq_some h
  obtain ⟨hentity, hpath⟩ := Option.filter_eq_some_iff.1 hfilter
  obtain ⟨y, hy⟩ := Option.isSome_iff_exists.1 hpath
  obtain ⟨child, hchild, -⟩ := Json.at?_cons_eq_some_iff.1 hy
  refine Option.isSome_iff_exists.1 (List.findSome?_isSome_iff.2 ⟨write, hwrite, ?_⟩)
  rw [hentity, Option.filter_some, Json.at?_singleton, hchild]
  rfl

/-- The snapshot has the field that the latest write with it had. -/
theorem snapshot_of_latest (h : ∀ write ∈ history, write.FromFlatten identity) {last : Json}
    (hlast : latest history entity [field] = some last) :
    ∃ snapshot child, (after history).snapshot? entity = some snapshot ∧
      snapshot.member? field = some child ∧ last.member? field = some child := by
  have hfield := at?_isSome_of_latest hlast
  rw [Json.at?_singleton] at hfield
  obtain ⟨child, hchild⟩ := Option.isSome_iff_exists.1 hfield
  have hmember := member?_after h entity field
  rw [hlast, Option.bind_some, hchild] at hmember
  obtain ⟨snapshot, hsnapshot, hsame⟩ := Option.bind_eq_some_iff.1 hmember
  exact ⟨snapshot, child, hsnapshot, hsame, hchild⟩

/-- A change is noticed as long as the field around it has not been replaced by an
object without the path. -/
theorem notices_of_not_lacks (h : ∀ write ∈ history, write.FromFlatten identity)
    {held last : Json} (hheld : latest history entity (field :: path) = some held)
    (hx : held.at? (field :: path) = some x)
    (hlast : latest history entity [field] = some last)
    (hlacks : last.lacks (field :: path) = false) :
    Notices identity history entity (field :: path) x := by
  intro next hnext value y hvalue hy hscalar hdifferent
  obtain ⟨snapshot, child, hsnapshot, hmember, hlastMember⟩ := snapshot_of_latest h hlast
  have hsound := sound_after h
  have hdiffers : snapshot.differs value = true := by
    refine Json.differs_of_at? hy hscalar ?_ ?_
    · rw [Json.lacks_cons_of_member? hmember, ← Json.lacks_cons_of_member? hlastMember]
      exact hlacks
    · intro z hz
      obtain ⟨other, hother, hrest⟩ := Json.at?_cons_eq_some_iff.1 hz
      cases hother.symm.trans hmember
      have hlastPath : last.at? (field :: path) = some z :=
        Json.at?_cons_eq_some_iff.2 ⟨_, hlastMember, hrest⟩
      have hsame := latest_eq_of_at? hlast (by rw [hlastPath]; rfl)
      cases hheld.symm.trans hsame
      cases hx.symm.trans hlastPath
      exact hdifferent
  have hchanged : entity ∈ (after history).changedEntities next.entities :=
    (mem_changedEntities_iff hnext.flat.nodup).2
      ⟨hsound.writes_ne_zero hsnapshot, value, snapshot, hvalue, hsnapshot, hdiffers⟩
  refine ⟨?_, fun query hquery hwritten => ?_⟩
  · rw [changed_enter hnext]
    exact hchanged
  · exact (mem_queries_enter_iff hnext).2
      ⟨hquery, entity, hchanged, (mem_dependentsOf_after h).2 hwritten⟩

/-- A change inside an object that has been replaced by one without the path can go
unnoticed. -/
theorem not_notices_of_lacks (h : ∀ write ∈ history, write.FromFlatten identity)
    (hscalar : x.isScalar = true) {last : Json}
    (hlast : latest history entity [field] = some last)
    (hlacks : last.lacks (field :: path) = true) :
    ¬ Notices identity history entity (field :: path) x := by
  intro hnotices
  obtain ⟨y, hy, hdifferent⟩ := Json.exists_isPlain_not_same hscalar
  obtain ⟨snapshot, child, hsnapshot, hmember, hlastMember⟩ := snapshot_of_latest h hlast
  obtain ⟨members, rfl, -⟩ := (sound_after h).objects hsnapshot
  have hchild : child.lacks path = true := by
    rw [← Json.lacks_cons_of_member? hlastMember]
    exact hlacks
  have hget : Table.get? members field = some child := hmember
  obtain ⟨inner, rfl⟩ := Json.object_of_lacks hchild
  -- what is written next repeats the key of the stored snapshot
  obtain ⟨bare, hordered, hfield, hflatten, hrest⟩ :=
    identity.exists_bare field path (keyed_after h hsnapshot) hget hy
  let next : Write := .payload none (flatten (.object bare) identity)
  have hnext : next.FromFlatten identity := ⟨⟨.object bare, hordered, rfl⟩, trivial⟩
  have hvalue : Table.get? next.entities entity = some (.object bare) := by
    change Table.get? (flatten (.object bare) identity) entity = _
    rw [hflatten, Table.get?_cons, if_pos rfl]
  have hpath : (Json.object bare).at? (field :: path) = some y :=
    Json.at?_cons_eq_some_iff.2 ⟨_, hfield, Json.at?_nest path y⟩
  have hchanged := (hnotices next hnext _ y hvalue hpath hy.isScalar hdifferent).1
  rw [changed_enter hnext] at hchanged
  obtain ⟨-, new, old, hnew, hold, hdiffers⟩ :=
    (mem_changedEntities_iff hnext.flat.nodup).1 hchanged
  cases hvalue.symm.trans hnew
  cases hsnapshot.symm.trans hold
  rw [Json.differs_eq_false_of_nest hordered hget hchild hfield hrest] at hdiffers
  simp at hdiffers

/-- Every next change at a path is noticed exactly if the latest write of its first
field was not an object without the path. -/
theorem notices_iff (h : ∀ write ∈ history, write.FromFlatten identity) {held : Json}
    (hheld : latest history entity (field :: path) = some held)
    (hx : held.at? (field :: path) = some x) (hscalar : x.isScalar = true) :
    Notices identity history entity (field :: path) x ↔
      ∀ last, latest history entity [field] = some last →
        last.lacks (field :: path) = false := by
  constructor
  · intro hnotices last hlast
    refine Bool.eq_false_iff.2 fun hlacks => ?_
    exact not_notices_of_lacks h hscalar hlast hlacks hnotices
  · intro hlacks
    obtain ⟨last, hlast⟩ := exists_latest_field hheld
    exact notices_of_not_lacks h hheld hx hlast (hlacks last hlast)

end Store

/-- A result that holds a user with one part of the address. -/
def Json.ofAddress (part text : String) : Json :=
  .object [("me", .object [("__typename", .string "User"),
    ("address", .object [(part, .string text)]), ("id", .string "1")])]

theorem Json.ordered_ofAddress (part text : String) : (ofAddress part text).Ordered := by
  have haddress : Ordered (.object [(part, .string text)]) := by
    refine ordered_object_iff.2 ⟨List.pairwise_singleton _ _, ?_⟩
    simp [Ordered]
  have htype : "__typename" < "address" := by decide
  have hid : "__typename" < "id" := by decide
  have hlast : "address" < "id" := by decide
  refine ordered_object_iff.2 ⟨List.pairwise_singleton _ _, ?_⟩
  intro member hmember
  cases List.mem_singleton.1 hmember
  refine ordered_object_iff.2 ⟨?_, ?_⟩
  · refine List.pairwise_cons.2 ⟨?_, List.pairwise_pair.2 hlast⟩
    intro other hother
    rcases List.mem_pair.1 hother with rfl | rfl
    · exact htype
    · exact hid
  · simpa [Ordered] using haddress

/-- The write of a part of the address as the result of a query. -/
def Write.ofAddress (query part text : String) : Write :=
  .result ⟨query⟩ (.ready (.ofAddress part text))
    (flatten (.ofAddress part text) ⟨"__typename", "id"⟩)

theorem Write.fromFlatten_ofAddress (query part text : String) :
    (ofAddress query part text).FromFlatten ⟨"__typename", "id"⟩ :=
  ⟨⟨_, Json.ordered_ofAddress part text, rfl⟩, rfl⟩

namespace Store

/-- The city of a user has been written, and then an address without the city. -/
theorem notices_iff_address :
    let identity : Identity := ⟨"__typename", "id"⟩
    let history := [Write.ofAddress "b" "zip" "1", Write.ofAddress "a" "city" "Rome"]
    let user := Json.object [("__typename", .string "User"),
      ("address", .object [("city", .string "Rome")]), ("id", .string "1")]
    (∀ write ∈ history, write.FromFlatten identity) ∧
      latest history ⟨"User-1"⟩ ["address", "city"] = some user ∧
      user.at? ["address", "city"] = some (.string "Rome") ∧
      (Json.string "Rome").isScalar = true ∧
      (Notices identity history ⟨"User-1"⟩ ["address", "city"] (.string "Rome") ↔
        ∀ last, latest history ⟨"User-1"⟩ ["address"] = some last →
          last.lacks ["address", "city"] = false) := by
  intro identity history user
  have hhistory : ∀ write ∈ history, write.FromFlatten identity := by
    intro write hwrite
    rcases List.mem_pair.1 hwrite with rfl | rfl
    · exact Write.fromFlatten_ofAddress _ _ _
    · exact Write.fromFlatten_ofAddress _ _ _
  have hheld : latest history ⟨"User-1"⟩ ["address", "city"] = some user := by decide +kernel
  have hx : user.at? ["address", "city"] = some (.string "Rome") := by decide +kernel
  exact ⟨hhistory, hheld, hx, rfl, notices_iff hhistory hheld hx rfl⟩

/-- The city changes after an address without the city has been written, and nothing is
reported. -/
theorem not_notices_address :
    ¬ ∀ (identity : Identity) (history : List Write) (entity : EntityKey)
      (path : List String) (held x : Json), (∀ write ∈ history, write.FromFlatten identity) →
        latest history entity path = some held → held.at? path = some x →
          x.isScalar = true → Notices identity history entity path x := by
  intro hclaim
  let history := [Write.ofAddress "b" "zip" "1", Write.ofAddress "a" "city" "Rome"]
  let next := Write.ofAddress "c" "city" "Oslo"
  have hhistory : ∀ write ∈ history, write.FromFlatten ⟨"__typename", "id"⟩ := by
    intro write hwrite
    rcases List.mem_pair.1 hwrite with rfl | rfl
    · exact Write.fromFlatten_ofAddress _ _ _
    · exact Write.fromFlatten_ofAddress _ _ _
  let user := fun city => Json.object [("__typename", .string "User"),
    ("address", .object [("city", .string city)]), ("id", .string "1")]
  have hheld : latest history ⟨"User-1"⟩ ["address", "city"] = some (user "Rome") := by
    decide +kernel
  have hnotices := hclaim _ history ⟨"User-1"⟩ ["address", "city"] _ (.string "Rome")
    hhistory hheld (by decide +kernel) rfl
  have hchanged := (hnotices next (Write.fromFlatten_ofAddress _ _ _) (user "Oslo")
    (.string "Oslo") (by decide +kernel) (by decide +kernel) rfl (by decide +kernel)).1
  have hnone : ((after history).enter next).1 = .none := by decide +kernel
  rw [hnone] at hchanged
  simp [Invalidation.none] at hchanged

end Store

end QueryCache
