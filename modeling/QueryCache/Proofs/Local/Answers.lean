import QueryCache.Proofs.Local.Merged

/-!
# A query is answered completely

A query is answered in two halves: the server answers what the split leaves of it, and the
resolvers fill the path tree. `Answers` says that a value answers selections: a walk of both
finds every selected response key, and every value of the tree at its key. When the server's
half is answered, the merge of both halves answers the query as it was written
(`Document.answers_merge`), also where the server had nothing to answer at all, and away from
the local fields nothing that the server answered is lost.
-/

namespace QueryCache

namespace Selection

open PathTree
open PathNode (mergeAllInto)

mutual

/-- The members of an object answer a selection: its response key is there, and unless a
local node of the tree stands under the key, so are the keys below it and the values of the
tree, in every object that the member reaches through lists. A spread asks for nothing. -/
def AnsweredBy : Selection → PathTree → List (String × Json) → Prop
  | field head none, _, members => ∃ value, Table.get? members head.responseKey = some value
  | field head (some set), tree, members =>
    let below := tree.childrenAt head.responseKey
    ∃ value, Table.get? members head.responseKey = some value ∧
      (tree.isLocalAt head.responseKey = true ∨
        ∀ inner ∈ value.objects, below.Holds inner ∧ AllAnsweredBy set below inner)
  | spread _ _, _, _ => True
  | inline _ _ set, tree, members => AllAnsweredBy set tree members
termination_by structural selection => selection

/-- The members of an object answer every selection of a list. -/
def AllAnsweredBy : List Selection → PathTree → List (String × Json) → Prop
  | [], _, _ => True
  | selection :: rest, tree, members =>
    AnsweredBy selection tree members ∧ AllAnsweredBy rest tree members
termination_by structural set => set

end

theorem allAnsweredBy_append {first second : List Selection} {tree : PathTree}
    {members : List (String × Json)} :
    AllAnsweredBy (first ++ second) tree members ↔
      AllAnsweredBy first tree members ∧ AllAnsweredBy second tree members := by
  induction first with
  | nil => simp [AllAnsweredBy]
  | cons selection rest ih => simp [AllAnsweredBy, ih, and_assoc]

section Merge

variable {directive : String} {tree filled : PathTree} {members : List (String × Json)}
variable {head : FieldHead} {set : SelectionSet}

/-- A field is answered where a local node stands. -/
theorem answeredBy_of_isLocalAt (hsorted : tree.Sorted) (hfilled : tree.Filled filled)
    (hlocal : tree.isLocalAt head.responseKey = true) (set : Option SelectionSet) :
    AnsweredBy (field head set) filled (mergeAllInto filled members) := by
  have hholds := holds_mergeAllInto (hfilled.nodup_keys hsorted.1) members
  rcases hfilled.under head.responseKey with ⟨-, hlocal', node, value, hnode, hvalue⟩ | hinner
  · have hmember := hholds _ node value hnode hvalue
    cases set with
    | none => exact ⟨value, hmember⟩
    | some set => exact ⟨value, hmember, Or.inl hlocal'⟩
  · cases hlocal.symm.trans hinner.1

/-- Where no local node stands above it, what the server sees of a selection set is answered in
every object that its selections are merged into. When the server sees nothing of the set,
the tree has a node that makes this object. -/
theorem allAnsweredBy_below (hdirective : ¬ head.hasDirective directive = true)
    (hlocal : tree.isLocalAt head.responseKey = false)
    (hmarks : ∀ path ∈ localPathsOfAll directive set, Marks tree (head.responseKey :: path))
    (hserved : ∀ kept ∈ served directive (field head (some set)), AnsweredBy kept tree members) :
    ((∃ value, Table.get? members head.responseKey = some value) ∨
        head.responseKey ∈ Table.keys tree) ∧
      ∀ inner ∈ ((Table.get? members head.responseKey).getD .emptyObject).objects,
        AllAnsweredBy (servedAll directive set) (tree.childrenAt head.responseKey) inner := by
  rw [served, if_neg hdirective] at hserved
  by_cases hkept : (set.isEmpty || !(servedAll directive set).isEmpty) = true
  · rw [if_pos hkept] at hserved
    obtain ⟨value, hvalue, hset⟩ := hserved _ rfl
    have hset := hset.resolve_left (ne_true_of_eq_false hlocal)
    rw [hvalue]
    exact ⟨Or.inl ⟨value, rfl⟩, fun inner hinner => (hset inner hinner).2⟩
  · obtain ⟨hset, hnone⟩ := used_up_iff.1 hkept
    obtain ⟨path, hpath⟩ := exists_localPathOfAll directive set hset hnone
    obtain ⟨node, hnode, -⟩ := hmarks path hpath
    rw [hnone]
    exact ⟨Or.inr (Table.mem_keys_iff.2 ⟨node, hnode⟩), fun _ _ => trivial⟩

end Merge

mutual

/-- When the server's part of a selection is answered and the tree covers the local fields, the
merged members answer the selection. -/
theorem answeredBy_mergeAllInto (directive : String) :
    ∀ (selection : Selection) {tree filled : PathTree} {members : List (String × Json)},
      tree.Sorted → tree.Filled filled →
      (∀ path ∈ localPaths directive selection, Marks tree path) →
      (∀ kept ∈ served directive selection, AnsweredBy kept tree members) →
        AnsweredBy selection filled (mergeAllInto filled members)
  | field head none, tree, filled, members, hsorted, hfilled, hmarks, hserved => by
      rw [localPaths] at hmarks
      rw [served] at hserved
      split at hserved
      · rw [if_pos ‹_›] at hmarks
        have hlocal := (marks_cons_iff.1 (hmarks _ (List.mem_singleton_self _))).resolve_right id
        exact answeredBy_of_isLocalAt hsorted hfilled hlocal none
      · exact exists_get?_mergeAllInto (hfilled.nodup_keys hsorted.1) (hserved _ rfl)
  | field head (some set), tree, filled, members, hsorted, hfilled, hmarks, hserved => by
      rw [localPaths] at hmarks
      by_cases hdirective : head.hasDirective directive = true
      · rw [if_pos hdirective] at hmarks
        have hlocal := (marks_cons_iff.1 (hmarks _ (List.mem_singleton_self _))).resolve_right id
        exact answeredBy_of_isLocalAt hsorted hfilled hlocal (some set)
      · rw [if_neg hdirective] at hmarks
        rw [List.forall_mem_map] at hmarks
        rcases hfilled.under head.responseKey with ⟨hlocal, -⟩ | ⟨hlocal, hlocal', hbelow⟩
        · exact answeredBy_of_isLocalAt hsorted hfilled hlocal (some set)
        · obtain ⟨hkey, hset⟩ := allAnsweredBy_below hdirective hlocal hmarks hserved
          have hsortedBelow := hsorted.childrenAt head.responseKey
          refine ⟨_, get?_mergeAllInto_inner (hfilled.nodup_keys hsorted.1) hlocal'
            (hfilled.keys ▸ hkey), Or.inr fun inner hinner => ?_⟩
          rw [Json.objects_mapObjects] at hinner
          obtain ⟨before, hbefore, rfl⟩ := List.mem_map.1 hinner
          refine ⟨holds_mergeAllInto (hbelow.nodup_keys hsortedBelow.1) before, ?_⟩
          refine allAnsweredBy_mergeAllInto directive set hsortedBelow hbelow
            (fun path hpath => ?_) (hset before hbefore)
          exact (marks_cons_iff.1 (hmarks path hpath)).resolve_left (ne_true_of_eq_false hlocal)
  | spread _ _, _, _, _, _, _, _, _ => trivial
  | inline condition directives set, tree, filled, members, hsorted, hfilled, hmarks, hserved => by
      refine allAnsweredBy_mergeAllInto directive set hsorted hfilled hmarks ?_
      rw [served] at hserved
      by_cases hkept : (set.isEmpty || !(servedAll directive set).isEmpty) = true
      · exact hserved _ (if_pos hkept)
      · rw [(used_up_iff.1 hkept).2]
        trivial
termination_by structural selection => selection

/-- When the server's part of some selections is answered and the tree covers their local
fields, the merged members answer the selections. -/
theorem allAnsweredBy_mergeAllInto (directive : String) :
    ∀ (set : List Selection) {tree filled : PathTree} {members : List (String × Json)},
      tree.Sorted → tree.Filled filled →
      (∀ path ∈ localPathsOfAll directive set, Marks tree path) →
      AllAnsweredBy (servedAll directive set) tree members →
        AllAnsweredBy set filled (mergeAllInto filled members)
  | [], _, _, _, _, _, _, _ => trivial
  | selection :: rest, tree, filled, members, hsorted, hfilled, hmarks, hserved => by
      rw [servedAll, allAnsweredBy_append] at hserved
      refine ⟨answeredBy_mergeAllInto directive selection hsorted hfilled
          (fun path hpath => hmarks path (List.mem_append_left _ hpath)) ?_,
        allAnsweredBy_mergeAllInto directive rest hsorted hfilled
          (fun path hpath => hmarks path (List.mem_append_right _ hpath)) hserved.2⟩
      rintro kept hkept
      rw [hkept] at hserved
      exact hserved.1.1
termination_by structural set => set

end

mutual

theorem answeredBy_of_filled :
    ∀ (selection : Selection) {tree filled : PathTree} {members : List (String × Json)},
      tree.Filled filled → AnsweredBy selection filled members →
        AnsweredBy selection tree members
  | field _ none, _, _, _, _, h => h
  | field head (some set), tree, filled, members, hfilled, ⟨value, hvalue, h⟩ => by
      refine ⟨value, hvalue, ?_⟩
      rcases hfilled.under head.responseKey with ⟨hlocal, -⟩ | ⟨-, hlocal, hbelow⟩
      · exact Or.inl hlocal
      · refine Or.inr fun inner hinner => ?_
        have hinner := h.resolve_left (ne_true_of_eq_false hlocal) inner hinner
        exact ⟨hinner.1.of_filled hbelow, allAnsweredBy_of_filled set hbelow hinner.2⟩
  | spread _ _, _, _, _, _, _ => trivial
  | inline _ _ set, _, _, _, hfilled, h => allAnsweredBy_of_filled set hfilled h
termination_by structural selection => selection

theorem allAnsweredBy_of_filled :
    ∀ (set : List Selection) {tree filled : PathTree} {members : List (String × Json)},
      tree.Filled filled → AllAnsweredBy set filled members → AllAnsweredBy set tree members
  | [], _, _, _, _, _ => trivial
  | selection :: rest, _, _, _, hfilled, h =>
      ⟨answeredBy_of_filled selection hfilled h.1, allAnsweredBy_of_filled rest hfilled h.2⟩
termination_by structural set => set

end

end Selection

/-- Every object that the value reaches through lists has the values of the tree under their
keys and answers the selections. -/
def Answers (tree : PathTree) (set : SelectionSet) (value : Json) : Prop :=
  ∀ members ∈ value.objects, tree.Holds members ∧ Selection.AllAnsweredBy set tree members

/-- What answers with the values of a filled tree answers as long as none of them is known. -/
theorem Answers.of_filled {tree filled : PathTree} {set : SelectionSet} {value : Json}
    (h : Answers filled set value) (hfilled : tree.Filled filled) : Answers tree set value :=
  fun members hmembers => ⟨(h members hmembers).1.of_filled hfilled,
    Selection.allAnsweredBy_of_filled set hfilled (h members hmembers).2⟩

namespace Document

theorem servedAll_eq_nil_of_sendToServer {directive : String} {d : Document}
    (h : (d.split directive).sendToServer = false) {op : Operation} (hop : op ∈ d.operations) :
    Selection.servedAll directive op.selections = [] := by
  rw [sendToServer_split, Bool.or_eq_false_iff] at h
  have hop := List.any_eq_false.1 h.2 op hop
  simpa using hop

theorem answers_merge_of_served (directive : String) {d : Document} {op : Operation}
    (hop : op ∈ d.operations) {filled : PathTree}
    (hfilled : (d.split directive).pathTree.Filled filled) (value : Json)
    (hserved : ∀ members ∈ value.objects,
      Selection.AllAnsweredBy (Selection.servedAll directive op.selections)
        (d.split directive).pathTree members) :
    Answers filled op.selections (merge value filled) := by
  have hsorted := sorted_split directive d
  intro members hmembers
  rw [merge, Json.objects_mapObjects] at hmembers
  obtain ⟨before, hbefore, rfl⟩ := List.mem_map.1 hmembers
  exact ⟨PathTree.holds_mergeAllInto (hfilled.nodup_keys hsorted.1) before,
    Selection.allAnsweredBy_mergeAllInto directive op.selections hsorted hfilled
      (fun _ hpath => marks_split directive hop hpath) (hserved before hbefore)⟩

/-- When the server's half of an operation is answered, the merge with the filled path tree
answers the operation as it was written. When nothing is left to ask the server for, the path
tree alone makes an answer. Whatever the server has answered on a path without local fields
stays there, with the values below it merged in.

The server is not asked for the values of local nodes: where its half selects the key of one,
any member will do. An answer that has the right values there is one of those
(`Answers.of_filled`). -/
theorem answers_merge (directive : String) (d : Document) {i : ℕ} {op : Operation}
    (hop : d.operations[i]? = some op) {filled : PathTree}
    (hfilled : (d.split directive).pathTree.Filled filled) :
    ∃ served, (d.split directive).server.operations[i]? = some served ∧
      (∀ value, Answers (d.split directive).pathTree served.selections value →
        Answers filled op.selections (merge value filled)) ∧
      ((d.split directive).sendToServer = false →
        Answers filled op.selections (merge .emptyObject filled)) ∧
      ∀ value path found, ¬ PathTree.Marks filled path → found ∈ Json.reached path value →
        merge found (filled.below path) ∈ Json.reached path (merge value filled) := by
  have hmem := List.mem_of_getElem? hop
  refine ⟨servedOperation directive op, ?_, fun value hvalue => ?_, fun hsend => ?_,
    fun value path found hmarks hfound => ?_⟩
  · rw [operations_split, List.getElem?_map, hop]
    rfl
  · exact answers_merge_of_served directive hmem hfilled value
      fun members hmembers => (hvalue members hmembers).2
  · refine answers_merge_of_served directive hmem hfilled .emptyObject fun members _ => ?_
    rw [servedAll_eq_nil_of_sendToServer hsend hmem]
    trivial
  · exact mem_reached_merge (sorted_split directive d) hfilled hmarks hfound

end Document

/-- A query about users, who have a local field below the others, and a local setting. -/
def Document.ofUsers (fields : SelectionSet) : Document :=
  let flag (name : String) : Selection := .field ⟨none, name, [], [⟨"local", []⟩]⟩ none
  ⟨[⟨.query, none, [], [], [.field (.leaf "users") (some (fields ++ [flag "online"])),
    flag "theme"]⟩], []⟩

/-- The values of the local fields of a query about users. -/
def PathTree.ofUsers (online theme : Json) : PathTree :=
  [("theme", ⟨"theme", some (.resolved theme), []⟩),
    ("users", ⟨"users", none, [("online", ⟨"online", some (.resolved online), []⟩)]⟩)]

/-- The first query leaves the identifiers of a list of users to the server, one of which is
missing, and the second one leaves nothing. -/
theorem Document.answers_merge_users :
    let filled := PathTree.ofUsers (.bool true) (.string "dark")
    let whole := Document.ofUsers [.field (.leaf "id") none]
    let hollow := Document.ofUsers []
    let found : Json := .object [("users",
      .array [.object [("id", .string "1")], .null, .object [("id", .string "2")]])]
    (∃ op served, whole.operations[0]? = some op ∧
      (whole.split "local").server.operations[0]? = some served ∧
      (whole.split "local").pathTree.Filled filled ∧
      Answers (whole.split "local").pathTree served.selections found ∧
      Answers filled op.selections (merge found filled) ∧
      ¬ PathTree.Marks filled ["users", "id"] ∧
      Json.string "2" ∈ Json.reached ["users", "id"] (merge found filled)) ∧
    (∃ op, hollow.operations[0]? = some op ∧ (hollow.split "local").pathTree.Filled filled ∧
      (hollow.split "local").sendToServer = false ∧
      Answers filled op.selections (merge .emptyObject filled)) := by
  intro filled whole hollow found
  have hwhole : (whole.split "local").pathTree.Filled filled :=
    .cons _ (.pending _ _ _) (.cons _ (.inner _ (.cons _ (.pending _ _ _) .nil)) .nil)
  have hhollow : (hollow.split "local").pathTree.Filled filled :=
    .cons _ (.pending _ _ _) (.cons _ (.inner _ (.cons _ (.pending _ _ _) .nil)) .nil)
  obtain ⟨served, hserved, hmerge, -, hkept⟩ := answers_merge "local" whole (i := 0) rfl hwhole
  obtain ⟨-, -, -, hcreated, -⟩ := answers_merge "local" hollow (i := 0) rfl hhollow
  have hmarks : ¬ PathTree.Marks filled ["users", "id"] := by
    simp [filled, PathTree.ofUsers, Table.get?_cons, PathNode.isLocal, PathTree.Marks]
  have hreached : Json.string "2" ∈ Json.reached ["users", "id"] found :=
    List.mem_pair.2 (Or.inr rfl)
  have hfound : Answers (whole.split "local").pathTree served.selections found := by
    cases hserved
    intro members hmembers
    cases List.mem_singleton.1 hmembers
    refine ⟨PathTree.holds_of_unresolved (by decide) _,
      ⟨_, rfl, Or.inr fun inner hinner => ⟨PathTree.holds_of_unresolved (by decide) inner, ?_⟩⟩,
      trivial⟩
    rcases List.mem_pair.1 hinner with rfl | rfl
    · exact ⟨⟨_, rfl⟩, trivial⟩
    · exact ⟨⟨_, rfl⟩, trivial⟩
  exact ⟨⟨_, served, rfl, hserved, hwhole, hfound, hmerge found hfound, hmarks,
    hkept found _ _ hmarks hreached⟩, _, rfl, hhollow, rfl, hcreated rfl⟩

end QueryCache
