import QueryCache.Proofs.Local.Parents
import QueryCache.Proofs.Local.Paths

/-!
# When resolvers succeed

`Resolver.Reaches` says which nodes of a path tree the resolvers get to, and what stands under the
field name of each in the table for its level. Nothing is reached below a local node. A node that
is reached fits its entry or fails (`Resolver.Fits`, `Resolver.Fails`).

The resolvers succeed exactly if every node that they reach fits. If some fail, the failure is that
of the first one in the lexicographic order of paths, which is the depth first order of the keys
(`Resolver.resolveNodes_eq_error_iff`). There is no third outcome and no tree that is filled
in part: `ResolverTable.resolve_all_or_nothing`.
-/

namespace QueryCache

/-! ### Trees with all their values -/

namespace PathTree

mutual

theorem nodePaths_of_filled :
    ∀ {node filled : PathNode}, NodeFilled node filled → nodePaths filled = nodePaths node
  | _, _, .pending _ _ _ => rfl
  | _, _, .resolved _ _ _ => rfl
  | _, _, .inner _ hchildren => localPaths_of_filled hchildren

/-- The local nodes of a tree stay where they are when they are given values. -/
theorem localPaths_of_filled :
    ∀ {tree filled : PathTree}, Filled tree filled → localPaths filled = localPaths tree
  | _, _, .nil => rfl
  | _, _, .cons _ hnode hrest => by
      rw [localPaths, localPaths, nodePaths_of_filled hnode, localPaths_of_filled hrest]

end

mutual

theorem nodeHasPending_of_filled :
    ∀ {node filled : PathNode}, NodeFilled node filled → nodeHasPending filled = false
  | _, _, .pending _ _ _ => rfl
  | _, _, .resolved _ _ _ => rfl
  | _, _, .inner _ hchildren => hasPending_of_filled hchildren

/-- In a filled tree nothing is pending. -/
theorem hasPending_of_filled :
    ∀ {tree filled : PathTree}, Filled tree filled → hasPending filled = false
  | _, _, .nil => rfl
  | _, _, .cons _ hnode hrest => by
      rw [hasPending, nodeHasPending_of_filled hnode, hasPending_of_filled hrest]
      rfl

end

end PathTree

namespace Resolver

/-- The resolvers get to the node at the end of the path: all nodes above it are unmarked, and
there is a table for each of them. The last argument is what stands under the field name of the
node. -/
inductive Reaches : PathTree → List (String × Resolver) → List String → PathNode →
    Option Resolver → Prop
  | here {tree : PathTree} {entries : List (String × Resolver)} {key : String} {node : PathNode}
      (hnode : Table.get? tree key = some node) :
      Reaches tree entries [key] node (Table.get? entries node.fieldName)
  | inside {tree children : PathTree} {entries inner : List (String × Resolver)}
      {key fieldName : String} {rest : List String} {node : PathNode} {entry : Option Resolver}
      (hnode : Table.get? tree key = some ⟨fieldName, none, children⟩)
      (htable : Table.get? entries fieldName = some (table inner))
      (hrest : Reaches children inner rest node entry) :
      Reaches tree entries (key :: rest) node entry

/-- The value of the server that holds the field at the end of a path, if there is one. -/
def parentAt (server : Option Json) (path : List String) : Option Json :=
  server.bind fun value => value.at? path.dropLast

/-- The entry is the one that the node needs, and a function gives a value. A node that has a value
needs no entry. -/
inductive Fits (vars : Variables) (path : List String) (parent : Option Json) :
    PathNode → Option Resolver → Prop
  | resolved (fieldName : String) (value : Json) (children : PathTree) (entry : Option Resolver) :
      Fits vars path parent ⟨fieldName, some (.resolved value), children⟩ entry
  | pending {fieldName : String} {resolve : ResolverArgs → Except Failure Json} {value : Json}
      (hvalue : resolve ⟨path, fieldName, parent, vars⟩ = .ok value) (children : PathTree) :
      Fits vars path parent ⟨fieldName, some .pending, children⟩ (some (leaf resolve))
  | inner (fieldName : String) (children : PathTree) (entries : List (String × Resolver)) :
      Fits vars path parent ⟨fieldName, none, children⟩ (some (table entries))

/-- The node stops the resolvers with a failure: the one of its function, or one that names the
path when a function or a table is missing. -/
inductive Fails (vars : Variables) (path : List String) (parent : Option Json) :
    PathNode → Option Resolver → Failure → Prop
  | refused {fieldName : String} {resolve : ResolverArgs → Except Failure Json}
      {failure : Failure} (hfailure : resolve ⟨path, fieldName, parent, vars⟩ = .error failure)
      (children : PathTree) :
      Fails vars path parent ⟨fieldName, some .pending, children⟩ (some (leaf resolve)) failure
  | noFunction (fieldName : String) (children : PathTree) {entry : Option Resolver}
      (hentry : ∀ resolve, entry ≠ some (leaf resolve)) :
      Fails vars path parent ⟨fieldName, some .pending, children⟩ entry (missing path)
  | noTable (fieldName : String) (children : PathTree) {entry : Option Resolver}
      (hentry : ∀ entries, entry ≠ some (table entries)) :
      Fails vars path parent ⟨fieldName, none, children⟩ entry (missing path)

variable {vars : Variables} {path : List String} {parent : Option Json} {node : PathNode}
  {entry : Option Resolver} {tree filled : PathTree} {entries : List (String × Resolver)}

theorem Fits.not_fails (h : Fits vars path parent node entry) (failure : Failure) :
    ¬ Fails vars path parent node entry failure := by
  intro hfails
  cases h with
  | resolved => cases hfails
  | pending hvalue =>
      cases hfails with
      | refused hfailure => cases hvalue.symm.trans hfailure
      | noFunction _ _ hentry => exact hentry _ rfl
  | inner =>
      cases hfails with
      | noTable _ _ hentry => exact hentry _ rfl

theorem Fails.unique {failure other : Failure} (h : Fails vars path parent node entry failure)
    (hother : Fails vars path parent node entry other) : failure = other := by
  cases h with
  | refused hfailure =>
      cases hother with
      | refused hother => exact Except.error.inj (hfailure.symm.trans hother)
      | noFunction _ _ hentry => exact absurd rfl (hentry _)
  | noFunction _ _ hentry =>
      cases hother with
      | refused => exact absurd rfl (hentry _)
      | noFunction => rfl
  | noTable =>
      cases hother with
      | noTable => rfl

theorem Reaches.ne_nil {keys : List String} (h : Reaches tree entries keys node entry) :
    keys ≠ [] := by
  cases h <;> exact List.cons_ne_nil _ _

/-- There is one node at the end of a path. -/
theorem Reaches.unique {keys : List String} (h : Reaches tree entries keys node entry)
    {other : PathNode} {otherEntry : Option Resolver}
    (hother : Reaches tree entries keys other otherEntry) : node = other ∧ entry = otherEntry := by
  induction h with
  | here hnode =>
      cases hother with
      | here hother =>
          cases hnode.symm.trans hother
          exact ⟨rfl, rfl⟩
      | inside _ _ hrest => exact absurd rfl hrest.ne_nil
  | inside hnode htable hrest ih =>
      cases hother with
      | here => exact absurd rfl hrest.ne_nil
      | inside hother hother' hrest' =>
          cases hnode.symm.trans hother
          cases htable.symm.trans hother'
          exact ih hrest'

theorem parentAt_singleton (parent : Option Json) (key : String) :
    parentAt parent [key] = parent := by
  cases parent <;> simp [parentAt]

theorem parentAt_cons (parent : Option Json) (key : String) {rest : List String}
    (h : rest ≠ []) :
    parentAt parent (key :: rest) =
      parentAt (parent.bind fun value => value.member? key) rest := by
  rw [parentAt, parentAt, List.dropLast_cons_of_ne_nil h]
  cases parent with
  | none => rfl
  | some value => exact Json.at?_cons value key rest.dropLast

/-! ### Success -/

theorem fits_of_resolveNode {key : String} {resolved : PathNode}
    (h : resolveNode vars node key entry parent path = .ok resolved) :
    Fits vars path parent node entry := by
  obtain ⟨fieldName, _ | (_ | value), children⟩ := node
  · rcases entry with _ | (resolve | entries)
    · cases h
    · cases h
    · exact .inner fieldName children entries
  · rcases entry with _ | (resolve | entries)
    · cases h
    · rw [resolveNode] at h
      obtain ⟨value, hvalue, -⟩ := exists_of_bind_eq_ok h
      exact .pending hvalue children
    · cases h
  · exact .resolved fieldName value children entry

/-- Resolvers that succeed have resolved every node that they reached, and it stands in the tree
where it stood before. -/
theorem Reaches.exists_resolved {keys : List String}
    (hreaches : Reaches tree entries keys node entry)
    (h : resolveNodes vars tree entries parent path = .ok filled) :
    ∃ key resolved, resolveNode vars node key entry (parentAt parent keys) (path ++ keys) =
      .ok resolved ∧ PathTree.nodeAt? filled keys = some resolved := by
  induction hreaches generalizing parent path filled with
  | @here _ _ key _ hnode =>
      obtain ⟨resolved, hresolved, hfilled⟩ := get?_resolveNodes h hnode
      rw [parentAt_singleton]
      exact ⟨key, resolved, hresolved, hfilled⟩
  | inside hnode htable hrest ih =>
      obtain ⟨resolved, hresolved, hfilled⟩ := get?_resolveNodes h hnode
      rw [htable, resolveNode] at hresolved
      obtain ⟨others, hothers, hnext⟩ := exists_of_bind_eq_ok hresolved
      cases hnext
      obtain ⟨key, found, hfound, hat⟩ := ih hothers
      refine ⟨key, found, ?_, ?_⟩
      · rw [parentAt_cons parent _ hrest.ne_nil, List.append_cons]
        exact hfound
      · rw [PathTree.nodeAt?_cons _ _ hrest.ne_nil, hfilled]
        exact hat

theorem Reaches.fits {keys : List String} (hreaches : Reaches tree entries keys node entry)
    (h : resolveNodes vars tree entries parent path = .ok filled) :
    Fits vars (path ++ keys) (parentAt parent keys) node entry := by
  obtain ⟨key, resolved, hresolved, -⟩ := hreaches.exists_resolved h
  exact fits_of_resolveNode hresolved

/-- Resolvers that succeed have reached every local node that no other one stands above. -/
theorem exists_reaches_of_mem_localPaths (hsorted : tree.Sorted)
    (h : resolveNodes vars tree entries parent path = .ok filled) {keys : List String}
    (hkeys : keys ∈ PathTree.localPaths tree) (hnode : tree.nodeAt? keys = some node) :
    ∃ entry, Reaches tree entries keys node entry := by
  induction keys generalizing tree entries parent path filled with
  | nil => cases hnode
  | cons key rest ih =>
      rcases PathTree.cases_of_mem_localPaths hsorted.1 hkeys with
        ⟨rfl, _, _, _, hget⟩ | ⟨fieldName, children, hget, hbelow⟩
      · cases hget.symm.trans hnode
        exact ⟨_, .here hget⟩
      · rw [PathTree.nodeAt?_cons _ _ (PathTree.ne_nil_of_mem_localPaths hbelow), hget] at hnode
        obtain ⟨resolved, hresolved, -⟩ := get?_resolveNodes h hget
        rcases hentry : Table.get? entries fieldName with _ | (resolve | inner)
        · rw [hentry] at hresolved
          cases hresolved
        · rw [hentry] at hresolved
          cases hresolved
        · rw [hentry, resolveNode] at hresolved
          obtain ⟨others, hothers, -⟩ := exists_of_bind_eq_ok hresolved
          obtain ⟨entry, hreaches⟩ := ih (hsorted.node hget) hothers hbelow hnode
          exact ⟨entry, .inside hget hentry hreaches⟩

/-! ### Failure -/

/-- Some node fails in this way, and none fails that stands before it in the order of paths. -/
def FailsFirst (vars : Variables) (tree : PathTree) (entries : List (String × Resolver))
    (parent : Option Json) (path : List String) (failure : Failure) : Prop :=
  ∃ keys node entry, Reaches tree entries keys node entry ∧
    Fails vars (path ++ keys) (parentAt parent keys) node entry failure ∧
    ∀ other node entry failure, Reaches tree entries other node entry →
      Fails vars (path ++ other) (parentAt parent other) node entry failure → ¬ other < keys

/-- What is reached on a path depends on the first node of the path only. -/
theorem Reaches.congr {key : String} {rest : List String}
    (h : Reaches tree entries (key :: rest) node entry) {other : PathTree}
    (hother : Table.get? other key = Table.get? tree key) :
    Reaches other entries (key :: rest) node entry := by
  cases h with
  | here hnode => exact .here (hother.trans hnode)
  | inside hnode htable hrest => exact .inside (hother.trans hnode) htable hrest

theorem Reaches.mem_keys {key : String} {rest : List String}
    (h : Reaches tree entries (key :: rest) node entry) : key ∈ Table.keys tree := by
  cases h with
  | here hnode => exact Table.mem_keys_iff.2 ⟨_, hnode⟩
  | inside hnode _ _ => exact Table.mem_keys_iff.2 ⟨_, hnode⟩

/-- A path that is reached in a tree begins with the first key of the tree, or with a greater
one, and then it is reached in the rest of the tree. -/
theorem Reaches.of_cons {key : String} {first : PathNode} {rest : PathTree}
    (hsorted : Table.Sorted ((key, first) :: rest)) {keys : List String}
    (h : Reaches ((key, first) :: rest) entries keys node entry) :
    (Reaches [(key, first)] entries keys node entry ∧ ∃ more, keys = key :: more) ∨
      (Reaches rest entries keys node entry ∧
        ∃ other more, keys = other :: more ∧ key < other) := by
  obtain ⟨other, more, rfl⟩ := List.exists_cons_of_ne_nil h.ne_nil
  by_cases heq : other = key
  · subst other
    refine Or.inl ⟨h.congr ?_, more, rfl⟩
    rw [Table.get?_cons, Table.get?_cons, if_pos rfl, if_pos rfl]
  · have hmem := (List.mem_cons.1 h.mem_keys).resolve_left heq
    obtain ⟨⟨_, found⟩, hfound, rfl⟩ := List.mem_map.1 hmem
    refine Or.inr ⟨h.congr ?_, _, more, rfl, List.rel_of_pairwise_cons hsorted hfound⟩
    rw [Table.get?_cons, if_neg heq]

theorem not_cons_lt_cons_of_lt {key later : String} (h : key < later) {more rest : List String} :
    ¬ later :: more < key :: rest := by
  rw [List.cons_lt_cons_iff]
  rintro (hlt | ⟨rfl, -⟩)
  · exact Std.Asymm.asymm _ _ h hlt
  · exact Std.Irrefl.irrefl _ h

section FirstNode

variable {key fieldName : String} {rest children : PathTree} {inner : List (String × Resolver)}
  {failure : Failure}

/-- If the first node of a tree fails, no other one fails before it. -/
theorem failsFirst_of_fails (hsorted : Table.Sorted ((key, node) :: rest))
    (h : Fails vars (path ++ [key]) parent node (Table.get? entries node.fieldName) failure) :
    FailsFirst vars ((key, node) :: rest) entries parent path failure := by
  refine ⟨[key], node, _, .here (if_pos rfl), by rwa [parentAt_singleton], ?_⟩
  intro other found entry failure hother _
  rcases hother.of_cons hsorted with ⟨-, more, rfl⟩ | ⟨-, later, more, rfl, hlt⟩
  · exact List.cons_lt_cons_self.not.2 (List.not_lt_nil more)
  · exact not_cons_lt_cons_of_lt hlt

/-- If the first node has a table, what fails first below it fails first in the tree. -/
theorem FailsFirst.inside
    (h : FailsFirst vars children inner (parent.bind fun value => value.member? key)
      (path ++ [key]) failure)
    (hsorted : Table.Sorted ((key, ⟨fieldName, none, children⟩) :: rest))
    (htable : Table.get? entries fieldName = some (table inner)) :
    FailsFirst vars ((key, ⟨fieldName, none, children⟩) :: rest) entries parent path failure := by
  obtain ⟨keys, found, entry, hreaches, hfails, hleast⟩ := h
  refine ⟨key :: keys, found, entry, .inside (if_pos rfl) htable hreaches, ?_, ?_⟩
  · rw [parentAt_cons parent key hreaches.ne_nil, List.append_cons]
    exact hfails
  · intro other node entry failure hother hfails
    rcases hother.of_cons hsorted with ⟨hother, more, rfl⟩ | ⟨-, later, more, rfl, hlt⟩
    · cases hother with
      | here hnode =>
          -- There is a table for the first node, so that it fits itself.
          cases hnode.symm.trans (if_pos rfl)
          rw [htable] at hfails
          exact absurd hfails ((Fits.inner fieldName children inner).not_fails _)
      | inside hnode htable' hrest =>
          cases hnode.symm.trans (if_pos rfl)
          cases htable.symm.trans htable'
          rw [parentAt_cons parent key hrest.ne_nil, List.append_cons] at hfails
          exact List.cons_lt_cons_self.not.2 (hleast more node entry failure hrest hfails)
    · exact not_cons_lt_cons_of_lt hlt

/-- If the first node is resolved, what fails first in the rest fails first in the tree. -/
theorem FailsFirst.later {resolved : PathNode}
    (h : FailsFirst vars rest entries parent path failure)
    (hsorted : Table.Sorted ((key, node) :: rest))
    (hfirst : resolveNode vars node key (Table.get? entries node.fieldName) parent
      (path ++ [key]) = .ok resolved) :
    FailsFirst vars ((key, node) :: rest) entries parent path failure := by
  have hone : resolveNodes vars [(key, node)] entries parent path = .ok [(key, resolved)] := by
    rw [resolveNodes, hfirst]
    rfl
  obtain ⟨keys, found, entry, hreaches, hfails, hleast⟩ := h
  refine ⟨keys, found, entry, ?_, hfails, ?_⟩
  · obtain ⟨next, more, rfl⟩ := List.exists_cons_of_ne_nil hreaches.ne_nil
    refine hreaches.congr ((Table.get?_cons _ _ _ _).trans (if_neg ?_))
    rintro rfl
    exact (List.nodup_cons.1 (Table.nodup_keys_of_sorted hsorted)).1 hreaches.mem_keys
  · intro other node entry failure hother hfails
    rcases hother.of_cons hsorted with ⟨hother, -⟩ | ⟨hother, -⟩
    · exact absurd hfails ((hother.fits hone).not_fails _)
    · exact hleast other node entry failure hother hfails

end FirstNode

mutual

/-- A node that stops the resolvers fails itself, or some node below it fails first. -/
theorem fails_of_resolveNode :
    ∀ (node : PathNode) {key : String} {entry : Option Resolver} {parent : Option Json}
      {path : List String} {failure : Failure}, PathTree.NodeSorted node →
      resolveNode vars node key entry parent path = .error failure →
        Fails vars path parent node entry failure ∨
          ∃ fieldName children inner, node = ⟨fieldName, none, children⟩ ∧
            entry = some (table inner) ∧
            FailsFirst vars children inner (parent.bind fun value => value.member? key) path failure
  | ⟨fieldName, some (.resolved _), children⟩, key, entry, parent, path, failure, _, h => by
      cases h
  | ⟨fieldName, some .pending, children⟩, key, none, parent, path, failure, _, h => by
      cases h
      exact Or.inl (.noFunction fieldName children fun _ heq => by cases heq)
  | ⟨fieldName, some .pending, children⟩, key, some (table _), parent, path, failure, _, h => by
      cases h
      exact Or.inl (.noFunction fieldName children fun _ heq => by cases heq)
  | ⟨fieldName, some .pending, children⟩, key, some (leaf resolve), parent, path, failure, _,
      h => by
      rw [resolveNode] at h
      rcases of_bind_eq_error h with hfailure | ⟨_, -, hnext⟩
      · exact Or.inl (.refused hfailure children)
      · cases hnext
  | ⟨fieldName, none, children⟩, key, none, parent, path, failure, _, h => by
      cases h
      exact Or.inl (.noTable fieldName children fun _ heq => by cases heq)
  | ⟨fieldName, none, children⟩, key, some (leaf _), parent, path, failure, _, h => by
      cases h
      exact Or.inl (.noTable fieldName children fun _ heq => by cases heq)
  | ⟨fieldName, none, children⟩, key, some (table inner), parent, path, failure, hsorted, h => by
      rw [resolveNode] at h
      rcases of_bind_eq_error h with hfailure | ⟨_, -, hnext⟩
      · exact Or.inr ⟨fieldName, children, inner, rfl, rfl,
          failsFirst_of_resolveNodes children hsorted hfailure⟩
      · cases hnext
termination_by structural node => node

/-- Resolvers that fail have met the first node that fails. -/
theorem failsFirst_of_resolveNodes :
    ∀ (tree : List (String × PathNode)) {entries : List (String × Resolver)}
      {parent : Option Json} {path : List String} {failure : Failure}, PathTree.Sorted tree →
      resolveNodes vars tree entries parent path = .error failure →
        FailsFirst vars tree entries parent path failure
  | [], entries, parent, path, failure, _, h => by cases h
  | (key, node) :: rest, entries, parent, path, failure, ⟨hsorted, hnode, hbelow⟩, h => by
      rw [resolveNodes] at h
      rcases of_bind_eq_error h with hfirst | ⟨resolved, hresolved, hnext⟩
      · rcases fails_of_resolveNode node hnode hfirst with
          hfails | ⟨fieldName, children, inner, rfl, htable, hbelow⟩
        · exact failsFirst_of_fails hsorted hfails
        · exact hbelow.inside hsorted htable
      · rcases of_bind_eq_error hnext with hothers | ⟨_, -, hreturn⟩
        · exact (failsFirst_of_resolveNodes rest ⟨hsorted.tail, hbelow⟩ hothers).later hsorted
            hresolved
        · cases hreturn
termination_by structural tree => tree

end

theorem FailsFirst.not_ok {failure : Failure} (h : FailsFirst vars tree entries parent path failure)
    (filled : PathTree) : resolveNodes vars tree entries parent path ≠ .ok filled := by
  obtain ⟨keys, node, entry, hreaches, hfails, -⟩ := h
  exact fun hok => (hreaches.fits hok).not_fails failure hfails

/-- There is one first failure. -/
theorem FailsFirst.unique {failure other : Failure}
    (h : FailsFirst vars tree entries parent path failure)
    (hother : FailsFirst vars tree entries parent path other) : failure = other := by
  obtain ⟨keys, node, entry, hreaches, hfails, hleast⟩ := h
  obtain ⟨keys', node', entry', hreaches', hfails', hleast'⟩ := hother
  have heq : keys = keys' := Std.Trichotomous.trichotomous (r := (· < ·)) _ _
    (hleast' _ _ _ _ hreaches hfails) (hleast _ _ _ _ hreaches' hfails')
  subst keys'
  obtain ⟨rfl, rfl⟩ := hreaches.unique hreaches'
  exact hfails.unique hfails'

theorem resolveNodes_eq_error_iff (hsorted : tree.Sorted) {failure : Failure} :
    resolveNodes vars tree entries parent path = .error failure ↔
      FailsFirst vars tree entries parent path failure := by
  refine ⟨failsFirst_of_resolveNodes tree hsorted, fun h => ?_⟩
  cases hresolve : resolveNodes vars tree entries parent path with
  | ok filled => exact absurd hresolve (h.not_ok filled)
  | error other => rw [(failsFirst_of_resolveNodes tree hsorted hresolve).unique h]

theorem exists_resolveNodes_eq_ok_iff (hsorted : tree.Sorted) :
    (∃ filled, resolveNodes vars tree entries parent path = .ok filled) ↔
      ∀ keys node entry, Reaches tree entries keys node entry →
        Fits vars (path ++ keys) (parentAt parent keys) node entry := by
  refine ⟨fun ⟨filled, hok⟩ keys node entry hreaches => hreaches.fits hok, fun hfits => ?_⟩
  cases hresolve : resolveNodes vars tree entries parent path with
  | ok filled => exact ⟨filled, rfl⟩
  | error failure =>
      obtain ⟨keys, node, entry, hreaches, hfails, -⟩ :=
        failsFirst_of_resolveNodes tree hsorted hresolve
      exact absurd hfails ((hfits keys node entry hreaches).not_fails failure)

/-- A pending node that no local node stands above holds what its function gave. -/
theorem exists_value_of_pending (hsorted : tree.Sorted)
    (h : resolveNodes vars tree entries parent path = .ok filled) {keys : List String}
    (hkeys : keys ∈ PathTree.localPaths tree) {fieldName : String} {children : PathTree}
    (hnode : tree.nodeAt? keys = some ⟨fieldName, some .pending, children⟩) :
    ∃ resolve value, Reaches tree entries keys ⟨fieldName, some .pending, children⟩
        (some (leaf resolve)) ∧
      resolve ⟨path ++ keys, fieldName, parentAt parent keys, vars⟩ = .ok value ∧
      filled.nodeAt? keys = some ⟨fieldName, some (.resolved value), children⟩ := by
  obtain ⟨entry, hreaches⟩ := exists_reaches_of_mem_localPaths hsorted h hkeys hnode
  obtain ⟨key, resolved, hresolved, hfilled⟩ := hreaches.exists_resolved h
  rcases entry with _ | (resolve | inner)
  · cases hresolved
  · rw [resolveNode] at hresolved
    obtain ⟨value, hvalue, hnext⟩ := exists_of_bind_eq_ok hresolved
    cases hnext
    exact ⟨resolve, value, hreaches, hvalue, hfilled⟩
  · cases hresolved

end Resolver

open Resolver (Reaches Fits FailsFirst parentAt)

/-- Resolvers succeed exactly if every node that they reach fits. Then the tree has a value at
every node where one was pending, which is the one that the function of the node gave for its path,
and all else is as it was. Otherwise they fail as the first of the nodes does that do not fit. -/
theorem ResolverTable.resolve_all_or_nothing (table : ResolverTable) {tree : PathTree}
    (hsorted : tree.Sorted) (server : Option Json) (vars : Variables) :
    ((∃ filled, table.resolve tree server vars = .ok filled) ↔
        ∀ path node entry, Reaches tree table path node entry →
          Fits vars path (parentAt server path) node entry) ∧
      (∀ filled, table.resolve tree server vars = .ok filled →
        tree.Filled filled ∧ PathTree.localPaths filled = PathTree.localPaths tree ∧
          PathTree.hasPending filled = false ∧
          ∀ path ∈ PathTree.localPaths tree, ∀ fieldName children,
            tree.nodeAt? path = some ⟨fieldName, some .pending, children⟩ →
              ∃ resolve value, Reaches tree table path ⟨fieldName, some .pending, children⟩
                  (some (.leaf resolve)) ∧
                resolve ⟨path, fieldName, parentAt server path, vars⟩ = .ok value ∧
                filled.nodeAt? path = some ⟨fieldName, some (.resolved value), children⟩) ∧
      ∀ failure, table.resolve tree server vars = .error failure ↔
        FailsFirst vars tree table server [] failure := by
  refine ⟨Resolver.exists_resolveNodes_eq_ok_iff hsorted, fun filled hok => ?_,
    fun failure => Resolver.resolveNodes_eq_error_iff hsorted⟩
  have hfilled := ResolverTable.filled_resolve hok
  exact ⟨hfilled, PathTree.localPaths_of_filled hfilled, PathTree.hasPending_of_filled hfilled,
    fun path hpath fieldName children => Resolver.exists_value_of_pending hsorted hok hpath⟩

/-- A user with a mood and a rank under other keys, beside a theme that is known already, so that
nothing below it counts. -/
def PathTree.ofRanks (mood rank : Mark) : PathTree :=
  [("me", ⟨"user", none, [("m", ⟨"mood", some mood, []⟩), ("r", ⟨"rank", some rank, []⟩)]⟩),
    ("theme", ⟨"theme", some (.resolved .null), [("dark", .pending "dark")]⟩)]

theorem PathTree.sorted_ofRanks (mood rank : Mark) : (ofRanks mood rank).Sorted := by
  have houter : "me" < "theme" := by decide
  have hinner : "m" < "r" := by decide
  refine ⟨List.pairwise_pair.2 houter, ⟨List.pairwise_pair.2 hinner, ?_⟩, ?_⟩
  · exact ⟨sorted_nil, sorted_nil, trivial⟩
  · exact ⟨⟨List.pairwise_singleton _ _, sorted_nil, trivial⟩, trivial⟩

/-- With a function for the mood and another one for the rank, which give the paths that they are
called with, the tree is filled. Without the second one it is not, though the first one is. -/
theorem ResolverTable.resolve_all_or_nothing_ranks :
    let gives (name : String) : String × Resolver :=
      (name, .leaf fun args => .ok (.array (args.path.map .string)))
    let whole : ResolverTable := [("user", .table [gives "mood", gives "rank"])]
    let part : ResolverTable := [("user", .table [gives "mood"])]
    let tree := PathTree.ofRanks .pending .pending
    let filled := PathTree.ofRanks (.resolved (.array [.string "me", .string "m"]))
      (.resolved (.array [.string "me", .string "r"]))
    tree.Sorted ∧ whole.resolve tree none [] = .ok filled ∧
      (∀ path node entry, Reaches tree whole path node entry →
        Fits [] path (parentAt none path) node entry) ∧
      tree.Filled filled ∧ PathTree.hasPending filled = false ∧
      FailsFirst [] tree part none [] (.resolver "No resolver registered for 'me.r'") := by
  intro gives whole part tree filled
  have hsorted : tree.Sorted := PathTree.sorted_ofRanks .pending .pending
  have hwhole : whole.resolve tree none [] = .ok filled := rfl
  have hpart : part.resolve tree none [] =
      .error (.resolver "No resolver registered for 'me.r'") := rfl
  obtain ⟨hok, hfilled, -⟩ := resolve_all_or_nothing whole hsorted none []
  obtain ⟨-, -, herror⟩ := resolve_all_or_nothing part hsorted none []
  obtain ⟨hfills, -, hpending, -⟩ := hfilled filled hwhole
  exact ⟨hsorted, hwhole, hok.1 ⟨filled, hwhole⟩, hfills, hpending, (herror _).1 hpart⟩

end QueryCache
