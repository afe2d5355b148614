import QueryCache.Proofs.Store.Lifecycle

/-!
# Handles and receivers

A handle is the number of a cell. The cache writes to the cell as long as the index leads
from the query to it, and whoever holds the handle writes to it at any time.
`Store.Owned` says which query has the cell, if any: the one that the handle was obtained
for, until this one is evicted. From this follows for every act what it leaves in the cell
and whether it counts as a write (`WatchedCache.cellOf_step`), and from these what a handle
and the receivers of its cell see after any acts (`WatchedCache.follows_stepAll`).
-/

namespace QueryCache

/-! ### The query that has a cell -/

namespace Store

/-- The cell exists, and it is the cell of its owner and of no other query. -/
structure Owned (owner : Option QueryKey) (id : CellId) (store : Store) : Prop where
  valid : id.index < store.cells.length
  index : ∀ key, store.cell? key = some id ↔ owner = some key

variable {store : Store} {owner : Option QueryKey} {id : CellId}

theorem Indexed.owned (h : store.Indexed) {key : QueryKey} (hkey : store.cell? key = some id) :
    store.Owned (some key) id where
  valid := h.valid hkey
  index other := by
    constructor
    · intro hother
      rw [h.distinct hkey hother]
    · intro heq
      cases heq
      exact hkey

theorem cellOf_updateCell_self (hvalid : id.index < store.cells.length)
    (change : QueryState → QueryState) :
    (store.updateCell id change).cellOf id =
      ⟨change (store.stateOf id), (store.cellOf id).version + 1⟩ := by
  simp [updateCell, stateOf, cellOf, hvalid]

namespace Owned

/-- A new cell is never the one that is watched. -/
theorem fst_cell_iff (h : store.Owned owner id) (key : QueryKey) :
    (store.cell key).1 = id ↔ owner = some key := by
  rw [← h.index key]
  cases hkey : store.cell? key with
  | some found => rw [cell_of_some hkey, Option.some_inj]
  | none =>
      rw [cell_of_none hkey]
      refine ⟨fun heq => ?_, fun heq => by cases heq⟩
      exact absurd h.valid (heq ▸ Nat.lt_irrefl _)

theorem cell (h : store.Owned owner id) (key : QueryKey) :
    (store.cell key).2.Owned owner id where
  valid := by
    cases hkey : store.cell? key with
    | some found =>
        rw [cell_of_some hkey]
        exact h.valid
    | none =>
        rw [cell_of_none hkey]
        exact Nat.lt_of_lt_of_le h.valid (List.length_append ▸ Nat.le_add_right _ _)
  index other := by
    rw [cell?_cell]
    split
    · subst other
      rw [Option.some_inj, h.fst_cell_iff]
    · exact h.index other

theorem updateCell (h : store.Owned owner id) (other : CellId)
    (change : QueryState → QueryState) : (store.updateCell other change).Owned owner id where
  valid := by
    rw [Store.updateCell, List.length_modify]
    exact h.valid
  index := h.index

theorem cellOf_updateCell (h : store.Owned owner id) (other : CellId)
    (change : QueryState → QueryState) :
    (store.updateCell other change).cellOf id =
      if other = id then ⟨change (store.stateOf id), (store.cellOf id).version + 1⟩
      else store.cellOf id := by
  split
  · subst other
    exact cellOf_updateCell_self h.valid change
  · exact cellOf_updateCell_of_ne store ‹_› change

theorem writeState (h : store.Owned owner id) (key : QueryKey) (state : QueryState) :
    (store.writeState key state).Owned owner id :=
  (h.cell key).updateCell (store.cell key).1 fun _ => state

theorem cellOf_writeState (h : store.Owned owner id) (key : QueryKey) (state : QueryState) :
    (store.writeState key state).cellOf id =
      if owner = some key then ⟨state, (store.cellOf id).version + 1⟩ else store.cellOf id := by
  refine ((h.cell key).cellOf_updateCell _ _).trans ?_
  rw [cellOf_cell]
  exact if_congr (h.fst_cell_iff key) rfl rfl

theorem reconcile (h : store.Owned owner id) (origin : Option QueryKey)
    (entities : Snapshots) : (store.reconcile origin entities).2.Owned owner id :=
  ⟨h.valid, h.index⟩

theorem addDependent (h : store.Owned owner id) (key : QueryKey) (names : List EntityKey) :
    (store.addDependent key names).Owned owner id :=
  ⟨h.valid, h.index⟩

theorem write (h : store.Owned owner id) (key : QueryKey) (state : QueryState)
    (entities : Snapshots) : (store.write key state entities).2.Owned owner id := by
  cases hdata : state.data with
  | none =>
      rw [write_of_none hdata]
      exact h.writeState key state
  | some data =>
      rw [write_of_some hdata]
      exact ((h.addDependent key _).reconcile (some key) entities).writeState key state

theorem cellOf_write (h : store.Owned owner id) (key : QueryKey) (state : QueryState)
    (entities : Snapshots) :
    (store.write key state entities).2.cellOf id =
      if owner = some key then ⟨state, (store.cellOf id).version + 1⟩ else store.cellOf id := by
  cases hdata : state.data with
  | none =>
      rw [write_of_none hdata]
      exact h.cellOf_writeState key state
  | some data =>
      rw [write_of_some hdata]
      exact ((h.addDependent key _).reconcile (some key) entities).cellOf_writeState key state

/-- Once its owner is evicted, the cell belongs to no query. -/
theorem evict (h : store.Owned owner id) (key : QueryKey) :
    (store.evict key).2.Owned (owner.filter (· ≠ key)) id where
  valid := h.valid
  index other := by
    rw [cell?_evict, Option.filter_eq_some_iff]
    split
    · subst other
      simp
    · simpa [‹other ≠ key›] using h.index other

end Owned

theorem Indexed.write (h : store.Indexed) (key : QueryKey) (state : QueryState)
    (entities : Snapshots) : (store.write key state entities).2.Indexed := by
  cases hdata : state.data with
  | none =>
      rw [write_of_none hdata]
      exact h.writeState key state
  | some data =>
      rw [write_of_some hdata]
      exact (indexed_reconcile h key _ (some key) entities).writeState key state

end Store

/-! ### A cache that is watched -/

/-- A cache, the cells that handles hold, and the receivers that were given out. -/
structure WatchedCache where
  cache : Cache
  handles : List CellId
  receivers : List Subscription

/-- What is done with a cache, its handles and its receivers. -/
inductive CacheAct where
  /-- The cache is called, or the state in a cell is changed through a handle. -/
  | call (call : CacheCall)
  /-- The cell of a query is asked for, and a handle to it is kept. -/
  | hold (key : QueryKey)
  /-- If the query has a cell, a handle to it is kept. -/
  | holdCached (key : QueryKey)
  | drop (id : CellId)
  | subscribe (id : CellId)
  /-- A receiver looks at its cell. Receivers are counted as they were given out. -/
  | poll (receiver : Nat)

namespace CacheAct

/-- The query that has a cell after an act. An eviction takes the cell from its query. -/
def ownerAfter (owner : Option QueryKey) : CacheAct → Option QueryKey
  | call (.evict key) => owner.filter (· ≠ key)
  | _ => owner

/-- The query that has a cell after some acts. -/
def ownerAfterAll (owner : Option QueryKey) (acts : List CacheAct) : Option QueryKey :=
  acts.foldl ownerAfter owner

/-- The state that the act leaves in a cell. A write through the cache arrives in it if
the cell has this owner, a change through a handle in any case. -/
def leaves (owner : Option QueryKey) (id : CellId) (state : QueryState) : CacheAct → QueryState
  | call (.write key new _) => if owner = some key then new else state
  | call (.update other change) => if other = id then change state else state
  | _ => state

/-- The act writes to the cell, be it the same state again. -/
def writes (owner : Option QueryKey) (id : CellId) : CacheAct → Bool
  | call (.write key _ _) => owner = some key
  | call (.update other _) => other = id
  | _ => false

theorem ownerAfterAll_append_singleton (owner : Option QueryKey) (acts : List CacheAct)
    (last : CacheAct) :
    ownerAfterAll owner (acts ++ [last]) = last.ownerAfter (ownerAfterAll owner acts) :=
  List.foldl_append

/-- A cell that belongs to no query stays so. -/
theorem ownerAfter_none (act : CacheAct) : act.ownerAfter none = none := by
  cases act with
  | call call => cases call <;> rfl
  | _ => rfl

theorem ownerAfter_of_ne {key : QueryKey} {act : CacheAct} (h : act ≠ .call (.evict key)) :
    act.ownerAfter (some key) = some key := by
  cases act with
  | call call =>
      cases call with
      | evict other =>
          have hne : key ≠ other := fun heq => h (heq ▸ rfl)
          simp [ownerAfter, Option.filter, hne]
      | _ => rfl
  | _ => rfl

theorem ownerAfterAll_of_kept {owner : Option QueryKey} {acts : List CacheAct}
    (h : ∀ act ∈ acts, act.ownerAfter owner = owner) : ownerAfterAll owner acts = owner := by
  induction acts with
  | nil => rfl
  | cons act rest ih =>
      obtain ⟨hfirst, hrest⟩ := List.forall_mem_cons.1 h
      rw [ownerAfterAll, List.foldl_cons, hfirst]
      exact ih hrest

/-- A cell that belongs to a query goes to no other one. -/
theorem ownerAfterAll_eq_or (key : QueryKey) (acts : List CacheAct) :
    ownerAfterAll (some key) acts = some key ∨ ownerAfterAll (some key) acts = none := by
  induction acts using List.reverseRecOn with
  | nil => exact Or.inl rfl
  | append_singleton acts last ih =>
      rw [ownerAfterAll_append_singleton]
      rcases ih with ih | ih
      · rw [ih]
        by_cases hlast : last = .call (.evict key)
        · right
          simp [hlast, ownerAfter, Option.filter]
        · exact Or.inl (ownerAfter_of_ne hlast)
      · rw [ih]
        exact Or.inr (ownerAfter_none last)

/-- An eviction leaves the cell of the query without an owner. -/
theorem ownerAfter_evict (key : QueryKey) (before : List CacheAct) :
    ownerAfter (ownerAfterAll (some key) before) (.call (.evict key)) = none := by
  rcases ownerAfterAll_eq_or key before with heq | heq <;>
    simp [heq, ownerAfter, Option.filter]

end CacheAct

namespace WatchedCache

/-- Nothing is cached, and nobody watches. -/
def empty : WatchedCache := ⟨.empty, [], []⟩

/-- The store of the cache. -/
abbrev store (watched : WatchedCache) : Store := watched.cache.store

/-- Does one act. -/
def step (watched : WatchedCache) : CacheAct → WatchedCache
  | .call call => { watched with cache := watched.cache.call call }
  | .hold key =>
    let (id, cache) := watched.cache.cell key
    { watched with cache, handles := watched.handles ++ [id] }
  | .holdCached key =>
    { watched with handles := watched.handles ++ (watched.store.cell? key).toList }
  | .drop id => { watched with handles := watched.handles.erase id }
  | .subscribe id =>
    { watched with receivers := watched.receivers ++ [watched.store.subscribe id] }
  | .poll receiver =>
    { watched with
      receivers := watched.receivers.modify receiver fun subscription =>
        (watched.store.poll watched.handles subscription).2 }

/-- Does acts one after the other. -/
def stepAll (watched : WatchedCache) (acts : List CacheAct) : WatchedCache :=
  acts.foldl step watched

variable {watched : WatchedCache} {owner : Option QueryKey} {id : CellId}

theorem stepAll_append (watched : WatchedCache) (acts more : List CacheAct) :
    watched.stepAll (acts ++ more) = (watched.stepAll acts).stepAll more :=
  List.foldl_append

theorem stepAll_append_singleton (watched : WatchedCache) (acts : List CacheAct)
    (last : CacheAct) : watched.stepAll (acts ++ [last]) = (watched.stepAll acts).step last :=
  stepAll_append watched acts [last]

/-! ### One act -/

theorem indexed_step (h : watched.store.Indexed) (act : CacheAct) :
    (watched.step act).store.Indexed := by
  cases act with
  | call call =>
      cases call with
      | cell key => exact h.cell key
      | update other change => exact h.updateCell other change
      | write key state entities => exact h.write key state entities
      | writeEntities origin entities => exact ⟨h.valid, h.distinct⟩
      | evict key =>
          rw [store, step, Cache.call, Cache.store_evict]
          exact h.evict key
  | hold key => exact h.cell key
  | holdCached key => exact h
  | drop other => exact h
  | subscribe other => exact h
  | poll receiver => exact h

theorem owned_step (h : watched.store.Owned owner id) (act : CacheAct) :
    (watched.step act).store.Owned (act.ownerAfter owner) id := by
  cases act with
  | call call =>
      cases call with
      | cell key => exact h.cell key
      | update other change => exact h.updateCell other change
      | write key state entities => exact h.write key state entities
      | writeEntities origin entities => exact h.reconcile origin entities
      | evict key =>
          rw [store, step, Cache.call, Cache.store_evict]
          exact h.evict key
  | hold key => exact h.cell key
  | holdCached key => exact h
  | drop other => exact h
  | subscribe other => exact h
  | poll receiver => exact h

/-- What an act does to a cell. -/
theorem cellOf_step (h : watched.store.Owned owner id) (act : CacheAct) :
    (watched.step act).store.cellOf id =
      ⟨act.leaves owner id (watched.store.stateOf id),
        (watched.store.cellOf id).version + if act.writes owner id then 1 else 0⟩ := by
  cases act with
  | call call =>
      cases call with
      | cell key => exact Store.cellOf_cell watched.store key id
      | update other change =>
          refine (h.cellOf_updateCell other change).trans ?_
          simp only [CacheAct.leaves, CacheAct.writes, decide_eq_true_eq]
          split <;> rfl
      | write key state entities =>
          refine (h.cellOf_write key state entities).trans ?_
          simp only [CacheAct.leaves, CacheAct.writes, decide_eq_true_eq]
          split <;> rfl
      | writeEntities origin entities => rfl
      | evict key =>
          rw [store, step, Cache.call, Cache.store_evict]
          rfl
  | hold key => exact Store.cellOf_cell watched.store key id
  | holdCached key => rfl
  | drop other => rfl
  | subscribe other => rfl
  | poll receiver => rfl

theorem version_step (h : watched.store.Owned owner id) (act : CacheAct) :
    ((watched.step act).store.cellOf id).version =
      (watched.store.cellOf id).version + if act.writes owner id then 1 else 0 :=
  congrArg Cell.version (cellOf_step h act)

/-! ### Any number of acts -/

theorem indexed_stepAll (h : watched.store.Indexed) (acts : List CacheAct) :
    (watched.stepAll acts).store.Indexed := by
  induction acts generalizing watched with
  | nil => exact h
  | cons act rest ih => exact ih (indexed_step h act)

theorem owned_stepAll (h : watched.store.Owned owner id) (acts : List CacheAct) :
    (watched.stepAll acts).store.Owned (CacheAct.ownerAfterAll owner acts) id := by
  induction acts generalizing watched owner with
  | nil => exact h
  | cons act rest ih => exact ih (owned_step h act)

/-- While a cell has one owner, each act leaves in it what it would leave there alone. -/
theorem stateOf_stepAll (h : watched.store.Owned owner id) {acts : List CacheAct}
    (hkept : ∀ act ∈ acts, act.ownerAfter owner = owner) :
    (watched.stepAll acts).store.stateOf id =
      acts.foldl (CacheAct.leaves owner id) (watched.store.stateOf id) := by
  induction acts generalizing watched with
  | nil => rfl
  | cons act rest ih =>
      obtain ⟨hfirst, hrest⟩ := List.forall_mem_cons.1 hkept
      have hstate : (watched.step act).store.stateOf id =
          act.leaves owner id (watched.store.stateOf id) := by
        rw [Store.stateOf, cellOf_step h act]
      have howned : (watched.step act).store.Owned owner id := hfirst ▸ owned_step h act
      rw [List.foldl_cons, ← hstate]
      exact ih howned hrest

theorem version_le_stepAll (h : watched.store.Owned owner id) (acts : List CacheAct) :
    (watched.store.cellOf id).version ≤ ((watched.stepAll acts).store.cellOf id).version := by
  induction acts generalizing watched owner with
  | nil => exact Nat.le_refl _
  | cons act rest ih =>
      refine Nat.le_trans ?_ (ih (owned_step h act))
      rw [version_step h act]
      exact Nat.le_add_right _ _

/-- The version of a cell tells whether one of the acts has written to it. -/
theorem version_ne_stepAll_iff (h : watched.store.Owned owner id) (acts : List CacheAct) :
    ((watched.stepAll acts).store.cellOf id).version ≠ (watched.store.cellOf id).version ↔
      ∃ before act, before ++ [act] <+: acts ∧
        act.writes (CacheAct.ownerAfterAll owner before) id = true := by
  induction acts using List.reverseRecOn with
  | nil => simp [stepAll]
  | append_singleton acts last ih =>
      have hle := version_le_stepAll h acts
      rw [stepAll_append_singleton, version_step (owned_stepAll h acts) last]
      constructor
      · intro hne
        by_cases hwrites : last.writes (CacheAct.ownerAfterAll owner acts) id = true
        · exact ⟨acts, last, List.prefix_rfl, hwrites⟩
        · rw [if_neg hwrites] at hne
          obtain ⟨before, act, hprefix, hact⟩ := ih.1 hne
          exact ⟨before, act, hprefix.trans (List.prefix_append _ _), hact⟩
      · rintro ⟨before, act, hprefix, hact⟩
        rcases List.prefix_concat_iff.1 hprefix with heq | hprefix
        · obtain ⟨rfl, rfl⟩ := List.append_singleton_inj.1 heq
          rw [if_pos hact]
          exact Nat.ne_of_gt (Nat.lt_succ_of_le hle)
        · have hlt := Nat.lt_of_le_of_ne hle (ih.2 ⟨before, act, hprefix, hact⟩).symm
          exact Nat.ne_of_gt (Nat.lt_of_lt_of_le hlt (Nat.le_add_right _ _))

/-! ### Receivers -/

/-- The act has a receiver look at a cell: the receiver is given out, or it is polled. -/
def Looks (watched : WatchedCache) (receiver : Nat) (id : CellId) : CacheAct → Prop
  | .subscribe other => other = id ∧ receiver = watched.receivers.length
  | .poll other => other = receiver ∧ ∃ seen, watched.receivers[receiver]? = some ⟨id, seen⟩
  | _ => False

theorem Looks.store_step {receiver : Nat} {act : CacheAct}
    (h : watched.Looks receiver id act) : (watched.step act).store = watched.store := by
  cases act with
  | subscribe => rfl
  | poll => rfl
  | _ => cases h

/-- Whoever looks at a cell has seen its version. -/
theorem Looks.getElem?_step {receiver : Nat} {act : CacheAct}
    (h : watched.Looks receiver id act) :
    (watched.step act).receivers[receiver]? =
      some ⟨id, (watched.store.cellOf id).version⟩ := by
  cases act with
  | subscribe other =>
      obtain ⟨rfl, rfl⟩ := h
      exact List.getElem?_concat_length
  | poll other =>
      obtain ⟨rfl, seen, hseen⟩ := h
      rw [step, List.getElem?_modify_eq, hseen]
      rfl
  | _ => cases h

/-- A receiver that does not look remembers what it has seen. -/
theorem getElem?_step_of_ne {receiver : Nat} {subscription : Subscription} {act : CacheAct}
    (h : watched.receivers[receiver]? = some subscription) (hne : act ≠ .poll receiver) :
    (watched.step act).receivers[receiver]? = some subscription := by
  cases act with
  | subscribe other =>
      obtain ⟨hlt, -⟩ := List.getElem?_eq_some_iff.1 h
      rw [step, List.getElem?_append_left hlt]
      exact h
  | poll other =>
      have hother : other ≠ receiver := fun heq => hne (heq ▸ rfl)
      rw [step, List.getElem?_modify_ne _ _ hother]
      exact h
  | _ => exact h

theorem getElem?_stepAll_of_notMem {receiver : Nat} {subscription : Subscription}
    {acts : List CacheAct} (h : watched.receivers[receiver]? = some subscription)
    (hacts : CacheAct.poll receiver ∉ acts) :
    (watched.stepAll acts).receivers[receiver]? = some subscription := by
  induction acts generalizing watched with
  | nil => exact h
  | cons act rest ih =>
      refine ih (getElem?_step_of_ne h ?_) fun hmem => hacts (List.mem_cons_of_mem _ hmem)
      exact fun heq => hacts (heq ▸ List.mem_cons_self)

/-! ### What a handle shows -/

/-- The act gives out a handle of a cell for a query: the query has the cell, or the cell
is made. -/
def Obtains (watched : WatchedCache) (key : QueryKey) (id : CellId) : CacheAct → Prop
  | .hold other => other = key ∧ (watched.store.cell key).1 = id
  | .holdCached other => other = key ∧ watched.store.cell? key = some id
  | _ => False

/-- What is seen of a cell after some acts, since a handle of it was obtained for a
query. -/
structure Follows (key : QueryKey) (id : CellId) (start : WatchedCache)
    (acts : List CacheAct) : Prop where
  /-- Until the query is evicted it has the cell, and what is read through the handle and
  through the cache is what the writes by either way have left. -/
  shared : .call (.evict key) ∉ acts →
    (start.stepAll acts).cache.cell key = (id, (start.stepAll acts).cache) ∧
    (start.stepAll acts).store.read key = .ok ((start.stepAll acts).store.stateOf id) ∧
    (start.stepAll acts).store.stateOf id =
      acts.foldl (CacheAct.leaves (some key) id) (start.store.stateOf id)
  /-- After an eviction only changes through a handle arrive in the cell. -/
  detached : ∀ before after, acts = before ++ .call (.evict key) :: after →
    (start.stepAll acts).store.stateOf id =
      after.foldl (CacheAct.leaves none id) ((start.stepAll before).store.stateOf id)
  /-- A receiver shows the state of the cell. If the cell is in use, it also tells whether
  the cell was written to since the receiver last looked. -/
  watched : ∀ receiver before look after, acts = before ++ look :: after →
    (start.stepAll before).Looks receiver id look → .poll receiver ∉ after →
    ∃ subscription, (start.stepAll acts).receivers[receiver]? = some subscription ∧
      let seen :=
        ((start.stepAll acts).store.poll (start.stepAll acts).handles subscription).1
      seen.state = (start.stepAll acts).store.stateOf id ∧
      ((start.stepAll acts).store.inUse (start.stepAll acts).handles id = true →
        seen.closed = false ∧ ∃ changed, seen.changed = some changed ∧
          (changed = true ↔ ∃ between act, between ++ [act] <+: after ∧
            act.writes (CacheAct.ownerAfterAll (some key) (before ++ look :: between)) id =
              true))

variable {key : QueryKey}

theorem Obtains.owned_step {act : CacheAct} (h : watched.Obtains key id act)
    (hindexed : watched.store.Indexed) : (watched.step act).store.Owned (some key) id := by
  have hnext := indexed_step hindexed act
  cases act with
  | hold other =>
      obtain ⟨rfl, rfl⟩ := h
      refine hnext.owned ?_
      exact (Store.cell?_cell _ _ _).trans (if_pos rfl)
  | holdCached other =>
      obtain ⟨rfl, hid⟩ := h
      exact hnext.owned hid
  | _ => cases h

/-- A handle begins with the state that the query has, or with the first one. -/
theorem Obtains.stateOf_step {act : CacheAct} (h : watched.Obtains key id act)
    (hindexed : watched.store.Indexed) :
    (watched.step act).store.stateOf id = (watched.store.state? key).getD .initial := by
  cases act with
  | hold other =>
      obtain ⟨rfl, rfl⟩ := h
      have hstate := Store.state?_cell hindexed other other
      rw [if_pos rfl, Store.state?, Store.cell?_cell, if_pos rfl] at hstate
      exact Option.some_inj.1 hstate
  | holdCached other =>
      obtain ⟨rfl, hid⟩ := h
      rw [Store.state?, hid]
      rfl
  | _ => cases h

/-- What is seen of a cell follows from its having had this owner. -/
theorem follows_of_owned {start : WatchedCache} (h : start.store.Owned (some key) id)
    (acts : List CacheAct) : Follows key id start acts where
  shared hacts := by
    have hkept : ∀ act ∈ acts, act.ownerAfter (some key) = some key := fun act hact =>
      CacheAct.ownerAfter_of_ne fun heq => hacts (heq ▸ hact)
    have howned := owned_stepAll h acts
    rw [CacheAct.ownerAfterAll_of_kept hkept] at howned
    have hkey : (start.stepAll acts).store.cell? key = some id := (howned.index key).2 rfl
    refine ⟨?_, ?_, stateOf_stepAll h hkept⟩
    · rw [Cache.cell, Store.cell_of_some hkey]
    · rw [Store.read, Store.state?, hkey]
      rfl
  detached before after hacts := by
    have hbefore := owned_stepAll h before
    have howned := owned_step hbefore (.call (.evict key))
    rw [CacheAct.ownerAfter_evict] at howned
    have hstate : ((start.stepAll before).step (.call (.evict key))).store.stateOf id =
        (start.stepAll before).store.stateOf id :=
      congrArg Cell.state (cellOf_step hbefore (.call (.evict key)))
    rw [hacts, stepAll_append, ← hstate]
    exact stateOf_stepAll howned fun act _ => act.ownerAfter_none
  watched receiver before look after hacts hlook hafter := by
    have howned := owned_step (owned_stepAll h before) look
    have hversion := version_ne_stepAll_iff howned after
    have hreceiver := getElem?_stepAll_of_notMem hlook.getElem?_step hafter
    have hall : ((start.stepAll before).step look).stepAll after = start.stepAll acts := by
      rw [hacts, stepAll_append]
      rfl
    have howner : ∀ between, CacheAct.ownerAfterAll (some key) (before ++ look :: between) =
        CacheAct.ownerAfterAll (look.ownerAfter (CacheAct.ownerAfterAll (some key) before))
          between := fun between => List.foldl_append
    simp only [← howner] at hversion
    rw [hlook.store_step, hall] at hversion
    rw [hall] at hreceiver
    refine ⟨_, hreceiver, ?_⟩
    dsimp only
    rw [Store.poll]
    dsimp only
    split
    · refine ⟨rfl, fun _ => ⟨rfl, _, rfl, ?_⟩⟩
      rw [bne_iff_ne]
      exact hversion
    · exact ⟨rfl, fun huse => absurd huse ‹_›⟩

/-- Handles and receivers miss no update, whatever else is done with the cache and its
cells. -/
theorem follows_stepAll (earlier : List CacheAct) {act : CacheAct}
    (hobtains : (empty.stepAll earlier).Obtains key id act) (later : List CacheAct) :
    ((empty.stepAll earlier).step act).store.stateOf id =
        ((empty.stepAll earlier).store.state? key).getD .initial ∧
      Follows key id ((empty.stepAll earlier).step act) later := by
  have hindexed : (empty.stepAll earlier).store.Indexed :=
    indexed_stepAll Store.indexed_empty earlier
  exact ⟨hobtains.stateOf_step hindexed, follows_of_owned (hobtains.owned_step hindexed) later⟩

/-- A second query is cached, and the first is held, written to, evicted and cached
again. -/
theorem follows_over_eviction :
    let first : QueryKey := ⟨"first"⟩
    let second : QueryKey := ⟨"second"⟩
    let earlier : List CacheAct := [.call (.write second (.ready .null) [])]
    let later : List CacheAct :=
      [.subscribe ⟨1⟩, .call (.write first (.ready .null) []), .poll 0,
        .call (.update ⟨1⟩ fun state => state), .call (.evict first), .holdCached second,
        .call (.write first (.ready (.bool true)) []), .drop ⟨1⟩]
    (empty.stepAll earlier).Obtains first ⟨1⟩ (.hold first) ∧
      ((empty.stepAll earlier).step (.hold first)).store.stateOf ⟨1⟩ =
        ((empty.stepAll earlier).store.state? first).getD .initial ∧
      Follows first ⟨1⟩ ((empty.stepAll earlier).step (.hold first)) later := by
  intro first second earlier later
  have hobtains : (empty.stepAll earlier).Obtains first ⟨1⟩ (.hold first) :=
    ⟨rfl, by decide +kernel⟩
  exact ⟨hobtains, follows_stepAll earlier hobtains later⟩

end WatchedCache

end QueryCache
