import QueryCache.Proofs.Table.Lookup
import QueryCache.Store.Basic

/-!
# Cells of a store

In a store that is `Indexed` every query has a cell of its own. Then asking for
a cell, changing one and writing a state concern a single query
(`Store.state?_cell`, `Store.state?_updateCell`, `Store.state?_writeState`), and
none of them touches the entities.
-/

namespace QueryCache

namespace Store

/-- The index refers to cells that exist, and to different ones for different
queries. -/
structure Indexed (store : Store) : Prop where
  valid : ∀ {key id}, store.cell? key = some id → id.index < store.cells.length
  distinct : ∀ {key other id}, store.cell? key = some id → store.cell? other = some id →
    key = other

theorem indexed_empty : Indexed empty :=
  ⟨fun h => by simp [empty, cell?] at h, fun h => by simp [empty, cell?] at h⟩

theorem state?_isSome_iff {store : Store} {key : QueryKey} :
    (∃ state, store.state? key = some state) ↔ ∃ id, store.cell? key = some id := by
  simp [state?]

theorem cell_of_some {store : Store} {key : QueryKey} {id : CellId}
    (h : store.cell? key = some id) : store.cell key = (id, store) := by
  simp [cell, h]

theorem cell_of_none {store : Store} {key : QueryKey} (h : store.cell? key = none) :
    store.cell key = (⟨store.cells.length⟩, { store with
      cells := store.cells ++ [⟨.initial, 0⟩]
      index := Table.insert store.index key ⟨store.cells.length⟩ }) := by
  simp [cell, h]

theorem cell?_cell (store : Store) (key other : QueryKey) :
    (store.cell key).2.cell? other =
      if other = key then some (store.cell key).1 else store.cell? other := by
  cases h : store.cell? key with
  | some id =>
      rw [cell_of_some h]
      split
      · subst other
        exact h
      · rfl
  | none =>
      rw [cell_of_none h]
      exact Table.get?_insert _ _ _ _

theorem Indexed.cell {store : Store} (h : Indexed store) (key : QueryKey) :
    Indexed (store.cell key).2 := by
  cases hkey : store.cell? key with
  | some id => rwa [cell_of_some hkey]
  | none =>
      have hlookup := cell?_cell store key
      rw [cell_of_none hkey] at hlookup ⊢
      constructor
      · intro other id hother
        rw [hlookup] at hother
        split at hother
        · cases hother
          simp
        · have := h.valid hother
          simp only [List.length_append]
          omega
      · intro other other' id hother hother'
        rw [hlookup] at hother hother'
        split at hother <;> split at hother'
        · exact ‹other = key›.trans ‹other' = key›.symm
        · cases hother
          exact absurd (h.valid hother') (Nat.lt_irrefl _)
        · cases hother'
          exact absurd (h.valid hother) (Nat.lt_irrefl _)
        · exact h.distinct hother hother'

theorem state?_cell {store : Store} (h : Indexed store) (key other : QueryKey) :
    (store.cell key).2.state? other =
      if other = key then some ((store.state? key).getD .initial)
      else store.state? other := by
  cases hkey : store.cell? key with
  | some id =>
      rw [cell_of_some hkey]
      split
      · subst other
        simp [state?, hkey]
      · rfl
  | none =>
      have hlookup := cell?_cell store key other
      rw [cell_of_none hkey] at hlookup ⊢
      simp only [state?, hlookup, hkey]
      split
      · simp [stateOf, cellOf]
      · cases hother : store.cell? other with
        | none => rfl
        | some id =>
            have hvalid := h.valid hother
            simp [stateOf, cellOf, List.getElem?_append_left hvalid]

/-- A new cell is like a cell that nothing was written to, so it can be added unnoticed. -/
theorem cellOf_cell (store : Store) (key : QueryKey) (id : CellId) :
    (store.cell key).2.cellOf id = store.cellOf id := by
  cases hkey : store.cell? key with
  | some found => rw [cell_of_some hkey]
  | none =>
      rw [cell_of_none hkey, cellOf, cellOf]
      rcases Nat.lt_trichotomy id.index store.cells.length with hlt | heq | hgt
      · rw [List.getElem?_append_left hlt]
      · simp [heq]
      · have hbeyond : (store.cells ++ [(⟨.initial, 0⟩ : Cell)]).length ≤ id.index := by
          rw [List.length_append]
          exact hgt
        rw [List.getElem?_eq_none hbeyond, List.getElem?_eq_none (Nat.le_of_lt hgt)]

theorem cell?_updateCell (store : Store) (id : CellId) (change : QueryState → QueryState)
    (key : QueryKey) : (store.updateCell id change).cell? key = store.cell? key := rfl

theorem Indexed.updateCell {store : Store} (h : Indexed store) (id : CellId)
    (change : QueryState → QueryState) : Indexed (store.updateCell id change) := by
  constructor
  · intro key id' hkey
    simpa [Store.updateCell] using h.valid hkey
  · intro key other id' hkey hother
    exact h.distinct hkey hother

theorem cellOf_updateCell_of_ne (store : Store) {id other : CellId}
    (hne : id ≠ other) (change : QueryState → QueryState) :
    (store.updateCell id change).cellOf other = store.cellOf other := by
  have hindex : id.index ≠ other.index := fun heq => hne (congrArg CellId.mk heq)
  simp [updateCell, cellOf, List.getElem?_modify_ne _ _ hindex]

theorem stateOf_updateCell_of_ne (store : Store) {id other : CellId}
    (hne : id ≠ other) (change : QueryState → QueryState) :
    (store.updateCell id change).stateOf other = store.stateOf other :=
  congrArg Cell.state (cellOf_updateCell_of_ne store hne change)

theorem stateOf_updateCell_self {store : Store} {id : CellId}
    (hvalid : id.index < store.cells.length) (change : QueryState → QueryState) :
    (store.updateCell id change).stateOf id = change (store.stateOf id) := by
  simp [updateCell, stateOf, cellOf, hvalid]

theorem state?_updateCell {store : Store} (h : Indexed store) {key : QueryKey} {id : CellId}
    (hkey : store.cell? key = some id) (change : QueryState → QueryState)
    (other : QueryKey) :
    (store.updateCell id change).state? other =
      if other = key then (store.state? key).map change else store.state? other := by
  simp only [state?, cell?_updateCell]
  split
  · subst other
    simp [hkey, stateOf_updateCell_self (h.valid hkey)]
  · cases hother : store.cell? other with
    | none => rfl
    | some id' =>
        have hne : id ≠ id' := by
          rintro rfl
          exact ‹¬ other = key› (h.distinct hother hkey)
        simp [stateOf_updateCell_of_ne store hne]

theorem cell?_writeState (store : Store) (key other : QueryKey) (state : QueryState) :
    (store.writeState key state).cell? other =
      if other = key then some (store.cell key).1 else store.cell? other :=
  cell?_cell store key other

theorem Indexed.writeState {store : Store} (h : Indexed store) (key : QueryKey)
    (state : QueryState) : Indexed (store.writeState key state) :=
  (h.cell key).updateCell (store.cell key).1 fun _ => state

theorem state?_writeState {store : Store} (h : Indexed store) (key : QueryKey)
    (state : QueryState) (other : QueryKey) :
    (store.writeState key state).state? other =
      if other = key then some state else store.state? other := by
  have hself : (store.cell key).2.cell? key = some (store.cell key).1 := by
    rw [cell?_cell, if_pos rfl]
  have hupdate := state?_updateCell (h.cell key) hself (fun _ => state) other
  rw [state?_cell h, state?_cell h, if_pos rfl] at hupdate
  refine hupdate.trans ?_
  split <;> simp_all

theorem cellOf_writeState_of_ne (store : Store) {key : QueryKey} {id : CellId}
    (hne : (store.cell key).1 ≠ id) (state : QueryState) :
    (store.writeState key state).cellOf id = store.cellOf id :=
  (cellOf_updateCell_of_ne _ hne _).trans (cellOf_cell store key id)

/-! ### What the cells leave alone -/

@[simp] theorem snapshots_cell (store : Store) (key : QueryKey) :
    (store.cell key).2.snapshots = store.snapshots := by
  rw [cell]
  split <;> rfl

@[simp] theorem dependents_cell (store : Store) (key : QueryKey) :
    (store.cell key).2.dependents = store.dependents := by
  rw [cell]
  split <;> rfl

@[simp] theorem writes_cell (store : Store) (key : QueryKey) :
    (store.cell key).2.writes = store.writes := by
  rw [cell]
  split <;> rfl

@[simp] theorem snapshots_writeState (store : Store) (key : QueryKey) (state : QueryState) :
    (store.writeState key state).snapshots = store.snapshots :=
  snapshots_cell store key

@[simp] theorem dependents_writeState (store : Store) (key : QueryKey) (state : QueryState) :
    (store.writeState key state).dependents = store.dependents :=
  dependents_cell store key

@[simp] theorem writes_writeState (store : Store) (key : QueryKey) (state : QueryState) :
    (store.writeState key state).writes = store.writes :=
  writes_cell store key

end Store

end QueryCache
