import QueryCache.Proofs.Local.Served
import QueryCache.Proofs.Query.Sets

/-!
# What is left for the server is well formed

A document is full when none of its selection sets is empty, as every query text is. A split
takes out the fields and inline fragments whose selections it uses up, so the sets below the
definitions of a full document stay full. A definition itself stays where it is: its set becomes
empty when nothing in it asks the server for something (`Selection.servedAll_of_full`). The
decision to ask the server looks at all operations together, so what is sent is full exactly if
every operation asks for something (`Document.full_server_iff`), and a document with a definition
that asks for nothing is sent with an empty selection set
(`Document.not_full_of_local_operation`).
-/

namespace QueryCache

namespace Selection

mutual

/-- No selection set in the selection is empty. -/
def Full : Selection → Prop
  | field _ none => True
  | field _ (some set) => set ≠ [] ∧ AllFull set
  | spread _ _ => True
  | inline _ _ set => set ≠ [] ∧ AllFull set
termination_by structural selection => selection

/-- No selection set in the selections of a list is empty. The list itself may be. -/
def AllFull : List Selection → Prop
  | [] => True
  | selection :: rest => Full selection ∧ AllFull rest
termination_by structural set => set

end

mutual

/-- The selection asks the server for something: it is or holds a leaf or a spread that no local
field stands above. -/
def Asks (directive : String) : Selection → Prop
  | field head none => ¬ head.hasDirective directive
  | field head (some set) => ¬ head.hasDirective directive ∧ AnyAsks directive set
  | spread _ _ => True
  | inline _ _ set => AnyAsks directive set
termination_by structural selection => selection

/-- Some selection of a list asks the server for something. -/
def AnyAsks (directive : String) : List Selection → Prop
  | [] => False
  | selection :: rest => Asks directive selection ∨ AnyAsks directive rest
termination_by structural set => set

end

mutual

/-- What a split leaves of a full selection is full, and it leaves something exactly if the
selection asks the server. -/
theorem served_of_full (directive : String) :
    ∀ selection : Selection, Full selection →
      (∀ kept ∈ served directive selection, Full kept) ∧
        ((served directive selection).isSome = true ↔ Asks directive selection)
  | field head none, _ => by
      rw [served, Asks]
      by_cases hlocal : head.hasDirective directive = true
      · simp [hlocal]
      · simp [hlocal, Full]
  | field head (some set), ⟨hset, hfull⟩ => by
      obtain ⟨hkept, hasks⟩ := servedAll_of_full directive set hfull
      rw [served, Asks, ← hasks]
      by_cases hlocal : head.hasDirective directive = true
      · simp [hlocal]
      · by_cases hleft : servedAll directive set = []
        · simp [hleft, hset]
        · simp [hlocal, hleft, Full, hkept]
  | spread name directives, _ => by simp [served, Asks, Full]
  | inline condition directives set, ⟨hset, hfull⟩ => by
      obtain ⟨hkept, hasks⟩ := servedAll_of_full directive set hfull
      rw [served, Asks, ← hasks]
      by_cases hleft : servedAll directive set = []
      · simp [hleft, hset]
      · simp [hleft, Full, hkept]
termination_by structural selection => selection

theorem servedAll_of_full (directive : String) :
    ∀ set : List Selection, AllFull set →
      AllFull (servedAll directive set) ∧ (servedAll directive set ≠ [] ↔ AnyAsks directive set)
  | [], _ => ⟨trivial, by simp [servedAll, AnyAsks]⟩
  | selection :: rest, ⟨hselection, hrest⟩ => by
      obtain ⟨hkept, hasks⟩ := served_of_full directive selection hselection
      obtain ⟨hothers, hasksRest⟩ := servedAll_of_full directive rest hrest
      rw [servedAll, AnyAsks, ← hasks, ← hasksRest]
      cases hserved : served directive selection with
      | none => exact ⟨hothers, by simp⟩
      | some kept => exact ⟨⟨hkept kept hserved, hothers⟩, by simp⟩
termination_by structural set => set

end

end Selection

namespace Document

/-- No selection set in the document is empty. -/
def Full (d : Document) : Prop := ∀ set ∈ d.sets, set ≠ [] ∧ Selection.AllFull set

theorem sets_split (directive : String) (d : Document) :
    (d.split directive).server.sets = d.sets.map (Selection.servedAll directive) := by
  rw [sets, sets, operations_split, fragments_split]
  simp only [List.map_append, List.map_map]
  rfl

/-- A document without fragments and with one operation is sent only if that operation asks for
something. -/
theorem anyAsks_of_sendToServer {directive : String} {d : Document} (hfull : d.Full)
    (hsend : (d.split directive).sendToServer = true) (hfragments : d.fragments = [])
    (hone : d.operations.length ≤ 1) : ∀ set ∈ d.sets, Selection.AnyAsks directive set := by
  rw [sendToServer_split] at hsend
  obtain ⟨operations, fragments⟩ := d
  cases hfragments
  match operations, hone with
  | [], _ => simp [sets]
  | [op], _ =>
      have hop := hfull op.selections (by simp [sets])
      have hkept : Selection.servedAll directive op.selections ≠ [] := by
        simpa [hop.1] using hsend
      simpa [sets] using (Selection.servedAll_of_full directive op.selections hop.2).2.1 hkept

/-- What a split leaves of a full document has no empty selection set below its definitions. It
has none at all exactly if every definition asks the server for something, as it does when a
document that is sent consists of one operation. -/
theorem full_server_iff (directive : String) {d : Document} (hfull : d.Full) :
    (∀ set ∈ (d.split directive).server.sets, Selection.AllFull set) ∧
      ((d.split directive).server.Full ↔ ∀ set ∈ d.sets, Selection.AnyAsks directive set) ∧
      ((d.split directive).sendToServer = true → d.fragments = [] → d.operations.length ≤ 1 →
        (d.split directive).server.Full) := by
  have hserved (set : SelectionSet) (hset : set ∈ d.sets) :=
    Selection.servedAll_of_full directive set (hfull set hset).2
  have hiff : (d.split directive).server.Full ↔
      ∀ set ∈ d.sets, Selection.AnyAsks directive set := by
    rw [Full, sets_split, List.forall_mem_map]
    refine forall₂_congr fun set hset => ?_
    rw [(hserved set hset).2]
    exact and_iff_left (hserved set hset).1
  refine ⟨?_, hiff, fun hsend hfragments hone => ?_⟩
  · rw [sets_split, List.forall_mem_map]
    exact fun set hset => (hserved set hset).1
  · exact hiff.2 (anyAsks_of_sendToServer hfull hsend hfragments hone)

end Document

/-- A query of a name without variables. -/
def Operation.ofName (name : String) (set : SelectionSet) : Operation :=
  ⟨.query, some name, [], [], set⟩

namespace Document

/-- A query for a user with a local mood below a fragment, and other operations. -/
def ofMood (others : List Operation) : Document :=
  ⟨.ofName "mood" [.inline none [] [.field (.leaf "me") (some [.field (.leaf "id") none,
    .field ⟨none, "mood", [], [⟨"local", []⟩]⟩ none])]] :: others, []⟩

theorem full_ofMood {others : List Operation}
    (h : ∀ op ∈ others, op.selections ≠ [] ∧ Selection.AllFull op.selections) :
    (ofMood others).Full := by
  simpa [Full, sets, ofMood, Operation.ofName, Selection.Full, Selection.AllFull] using h

/-- The query by itself, and beside another one in which a fragment is used up. -/
theorem full_server_iff_mood :
    let club : SelectionSet := [.field (.leaf "club") (some [.field (.leaf "size") none,
      .inline (some "Club") [] [.field ⟨some "x", "rank", [], [⟨"local", []⟩]⟩ none]])]
    let d := ofMood [.ofName "club" club]
    d.Full ∧ (∀ set ∈ (d.split "local").server.sets, Selection.AllFull set) ∧
      (∀ set ∈ d.sets, Selection.AnyAsks "local" set) ∧ (d.split "local").server.Full ∧
      (ofMood []).Full ∧ ((ofMood []).split "local").sendToServer = true ∧
      ((ofMood []).split "local").server.Full := by
  intro club d
  have hfull : d.Full :=
    full_ofMood (by simp [club, Operation.ofName, Selection.Full, Selection.AllFull])
  have hasks : ∀ set ∈ d.sets, Selection.AnyAsks "local" set := by
    simp [d, club, sets, ofMood, Operation.ofName, Selection.AnyAsks, Selection.Asks,
      FieldHead.hasDirective, FieldHead.leaf]
  have hone : (ofMood []).Full := full_ofMood (List.forall_mem_nil _)
  obtain ⟨hbelow, hiff, -⟩ := full_server_iff "local" hfull
  obtain ⟨-, -, hsent⟩ := full_server_iff "local" hone
  exact ⟨hfull, hbelow, hasks, hiff.2 hasks, hone, rfl, hsent rfl rfl (Nat.le_refl 1)⟩

/-- A query that consists of a local field is sent with an empty selection set when another one
asks for something. -/
theorem not_full_of_local_operation :
    let d := ofMood [.ofName "theme" [.field ⟨none, "theme", [], [⟨"local", []⟩]⟩ none]]
    d.Full ∧ d.fragments = [] ∧ (d.split "local").sendToServer = true ∧
      ¬ (d.split "local").server.Full := by
  intro d
  have hfull : d.Full :=
    full_ofMood (by simp [Operation.ofName, Selection.Full, Selection.AllFull])
  refine ⟨hfull, rfl, rfl, fun hserver => ?_⟩
  exact (hserver [] (by decide)).1 rfl

end Document

end QueryCache
