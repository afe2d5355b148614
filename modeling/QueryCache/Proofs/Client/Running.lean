import QueryCache.Client.Basic

/-!
# Requests in their order

The journal lists the executions and the requests of a call in one order. The query that is
`running` at a request is the one whose execution began last. A rule about requests names this
query (`Follows`); it is kept where entries are added that keep it, and `AskedBy` is the rule
that the requests of a call follow.
-/

namespace QueryCache

namespace Entry

/-- The query whose execution began. -/
def executed? : Entry → Option QueryKey
  | executed key => some key
  | _ => none

end Entry

/-- The query whose execution began last. -/
def running (entries : List Entry) : Option QueryKey :=
  (entries.filterMap Entry.executed?).getLast?

theorem running_append_of_silent (entries : List Entry) {new : List Entry}
    (hnew : ∀ entry ∈ new, entry.executed? = none) :
    running (entries ++ new) = running entries := by
  rw [running, List.filterMap_append, List.filterMap_eq_nil_iff.2 hnew, List.append_nil]
  rfl

theorem running_append_executed (entries : List Entry) (key : QueryKey) :
    running (entries ++ [.executed key]) = some key := by
  rw [running, List.filterMap_append]
  exact List.getLast?_concat

/-- Where a list is put together from two, an item stands in the first or in the second. -/
theorem split_append {α : Type} {first second before after : List α} {item : α}
    (h : first ++ second = before ++ item :: after) :
    (∃ rest, first = before ++ item :: rest) ∨
      ∃ rest, before = first ++ rest ∧ second = rest ++ item :: after := by
  rcases List.append_eq_append_iff.1 h with ⟨rest, hbefore, hsecond⟩ | ⟨rest, hfirst, hafter⟩
  · exact Or.inr ⟨rest, hbefore, hsecond⟩
  · cases rest with
    | nil =>
        rw [List.append_nil] at hfirst
        exact Or.inr ⟨[], by rw [hfirst, List.append_nil], hafter.symm⟩
    | cons other rest =>
        obtain ⟨rfl, -⟩ := List.cons.inj hafter
        exact Or.inl ⟨rest, hfirst⟩

/-! ### Rules about requests -/

/-- The requests among the entries keep a rule about the query that is running when they are
sent. -/
def Follows (rule : Option QueryKey → Request × List QueryKey → Prop) (entries : List Entry) :
    Prop :=
  ∀ before request loading after, entries = before ++ .requested request loading :: after →
    rule (running before) (request, loading)

section Rules

variable {rule : Option QueryKey → Request × List QueryKey → Prop}

theorem Follows.nil : Follows rule [] := fun _ _ _ _ heq => by simp at heq

theorem Follows.append {entries new : List Entry} (h : Follows rule entries)
    (hnew : ∀ before request loading after, new = before ++ .requested request loading :: after →
      rule (running (entries ++ before)) (request, loading)) :
    Follows rule (entries ++ new) := by
  intro before request loading after heq
  rcases split_append heq with ⟨rest, hbefore⟩ | ⟨rest, rfl, hrest⟩
  · exact h before request loading rest hbefore
  · exact hnew rest request loading after hrest

theorem Follows.executed {entries : List Entry} (h : Follows rule entries) (key : QueryKey) :
    Follows rule (entries ++ [.executed key]) := by
  refine h.append fun before request loading after heq => ?_
  cases before with
  | nil => cases heq
  | cons first rest =>
      obtain ⟨-, hrest⟩ := List.cons.inj heq
      cases rest <;> cases hrest

theorem Follows.asked {entries new : List Entry} (h : Follows rule entries)
    (hnew : ∀ entry ∈ new, entry.executed? = none ∧ ∀ sent, entry.request? = some sent →
      rule (running entries) sent) :
    Follows rule (entries ++ new) := by
  refine h.append fun before request loading after heq => ?_
  have hbefore : ∀ entry ∈ before, entry.executed? = none :=
    fun entry hentry => (hnew entry (heq ▸ List.mem_append_left _ hentry)).1
  rw [running_append_of_silent entries hbefore]
  exact (hnew (.requested request loading) (by simp [heq])).2 _ rfl

end Rules

/-- What is sent, for whom, and which queries are loading meanwhile: for the query that is
executed, which is loading; else for one of the call's own, while none is. Both need the
server. -/
def AskedBy (registry : Table QueryKey Prepared) (own : Prepared → Prop) :
    Option QueryKey → Request × List QueryKey → Prop
  | some key, sent =>
    ∃ prepared, Table.get? registry key = some prepared ∧
      prepared.split.sendToServer = true ∧ sent = (prepared.request, [key])
  | none, sent =>
    ∃ prepared, own prepared ∧ prepared.split.sendToServer = true ∧ sent = (prepared.request, [])

end QueryCache
