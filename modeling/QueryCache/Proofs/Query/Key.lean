import QueryCache.Query.Key
import QueryCache.Proofs.Json.Text
import QueryCache.Proofs.Query.Injective

/-!
# Keys do not collide

The key of a query tells its document and its variables: `QueryKey.ofQuery_inj`. Where the
document ends, the separator begins with a line end and a number sign, which no definition
goes on with.
-/

namespace QueryCache

open QueryCache.Parser

namespace QueryKey

/-- What stands behind the document. -/
def variableSuffix : Variables → List Char
  | [] => []
  | vars => separator.toList ++ (Json.object vars).text.toList

theorem toList_text_ofQuery (d : Document) (vars : Variables) :
    (ofQuery d vars).text.toList = d.chars ++ variableSuffix vars := by
  cases vars with
  | nil => simp [ofQuery, variableSuffix, Document.text]
  | cons v vars => simp [ofQuery, variableSuffix, Document.text]

theorem not_paragraph_variableSuffix (vars : Variables) :
    ¬ ['\n', '\n'] <+: variableSuffix vars := by
  cases vars with
  | nil => simp [variableSuffix]
  | cons v vars =>
      rintro ⟨others, heq⟩
      cases heq

theorem variableSuffix_injective : Function.Injective variableSuffix := by
  intro vars vars' heq
  cases vars with
  | nil =>
      cases vars' with
      | nil => rfl
      | cons v vars => cases heq
  | cons v vars =>
      cases vars' with
      | nil => cases heq
      | cons v' vars' =>
          have htext := String.toList_inj.1 (List.append_cancel_left heq)
          exact Json.object.inj (Json.text_injective htext)

/-- Queries under one key have the same document and the same variables. -/
theorem ofQuery_inj {text text' : String} {d d' : Document} {vars vars' : Variables}
    (h : Document.ofText? text = .ok d) (h' : Document.ofText? text' = .ok d')
    (heq : ofQuery d vars = ofQuery d' vars') : d = d' ∧ vars = vars' := by
  have hchars : d.chars ++ variableSuffix vars = d'.chars ++ variableSuffix vars' := by
    rw [← toList_text_ofQuery, ← toList_text_ofQuery, heq]
  obtain ⟨rfl, hsuffix⟩ := Document.chars_append_inj (Document.wellFormed_ofText? h)
    (Document.wellFormed_ofText? h') (not_paragraph_variableSuffix vars)
    (not_paragraph_variableSuffix vars') hchars
  exact ⟨rfl, variableSuffix_injective hsuffix⟩

/-- A query for the name of one user. -/
def userQuery : Document :=
  ⟨[⟨.query, some "User", [⟨"id", "ID!", none, []⟩], [],
    [.field ⟨none, "user", [⟨"id", "$id"⟩], []⟩ (some [.field (.leaf "name") none])]⟩], []⟩

/-- Two spellings of the query come under one key. -/
theorem ofQuery_inj_userQuery :
    Document.ofText? "query User($id: ID!) \x7b user(id: $id) \x7b name \x7d \x7d" = .ok userQuery ∧
      Document.ofText? "# by id\nquery User($id:ID!)\x7buser(id:$id)\x7bname\x7d\x7d" =
        .ok userQuery ∧
      ofQuery userQuery [("id", .string "1")] = ofQuery userQuery [("id", .string "1")] ∧
      userQuery = userQuery ∧ [("id", Json.string "1")] = [("id", Json.string "1")] := by
  have hread : Document.ofText?
      "query User($id: ID!) \x7b user(id: $id) \x7b name \x7d \x7d" = .ok userQuery := by
    decide +kernel
  have hread' : Document.ofText?
      "# by id\nquery User($id:ID!)\x7buser(id:$id)\x7bname\x7d\x7d" = .ok userQuery := by
    decide +kernel
  exact ⟨hread, hread', rfl, ofQuery_inj hread hread' rfl⟩

end QueryKey

end QueryCache
