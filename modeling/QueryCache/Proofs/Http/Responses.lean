import Mathlib.Data.List.Forall2
import QueryCache.Proofs.Http.Requests

/-!
# All of the data or a failure

A response comes to data if it says success, and its body holds data other than null and no error
(`JsonText.Carries`). It comes to a failure of the transport in any other case, and if the body
lists errors (`JsonText.ListsErrors`), the failure consists of their messages:
`Transport.fetch_laws`.

A body that carries data need not be an object. An array that lists the parts of an envelope is
read as well, so `[5]` is a response with the data 5: `Transport.fetch_array`.
-/

namespace QueryCache

open Envelope (allNamed membersNamed part?)

namespace JsonText

/-- The tree has a value, and this is not null. -/
def IsData (tree : JsonText) (value : Json) : Prop :=
  tree.valueWithin? Envelope.dataNesting = some value ∧ value ≠ .null

/-- The tree is an object with one message, and maybe with other members. -/
def IsError (tree : JsonText) (message : String) : Prop :=
  ∃ members, tree = object members ∧ allNamed members ∧
    membersNamed "message" members = [string (some message)]

/-- No list of errors, or an empty one. -/
def NoErrors (trees : List JsonText) : Prop := trees = [] ∨ trees = [array []]

/-- The tree holds data and no errors, as an object or as an array of its parts. -/
inductive Carries (value : Json) : JsonText → Prop
  | object {members : List (Option String × JsonText)} {tree : JsonText}
      (named : allNamed members) (single : membersNamed "data" members = [tree])
      (isData : tree.IsData value) (noErrors : NoErrors (membersNamed "errors" members)) :
      Carries value (object members)
  | array {tree : JsonText} {errors : List JsonText} (isData : tree.IsData value)
      (noErrors : NoErrors errors) : Carries value (array (tree :: errors))

/-- The tree is an object that lists errors with some messages. Its data may be anything that has
a value, and may be missing. -/
inductive ListsErrors (messages : List String) : JsonText → Prop
  | object {members : List (Option String × JsonText)} {items : List JsonText}
      (named : allNamed members)
      (data : membersNamed "data" members = [] ∨ ∃ tree value,
        membersNamed "data" members = [tree] ∧
          tree.valueWithin? Envelope.dataNesting = some value)
      (single : membersNamed "errors" members = [array items])
      (areErrors : List.Forall₂ IsError items messages) : ListsErrors messages (object members)

variable {tree : JsonText} {value : Json}

theorem valueWithin?_eq_null_iff {depth : Nat} :
    tree.valueWithin? depth = some .null ↔ tree = null := by
  cases tree <;> cases depth <;> simp [valueWithin?]

end JsonText

namespace Envelope

open JsonText (IsData IsError NoErrors)

variable {α : Type} {read : JsonText → Option α} {default a : α} {tree : JsonText}
  {trees items : List JsonText} {members : List (Option String × JsonText)}
  {envelope : Envelope} {value : Json} {messages : List String}

/-! ### The parts of an envelope -/

theorem part?_eq_some_iff :
    part? read default trees = some a ↔
      (trees = [] ∧ default = a) ∨ ∃ tree, trees = [tree] ∧ read tree = some a := by
  match trees with
  | [] => simp [part?]
  | [tree] => simp [part?]
  | _ :: _ :: _ => simp [part?]

theorem dataOf?_eq_some_iff : dataOf? tree = some (some value) ↔ tree.IsData value := by
  rw [IsData]
  by_cases htree : tree = .null
  · subst htree
    have hvalue : ¬ (some Json.null = some value ∧ value ≠ .null) := by
      rintro ⟨h, hne⟩
      exact hne (Option.some.inj h).symm
    simpa [dataOf?, JsonText.valueWithin?] using hvalue
  · have hdata : dataOf? tree = (tree.valueWithin? dataNesting).map some := by
      cases tree <;> first | rfl | exact absurd rfl htree
    have hne : tree.valueWithin? dataNesting = some value → value ≠ .null := by
      rintro h rfl
      exact htree (JsonText.valueWithin?_eq_null_iff.1 h)
    simpa [hdata] using hne

/-- Data with a value is read, null as none. -/
theorem exists_part?_dataOf? (h : trees = [] ∨ ∃ tree value, trees = [tree] ∧
      tree.valueWithin? dataNesting = some value) :
    ∃ data, part? dataOf? none trees = some data := by
  rcases h with rfl | ⟨tree, value, rfl, hvalue⟩
  · exact ⟨none, rfl⟩
  · by_cases hnull : value = .null
    · subst hnull
      rw [JsonText.valueWithin?_eq_null_iff.1 hvalue]
      exact ⟨none, rfl⟩
    · exact ⟨some value, dataOf?_eq_some_iff.2 ⟨hvalue, hnull⟩⟩

theorem mapM_messageOf?_eq_nil_iff : items.mapM messageOf? = some [] ↔ items = [] := by
  cases items with
  | nil => simp
  | cons item items => simp [List.mapM_cons, Option.bind_eq_some_iff]

theorem part?_dataOf?_eq_some_iff :
    part? dataOf? none trees = some (some value) ↔ ∃ tree, trees = [tree] ∧ tree.IsData value := by
  simp [part?_eq_some_iff, dataOf?_eq_some_iff]

theorem part?_errorsOf?_eq_nil_iff :
    part? errorsOf? [] trees = some [] ↔ NoErrors trees := by
  have herrors : ∀ tree, errorsOf? tree = some [] ↔ tree = .array [] := by
    intro tree
    cases tree <;> simp [errorsOf?, mapM_messageOf?_eq_nil_iff]
  simp [part?_eq_some_iff, herrors, NoErrors]

/-- Errors are read as their messages, in order. -/
theorem errorsOf?_array (h : List.Forall₂ IsError items messages) :
    errorsOf? (.array items) = some messages := by
  rw [errorsOf?]
  induction h with
  | nil => rfl
  | @cons tree message _ _ herror _ ih =>
      obtain ⟨members, rfl, hnamed, hmessage⟩ := herror
      have hread : messageOf? (.object members) = some message := by
        rw [messageOf?, hnamed, hmessage]
      rw [List.mapM_cons, hread, ih]
      rfl

/-! ### Whole envelopes -/

theorem ofTree?_object_eq_some_iff :
    ofTree? (.object members) = some envelope ↔
      allNamed members ∧ part? dataOf? none (membersNamed "data" members) = some envelope.data ∧
        part? errorsOf? [] (membersNamed "errors" members) = some envelope.errors := by
  obtain ⟨data, errors⟩ := envelope
  by_cases hnamed : allNamed members <;> simp [ofTree?, hnamed, Option.bind_eq_some_iff]

theorem ofTree?_array_eq_some_iff :
    ofTree? (.array items) = some envelope ↔
      items.length ≤ 2 ∧ part? dataOf? none (items.take 1) = some envelope.data ∧
        part? errorsOf? [] (items.drop 1) = some envelope.errors := by
  obtain ⟨data, errors⟩ := envelope
  by_cases hlength : items.length ≤ 2 <;> simp [ofTree?, hlength, Option.bind_eq_some_iff]

/-- An envelope comes to data if it has some, and no errors. -/
theorem result_eq_ok_iff : envelope.result = .ok value ↔ envelope = ⟨some value, []⟩ := by
  obtain ⟨data, errors⟩ := envelope
  cases errors with
  | nil => cases data <;> simp [result]
  | cons message errors => simp [result]

theorem result_of_errors (h : envelope.errors ≠ []) :
    envelope.result = .error (.transport ("; ".intercalate envelope.errors)) := by
  rw [result, if_neg (by simpa using h)]

theorem eq_transport_of_result {failure : Failure} (h : envelope.result = .error failure) :
    ∃ text, failure = .transport text := by
  rw [result] at h
  split at h
  · split at h
    · cases h
    · exact ⟨_, (Except.error.inj h).symm⟩
  · exact ⟨_, (Except.error.inj h).symm⟩

/-- The trees of envelopes with data and without errors. -/
theorem ofTree?_eq_some_iff : ofTree? tree = some ⟨some value, []⟩ ↔ tree.Carries value := by
  cases tree with
  | object members =>
      rw [ofTree?_object_eq_some_iff, part?_dataOf?_eq_some_iff, part?_errorsOf?_eq_nil_iff]
      constructor
      · rintro ⟨hnamed, ⟨tree, hsingle, hdata⟩, herrors⟩
        exact .object hnamed hsingle hdata herrors
      · rintro ⟨hnamed, hsingle, hdata, herrors⟩
        exact ⟨hnamed, ⟨_, hsingle, hdata⟩, herrors⟩
  | array items =>
      rw [ofTree?_array_eq_some_iff, part?_dataOf?_eq_some_iff, part?_errorsOf?_eq_nil_iff]
      constructor
      · rintro ⟨-, ⟨tree, hsingle, hdata⟩, herrors⟩
        cases items with
        | nil => cases hsingle
        | cons item errors =>
            cases hsingle
            exact .array hdata herrors
      · rintro (_ | ⟨hdata, herrors⟩)
        refine ⟨?_, ⟨_, rfl, hdata⟩, herrors⟩
        rcases herrors with rfl | rfl <;> simp
  | _ => exact ⟨nofun, nofun⟩

/-- The trees of envelopes with errors, of which the messages are known. -/
theorem exists_ofTree? (h : tree.ListsErrors messages) :
    ∃ data, ofTree? tree = some ⟨data, messages⟩ := by
  obtain ⟨hnamed, hdata, hsingle, herrors⟩ := h
  obtain ⟨data, hpart⟩ := exists_part?_dataOf? hdata
  refine ⟨data, ofTree?_object_eq_some_iff.2 ⟨hnamed, hpart, ?_⟩⟩
  rw [hsingle]
  exact errorsOf?_array herrors

end Envelope

theorem Status.isSuccess_iff {status : Status} :
    status.isSuccess ↔ 200 ≤ status.code ∧ status.code ≤ 299 := by
  rw [Status.isSuccess, Bool.and_eq_true, decide_eq_true_iff, decide_eq_true_iff,
    Nat.lt_succ_iff]

namespace HttpResponse

variable {response : HttpResponse} {value : Json}

/-- A response is refused for its status, or else for a body that is no envelope, or it comes to
what its envelope says. -/
theorem data?_cases (response : HttpResponse) :
    (¬ response.status.isSuccess ∧
      response.data? = .error (.transport ("Server responded with " ++ response.status.text))) ∨
    (response.status.isSuccess ∧ Envelope.ofBytes? response.body = none ∧
      response.data? = .error (.transport "Malformed response body")) ∨
    (response.status.isSuccess ∧ ∃ envelope, Envelope.ofBytes? response.body = some envelope ∧
      response.data? = envelope.result) := by
  by_cases hsuccess : response.status.isSuccess
  · cases hbody : Envelope.ofBytes? response.body with
    | none => exact Or.inr (Or.inl ⟨hsuccess, rfl, by simp [data?, hsuccess, hbody]⟩)
    | some envelope =>
        exact Or.inr (Or.inr ⟨hsuccess, envelope, rfl, by simp [data?, hsuccess, hbody]⟩)
  · exact Or.inl ⟨hsuccess, by simp [data?, hsuccess]⟩

theorem data?_eq_ok_iff :
    response.data? = .ok value ↔ response.status.isSuccess ∧
      ∃ tree, JsonText.ofBytes? response.body = some tree ∧ tree.Carries value := by
  have hbody : (∃ tree, JsonText.ofBytes? response.body = some tree ∧ tree.Carries value) ↔
      Envelope.ofBytes? response.body = some ⟨some value, []⟩ := by
    simp [Envelope.ofBytes?, Option.bind_eq_some_iff, Envelope.ofTree?_eq_some_iff]
  rw [hbody]
  rcases data?_cases response with
    ⟨hstatus, hdata⟩ | ⟨-, hnone, hdata⟩ | ⟨hstatus, envelope, hsome, hdata⟩
  · simp [hstatus, hdata]
  · simp [hnone, hdata]
  · simp [hstatus, hsome, hdata, Envelope.result_eq_ok_iff]

/-- What goes wrong with a response is a failure of the transport. -/
theorem eq_transport_of_data? {failure : Failure} (h : response.data? = .error failure) :
    ∃ text, failure = .transport text := by
  rcases data?_cases response with ⟨-, hdata⟩ | ⟨-, -, hdata⟩ | ⟨-, envelope, -, hdata⟩
  · exact ⟨_, (Except.error.inj (hdata.symm.trans h)).symm⟩
  · exact ⟨_, (Except.error.inj (hdata.symm.trans h)).symm⟩
  · exact Envelope.eq_transport_of_result (hdata.symm.trans h)

/-- A response that lists errors comes to their messages. -/
theorem data?_of_listsErrors {tree : JsonText} {messages : List String}
    (hstatus : response.status.isSuccess) (hbody : JsonText.ofBytes? response.body = some tree)
    (herrors : tree.ListsErrors messages) (hne : messages ≠ []) :
    response.data? = .error (.transport ("; ".intercalate messages)) := by
  obtain ⟨data, htree⟩ := Envelope.exists_ofTree? herrors
  have henvelope : Envelope.ofBytes? response.body = some ⟨data, messages⟩ := by
    rw [Envelope.ofBytes?, hbody]
    exact htree
  rw [data?, if_pos hstatus, henvelope]
  exact Envelope.result_of_errors hne

end HttpResponse

namespace Transport

variable {transport : Transport} {send : HttpRequest → Except Failure HttpResponse}
  {request : Request} {response : HttpResponse}

theorem fetch_of_exchange (h : transport.exchange send request = .ok response) :
    transport.fetch send request = response.data? := by
  rw [fetch, h]
  rfl

/-- A request comes to data exactly if it is answered with success, and with a body that carries
this data. If it is answered with success and errors, it fails with their messages. Whenever it
fails after it has been answered, it fails with a failure of the transport. -/
theorem fetch_laws (transport : Transport) (send : HttpRequest → Except Failure HttpResponse)
    (request : Request) :
    (∀ value, transport.fetch send request = .ok value ↔
      ∃ response, transport.exchange send request = .ok response ∧
        (200 ≤ response.status.code ∧ response.status.code ≤ 299) ∧
        ∃ tree, JsonText.ofBytes? response.body = some tree ∧ tree.Carries value) ∧
    ∀ response, transport.exchange send request = .ok response →
      (∀ tree messages, 200 ≤ response.status.code ∧ response.status.code ≤ 299 →
        JsonText.ofBytes? response.body = some tree → tree.ListsErrors messages → messages ≠ [] →
        transport.fetch send request = .error (.transport ("; ".intercalate messages))) ∧
      ∀ failure, transport.fetch send request = .error failure →
        ∃ text, failure = .transport text := by
  refine ⟨fun value => ⟨fun h => ?_, ?_⟩, fun response hexchange => ⟨?_, fun failure h => ?_⟩⟩
  · obtain ⟨response, hexchange, hdata⟩ := exists_of_bind_eq_ok h
    obtain ⟨hstatus, hbody⟩ := HttpResponse.data?_eq_ok_iff.1 hdata
    exact ⟨response, hexchange, Status.isSuccess_iff.1 hstatus, hbody⟩
  · rintro ⟨response, hexchange, hstatus, hbody⟩
    rw [fetch_of_exchange hexchange]
    exact HttpResponse.data?_eq_ok_iff.2 ⟨Status.isSuccess_iff.2 hstatus, hbody⟩
  · intro tree messages hstatus hbody herrors hne
    rw [fetch_of_exchange hexchange]
    exact HttpResponse.data?_of_listsErrors (Status.isSuccess_iff.2 hstatus) hbody herrors hne
  · rw [fetch_of_exchange hexchange] at h
    exact HttpResponse.eq_transport_of_data? h

theorem exchange_search (response : HttpResponse) :
    toClub.exchange (fun _ => .ok response) search = .ok response := by
  obtain ⟨message, h⟩ := exists_message?_search
  rw [exchange, h]
  rfl

/-- What comes of a request that is answered with a value. -/
def answeredBy (status : Status) (body : Json) : Except Failure Json :=
  toClub.fetch (fun _ => .ok ⟨status, body.text.toUTF8⟩) search

theorem fetch_laws_search :
    answeredBy ⟨200, by decide⟩ (.object [("data", .bool true), ("errors", .array [])]) =
        .ok (.bool true) ∧
      answeredBy ⟨200, by decide⟩ (.object [("data", .null), ("errors", .array
          [.object [("message", .string "not found")], .object [("message", .string "again")]])]) =
        .error (.transport "not found; again") ∧
      ∃ text, answeredBy ⟨502, by decide⟩ .null = .error (.transport text) := by
  refine ⟨?_, ?_, ?_⟩
  · refine ((fetch_laws toClub _ search).1 _).2 ⟨_, exchange_search _, by decide, _,
      Json.ofBytes?_text _, ?_⟩
    exact .object rfl rfl ⟨rfl, by simp⟩ (Or.inr rfl)
  · refine ((fetch_laws toClub _ search).2 _ (exchange_search _)).1 _ ["not found", "again"]
      (by decide) (Json.ofBytes?_text _) ?_ (List.cons_ne_nil _ _)
    exact .object rfl (Or.inr ⟨_, .null, rfl, rfl⟩) rfl
      (.cons ⟨_, rfl, rfl, rfl⟩ (.cons ⟨_, rfl, rfl, rfl⟩ .nil))
  · obtain ⟨failure, hfailure⟩ : ∃ failure, answeredBy ⟨502, by decide⟩ .null = .error failure :=
      ⟨_, (fetch_of_exchange (exchange_search _)).trans rfl⟩
    obtain ⟨text, rfl⟩ :=
      ((fetch_laws toClub _ search).2 _ (exchange_search _)).2 failure hfailure
    exact ⟨text, hfailure⟩

/-- An array is no object, but can carry data. -/
theorem fetch_array :
    toClub.fetch (fun _ => .ok ⟨⟨200, by decide⟩, "[5]".toUTF8⟩) search =
        .ok (.number (.int 5)) ∧
      ¬ ∃ members, JsonText.ofBytes? "[5]".toUTF8 = some (.object members) := by
  have hread : JsonText.ofBytes? "[5]".toUTF8 =
      some (.array [.numeral ⟨false, [5], none, none⟩]) :=
    JsonText.ofBytes?_toUTF8 "[5]"
  constructor
  · rw [fetch_of_exchange (exchange_search _)]
    exact HttpResponse.data?_eq_ok_iff.2
      ⟨rfl, _, hread, .array ⟨rfl, by simp⟩ (Or.inl rfl)⟩
  · rintro ⟨members, hobject⟩
    cases hread.symm.trans hobject

end Transport

end QueryCache
