import QueryCache.Http.Transport
import QueryCache.Proofs.Json.RoundTrip

/-!
# A request is read back from what is sent

The body of a message is the written form of an object, with variables if there are any and with the
name of an operation if there is one. A reader that allows as many containers inside each other as
there are in the body gets the same request from it, and any other reader gets nothing:
`Transport.reads_back`. The reader of responses does not get variables back that are 126 lists
inside each other.
-/

namespace QueryCache

open Envelope (allNamed membersNamed part?)

namespace Json

/-- A number of lists inside each other. -/
def nestedLists : Nat → Json
  | 0 => .null
  | depth + 1 => .array [nestedLists depth]

theorem nesting_nestedLists (depth : Nat) : (nestedLists depth).nesting = depth := by
  induction depth with
  | zero => rfl
  | succ depth ih => simp [nestedLists, nesting, itemsNesting, ih]

theorem ordered_nestedLists (depth : Nat) : (nestedLists depth).Ordered := by
  induction depth with
  | zero => trivial
  | succ depth ih => exact ⟨ih, trivial⟩

theorem numbersReadBack_nestedLists (depth : Nat) : (nestedLists depth).NumbersReadBack := by
  induction depth with
  | zero => trivial
  | succ depth ih => exact ⟨ih, trivial⟩

end Json

namespace Request

variable {request : Request}

theorem allNamed_memberTrees (members : List (String × Json)) :
    allNamed (Json.memberTrees members) := by
  rw [allNamed, List.all_eq_true, Json.memberTrees_eq_map]
  intro tree htree
  obtain ⟨member, -, rfl⟩ := List.mem_map.1 htree
  rfl

/-- The variables and the name of an operation are members exactly if there are any. -/
theorem mem_names_iff (request : Request) :
    (some "variables" ∈ (Json.memberTrees request.members).map Prod.fst ↔ request.vars ≠ []) ∧
    (some "operationName" ∈ (Json.memberTrees request.members).map Prod.fst ↔
      request.operationName ≠ none) := by
  obtain ⟨query, vars, operationName⟩ := request
  cases vars <;> cases operationName <;> simp [members, Json.memberTrees]

/-- Each part of a request is the only member with its name. -/
theorem membersNamed_memberTrees (request : Request) :
    membersNamed "query" (Json.memberTrees request.members) = [.string (some request.query)] ∧
    membersNamed "variables" (Json.memberTrees request.members) =
      (if request.vars = [] then [] else [(Json.object request.vars).tree]) ∧
    membersNamed "operationName" (Json.memberTrees request.members) =
      request.operationName.toList.map fun name => .string (some name) := by
  obtain ⟨query, vars, operationName⟩ := request
  cases vars <;> cases operationName <;>
    simp [members, Json.memberTrees, Json.tree, membersNamed]

theorem nesting_members (request : Request) :
    (Json.object request.members).nesting =
      (if request.vars = [] then 0 else (Json.object request.vars).nesting) + 1 := by
  obtain ⟨query, vars, operationName⟩ := request
  cases vars <;> cases operationName <;>
    simp [members, Json.nesting, Json.membersNesting]

/-- Variables are read back, also if they are left out because there are none. -/
theorem part?_varsOf?_tree {vars : Variables} (hordered : (Json.object vars).Ordered)
    (hnumbers : (Json.object vars).NumbersReadBack) (depth : Nat) :
    part? (varsOf? depth) [] (if vars = [] then [] else [(Json.object vars).tree]) =
      if (if vars = [] then 0 else (Json.object vars).nesting) ≤ depth then some vars
      else none := by
  by_cases hvars : vars = []
  · simp [part?, hvars]
  · rw [if_neg hvars, if_neg hvars, part?, varsOf?,
      Json.valueWithin?_tree _ depth hordered hnumbers]
    by_cases hdepth : (Json.object vars).nesting ≤ depth <;> simp [hdepth]

theorem part?_operationNameOf?_tree (operationName : Option String) :
    part? operationNameOf? none (operationName.toList.map fun name => .string (some name)) =
      some operationName := by
  cases operationName <;> rfl

/-- A request is read back from the tree of what is sent. -/
theorem ofTreeWithin?_tree (hordered : (Json.object request.vars).Ordered)
    (hnumbers : (Json.object request.vars).NumbersReadBack) (depth : Nat) :
    ofTreeWithin? depth (Json.object request.members).tree =
      if (Json.object request.members).nesting ≤ depth then some request else none := by
  rw [nesting_members]
  cases depth with
  | zero => rfl
  | succ depth =>
      obtain ⟨hquery, hvars, hname⟩ := membersNamed_memberTrees request
      rw [Json.tree, ofTreeWithin?, if_pos (allNamed_memberTrees _), hquery, hvars, hname,
        ofParts?, part?_varsOf?_tree hordered hnumbers, part?_operationNameOf?_tree]
      generalize (if request.vars = [] then 0 else (Json.object request.vars).nesting) = needed
      simp only [Nat.add_le_add_iff_right]
      split <;> rfl

end Request

/-- The double 1.5. -/
def Double.threeHalves : Double := ⟨false, 3 * 2 ^ 1073, by decide +kernel⟩

namespace Transport

variable {transport : Transport} {request : Request} {message : HttpRequest}

theorem body_of_message? (h : transport.message? request = .ok message) :
    message.body = request.body.toUTF8 := by
  obtain ⟨target, -, hheaders⟩ := exists_of_bind_eq_ok h
  obtain ⟨headers, -, hmessage⟩ := exists_of_bind_eq_ok hheaders
  cases hmessage
  rfl

/-- Whether a message can be put together does not depend on the request. -/
theorem exists_message? (h : transport.message? request = .ok message) (other : Request) :
    ∃ message, transport.message? other = .ok message := by
  obtain ⟨target, htarget, hheaders⟩ := exists_of_bind_eq_ok h
  obtain ⟨headers, hheaders, -⟩ := exists_of_bind_eq_ok hheaders
  refine ⟨⟨"POST", target, headers, other.body.toUTF8⟩, ?_⟩
  simp [message?, htarget, hheaders, bind, Except.bind, pure, Except.pure]

theorem ofBytes?_body (h : transport.message? request = .ok message) :
    JsonText.ofBytes? message.body = some (Json.object request.members).tree := by
  rw [body_of_message? h]
  exact Json.ofBytes?_text _

/-- What is read from what is sent for a request, with any limit. -/
theorem ofBytes?_of_message? (h : transport.message? request = .ok message)
    (hordered : (Json.object request.vars).Ordered)
    (hnumbers : (Json.object request.vars).NumbersReadBack) (depth : Nat) :
    Request.ofBytes? depth message.body =
      if (Json.object request.members).nesting ≤ depth then some request else none := by
  rw [Request.ofBytes?, ofBytes?_body h]
  exact Request.ofTreeWithin?_tree hordered hnumbers depth

/-- What is sent for a request is an object with variables if there are any, and with the name of
an operation if there is one. The request is read back from it, where the reader has to allow as
many containers inside each other as the object has. -/
theorem reads_back (h : transport.message? request = .ok message)
    (hordered : (Json.object request.vars).Ordered)
    (hnumbers : (Json.object request.vars).NumbersReadBack) :
    (∃ members, JsonText.ofBytes? message.body = some (.object members) ∧
      (some "variables" ∈ members.map Prod.fst ↔ request.vars ≠ []) ∧
      (some "operationName" ∈ members.map Prod.fst ↔ request.operationName ≠ none)) ∧
    ∀ depth, Request.ofBytes? depth message.body =
      if (Json.object request.members).nesting ≤ depth then some request else none := by
  refine ⟨⟨Json.memberTrees request.members, ofBytes?_body h, request.mem_names_iff⟩, ?_⟩
  intro depth
  exact ofBytes?_of_message? h hordered hnumbers depth

/-- A transport to try requests out on. -/
def toClub : Transport :=
  ⟨⟨"https", some ⟨"", "", .name "club.example", none⟩, .segments ["graphql"], none, none⟩, []⟩

/-- A request with nested variables, some characters of which are escaped, and with a name. -/
def search : Request :=
  ⟨"query Find($by: By) \x7b find(by: $by) \x7d",
    [("by", .object [("name", .string "Zoë \"\\\x01"),
      ("sizes", .array [.number (.int (-3)), .number (.double .threeHalves)])])],
    some "Find"⟩

theorem exists_message?_search : ∃ message, toClub.message? search = .ok message :=
  exists_of_isOk (by decide +kernel)

theorem reads_back_search :
    ∃ message, toClub.message? search = .ok message ∧ (Json.object search.vars).Ordered ∧
      (Json.object search.vars).NumbersReadBack ∧
      Request.ofBytes? JsonText.nestingLimit message.body = some search ∧
      Request.ofBytes? 3 message.body = none := by
  obtain ⟨message, h⟩ := exists_message?_search
  have hname : "name" < "sizes" := by decide
  have hordered : (Json.object search.vars).Ordered :=
    ⟨List.pairwise_singleton _ _, ⟨List.pairwise_pair.2 hname, trivial, ⟨trivial, trivial, trivial⟩,
      trivial⟩, trivial⟩
  have hdouble : (Number.double .threeHalves).ReadsBack := by
    rw [Number.ReadsBack]
    decide +kernel
  have hnumbers : (Json.object search.vars).NumbersReadBack :=
    ⟨⟨trivial, ⟨Number.readsBack_int (by decide) (by decide), hdouble, trivial⟩, trivial⟩, trivial⟩
  obtain ⟨-, hlaw⟩ := reads_back h hordered hnumbers
  exact ⟨message, h, hordered, hnumbers, (hlaw _).trans (if_pos (by decide)),
    (hlaw 3).trans (if_neg (by decide))⟩

/-- A request whose only variable is that many lists inside each other. -/
def deepSearch (depth : Nat) : Request :=
  ⟨"query Find($in: In) \x7b find(in: $in) \x7d", [("in", .nestedLists depth)], none⟩

theorem nesting_deepSearch (depth : Nat) :
    (Json.object (deepSearch depth).members).nesting = depth + 2 := by
  rw [Request.nesting_members, deepSearch, if_neg (List.cons_ne_nil _ _)]
  simp [Json.nesting, Json.membersNesting, Json.nesting_nestedLists]

/-- With 126 lists inside each other, the body has one container more than the reader allows. -/
theorem not_read_back_of_deep_variables :
    ∃ message, toClub.message? (deepSearch 126) = .ok message ∧
      (Json.object (deepSearch 126).vars).Ordered ∧
      (Json.object (deepSearch 126).vars).NumbersReadBack ∧
      Request.ofBytes? JsonText.nestingLimit message.body = none := by
  obtain ⟨_, hsearch⟩ := exists_message?_search
  obtain ⟨message, h⟩ := exists_message? hsearch (deepSearch 126)
  have hordered : (Json.object (deepSearch 126).vars).Ordered :=
    ⟨List.pairwise_singleton _ _, Json.ordered_nestedLists 126, trivial⟩
  have hnumbers : (Json.object (deepSearch 126).vars).NumbersReadBack :=
    ⟨Json.numbersReadBack_nestedLists 126, trivial⟩
  have hdeep : ¬ (Json.object (deepSearch 126).members).nesting ≤ JsonText.nestingLimit := by
    rw [nesting_deepSearch]
    decide
  exact ⟨message, h, hordered, hnumbers,
    (ofBytes?_of_message? h hordered hnumbers _).trans (if_neg hdeep)⟩

end Transport

end QueryCache
