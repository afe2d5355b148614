import QueryCache.Proofs.Client.Run
import QueryCache.Proofs.Client.Result
import QueryCache.Proofs.Json.Equality
import QueryCache.Proofs.Json.User

/-!
# A simple world

A server of one user, which answers by the name of the operation and by the state
of the world alone. Asking it does not change that state, so its answers change
only when time elapses. It is the smallest world in which several queries share
an entity.
-/

namespace QueryCache

namespace Backend

variable {σ : Type}

/-- A server that answers by the request and the state of the world. There are no
resolvers. -/
def ofAnswers (answer : Request → σ → Json) : Backend σ where
  fetch request world := (.ok (answer request world), world)
  resolve _ _ _ world := (.error (.resolver "there are no resolvers"), world)

theorem ordered_ofAnswers {answer : Request → σ → Json}
    (h : ∀ request world, (answer request world).Ordered) : (ofAnswers answer).Ordered := by
  constructor
  · intro request world data _ hdata
    cases hdata
    exact h request world
  · intro tree answer vars world resolved _ _ _ hresolved
    simp [ofAnswers] at hresolved

end Backend

deriving instance DecidableEq for QueryState, Request, MergeNote, Entry, Held

/-- The answer about a user. An operation gets the fields that its name begins
with. -/
def userAnswer (request : Request) (user : List (String × String)) : Json :=
  .ofUser "1" <| user.filter fun field =>
    request.operationName.any fun name => field.1.toList.isPrefixOf name.toList

/-- A server that knows some fields of a user. -/
def userServer : Backend (List (String × String)) := .ofAnswers userAnswer

theorem ordered_userServer : userServer.Ordered :=
  Backend.ordered_ofAnswers fun _ _ => Json.ordered_ofUser _ _

/-- An operation on the user of this name. -/
def Document.onUser (kind : OperationKind) (name : String) : Document :=
  let fields := [Selection.field (.leaf "id") none, .field (.leaf name) none]
  ⟨[⟨kind, some name, [], [], [.field (.leaf "me") (some fields)]⟩], []⟩

/-- The query for a field of the user. -/
def QuerySource.onUser (name : String) : QuerySource := .tree (.onUser .query name)

/-- The key of the query for a field of the user. -/
def QueryKey.onUser (name : String) : QueryKey := .ofQuery (.onUser .query name) []

end QueryCache
