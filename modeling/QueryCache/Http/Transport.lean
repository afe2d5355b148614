import QueryCache.Http.Envelope
import QueryCache.Http.Header
import QueryCache.Http.Status
import QueryCache.Http.Target
import QueryCache.Log
import QueryCache.Settings.Check

/-!
# Requests over HTTP

A transport has an endpoint and the headers that go along with every request.
`Transport.message?` is what is sent for a request, `HttpResponse.data?` what comes
of a response, and `Transport.fetch` the way from the one to the other.
-/

namespace QueryCache

/-- A message to a server. -/
structure HttpRequest where
  method : String
  target : String
  headers : List Header
  body : ByteArray

/-- A message from a server. -/
structure HttpResponse where
  status : Status
  body : ByteArray

/-- Where requests go, and what goes along with them. -/
structure Transport where
  endpoint : Url
  headers : Table String String

namespace Transport

/-- The transport that settings describe. -/
def ofSettings (settings : Settings) : Except Failure Transport := do
  return ⟨← settings.endpointUrl, settings.headers⟩

/-- A message cannot be put together. -/
def unbuilt (reason : String) : Failure :=
  .transport ("Could not build HTTP request: " ++ reason)

/-- The headers that say that both sides speak JSON. -/
def jsonHeaders : Table String String :=
  [("content-type", "application/json"), ("accept", "application/json")]

/-- The message for a request. Of several faults the first counts, where the
target comes before the headers. -/
def message? (transport : Transport) (request : Request) : Except Failure HttpRequest := do
  let target ← (Target.ofUrl transport.endpoint).mapError fun fault =>
    unbuilt fault.message
  let headers ← (jsonHeaders ++ transport.headers).mapM fun (name, value) =>
    (Header.of? name value).mapError fun fault => unbuilt fault.message
  return ⟨"POST", target, headers, request.body.toUTF8⟩

end Transport

namespace HttpResponse

/-- A response with a status code. -/
def ofCode (code : Nat) (body : ByteArray) : Except Failure HttpResponse :=
  match Status.ofCode? code with
  | some status => .ok ⟨status, body⟩
  | none => .error (Transport.unbuilt "invalid status code")

/-- What comes of a response. -/
def data? (response : HttpResponse) : Except Failure Json :=
  if response.status.isSuccess then
    match Envelope.ofBytes? response.body with
    | some envelope => envelope.result
    | none => .error (.transport "Malformed response body")
  else .error (.transport ("Server responded with " ++ response.status.text))

end HttpResponse

namespace Transport

/-- Sends a request through a client. A failure of the client is passed on as it
is. -/
def exchange (transport : Transport) (send : HttpRequest → Except Failure HttpResponse)
    (request : Request) : Except Failure HttpResponse := do
  send (← transport.message? request)

/-- What a log says of an exchange. -/
def log (transport : Transport) : Except Failure HttpResponse → List LogLine
  | .ok response =>
    [⟨.debug, "[HttpTransport] " ++ transport.endpoint.text ++ " -> " ++
      response.status.fullText⟩]
  | .error _ => []

/-- Sends a request through a client, and reads what comes back. -/
def fetch (transport : Transport) (send : HttpRequest → Except Failure HttpResponse)
    (request : Request) : Except Failure Json := do
  (← transport.exchange send request).data?

end Transport

end QueryCache
