import QueryCache.Client.Basic

/-!
# Runs of a client

A run is a sequence of calls on one client over a cache that is empty at first.
`Client.perform` makes one call, and `Run` collects what a client can come to,
with a log of the calls. Handles that reads have given are kept, and each of
them knows whether its query has been evicted since: writing through one that is
no longer current brings a query back that the client has forgotten.
-/

namespace QueryCache

/-- An operation of a client. Handles are counted in the order in which reads have
given them. -/
inductive Call (σ : Type) where
  | query (source : QuerySource) (vars : Variables)
  | refetch (source : QuerySource) (vars : Variables)
  | mutate (source : QuerySource) (vars : Variables)
  | evict (key : QueryKey)
  | read (source : QuerySource) (vars : Variables)
  | write (handle : Nat) (data : Json)
  /-- No operation is called, and the world outside becomes another. -/
  | elapse (world : σ)

/-- The values that a call brings along have their members in order. -/
def Call.Ordered {σ : Type} : Call σ → Prop
  | query _ vars => Json.Ordered (.object vars)
  | refetch _ vars => Json.Ordered (.object vars)
  | mutate _ vars => Json.Ordered (.object vars)
  | write _ data => data.Ordered
  | _ => True

/-- A handle that a read has given. -/
structure Held where
  key : QueryKey
  /-- The query has not been evicted since. -/
  current : Bool

/-- The handle after a query has been evicted. -/
def Held.afterEvict (evicted : QueryKey) (held : Held) : Held :=
  { held with current := held.current && held.key != evicted }

/-- A client, and the handles that its reads have given. -/
structure Client (σ : Type) where
  session : Session σ
  handles : List Held

/-- A call that was made. -/
structure Made where
  /-- It did not write through a handle whose query had been evicted. -/
  current : Bool
  failure : Option Failure
deriving DecidableEq

namespace Client

variable {σ : Type}

/-- A client over an empty cache. -/
def start (world : σ) : Client σ := ⟨.start world, []⟩

/-- The client goes on with what an operation returned. -/
def resume {α : Type} (client : Client σ) :
    Except Failure α × Session σ → Option Failure × Client σ
  | (.ok _, session) => (none, { client with session })
  | (.error failure, session) => (some failure, { client with session })

theorem session_resume {α : Type} (client : Client σ) (out : Except Failure α × Session σ) :
    (client.resume out).2.session = out.2 := by
  obtain ⟨failure | value, session⟩ := out <;> rfl

theorem eq_of_resume {α : Type} {client next : Client σ} {out : Except Failure α × Session σ}
    {failure : Failure} (h : client.resume out = (some failure, next)) :
    out = (.error failure, next.session) := by
  obtain ⟨found | value, session⟩ := out
  · cases h
    rfl
  · cases h

/-- Makes a call. The first component is the failure that it returned. A write
through a handle that nobody has given is no call. -/
def perform (settings : Settings) (backend : Backend σ) (call : Call σ)
    (client : Client σ) : Option Failure × Client σ :=
  match call with
  | .query source vars => client.resume (client.session.query settings backend source vars)
  | .refetch source vars =>
    client.resume (client.session.refetch settings backend source vars)
  | .mutate source vars => client.resume (client.session.mutate settings backend source vars)
  | .evict key =>
    (none, ⟨(client.session.evict key).2, client.handles.map (Held.afterEvict key)⟩)
  | .read source vars =>
    match client.session.readQuery source vars with
    | .ok (key, _) => (none, { client with handles := client.handles ++ [⟨key, true⟩] })
    | .error failure => (some failure, client)
  | .write handle data =>
    match client.handles[handle]? with
    | some held => client.resume (client.session.writeQuery settings backend held.key data)
    | none => (none, client)
  | .elapse world => (none, { client with session := { client.session with world } })

theorem perform_of_none {settings : Settings} {backend : Backend σ} {call : Call σ}
    {client : Client σ} (h : (client.perform settings backend call).1 = none) :
    client.perform settings backend call =
      (none, (client.perform settings backend call).2) :=
  Prod.ext h rfl

/-- The call does not write through a handle whose query has been evicted. -/
def isCurrent (client : Client σ) : Call σ → Bool
  | .write handle _ =>
    match client.handles[handle]? with
    | some held => held.current
    | none => true
  | _ => true

/-- The line for a call in the log. -/
def made (settings : Settings) (backend : Backend σ) (call : Call σ) (client : Client σ) :
    Made :=
  ⟨client.isCurrent call, (client.perform settings backend call).1⟩

end Client

/-- What a client can come to, with the log of the calls that lead there. -/
inductive Run {σ : Type} (settings : Settings) (backend : Backend σ) :
    List Made → Client σ → Prop
  | start (world : σ) : Run settings backend [] (.start world)
  | call {log : List Made} {client : Client σ} (run : Run settings backend log client)
      (call : Call σ) (ordered : call.Ordered) :
      Run settings backend (log ++ [client.made settings backend call])
        (client.perform settings backend call).2

/-- Makes calls one after the other, and goes on with a log. -/
def Client.performAll {σ : Type} (settings : Settings) (backend : Backend σ) :
    List (Call σ) → List Made × Client σ → List Made × Client σ
  | [], done => done
  | call :: calls, (log, client) =>
    performAll settings backend calls
      (log ++ [client.made settings backend call], (client.perform settings backend call).2)

theorem Run.performAll {σ : Type} {settings : Settings} {backend : Backend σ}
    {calls : List (Call σ)} (hcalls : ∀ call ∈ calls, call.Ordered) {log : List Made}
    {client : Client σ} (h : Run settings backend log client) :
    Run settings backend (Client.performAll settings backend calls (log, client)).1
      (Client.performAll settings backend calls (log, client)).2 := by
  induction calls generalizing log client with
  | nil => exact h
  | cons call calls ih =>
      refine ih (fun other hother => hcalls other (List.mem_cons_of_mem _ hother)) ?_
      exact .call h call (hcalls call List.mem_cons_self)

end QueryCache
