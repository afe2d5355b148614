import QueryCache.Proofs.Client.Moves

/-!
# The journal and the contacts with the world

Whatever a call does, trackers go steps of the phase machine only, and every contact with the
server is noted in its turn (`Session.Proceeds`). This holds of an execution, so it holds of every
turn of a work list, and of every call (`Client.proceeds_perform`).

What is said of the requests in a journal is therefore said of the contacts with the server:
`Backend.Accounts` ties the one to the other, and `Client.accounts_perform` says so of every call.
Where the world keeps a record, the contacts are those on record (`Backend.Accounts.recorded`).
-/

namespace QueryCache

namespace Backend

variable {σ : Type} {backend : Backend σ}

/-- From one state of the world to another, the server is asked the requests that the entries tell
of, one after the other, and nothing else. -/
def Accounts (backend : Backend σ) (world : σ) (entries : List Entry) (next : σ) : Prop :=
  ∃ contacts, backend.Leads world contacts next ∧
    contacts.filterMap Contact.request? = (entries.filterMap Entry.request?).map Prod.fst

theorem Accounts.recorded {world next : σ × List Contact} {entries : List Entry}
    (h : backend.recording.Accounts world entries next) :
    ∃ contacts, next.2 = world.2 ++ contacts ∧
      contacts.filterMap Contact.request? = (entries.filterMap Entry.request?).map Prod.fst := by
  obtain ⟨contacts, hleads, hrequests⟩ := h
  exact ⟨contacts, hleads.recorded, hrequests⟩

end Backend

namespace Session

variable {σ : Type} {settings : Settings} {backend : Backend σ}

/-- From one session to another trackers go steps that the phase machine has, and the contacts with
the server are noted. -/
def Proceeds (backend : Backend σ) (session next : Session σ) : Prop :=
  ∃ steps contacts, Moves backend session steps contacts next ∧
    ∀ step ∈ steps, step.1.canAdvance step.2 = true

variable {session next first second third : Session σ}

theorem Proceeds.trans (h : Proceeds backend first second) (h' : Proceeds backend second third) :
    Proceeds backend first third := by
  obtain ⟨steps, contacts, hmoves, hallowed⟩ := h
  obtain ⟨steps', contacts', hmoves', hallowed'⟩ := h'
  exact ⟨_, _, hmoves.trans hmoves', List.forall_mem_append.2 ⟨hallowed, hallowed'⟩⟩

theorem proceeds_of_silent {entries : List Entry}
    (hjournal : next.cache.journal = session.cache.journal ++ entries)
    (hentries : ∀ entry ∈ entries, entry.step? = none ∧ entry.request? = none)
    (hworld : next.world = session.world) : Proceeds backend session next :=
  ⟨[], [], moves_of_silent hjournal hentries hworld, List.forall_mem_nil _⟩

theorem Proceeds.refl (session : Session σ) : Proceeds backend session session :=
  proceeds_of_silent (List.append_nil _).symm (List.forall_mem_nil _) rfl

theorem proceeds_note (session : Session σ) {entry : Entry} (hstep : entry.step? = none)
    (hrequest : entry.request? = none) : Proceeds backend session (session.note entry) :=
  proceeds_of_silent rfl (List.forall_mem_singleton.2 ⟨hstep, hrequest⟩) rfl

theorem proceeds_advance (session : Session σ) {before after : Phase}
    (hallowed : before.canAdvance after = true) (label : String) :
    Proceeds backend session (session.advance label before after) :=
  ⟨_, _, moves_advance session label before after, List.forall_mem_singleton.2 hallowed⟩

theorem Passes.proceeds {prepared : Prepared} {state : QueryState}
    (h : Passes backend prepared session state next) : Proceeds backend session next := by
  obtain ⟨phases, contacts, hmoves, hcourse⟩ := h
  exact ⟨_, contacts, hmoves, fun step hstep =>
    Phase.canAdvance_of_mem_zip_tail hcourse.allowed hstep⟩

theorem proceeds_carryOut (settings : Settings) (backend : Backend σ) (prepared : Prepared)
    (force : Bool) (session : Session σ) :
    Proceeds backend session (session.carryOut settings backend prepared force).2 := by
  obtain ⟨state, hpasses, -⟩ := passes_carryOut settings backend prepared force session
  exact hpasses.proceeds

end Session

namespace WorkList

variable {σ : Type} {settings : Settings} {backend : Backend σ}

open Session (Proceeds)

theorem Turn.proceeds {work next : WorkList σ} (h : Turn settings backend work next) :
    Proceeds backend work.session next.session := by
  obtain @⟨rerun, rest, session, -⟩ := h
  cases hprepared : Table.get? session.registry rerun.key with
  | none =>
      rw [Session.rerun_of_none hprepared]
      exact Session.proceeds_note session rfl rfl
  | some prepared =>
      rw [Session.rerun_of_some hprepared]
      exact Session.proceeds_carryOut settings backend prepared true session

theorem Turns.proceeds {work next : WorkList σ} (h : Turns settings backend work next) :
    Proceeds backend work.session next.session :=
  h.keep (fun next => Proceeds backend work.session next.session) (.refl _)
    fun hturn hwork => hwork.trans hturn.proceeds

theorem Ends.proceeds {start : WorkList σ} {out : Except Failure Unit × Session σ}
    (h : Ends settings backend start out) : Proceeds backend start.session out.2 := by
  cases h with
  | finished hturns => exact hturns.proceeds
  | blocked hturns _ => exact hturns.proceeds.trans (Session.proceeds_note _ rfl rfl)

end WorkList

namespace Session

variable {σ : Type} {settings : Settings} {backend : Backend σ}

theorem proceeds_run (source : QuerySource) (vars : Variables) (force : Bool)
    (session : Session σ) :
    Proceeds backend session (session.run settings backend source vars force).2 := by
  rcases prepare_cases settings source vars session with
    ⟨fault, hrefused⟩ | ⟨prepared, document, hprepare, -⟩
  · rw [run, hrefused]
    exact .refl session
  · have hends : WorkList.Ends settings backend _ _ := ends_run force hprepare
    have hregister : Proceeds backend session (Session.register (session.note
        (.split prepared.split.foundLocal prepared.split.sendToServer)) prepared) :=
      proceeds_of_silent rfl (List.forall_mem_singleton.2 ⟨rfl, rfl⟩) rfl
    exact (hregister.trans (proceeds_carryOut settings backend prepared force _)).trans
      hends.proceeds

theorem proceeds_evict (key : QueryKey) (session : Session σ) :
    Proceeds backend session (session.evict key).2 := by
  have hjournal : (session.evict key).2.cache.journal =
      session.cache.journal ++
        if (session.cache.store.evict key).1 then [.evicted key] else [] := by
    rw [evict, Cache.evict]
    dsimp only
    split <;> simp [Cache.note]
  refine proceeds_of_silent hjournal ?_ rfl
  split <;> simp [Entry.step?, Entry.request?]

theorem proceeds_writeQuery (key : QueryKey) (data : Json) (session : Session σ) :
    Proceeds backend session (session.writeQuery settings backend key data).2 := by
  have hwritten : Proceeds backend session { session with
      cache := (session.cache.write key (.ready data) (flatten data settings.identity)).2 } :=
    proceeds_of_silent rfl (List.forall_mem_singleton.2 ⟨rfl, rfl⟩) rfl
  exact hwritten.trans (WorkList.ends_propagate settings backend (some key) _ _).proceeds

theorem proceeds_mutate (source : QuerySource) (vars : Variables) (session : Session σ) :
    Proceeds backend session (session.mutate settings backend source vars).2 := by
  rcases prepare_cases settings source vars (session.advance "mutation" .idle .parsing) with
    ⟨fault, hrefused⟩ | ⟨prepared, document, hprepare, -⟩
  · rw [mutate_of_refused hrefused]
    exact proceeds_advance session rfl "mutation"
  · obtain ⟨state, invalidation, next, hpasses, -, hmutate⟩ := passes_mutate backend hprepare
    rw [hmutate, WorkList.snd_returning]
    exact hpasses.proceeds.trans (WorkList.ends_propagate settings backend _ _ _).proceeds

end Session

/-- The world in which a call begins. It is another one if time goes by. -/
def Call.world {σ : Type} : Call σ → σ → σ
  | elapse world, _ => world
  | _, world => world

namespace Client

variable {σ : Type} {settings : Settings} {backend : Backend σ}

theorem proceeds_perform (settings : Settings) (backend : Backend σ) (call : Call σ)
    (client : Client σ) :
    Session.Proceeds backend
      { client.session with world := call.world client.session.world }
      (client.perform settings backend call).2.session := by
  cases call with
  | query source vars =>
      rw [perform, session_resume]
      exact Session.proceeds_run source vars false client.session
  | refetch source vars =>
      rw [perform, session_resume]
      exact Session.proceeds_run source vars true client.session
  | mutate source vars =>
      rw [perform, session_resume]
      exact Session.proceeds_mutate source vars client.session
  | evict key => exact Session.proceeds_evict key client.session
  | read source vars =>
      rw [perform]
      split <;> exact .refl client.session
  | write handle data =>
      rw [perform]
      split
      · rw [session_resume]
        exact Session.proceeds_writeQuery _ data client.session
      · exact .refl client.session
  | elapse world => exact .refl _

/-- What a call adds to the journal accounts for all that it asks the server. -/
theorem accounts_perform {call : Call σ} {client : Client σ} {entries : List Entry}
    (h : (client.perform settings backend call).2.session.cache.journal =
      client.session.cache.journal ++ entries) :
    backend.Accounts (call.world client.session.world) entries
      (client.perform settings backend call).2.session.world := by
  obtain ⟨steps, contacts, ⟨⟨added, hadded, -, hrequests⟩, hleads⟩, -⟩ :=
    proceeds_perform settings backend call client
  obtain rfl : added = entries := List.append_cancel_left (hadded.symm.trans h)
  exact ⟨contacts, hleads, hrequests.symm⟩

end Client

/-! ### How many requests are sent -/

namespace Prepared

variable {prepared : Prepared} {phases : List Phase} {contacts : List Contact}

theorem Fetches.length_requests_le {outcome : Except Failure (Option Json × Phase)}
    (h : prepared.Fetches phases contacts outcome) :
    (contacts.filterMap Contact.request?).length ≤ 1 := by
  cases h <;> exact Nat.le_of_ble_eq_true rfl

/-- The server is asked once at most, and the resolvers are not the server. -/
theorem Comes.length_requests_le {outcome : Except Failure (Json × Phase)}
    (h : prepared.Comes phases contacts outcome) :
    (contacts.filterMap Contact.request?).length ≤ 1 := by
  cases h with
  | unanswered hfetches => exact hfetches.length_requests_le
  | plain hfetches => exact hfetches.length_requests_le
  | unresolved hfetches =>
      rw [List.filterMap_append, List.filterMap_cons_none rfl, List.filterMap_nil, List.append_nil]
      exact hfetches.length_requests_le
  | merged hfetches =>
      rw [List.filterMap_append, List.filterMap_cons_none rfl, List.filterMap_nil, List.append_nil]
      exact hfetches.length_requests_le

end Prepared

namespace Session

variable {σ : Type} {settings : Settings} {backend : Backend σ} {session next : Session σ}

/-- The requests that have been sent so far. -/
def requests (session : Session σ) : List (Request × List QueryKey) :=
  session.cache.journal.filterMap Entry.request?

theorem requests_append {entries : List Entry}
    (h : next.cache.journal = session.cache.journal ++ entries) :
    next.requests = session.requests ++ entries.filterMap Entry.request? := by
  rw [requests, h, List.filterMap_append, requests]

theorem requests_of_entry {entry : Entry}
    (hjournal : next.cache.journal = session.cache.journal ++ [entry])
    (hsent : entry.request? = none) : next.requests = session.requests := by
  rw [requests_append hjournal, List.filterMap_cons_none hsent]
  exact List.append_nil _

theorem requests_advance (session : Session σ) (label : String) (before after : Phase) :
    (session.advance label before after).requests = session.requests :=
  requests_of_entry rfl rfl

theorem Moves.length_requests {steps : List (Phase × Phase)} {contacts : List Contact}
    (h : Moves backend session steps contacts next) :
    next.requests.length =
      session.requests.length + (contacts.filterMap Contact.request?).length := by
  obtain ⟨entries, hjournal, -, hrequests⟩ := h.journal
  rw [requests_append hjournal, List.length_append, ← hrequests, List.length_map]

theorem length_requests_fetchAndResolve_le (backend : Backend σ) (prepared : Prepared)
    (label : String) (session : Session σ) :
    (session.fetchAndResolve backend prepared label).2.requests.length ≤
      session.requests.length + 1 := by
  obtain ⟨phases, contacts, hcomes, hmoves⟩ :=
    moves_fetchAndResolve backend prepared label session
  rw [hmoves.length_requests]
  exact Nat.add_le_add_left hcomes.length_requests_le _

/-- An execution sends one request at most. -/
theorem length_requests_carryOut_le (settings : Settings) (backend : Backend σ)
    (prepared : Prepared) (force : Bool) (session : Session σ) :
    (session.carryOut settings backend prepared force).2.requests.length ≤
      session.requests.length + 1 := by
  rw [carryOut]
  split
  · have hstarted : Moves backend session _ [] (session.started prepared) :=
      moves_started session prepared
    rw [(hstarted.trans (moves_advance _ prepared.label .parsing .done)).length_requests]
    exact Nat.le_succ _
  · obtain ⟨phases, contacts, hcomes, hmoves⟩ := moves_fetchAndResolve backend prepared
      prepared.label (session.awaiting prepared)
    have hall := ((moves_awaiting session prepared).trans hmoves).trans
      (moves_conclude settings prepared _)
    rw [hall.length_requests, List.nil_append, List.append_nil]
    exact Nat.add_le_add_left hcomes.length_requests_le _

end Session

end QueryCache
