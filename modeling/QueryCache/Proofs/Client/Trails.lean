import QueryCache.Proofs.Client.Termination

/-!
# What a reported cycle tells

Chains are put together while the re-runs of many branches take turns in one list. What
an operation reports as a cycle is still a path of causes: `Trail` says that each query of
the path was executed and reported the next one, in this order. `Run.trail_of_cyclic`
says that the reported cycle is such a path, from the query with which the operation
began, and that it holds no query twice before its last one.

A turn puts the queries on the list that an execution has just reported, so it makes the
trail of its own re-run longer by one (`WorkList.Turn.traced`). The trails of the others
stay what they are while the history grows.
-/

namespace QueryCache

open Session (Executed Rerun mem_rerunsOf rerunsOf)

/-- The history has a query executed, whose outcome reports queries, and then goes on. -/
def Reports (query : QueryKey) (invalidation : Invalidation) (entries later : List Entry) :
    Prop :=
  ∃ before between state count,
    entries = before ++ .executed query :: between ++
      .wrote query state count invalidation :: later ∧
    ∀ entry ∈ between, entry.isProgress = true

namespace Reports

variable {query : QueryKey} {invalidation : Invalidation} {entries later : List Entry}

theorem prepend (h : Reports query invalidation entries later) (new : List Entry) :
    Reports query invalidation (new ++ entries) later := by
  obtain ⟨before, between, state, count, hentries, hbetween⟩ := h
  refine ⟨new ++ before, between, state, count, ?_, hbetween⟩
  simp only [hentries, List.append_assoc]

theorem append (h : Reports query invalidation entries later) (new : List Entry) :
    Reports query invalidation (entries ++ new) (later ++ new) := by
  obtain ⟨before, between, state, count, hentries, hbetween⟩ := h
  refine ⟨before, between, state, count, ?_, hbetween⟩
  simp only [hentries, List.append_assoc, List.cons_append]

end Reports

/-- A path through a history. It starts at a query that is among the reported ones. Each
query of it but the last has been executed and has reported the next one, and the path
goes on in what comes after that. -/
inductive Trail : List QueryKey → List QueryKey → List Entry → Prop
  | last {reported : List QueryKey} {query : QueryKey} {entries : List Entry}
      (mem : query ∈ reported) : Trail reported [query] entries
  | cause {reported path : List QueryKey} {query : QueryKey} {invalidation : Invalidation}
      {entries later : List Entry} (mem : query ∈ reported)
      (reports : Reports query invalidation entries later)
      (trail : Trail invalidation.queries path later) : Trail reported (query :: path) entries

namespace Trail

variable {reported more path : List QueryKey} {entries : List Entry}

theorem mono (h : Trail reported path entries) (hsub : reported ⊆ more) :
    Trail more path entries := by
  cases h with
  | last hmem => exact .last (hsub hmem)
  | cause hmem hreports htrail => exact .cause (hsub hmem) hreports htrail

theorem prepend (h : Trail reported path entries) (new : List Entry) :
    Trail reported path (new ++ entries) := by
  cases h with
  | last hmem => exact .last hmem
  | cause hmem hreports htrail => exact .cause hmem (hreports.prepend new) htrail

theorem append (h : Trail reported path entries) (new : List Entry) :
    Trail reported path (entries ++ new) := by
  induction h with
  | last hmem => exact .last hmem
  | cause hmem hreports _ ih => exact .cause hmem (hreports.append new) ih

/-- A trail goes on where it has come to. -/
theorem trans {key : QueryKey} {others : List QueryKey} {new : List Entry}
    (h : Trail reported (path ++ [key]) entries) (h' : Trail [key] others new) :
    Trail reported (path ++ others) (entries ++ new) := by
  induction path generalizing reported entries with
  | nil =>
      have hkey : key ∈ reported := by
        cases h with
        | last hmem => exact hmem
        | cause hmem => exact hmem
      refine (h'.mono fun query hquery => ?_).prepend entries
      exact List.mem_singleton.1 hquery ▸ hkey
  | cons query path ih =>
      generalize hwhole : query :: path ++ [key] = whole at h
      cases h with
      | last => simp at hwhole
      | cause hmem hreports htrail =>
          obtain ⟨rfl, rfl⟩ := List.cons.inj hwhole
          exact .cause hmem (hreports.append new) (ih htrail)

end Trail

variable {σ : Type} {settings : Settings} {backend : Backend σ}

theorem Session.Executed.reports {prepared : Prepared} {session next : Session σ}
    {invalidation : Invalidation}
    (h : Executed settings backend prepared session invalidation next) :
    ∃ new later, next.cache.journal = session.cache.journal ++ new ∧
      Reports prepared.key invalidation new later := by
  obtain ⟨between, after, count, hjournal, hbetween, -⟩ := h.journal
  exact ⟨_, after, hjournal.trans (List.append_assoc _ _ _), [], between, _, count, rfl, hbetween⟩

/-! ### The chains of the list -/

/-- Since the origin has reported queries, the journal has gained these entries, and they
hold a trail from one of the reported queries to each re-run in the list: the chain of the
re-run, without the origin. -/
structure WorkList.Traced (start : Session σ) (origin reported : List QueryKey)
    (entries : List Entry) (work : WorkList σ) : Prop where
  journal : work.session.cache.journal = start.cache.journal ++ entries
  trail : ∀ rerun ∈ work.reruns, ∃ path, rerun.chain = origin ++ path ∧
    Trail reported (path ++ [rerun.key]) entries

namespace WorkList

variable {known : List QueryKey} {start : Session σ} {origin reported : List QueryKey}
  {entries : List Entry} {work next : WorkList σ}

/-- The list begins with the reported queries themselves. -/
theorem traced_rerunsOf (origin : List QueryKey) (invalidation : Invalidation)
    (session : Session σ) :
    Traced session origin invalidation.queries [] ⟨rerunsOf origin invalidation, session⟩ where
  journal := (List.append_nil _).symm
  trail rerun hrerun := by
    obtain ⟨hquery, hchain⟩ := mem_rerunsOf.1 hrerun
    exact ⟨[], by rw [hchain, List.append_nil], .last hquery⟩

theorem Turn.traced (h : Turn settings backend work next) (hsound : work.session.Sound)
    (hwork : work.Traced start origin reported entries) :
    ∃ entries, next.Traced start origin reported entries := by
  obtain ⟨rerun, rest, hreruns, -, hturn⟩ := turn_cases h
  have hkept : ∀ new, ∀ other ∈ rest, ∃ path, other.chain = origin ++ path ∧
      Trail reported (path ++ [other.key]) (entries ++ new) := by
    intro new other hother
    obtain ⟨path, hchain, htrail⟩ :=
      hwork.trail other (hreruns ▸ List.mem_cons_of_mem _ hother)
    exact ⟨path, hchain, htrail.append new⟩
  rcases hturn with ⟨-, rfl⟩ | ⟨prepared, invalidation, session, hprepared, hexecuted, rfl⟩
  · refine ⟨entries ++ [.skipped rerun.key], ?_, hkept _⟩
    rw [← List.append_assoc, ← hwork.journal]
    rfl
  · obtain ⟨new, later, hjournal, hreports⟩ := hexecuted.reports
    rw [(hsound.registered hprepared).1] at hreports
    refine ⟨entries ++ new, ?_, fun other hother => ?_⟩
    · rw [hjournal, hwork.journal, List.append_assoc]
    · rcases List.mem_append.1 hother with hother | hother
      · exact hkept new other hother
      · obtain ⟨hquery, hchain⟩ := mem_rerunsOf.1 hother
        obtain ⟨path, hpath, htrail⟩ := hwork.trail rerun (hreruns ▸ List.mem_cons_self)
        have hstep : Trail [rerun.key] [rerun.key, other.key] new :=
          .cause (List.mem_singleton_self _) hreports (.last hquery)
        refine ⟨path ++ [rerun.key], ?_, ?_⟩
        · rw [hchain, hpath, List.append_assoc]
        · rw [List.append_assoc]
          exact htrail.trans hstep

theorem Turns.traced (h : Turns settings backend work next) (hbackend : backend.Ordered)
    (hwithin : work.Within known) (hwork : work.Traced start origin reported entries) :
    next.Within known ∧ ∃ entries, next.Traced start origin reported entries := by
  refine h.keep
    (fun next => next.Within known ∧ ∃ entries, next.Traced start origin reported entries)
    ⟨hwithin, entries, hwork⟩ ?_
  rintro work' next' hturn ⟨hwithin', entries', hwork'⟩
  exact ⟨hturn.within hbackend hwithin', hturn.traced hwithin'.sound hwork'⟩

end WorkList

/-- What a propagation has come to that has given up: a chain that leads on from the
origin, and a query that ends it. -/
structure Session.GivesUp (settings : Settings) (session : Session σ) (origin : List QueryKey)
    (invalidation : Invalidation) (cycle : List String) (next : Session σ)
    (path : List QueryKey) (key : QueryKey) (entries : List Entry) : Prop where
  cycle : cycle = (origin ++ path ++ [key]).map QueryKey.text
  journal : next.cache.journal = session.cache.journal ++ entries ++
    [.aborted ((origin ++ path).length + 1)]
  distinct : (origin ++ path).Nodup
  blocked : key ∈ origin ++ path ∨ settings.maxInvalidationDepth ≤ (origin ++ path).length
  trail : Trail invalidation.queries (path ++ [key]) entries

/-- Propagation gives up at a blocked re-run, and reports the chain of this one. -/
theorem WorkList.Ends.givesUp {known : List QueryKey} {origin : List QueryKey}
    {invalidation : Invalidation} {session next : Session σ} {cycle : List String}
    (h : Ends settings backend ⟨rerunsOf origin invalidation, session⟩
      (.error (.cyclic cycle), next))
    (hbackend : backend.Ordered)
    (hwithin : Within known ⟨rerunsOf origin invalidation, session⟩) :
    ∃ path key entries, session.GivesUp settings origin invalidation cycle next path key
      entries := by
  generalize hout : (Except.error (Failure.cyclic cycle), next) = out at h
  cases h with
  | finished turns => cases hout
  | @blocked rerun rest last turns hblocked =>
      obtain ⟨rfl, rfl⟩ : cycle = (rerun.chain ++ [rerun.key]).map QueryKey.text ∧
          next = (last.abort rerun).2 := by
        cases hout
        exact ⟨rfl, rfl⟩
      obtain ⟨hlast, entries, htraced⟩ :=
        turns.traced hbackend hwithin (traced_rerunsOf origin invalidation session)
      obtain ⟨path, hchain, htrail⟩ := htraced.trail rerun List.mem_cons_self
      have hdistinct := hlast.distinct rerun List.mem_cons_self
      have hjournal : (last.abort rerun).2.cache.journal =
          session.cache.journal ++ entries ++ [.aborted (rerun.chain.length + 1)] := by
        rw [← htraced.journal]
        exact congrArg (fun count => last.cache.journal ++ [Entry.aborted count])
          List.length_append
      rw [Rerun.Blocked] at hblocked
      rw [hchain] at hdistinct hjournal hblocked
      exact ⟨path, rerun.key, entries, by rw [hchain], hjournal, hdistinct, hblocked, htrail⟩

/-! ### Operations -/

namespace Client

/-- A path of causes through what a call has added to the journal. A query that is called
for is executed first. A mutation leads to one of the queries that its own answer has
reported. A write through a handle stands for an execution of the query of the handle. -/
def Trails (client : Client σ) : Call σ → List QueryKey → List Entry → Prop
  | .query source vars, path, entries =>
    ∃ document, source.document = .ok document ∧
      Trail [.ofQuery document vars] path entries
  | .refetch source vars, path, entries =>
    ∃ document, source.document = .ok document ∧
      Trail [.ofQuery document vars] path entries
  | .mutate _ _, path, entries =>
    ∃ before count invalidation later,
      entries = before ++ .wroteEntities none count invalidation :: later ∧
        (∀ entry ∈ before, entry.isProgress = true) ∧ Trail invalidation.queries path later
  | .write handle data, path, entries =>
    ∃ held rest count invalidation later, client.handles[handle]? = some held ∧
      path = held.key :: rest ∧
        entries = .wrote held.key (.ready data) count invalidation :: later ∧
          Trail invalidation.queries rest later
  | _, _, _ => False

/-- A call has written, noting this in the journal, and then propagation has reported a
cycle. A trail through the propagation is the end of one through the call. -/
structure Reaches (settings : Settings) (backend : Backend σ) (client : Client σ)
    (call : Call σ) (cycle : List String) (next session : Session σ)
    (origin : Option QueryKey) (invalidation : Invalidation) (opened : List Entry) : Prop where
  propagates : client.Propagates settings backend origin invalidation session
  ends : WorkList.Ends settings backend ⟨rerunsOf origin.toList invalidation, session⟩
    (.error (.cyclic cycle), next)
  journal : session.cache.journal = client.session.cache.journal ++ opened
  trails : ∀ {path entries}, Trail invalidation.queries path entries →
    client.Trails call (origin.toList ++ path) (opened ++ entries)

end Client

namespace Session

/-- The key of a prepared query is that of the query as it was given. -/
theorem key_of_prepare {source : QuerySource} {vars : Variables} {prepared : Prepared}
    {session start : Session σ}
    (h : session.prepare settings source vars = (.ok prepared, start)) :
    ∃ document, source.document = .ok document ∧ prepared.key = .ofQuery document vars := by
  obtain ⟨document, hdocument, hprepared⟩ := exists_of_bind_eq_ok (prepare_eq_ok h).1
  obtain ⟨inlined, -, hsplit⟩ := exists_of_bind_eq_ok hprepared
  cases hsplit
  exact ⟨document, hdocument, rfl⟩

open Client (Reaches)

variable {client : Client σ} {source : QuerySource} {vars : Variables} {next : Session σ}
  {cycle : List String}

theorem reaches_of_run {force : Bool} {call : Call σ} (hvars : Json.Ordered (.object vars))
    (hcall : ∀ {document path entries}, source.document = .ok document →
      Trail [.ofQuery document vars] path entries → client.Trails call path entries)
    (h : client.session.run settings backend source vars force =
      (.error (.cyclic cycle), next)) :
    ∃ session origin invalidation opened, Reaches settings backend client call cycle next
      session origin invalidation opened := by
  rcases prepare_cases settings source vars client.session with
    ⟨fault, hprepare⟩ | ⟨prepared, -, hprepare, -⟩
  · rw [run, hprepare] at h
    cases h
  · obtain ⟨document, hdocument, hkey⟩ := key_of_prepare hprepare
    have hends : WorkList.Ends settings backend _ _ := ends_run force hprepare
    rw [h] at hends
    have hpropagates : client.Propagates settings backend _ _ _ :=
      .run hvars force hprepare (Session.execute_eq ..)
    rcases executed_or_fresh settings backend prepared force
        (Session.register _ prepared) with hexecuted | ⟨-, heq⟩
    · obtain ⟨new, later, hjournal, hreports⟩ := hexecuted.reports
      refine ⟨_, _, _, _, hpropagates, hends, hjournal.trans (List.append_assoc _ _ _), ?_⟩
      intro path entries htrail
      refine hcall hdocument (.cause ?_ ((hreports.prepend _).append entries)
        (htrail.prepend later))
      exact List.mem_singleton.2 hkey
    · rw [opening_of_unreported (congrArg Prod.fst heq)] at hends
      cases hends.eq_of_nil

theorem reaches_of_mutate (hvars : Json.Ordered (.object vars))
    (h : client.session.mutate settings backend source vars = (.error (.cyclic cycle), next)) :
    ∃ session origin invalidation opened, Reaches settings backend client
      (.mutate source vars) cycle next session origin invalidation opened := by
  have hbegin := noted_advance client.session "mutation" .idle .parsing
  rcases prepare_cases settings source vars
      (client.session.advance "mutation" .idle .parsing) with
    ⟨fault, hprepare⟩ | ⟨prepared, -, hprepare, -⟩
  · rw [mutate_of_refused hprepare] at h
    cases h
  · have hanswers := answers_fetchAndResolve backend prepared prepared.label
      ((client.session.advance "mutation" .idle .parsing).note
        (.split prepared.split.foundLocal prepared.split.sendToServer))
    have hnoted := (hbegin.trans (noted_note _ rfl)).trans hanswers.noted
    rcases hfetch : Session.fetchAndResolve backend prepared prepared.label _ with
      ⟨failure | answer, answered⟩
    · rw [mutate_of_failed hprepare hfetch] at h
      cases h
    · rw [hfetch] at hnoted
      obtain ⟨before, hjournal, hbefore⟩ :=
        (hnoted.trans (noted_advance answered prepared.label answer.2 .caching)).journal
      have hpropagates : client.Propagates settings backend _ _ _ :=
        .mutate hvars hprepare hfetch
      have hends := WorkList.ends_propagate settings backend none
        (answered.absorb settings prepared.label answer).1
        (answered.absorb settings prepared.label answer).2
      rw [mutate_of_answered hprepare hfetch] at h
      rw [WorkList.eq_of_returning h] at hends
      let count := (flatten answer.1 settings.identity).length
      refine ⟨_, _, _, before ++ [.wroteEntities none count
          (answered.absorb settings prepared.label answer).1,
        .advanced prepared.label .caching .done], hpropagates, hends, ?_, ?_⟩
      · rw [← List.append_assoc, ← hjournal]
        exact List.append_assoc _ _ _
      · intro path entries htrail
        refine ⟨before, count, _, .advanced prepared.label .caching .done :: entries, ?_,
          hbefore, htrail.prepend [_]⟩
        rw [List.append_assoc]
        rfl

theorem reaches_of_writeQuery {handle : Nat} {held : Held} {data : Json}
    (hheld : client.handles[handle]? = some held) (hdata : data.Ordered)
    (h : client.session.writeQuery settings backend held.key data =
      (.error (.cyclic cycle), next)) :
    ∃ session origin invalidation opened, Reaches settings backend client
      (.write handle data) cycle next session origin invalidation opened := by
  have hpropagates : client.Propagates settings backend _ _ _ := .write hheld hdata
  have hends : WorkList.Ends settings backend ⟨rerunsOf (some held.key).toList _, _⟩
      (client.session.writeQuery settings backend held.key data) :=
    WorkList.ends_propagate settings backend (some held.key) _ _
  rw [h] at hends
  refine ⟨_, _, _, _, hpropagates, hends, rfl, ?_⟩
  intro path entries htrail
  exact ⟨held, path, _, _, entries, hheld, rfl, rfl, htrail⟩

end Session

/-- A call that ends at a cycle has got there by propagation. -/
theorem Client.exists_reaches {client next : Client σ} {call : Call σ}
    (hcall : call.Ordered) {cycle : List String}
    (h : client.perform settings backend call = (some (.cyclic cycle), next)) :
    ∃ session origin invalidation opened, Reaches settings backend client call cycle
      next.session session origin invalidation opened := by
  cases call with
  | query source vars =>
      exact Session.reaches_of_run hcall (fun hdocument htrail => ⟨_, hdocument, htrail⟩)
        (eq_of_resume h)
  | refetch source vars =>
      exact Session.reaches_of_run hcall (fun hdocument htrail => ⟨_, hdocument, htrail⟩)
        (eq_of_resume h)
  | mutate source vars => exact Session.reaches_of_mutate hcall (eq_of_resume h)
  | evict key => cases h
  | elapse world => cases h
  | read source vars =>
      rw [perform] at h
      cases hread : client.session.readQuery source vars with
      | ok answer =>
          rw [hread] at h
          cases h
      | error failure =>
          have hrefusal := Session.canRefuse_of_readQuery hread
          rw [hread] at h
          cases h
          cases hrefusal
  | write handle data =>
      rw [perform] at h
      cases hheld : client.handles[handle]? with
      | none =>
          rw [hheld] at h
          cases h
      | some held =>
          rw [hheld] at h
          exact Session.reaches_of_writeQuery hheld hcall (eq_of_resume h)

/-- A cycle that a call reports is a path of causes through what the call has done. Its
queries before the last are different, and the last one is among them or comes too late
for the settings. -/
theorem Run.trail_of_cyclic {log : List Made} {client : Client σ}
    (h : Run settings backend log client) (hbackend : backend.Ordered) {call : Call σ}
    (hcall : call.Ordered) {cycle : List String} {next : Client σ}
    (hcyclic : client.perform settings backend call = (some (.cyclic cycle), next)) :
    ∃ chain key entries,
      cycle = (chain ++ [key]).map QueryKey.text ∧
      next.session.cache.journal =
        client.session.cache.journal ++ entries ++ [.aborted (chain.length + 1)] ∧
      client.Trails call (chain ++ [key]) entries ∧
      chain.Nodup ∧
      (key ∈ chain ∨ settings.maxInvalidationDepth ≤ chain.length) := by
  obtain ⟨session, origin, invalidation, opened, hreaches⟩ :=
    Client.exists_reaches hcall hcyclic
  obtain ⟨path, key, entries, hgivesUp⟩ := hreaches.ends.givesUp hbackend
    (hreaches.propagates.within hbackend (h.sound hbackend))
  refine ⟨origin.toList ++ path, key, opened ++ entries, hgivesUp.cycle, ?_, ?_,
    hgivesUp.distinct, hgivesUp.blocked⟩
  · rw [hgivesUp.journal, hreaches.journal, List.append_assoc client.session.cache.journal]
  · rw [List.append_assoc]
    exact hreaches.trails hgivesUp.trail

/-- The name of a user is fetched again, which changes the rank, and the rank's own news
name the query for the name once more. -/
theorem trail_of_renamed_user :
    let call := Call.refetch (QuerySource.onUser "name") []
    let next := (clubClient.2.perform .standard clubServer call).2
    let cycle := [QueryKey.onUser "name", .onUser "rank", .onUser "name"].map QueryKey.text
    Run .standard clubServer clubClient.1 clubClient.2 ∧ clubServer.Ordered ∧
      call.Ordered ∧
      clubClient.2.perform .standard clubServer call = (some (.cyclic cycle), next) ∧
      ∃ chain key entries,
        cycle = (chain ++ [key]).map QueryKey.text ∧
        next.session.cache.journal =
          clubClient.2.session.cache.journal ++ entries ++ [.aborted (chain.length + 1)] ∧
        clubClient.2.Trails call (chain ++ [key]) entries ∧
        chain.Nodup ∧
        (key ∈ chain ∨ (Settings.standard).maxInvalidationDepth ≤ chain.length) := by
  intro call next cycle
  have hcyclic : clubClient.2.perform .standard clubServer call =
      (some (.cyclic cycle), next) := Client.perform_of_fst (by decide +kernel)
  have hcall : call.Ordered := Json.ordered_emptyObject
  exact ⟨run_clubClient, ordered_clubServer, hcall, hcyclic,
    Run.trail_of_cyclic run_clubClient ordered_clubServer hcall hcyclic⟩

end QueryCache
