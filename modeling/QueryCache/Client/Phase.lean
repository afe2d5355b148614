/-!
# Phases of an execution

An execution goes through a sequence of phases, from `idle` to `done` or to
`failed`. `Phase.canAdvance` says which steps there are.
-/

namespace QueryCache

/-- Where an execution stands. -/
inductive Phase where
  | idle
  | parsing
  | fetching
  /-- There is nothing to ask the server for. -/
  | skipFetch
  | resolving
  | merging
  | caching
  | done
  | failed
deriving DecidableEq

namespace Phase

/-- The steps from one phase to the next. -/
def canAdvance : Phase → Phase → Bool
  | idle, parsing => true
  | parsing, fetching => true
  | parsing, skipFetch => true
  | parsing, done => true
  | fetching, resolving => true
  | fetching, caching => true
  | fetching, failed => true
  | skipFetch, resolving => true
  | skipFetch, caching => true
  | resolving, merging => true
  | resolving, failed => true
  | merging, caching => true
  | caching, done => true
  | _, _ => false

/-- The execution is over. -/
def isTerminal : Phase → Bool
  | done => true
  | failed => true
  | _ => false

/-- The name of a phase. -/
def name : Phase → String
  | idle => "Idle"
  | parsing => "Parsing"
  | fetching => "Fetching"
  | skipFetch => "SkipFetch"
  | resolving => "Resolving"
  | merging => "Merging"
  | caching => "Caching"
  | done => "Done"
  | failed => "Failed"

/-- All phases in order. -/
def all : List Phase :=
  [idle, parsing, fetching, skipFetch, resolving, merging, caching, done, failed]

/-- The phase of a name. -/
def ofName? (name : String) : Option Phase :=
  all.find? fun phase => phase.name == name

theorem isTerminal_iff (phase : Phase) :
    phase.isTerminal = true ↔ ∀ next, canAdvance phase next = false := by
  constructor
  · intro h next
    cases phase <;> cases next <;> simp_all [isTerminal, canAdvance]
  · intro h
    have hstart := h parsing
    have hsplit := h fetching
    have hanswer := h resolving
    have hlocal := h merging
    have hvalue := h caching
    have hend := h done
    cases phase <;> simp_all [isTerminal, canAdvance]

end Phase

end QueryCache
