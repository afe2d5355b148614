import QueryCache.Query.Parser

/-!
# Inlining named fragments

`Document.inlineFragments` puts an inline fragment in the place of every spread
that an operation reaches, with the type condition of the definition, its
directives followed by those of the spread, and its selections, inlined in
turn. The definitions are dropped. A document without definitions stays as it
is, spreads included.

The names of the fragments that are being inlined are kept in order. They are
distinct and all of them defined, so there are never more of them than
definitions; this bounds the recursion through fragments.
-/

namespace QueryCache

namespace Selection

mutual

/-- A selection in which `expand` has taken the place of every spread. -/
def expandSpreads (expand : String → List Directive → Except QueryFault Selection) :
    Selection → Except QueryFault Selection
  | field head none => .ok (field head none)
  | field head (some set) => do
    return field head (some (← expandSpreadsInAll expand set))
  | spread name directives => expand name directives
  | inline condition directives set => do
    return inline condition directives (← expandSpreadsInAll expand set)
termination_by structural selection => selection

/-- The selections of a list, each with its spreads expanded. The first failure
counts. -/
def expandSpreadsInAll
    (expand : String → List Directive → Except QueryFault Selection) :
    List Selection → Except QueryFault (List Selection)
  | [] => .ok []
  | selection :: rest => do
    let expanded ← expandSpreads expand selection
    let others ← expandSpreadsInAll expand rest
    return expanded :: others
termination_by structural set => set

end

end Selection

namespace Fragment

/-- The last fragment of this name. -/
def find? (fragments : List Fragment) (name : String) : Option Fragment :=
  fragments.reverse.find? fun fragment => fragment.name == name

/-- The inline fragment for a spread, while the fragments `visiting` are being
inlined. `fuel` is the number of definitions that are not. -/
def expand (fragments : List Fragment) :
    Nat → List String → String → List Directive → Except QueryFault Selection
  | fuel, visiting, name, directives =>
    match find? fragments name with
    | none => .error (.unknownFragment name)
    | some fragment =>
      if visiting.contains name then .error (.fragmentCycle (visiting ++ [name]))
      else
        match fuel with
        | 0 => .error (.fragmentCycle (visiting ++ [name]))
        | fuel + 1 => do
          let set ← Selection.expandSpreadsInAll
            (expand fragments fuel (visiting ++ [name])) fragment.selections
          return .inline (some fragment.condition) (fragment.directives ++ directives) set

end Fragment

namespace Document

/-- The document with an inline fragment for every spread, and without fragment
definitions. -/
def inlineFragments (d : Document) : Except QueryFault Document :=
  if d.fragments.isEmpty then .ok d
  else do
    let operations ← d.operations.mapM fun op => do
      let set ← Selection.expandSpreadsInAll
        (Fragment.expand d.fragments d.fragments.length []) op.selections
      return { op with selections := set }
    return ⟨operations, []⟩

end Document

end QueryCache
