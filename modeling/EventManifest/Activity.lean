import EventManifest.Diagnostic
import EventManifest.Distinct
import EventManifest.Symbol.Table

/-!
Activities: an event that starts something and one that stops it, found by their opcodes and
consecutive values. An activity is named after what the two events' symbols have in common. A pair
without a name of its own is left out with a warning.
-/

namespace EventManifest

/-- Which end of an activity an event marks. -/
inductive Phase where
  | start
  | stop
deriving DecidableEq, Repr

namespace Phase

/-- An opcode may carry the marker of the instrumentation namespace, once. -/
def ofOpcode? (opcode : String) : Option Phase :=
  if opcode = "Start" ∨ opcode = "win:Start" then some start
  else if opcode = "Stop" ∨ opcode = "win:Stop" then some stop
  else none

end Phase

def Event.phase? (e : Event) : Option Phase :=
  e.opcode.bind Phase.ofOpcode?

namespace Activity

/-- The longest common beginning of two lists. -/
def commonChars : List Char → List Char → List Char
  | a :: as, b :: bs => if a = b then a :: commonChars as bs else []
  | _, _ => []

/-- The longest common beginning of two texts. -/
def commonPart (a b : String) : String :=
  String.ofList (commonChars a.toList b.toList)

/-- Everything up to the last underscore, or everything when there is none. -/
def cutBack (cs : List Char) : List Char :=
  if cs.contains '_' then (cs.reverse.dropWhile fun c => c != '_').reverse else cs

/-- The name of an activity: the common part of its symbols, cut back to its last underscore unless
it is one of the symbols. -/
def nameChars (start stop : List Char) : List Char :=
  let common := commonChars start stop
  if common = start ∨ common = stop then common else cutBack common

def nameOf (start stop : String) : String :=
  String.ofList (nameChars start.toList stop.toList)

/-- An event that marks an end of an activity, with its position. -/
structure Mark where
  index : Nat
  event : Event
  phase : Phase
deriving DecidableEq, Repr

/-- The marks among a provider's events. Events that are not logged mark nothing. -/
def marks (events : List Event) : List Mark :=
  events.zipIdx.filterMap fun (e, index) =>
    if e.notLogged then none else e.phase?.map fun phase => ⟨index, e, phase⟩

/-- Of two marks the one of the higher version, the first of equal ones. -/
def newer (best : Option Mark) (m : Mark) : Option Mark :=
  match best with
  | some b => if b.event.version < m.event.version then some m else some b
  | none => some m

/-- The mark that counts for a value: the one of the highest version. -/
def latest? (all : List Mark) (value : UInt16) : Option Mark :=
  (all.filter fun m => m.event.value = value).foldl newer none

/-- The marked values in increasing order. -/
def values (all : List Mark) : List UInt16 :=
  (distinct (all.map fun m => m.event.value)).mergeSort fun a b => decide (a ≤ b)

/-- Two events that belong together. -/
structure Candidate where
  /-- Positions of the events. -/
  start : Nat
  stop : Nat
  startSymbol : String
  stopSymbol : String
deriving DecidableEq, Repr

namespace Candidate

def common (c : Candidate) : String :=
  commonPart c.startSymbol c.stopSymbol

def name (c : Candidate) : String :=
  nameOf c.startSymbol c.stopSymbol

end Candidate

/-- Whether two events agree in everything that tells activities apart. -/
def agree (a b : EventDescriptor) : Bool :=
  a.channel = b.channel && a.level = b.level && a.task = b.task && a.keyword = b.keyword

/-- The pair that ends at a value: a stop without payload there, and a start just below. -/
def candidateAt? (table : SymbolTable) (all : List Mark) (value : UInt16) : Option Candidate := do
  let stop ← latest? all value
  let start ← if value = 0 then none else latest? all (value - 1)
  let stopEvent ← table.events[stop.index]?
  let startEvent ← table.events[start.index]?
  if stop.phase = .stop ∧ start.phase = .start ∧
      agree startEvent.descriptor stopEvent.descriptor ∧ stop.event.properties.isEmpty then
    some ⟨start.index, stop.index, startEvent.symbol, stopEvent.symbol⟩
  else none

/-- All pairs, by increasing value. -/
def candidates (p : Provider) (table : SymbolTable) : List Candidate :=
  let all := marks p.events
  (values all).filterMap (candidateAt? table all)

end Activity

/-- A pair of events with its name. -/
structure ActivityPair where
  symbol : String
  /-- Positions of the events. -/
  start : Nat
  stop : Nat
deriving DecidableEq, Repr

namespace Activity

/-- Why a pair is left out. -/
inductive Issue where
  /-- The symbols have nothing in common. -/
  | unnamed (c : Candidate)
  /-- The name belongs to an earlier pair. -/
  | reused (c : Candidate) (symbol : String)
deriving DecidableEq, Repr

namespace Issue

def diagnostic (provider : String) : Issue → Diagnostic
  | unnamed c =>
      { code := some .unnamedActivity
        severity := .warning
        location := (Location.ofProvider provider).atEvent c.startSymbol
        message :=
          "start/stop pair " ++ c.startSymbol ++ " / " ++ c.stopSymbol ++
            " has no common name prefix; activity helper skipped"
        hint := some "give the two events symbols sharing a prefix, e.g. Foo_Start / Foo_Stop" }
  | reused c symbol =>
      { code := some .reusedActivityName
        severity := .warning
        location := (Location.ofProvider provider).atEvent c.startSymbol
        message :=
          "start/stop pair " ++ c.startSymbol ++ " / " ++ c.stopSymbol ++
            " would reuse activity name " ++ symbol ++ "; activity helper skipped"
        hint := some "give each start/stop pair a distinct symbol prefix" }

/-- The issue in one line of the log, which calls the provider by its symbol. -/
def logText (provider : String) : Issue → String
  | unnamed c =>
      provider ++ ": no common prefix for activity " ++ c.startSymbol ++ " / " ++ c.stopSymbol
  | reused _ symbol =>
      provider ++ ": activity name " ++ symbol ++ " already taken by an earlier pair"

end Issue

/-- The pairs found and the issues met. -/
structure Scan where
  pairs : List ActivityPair
  issues : List Issue
deriving DecidableEq, Repr

/-- The name a pair gets among all: where a cut name is shared, the whole common part. -/
def finalName (named : List Candidate) (c : Candidate) : String :=
  if 1 < named.countP (fun d => d.name = c.name) then c.common else c.name

/-- Give out names from left to right. -/
def assign (named : List Candidate) (taken : List String) : List Candidate → Scan
  | [] => ⟨[], []⟩
  | c :: rest =>
      let symbol := finalName named c
      if taken.contains symbol then
        let scan := assign named taken rest
        { scan with issues := .reused c symbol :: scan.issues }
      else
        let scan := assign named (symbol :: taken) rest
        { scan with pairs := ⟨symbol, c.start, c.stop⟩ :: scan.pairs }

/-- The activities of a provider. Pairs without a name are reported before those whose name is in
use. -/
def find (p : Provider) (table : SymbolTable) : Scan :=
  let all := candidates p table
  let named := all.filter fun c => !c.name.isEmpty
  let unnamed := all.filter fun c => c.name.isEmpty
  let scan := assign named [] named
  { scan with issues := unnamed.map .unnamed ++ scan.issues }

end Activity

end EventManifest
