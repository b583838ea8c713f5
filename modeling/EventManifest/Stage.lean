/-!
The stages of a compilation. They form a chain, so what a stage needs is the chain up to it.
-/

namespace EventManifest

inductive Stage where
  | resolve
  | plan
  | render
deriving DecidableEq, Repr

/-- What a stage leaves behind. -/
inductive Artifact where
  | symbols
  | plan
  | header
deriving DecidableEq, Repr

namespace Stage

def name : Stage → String
  | resolve => "resolve"
  | plan => "plan"
  | render => "render"

/-- The stage whose artifact a stage reads. -/
def input : Stage → Option Stage
  | resolve => none
  | plan => some resolve
  | render => some plan

def artifacts : Stage → List Artifact
  | resolve => [.symbols]
  | plan => [.plan]
  | render => [.header]

/-- What holds of a stage's artifact, in words. -/
def invariants : Stage → String
  | resolve => "every entity has a stable identifier, every event a descriptor"
  | plan => "templates deduplicated by suffix, layouts fixed by shape"
  | render => "output is a pure function of plan and options"

/-- The stages that lead to a stage, in the order in which they run. -/
def required : Stage → List Stage
  | resolve => [resolve]
  | plan => [resolve, plan]
  | render => [resolve, plan, render]

theorem required_eq (s : Stage) :
    s.required = (s.input.map required).getD [] ++ [s] := by
  cases s <;> rfl

/-- What is said when a stage fails. -/
def failure (s : Stage) : String :=
  s.name ++ " pass failed"

end Stage

end EventManifest
