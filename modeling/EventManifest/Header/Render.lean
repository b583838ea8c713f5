import EventManifest.Header.Functions
import EventManifest.Header.Macros
import EventManifest.Text.Lines

/-!
The header of a plan.
-/

namespace EventManifest.Header

def linesOf (o : HeaderOptions) (plan : GenerationPlan) : List String :=
  match o.dialect with
  | .functions => Functions.lines o plan
  | .macros => Macros.lines o plan

def render (o : HeaderOptions) (plan : GenerationPlan) : String :=
  Text.ofLines (linesOf o plan)

end EventManifest.Header
