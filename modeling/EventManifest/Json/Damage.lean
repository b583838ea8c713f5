/-!
How a text can fail to be a document, apart from what it says.
-/

namespace EventManifest.Json

/-- A text that is no document either breaks a rule of the grammar or stops too early. -/
inductive Damage where
  | malformed
  | truncated
deriving DecidableEq, Repr

/-- A part of a document either ends as it should or breaks off. -/
inductive Ending where
  | closed
  | cut (damage : Damage)
deriving DecidableEq, Repr

/-- Nothing may be missing at the end of a part that is read. -/
def Ending.check : Ending → Except Damage Unit
  | .closed => .ok ()
  | .cut damage => .error damage

end EventManifest.Json
