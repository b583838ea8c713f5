/-!
Texts made of lines.
-/

namespace EventManifest.Text

/-- The text of lines, each with its end. -/
def ofLines (lines : List String) : String :=
  String.join (lines.map (· ++ "\n"))

end EventManifest.Text
