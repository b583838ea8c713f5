/-!
What can be chosen about a header.
-/

namespace EventManifest

/-- The two ways a header can be written. -/
inductive Dialect where
  /-- Inline functions in namespaces. -/
  | functions
  /-- Macros over plain functions, in the manner of the message compiler. -/
  | macros
deriving DecidableEq, Repr

/-- The standard that namespaces and constants follow. -/
inductive Standard where
  | cxx11
  | cxx17
deriving DecidableEq, Repr

structure HeaderOptions where
  dialect : Dialect := .functions
  /-- The namespace around the declarations of the providers, its parts joined by `::`. -/
  enclosing : Option String := none
  /-- The namespace of what several headers share. -/
  shared : String := "etw"
  standard : Standard := .cxx17
  /-- What the name of a wrapper begins with. -/
  wrapperStem : String := "EventWrite"
  /-- Whether constants are declared for values that no generated code uses. -/
  constants : Bool := true
  /-- Whether each provider gets an entry in a section of its own. -/
  staticEntry : Bool := false
deriving DecidableEq, Repr

end EventManifest
