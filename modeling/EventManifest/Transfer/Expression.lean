import EventManifest.Shape.Basic
import EventManifest.Transfer.Native

/-!
Expressions over the parameters of a template, and what is promised about the memory behind a
parameter. They refer to parameters by position; a `Naming` spells them.
-/

namespace EventManifest

/-- How parameters are called. -/
structure Naming where
  /-- The data parameter of a property. -/
  data : Nat → String
  /-- The length parameter of a property. -/
  length : Nat → String

namespace Naming

/-- The names in a template: the position of the property after `_Arg`. -/
def positional : Naming where
  data index := s!"_Arg{index}"
  length index := s!"_Arg{index}_Len"

/-- The names in the wrapper of an event, one given for each property. -/
def named (names : List String) : Naming where
  data index := names.getD index ""
  length index := names.getD index "" ++ "_Len"

end Naming

inductive Operand where
  | literal (value : Nat)
  /-- The data parameter of a property. -/
  | arg (index : Nat)
  /-- The length parameter of a property. -/
  | lengthArg (index : Nat)
deriving DecidableEq, Repr

namespace Operand

def ofBound : Bound → Operand
  | .fixed value => literal value.toNat
  | .param index => arg index

def spell (names : Naming) : Operand → String
  | literal value => s!"{value}"
  | arg index => names.data index
  | lengthArg index => names.length index

/-- A product, spelled with asterisks. -/
def spellProduct (names : Naming) (factors : List Operand) : String :=
  " * ".intercalate (factors.map (spell names))

end Operand

/-- Where the bytes of a slot are. -/
inductive PointerExpr where
  | addressOf (operand : Operand)
  | value (operand : Operand)
  /-- The argument, or the text `NULL` in the place of a null argument. -/
  | stringOrNull (index : Nat) (wide : Bool)
deriving DecidableEq, Repr

/-- How many bytes a slot has. -/
inductive SizeExpr where
  /-- The product of the factors and the size of the element. -/
  | scaled (element : ElementType) (factors : List Operand)
  | bytes (operand : Operand)
  /-- The bytes of a terminated string with its terminator, or those of the text `NULL`. -/
  | terminatedString (index : Nat) (wide : Bool)
  | sid (index : Nat)
deriving DecidableEq, Repr

/-- How much may be read behind a parameter. -/
inductive Extent where
  | single
  | elements (factors : List Operand)
  | bytes (factors : List Operand)
deriving DecidableEq, Repr

/-- What is promised about the memory behind a parameter. It is only read. -/
structure Access where
  optional : Bool
  zeroTerminated : Bool
  extent : Extent
deriving DecidableEq, Repr

namespace Access

def single : Access :=
  ⟨false, false, .single⟩

def elements (factors : List Operand) : Access :=
  ⟨false, false, .elements factors⟩

def bytes (factors : List Operand) : Access :=
  ⟨false, false, .bytes factors⟩

/-- The promise as an annotation of the declaration. -/
def marker (names : Naming) (a : Access) : String :=
  match a.extent with
  | .single =>
      match a.optional, a.zeroTerminated with
      | true, true => "_In_opt_z_"
      | true, false => "_In_opt_"
      | false, true => "_In_z_"
      | false, false => "_In_"
  | .elements factors => "_In_reads_(" ++ Operand.spellProduct names factors ++ ")"
  | .bytes factors => "_In_reads_bytes_(" ++ Operand.spellProduct names factors ++ ")"

/-- The promise in words. -/
def describe (names : Naming) (a : Access) : String :=
  let presence := if a.optional then "optional" else "required"
  let extent :=
    match a.extent with
    | .single => if a.zeroTerminated then "NUL-terminated" else "one value"
    | .elements factors => Operand.spellProduct names factors ++ " elements"
    | .bytes factors => Operand.spellProduct names factors ++ " bytes"
  s!"read-only, {presence}, {extent}"

end Access

/-- What the caller has to know about an array that is passed as one block of bytes. -/
inductive PackingNote where
  /-- Values that each carry their length. -/
  | chunks (count : Operand)
  /-- Strings of one length. -/
  | equalStrings (count length : Operand)
  | terminatedStrings (count : Operand)
  | sids (count : Operand)
  | structs (count : Operand)
deriving DecidableEq, Repr

def PackingNote.text (names : Naming) : PackingNote → String
  | chunks count =>
      "packed: blob contains " ++ count.spell names ++
        " concatenated chunks, each chunk = 16-bit length prefix + data"
  | equalStrings count length =>
      "packed: each of " ++ count.spell names ++ " strings has the same length " ++
        length.spell names
  | terminatedStrings count =>
      "packed: blob contains " ++ count.spell names ++ " concatenated NUL-terminated strings"
  | sids count => "packed: blob contains " ++ count.spell names ++ " SIDs back to back"
  | structs count => "packed: blob contains " ++ count.spell names ++ " structs back to back"

end EventManifest
