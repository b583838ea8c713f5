import EventManifest.Shape.Basic

/-!
Signatures: shapes in a few characters. A letter gives the type, in upper case for an array, and
after it come constants and, behind `r` for the length and `R` for the count, positions of other
properties. The signatures of a template's properties in a row are its key; templates with equal
keys are written in the same way.
-/

namespace EventManifest

/-- Types that look alike on the wire share a letter. No type has the letter `r`. -/
def Category.letter : Category → Char
  | .struct => 'v'
  | .data inType =>
      match inType with
      | .int8 | .uint8 => 'c'
      | .int16 | .uint16 => 'h'
      | .int32 | .uint32 | .hexInt32 => 'd'
      | .int64 | .uint64 | .hexInt64 => 'x'
      | .float => 'f'
      | .double => 'g'
      | .boolean => 't'
      | .unicodeString => 'z'
      | .ansiString => 's'
      | .countedUnicodeString => 'w'
      | .countedAnsiString => 'a'
      | .binary => 'b'
      | .countedBinary => 'e'
      | .guid => 'j'
      | .fileTime => 'm'
      | .systemTime => 'y'
      | .sid => 'k'
      | .pointer => 'p'

namespace Shape

def numeral (n : Nat) : List Char :=
  Nat.toDigits 10 n

/-- The signature of a shape. A constant count of values with a constant length is written as one
value of the length in total. -/
def signatureChars (s : Shape) : List Char :=
  let lower := s.category.letter
  let upper := lower.toUpper
  match s.count, s.length with
  | none, none => [lower]
  | none, some (.fixed l) => lower :: numeral l.toNat
  | none, some (.param l) => lower :: 'r' :: numeral l
  | some (.fixed c), some (.fixed l) => lower :: numeral (c.toNat * l.toNat)
  | some (.fixed c), none => upper :: numeral c.toNat
  | some (.param c), none => upper :: 'R' :: numeral c
  | some (.fixed c), some (.param l) => upper :: numeral c.toNat ++ 'r' :: numeral l
  | some (.param c), some (.fixed l) => upper :: numeral l.toNat ++ 'R' :: numeral c
  | some (.param c), some (.param l) => upper :: 'r' :: numeral l ++ 'R' :: numeral c

def signature (s : Shape) : String :=
  String.ofList s.signatureChars

end Shape

namespace Template

/-- The key of a template: the signatures of its properties in a row. -/
def keyOf (properties : List Property) : Except Defect String := do
  return String.ofList ((← Shape.resolveAll properties).flatMap Shape.signatureChars)

end Template

end EventManifest
