import EventManifest.Json.Damage
import EventManifest.Text.Hex

/-!
Quoted text. Its escapes name 16-bit code units, and two of them, a leading and a trailing
surrogate, can name one character. `scan` finds where the text ends, for which the surrogates
do not matter; `Quoted.read` gives the characters, for which they do.
-/

namespace EventManifest.Json

/-- A character, or one half of a character given by an escape. The halves are counted from the
start of their range. -/
inductive CodeUnit where
  | char (c : Char)
  | lead (offset : Nat)
  | trail (offset : Nat)
deriving DecidableEq, Repr

/-- What stands after an opening quote, as far as it goes. -/
structure Quoted where
  units : List CodeUnit
  ending : Ending
deriving DecidableEq, Repr

namespace CodeUnit

def ofCode (code : Nat) : CodeUnit :=
  if 0xd800 ≤ code ∧ code < 0xdc00 then .lead (code - 0xd800)
  else if 0xdc00 ≤ code ∧ code < 0xe000 then .trail (code - 0xdc00)
  else .char (Char.ofNat code)

/-- The unit that an escape with four hexadecimal digits names. -/
def ofHex? (a b c d : Char) : Option CodeUnit :=
  (Text.readHex? [a, b, c, d]).map ofCode

/-- The character that a one-letter escape names. -/
def ofLetter? : Char → Option Char
  | '"' => some '"'
  | '\\' => some '\\'
  | '/' => some '/'
  | 'b' => some '\x08'
  | 'f' => some '\x0c'
  | 'n' => some '\n'
  | 'r' => some '\r'
  | 't' => some '\t'
  | _ => none

/-- The written form of a character: an escape for the quote, the backslash and the control
characters, the letter escapes where there are any. -/
def charText (c : Char) : List Char :=
  match c with
  | '"' => ['\\', '"']
  | '\\' => ['\\', '\\']
  | '\x08' => ['\\', 'b']
  | '\x0c' => ['\\', 'f']
  | '\n' => ['\\', 'n']
  | '\r' => ['\\', 'r']
  | '\t' => ['\\', 't']
  | c => if c.toNat < 0x20 then '\\' :: 'u' :: Text.fixedHex 4 c.toNat else [c]

/-- The written form of a unit. -/
def text : CodeUnit → List Char
  | .char c => charText c
  | .lead offset => '\\' :: 'u' :: Text.fixedHex 4 (0xd800 + offset)
  | .trail offset => '\\' :: 'u' :: Text.fixedHex 4 (0xdc00 + offset)

end CodeUnit

namespace Quoted

/-- Read on to the closing quote; what follows it is returned too. An escape `u` with fewer than
four bytes after it stops too early, whatever these bytes are. -/
def scan (units : List CodeUnit) : List Char → Quoted × List Char
  | [] => (⟨units.reverse, .cut .truncated⟩, [])
  | '"' :: rest => (⟨units.reverse, .closed⟩, rest)
  | ['\\'] => (⟨units.reverse, .cut .truncated⟩, [])
  | '\\' :: 'u' :: a :: b :: c :: d :: rest =>
      match CodeUnit.ofHex? a b c d with
      | some unit => scan (unit :: units) rest
      | none => (⟨units.reverse, .cut .malformed⟩, [])
  | '\\' :: 'u' :: rest =>
      let bytes := rest.foldl (fun bytes c => bytes + c.utf8Size) 0
      (⟨units.reverse, .cut (if bytes < 4 then .truncated else .malformed)⟩, [])
  | '\\' :: letter :: rest =>
      match CodeUnit.ofLetter? letter with
      | some c => scan (.char c :: units) rest
      | none => (⟨units.reverse, .cut .malformed⟩, [])
  | c :: rest =>
      if c.toNat < 0x20 then (⟨units.reverse, .cut .malformed⟩, [])
      else scan (.char c :: units) rest

/-- The characters of the units, given how they end. A half of a character counts only beside its
other half, the leading one first; after a leading half the text may also stop too early. -/
def readUnits (ending : Ending) (chars : List Char) : List CodeUnit → Except Damage (List Char)
  | [] => ending.check.map fun _ => chars.reverse
  | .char c :: rest => readUnits ending (c :: chars) rest
  | .lead high :: .trail low :: rest =>
      readUnits ending (Char.ofNat (0x10000 + 0x400 * high + low) :: chars) rest
  | [.lead _] =>
      match ending with
      | .closed => .error .malformed
      | .cut damage => .error damage
  | .lead _ :: _ :: _ => .error .malformed
  | .trail _ :: _ => .error .malformed

/-- The text itself. -/
def read (q : Quoted) : Except Damage String :=
  (readUnits q.ending [] q.units).map String.ofList

/-- Every text can be quoted. -/
def ofString (s : String) : Quoted :=
  ⟨s.toList.map .char, .closed⟩

/-- The written form, with both quotes. -/
def text (q : Quoted) : List Char :=
  '"' :: (q.units.flatMap CodeUnit.text ++ ['"'])

end Quoted

end EventManifest.Json
