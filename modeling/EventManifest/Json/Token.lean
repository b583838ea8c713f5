import EventManifest.Json.Quoted
import EventManifest.Json.Value

/-!
A text as a list of tokens. Blanks between tokens are dropped. The list ends with the first
damage: nothing after it is looked at.
-/

namespace EventManifest.Json

inductive Token where
  | openArray
  | closeArray
  | openObject
  | closeObject
  | colon
  | comma
  | null
  | bool (value : Bool)
  | numeral (value : Numeral)
  | quoted (value : Quoted)
  /-- No token stands here. The two kinds are what one is told who reads here for a value, and
  what one is told who only steps over a value; they differ for a numeral that stops too early. -/
  | damage (read : Damage) (skip : Damage)
deriving DecidableEq, Repr

/-- Blanks between tokens. -/
def isSpace (c : Char) : Bool :=
  c == ' ' || c == '\n' || c == '\t' || c == '\r'

/-- A token read from the front of a text, and the text after it. -/
abbrev Lexeme := Token × List Char

/-- Damage ends the text. -/
def Lexeme.broken (read skip : Damage) : Lexeme :=
  (.damage read skip, [])

/-- Read the rest of a word that must stand here. -/
def lexWord (token : Token) : (word : List Char) → List Char → Lexeme
  | [], cs => (token, cs)
  | _ :: _, [] => .broken .truncated .truncated
  | w :: word, c :: cs => if c = w then lexWord token word cs else .broken .malformed .malformed

/-- A numeral broke off: at the end of the text it stops too early for one who reads it. -/
def brokenNumeral (rest : List Char) : Lexeme :=
  .broken (if rest.isEmpty then .truncated else .malformed) .malformed

/-- Read an exponent, if one follows. -/
def lexExponent (numeral : Numeral) : List Char → Lexeme
  | [] => (.numeral numeral, [])
  | c :: cs =>
      if c = 'e' ∨ c = 'E' then
        let (negative, cs) :=
          match cs with
          | '+' :: cs => (false, cs)
          | '-' :: cs => (true, cs)
          | cs => (false, cs)
        let digits := cs.takeWhile Char.isDigit
        let rest := cs.dropWhile Char.isDigit
        if digits.isEmpty then brokenNumeral rest
        else (.numeral { numeral with exponent := some (negative, digits) }, rest)
      else (.numeral numeral, c :: cs)

/-- Read a fraction, if one follows, and then an exponent. -/
def lexFraction (numeral : Numeral) : List Char → Lexeme
  | '.' :: cs =>
      let digits := cs.takeWhile Char.isDigit
      let rest := cs.dropWhile Char.isDigit
      if digits.isEmpty then brokenNumeral rest
      else lexExponent { numeral with fraction := some digits } rest
  | cs => lexExponent numeral cs

/-- Read a numeral whose sign is known. No digit may follow a leading zero. -/
def lexNumeral (below : Bool) (cs : List Char) : Lexeme :=
  let digits := cs.takeWhile Char.isDigit
  let rest := cs.dropWhile Char.isDigit
  match digits with
  | [] => brokenNumeral rest
  | ['0'] => lexFraction ⟨below, ['0'], none, none⟩ rest
  | '0' :: _ => .broken .malformed .malformed
  | _ => lexFraction ⟨below, digits, none, none⟩ rest

/-- Read one token. The first character says which kind it is. -/
def lexToken (c : Char) (cs : List Char) : Lexeme :=
  match c with
  | '[' => (.openArray, cs)
  | ']' => (.closeArray, cs)
  | '\x7b' => (.openObject, cs)
  | '\x7d' => (.closeObject, cs)
  | ':' => (.colon, cs)
  | ',' => (.comma, cs)
  | 'n' => lexWord .null "ull".toList cs
  | 't' => lexWord (.bool true) "rue".toList cs
  | 'f' => lexWord (.bool false) "alse".toList cs
  | '-' => lexNumeral true cs
  | '"' =>
      let (quoted, rest) := Quoted.scan [] cs
      (.quoted quoted, rest)
  | c => if c.isDigit then lexNumeral false (c :: cs) else .broken .malformed .malformed

/-- The tokens of a text. Each step uses up a character, so the length of the text is fuel enough.
-/
def tokensWithin : (fuel : Nat) → List Char → List Token
  | 0, _ => []
  | _ + 1, [] => []
  | fuel + 1, c :: cs =>
      if isSpace c then tokensWithin fuel cs
      else
        let (token, rest) := lexToken c cs
        token :: tokensWithin fuel rest

def tokens (cs : List Char) : List Token :=
  tokensWithin cs.length cs

/-- The written form of a token. Damage has none. -/
def Token.text : Token → List Char
  | .openArray => ['[']
  | .closeArray => [']']
  | .openObject => ['\x7b']
  | .closeObject => ['\x7d']
  | .colon => [':']
  | .comma => [',']
  | .null => "null".toList
  | .bool true => "true".toList
  | .bool false => "false".toList
  | .numeral value => value.text
  | .quoted value => value.text
  | .damage _ _ => []

end EventManifest.Json
