import EventManifest.Json.Token

/-!
Two written forms of a value: compact, without blanks, and pretty, with one item a line and two
blanks for each level.
-/

namespace EventManifest.Json

mutual

/-- The tokens of the written form. -/
def toTokens : Json → List Token
  | .null => [.null]
  | .bool value => [.bool value]
  | .number value => [.numeral value.numeral]
  | .string value => [.quoted (Quoted.ofString value)]
  | .array items => .openArray :: (itemTokens items ++ [.closeArray])
  | .object members => .openObject :: (memberTokens members ++ [.closeObject])

/-- The tokens between the brackets of an array. -/
def itemTokens : List Json → List Token
  | [] => []
  | [item] => toTokens item
  | item :: items => toTokens item ++ .comma :: itemTokens items

/-- The tokens between the braces of an object. -/
def memberTokens : List (String × Json) → List Token
  | [] => []
  | [(key, value)] => .quoted (Quoted.ofString key) :: .colon :: toTokens value
  | (key, value) :: members =>
      .quoted (Quoted.ofString key) :: .colon :: (toTokens value ++ .comma :: memberTokens members)

end

def compactChars (value : Json) : List Char :=
  (toTokens value).flatMap Token.text

/-- The written form without blanks. -/
def compact (value : Json) : String :=
  String.ofList (compactChars value)

/-- A line break, and the blanks that open the next line. -/
def newLine (depth : Nat) : List Char :=
  '\n' :: List.replicate (2 * depth) ' '

mutual

/-- The written form with one item a line, inside `depth` levels. -/
def prettyChars (depth : Nat) : Json → List Char
  | .null => Token.text .null
  | .bool value => Token.text (.bool value)
  | .number value => value.numeral.text
  | .string value => (Quoted.ofString value).text
  | .array [] => "[]".toList
  | .array (item :: items) => '[' :: (prettyItems depth (item :: items) ++ newLine depth ++ [']'])
  | .object [] => "\x7b\x7d".toList
  | .object (member :: members) =>
      '\x7b' :: (prettyMembers depth (member :: members) ++ newLine depth ++ ['\x7d'])

def prettyItems (depth : Nat) : List Json → List Char
  | [] => []
  | [item] => newLine (depth + 1) ++ prettyChars (depth + 1) item
  | item :: items =>
      newLine (depth + 1) ++ prettyChars (depth + 1) item ++ ',' :: prettyItems depth items

def prettyMembers (depth : Nat) : List (String × Json) → List Char
  | [] => []
  | [(key, value)] =>
      newLine (depth + 1) ++ (Quoted.ofString key).text ++ ':' :: ' ' ::
        prettyChars (depth + 1) value
  | (key, value) :: members =>
      newLine (depth + 1) ++ (Quoted.ofString key).text ++ ':' :: ' ' ::
        prettyChars (depth + 1) value ++ ',' :: prettyMembers depth members

end

def pretty (value : Json) : String :=
  String.ofList (prettyChars 0 value)

end EventManifest.Json
