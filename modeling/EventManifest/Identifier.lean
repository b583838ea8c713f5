import EventManifest.Text.Blank

/-!
Identifiers of the generated code. An identifier is a letter or underscore followed by letters,
digits and underscores, all ASCII. `sanitize` maps every text to an identifier and leaves the
identifiers themselves alone.
-/

namespace EventManifest

/-- The characters that may stand in an identifier, the first position apart. -/
def isWordChar (c : Char) : Bool :=
  c.isAlphanum || c == '_'

/-- Whether the characters spell an identifier. -/
def isIdentifierChars : List Char → Bool
  | [] => false
  | c :: rest => (c.isAlpha || c == '_') && rest.all isWordChar

def isIdentifier (s : String) : Bool :=
  isIdentifierChars s.toList

/-- A word character stands for itself, any other becomes an underscore. -/
def toWordChar (c : Char) : Char :=
  if isWordChar c then c else '_'

/-- Every character becomes a word character. The digits that open a name become two underscores
together, however many they are, and a name without characters becomes one underscore. -/
def sanitizeChars : List Char → List Char
  | [] => ['_']
  | c :: rest =>
      if c.isDigit then '_' :: '_' :: (rest.dropWhile Char.isDigit).map toWordChar
      else toWordChar c :: rest.map toWordChar

def sanitize (name : String) : String :=
  String.ofList (sanitizeChars name.toList)

@[simp] theorem toList_sanitize (name : String) :
    (sanitize name).toList = sanitizeChars name.toList :=
  String.toList_ofList

/-- The symbol an author wrote, without blanks around it. A blank one counts as absent, and one
that is no identifier is sanitized. -/
def authored (symbol : Option String) : Option String :=
  symbol.bind fun written =>
    let trimmed := Text.trim written
    if trimmed.isEmpty then none
    else if isIdentifier trimmed then some trimmed
    else some (sanitize trimmed)

end EventManifest
