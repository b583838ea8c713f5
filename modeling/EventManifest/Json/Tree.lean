import EventManifest.Json.Token

/-!
A text as a tree whose damage stays in place. A damaged text has a tree too: the part before the
damage, in which every array and object that was open there is cut. So whoever walks the tree from
left to right meets the damage exactly where someone reading the text would meet it, and whoever
steps over a part sees from its ending alone whether it was sound.

The tree is built by a machine that takes one token at a time. Its memory is the list of open
arrays and objects, so the depth of the text does not matter.
-/

namespace EventManifest.Json

inductive Tree where
  /-- Nothing stands here: the text ends, or the colon before the value is missing. -/
  | absent (damage : Damage)
  /-- What stands here is no value. The two kinds of damage are as for `Token.damage`. -/
  | broken (read : Damage) (skip : Damage)
  | null
  | bool (value : Bool)
  | numeral (value : Numeral)
  | quoted (value : Quoted)
  | array (items : List Tree) (ending : Ending)
  /-- The members in order. An object that is cut in the place of a key has `atKey`. -/
  | object (members : List (Quoted × Tree)) (atKey : Bool) (ending : Ending)
deriving Repr

namespace Tree

def malformed : Tree :=
  .broken .malformed .malformed

/-- An array or object that waits for the value read at present. Its parts so far are listed with
the latest first. -/
inductive Frame where
  | array (items : List Tree)
  | object (members : List (Quoted × Tree)) (key : Quoted)

/-- What may come next. -/
inductive State where
  /-- A value. -/
  | value (stack : List Frame)
  /-- The first element of an array, or its end. -/
  | element (stack : List Frame)
  /-- A key, or, in an object that has no members yet, its end. -/
  | key (members : List (Quoted × Tree)) (stack : List Frame)
  /-- The colon after a key. -/
  | colon (members : List (Quoted × Tree)) (key : Quoted) (stack : List Frame)
  /-- A comma or the end of an array. -/
  | afterElement (items : List Tree) (stack : List Frame)
  /-- A comma or the end of an object. -/
  | afterMember (members : List (Quoted × Tree)) (stack : List Frame)
  /-- Nothing: the value is complete. -/
  | complete (tree : Tree)
  /-- Something follows the complete value. -/
  | overfull (tree : Tree)
  /-- The text is damaged, and no more is read. -/
  | damaged (tree : Tree)

/-- A value has been read. -/
def finish (tree : Tree) : List Frame → State
  | [] => .complete tree
  | .array items :: stack => .afterElement (tree :: items) stack
  | .object members key :: stack => .afterMember ((key, tree) :: members) stack

/-- Cut all that is open around a damaged part. -/
def cut (damage : Damage) (tree : Tree) : List Frame → Tree
  | [] => tree
  | .array items :: stack => cut damage (.array (tree :: items).reverse (.cut damage)) stack
  | .object members key :: stack =>
      cut damage (.object ((key, tree) :: members).reverse false (.cut damage)) stack

/-- Read the first token of a value. -/
def startValue (stack : List Frame) : Token → State
  | .openArray => .element stack
  | .openObject => .key [] stack
  | .null => finish .null stack
  | .bool value => finish (.bool value) stack
  | .numeral value => finish (.numeral value) stack
  | .quoted value =>
      match value.ending with
      | .closed => finish (.quoted value) stack
      | .cut damage => .damaged (cut damage (.quoted value) stack)
  | .damage read skip => .damaged (cut skip (.broken read skip) stack)
  | .closeArray | .closeObject | .colon | .comma => .damaged (cut .malformed malformed stack)

/-- An object is damaged in the place of its next key. -/
def cutAtKey (damage : Damage) (members : List (Quoted × Tree)) (stack : List Frame) : Tree :=
  cut damage (.object members.reverse true (.cut damage)) stack

/-- Read the token in the place of a key. -/
def startMember (members : List (Quoted × Tree)) (stack : List Frame) : Token → State
  | .quoted key =>
      match key.ending with
      | .closed => .colon members key stack
      | .cut damage =>
          .damaged (cut damage (.absent damage) (.object members key :: stack))
  | token =>
      match members, token with
      | [], .closeObject => finish (.object [] false .closed) stack
      | members, _ => .damaged (cutAtKey .malformed members stack)

/-- Read one token. -/
def step : State → Token → State
  | .value stack, token => startValue stack token
  | .element stack, .closeArray => finish (.array [] .closed) stack
  | .element stack, token => startValue (.array [] :: stack) token
  | .key members stack, token => startMember members stack token
  | .colon members key stack, .colon => .value (.object members key :: stack)
  | .colon members key stack, _ =>
      .damaged (cut .malformed (.absent .malformed) (.object members key :: stack))
  | .afterElement items stack, .comma => .value (.array items :: stack)
  | .afterElement items stack, .closeArray => finish (.array items.reverse .closed) stack
  | .afterElement items stack, _ =>
      .damaged (cut .malformed (.array items.reverse (.cut .malformed)) stack)
  | .afterMember members stack, .comma => .key members stack
  | .afterMember members stack, .closeObject =>
      finish (.object members.reverse false .closed) stack
  | .afterMember members stack, _ =>
      .damaged (cut .malformed (.object members.reverse false (.cut .malformed)) stack)
  | .complete tree, _ => .overfull tree
  | .overfull tree, _ => .overfull tree
  | .damaged tree, _ => .damaged tree

/-- The tree at the end of the text. -/
def State.tree : State → Tree
  | .value stack => cut .truncated (.absent .truncated) stack
  | .element stack => cut .truncated (.array [] (.cut .truncated)) stack
  | .key members stack => cutAtKey .truncated members stack
  | .colon members name stack =>
      cut .truncated (.absent .truncated) (.object members name :: stack)
  | .afterElement items stack =>
      cut .truncated (.array items.reverse (.cut .truncated)) stack
  | .afterMember members stack =>
      cut .truncated (.object members.reverse false (.cut .truncated)) stack
  | .complete tree | .overfull tree | .damaged tree => tree

/-- Nothing but blanks may follow the value of a document. -/
def State.check : State → Except Damage Unit
  | .overfull _ => .error .malformed
  | _ => .ok ()

/-- Read tokens from a state on. -/
def run (state : State) (tokens : List Token) : State :=
  tokens.foldl step state

/-- Read a whole text. -/
def scan (text : List Char) : State :=
  run (.value []) (tokens text)

mutual

/-- The tree of a value's written form. -/
def ofJson : Json → Tree
  | .null => .null
  | .bool value => .bool value
  | .number value => .numeral value.numeral
  | .string value => .quoted (Quoted.ofString value)
  | .array items => .array (ofItems items) .closed
  | .object members => .object (ofMembers members) false .closed

def ofItems : List Json → List Tree
  | [] => []
  | item :: items => ofJson item :: ofItems items

def ofMembers : List (String × Json) → List (Quoted × Tree)
  | [] => []
  | (key, value) :: members => (Quoted.ofString key, ofJson value) :: ofMembers members

end

end Tree

end EventManifest.Json
