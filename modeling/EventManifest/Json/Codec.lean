import EventManifest.Json.Fault

/-!
A codec reads values of one type and writes them. It reads either from the tree of a text, where
damage is still possible, or from a value that has been read in full; it always writes a value.
-/

namespace EventManifest.Json

/-- What values can be read from. -/
class Source (σ : Type) where
  found : σ → Except Fault Found
  isNull : σ → Bool

def Tree.isNull : Tree → Bool
  | .null => true
  | _ => false

def isNull : Json → Bool
  | .null => true
  | _ => false

instance : Source Tree := ⟨Tree.found, Tree.isNull⟩

instance : Source Json := ⟨fun value => .ok value.found, Json.isNull⟩

/-- Reading takes the room that is left for nesting. -/
structure Codec (σ α : Type) where
  read : (room : Nat) → σ → Except Fault α
  write : α → Json

namespace Codec

variable {σ α β : Type}

/-- A value that is seen at one glance. -/
def scalar [Source σ] (interpret : Found → Except Fault α) (write : α → Json) : Codec σ α where
  read _ source := do interpret (← Source.found source)
  write := write

/-- The same values under another type. -/
def convert (c : Codec σ α) (forth : α → β) (back : β → α) : Codec σ β where
  read room source := (c.read room source).map forth
  write b := c.write (back b)

def text [Source σ] : Codec σ String :=
  scalar
    (fun
      | .string value => .ok value
      | other => reject (.invalidType other "a string"))
    .string

def flag [Source σ] : Codec σ Bool :=
  scalar
    (fun
      | .bool value => .ok value
      | other => reject (.invalidType other "a boolean"))
    .bool

/-- A natural number of at most `bits` bits. -/
def natural [Source σ] (bits : Nat) : Codec σ Nat :=
  scalar
    (fun
      | .number (.natural n) =>
          if n < Nat.pow 2 bits then .ok n
          else reject (.invalidValue (.number (.natural n)) s!"u{bits}")
      | .number (.negative n) => reject (.invalidValue (.number (.negative n)) s!"u{bits}")
      | other => reject (.invalidType other s!"u{bits}"))
    .nat

def word8 [Source σ] : Codec σ UInt8 :=
  (natural 8).convert UInt8.ofNat UInt8.toNat

def word16 [Source σ] : Codec σ UInt16 :=
  (natural 16).convert UInt16.ofNat UInt16.toNat

def word32 [Source σ] : Codec σ UInt32 :=
  (natural 32).convert UInt32.ofNat UInt32.toNat

def word64 [Source σ] : Codec σ UInt64 :=
  (natural 64).convert UInt64.ofNat UInt64.toNat

/-- A value that may be null. -/
def nullable [Source σ] (c : Codec σ α) : Codec σ (Option α) where
  read room source :=
    if Source.isNull source then .ok none else (c.read room source).map some
  write := Json.ofOption c.write

/-- An array, read from the tree of a text. -/
def list (c : Codec Tree α) : Codec Tree (List α) where
  read room
    | .array items ending => enter room fun inside => do
        let values ← items.mapM (c.read inside)
        orDamaged ending.check
        return values
    | other => do reject (.invalidType (← other.found) "a sequence")
  write := Json.ofList c.write

end Codec

end EventManifest.Json
