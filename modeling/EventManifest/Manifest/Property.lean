import EventManifest.Manifest.InType

/-!
The properties of an event's payload.
-/

namespace EventManifest

/-- A count or length: a constant, or the name of an earlier property that carries it. -/
inductive Cardinality where
  | fixed (value : UInt32)
  | ref (name : String)
deriving DecidableEq, Repr

/-- A property with a value of its own. The name of a value map only serves decoders. -/
structure DataProperty where
  name : String
  inType : InType
  count : Option Cardinality
  length : Option Cardinality
  map : Option String
deriving DecidableEq, Repr

/-- A property of the payload. A structure is a block of bytes; its members only serve decoders. -/
inductive Property where
  | data (property : DataProperty)
  | struct (name : String) (count : Option Cardinality) (members : List Property)
deriving Repr

namespace Property

mutual

/-- Properties can be compared, members included. -/
def decEq : (p q : Property) → Decidable (p = q)
  | data p, data q =>
      if h : p = q then isTrue (h ▸ rfl) else isFalse fun same => h (data.inj same)
  | data _, struct _ _ _ => isFalse nofun
  | struct _ _ _, data _ => isFalse nofun
  | struct name count members, struct name' count' members' =>
      match decEqList members members' with
      | isFalse h => isFalse fun same => h (struct.inj same).2.2
      | isTrue hMembers =>
          if h : name = name' ∧ count = count' then
            isTrue (by rw [h.1, h.2, hMembers])
          else isFalse fun same => h ⟨(struct.inj same).1, (struct.inj same).2.1⟩

def decEqList : (ps qs : List Property) → Decidable (ps = qs)
  | [], [] => isTrue rfl
  | [], _ :: _ => isFalse nofun
  | _ :: _, [] => isFalse nofun
  | p :: ps, q :: qs =>
      match decEq p q, decEqList ps qs with
      | isTrue hHead, isTrue hTail => isTrue (by rw [hHead, hTail])
      | isFalse h, _ => isFalse fun same => h (List.cons.inj same).1
      | _, isFalse h => isFalse fun same => h (List.cons.inj same).2

end

instance : DecidableEq Property := decEq

def name : Property → String
  | data property => property.name
  | struct name _ _ => name

def count : Property → Option Cardinality
  | data property => property.count
  | struct _ count _ => count

/-- A structure has no length. -/
def length : Property → Option Cardinality
  | data property => property.length
  | struct _ _ _ => none

/-- A data property without count and length. -/
def ofType (name : String) (inType : InType) : Property :=
  data ⟨name, inType, none, none, none⟩

/-- A structure without members. -/
def block (name : String) : Property :=
  struct name none []

def withCount (count : Cardinality) : Property → Property
  | data property => data { property with count := some count }
  | struct name _ members => struct name (some count) members

/-- Give a data property a length. A structure stays as it is. -/
def withLength (length : Cardinality) : Property → Property
  | data property => data { property with length := some length }
  | other => other

end Property

end EventManifest
