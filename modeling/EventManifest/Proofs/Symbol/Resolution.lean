import EventManifest.Symbol.Table
import EventManifest.Proofs.KeyedTable
import EventManifest.Proofs.Outcome
import Mathlib.Data.List.Nodup

/-!
Which providers can be resolved, and to what. No two events may have the same identity, and every
name that an event refers to must be declared under its kind. The name then stands for its first
declaration, with the whole of its value. Of a provider that cannot be resolved the first event with
a defect is reported, and of that event the first defect.
-/

namespace EventManifest

/-- The names that an event refers to, in the order in which they are looked up. -/
def Event.references (e : Event) : List (EntityKind × String) :=
  [e.keywords.map (EntityKind.keyword, ·), e.channel.toList.map (EntityKind.channel, ·),
    e.level.toList.map (EntityKind.level, ·), e.opcode.toList.map (EntityKind.opcode, ·),
    e.task.toList.map (EntityKind.task, ·)].flatten

namespace Provider

def Declares (p : Provider) (reference : EntityKind × String) : Prop :=
  reference.2 ∈ (p.declarations reference.1).map NamedValue.name

instance (p : Provider) : DecidablePred p.Declares :=
  fun reference => inferInstanceAs (Decidable (reference.2 ∈ List.map _ _))

/-- No two events are the same, and all that they refer to is declared. -/
structure Consistent (p : Provider) : Prop where
  identities : (p.events.map Event.identity).Nodup
  references : ∀ e ∈ p.events, ∀ reference ∈ e.references, p.Declares reference

/-- The defect of an event where some identities are taken. A taken identity is reported before the
references, and of these the first that is not declared. -/
inductive Offends (p : Provider) (taken : List (UInt16 × UInt8)) (e : Event) : Defect → Prop where
  | repeated (hTaken : e.identity ∈ taken) :
      Offends p taken e (.duplicateEvent p.name e.value e.version)
  | unknown {known others : List (EntityKind × String)} {kind : EntityKind} {name : String}
      (hNew : e.identity ∉ taken) (hReferences : e.references = known ++ (kind, name) :: others)
      (hKnown : ∀ reference ∈ known, p.Declares reference) (hUnknown : ¬ p.Declares (kind, name)) :
      Offends p taken e (.unknownEntity e.label kind.noun name)

/-- The provider with other keyword lists for its events. -/
def withKeywords (p : Provider) (names : Event → List String) : Provider :=
  { p with events := p.events.map fun e => { e with keywords := names e } }

/-- A provider with a name and events, and nothing else. -/
def bare (name : String) (events : List Event) : Provider where
  name := name
  guid := ⟨0, 0, 0, 0⟩
  controlGuid := none
  symbol := none
  includeNameInTraits := false
  includeProcessName := false
  channels := []
  levels := []
  tasks := []
  opcodes := []
  keywords := []
  maps := []
  strings := []
  events := events

end Provider

/-- The value of a name's first declaration. -/
def FirstDeclared {α : Type} (values : List (NamedValue α)) (name : String) (value : α) : Prop :=
  ∃ before v after, values = before ++ v :: after ∧ (∀ u ∈ before, u.name ≠ name) ∧
    v.name = name ∧ v.value = value

/-- The value of a reference, which is zero if there is none. -/
inductive RefersTo (values : List (NamedValue UInt64)) : Option String → UInt64 → Prop where
  | absent : RefersTo values none 0
  | found {name : String} {value : UInt64} (h : FirstDeclared values name value) :
      RefersTo values (some name) value

/-- The descriptor that the references of an event amount to. -/
structure Describes (p : Provider) (e : Event) (d : EventDescriptor) : Prop where
  id : d.id = e.value
  version : d.version = e.version
  channel : RefersTo (p.declarations .channel) e.channel d.channel.toUInt64
  level : RefersTo (p.declarations .level) e.level d.level.toUInt64
  opcode : RefersTo (p.declarations .opcode) e.opcode d.opcode.toUInt64
  task : RefersTo (p.declarations .task) e.task d.task.toUInt64
  keyword : ∃ masks, List.Forall₂ (FirstDeclared (p.declarations .keyword)) e.keywords masks ∧
    masks.foldl (· ||| ·) 0 = d.keyword

namespace ValueIndex

variable {kind : EntityKind} {values : List (NamedValue UInt64)} {name : String}

/-- An index is filled from left to right, and yet it answers as a search from the left does. Its
order of names has no part in the answer. -/
theorem get?_ofDeclarations (kind : EntityKind) (values : List (NamedValue UInt64))
    (name : String) :
    (ofDeclarations kind values).byName.get? name =
      (values.find? fun v => v.name == name).map NamedValue.value := by
  have hEmpty : KeyedTable.empty.get? name = (none : Option UInt64) := rfl
  rw [ofDeclarations, KeyedTable.get?_insertAll, hEmpty, Option.none_or]
  induction values with
  | nil => rfl
  | cons v values ih =>
      rw [List.map_cons, KeyedTable.lookup_cons_eq_ite, ih]
      by_cases hName : v.name = name
      · rw [if_pos hName.symm, List.find?_cons_of_pos (by simp [hName]), Option.map_some]
      · rw [if_neg (Ne.symm hName), List.find?_cons_of_neg (by simp [hName])]

/-- What an index does not find is not declared at all. -/
theorem get?_eq_none_iff :
    (ofDeclarations kind values).byName.get? name = none ↔
      name ∉ values.map NamedValue.name := by
  rw [get?_ofDeclarations]
  simp

/-- A name has the value of its first declaration. Later declarations of the name do not count. -/
theorem get?_eq_some_iff {value : UInt64} :
    (ofDeclarations kind values).byName.get? name = some value ↔
      FirstDeclared values name value := by
  rw [get?_ofDeclarations, Option.map_eq_some_iff]
  simp only [List.find?_eq_some_iff_append, beq_iff_eq, Bool.not_eq_eq_eq_not, Bool.not_true,
    beq_eq_false_iff_ne]
  constructor
  · rintro ⟨v, ⟨hName, before, after, hSplit, hBefore⟩, hValue⟩
    exact ⟨before, v, after, hSplit, hBefore, hName, hValue⟩
  · rintro ⟨before, v, after, hSplit, hBefore, hName, hValue⟩
    exact ⟨v, ⟨hName, before, after, hSplit, hBefore⟩, hValue⟩

/-- A lookup succeeds with what the reference stands for. A missing reference is no failure; it
stands for zero. -/
theorem lookup_eq_ok_iff {e : Event} {name : Option String} {value : UInt64} :
    (ofDeclarations kind values).lookup e name = .ok value ↔ RefersTo values name value := by
  cases name with
  | none =>
      rw [lookup, Except.ok.injEq]
      constructor
      · rintro rfl
        exact .absent
      · rintro ⟨⟩
        rfl
  | some name =>
      have hFound : RefersTo values (some name) value ↔
          (ofDeclarations kind values).byName.get? name = some value := by
        rw [get?_eq_some_iff]
        exact ⟨fun h => by cases h; assumption, .found⟩
      rw [hFound, lookup]
      cases (ofDeclarations kind values).byName.get? name <;> simp

/-- Keywords are gathered from left to right, each as its first declaration has it. All of them have
to be declared. -/
theorem lookupAll_eq_ok_iff {e : Event} {mask result : UInt64} {names : List String} :
    (ofDeclarations kind values).lookupAll e mask names = .ok result ↔
      ∃ masks, List.Forall₂ (FirstDeclared values) names masks ∧
        masks.foldl (· ||| ·) mask = result := by
  induction names generalizing mask with
  | nil => simp [lookupAll]
  | cons name names ih =>
      rw [lookupAll, Outcome.bind_eq_ok_iff]
      simp only [ih, lookup_eq_ok_iff, List.forall₂_cons_left_iff]
      constructor
      · rintro ⟨more, hFound, masks, hMasks, hResult⟩
        cases hFound with
        | found hFirst =>
            exact ⟨more :: masks, ⟨more, masks, hFirst, hMasks, rfl⟩, hResult⟩
      · rintro ⟨_, ⟨more, masks, hFirst, hMasks, rfl⟩, hResult⟩
        exact ⟨more, .found hFirst, masks, hMasks, hResult⟩

end ValueIndex

/-- A name has at most one value, however often it is declared. -/
theorem eq_of_firstDeclared {values : List (NamedValue UInt64)} {name : String}
    {value other : UInt64} (h : FirstDeclared values name value)
    (h' : FirstDeclared values name other) : value = other := by
  have hGet : (ValueIndex.ofDeclarations .keyword values).byName.get? name = some value :=
    ValueIndex.get?_eq_some_iff.mpr h
  rw [ValueIndex.get?_eq_some_iff.mpr h'] at hGet
  exact (Option.some.inj hGet).symm

/-- A reference to widened values is cut down again without a loss. Nothing is said of values that
were declared with 64 bits. -/
theorem RefersTo.wide_cut {α : Type} {wide : α → UInt64} {cut : UInt64 → α}
    {values : List (NamedValue α)} {name : Option String} {value : UInt64}
    (h : RefersTo (values.map (.widen wide)) name value) (hCut : ∀ a, cut (wide a) = a)
    (hZero : wide (cut 0) = 0) : wide (cut value) = value := by
  cases h with
  | absent => exact hZero
  | found h =>
      obtain ⟨before, v, after, hSplit, _, _, rfl⟩ := h
      have hMem : v ∈ values.map (.widen wide) := by
        rw [hSplit]
        exact List.mem_append_right _ List.mem_cons_self
      obtain ⟨u, _, rfl⟩ := List.mem_map.mp hMem
      exact congrArg wide (hCut u.value)

namespace SymbolTable

open Outcome

/-- The descriptor that an event of a provider has. -/
def descriptor (p : Provider) (e : Event) : Except Defect EventDescriptor :=
  (ReferenceIndex.ofProvider p).describe e

/-- The defect of an event that refers to something unknown. -/
def unknownReference (e : Event) (reference : EntityKind × String) : Defect :=
  .unknownEntity e.label reference.1.noun reference.2

/-- The first reference that is not declared. -/
def missing? (p : Provider) (references : List (EntityKind × String)) :
    Option (EntityKind × String) :=
  references.find? fun reference => !decide (p.Declares reference)

/-- References that are looked up in turn fail at the first one that is not declared. -/
theorem missing?_append (p : Provider) (references others : List (EntityKind × String)) :
    missing? p (references ++ others) = (missing? p references).or (missing? p others) :=
  List.find?_append

theorem missing?_eq_none_iff {p : Provider} {references : List (EntityKind × String)} :
    missing? p references = none ↔ ∀ reference ∈ references, p.Declares reference := by
  simp [missing?]

/-- All references before a missing one are declared. Those behind it may be missing as well. -/
theorem missing?_eq_some_iff {p : Provider} {references : List (EntityKind × String)}
    {reference : EntityKind × String} :
    missing? p references = some reference ↔
      ∃ known others, references = known ++ reference :: others ∧
        (∀ other ∈ known, p.Declares other) ∧ ¬ p.Declares reference := by
  rw [missing?, List.find?_eq_some_iff_append]
  simp only [Bool.not_eq_true', decide_eq_false_iff_not, Bool.not_not, decide_eq_true_eq]
  constructor
  · rintro ⟨hUnknown, known, others, hSplit, hKnown⟩
    exact ⟨known, others, hSplit, hKnown, hUnknown⟩
  · rintro ⟨known, others, hSplit, hKnown, hUnknown⟩
    exact ⟨hUnknown, known, others, hSplit, hKnown⟩

theorem missing?_cons (p : Provider) (kind : EntityKind) (name : String)
    (references : List (EntityKind × String)) :
    missing? p ((kind, name) :: references) =
      if ((ValueIndex.ofDeclarations kind (p.declarations kind)).byName.get? name).isSome then
        missing? p references
      else some (kind, name) := by
  have hDeclares :
      ((ValueIndex.ofDeclarations kind (p.declarations kind)).byName.get? name).isSome ↔
        p.Declares (kind, name) := by
    rw [← Option.isNone_eq_false_iff, Bool.eq_false_iff, Ne, Option.isNone_iff_eq_none,
      ValueIndex.get?_eq_none_iff, not_not]
    rfl
  simp only [hDeclares]
  by_cases hKnown : p.Declares (kind, name) <;> simp [missing?, hKnown]

section Lookup

variable (p : Provider) (kind : EntityKind) (e : Event)

/-- A lookup is refused exactly if its reference is missing, and the refusal tells kind and name. -/
theorem refusal?_lookup (name : Option String) :
    refusal? ((ValueIndex.ofDeclarations kind (p.declarations kind)).lookup e name) =
      (missing? p (name.toList.map (kind, ·))).map (unknownReference e) := by
  cases name with
  | none => rfl
  | some name =>
      rw [Option.toList_some, List.map_singleton, missing?_cons, ValueIndex.lookup]
      cases (ValueIndex.ofDeclarations kind (p.declarations kind)).byName.get? name <;> rfl

/-- The keywords that were found before the missing one leave no trace in the refusal. -/
theorem refusal?_lookupAll (mask : UInt64) (names : List String) :
    refusal? ((ValueIndex.ofDeclarations kind (p.declarations kind)).lookupAll e mask names) =
      (missing? p (names.map (kind, ·))).map (unknownReference e) := by
  induction names generalizing mask with
  | nil => rfl
  | cons name names ih =>
      rw [List.map_cons, missing?_cons, ValueIndex.lookupAll, ValueIndex.lookup]
      cases (ValueIndex.ofDeclarations kind (p.declarations kind)).byName.get? name with
      | none => rfl
      | some more => exact ih (mask ||| more)

end Lookup

/-- Steps that look up some references each look up all of them in turn. This is where the order of
the lookups comes into the defect. -/
theorem refusal?_bind_eq_missing {α β : Type} {p : Provider} {e : Event} {x : Except Defect α}
    {f : α → Except Defect β} {references others : List (EntityKind × String)}
    (hFirst : refusal? x = (missing? p references).map (unknownReference e))
    (hSecond : ∀ a, refusal? (f a) = (missing? p others).map (unknownReference e)) :
    refusal? (x >>= f) = (missing? p (references ++ others)).map (unknownReference e) := by
  rw [refusal?_bind hSecond, hFirst, missing?_append, Option.map_or]

/-- An event is refused for the first of its references that is missing, in the order keywords,
channel, level, opcode, task. -/
theorem refusal?_descriptor (p : Provider) (e : Event) :
    refusal? (descriptor p e) = (missing? p e.references).map (unknownReference e) :=
  refusal?_bind_eq_missing (refusal?_lookupAll p .keyword e 0 e.keywords) fun _ =>
    refusal?_bind_eq_missing (refusal?_lookup p .channel e e.channel) fun _ =>
    refusal?_bind_eq_missing (refusal?_lookup p .level e e.level) fun _ =>
    refusal?_bind_eq_missing (refusal?_lookup p .opcode e e.opcode) fun _ =>
    refusal?_bind_eq_missing (refusal?_lookup p .task e e.task) fun _ => rfl

/-- A descriptor has the whole of every value, though fields are narrower than what is looked up. It
is the only descriptor that the references amount to. -/
theorem descriptor_eq_ok_iff {p : Provider} {e : Event} {d : EventDescriptor} :
    descriptor p e = .ok d ↔ Describes p e d := by
  have hByte {values : List (NamedValue UInt8)} {name : Option String} {value : UInt64}
      (h : RefersTo (values.map (.widen UInt8.toUInt64)) name value) :
      value.toUInt8.toUInt64 = value :=
    h.wide_cut UInt8.toUInt8_toUInt64 rfl
  have hWord {values : List (NamedValue UInt16)} {name : Option String} {value : UInt64}
      (h : RefersTo (values.map (.widen UInt16.toUInt64)) name value) :
      value.toUInt16.toUInt64 = value :=
    h.wide_cut UInt16.toUInt16_toUInt64 rfl
  simp only [descriptor, ReferenceIndex.describe, ReferenceIndex.ofProvider, bind_eq_ok_iff,
    pure_eq_ok_iff, ValueIndex.lookupAll_eq_ok_iff, ValueIndex.lookup_eq_ok_iff]
  constructor
  · rintro ⟨keyword, hKeyword, channel, hChannel, level, hLevel, opcode, hOpcode, task, hTask, rfl⟩
    exact ⟨rfl, rfl, (hByte hChannel).symm ▸ hChannel, (hByte hLevel).symm ▸ hLevel,
      (hByte hOpcode).symm ▸ hOpcode, (hWord hTask).symm ▸ hTask, hKeyword⟩
  · intro h
    refine ⟨_, h.keyword, _, h.channel, _, h.level, _, h.opcode, _, h.task, ?_⟩
    simp only [UInt8.toUInt8_toUInt64, UInt16.toUInt16_toUInt64, ← h.id, ← h.version]

/-- An event has a descriptor exactly if all that it refers to is declared. Its identity has no part
in this. -/
theorem exists_descriptor_iff {p : Provider} {e : Event} :
    (∃ d, descriptor p e = .ok d) ↔ ∀ reference ∈ e.references, p.Declares reference := by
  rw [← refusal?_eq_none_iff, refusal?_descriptor, Option.map_eq_none_iff, missing?_eq_none_iff]

/-- The one defect of an event without regard to the other events. -/
theorem descriptor_eq_error_iff {p : Provider} {e : Event} {defect : Defect} :
    descriptor p e = .error defect ↔
      ∃ reference, missing? p e.references = some reference ∧
        unknownReference e reference = defect := by
  rw [← refusal?_eq_some_iff, refusal?_descriptor, Option.map_eq_some_iff]

/-- One event is resolved if its identity is new and all its references are known. The step for all
walks over the events. -/
theorem resolveEvents_cons_eq_ok_iff {p : Provider} {symbol : String}
    {seen : List (UInt16 × UInt8)} {e : Event} {events : List Event}
    {resolved : List ResolvedEvent} :
    resolveEvents p.name (.ofProvider p) symbol seen (e :: events) = .ok resolved ↔
      e.identity ∉ seen ∧ ∃ d, descriptor p e = .ok d ∧
        ∃ rest, resolveEvents p.name (.ofProvider p) symbol (e.identity :: seen) events = .ok rest ∧
          ⟨Symbol.ofEvent symbol e.symbol d, d⟩ :: rest = resolved := by
  rw [resolveEvents]
  by_cases hTaken : e.identity ∈ seen
  · simp [hTaken]
  · rw [if_neg (by simpa using hTaken)]
    simp only [descriptor, bind_eq_ok_iff, pure_eq_ok_iff, hTaken, not_false_eq_true, true_and]

/-- Events can be resolved exactly if their identities are new and all their references are known.
They are listed in their order. -/
theorem resolveEvents_eq_ok_iff {p : Provider} {symbol : String} {seen : List (UInt16 × UInt8)}
    {events : List Event} {resolved : List ResolvedEvent} :
    resolveEvents p.name (.ofProvider p) symbol seen events = .ok resolved ↔
      (events.map Event.identity).Nodup ∧ (∀ e ∈ events, e.identity ∉ seen) ∧
        List.Forall₂ (fun e r => descriptor p e = .ok r.descriptor ∧
          r.symbol = Symbol.ofEvent symbol e.symbol r.descriptor) events resolved := by
  induction events generalizing seen resolved with
  | nil => simp [resolveEvents, eq_comm]
  | cons e events ih =>
      rw [resolveEvents_cons_eq_ok_iff, List.map_cons, List.nodup_cons, List.forall_mem_cons,
        List.forall₂_cons_left_iff]
      simp only [ih, List.mem_cons, not_or]
      constructor
      · rintro ⟨hNew, d, hDescriptor, rest, ⟨hNodup, hFresh, hRest⟩, rfl⟩
        refine ⟨⟨?_, hNodup⟩, ⟨hNew, fun f hf => (hFresh f hf).2⟩, _, rest, ⟨hDescriptor, rfl⟩,
          hRest, rfl⟩
        intro hSame
        obtain ⟨f, hf, hIdentity⟩ := List.mem_map.mp hSame
        exact (hFresh f hf).1 hIdentity
      · rintro ⟨⟨hApart, hNodup⟩, ⟨hNew, hFresh⟩, r, rest, ⟨hDescriptor, hSymbol⟩, hRest, rfl⟩
        refine ⟨hNew, r.descriptor, hDescriptor, rest, ⟨hNodup, fun f hf => ⟨?_, hFresh f hf⟩,
          hRest⟩, by rw [← hSymbol]⟩
        exact fun hSame => hApart (hSame ▸ List.mem_map_of_mem hf)

/-- The table of a provider lists its events in their order. Their symbols may still coincide, which
is checked elsewhere. -/
theorem resolveEvents_eq_ok {p : Provider} {symbol : String} {seen : List (UInt16 × UInt8)}
    {events : List Event} {resolved : List ResolvedEvent}
    (h : resolveEvents p.name (.ofProvider p) symbol seen events = .ok resolved) :
    List.Forall₂ (fun e r => descriptor p e = .ok r.descriptor ∧
      r.symbol = Symbol.ofEvent symbol e.symbol r.descriptor) events resolved :=
  (resolveEvents_eq_ok_iff.mp h).2.2

/-- A provider with two events of one identity has no table, even if the events are equal in all
other respects. -/
theorem nodup_identity_of_resolve {p : Provider} {table : SymbolTable}
    (h : resolve p = .ok table) : (p.events.map Event.identity).Nodup := by
  obtain ⟨events, hEvents, _⟩ := bind_eq_ok_iff.mp h
  exact (resolveEvents_eq_ok_iff.mp hEvents).1

theorem length_events_of_resolve {p : Provider} {table : SymbolTable}
    (h : resolve p = .ok table) : table.events.length = p.events.length := by
  obtain ⟨events, hEvents, h⟩ := bind_eq_ok_iff.mp h
  cases h
  exact (resolveEvents_eq_ok hEvents).length_eq.symm

/-- Events can be resolved exactly if their identities are new and all their references are
declared. -/
theorem exists_resolveEvents_iff {p : Provider} {symbol : String} {seen : List (UInt16 × UInt8)}
    {events : List Event} :
    (∃ resolved, resolveEvents p.name (.ofProvider p) symbol seen events = .ok resolved) ↔
      (events.map Event.identity).Nodup ∧ (∀ e ∈ events, e.identity ∉ seen) ∧
        ∀ e ∈ events, ∀ reference ∈ e.references, p.Declares reference := by
  simp only [resolveEvents_eq_ok_iff, ← exists_descriptor_iff]
  constructor
  · rintro ⟨resolved, hNodup, hFresh, hEach⟩
    refine ⟨hNodup, hFresh, fun e he => ?_⟩
    obtain ⟨r, _, hDescriptor, _⟩ := exists_of_mem_right hEach.flip he
    exact ⟨r.descriptor, hDescriptor⟩
  · rintro ⟨hNodup, hFresh, hReferences⟩
    have hEach : ∀ e ∈ events, ∃ r : ResolvedEvent, descriptor p e = .ok r.descriptor ∧
        r.symbol = Symbol.ofEvent symbol e.symbol r.descriptor := fun e he => by
      obtain ⟨d, hd⟩ := hReferences e he
      exact ⟨⟨Symbol.ofEvent symbol e.symbol d, d⟩, hd, rfl⟩
    obtain ⟨resolved, hResolved⟩ := exists_forall₂ hEach
    exact ⟨resolved, hNodup, hFresh, hResolved⟩

/-- Only the events of a provider can be refused. The rest of its table is always there. -/
theorem resolve_eq_ok_iff {p : Provider} {table : SymbolTable} :
    resolve p = .ok table ↔
      ∃ events,
        resolveEvents p.name (.ofProvider p) (Symbol.ofProvider p) [] p.events = .ok events ∧
        withEvents p events = table := by
  simp only [resolve, bind_eq_ok_iff, pure_eq_ok_iff]

/-- Exactly the consistent providers can be resolved. Nothing is asked of declarations that no event
refers to. -/
theorem exists_resolve_iff {p : Provider} : (∃ table, resolve p = .ok table) ↔ p.Consistent := by
  constructor
  · rintro ⟨table, h⟩
    obtain ⟨events, hEvents, _⟩ := resolve_eq_ok_iff.mp h
    obtain ⟨hNodup, _, hReferences⟩ := exists_resolveEvents_iff.mp ⟨events, hEvents⟩
    exact ⟨hNodup, hReferences⟩
  · intro h
    obtain ⟨events, hEvents⟩ := exists_resolveEvents_iff.mpr
      ⟨h.identities, fun _ _ => List.not_mem_nil, h.references⟩
    exact ⟨_, resolve_eq_ok_iff.mpr ⟨events, hEvents, rfl⟩⟩

section Refusal

variable {p : Provider} {symbol : String} {e : Event} {defect : Defect}

/-- An event offends by its identity, or else by its references. It cannot be reported for both. -/
theorem offends_iff {taken : List (UInt16 × UInt8)} :
    p.Offends taken e defect ↔
      (e.identity ∈ taken ∧ .duplicateEvent p.name e.value e.version = defect) ∨
        (e.identity ∉ taken ∧ descriptor p e = .error defect) := by
  simp only [descriptor_eq_error_iff, missing?_eq_some_iff]
  constructor
  · rintro (hTaken | ⟨hNew, hReferences, hKnown, hUnknown⟩)
    · exact .inl ⟨hTaken, rfl⟩
    · exact .inr ⟨hNew, _, ⟨_, _, hReferences, hKnown, hUnknown⟩, rfl⟩
  · rintro (⟨hTaken, rfl⟩ | ⟨hNew, _, ⟨known, others, hReferences, hKnown, hUnknown⟩, rfl⟩)
    · exact .repeated hTaken
    · exact .unknown hNew hReferences hKnown hUnknown

/-- The first event is refused, or it passes and a later one is. -/
theorem resolveEvents_cons_eq_error_iff {seen : List (UInt16 × UInt8)} {events : List Event} :
    resolveEvents p.name (.ofProvider p) symbol seen (e :: events) = .error defect ↔
      p.Offends seen e defect ∨
        (e.identity ∉ seen ∧ (∃ d, descriptor p e = .ok d) ∧
          resolveEvents p.name (.ofProvider p) symbol (e.identity :: seen) events =
            .error defect) := by
  rw [offends_iff, resolveEvents]
  by_cases hTaken : e.identity ∈ seen
  · simp [hTaken]
  · rw [if_neg (by simpa using hTaken), bind_eq_error_iff]
    simp only [bind_eq_error_iff, hTaken, not_false_eq_true, false_and, true_and, false_or]
    refine or_congr_right ⟨?_, ?_⟩
    · rintro ⟨d, hd, hRest | ⟨_, _, hPure⟩⟩
      · exact ⟨⟨d, hd⟩, hRest⟩
      · cases hPure
    · rintro ⟨⟨d, hd⟩, hRest⟩
      exact ⟨d, hd, .inl hRest⟩

theorem exists_resolveEvents_cons_iff {seen : List (UInt16 × UInt8)} {events : List Event} :
    (∃ resolved, resolveEvents p.name (.ofProvider p) symbol seen (e :: events) = .ok resolved) ↔
      e.identity ∉ seen ∧ (∃ d, descriptor p e = .ok d) ∧
        ∃ resolved, resolveEvents p.name (.ofProvider p) symbol (e.identity :: seen) events =
          .ok resolved := by
  simp only [resolveEvents_cons_eq_ok_iff]
  constructor
  · rintro ⟨_, hNew, d, hd, rest, hRest, _⟩
    exact ⟨hNew, ⟨d, hd⟩, rest, hRest⟩
  · rintro ⟨hNew, ⟨d, hd⟩, rest, hRest⟩
    exact ⟨_, hNew, d, hd, rest, hRest, rfl⟩

/-- Events are refused exactly if one of them offends after others that do not. What comes after it
is not looked at. -/
theorem resolveEvents_eq_error_iff {seen : List (UInt16 × UInt8)} {events : List Event} :
    resolveEvents p.name (.ofProvider p) symbol seen events = .error defect ↔
      ∃ before e after, events = before ++ e :: after ∧
        (∃ resolved, resolveEvents p.name (.ofProvider p) symbol seen before = .ok resolved) ∧
        p.Offends (seen ++ before.map Event.identity) e defect := by
  induction events generalizing seen with
  | nil => simp [resolveEvents]
  | cons f events ih =>
      have hMiddle (before : List Event) (e : Event) :
          p.Offends (f.identity :: seen ++ before.map Event.identity) e defect ↔
            p.Offends (seen ++ (f :: before).map Event.identity) e defect := by
        rw [offends_iff, offends_iff, List.map_cons, List.perm_middle.mem_iff]
        rfl
      rw [resolveEvents_cons_eq_error_iff, ih]
      constructor
      · rintro (hOffends | ⟨hNew, hd, before, e, after, rfl, hBefore, hOffends⟩)
        · exact ⟨[], f, events, rfl, ⟨[], rfl⟩, by simpa using hOffends⟩
        · exact ⟨f :: before, e, after, rfl,
            exists_resolveEvents_cons_iff.mpr ⟨hNew, hd, hBefore⟩, (hMiddle before e).mp hOffends⟩
      · rintro ⟨before, e, after, hSplit, hBefore, hOffends⟩
        cases before with
        | nil =>
            cases hSplit
            exact .inl (by simpa using hOffends)
        | cons first before =>
            cases hSplit
            obtain ⟨hNew, hd, hBefore⟩ := exists_resolveEvents_cons_iff.mp hBefore
            exact .inr ⟨hNew, hd, before, e, after, rfl, hBefore, (hMiddle before e).mpr hOffends⟩

/-- A provider is refused for its first event that offends. Cut before that event, it is
consistent. -/
theorem resolve_eq_error_iff :
    resolve p = .error defect ↔
      ∃ before e after, p.events = before ++ e :: after ∧
        ({ p with events := before } : Provider).Consistent ∧
        p.Offends (before.map Event.identity) e defect := by
  have hResolve : resolve p = .error defect ↔
      resolveEvents p.name (.ofProvider p) (Symbol.ofProvider p) [] p.events = .error defect := by
    rw [resolve, bind_eq_error_iff]
    exact or_iff_left fun ⟨_, _, hPure⟩ => by cases hPure
  have hConsistent (before : List Event) :
      (∃ resolved, resolveEvents p.name (.ofProvider p) (Symbol.ofProvider p) [] before =
          .ok resolved) ↔
        ({ p with events := before } : Provider).Consistent := by
    rw [exists_resolveEvents_iff]
    exact ⟨fun h => ⟨h.1, h.2.2⟩,
      fun h => ⟨h.identities, fun _ _ => List.not_mem_nil, h.references⟩⟩
  simp only [hResolve, resolveEvents_eq_error_iff, hConsistent, List.nil_append]

end Refusal

section KeywordOrder

/-- A bit of the gathered keywords comes from one of the masks. -/
theorem testBit_foldl_or (masks : List UInt64) (mask : UInt64) (i : Nat) :
    (masks.foldl (· ||| ·) mask).toNat.testBit i =
      (mask.toNat.testBit i || masks.any fun more => more.toNat.testBit i) := by
  induction masks generalizing mask with
  | nil => simp
  | cons more masks ih =>
      rw [List.foldl_cons, ih, UInt64.toNat_or, Nat.testBit_or, List.any_cons, Bool.or_assoc]

/-- Which bits are set depends only on which masks there are. Neither their order nor how often they
occur does any harm. -/
theorem foldl_or_eq_of_mem_iff {masks others : List UInt64}
    (h : ∀ mask, mask ∈ masks ↔ mask ∈ others) :
    masks.foldl (· ||| ·) 0 = others.foldl (· ||| ·) 0 := by
  refine UInt64.toNat_inj.mp (Nat.eq_of_testBit_eq fun i => ?_)
  rw [testBit_foldl_or, testBit_foldl_or, Bool.eq_iff_iff]
  simp only [Bool.or_eq_true, List.any_eq_true, h]

theorem subset_of_firstDeclared {values : List (NamedValue UInt64)} {names others : List String}
    {masks masks' : List UInt64} (h : List.Forall₂ (FirstDeclared values) names masks)
    (h' : List.Forall₂ (FirstDeclared values) others masks')
    (hNames : ∀ name ∈ names, name ∈ others) : ∀ mask ∈ masks, mask ∈ masks' := by
  intro mask hMask
  obtain ⟨name, hName, hFirst⟩ := exists_of_mem_right h hMask
  obtain ⟨mask', hMask', hFirst'⟩ := exists_of_mem_right h'.flip (hNames name hName)
  exact eq_of_firstDeclared hFirst hFirst' ▸ hMask'

/-- A descriptor stays the same whatever the order of the keywords, and however often they occur.
Leaving one out may change it. -/
theorem describes_withKeywords {p : Provider} {e : Event} {d : EventDescriptor}
    (h : Describes p e d) {names : List String}
    (hNames : ∀ name, name ∈ names ↔ name ∈ e.keywords) :
    Describes p { e with keywords := names } d := by
  obtain ⟨masks, hMasks, hOr⟩ := h.keyword
  have hEach : ∀ name ∈ names, ∃ mask, FirstDeclared (p.declarations .keyword) name mask := by
    intro name hName
    obtain ⟨mask, _, hFirst⟩ := exists_of_mem_right hMasks.flip ((hNames name).mp hName)
    exact ⟨mask, hFirst⟩
  obtain ⟨others, hOthers⟩ := exists_forall₂ hEach
  have hSame : ∀ mask, mask ∈ others ↔ mask ∈ masks := fun mask =>
    ⟨subset_of_firstDeclared hOthers hMasks (fun name => (hNames name).mp) mask,
      subset_of_firstDeclared hMasks hOthers (fun name => (hNames name).mpr) mask⟩
  exact { h with keyword := ⟨others, hOthers, (foldl_or_eq_of_mem_iff hSame).trans hOr⟩ }

/-- So does the table of a provider, with all its symbols, since these are made of names and
descriptors. -/
theorem resolve_withKeywords {p : Provider} {table : SymbolTable} (h : resolve p = .ok table)
    {names : Event → List String}
    (hNames : ∀ e ∈ p.events, ∀ name, name ∈ names e ↔ name ∈ e.keywords) :
    resolve (p.withKeywords names) = .ok table := by
  obtain ⟨events, hEvents, hTable⟩ := resolve_eq_ok_iff.mp h
  obtain ⟨hNodup, _, hEach⟩ := resolveEvents_eq_ok_iff.mp hEvents
  refine resolve_eq_ok_iff.mpr ⟨events, resolveEvents_eq_ok_iff.mpr
    ⟨?_, fun _ _ => List.not_mem_nil, ?_⟩, hTable⟩
  · rw [Provider.withKeywords, List.map_map]
    exact hNodup
  · rw [Provider.withKeywords, List.forall₂_map_left_iff]
    refine ((List.forall₂_and_left _ _).mpr ⟨hNames, hEach⟩).imp ?_
    rintro e r ⟨hSame, hDescriptor, hSymbol⟩
    have hOther : descriptor p { e with keywords := names e } = .ok r.descriptor :=
      descriptor_eq_ok_iff.mpr (describes_withKeywords (descriptor_eq_ok_iff.mp hDescriptor) hSame)
    exact ⟨hOther, hSymbol⟩

end KeywordOrder

/-- The resolved values of a kind. -/
def values (table : SymbolTable) : EntityKind → List ResolvedValue
  | .channel => table.channels
  | .level => table.levels
  | .task => table.tasks
  | .opcode => table.opcodes
  | .keyword => table.keywords

/-- The lists of a table are parallel to those of the provider, and each entry presents what the
provider has in its place. -/
structure Presents (table : SymbolTable) (p : Provider) : Prop where
  provider : table.provider = Symbol.ofProvider p
  values : ∀ kind, List.Forall₂ (fun v r =>
      r.symbol = Symbol.ofValue (Symbol.ofProvider p) kind v.symbol v.name v.value.toNat ∧
        r.value = v.value)
    (p.declarations kind) (table.values kind)
  maps : List.Forall₂ (fun m r =>
      r.symbol = Symbol.ofMap (Symbol.ofProvider p) m ∧ r.kind = m.kind ∧
        List.Forall₂ (fun item v => v.symbol = Symbol.ofMapItem r.symbol item.2 item.1 ∧
          v.value = item.1.value.toUInt64) m.items.zipIdx r.items)
    p.maps table.maps
  strings : List.Forall₂ (fun s r =>
      r.symbol = Symbol.ofString (Symbol.ofProvider p) s.id s.symbol ∧ r.messageId = s.messageId)
    p.strings table.strings
  events : List.Forall₂ (fun e r => Describes p e r.descriptor ∧
      r.symbol = Symbol.ofEvent (Symbol.ofProvider p) e.symbol r.descriptor)
    p.events table.events

theorem forall₂_map_right {α β : Type} {R : α → β → Prop} {f : α → β} (h : ∀ a, R a (f a))
    (as : List α) : List.Forall₂ R as (as.map f) := by
  rw [List.forall₂_map_right_iff, List.forall₂_same]
  exact fun a _ => h a

/-- What a table says about a provider, list by list. It is not claimed that symbols differ. -/
theorem presents_of_resolve {p : Provider} {table : SymbolTable} (h : resolve p = .ok table) :
    table.Presents p := by
  obtain ⟨events, hEvents, rfl⟩ := resolve_eq_ok_iff.mp h
  refine ⟨rfl, fun kind => ?_, ?_, ?_, ?_⟩
  · cases kind <;> exact forall₂_map_right (fun _ => ⟨rfl, rfl⟩) (p.declarations _)
  · exact forall₂_map_right
      (fun m => ⟨rfl, rfl, forall₂_map_right (fun _ => ⟨rfl, rfl⟩) m.items.zipIdx⟩) _
  · exact forall₂_map_right (fun _ => ⟨rfl, rfl⟩) _
  · simp only [← descriptor_eq_ok_iff]
    exact resolveEvents_eq_ok hEvents

/-- Resolution succeeds for exactly the consistent providers. Then the table presents the provider,
and it does not depend on how the keywords of events are listed. Else the first event that offends
is reported. -/
theorem resolve_settles_consistency (p : Provider) :
    ((∃ table, resolve p = .ok table) ↔ p.Consistent) ∧
      (∀ table, resolve p = .ok table →
        table.Presents p ∧
          ∀ names : Event → List String,
            (∀ e ∈ p.events, ∀ name, name ∈ names e ↔ name ∈ e.keywords) →
              resolve (p.withKeywords names) = .ok table) ∧
      ∀ defect, resolve p = .error defect ↔
        ∃ before e after, p.events = before ++ e :: after ∧
          ({ p with events := before } : Provider).Consistent ∧
          p.Offends (before.map Event.identity) e defect :=
  ⟨exists_resolve_iff,
    fun _ h => ⟨presents_of_resolve h, fun _ hNames => resolve_withKeywords h hNames⟩,
    fun _ => resolve_eq_error_iff⟩

/-- Two names are declared twice, and one keyword is listed twice. -/
def shadowedNames : Provider :=
  { Provider.bare "P"
      [⟨1, 0, none, some "L", some "T", none, ["A", "B", "A"], false, none, none⟩] with
    levels := [⟨"L", 4, none⟩]
    tasks := [⟨"T", 300, none⟩, ⟨"T", 2, none⟩]
    keywords := [⟨"A", 1, none⟩, ⟨"B", 6, none⟩, ⟨"A", 8, none⟩] }

/-- The same event once more, with an opcode that is not declared. -/
def repeatedEvent : Event :=
  ⟨1, 0, none, none, none, some "O", [], false, none, none⟩

/-- The first declarations of both names count, and the keyword that is listed twice counts once.
The repeated event is reported for its identity, not for its unknown opcode. -/
theorem resolve_settles_consistency_shadowedNames :
    shadowedNames.Consistent ∧
      (∃ table, resolve shadowedNames = .ok table ∧
        table.events.map ResolvedEvent.descriptor = [⟨1, 0, 0, 4, 0, 300, 7⟩] ∧
        resolve (shadowedNames.withKeywords fun _ => ["B", "A"]) = .ok table) ∧
      resolve { shadowedNames with events := shadowedNames.events ++ [repeatedEvent] } =
        .error (.duplicateEvent "P" 1 0) := by
  obtain ⟨hAccepts, hTable, _⟩ := resolve_settles_consistency shadowedNames
  have hConsistent : shadowedNames.Consistent := hAccepts.mp ⟨_, rfl⟩
  obtain ⟨table, h⟩ := hAccepts.mpr hConsistent
  refine ⟨hConsistent, ⟨table, h, ?_, (hTable table h).2 _ ?_⟩, ?_⟩
  · cases h
    rfl
  · simp [shadowedNames, Provider.bare]
  · refine ((resolve_settles_consistency _).2.2 _).mpr
      ⟨shadowedNames.events, repeatedEvent, [], rfl, hConsistent, .repeated (by decide)⟩

end SymbolTable

end EventManifest
