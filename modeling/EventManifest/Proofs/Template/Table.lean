import EventManifest.Proofs.KeyedTable
import EventManifest.Proofs.Outcome
import EventManifest.Template.Table

/-!
The table of a provider's templates. It holds the templates of the logged events, each under its own
key, and nothing else.
-/

namespace EventManifest

/-- Every template stands under its own key. -/
def TemplateTable.Faithful (t : TemplateTable) : Prop :=
  ∀ key properties, t.get? key = some properties → Template.keyOf properties = .ok key

namespace TemplateTable.Faithful

theorem empty : TemplateTable.Faithful KeyedTable.empty :=
  nofun

/-- A template that is put under its key keeps the table faithful, also where the place is taken and
nothing is put. -/
theorem insert {t : TemplateTable} {key : String} {properties : List Property}
    (h : TemplateTable.Faithful t) (hKey : Template.keyOf properties = .ok key) :
    TemplateTable.Faithful (KeyedTable.insert key properties t) := by
  intro other kept hGet
  rw [KeyedTable.get?_insert] at hGet
  split at hGet
  · rename_i hOther
    subst hOther
    cases hOld : t.get? other with
    | none =>
        obtain rfl : properties = kept := by simpa [hOld] using hGet
        exact hKey
    | some first =>
        obtain rfl : first = kept := by simpa [hOld] using hGet
        exact h other first hOld
  · exact h other kept hGet

end TemplateTable.Faithful

/-- The key of an event, which only a logged one has. -/
inductive EventKey (e : Event) : Option String → Prop where
  | unlogged (hLogged : e.notLogged = true) : EventKey e none
  | logged {key : String} (hLogged : e.notLogged = false)
      (hKey : Template.keyOf e.properties = .ok key) : EventKey e (some key)

namespace EventKey

/-- A key means that the event is logged, and that its properties have that key. -/
theorem some_iff {e : Event} {key : String} :
    EventKey e (some key) ↔ e.notLogged = false ∧ Template.keyOf e.properties = .ok key := by
  constructor
  · rintro (_ | ⟨hLogged, hKey⟩)
    exact ⟨hLogged, hKey⟩
  · rintro ⟨hLogged, hKey⟩
    exact .logged hLogged hKey

/-- An event has one key or none. It is decided by the event alone, whatever other events there
are. -/
theorem unique {e : Event} {a b : Option String} (ha : EventKey e a) (hb : EventKey e b) :
    a = b := by
  cases ha with
  | unlogged hLogged =>
      cases hb with
      | unlogged _ => rfl
      | logged hOther _ => simp [hLogged] at hOther
  | logged hLogged hKey =>
      cases hb with
      | unlogged hOther => simp [hLogged] at hOther
      | logged _ hOther =>
          cases hKey.symm.trans hOther
          rfl

/-- The keys of some events are exactly those that one of them has. -/
theorem mem_iff {events : List Event} {keys : List (Option String)} {key? : Option String}
    (h : List.Forall₂ EventKey events keys) :
    key? ∈ keys ↔ ∃ e ∈ events, EventKey e key? := by
  induction h with
  | nil => simp
  | cons hHead _ ih =>
      rw [List.mem_cons, ih, List.exists_mem_cons_iff]
      refine or_congr_left ⟨?_, fun hKey => hKey.unique hHead⟩
      rintro rfl
      exact hHead

end EventKey

namespace ProviderTemplates

/-- One event leaves the table alone or puts its template under its key. The rest of the events are
taken in after it. -/
theorem collect_cons_eq_ok {index : Nat} {templates : TemplateTable} {e : Event}
    {events : List Event} {grouped : ProviderTemplates}
    (h : collect index templates (e :: events) = .ok grouped) :
    ∃ key? rest, EventKey e key? ∧ grouped.eventKeys = key? :: rest.eventKeys ∧
      grouped.templates = rest.templates ∧
      collect (index + 1)
        (key?.elim templates fun key => templates.insert key e.properties) events = .ok rest := by
  simp only [collect] at h
  split at h
  · rename_i hLogged
    obtain ⟨rest, hRest, hGrouped⟩ := Outcome.bind_eq_ok_iff.mp h
    cases hGrouped
    exact ⟨none, rest, .unlogged hLogged, rfl, rfl, hRest⟩
  · rename_i hLogged
    split at h
    · cases h
    · rename_i key hKey
      obtain ⟨rest, hRest, hGrouped⟩ := Outcome.bind_eq_ok_iff.mp h
      cases hGrouped
      exact ⟨some key, rest, .logged (by simpa using hLogged) hKey, rfl, rfl, hRest⟩

/-- What a whole run over the events yields. Every event has its key, the table has just these keys
beside the ones it began with, and templates stand under their keys if they did so before. -/
theorem collect_eq_ok {index : Nat} {templates : TemplateTable} {events : List Event}
    {grouped : ProviderTemplates} (h : collect index templates events = .ok grouped) :
    List.Forall₂ EventKey events grouped.eventKeys ∧
      (∀ key, (∃ properties, grouped.templates.get? key = some properties) ↔
        (∃ properties, templates.get? key = some properties) ∨ some key ∈ grouped.eventKeys) ∧
      (TemplateTable.Faithful templates → TemplateTable.Faithful grouped.templates) := by
  induction events generalizing index templates grouped with
  | nil =>
      cases h
      exact ⟨.nil, by simp, id⟩
  | cons e events ih =>
      obtain ⟨key?, rest, hEvent, hKeys, hTemplates, hRest⟩ := collect_cons_eq_ok h
      obtain ⟨hEach, hFound, hFaithful⟩ := ih hRest
      rw [hKeys, hTemplates]
      refine ⟨.cons hEvent hEach, fun key => ?_, fun hOld => hFaithful ?_⟩
      · rw [hFound, List.mem_cons]
        cases hEvent with
        | unlogged _ => simp
        | @logged first _ _ =>
            by_cases hKey : key = first
            · simp [KeyedTable.get?_insert, hKey]
            · simp [KeyedTable.get?_insert, hKey]
      · cases hEvent with
        | unlogged _ => exact hOld
        | logged _ hKey => exact hOld.insert hKey

/-- The templates of a provider's events: a template for each key that occurs, and no others. Which
of the events with one key gave its properties is not said here. -/
theorem ofEvents_eq_ok {events : List Event} {grouped : ProviderTemplates}
    (h : ofEvents events = .ok grouped) :
    List.Forall₂ EventKey events grouped.eventKeys ∧
      (∀ key, (∃ properties, grouped.templates.get? key = some properties) ↔
        some key ∈ grouped.eventKeys) ∧
      TemplateTable.Faithful grouped.templates := by
  obtain ⟨hEach, hFound, hFaithful⟩ := collect_eq_ok h
  exact ⟨hEach, fun key => by simpa [KeyedTable.get?, KeyedTable.empty] using hFound key,
    hFaithful .empty⟩

end ProviderTemplates

end EventManifest
