import EventManifest.Header.Surface

/-!
The class of an activity. Its constructor writes the start event under a new activity identifier,
its destructor the stop event under the same.
-/

namespace EventManifest.Header

/-- The name of an activity's class. -/
def activityClassName (a : ActivityPair) : String :=
  a.symbol ++ "Activity"

/-- The lines up to the body of the constructor. -/
def constructorHead (className : String) (parameters : List String) : List String :=
  if parameters.isEmpty then [s!"    explicit {className}() noexcept"]
  else s!"    explicit {className}(" :: itemLines "        " ") noexcept" parameters

/-- The lines that write an event if it is enabled. -/
def guardedWrite (symbol call : String) : List String :=
  [s!"        if (EventEnabled{symbol}()) \x7b", s!"            {call};", "        \x7d"]

/-- What an activity passes on with either of its events: context, descriptor, its own identifier
and no related one. -/
def activityArguments (s : Surface) (p : ProviderPlan) (symbol : String) : List String :=
  [s.object (p.symbol ++ "_Context"), s.object symbol, "&m_id", s.null]

/-- The lines of a class between its name and its destructor. The constructor passes on the payload
of the start event. -/
def constructorLines (s : Surface) (scope : String) (p : ProviderPlan) (a : ActivityPair)
    (symbol : String) (w : EventWrite) : List String :=
  ["\x7b", "public:"] ++ constructorHead (activityClassName a) (wrapperParameters w) ++
    ["    \x7b",
      "        " ++ s.systemScope ++
        "EventActivityIdControl(EVENT_ACTIVITY_CTRL_CREATE_ID, &m_id);"] ++
    guardedWrite symbol (templateCall s scope w.templateKey
      (activityArguments s p symbol ++ s.arguments (.named w.names) w.parameters)) ++
    ["    \x7d", ""]

/-- The destructor. It passes on no payload. -/
def destructorLines (s : Surface) (scope : String) (p : ProviderPlan) (a : ActivityPair)
    (symbol : String) (w : EventWrite) : List String :=
  [s!"    ~{activityClassName a}()", "    \x7b"] ++
    guardedWrite symbol (templateCall s scope w.templateKey (activityArguments s p symbol)) ++
    ["    \x7d"]

/-- The lines of a class after its destructor. -/
def closingLines (a : ActivityPair) : List String :=
  let className := activityClassName a
  ["", s!"    {className}(const {className}&) = delete;",
    s!"    {className}& operator=(const {className}&) = delete;", "",
    "    const GUID& Id() const noexcept", "    \x7b", "        return m_id;", "    \x7d", "",
    "private:", "    GUID m_id;", "\x7d;", ""]

/-- The class of an activity. Both of its events have to be logged. `scope` stands before the names
of templates. -/
def activityClass (s : Surface) (scope : String) (p : ProviderPlan) (a : ActivityPair) :
    List String :=
  match p.events[a.start]?, p.events[a.stop]? with
  | some ⟨startSymbol, _, some start⟩, some ⟨stopSymbol, _, some stop⟩ =>
      [s!"class {activityClassName a}"] ++ constructorLines s scope p a startSymbol start ++
        destructorLines s scope p a stopSymbol stop ++ closingLines a
  | _, _ => []

end EventManifest.Header
