/-!
The code that all headers with inline functions share: the context of a provider, its callback, and
the functions that register it and write its events.
-/

namespace EventManifest.Header.Functions

def sharedCode : List String :=
  ["struct ProviderContext",
    "\x7b",
    "    REGHANDLE RegistrationHandle;",
    "    ULONGLONG MatchAnyKeyword;",
    "    ULONGLONG MatchAllKeyword;",
    "    UCHAR Level;",
    "    bool IsEnabled;",
    "    const char* Traits;",
    "    USHORT TraitsSize;",
    "    USHORT EnableBitCount;",
    "    ULONG* EnableBits;",
    "    const ULONGLONG* Keywords;",
    "    const UCHAR* Levels;",
    "\x7d;",
    "",
    "inline bool LevelKeywordEnabled(const ProviderContext& Context, UCHAR Level, ULONGLONG " ++
      "Keyword) noexcept",
    "\x7b",
    "    if (Level > Context.Level && Context.Level != 0) \x7b",
    "        return false;",
    "    \x7d",
    "    return Keyword == 0",
    "        || ((Keyword & Context.MatchAnyKeyword) != 0",
    "            && (Keyword & Context.MatchAllKeyword) == Context.MatchAllKeyword);",
    "\x7d",
    "",
    "inline void NTAPI EnableCallback(",
    "    LPCGUID SourceId,",
    "    ULONG ControlCode,",
    "    UCHAR Level,",
    "    ULONGLONG MatchAnyKeyword,",
    "    ULONGLONG MatchAllKeyword,",
    "    PEVENT_FILTER_DESCRIPTOR FilterData,",
    "    PVOID CallbackContext)",
    "\x7b",
    "    (void)SourceId;",
    "    (void)FilterData;",
    "    auto* Context = static_cast<ProviderContext*>(CallbackContext);",
    "    if (Context == nullptr) \x7b",
    "        return;",
    "    \x7d",
    "    switch (ControlCode) \x7b",
    "    case EVENT_CONTROL_CODE_ENABLE_PROVIDER:",
    "        Context->Level = Level;",
    "        Context->MatchAnyKeyword = MatchAnyKeyword;",
    "        Context->MatchAllKeyword = MatchAllKeyword;",
    "        Context->IsEnabled = true;",
    "        for (USHORT Bit = 0; Bit < Context->EnableBitCount; ++Bit) \x7b",
    "            const ULONG Mask = 1ul << (Bit % 32);",
    "            if (LevelKeywordEnabled(*Context, Context->Levels[Bit], " ++
      "Context->Keywords[Bit])) \x7b",
    "                Context->EnableBits[Bit / 32] |= Mask;",
    "            \x7d else \x7b",
    "                Context->EnableBits[Bit / 32] &= ~Mask;",
    "            \x7d",
    "        \x7d",
    "        break;",
    "    case EVENT_CONTROL_CODE_DISABLE_PROVIDER:",
    "        Context->IsEnabled = false;",
    "        Context->Level = 0;",
    "        Context->MatchAnyKeyword = 0;",
    "        Context->MatchAllKeyword = 0;",
    "        for (USHORT Word = 0; Word < (Context->EnableBitCount + 31) / 32; ++Word) \x7b",
    "            Context->EnableBits[Word] = 0;",
    "        \x7d",
    "        break;",
    "    default:",
    "        break;",
    "    \x7d",
    "\x7d",
    "",
    "inline ULONG Register(const GUID& ProviderId, ProviderContext& Context) noexcept",
    "\x7b",
    "    const ULONG Error = ::EventRegister(&ProviderId, &EnableCallback, &Context, " ++
      "&Context.RegistrationHandle);",
    "    if (Error == ERROR_SUCCESS && Context.TraitsSize != 0) \x7b",
    "        ::EventSetInformation(",
    "            Context.RegistrationHandle,",
    "            EventProviderSetTraits,",
    "            const_cast<char*>(Context.Traits),",
    "            Context.TraitsSize);",
    "    \x7d",
    "    return Error;",
    "\x7d",
    "",
    "inline ULONG Unregister(ProviderContext& Context) noexcept",
    "\x7b",
    "    const ULONG Error = ::EventUnregister(Context.RegistrationHandle);",
    "    Context.RegistrationHandle = 0;",
    "    return Error;",
    "\x7d",
    "",
    "// Slot 0 always carries the provider traits (possibly empty).",
    "inline ULONG WriteEvent(",
    "    const ProviderContext& Context,",
    "    const EVENT_DESCRIPTOR& Descriptor,",
    "    _In_opt_ const GUID* ActivityId,",
    "    _In_opt_ const GUID* RelatedActivityId,",
    "    ULONG Count,",
    "    _Inout_updates_(Count) EVENT_DATA_DESCRIPTOR* Data) noexcept",
    "\x7b",
    "    ::EventDataDescCreate(&Data[0], Context.Traits, Context.TraitsSize);",
    "    Data[0].Type = EVENT_DATA_DESCRIPTOR_TYPE_PROVIDER_METADATA;",
    "    return ::EventWriteTransfer(",
    "        Context.RegistrationHandle, &Descriptor, ActivityId, RelatedActivityId, Count, Data);",
    "\x7d"]

end EventManifest.Header.Functions
