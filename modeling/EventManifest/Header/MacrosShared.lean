/-!
The code that all headers with macros share: the context of a provider, its callback, and the
functions that register it and write its events.
-/

namespace EventManifest.Header.Macros

def traceContext : List String :=
  ["#ifndef MCGEN_TRACE_CONTEXT_DEF",
    "#define MCGEN_TRACE_CONTEXT_DEF",
    "typedef struct _MCGEN_TRACE_CONTEXT",
    "\x7b",
    "    REGHANDLE RegistrationHandle;",
    "    ULONGLONG MatchAnyKeyword;",
    "    ULONGLONG MatchAllKeyword;",
    "    UCHAR Level;",
    "    BOOLEAN IsEnabled;",
    "    const char* Traits;",
    "    USHORT TraitsSize;",
    "    USHORT EnableBitCount;",
    "    PULONG EnableBits;",
    "    const ULONGLONG* EnableKeyWords;",
    "    const UCHAR* EnableLevel;",
    "\x7d MCGEN_TRACE_CONTEXT, *PMCGEN_TRACE_CONTEXT;",
    "#endif // MCGEN_TRACE_CONTEXT_DEF",
    ""]

def sharedCode : List String :=
  ["#ifndef MCGEN_EMC_RUNTIME_DEF",
    "#define MCGEN_EMC_RUNTIME_DEF",
    "",
    "FORCEINLINE BOOLEAN",
    "McGenLevelKeywordEnabled(",
    "    _In_ PMCGEN_TRACE_CONTEXT Context,",
    "    _In_ UCHAR Level,",
    "    _In_ ULONGLONG Keyword)",
    "\x7b",
    "    if (Level > Context->Level && Context->Level != 0) \x7b",
    "        return FALSE;",
    "    \x7d",
    "    if (Keyword == 0) \x7b",
    "        return TRUE;",
    "    \x7d",
    "    return (Keyword & Context->MatchAnyKeyword) != 0",
    "        && (Keyword & Context->MatchAllKeyword) == Context->MatchAllKeyword;",
    "\x7d",
    "",
    "DECLSPEC_NOINLINE __inline VOID NTAPI",
    "McGenControlCallbackV2(",
    "    _In_ LPCGUID SourceId,",
    "    _In_ ULONG ControlCode,",
    "    _In_ UCHAR Level,",
    "    _In_ ULONGLONG MatchAnyKeyword,",
    "    _In_ ULONGLONG MatchAllKeyword,",
    "    _In_opt_ PEVENT_FILTER_DESCRIPTOR FilterData,",
    "    _Inout_opt_ PVOID CallbackContext)",
    "\x7b",
    "    PMCGEN_TRACE_CONTEXT Context = (PMCGEN_TRACE_CONTEXT)CallbackContext;",
    "    ULONG Bit;",
    "",
    "    UNREFERENCED_PARAMETER(SourceId);",
    "    UNREFERENCED_PARAMETER(FilterData);",
    "    if (Context == NULL) \x7b",
    "        return;",
    "    \x7d",
    "    switch (ControlCode) \x7b",
    "    case EVENT_CONTROL_CODE_ENABLE_PROVIDER:",
    "        Context->Level = Level;",
    "        Context->MatchAnyKeyword = MatchAnyKeyword;",
    "        Context->MatchAllKeyword = MatchAllKeyword;",
    "        Context->IsEnabled = TRUE;",
    "        for (Bit = 0; Bit < Context->EnableBitCount; Bit += 1) \x7b",
    "            if (McGenLevelKeywordEnabled(Context, Context->EnableLevel[Bit], " ++
      "Context->EnableKeyWords[Bit])) \x7b",
    "                Context->EnableBits[Bit >> 5] |= (1ul << (Bit % 32));",
    "            \x7d else \x7b",
    "                Context->EnableBits[Bit >> 5] &= ~(1ul << (Bit % 32));",
    "            \x7d",
    "        \x7d",
    "        break;",
    "    case EVENT_CONTROL_CODE_DISABLE_PROVIDER:",
    "        Context->IsEnabled = FALSE;",
    "        Context->Level = 0;",
    "        Context->MatchAnyKeyword = 0;",
    "        Context->MatchAllKeyword = 0;",
    "        if (Context->EnableBitCount != 0) \x7b",
    "            RtlZeroMemory(Context->EnableBits, (((Context->EnableBitCount - 1) / 32) + " ++
      "1) * sizeof(ULONG));",
    "        \x7d",
    "        break;",
    "    default:",
    "        break;",
    "    \x7d",
    "\x7d",
    "",
    "FORCEINLINE ULONG",
    "McGenEventRegister(",
    "    _In_ LPCGUID ProviderId,",
    "    _Inout_ PMCGEN_TRACE_CONTEXT Context)",
    "\x7b",
    "    ULONG Error = EventRegister(ProviderId, McGenControlCallbackV2, Context, " ++
      "&Context->RegistrationHandle);",
    "    if (Error == ERROR_SUCCESS && Context->TraitsSize != 0) \x7b",
    "        EventSetInformation(",
    "            Context->RegistrationHandle,",
    "            EventProviderSetTraits,",
    "            (PVOID)Context->Traits,",
    "            Context->TraitsSize);",
    "    \x7d",
    "    return Error;",
    "\x7d",
    "",
    "FORCEINLINE ULONG",
    "McGenEventUnregister(_Inout_ PMCGEN_TRACE_CONTEXT Context)",
    "\x7b",
    "    ULONG Error = EventUnregister(Context->RegistrationHandle);",
    "    Context->RegistrationHandle = 0;",
    "    return Error;",
    "\x7d",
    "",
    "FORCEINLINE ULONG",
    "McGenEventWrite(",
    "    _In_ PMCGEN_TRACE_CONTEXT Context,",
    "    _In_ PCEVENT_DESCRIPTOR Descriptor,",
    "    _In_opt_ const GUID* ActivityId,",
    "    _In_opt_ const GUID* RelatedActivityId,",
    "    _In_range_(1, 128) ULONG EventDataCount,",
    "    _Inout_updates_(EventDataCount) EVENT_DATA_DESCRIPTOR* EventData)",
    "\x7b",
    "    EventDataDescCreate(&EventData[0], Context->Traits, Context->TraitsSize);",
    "    EventData[0].Type = EVENT_DATA_DESCRIPTOR_TYPE_PROVIDER_METADATA;",
    "    return EventWriteTransfer(",
    "        Context->RegistrationHandle, Descriptor, ActivityId, RelatedActivityId, " ++
      "EventDataCount, EventData);",
    "\x7d",
    "",
    "#endif // MCGEN_EMC_RUNTIME_DEF",
    ""]

end EventManifest.Header.Macros
