import EventManifest.Text.Blank
import EventManifest.Text.Hex
import EventManifest.Identifier
import EventManifest.Bytes
import EventManifest.Guid
import EventManifest.Number.Binary64
import EventManifest.Number.Shortest
import EventManifest.Json.Damage
import EventManifest.Json.Quoted
import EventManifest.Json.Numeral
import EventManifest.Json.Value
import EventManifest.Json.Token
import EventManifest.Json.Tree
import EventManifest.Text.Invisible
import EventManifest.Text.Display
import EventManifest.Text.Lines
import EventManifest.Json.Fault
import EventManifest.Json.Codec
import EventManifest.Json.Record
import EventManifest.Manifest.InType
import EventManifest.Manifest.Property
import EventManifest.Manifest.Provider
import EventManifest.Json.Printer
import EventManifest.Manifest.PropertyFormat
import EventManifest.Manifest.Format
import EventManifest.Digest
import EventManifest.Provenance
import EventManifest.Defect
import EventManifest.Diagnostic
import EventManifest.Shape.Basic
import EventManifest.Shape.Signature
import EventManifest.Transfer.Native
import EventManifest.Transfer.Expression
import EventManifest.Transfer.Basic
import EventManifest.Template.Layout
import EventManifest.KeyedTable
import EventManifest.Symbol.Entity
import EventManifest.Symbol.Parameter
import EventManifest.Symbol.Table
import EventManifest.Template.Table
import EventManifest.Traits
import EventManifest.Activity
import EventManifest.Distinct
import EventManifest.Plan.Basic
import EventManifest.Plan.Build
import EventManifest.Plan.Format
import EventManifest.Header.Options
import EventManifest.Header.Surface
import EventManifest.Header.ActivityClass
import EventManifest.Header.FunctionsShared
import EventManifest.Header.Functions
import EventManifest.Header.MacrosShared
import EventManifest.Header.Macros
import EventManifest.Header.Render
import EventManifest.Stage
import EventManifest.Compilation
import EventManifest.CommandLine.File
import EventManifest.CommandLine.Arguments
import EventManifest.CommandLine.Command
import EventManifest.CommandLine.Folder
import EventManifest.Main
import EventManifest.Proofs.Outcome
import EventManifest.Proofs.Shape.Resolution
import EventManifest.Proofs.Shape.Signature
import EventManifest.Proofs.Transfer.Sharing
import EventManifest.Proofs.Template.Sharing
import EventManifest.Proofs.Text.ByteOrder
import EventManifest.Proofs.KeyedTable
import EventManifest.Proofs.Template.Table
import EventManifest.Proofs.Plan.Build
import EventManifest.Proofs.Plan.Templates
import EventManifest.Proofs.Transfer.Scope
import EventManifest.Proofs.Plan.Reports
import EventManifest.Proofs.Compilation
import EventManifest.Proofs.Activity.Candidates
import EventManifest.Proofs.Text.Slice
import EventManifest.Proofs.Activity.Naming
import EventManifest.Proofs.Activity.Scan
import EventManifest.Proofs.Plan.Capture
import EventManifest.Proofs.Activity.Order
import EventManifest.Proofs.Plan.Outline
import EventManifest.Proofs.Plan.Decoders
import EventManifest.Proofs.Json.Spelling
import EventManifest.Proofs.Json.Grammar
import EventManifest.Proofs.Json.Printing
import EventManifest.Proofs.Json.RoundTrip
import EventManifest.Proofs.Manifest.Properties
import EventManifest.Proofs.Manifest.RoundTrip
import EventManifest.Proofs.Json.Reordering
import EventManifest.Proofs.Manifest.Reordering
import EventManifest.Proofs.Plan.Composition
import EventManifest.Proofs.Plan.Identifiers
import EventManifest.Proofs.Symbol.Identifier
import EventManifest.Proofs.Text.Lines
import EventManifest.Proofs.Header.ProviderNames
import EventManifest.Proofs.Text.Occurrence
import EventManifest.Proofs.Header.Expressions
import EventManifest.Proofs.Header.FillLines
import EventManifest.Proofs.Header.Dialects
import EventManifest.Proofs.Traits.Reading
import EventManifest.Proofs.CommandLine.Folder
import EventManifest.Proofs.CommandLine.Contract
import EventManifest.Proofs.Plan.Activities
import EventManifest.Proofs.Header.Reading
import EventManifest.Proofs.Header.ActivityClasses
import EventManifest.Proofs.Plan.Existence
import EventManifest.Proofs.Plan.Limits
import EventManifest.Proofs.Transfer.Access
import EventManifest.Proofs.Header.TraitsSize
import EventManifest.Proofs.Symbol.AnonymousEvents
import EventManifest.Proofs.Shape.Validity
import EventManifest.Proofs.Plan.Agreement
import EventManifest.Proofs.Plan.EnableBits
import EventManifest.Proofs.Header.EnableTests
import EventManifest.Proofs.Template.History
import EventManifest.Proofs.Template.Renaming
import EventManifest.Proofs.Plan.Refusal
import EventManifest.Proofs.Template.Layout
import EventManifest.Proofs.Manifest.GuidText
import EventManifest.Proofs.Transfer.Carriers
import EventManifest.Proofs.Symbol.MapItems
import EventManifest.Proofs.Symbol.Sanitization
