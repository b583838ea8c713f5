import EventManifest.Digest
import EventManifest.Json.Printer
import EventManifest.Manifest.Format

/-!
Where a compilation comes from: digests of the manifest's text and of its canonical form. The second
does not change with blanks, the order of members and the spelling of types.
-/

namespace EventManifest

/-- The canonical form of a manifest: compact, its fields in the order of their tables. -/
def Manifest.canonical (m : Manifest) : String :=
  m.toJson.compact

/-- The version of the compiler. -/
def compilerVersion : String :=
  "0.3.1"

structure Provenance where
  sourceHash : List UInt8
  schemaFingerprint : List UInt8
deriving DecidableEq, Repr

namespace Provenance

def ofSource (source : String) (m : Manifest) : Provenance :=
  ⟨Digest.ofText source, Digest.ofText m.canonical⟩

def toJson (p : Provenance) : Json :=
  .object
    [("source_hash", .string (Bytes.toHex p.sourceHash)),
      ("schema_fingerprint", .string (Bytes.toHex p.schemaFingerprint)),
      ("compiler_version", .string compilerVersion)]

/-- What is recorded with a build. -/
def buildInfo (p : Provenance) : String :=
  p.toJson.pretty ++ "\n"

end Provenance

end EventManifest
