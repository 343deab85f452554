import EngineClient.Text.Quoted
import EngineClient.Trust.Certificate
import EngineClient.Trust.Pem

/-!
# Trusted roots

The certificates that servers are checked against, and how they are gathered from files and buffers: every source
must be readable and whole and hold a certificate, or there are no roots at all. Files are read through any file
system, and `gather` is stated over any reader of sources and any check of certificates.
-/

namespace EngineClient

/-! ### Files -/

/-- Why a file cannot be opened or read. -/
inductive FileError
  | notFound
  | notDirectory
  | isDirectory
  | badName
  | other (text : String)
  deriving DecidableEq, Repr

def FileError.message : FileError → String
  | .notFound => "I/O error: No such file or directory (os error 2)"
  | .notDirectory => "I/O error: Not a directory (os error 20)"
  | .isDirectory => "I/O error: Is a directory (os error 21)"
  | .badName => "I/O error: file name contained an unexpected NUL byte"
  | .other text => "I/O error: " ++ text

/-- What is found under a path. -/
inductive FileEntry
  | file (bytes : Bytes)
  /-- Something that opens but cannot be read, as a directory does. -/
  | unreadable (cause : FileError)
  deriving DecidableEq, Repr

/-- A file system: what opening a path gives, be it absolute or relative. Without more there is no file at all. -/
structure Files where
  open? : String → Except FileError FileEntry := fun _ => .error .notFound

/-! ### Sources -/

/-- Where trusted certificates come from. -/
inductive CaSource
  | file (path : String)
  | pem (bytes : Bytes)
  deriving DecidableEq, Repr

/-- A source as messages name it: never its contents. -/
def CaSource.describe : CaSource → String
  | .file path => "File(" ++ Text.quotedPath path ++ ")"
  | .pem bytes => "Pem(" ++ Text.decimal bytes.length ++ " bytes)"

/-- Why roots cannot be gathered. -/
inductive TrustError
  | unopened (path : String) (cause : FileError)
  | unread (path : String) (cause : FileError)
  | malformedFile (path : String) (cause : Pem.Error)
  | malformedBytes (cause : Pem.Error)
  | noCertificate (source : CaSource)
  | badCertificate (cause : Certificate.Error)
  | noRoots
  deriving DecidableEq, Repr

def TrustError.message : TrustError → String
  | .unopened path e => "cannot read CA file " ++ path ++ ": " ++ e.message
  | .unread path e => "malformed CA file " ++ path ++ ": " ++ e.message
  | .malformedFile path e => "malformed CA file " ++ path ++ ": " ++ e.message
  | .malformedBytes e => "malformed CA certificate bytes: " ++ e.message
  | .noCertificate source => "CA source " ++ source.describe ++ " contains no certificates"
  | .badCertificate e => "invalid CA certificate: " ++ e.message
  | .noRoots => "no trusted CA certificates were supplied"

namespace CaSource

/-- The certificates of a source, in order, not yet checked. -/
def read (fs : Files) : CaSource → Except TrustError (List Bytes)
  | .file path =>
    match fs.open? path with
    | .error e => .error (.unopened path e)
    | .ok (.unreadable e) => .error (.unread path e)
    | .ok (.file bytes) => (Pem.certificates true bytes).mapError (.malformedFile path)
  | .pem bytes => (Pem.certificates false bytes).mapError .malformedBytes

end CaSource

namespace TrustStore

def rootsOf (read : CaSource → Except TrustError (List Bytes)) (check : Bytes → Except Certificate.Error Unit)
    (source : CaSource) : Except TrustError (List Bytes) := do
  let certificates ← read source
  if certificates.isEmpty then throw (.noCertificate source)
  certificates.forM fun c => (check c).mapError .badCertificate
  return certificates

/-- The roots of all sources in order, decided by the first source that fails. -/
def gather (read : CaSource → Except TrustError (List Bytes)) (check : Bytes → Except Certificate.Error Unit)
    (sources : List CaSource) : Except TrustError (List Bytes) := do
  let roots ← sources.mapM (rootsOf read check)
  if roots.isEmpty then throw .noRoots
  return roots.flatten

def load (fs : Files) (sources : List CaSource) : Except TrustError (List Bytes) :=
  gather (CaSource.read fs) Certificate.check sources

end TrustStore

/-- How servers are judged. -/
inductive Trust
  /-- By the roots built in. -/
  | bundled
  /-- By the roots of the operating system. -/
  | system
  /-- By the given roots alone. -/
  | custom (sources : List CaSource)
  /-- Not at all. -/
  | insecure
  deriving DecidableEq, Repr

/-- Adds a source to the given roots, or makes it the first of them. -/
def Trust.push (source : CaSource) : Trust → Trust
  | .custom sources => .custom (sources ++ [source])
  | _ => .custom [source]

end EngineClient
