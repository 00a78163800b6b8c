import EndpointConsole.Files
import EndpointConsole.Source.Document

/-!
Source documents of files on disk. A file that cannot be read is reported with
its path.
-/
namespace EndpointConsole.Source

/-- Why a file could not be read. -/
structure ReadFailure where
  path : Text
  cause : Files.Failure
  deriving Repr, DecidableEq

def ReadFailure.message (f : ReadFailure) : Text := "read ".toList ++ f.path ++ ": ".toList ++ f.cause.message

/-- The document of a file as it is on disk, in version zero. -/
def Document.read (fs : Files) (path : Text) : Except ReadFailure Document :=
  match fs.readText path with
  | .ok text => .ok (.ofFile path 0 text)
  | .error cause => .error ⟨path, cause⟩

end EndpointConsole.Source
