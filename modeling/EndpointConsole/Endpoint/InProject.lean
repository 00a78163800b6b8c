import EndpointConsole.Endpoint.Detect
import EndpointConsole.Project.Find

/-!
Endpoints with the project file that they belong to.
-/
namespace EndpointConsole.Detect

/-- The endpoint declared on a line of a document, with its project file. -/
def detectInProject (composer : Route.Composer) (fs : Files) (d : Source.Document) (line : Nat) :
    Except Miss Endpoint × Route.Composer :=
  let (outcome, composer) := detect composer d.lines line d.file
  (outcome.map fun e => { e with project := Project.find? fs d.file }, composer)

end EndpointConsole.Detect
