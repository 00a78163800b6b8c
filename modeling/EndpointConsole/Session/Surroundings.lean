import EndpointConsole.Files
import EndpointConsole.Request.Http

/-!
What lies around a session: the files, the answers that requests get, the way a
launch goes, and the clock. Requests and launches are recorded. Each reading of
the clock is later than the one before.
-/
namespace EndpointConsole

/-- A request that was sent, with the time it may take in seconds. -/
structure SentRequest where
  request : HttpRequest
  seconds : Nat
  deriving Repr, DecidableEq

/-- A project that was launched, with the environment variables it was given. -/
structure Launch where
  project : Text
  environment : List (Text × Text)
  deriving Repr, DecidableEq

structure Surroundings where
  files : Files
  /-- The answers to the requests to come, of which the last repeats. -/
  responses : List HttpResponse := []
  /-- Why the launch of a project fails, the outermost reason first; none if it does not fail. -/
  launchFailure? : Text → Option (List Text) := fun _ => none
  /-- Milliseconds since 1970. -/
  clock : Nat := 0
  sent : List SentRequest := []
  launches : List Launch := []

namespace Surroundings

/-- Reads the clock. -/
def now (s : Surroundings) : Nat × Surroundings := (s.clock, { s with clock := s.clock + 1 })

/-- The answer to the next request, and the answers after that. -/
def nextResponse : List HttpResponse → HttpResponse × List HttpResponse
  | [] => ({}, [])
  | [last] => (last, [last])
  | next :: rest => (next, rest)

/-- Sends a request. -/
def send (s : Surroundings) (request : HttpRequest) (seconds : Nat) : HttpResponse × Surroundings :=
  let (response, responses) := nextResponse s.responses
  (response, { s with responses, sent := s.sent ++ [⟨request, seconds⟩] })

/-- The reasons that a launch fails for when the launching program is missing. -/
def noLauncher (project : Text) : List Text :=
  ["spawn dotnet run --project ".toList ++ project, Files.Failure.notFound.message]

/-- Launches a project; the result says why it failed, if it did. -/
def launch (s : Surroundings) (project : Text) (environment : List (Text × Text)) :
    Option (List Text) × Surroundings :=
  (s.launchFailure? project, { s with launches := s.launches ++ [⟨project, environment⟩] })

end Surroundings

end EndpointConsole
