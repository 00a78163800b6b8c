import EndpointConsole.History.Mask
import EndpointConsole.Panel.Inbound
import EndpointConsole.Panel.Outbound
import EndpointConsole.Session

/-!
The panel of one endpoint. When its view is ready for the first time, the panel
finds the project and the base URL, and hands over what the view starts with.
After that it sends requests, keeps the history and the base URLs, and starts
the project.
-/
namespace EndpointConsole

structure Panel where
  endpoint : Endpoint
  /-- Whether the view has not been ready yet. -/
  isNew : Bool := true
  /-- The project that base URLs are kept for and that is started. -/
  project : Option Text := none
  deriving Repr, DecidableEq, Inhabited

namespace Panel

/-- What handling a message leads to. -/
structure Step where
  replies : List Outbound
  panel : Panel
  session : Session

def loadBaseUrls (p : Panel) (s : Session) : Outbound :=
  .baseUrls ((p.project.map s.baseUrls.urls).getD [])

/-- The panel with its project and its full URL. -/
def enriched (p : Panel) (s : Session) : Panel × Session :=
  let files := s.surroundings.files
  let project := p.endpoint.project <|> Project.find? files p.endpoint.file
  let (url, projectUrls) := s.projectUrls.resolve files p.endpoint.file
  let endpoint := { p.endpoint with project }.attachBaseUrl url
  ({ p with endpoint, project, isNew := false }, { s with projectUrls })

/-- The view is ready. Only the first time counts. -/
def ready (p : Panel) (s : Session) : Checked Step :=
  if !p.isNew then .ok ⟨[], p, s⟩
  else
    let (p, s) := p.enriched s
    let replies : List Outbound := [
      .texts (Message.viewTexts s.language),
      .renderSettings s.settings.largeResponseBytes s.settings.renderedLineNumbers,
      .start p.endpoint,
      p.loadBaseUrls s]
    match s.history with
    | none => .ok ⟨replies, p, s⟩
    | some h =>
      let (now, surroundings) := s.surroundings.now
      (h.get (History.bucketOf p.endpoint) now).map fun (items, h) =>
        ⟨replies ++ [.history items], p, { s with surroundings, history := some h }⟩

/-- Puts a request that was answered into the history. -/
def keep (p : Panel) (s : Session) (query : Text) (request : HttpRequest) (status : Option Nat) :
    Checked (List Outbound × Session) :=
  match s.history with
  | none => .ok ([], s)
  | some h =>
    let (now, surroundings) := s.surroundings.now
    let item := History.Item.make query (request.body.getD []) status now
    s.settings.historyBodyBytes?.map fun limit =>
      let (items, h) := h.add (History.bucketOf p.endpoint) (item.masked limit) s.settings.historyLimit
      ([.history items], { s with surroundings, history := some h })

/-- Sends a request. -/
def send (p : Panel) (s : Session) (submission : Submission) : Checked Step :=
  let (request, query) := submission.resolve
  let (response, surroundings) := s.surroundings.send request s.settings.requestSeconds
  (p.keep { s with surroundings } query request response.status).map fun (replies, s) =>
    ⟨.response response :: replies, p, s⟩

/-- Starts the project. -/
def startProject (p : Panel) (s : Session) : Step :=
  let text (name : String) (args : List Text) : Text := Message.text s.language name.toList args
  match p.project with
  | none => ⟨[.runStatus .failed (text "error.noProjectFile" [])], p, s⟩
  | some project =>
    let name := (Path.stem? project).getD project
    let environment := LaunchProfile.environment s.surroundings.files project
    let (failure, surroundings) := s.surroundings.launch project environment
    let outcome : Outbound :=
      match failure with
      | none => .runStatus .running (text "debug.running" [name])
      | some reasons => .runStatus .failed (text "debug.failed" [Text.joinWith ": ".toList reasons])
    ⟨[.runStatus .starting (text "debug.starting" [name]), outcome], p, { s with surroundings }⟩

/-- Handles a message from the view. -/
def handle (p : Panel) (s : Session) : Inbound → Checked Step
  | .ready => p.ready s
  | .sendRequest submission => p.send s submission
  | .requestBaseUrls => .ok ⟨[p.loadBaseUrls s], p, s⟩
  | .saveBaseUrls urls =>
    match p.project with
    | none => .ok ⟨[], p, s⟩
    | some project => .ok ⟨[], p, { s with baseUrls := s.baseUrls.save project urls }⟩
  | .startDebug => .ok (p.startProject s)
  | .clearHistory =>
    .ok ⟨[.history []], p, { s with history := s.history.map (·.clear (History.bucketOf p.endpoint)) }⟩

end Panel

end EndpointConsole
