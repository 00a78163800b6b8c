import EndpointConsole.Panel
import EndpointConsole.Proofs.Settings.Derived
import Mathlib.Data.List.Count

/-!
What a panel does with a message from its view. It answers unless a number that it needs does not
fit its word (`handle_eq_error_iff`): the time before which history goes, for a view that is ready,
or the size of a body to be kept, for a request. Otherwise the view is started when it is ready for
the first time, and a request is sent once and answered by its response and the history
(`handles_of_ok`).
-/
namespace EndpointConsole

/-- Whether the time before which items go does not fit a signed word. -/
def History.Overflows (h : History) (now : Int) : Prop :=
  ∃ time, h.kept = some time ∧ ¬(minSigned ≤ now - wrappedSigned time ∧ now - wrappedSigned time ≤ maxSigned)

theorem History.get_eq_error_iff {h : History} {bucket : Text} {now : Int} {o : Overflow} :
    h.get bucket now = .error o ↔ h.Overflows now := by
  rw [get, map_eq_error_iff, pruned, Overflows]
  cases kept : h.kept with
  | none => exact ⟨nofun, nofun⟩
  | some time =>
    dsimp only
    rw [map_eq_error_iff, checkedSigned]
    split
    · next fits => exact ⟨nofun, fun ⟨_, same, beyond⟩ => by cases same; exact absurd fits beyond⟩
    · next beyond => exact ⟨fun _ => ⟨time, rfl, beyond⟩, fun _ => rfl⟩

namespace Panel

/-- The messages that a panel cannot handle, as a number does not fit its word. -/
inductive Overflows (p : Panel) (s : Session) : Inbound → Prop where
  | retention {h : History} (isNew : p.isNew = true) (keeps : s.history = some h)
      (beyond : h.Overflows s.surroundings.clock) : Overflows p s .ready
  | body (submission : Submission) (keeps : s.history.isSome = true) (beyond : s.settings.BodyOverflows) :
      Overflows p s (.sendRequest submission)

variable {p : Panel} {s : Session} {m : Inbound} {step : Step} {o : Overflow}

theorem ready_eq_error_iff : p.ready s = .error o ↔ Overflows p s .ready := by
  rw [ready]
  cases isNew : p.isNew with
  | false => exact ⟨nofun, fun | .retention first _ _ => absurd (isNew.symm.trans first) Bool.false_ne_true⟩
  | true =>
    cases keeps : s.history with
    | none =>
      simp only [enriched, keeps]
      exact ⟨nofun, fun | .retention _ kept _ => nomatch keeps.symm.trans kept⟩
    | some h =>
      simp only [enriched, keeps, Bool.not_true, Bool.false_eq_true, if_false, map_eq_error_iff,
        History.get_eq_error_iff]
      exact ⟨.retention isNew keeps, fun | .retention _ kept beyond => Option.some.inj (keeps.symm.trans kept) ▸ beyond⟩

theorem send_eq_error_iff {submission : Submission} :
    p.send s submission = .error o ↔ Overflows p s (.sendRequest submission) := by
  rw [send, map_eq_error_iff, keep]
  cases keeps : s.history with
  | none => exact ⟨nofun, fun | .body _ kept _ => by rw [keeps] at kept; cases kept⟩
  | some h =>
    dsimp only
    rw [map_eq_error_iff, Settings.historyBodyBytes?_eq_error_iff]
    exact ⟨.body submission (by rw [keeps]; rfl), fun | .body _ _ beyond => beyond⟩

/-- A panel handles every message for which its numbers fit. -/
theorem handle_eq_error_iff : p.handle s m = .error o ↔ Overflows p s m := by
  cases m with
  | ready => exact ready_eq_error_iff
  | sendRequest submission => exact send_eq_error_iff
  | requestBaseUrls => exact ⟨nofun, nofun⟩
  | saveBaseUrls urls =>
    rw [handle]
    split <;> exact ⟨nofun, nofun⟩
  | startDebug => exact ⟨nofun, nofun⟩
  | clearHistory => exact ⟨nofun, nofun⟩

/-- Whether a reply hands over the endpoint that a view starts with. -/
def Outbound.isStart : Outbound → Bool
  | .start _ => true
  | _ => false

/-- The requests that a message asks to send, with the seconds they may take. -/
def Inbound.requests (seconds : Nat) : Inbound → List SentRequest
  | .sendRequest submission => [⟨submission.resolve.1, seconds⟩]
  | _ => []

/-- The answer to a request: its response, then the history if one is kept. -/
inductive AnswersRequest (s : Session) : List Outbound → Prop where
  | alone {response : HttpResponse} (forgets : s.history = none) : AnswersRequest s [.response response]
  | recorded {response : HttpResponse} {items : List History.Item} (keeps : s.history.isSome = true) :
      AnswersRequest s [.response response, .history items]

/-- What a message leads to. -/
structure Handles (p : Panel) (s : Session) (m : Inbound) (step : Step) : Prop where
  /-- The view is started when it is ready for the first time. -/
  starts : step.replies.countP Outbound.isStart = if p.isNew = true ∧ m = .ready then 1 else 0
  isNew : step.panel.isNew = true ↔ p.isNew = true ∧ m ≠ .ready
  settings : step.session.settings = s.settings
  history : step.session.history.isSome = s.history.isSome
  /-- A request is sent once, and nothing else is sent. -/
  sent : step.session.surroundings.sent = s.surroundings.sent ++ m.requests s.settings.requestSeconds
  request : ∀ submission, m = .sendRequest submission → AnswersRequest s step.replies

/-- A message that neither starts the view nor sends anything. -/
theorem Handles.of_quiet (other : m ≠ .ready) (quiet : ∀ submission, m ≠ .sendRequest submission)
    (starts : step.replies.countP Outbound.isStart = 0) (isNew : step.panel.isNew = p.isNew)
    (settings : step.session.settings = s.settings) (history : step.session.history.isSome = s.history.isSome)
    (sent : step.session.surroundings.sent = s.surroundings.sent) : Handles p s m step where
  starts := by rw [starts, if_neg fun both => other both.2]
  isNew := by rw [isNew, and_iff_left other]
  settings := settings
  history := history
  sent := by
    have nothing : m.requests s.settings.requestSeconds = [] := by
      cases m with
      | sendRequest submission => exact absurd rfl (quiet submission)
      | ready | requestBaseUrls | saveBaseUrls | startDebug | clearHistory => rfl
    rw [sent, nothing, List.append_nil]
  request := fun submission same => absurd same (quiet submission)

theorem ready_handles (ready : p.ready s = .ok step) : Handles p s .ready step := by
  rw [Panel.ready] at ready
  cases isNew : p.isNew with
  | false =>
    rw [isNew] at ready
    cases ready
    exact ⟨by simp [isNew], by simp [isNew], rfl, rfl, (List.append_nil _).symm, by simp⟩
  | true =>
    rw [isNew] at ready
    cases keeps : s.history with
    | none =>
      simp only [enriched, keeps, Bool.not_true, Bool.false_eq_true, if_false, Except.ok.injEq] at ready
      subst ready
      exact ⟨by rw [if_pos ⟨isNew, rfl⟩]; rfl, by simp, rfl, by rw [keeps],
        (List.append_nil _).symm, by simp⟩
    | some h =>
      simp only [enriched, keeps, Bool.not_true, Bool.false_eq_true, if_false, map_eq_ok_iff] at ready
      obtain ⟨⟨items, next⟩, _, rfl⟩ := ready
      exact ⟨by rw [if_pos ⟨isNew, rfl⟩]; rfl, by simp, rfl, by rw [keeps]; rfl,
        (List.append_nil _).symm, by simp⟩

theorem send_handles {submission : Submission} (sends : p.send s submission = .ok step) :
    Handles p s (.sendRequest submission) step := by
  rw [send, map_eq_ok_iff] at sends
  obtain ⟨⟨replies, next⟩, kept, rfl⟩ := sends
  rw [keep] at kept
  cases keeps : s.history with
  | none =>
    simp only [keeps, Except.ok.injEq, Prod.mk.injEq] at kept
    obtain ⟨rfl, rfl⟩ := kept
    exact ⟨by rw [if_neg nofun]; rfl, by simp, rfl, by rw [keeps], rfl, fun _ _ => .alone keeps⟩
  | some h =>
    simp only [keeps, map_eq_ok_iff, Prod.mk.injEq] at kept
    obtain ⟨limit, _, rfl, rfl⟩ := kept
    exact ⟨by rw [if_neg nofun]; rfl, by simp, rfl, by rw [keeps]; rfl, rfl, fun _ _ => .recorded (by rw [keeps]; rfl)⟩

theorem startProject_handles : Handles p s .startDebug (p.startProject s) := by
  rw [startProject]
  cases p.project with
  | none => exact .of_quiet (by simp) (by simp) rfl rfl rfl rfl rfl
  | some project =>
    refine .of_quiet (by simp) (by simp) ?_ rfl rfl rfl rfl
    simp only [Surroundings.launch]
    cases s.surroundings.launchFailure? project <;> rfl

theorem handles_of_ok (handled : p.handle s m = .ok step) : Handles p s m step := by
  cases m with
  | ready => exact ready_handles handled
  | sendRequest submission => exact send_handles handled
  | requestBaseUrls =>
    cases handled
    exact .of_quiet (by simp) (by simp) rfl rfl rfl rfl rfl
  | saveBaseUrls urls =>
    rw [handle] at handled
    split at handled <;> cases handled <;> exact .of_quiet (by simp) (by simp) rfl rfl rfl rfl rfl
  | startDebug =>
    cases handled
    exact startProject_handles
  | clearHistory =>
    cases handled
    exact .of_quiet (by simp) (by simp) rfl rfl rfl (Option.isSome_map ..) rfl

end Panel

end EndpointConsole
