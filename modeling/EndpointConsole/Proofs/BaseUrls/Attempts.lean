import EndpointConsole.Proofs.BaseUrls.Sections

/-!
What the writes of a run leave. The file holds what the last write that succeeded put there
(`Run.load_eq_held`). Once a request has returned and nothing is saved after it, the lists are
those of the last write that was tried, whether or not it succeeded (`Run.tried`): no change
waits any more (`Run.quiet`), and a change waits until a write of the lists is tried (`Run.owed`).
-/
namespace EndpointConsole.BaseUrls.Interleaved
open Sorted (Increasing)
open Json (lookup?)

variable {fs : Files} {path project : Text} {es : List Event} {e : Event} {s next : System}

/-- What some events show last. -/
def last? {β : Type} (shown : Event → Option β) (es : List Event) : Option β := es.reverse.findSome? shown

theorem last?_concat {β : Type} (shown : Event → Option β) :
    last? shown (es ++ [e]) = (shown e).or (last? shown es) := by
  rw [last?, List.reverse_append, List.reverse_singleton, List.singleton_append, List.findSome?_cons]
  cases shown e <;> rfl

/-- The lists of a write, and whether it succeeds. -/
def Event.write? : Event → Option (List (Text × List Text) × Bool)
  | write lists succeeds => some (lists, succeeds)
  | _ => none

/-- The lists that a write leaves in the file. -/
def Event.left? : Event → Option (List (Text × List Text))
  | write lists true => some lists
  | _ => none

/-- The URLs that are saved for a project. -/
def Event.saved? (project : Text) : Event → Option (List Text)
  | save name urls => if name = project then some urls else none
  | _ => none

def lastWrite? : List Event → Option (List (Text × List Text) × Bool) := last? Event.write?

def lastSaved? (project : Text) : List Event → Option (List Text) := last? (Event.saved? project)

/-- The lists of the last write that succeeds, or else those at first. -/
def held (first : List (Text × List Text)) (es : List Event) : List (Text × List Text) := (last? Event.left? es).getD first

/-- Nothing is saved. -/
def Unsaved (es : List Event) : Prop := ∀ project urls, .save project urls ∉ es

/-- A request has returned, and nothing is saved after it. -/
def Flushed (es : List Event) : Prop := ∃ before request later, es = before ++ .answer request :: later ∧ Unsaved later

theorem unsaved_concat : Unsaved (es ++ [e]) ↔ Unsaved es ∧ ∀ project urls, e ≠ .save project urls := by
  simp only [Unsaved, List.mem_append, List.mem_singleton, not_or, forall_and, eq_comm, ne_eq]

theorem flushed_concat (flushed : Flushed (es ++ [e])) :
    (∃ request, e = .answer request) ∨ Flushed es ∧ ∀ project urls, e ≠ .save project urls := by
  obtain ⟨before, request, later, split, unsaved⟩ := flushed
  rcases List.eq_nil_or_concat later with rfl | ⟨later, last, rfl⟩
  · obtain ⟨_, same⟩ := List.append_inj' split rfl
    exact .inl ⟨request, List.singleton_inj.mp same⟩
  · rw [List.concat_eq_append, ← List.cons_append, ← List.append_assoc] at split
    obtain ⟨rfl, same⟩ := List.append_inj' split rfl
    obtain rfl := List.singleton_inj.mp same
    rw [List.concat_eq_append, unsaved_concat] at unsaved
    exact .inr ⟨⟨before, request, later, rfl, unsaved.1⟩, unsaved.2⟩

theorem Run.path_eq (run : Run fs path es s) : s.book.path = path := by
  induction run with
  | start => rfl
  | step _ step ih => cases step <;> exact ih

theorem Run.increasing (run : Run fs path es s) : Increasing s.book.lists := by
  induction run with
  | start => exact increasing_load fs path
  | step _ step ih =>
    cases step with
    | save project urls => exact increasing_save ih project urls
    | tell | ask | note | expire | take | write | answer | outside => exact ih

theorem Writer.next_ne_writing (now then? : Option Request) (lists : List (Text × List Text)) :
    Writer.next now ≠ .writing lists then? := by
  cases now <;> exact Writer.noConfusion

theorem Writer.answered_ne_writing (request : Request) (lists : List (Text × List Text)) (then? : Option Request) :
    Writer.answered request ≠ .writing lists then? := by
  cases request <;> exact Writer.noConfusion

/-- The lists that are being written are in order too. -/
theorem Run.increasing_writing (run : Run fs path es s) :
    ∀ lists then?, s.writer = .writing lists then? → Increasing lists := by
  induction run with
  | start => nofun
  | step run step ih =>
    intro lists then? writing
    cases step with
    | expire =>
      cases writing
      exact run.increasing
    | take =>
      dsimp only at writing
      split at writing <;> cases writing
      exact run.increasing
    | write => exact absurd writing (Writer.next_ne_writing _ then? lists)
    | answer => exact absurd writing (Writer.answered_ne_writing _ lists then?)
    | save | tell | ask | note | outside => exact ih lists then? writing

/-- The list of a project is the one saved last, as far as its URLs are kept. -/
theorem Run.lookup? (run : Run fs path es s) (project : Text) :
    lookup? project s.book.lists =
      match lastSaved? project es with
      | none => Json.lookup? project (load fs path)
      | some urls => if kept urls = [] then none else some (kept urls) := by
  induction run with
  | start => rfl
  | step run step ih =>
    rw [lastSaved?, last?_concat, ← lastSaved?]
    cases step with
    | save name urls =>
      dsimp only
      rw [lookup?_save, Event.saved?]
      split
      · rfl
      · exact ih
    | tell | ask | note | expire | take | write | answer | outside => exact ih

/-- The file holds what the last write that succeeded put there. -/
theorem Run.load_eq_held (run : Run fs path es s) : load s.files path = held (load fs path) es := by
  induction run with
  | start => rfl
  | step run step ih =>
    rw [held, last?_concat]
    cases step with
    | write writing leaves =>
      next lists _ _ succeeds =>
      rw [run.path_eq] at leaves
      cases succeeds with
      | true => exact load_of_readText (run.increasing_writing _ _ writing) (readText_writeFile leaves)
      | false => exact (load_congr leaves).trans ih
    | outside same =>
      rw [run.path_eq] at same
      exact (load_congr same).trans ih
    | save | tell | ask | note | expire | take | answer => exact ih

/-- The message of a caller that waits. -/
def Caller.messages : Caller → List Message
  | waiting request => [.asked request]
  | _ => []

theorem Caller.eq_of_messages {c : Caller} {m : Message} {rest : List Message} (first : c.messages = m :: rest) :
    ∃ request, c = .waiting request ∧ m = .asked request ∧ rest = [] := by
  cases c with
  | waiting request =>
    obtain ⟨rfl, rfl⟩ := List.cons.inj first
    exact ⟨request, rfl, rfl, rfl⟩
  | free | saving | gone => cases first

/-- How far the caller, the queue and the writer have come together. -/
inductive Phase : System → Prop where
  /-- A request is the last message, and the writer has none in hand. -/
  | ahead {s : System} (n : Nat) (queue : s.queue = List.replicate n .changed ++ s.caller.messages)
      (caller : s.caller ≠ .gone) (writer : s.writer = .idle ∨ ∃ lists, s.writer = .writing lists none) : Phase s
  | taken {s : System} {request : Request} {lists : List (Text × List Text)} (queue : s.queue = [])
      (caller : s.caller = .waiting request) (writer : s.writer = .writing lists (some request)) : Phase s
  | done {s : System} {request : Request} (queue : s.queue = []) (caller : s.caller = .waiting request)
      (writer : s.writer = .answering request) (unsaved : s.book.unsaved = false) : Phase s
  | gone {s : System} (queue : s.queue = []) (caller : s.caller = .gone) (writer : s.writer = .stopped) : Phase s

/-- The writer answers a caller that waits, and with nothing left to do. -/
theorem Phase.answering {request : Request} (phase : Phase s) (answering : s.writer = .answering request) :
    s.queue = [] ∧ s.caller = .waiting request ∧ s.book.unsaved = false := by
  cases phase with
  | ahead _ _ _ writer =>
    rcases writer with idle | ⟨_, busy⟩
    · cases answering.symm.trans idle
    · cases answering.symm.trans busy
  | taken _ _ busy | gone _ _ busy => cases answering.symm.trans busy
  | done queue caller same unsaved =>
    cases answering.symm.trans same
    exact ⟨queue, caller, unsaved⟩

theorem Step.phase (step : Step s e next) (phase : Phase s) : Phase next := by
  cases step with
  | save project urls free =>
    cases phase with
    | ahead n queue _ writer => exact .ahead n (by rw [queue, free]; rfl) Caller.noConfusion writer
    | taken _ caller | done _ caller | gone _ caller => cases free.symm.trans caller
  | tell saving =>
    cases phase with
    | ahead n queue _ writer =>
      refine .ahead (n + 1) ?_ Caller.noConfusion writer
      rw [queue, saving, List.replicate_succ']
      simp [Caller.messages]
    | taken _ caller | done _ caller | gone _ caller => cases saving.symm.trans caller
  | ask request free =>
    cases phase with
    | ahead n queue _ writer => exact .ahead n (by rw [queue, free]; simp [Caller.messages]) Caller.noConfusion writer
    | taken _ caller | done _ caller | gone _ caller => cases free.symm.trans caller
  | note idle first =>
    cases phase with
    | ahead n queue caller writer =>
      rw [first] at queue
      cases n with
      | zero =>
        obtain ⟨_, _, other, _⟩ := Caller.eq_of_messages queue.symm
        cases other
      | succ n => exact .ahead n (List.cons.inj queue).2 caller writer
    | taken queue | done queue | gone queue => cases first.symm.trans queue
  | expire idle unsaved =>
    cases phase with
    | ahead n queue caller _ => exact .ahead n queue caller (.inr ⟨_, rfl⟩)
    | taken _ _ writer | done _ _ writer | gone _ _ writer => cases idle.symm.trans writer
  | take idle first =>
    cases phase with
    | ahead n queue _ _ =>
      rw [first] at queue
      cases n with
      | zero =>
        -- the request is the only message
        obtain ⟨_, caller, same, nothing⟩ := Caller.eq_of_messages queue.symm
        cases same
        cases unsaved : s.book.unsaved with
        | true => exact .taken nothing caller rfl
        | false => exact .done nothing caller rfl unsaved
      | succ n => cases (List.cons.inj queue).1
    | taken queue | done queue | gone queue => cases first.symm.trans queue
  | write writing leaves =>
    cases phase with
    | ahead n queue caller writer =>
      rcases writer with idle | ⟨_, busy⟩
      · cases writing.symm.trans idle
      · cases writing.symm.trans busy
        exact .ahead n queue caller (.inl rfl)
    | taken queue caller busy =>
      cases writing.symm.trans busy
      exact .done queue caller rfl rfl
    | done _ _ busy | gone _ _ busy => cases writing.symm.trans busy
  | @answer request answering =>
    obtain ⟨queue, _, _⟩ := phase.answering answering
    cases request with
    | flush => exact .ahead 0 queue Caller.noConfusion (.inl rfl)
    | close => exact .gone queue rfl rfl
  | outside =>
    cases phase with
    | ahead n queue caller writer => exact .ahead n queue caller writer
    | taken queue caller writer => exact .taken queue caller writer
    | done queue caller writer unsaved => exact .done queue caller writer unsaved
    | gone queue caller writer => exact .gone queue caller writer

theorem Run.phase (run : Run fs path es s) : Phase s := by
  induction run with
  | start => exact .ahead 0 rfl Caller.noConfusion (.inl rfl)
  | step _ step ih => exact step.phase ih

/-- The writer is to learn of a change. -/
def System.Due (s : System) : Prop := .changed ∈ s.queue ∨ s.caller = .saving

/-- Nothing but a new change makes the writer have to learn of one, and it does until it takes note. -/
theorem Step.due (step : Step s e next) (phase : Phase s) (notSave : ∀ project urls, e ≠ .save project urls)
    (notNote : e ≠ .note) : next.Due ↔ s.Due := by
  cases step with
  | save project urls => exact absurd rfl (notSave project urls)
  | tell saving => exact iff_of_true (.inl List.mem_concat_self) (.inr saving)
  | ask request free =>
    simp only [System.Due, free, List.mem_append, List.mem_singleton, reduceCtorEq, or_false]
  | note => exact absurd rfl notNote
  | take idle first => simp only [System.Due, first, List.mem_cons, reduceCtorEq, false_or]
  | @answer request answering =>
    obtain ⟨queue, caller, _⟩ := phase.answering answering
    cases request <;> simp [System.Due, queue, caller, Caller.answered]
  | expire | write | outside => exact Iff.rfl

/-- No change waits, and nothing is being written. -/
structure System.Quiet (s : System) : Prop where
  unsaved : s.book.unsaved = false
  notDue : ¬s.Due
  writer : ∀ lists then?, s.writer ≠ .writing lists then?

/-- When a request returns no change waits. -/
theorem Phase.quiet_answer {request : Request} (phase : Phase s) (step : Step s (.answer request) next) :
    next.Quiet := by
  have due := step.due phase (fun _ _ => Event.noConfusion) Event.noConfusion
  cases step with
  | answer answering =>
    obtain ⟨queue, caller, unsaved⟩ := phase.answering answering
    have notDue : ¬s.Due := by simp [System.Due, queue, caller]
    exact ⟨unsaved, due.not.mpr notDue, Writer.answered_ne_writing request⟩

/-- Without a new change it stays so. -/
theorem Step.quiet (step : Step s e next) (phase : Phase s) (quiet : s.Quiet)
    (notSave : ∀ project urls, e ≠ .save project urls) : next.Quiet := by
  obtain ⟨unsaved, notDue, writer⟩ := quiet
  have due := step.due phase notSave
  cases step with
  | save project urls => exact absurd rfl (notSave project urls)
  | tell saving => exact absurd (.inr saving) notDue
  | ask => exact ⟨unsaved, (due Event.noConfusion).not.mpr notDue, writer⟩
  | note _ first => exact absurd (.inl (first ▸ List.mem_cons_self)) notDue
  | expire _ waits => cases unsaved.symm.trans waits
  | take =>
    refine ⟨unsaved, (due Event.noConfusion).not.mpr notDue, ?_⟩
    rw [unsaved]
    exact fun _ _ => Writer.noConfusion
  | write writing => exact absurd writing (writer _ _)
  | @answer request =>
    exact ⟨unsaved, (due Event.noConfusion).not.mpr notDue, Writer.answered_ne_writing request⟩
  | outside => exact ⟨unsaved, notDue, writer⟩

theorem Run.quiet (run : Run fs path es s) (flushed : Flushed es) : s.Quiet := by
  induction run with
  | start =>
    obtain ⟨before, _, _, nothing, _⟩ := flushed
    simp at nothing
  | step run step ih =>
    rcases flushed_concat flushed with ⟨request, rfl⟩ | ⟨flushed, notSave⟩
    · exact run.phase.quiet_answer step
    · exact step.quiet run.phase (ih flushed) notSave

/-- The lists are those of the last write that was tried, or nothing is saved yet. -/
def Tried (fs : Files) (path : Text) (es : List Event) (s : System) : Prop :=
  (Unsaved es ∧ lastWrite? es = none ∧ s.book.lists = load fs path) ∨
    ∃ succeeds, lastWrite? es = some (s.book.lists, succeeds)

theorem Tried.keep (tried : Tried fs path es s) (noWrite : e.write? = none)
    (notSave : ∀ project urls, e ≠ .save project urls) (same : next.book.lists = s.book.lists) :
    Tried fs path (es ++ [e]) next := by
  rw [Tried, unsaved_concat, lastWrite?, last?_concat, noWrite, Option.none_or, same]
  rcases tried with ⟨unsaved, none, first⟩ | last
  · exact .inl ⟨⟨unsaved, notSave⟩, none, first⟩
  · exact .inr last

/-- A change waits until a write of the lists is tried. What is being written are the lists, unless
    there is a change that the writer is still to learn of. -/
structure Owed (fs : Files) (path : Text) (es : List Event) (s : System) : Prop where
  tried : s.book.unsaved = false → ¬s.Due → Tried fs path es s
  writing : ∀ lists then?, s.writer = .writing lists then? → ¬s.Due → lists = s.book.lists

theorem Step.owed (step : Step s e next) (phase : Phase s) (owed : Owed fs path es s) : Owed fs path (es ++ [e]) next := by
  have due := step.due phase
  cases step with
  | save => exact ⟨fun _ notDue => absurd (.inr rfl) notDue, fun _ _ _ notDue => absurd (.inr rfl) notDue⟩
  | tell =>
    have waits : Message.changed ∈ s.queue ++ [.changed] := List.mem_concat_self
    exact ⟨fun _ notDue => absurd (.inl waits) notDue, fun _ _ _ notDue => absurd (.inl waits) notDue⟩
  | ask =>
    have due := due (fun _ _ => Event.noConfusion) Event.noConfusion
    refine ⟨fun unsaved notDue => ?_, fun lists then? writing notDue => owed.writing lists then? writing (due.not.mp notDue)⟩
    exact (owed.tried unsaved (due.not.mp notDue)).keep rfl (fun _ _ => Event.noConfusion) rfl
  | note idle =>
    refine ⟨fun unsaved => ?_, fun lists then? writing => ?_⟩
    · cases unsaved
    · cases idle.symm.trans writing
  | expire idle unsaved =>
    refine ⟨fun saved => ?_, fun lists then? writing _ => ?_⟩
    · cases unsaved.symm.trans saved
    · cases writing
      rfl
  | take =>
    have due := due (fun _ _ => Event.noConfusion) Event.noConfusion
    refine ⟨fun unsaved notDue => ?_, fun lists then? writing _ => ?_⟩
    · exact (owed.tried unsaved (due.not.mp notDue)).keep rfl (fun _ _ => Event.noConfusion) rfl
    · dsimp only at writing
      split at writing <;> cases writing
      rfl
  | @write lists then? after succeeds writing leaves =>
    refine ⟨fun _ notDue => .inr ⟨succeeds, ?_⟩, fun _ _ busy => absurd busy (Writer.next_ne_writing _ _ _)⟩
    rw [lastWrite?, last?_concat, ← owed.writing lists then? writing notDue]
    rfl
  | answer =>
    have due := due (fun _ _ => Event.noConfusion) Event.noConfusion
    refine ⟨fun unsaved notDue => ?_, fun _ _ busy => absurd busy (Writer.answered_ne_writing _ _ _)⟩
    exact (owed.tried unsaved (due.not.mp notDue)).keep rfl (fun _ _ => Event.noConfusion) rfl
  | outside =>
    refine ⟨fun unsaved notDue => ?_, owed.writing⟩
    exact (owed.tried unsaved notDue).keep rfl (fun _ _ => Event.noConfusion) rfl

theorem Run.owed (run : Run fs path es s) : Owed fs path es s := by
  induction run with
  | start => exact ⟨fun _ _ => .inl ⟨nofun, rfl, rfl⟩, nofun⟩
  | step run step ih => exact step.owed run.phase ih

/-- After a request that has returned the lists are those of the last write that was tried. -/
theorem Run.tried (run : Run fs path es s) (flushed : Flushed es) : Tried fs path es s :=
  have quiet := run.quiet flushed
  run.owed.tried quiet.unsaved quiet.notDue

end EndpointConsole.BaseUrls.Interleaved
