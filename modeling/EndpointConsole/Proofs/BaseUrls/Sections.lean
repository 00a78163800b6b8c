import EndpointConsole.Proofs.BaseUrls.Replaced
import EndpointConsole.Proofs.BaseUrls.Stored

/-!
A caller that keeps lists of base URLs, and the writer that puts them in their file. The caller
sets lists and tells the writer so in a queue, or asks for a flush or the end and waits for the
answer; the writer takes one message after the other, and writes on its own once a delay is over.
`Step` lets one of them go on by a section, and a `Run` is any sequence of steps from the lists
that lie in a file, with what happened in it. A write replaces the file in the tree of files, and
any write may fail. A caller that waits for each answer makes such a run (`Run.save`, `Run.flush`).
-/
namespace EndpointConsole.BaseUrls.Interleaved

/-- What the caller waits for: that the lists are in the file, and that the writer has stopped too. -/
inductive Request where
  | flush
  | close
  deriving Repr, DecidableEq

inductive Message where
  /-- Some lists are set. -/
  | changed
  | asked (request : Request)
  deriving Repr, DecidableEq

/-- How far the caller has come. -/
inductive Caller where
  | free
  /-- Lists are set, and the writer is not told so yet. -/
  | saving
  | waiting (request : Request)
  | gone
  deriving Repr, DecidableEq

/-- How far the writer has come. -/
inductive Writer where
  | idle
  /-- These lists are to be written, and then a request is to be answered if there is one. -/
  | writing (lists : List (Text × List Text)) (then? : Option Request)
  | answering (request : Request)
  | stopped
  deriving Repr, DecidableEq

/-- The lists with the mark that a change waits to be written, the files, and the messages on their way. -/
structure System where
  book : BaseUrls
  files : Files
  queue : List Message := []
  caller : Caller := .free
  writer : Writer := .idle

inductive Event where
  | save (project : Text) (urls : List Text)
  | tell
  | ask (request : Request)
  /-- The writer learns of a change. -/
  | note
  /-- The delay is over. -/
  | expire
  /-- The writer learns of a request. -/
  | take (request : Request)
  /-- A write of these lists ends, and whether it succeeds. -/
  | write (lists : List (Text × List Text)) (succeeds : Bool)
  /-- The request returns. -/
  | answer (request : Request)
  /-- Something else in the files changes. -/
  | outside
  deriving Repr, DecidableEq

/-- What the writer does after a write. -/
def Writer.next : Option Request → Writer
  | some request => .answering request
  | none => .idle

def Caller.answered : Request → Caller
  | .flush => .free
  | .close => .gone

def Writer.answered : Request → Writer
  | .flush => .idle
  | .close => .stopped

inductive Step : System → Event → System → Prop where
  | save {s : System} (project : Text) (urls : List Text) (free : s.caller = .free) :
      Step s (.save project urls)
        { s with book := { s.book with lists := (s.book.save project urls).lists }, caller := .saving }
  | tell {s : System} (saving : s.caller = .saving) :
      Step s .tell { s with queue := s.queue ++ [.changed], caller := .free }
  | ask {s : System} (request : Request) (free : s.caller = .free) :
      Step s (.ask request) { s with queue := s.queue ++ [.asked request], caller := .waiting request }
  | note {s : System} {rest : List Message} (idle : s.writer = .idle) (first : s.queue = .changed :: rest) :
      Step s .note { s with book := { s.book with unsaved := true }, queue := rest }
  | expire {s : System} (idle : s.writer = .idle) (unsaved : s.book.unsaved = true) :
      Step s .expire { s with writer := .writing s.book.lists none }
  | take {s : System} {request : Request} {rest : List Message} (idle : s.writer = .idle)
      (first : s.queue = .asked request :: rest) :
      Step s (.take request)
        { s with
          queue := rest
          writer := if s.book.unsaved then .writing s.book.lists (some request) else .answering request }
  | write {s : System} {lists : List (Text × List Text)} {then? : Option Request} {after : Files} {succeeds : Bool}
      (writing : s.writer = .writing lists then?)
      (leaves : Leaves s.book.path (toJson lists).pretty s.files after succeeds) :
      Step s (.write lists succeeds)
        { s with book := { s.book with unsaved := false }, files := after, writer := .next then? }
  | answer {s : System} {request : Request} (answering : s.writer = .answering request) :
      Step s (.answer request) { s with caller := .answered request, writer := .answered request }
  | outside {s : System} {after : Files} (same : after.readText s.book.path = s.files.readText s.book.path) :
      Step s .outside { s with files := after }

/-- What may happen from a file on, and the system after it. -/
inductive Run (fs : Files) (path : Text) : List Event → System → Prop where
  | start : Run fs path [] { book := ofFile fs path, files := fs }
  | step {es : List Event} {e : Event} {s next : System} (run : Run fs path es s) (step : Step s e next) :
      Run fs path (es ++ [e]) next

variable {fs : Files} {path : Text} {es : List Event} {s : System}

/-- Nobody is in the middle of something. -/
structure System.Rests (s : System) : Prop where
  queue : s.queue = []
  caller : s.caller = .free
  writer : s.writer = .idle

/-- A change that the writer is told of waits to be written. -/
theorem Run.save (run : Run fs path es s) (rests : s.Rests) (project : Text) (urls : List Text) :
    Run fs path (es ++ [.save project urls, .tell, .note]) { s with book := s.book.save project urls } := by
  obtain ⟨queue, caller, writer⟩ := rests
  have saved := run.step (.save project urls caller)
  have told := saved.step (.tell rfl)
  have noted := told.step (.note writer (by rw [queue]; rfl))
  simpa [BaseUrls.save, queue, caller] using noted

/-- What happens in a flush of some lists. -/
def flushing (b : BaseUrls) (fs : Files) : List Event :=
  let wrote : List Event := if b.unsaved then [.write b.lists (writeFile fs b.path (toJson b.lists).pretty).2] else []
  .ask .flush :: .take .flush :: wrote ++ [.answer .flush]

/-- A flush writes the lists that wait. -/
theorem Run.flush (run : Run fs path es s) (rests : s.Rests)
    (leaves : Leaves s.book.path (toJson s.book.lists).pretty s.files
      (writeFile s.files s.book.path (toJson s.book.lists).pretty).1
      (writeFile s.files s.book.path (toJson s.book.lists).pretty).2) :
    Run fs path (es ++ flushing s.book s.files)
      { s with book := (s.book.flush s.files).1, files := (s.book.flush s.files).2 } := by
  obtain ⟨queue, caller, writer⟩ := rests
  have asked := run.step (.ask .flush caller)
  have taken := asked.step (.take writer (by rw [queue]; rfl))
  rw [BaseUrls.flush, flushing]
  cases unsaved : s.book.unsaved with
  | false =>
    have answered := taken.step (.answer (show _ = Writer.answering .flush by simp [unsaved]))
    simpa [queue, caller, writer, Caller.answered, Writer.answered] using answered
  | true =>
    have written := taken.step (.write (show _ = Writer.writing s.book.lists (some .flush) by simp [unsaved]) leaves)
    have answered := written.step (.answer (show _ = Writer.answering .flush from rfl))
    simpa [queue, caller, writer, Caller.answered, Writer.answered] using answered

end EndpointConsole.BaseUrls.Interleaved
