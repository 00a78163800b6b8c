import EndpointConsole.Lens.Cache

/-!
Callers and timers that share a cache. Each holds a lock only for one section of
its work, so that the sections of all of them may follow each other in any order.
`Move` is one section of one task, `Step` lets some task go on by a section, and a
`Run` is any sequence of steps from an empty cache, with what happened in it.
-/
namespace EndpointConsole.Lens.Cache

variable {α : Type}

/-- What a caller asks for. -/
inductive Call where
  /-- A value after a delay, to be stored for a version if there is one. -/
  | debounce (key : Text) (version : Option Int)
  | close (key : Text)
  | clear
  deriving Repr, DecidableEq

/-- How far a call has come. -/
inductive Stage (α : Type) where
  | called
  /-- The timers in the way are gone. -/
  | cancelled
  | numbered (timer : Nat)
  /-- The timer is pending. -/
  | waiting (timer : Nat)
  | computing (timer : Nat)
  | computed (timer : Nat) (value : α)
  | committed (value : α)
  | ended
  deriving Repr, DecidableEq

/-- The number that a call holds for its timer. -/
def Stage.timer? : Stage α → Option Nat
  | numbered timer | waiting timer | computing timer | computed timer _ => some timer
  | _ => none

/-- What one section does. -/
inductive Act (α : Type) where
  | cancel (key : Text)
  | clearTimers
  | number
  | insert (key : Text)
  /-- The timer fires and is still current. -/
  | fire
  | compute (value : α)
  | commit (key : Text) (value : α)
  | deliver (value : α)
  /-- The timer is not current any more. -/
  | stop
  /-- The records are dropped, and the call returns. -/
  | finish
  deriving Repr, DecidableEq

/-- Whether it takes the timer of a document away, if there is one. -/
def Act.Disturbs (key : Text) : Act α → Prop
  | cancel k | insert k => k = key
  | clearTimers => True
  | _ => False

/-- One section of a call, and what it makes of the shared cache. -/
inductive Move : Cache α → Call → Stage α → Act α → Stage α → Cache α → Prop where
  | cancel {c : Cache α} {key : Text} {version : Option Int} :
      Move c (.debounce key version) .called (.cancel key) .cancelled (c.cancel key)
  | number {c : Cache α} {key : Text} {version : Option Int} :
      Move c (.debounce key version) .cancelled .number (.numbered c.number.1) c.number.2
  | insert {c : Cache α} {key : Text} {version : Option Int} {timer : Nat} :
      Move c (.debounce key version) (.numbered timer) (.insert key) (.waiting timer) (c.insertTimer key timer)
  | stop {c : Cache α} {key : Text} {version : Option Int} {timer : Nat}
      (stale : c.isCurrent key timer = false) :
      Move c (.debounce key version) (.waiting timer) .stop .ended c
  | fire {c : Cache α} {key : Text} {version : Option Int} {timer : Nat} (current : c.isCurrent key timer = true) :
      Move c (.debounce key version) (.waiting timer) .fire (.computing timer) c
  | compute {c : Cache α} {key : Text} {version : Option Int} {timer : Nat} (value : α) :
      Move c (.debounce key version) (.computing timer) (.compute value) (.computed timer value) c
  | discard {c : Cache α} {key : Text} {version : Option Int} {timer : Nat} {value : α}
      (stale : c.isCurrent key timer = false) :
      Move c (.debounce key version) (.computed timer value) .stop .ended c
  | commit {c : Cache α} {key : Text} {version : Option Int} {timer : Nat} {value : α} (now : Nat)
      (current : c.isCurrent key timer = true) :
      Move c (.debounce key version) (.computed timer value) (.commit key value) (.committed value)
        ((c.cancel key).commit now key version value)
  | deliver {c : Cache α} {key : Text} {version : Option Int} {value : α} :
      Move c (.debounce key version) (.committed value) (.deliver value) .ended c
  | closeTimer {c : Cache α} {key : Text} : Move c (.close key) .called (.cancel key) .cancelled (c.cancel key)
  | closeRecord {c : Cache α} {key : Text} : Move c (.close key) .cancelled .finish .ended (c.remove key)
  | clearTimers {c : Cache α} : Move c .clear .called .clearTimers .cancelled c.clearTimers
  | clearRecords {c : Cache α} : Move c .clear .cancelled .finish .ended c.clearRecords

/-- What others do with the records alone. -/
inductive Use : Cache α → Cache α → Prop where
  | set {c : Cache α} (now : Nat) (key : Text) (version : Int) (value : α) : Use c (c.set now key version value).2
  | remove {c : Cache α} (key : Text) : Use c (c.remove key)
  | get {c : Cache α} (now : Nat) (key : Text) : Use c (c.get now key).2

structure Task (α : Type) where
  call : Call
  stage : Stage α
  deriving Repr, DecidableEq

/-- A cache and the calls made so far, each known by its place. -/
structure System (α : Type) where
  cache : Cache α
  tasks : List (Task α)
  deriving Repr

inductive Event (α : Type) where
  | begin (id : Nat) (call : Call)
  | act (id : Nat) (a : Act α)
  | use
  deriving Repr, DecidableEq

def Event.Disturbs (key : Text) : Event α → Prop
  | act _ a => a.Disturbs key
  | _ => False

inductive Step : System α → Event α → System α → Prop where
  | begin {s : System α} (call : Call) :
      Step s (.begin s.tasks.length call) { s with tasks := s.tasks ++ [{ call, stage := .called }] }
  | act {s : System α} {id : Nat} {call : Call} {stage next : Stage α} {a : Act α} {cache : Cache α}
      (held : s.tasks[id]? = some { call, stage }) (move : Move s.cache call stage a next cache) :
      Step s (.act id a) { cache, tasks := s.tasks.set id { call, stage := next } }
  | use {s : System α} {cache : Cache α} (use : Use s.cache cache) : Step s .use { s with cache }

/-- What may happen from an empty cache on, and the system after it. -/
inductive Run (capacity : Nat) (idleLimit : Option Nat) : List (Event α) → System α → Prop where
  | start : Run capacity idleLimit [] { cache := empty capacity idleLimit, tasks := [] }
  | step {es : List (Event α)} {e : Event α} {s next : System α} (run : Run capacity idleLimit es s)
      (step : Step s e next) : Run capacity idleLimit (es ++ [e]) next

end EndpointConsole.Lens.Cache
