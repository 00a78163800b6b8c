import EndpointConsole.Lens.Provider
import EndpointConsole.Proofs.Lens.Records

/-!
A provider in service: documents are asked for and closed while time passes and the
timers of delayed scans fire. A scan takes time, so that its end is an act of its own.
`Service.Step` says what an act can do; from it follow where the scans and the records
after an act come from (`Step.scans_from`, `Step.records_from`).
-/
namespace EndpointConsole.Lens

open Source (Document)

/-- The ways in which the lenses of a document are provided. -/
inductive Provided (p : Provider) (now : Nat) (d : Document) : Answer → Provider → Prop where
  | unhandled (other : d.isController = false) : Provided p now d (.ready []) p
  | held {r : Record Lenses} (handled : d.isController = true) (got : (p.cache.get now d.uri).1 = some r)
      (same : r.version = d.version) :
      Provided p now d (.ready r.value) { p with cache := (p.cache.get now d.uri).2 }
  | atOnce (handled : d.isController = true)
      (missed : ∀ r, (p.cache.get now d.uri).1 = some r → r.version ≠ d.version) (undelayed : p.delay = 0) :
      Provided p now d (.ready (p.scan d).1)
        { (p.scan d).2 with cache := ((p.cache.get now d.uri).2.set now d.uri d.version (p.scan d).1).2 }
  | delayed (handled : d.isController = true)
      (missed : ∀ r, (p.cache.get now d.uri).1 = some r → r.version ≠ d.version) (delayed : p.delay ≠ 0) :
      Provided p now d
        (.delayed ((p.cache.get now d.uri).1.map Record.value)
          ⟨d, (((p.cache.get now d.uri).2.cancel d.uri).schedule d.uri).1⟩)
        { p with cache := (((p.cache.get now d.uri).2.cancel d.uri).schedule d.uri).2 }

theorem Provider.provided (p : Provider) (now : Nat) (d : Document) :
    Provided p now d (p.provide now d).1 (p.provide now d).2 := by
  rw [provide]
  by_cases handled : d.isController = true
  swap
  · rw [if_pos (by simpa using handled)]
    exact .unhandled (Bool.eq_false_iff.mpr handled)
  rw [if_neg (by simp [handled])]
  by_cases hit : ∃ r, (p.cache.get now d.uri).1 = some r ∧ r.version = d.version
  · obtain ⟨r, got, same⟩ := hit
    have found : ((p.cache.get now d.uri).1.filter fun r => r.version = d.version) = some r := by
      simp [got, Option.filter, same]
    simp only [found]
    exact .held handled got same
  · have missed : ∀ r, (p.cache.get now d.uri).1 = some r → r.version ≠ d.version :=
      fun r got same => hit ⟨r, got, same⟩
    have nothing : ((p.cache.get now d.uri).1.filter fun r => r.version = d.version) = none := by
      rw [Option.filter_eq_none_iff]
      intro r got
      simpa using missed r got
    simp only [nothing]
    split
    · next undelayed => exact .atOnce handled missed undelayed
    · next delayed => exact .delayed handled missed delayed

/-- A delayed scan, with its lenses once its timer has fired. -/
structure Scan where
  pending : Pending
  lenses : Option Lenses := none
  deriving Repr

/-- The scan that an answer leaves to a timer. -/
def Answer.scans : Answer → List Scan
  | ready _ => []
  | delayed _ pending => [{ pending }]

/-- A provider with its clock and the scans that it has delayed so far, each known by its place. -/
structure Service where
  provider : Provider
  now : Nat
  scans : List Scan := []
  deriving Repr

namespace Service

/-- Scans take time: between the firing of a timer and the end of its scan anything may happen. -/
inductive Act where
  | provide (d : Document)
  | close (uri : Text)
  | advance (ms : Nat)
  | fire (n : Nat)
  | finish (n : Nat)
  deriving Repr, DecidableEq

def provide (s : Service) (d : Document) : Answer × Service :=
  let (answer, provider) := s.provider.provide s.now d
  (answer, { s with provider, scans := s.scans ++ answer.scans })

/-- Lets the timer of a scan fire: the document is scanned if the scan still waits. -/
def fire (s : Service) (n : Nat) : Service :=
  match s.scans[n]? with
  | some { pending, lenses := none } =>
    if s.provider.isWaiting pending then
      let (lenses, provider) := s.provider.scan pending.document
      { s with provider, scans := s.scans.set n { pending, lenses := some lenses } }
    else s
  | _ => s

/-- Ends a scan whose timer has fired. -/
def finish (s : Service) (n : Nat) : Option Lenses × Service :=
  match s.scans[n]? with
  | some { pending, lenses := some lenses } =>
    let (delivered, provider) := s.provider.finish s.now pending lenses
    (delivered, { s with provider })
  | _ => (none, s)

def perform (s : Service) : Act → Service
  | .provide d => (s.provide d).2
  | .close uri => { s with provider := s.provider.close uri }
  | .advance ms => { s with now := s.now + ms }
  | .fire n => s.fire n
  | .finish n => (s.finish n).2

def after (s : Service) (acts : List Act) : Service := acts.foldl perform s

def peek? (s : Service) (uri : Text) : Option (Record Lenses) := s.provider.cache.peek? uri

variable {s : Service} {acts : List Act} {act : Act} {d : Document} {uri : Text} {n : Nat} {scan : Scan}
  {r r' : Record Lenses}

theorem after_append (s : Service) (acts more : List Act) : s.after (acts ++ more) = (s.after acts).after more :=
  List.foldl_append

theorem after_concat (s : Service) (acts : List Act) (act : Act) :
    s.after (acts ++ [act]) = (s.after acts).perform act := after_append s acts [act]

theorem fire_of_waiting {pending : Pending} (held : s.scans[n]? = some { pending })
    (waits : s.provider.isWaiting pending = true) :
    s.fire n = { s with
      provider := (s.provider.scan pending.document).2
      scans := s.scans.set n { pending, lenses := some (s.provider.scan pending.document).1 } } := by
  simp only [fire, held, if_pos waits]

/-- A timer that fires changes nothing unless its scan still waits. -/
theorem fire_cases (s : Service) (n : Nat) :
    s.fire n = s ∨
      ∃ pending, s.scans[n]? = some { pending } ∧ s.provider.isWaiting pending = true := by
  rw [fire]
  split
  · next pending held =>
    by_cases waits : s.provider.isWaiting pending = true
    · exact .inr ⟨pending, held, waits⟩
    · exact .inl (if_neg waits)
  · exact .inl rfl

theorem finish_of_waiting {pending : Pending} {lenses : Lenses}
    (held : s.scans[n]? = some { pending, lenses := some lenses }) (waits : s.provider.isWaiting pending = true) :
    s.finish n = (some lenses, { s with
      provider.cache := ((s.provider.cache.cancel pending.document.uri).set s.now pending.document.uri
        pending.document.version lenses).2 }) := by
  rw [Provider.isWaiting] at waits
  simp only [finish, held, Provider.finish, Cache.deliver, if_pos waits, Cache.commit]

/-- A scan that ends changes and delivers nothing unless it still waits. -/
theorem finish_cases (s : Service) (n : Nat) :
    s.finish n = (none, s) ∨ ∃ pending lenses,
      s.scans[n]? = some { pending, lenses := some lenses } ∧ s.provider.isWaiting pending = true := by
  rw [finish]
  split
  · next pending lenses held =>
    by_cases waits : s.provider.isWaiting pending = true
    · exact .inr ⟨pending, lenses, held, waits⟩
    · rw [Provider.isWaiting] at waits
      simp only [Provider.finish, Cache.deliver, if_neg waits]
      exact .inl trivial
  · exact .inl rfl

/-- What an act does. -/
inductive Step (s : Service) : Act → Service → Prop where
  | provide {d : Document} {answer : Answer} {next : Provider} (way : Provided s.provider s.now d answer next) :
      Step s (.provide d) { s with provider := next, scans := s.scans ++ answer.scans }
  | close (uri : Text) : Step s (.close uri) { s with provider := s.provider.close uri }
  | advance (ms : Nat) : Step s (.advance ms) { s with now := s.now + ms }
  | fire {n : Nat} {pending : Pending} (held : s.scans[n]? = some { pending })
      (waits : s.provider.isWaiting pending = true) :
      Step s (.fire n) { s with
        provider := (s.provider.scan pending.document).2
        scans := s.scans.set n { pending, lenses := some (s.provider.scan pending.document).1 } }
  | finish {n : Nat} {pending : Pending} {lenses : Lenses}
      (held : s.scans[n]? = some { pending, lenses := some lenses })
      (waits : s.provider.isWaiting pending = true) :
      Step s (.finish n) { s with
        provider.cache := ((s.provider.cache.cancel pending.document.uri).set s.now pending.document.uri
          pending.document.version lenses).2 }
  /-- A timer that was replaced or taken away does nothing. -/
  | unfired (n : Nat) : Step s (.fire n) s
  /-- A scan whose timer was replaced or taken away is dropped. -/
  | dropped (n : Nat) : Step s (.finish n) s

theorem step (s : Service) (act : Act) : Step s act (s.perform act) := by
  cases act with
  | provide d => exact .provide (s.provider.provided s.now d)
  | close uri => exact .close uri
  | advance ms => exact .advance ms
  | fire n =>
    rcases fire_cases s n with same | ⟨pending, held, waits⟩
    · rw [perform, same]
      exact .unfired n
    · rw [perform, fire_of_waiting held waits]
      exact .fire held waits
  | finish n =>
    rcases finish_cases s n with same | ⟨pending, lenses, held, waits⟩
    · rw [perform, same]
      exact .dropped n
    · rw [perform, finish_of_waiting held waits]
      exact .finish held waits

namespace Step
variable {s' : Service}

/-- Scans stay in their places, each with its document, and get their lenses when their timers fire. -/
theorem scans_kept (step : Step s act s') (held : s.scans[n]? = some scan) :
    s'.scans[n]? = some scan ∨
      (scan.lenses = none ∧
        s'.scans[n]? = some { scan with lenses := some (s.provider.scan scan.pending.document).1 }) := by
  obtain ⟨inside, _⟩ := List.getElem?_eq_some_iff.mp held
  cases step with
  | provide way => exact .inl (by rw [List.getElem?_append_left inside, held])
  | @fire m pending waiting waits =>
    by_cases one : m = n
    · subst one
      rw [held, Option.some.injEq] at waiting
      subst waiting
      exact .inr ⟨rfl, List.getElem?_set_self inside⟩
    · exact .inl (by rw [List.getElem?_set_ne one, held])
  | close uri => exact .inl held
  | advance ms => exact .inl held
  | finish fired waits => exact .inl held
  | unfired m => exact .inl held
  | dropped m => exact .inl held

/-- Where the scans after an act come from. -/
theorem scans_from (step : Step s act s') (held : s'.scans[n]? = some scan) :
    s.scans[n]? = some scan ∨
      (act = .provide scan.pending.document ∧ scan.pending.document.isController = true ∧ scan.lenses = none) ∨
      ∃ pending, s.scans[n]? = some { pending } ∧
        scan = { pending, lenses := some (s.provider.scan pending.document).1 } := by
  cases step with
  | provide way =>
    rw [List.getElem?_append] at held
    split at held
    · exact .inl held
    · cases way with
      | delayed handled missed delayed =>
        rw [Answer.scans, List.getElem?_singleton] at held
        split at held
        · rw [← Option.some.inj held]
          exact .inr (.inl ⟨rfl, handled, rfl⟩)
        · cases held
      | unhandled other => cases held
      | held handled got same => cases held
      | atOnce handled missed undelayed => cases held
  | @fire m pending waiting waits =>
    by_cases one : m = n
    · subst one
      obtain ⟨inside, _⟩ := List.getElem?_eq_some_iff.mp waiting
      rw [List.getElem?_set_self inside, Option.some.injEq] at held
      exact .inr (.inr ⟨pending, waiting, held.symm⟩)
    · rw [List.getElem?_set_ne one] at held
      exact .inl held
  | close uri => exact .inl held
  | advance ms => exact .inl held
  | finish fired waits => exact .inl held
  | unfired m => exact .inl held
  | dropped m => exact .inl held

/-- Where the records after an act come from. -/
theorem records_from (step : Step s act s') (held : s'.peek? uri = some r') :
    (∃ r, s.peek? uri = some r ∧ r.version = r'.version ∧ r.value = r'.value) ∨
      (∃ d, act = .provide d ∧ d.isController = true ∧ d.uri = uri ∧ d.version = r'.version ∧
        r'.value = (s.provider.scan d).1) ∨
      ∃ (n : Nat) (pending : Pending), s.scans[n]? = some { pending, lenses := some r'.value } ∧
        pending.document.uri = uri ∧ pending.document.version = r'.version := by
  cases step with
  | @provide d answer next way =>
    cases way with
    | unhandled other => exact .inl ⟨r', held, rfl, rfl⟩
    | held handled got same => exact .inl (Cache.peek?_get held)
    | atOnce handled missed undelayed =>
      rcases Cache.peek?_set held with ⟨same, rfl, _⟩ | before
      · exact .inr (.inl ⟨d, rfl, handled, same, rfl, rfl⟩)
      · exact .inl (Cache.peek?_get before)
    | delayed handled missed delayed => exact .inl (Cache.peek?_get held)
  | close name =>
    change (s.provider.cache.close name).peek? uri = some r' at held
    rw [Cache.peek?_close] at held
    split at held
    · cases held
    · exact .inl ⟨r', held, rfl, rfl⟩
  | @finish m pending lenses fired waits =>
    rcases Cache.peek?_set held with ⟨same, rfl, _⟩ | before
    · exact .inr (.inr ⟨m, pending, fired, same, rfl⟩)
    · exact .inl ⟨r', before, rfl, rfl⟩
  | advance ms => exact .inl ⟨r', held, rfl, rfl⟩
  | fire waiting waits => exact .inl ⟨r', held, rfl, rfl⟩
  | unfired m => exact .inl ⟨r', held, rfl, rfl⟩
  | dropped m => exact .inl ⟨r', held, rfl, rfl⟩

theorem tidy (step : Step s act s') (tidy : s.provider.cache.Tidy) : s'.provider.cache.Tidy := by
  cases step with
  | @provide d answer next way =>
    have used := tidy.get s.now d.uri
    cases way with
    | unhandled other => exact tidy
    | held handled got same => exact used
    | atOnce handled missed undelayed => exact used.set s.now d.uri d.version _
    | delayed handled missed delayed => exact ⟨used.distinct, used.within⟩
  | close uri => exact tidy.close uri
  | @finish m pending lenses fired waits =>
    exact (tidy.cancel pending.document.uri).set s.now _ _ lenses
  | advance ms => exact tidy
  | fire waiting waits => exact tidy
  | unfired m => exact tidy
  | dropped m => exact tidy

end Step

end Service

end EndpointConsole.Lens
