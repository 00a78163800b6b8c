import EndpointConsole.Endpoint.Detect
import EndpointConsole.Lens.Cache
import EndpointConsole.Settings

/-!
Lenses of documents: the endpoints of a controller with their titles. Lenses of
a known version come from the cache. Otherwise the document is scanned, at once
or, with a delay, by a timer; until it fires the lenses of another version stand
in. A timer that was replaced or whose document was closed delivers nothing.
-/
namespace EndpointConsole.Lens

abbrev Lenses := List Detect.Found

/-- The JSON form of a lens. -/
def toJson (f : Detect.Found) : Json :=
  .object [("line".toList, .ofNat f.line), ("column".toList, .ofNat f.column),
    ("title".toList, .string f.endpoint.lensTitle), ("endpoint".toList, f.endpoint.toJson)]

structure Provider where
  composer : Route.Composer
  cache : Cache Lenses
  /-- The delay of a scan in milliseconds; without one documents are scanned at once. -/
  delay : Nat
  deriving Repr

/-- A scan that waits for its timer. -/
structure Pending where
  document : Source.Document
  timer : Nat
  deriving Repr, DecidableEq

inductive Answer where
  | ready (lenses : Lenses)
  /-- The lenses of another version, and the scan to come. -/
  | delayed (stale : Option Lenses) (pending : Pending)
  deriving Repr

namespace Provider

def ofSettings (s : Settings) : Provider where
  composer := { defaultVersion := s.defaultApiVersion }
  cache := Cache.empty s.lensCapacity (s.lensSeconds?.map (· * 1000))
  delay := s.lensDelayMs

/-- Scans a document. -/
def scan (p : Provider) (d : Source.Document) : Lenses × Provider :=
  let (lenses, composer) := Detect.scan p.composer d
  (lenses, { p with composer })

/-- The lenses of a document. -/
def provide (p : Provider) (now : Nat) (d : Source.Document) : Answer × Provider :=
  if !d.isController then (.ready [], p)
  else
    let (held, cache) := p.cache.get now d.uri
    let p := { p with cache }
    match held.filter fun r => r.version = d.version with
    | some r => (.ready r.value, p)
    | none =>
      if p.delay = 0 then
        let (lenses, p) := p.scan d
        (.ready lenses, { p with cache := (p.cache.set now d.uri d.version lenses).2 })
      else
        let (timer, cache) := (p.cache.cancel d.uri).schedule d.uri
        (.delayed (held.map Record.value) ⟨d, timer⟩, { p with cache })

/-- Whether a scan still waits for its timer. -/
def isWaiting (p : Provider) (s : Pending) : Bool := p.cache.isCurrent s.document.uri s.timer

/-- Ends a scan with its lenses. -/
def finish (p : Provider) (now : Nat) (s : Pending) (lenses : Lenses) : Option Lenses × Provider :=
  let (delivered, cache) := p.cache.deliver now s.document.uri s.timer (some s.document.version) lenses
  (delivered, { p with cache })

/-- Lets a timer fire: the document is scanned if its scan still waits. -/
def fire (p : Provider) (now : Nat) (s : Pending) : Option Lenses × Provider :=
  if p.isWaiting s then
    let (lenses, p) := p.scan s.document
    p.finish now s lenses
  else (none, p)

def close (p : Provider) (uri : Text) : Provider := { p with cache := p.cache.close uri }

end Provider

end EndpointConsole.Lens
