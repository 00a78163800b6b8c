import EndpointConsole.Proofs.Server.Interleaved.Sections

/-!
What the scans of a server find while they share a composer, section by section (`Sound.step`).
Every version that is remembered comes from a document that was asked for, and whatever goes from
the thread of a timer to the thread that forwards it was found in the document of its own line.
-/
namespace EndpointConsole

namespace Lens.Cache
variable {α : Type} {c c' : Cache α} {call : Call} {stage next : Stage α} {a : Act α} {value : α}

/-- The value that a call has computed. -/
def Stage.value? : Stage α → Option α
  | computed _ value | committed value => some value
  | _ => none

/-- A value is kept, or has just been computed. -/
theorem Move.value? (move : Move c call stage a next c') (held : next.value? = some value) :
    stage.value? = some value ∨ a = .compute value := by
  cases move with
  | compute => exact .inr (congrArg Act.compute (Option.some.inj held))
  | commit => exact .inl held
  | _ => cases held

theorem Move.value?_of_deliver (move : Move c call stage (.deliver value) next c') : stage.value? = some value := by
  cases move
  rfl

end Lens.Cache

namespace Server.Interleaved

open Source (Document)
open Lens (Lenses Cache)
open Detect (Progress Section Scanned partsOf)
open Route (Parts)

/-- The parts that versions may be remembered for after some commands. -/
def partsAsked (commands : List Command) : List Parts :=
  commands.flatMap fun
    | .provideLenses d => partsOf d
    | _ => []

/-- Lenses that a scan of the document of a line may give. -/
def System.Gives (v : Text) (s : System) (id : Nat) (lenses : Lenses) : Prop :=
  ∃ d, s.commands[id]? = some (.provideLenses d) ∧ Scanned v (partsAsked s.commands) d lenses

/-- Everything that was found goes back to documents that were asked for. -/
structure Sound (v : Text) (s : System) : Prop where
  composer : s.composer.KnowsFrom v (partsAsked s.commands)
  scans : ∀ {id : Nat} {p : Progress}, s.scans id = some p →
    ∃ d, s.commands[id]? = some (.provideLenses d) ∧ p.Made v (partsAsked s.commands) d
  computed : ∀ {id : Nat} {t : Cache.Task Lenses} {lenses : Lenses}, s.cache.tasks[id]? = some t →
    t.stage.value? = some lenses → s.Gives v id lenses
  fresh : ∀ {id : Nat} {lenses : Lenses}, s.fresh id = some lenses → s.Gives v id lenses

variable {v : Text} {delay id : Nat} {e : Event} {s s' : System} {lenses : Lenses} {d : Document}
  {commands : List Command} {command : Command}

theorem partsAsked_subset (commands : List Command) (command : Command) :
    partsAsked commands ⊆ partsAsked (commands ++ [command]) := by
  rw [partsAsked, partsAsked, List.flatMap_append]
  exact List.subset_append_left _ _

theorem partsOf_subset (asked : commands[id]? = some (.provideLenses d)) : partsOf d ⊆ partsAsked commands :=
  fun _ among => List.mem_flatMap.mpr ⟨_, List.mem_of_getElem? asked, among⟩

theorem System.Gives.reading {call : Cache.Call} {loop : Loop} (gives : s.Gives v id lenses) :
    (s.reading command call loop).Gives v id lenses :=
  have ⟨d, asked, scanned⟩ := gives
  ⟨d, Cache.getElem?_append_of _ asked, scanned.mono (partsAsked_subset _ _)⟩

theorem Sound.reading (sound : Sound v s) (command : Command) (call : Cache.Call) (loop : Loop) :
    Sound v (s.reading command call loop) where
  composer := sound.composer.mono (partsAsked_subset _ _)
  scans held :=
    have ⟨d, asked, made⟩ := sound.scans held
    ⟨d, Cache.getElem?_append_of _ asked, made.mono (partsAsked_subset _ _)⟩
  computed held value := by
    rcases Cache.getElem?_append_cases held with ⟨_, rfl⟩ | ⟨_, before⟩
    · cases value
    · exact (sound.computed before value).reading
  fresh held := (sound.fresh held).reading

/-- A scan may begin with the document of its line at any time. -/
theorem Sound.begin (sound : Sound v s) (asked : s.commands[id]? = some (.provideLenses d)) {other : Nat}
    {p : Progress} (held : Function.update s.scans id (some (.ofDocument d)) other = some p) :
    ∃ d, s.commands[other]? = some (.provideLenses d) ∧ p.Made v (partsAsked s.commands) d := by
  rw [Function.update_apply] at held
  split at held
  · next same =>
    cases held
    exact ⟨d, same ▸ asked, .ofDocument v _ d⟩
  · exact sound.scans held

/-- Beside the cache, a section leaves everything sound if the stage before it was. -/
theorem Sound.beside {a : Cache.Act Lenses} {c c' : Cache Lenses} {call : Cache.Call} {stage next : Cache.Stage Lenses}
    (sound : Sound v s) (held : s.cache.tasks[id]? = some { call, stage }) (move : Cache.Move c call stage a next c')
    (beside : s.Beside id a s') : Sound v s' := by
  cases beside with
  | fire asked => exact ⟨sound.composer, sound.begin asked, sound.computed, sound.fresh⟩
  | deliver lenses =>
    refine ⟨sound.composer, sound.scans, sound.computed, fun {other value} sent => ?_⟩
    change Function.update s.fresh id (some lenses) other = some value at sent
    rw [Function.update_apply] at sent
    split at sent
    · next same =>
      subst same
      cases sent
      exact sound.computed held move.value?_of_deliver
    · exact sound.fresh sent
  | _ => exact ⟨sound.composer, sound.scans, sound.computed, sound.fresh⟩

theorem Sound.step (sound : Sound v s) (step : Step delay s e s') : Sound v s' := by
  cases step with
  | ask idle asked => exact sound.reading _ _ _
  | close idle asked => exact sound.reading _ _ _
  | missAtOnce now there asked missed undelayed =>
    exact ⟨sound.composer, sound.begin asked, sound.computed, sound.fresh⟩
  | @scan id p p' composer scans progress sec =>
    obtain ⟨d, asked, made⟩ := sound.scans progress
    obtain ⟨made, knows⟩ := sec.made made sound.composer (partsOf_subset asked)
    refine ⟨knows, fun {other q} held => ?_, sound.computed, sound.fresh⟩
    change Function.update s.scans id (some p') other = some q at held
    rw [Function.update_apply] at held
    split at held
    · next same =>
      cases held
      exact ⟨d, same ▸ asked, made⟩
    · exact sound.scans held
  | @act id call stage next a cache s' held move beside =>
    have sound' := sound.beside held move beside
    refine ⟨sound'.composer, sound'.scans, fun {other t value} found is => ?_, sound'.fresh⟩
    change ∃ d, s'.commands[other]? = some (.provideLenses d) ∧ Scanned v (partsAsked s'.commands) d value
    rw [beside.commands]
    rcases Cache.getElem?_set_cases found with ⟨rfl, rfl⟩ | ⟨_, before⟩
    · rcases move.value? is with kept | rfl
      · exact sound.computed held kept
      · cases beside with
        | compute scanned =>
          obtain ⟨d, asked, made⟩ := sound.scans scanned
          exact ⟨d, asked, made.scanned⟩
    · exact sound.computed before is
  | _ => exact ⟨sound.composer, sound.scans, sound.computed, sound.fresh⟩

theorem Run.sound {capacity : Nat} {idleLimit : Option Nat} {es : List Event}
    (run : Run v capacity idleLimit delay es s) : Sound v s := by
  induction run with
  | start => exact ⟨(Route.Composer.knowsFrom_fresh v).mono nofun, nofun, nofun, nofun⟩
  | step run step ih => exact ih.step step

end Server.Interleaved

end EndpointConsole
