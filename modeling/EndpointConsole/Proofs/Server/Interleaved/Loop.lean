import EndpointConsole.Proofs.Server.Interleaved.Scans

/-!
The loop of a server between the threads of its timers. The loop is on its last line so far, whose
call has come no further than the loop has (`Run.stands`). So nobody else works for that line, and no
section of others sets the loop back (`Step.nearer`); as it can always go on, it comes to the end of
its line (`Run.settles`).
-/
namespace EndpointConsole.Server.Interleaved

open Source (Document)
open Lens (Lenses Cache)
open Detect (Progress)

variable {v : Text} {capacity : Nat} {idleLimit : Option Nat} {delay id : Nat} {es : List Event} {e : Event}
  {s s' : System} {d : Document}

/-! ### Where the loop stands -/

/-- A loop on the last line, whose call has come as far as the loop has. -/
inductive System.At (s : System) : Loop → Prop where
  | idle : s.At .idle
  | asked {id : Nat} {d : Document} (last : id + 1 = s.commands.length)
      (command : s.commands[id]? = some (.provideLenses d))
      (uncalled : s.cache.tasks[id]? = some { call := .debounce d.uri (some d.version), stage := .called }) :
      s.At (.asked id)
  | scanning {id : Nat} {d : Document} (last : id + 1 = s.commands.length)
      (command : s.commands[id]? = some (.provideLenses d)) (begun : (s.scans id).isSome = true)
      (uncalled : s.cache.tasks[id]? = some { call := .debounce d.uri (some d.version), stage := .called }) :
      s.At (.scanning id)
  | scheduling {id : Nat} {d : Document} {stale : Option Lenses} {stage : Cache.Stage Lenses}
      (last : id + 1 = s.commands.length) (command : s.commands[id]? = some (.provideLenses d))
      (call : s.cache.tasks[id]? = some { call := .debounce d.uri (some d.version), stage })
      (early : stage.rank < 4) : s.At (.scheduling id stale)
  | answering {id : Nat} {d : Document} {lenses : Lenses} {stale : Bool} (last : id + 1 = s.commands.length)
      (command : s.commands[id]? = some (.provideLenses d)) : s.At (.answering id lenses stale)
  | closing {id : Nat} {uri : Text} {stage : Cache.Stage Lenses} (last : id + 1 = s.commands.length)
      (command : s.commands[id]? = some (.documentClosed uri))
      (call : s.cache.tasks[id]? = some { call := .close uri, stage }) (early : stage.rank < 3) :
      s.At (.closing id)

namespace System.At
variable {loop : Loop}

theorem last (stands : s.At loop) (on : loop.line? = some id) : id + 1 = s.commands.length := by
  cases stands with
  | idle => cases on
  | asked last | scanning last | scheduling last | answering last | closing last =>
    cases on
    exact last

/-- What others do leaves the loop where it is, as they work on calls that have come further. -/
theorem mono (stands : s.At loop) (commands : s'.commands = s.commands)
    (scans : ∀ i, (s.scans i).isSome = true → (s'.scans i).isSome = true)
    (tasks : ∀ (i : Nat) (t : Cache.Task Lenses), s.cache.tasks[i]? = some t → t.stage.rank < 4 →
      s'.cache.tasks[i]? = some t) : s'.At loop := by
  cases stands with
  | idle => exact .idle
  | asked last command uncalled =>
    rw [← commands] at last command
    exact .asked last command (tasks _ _ uncalled (by simp [Cache.Stage.rank]))
  | scanning last command begun uncalled =>
    rw [← commands] at last command
    exact .scanning last command (scans _ begun) (tasks _ _ uncalled (by simp [Cache.Stage.rank]))
  | scheduling last command call early =>
    rw [← commands] at last command
    exact .scheduling last command (tasks _ _ call early) early
  | answering last command =>
    rw [← commands] at last command
    exact .answering last command
  | closing last command call early =>
    rw [← commands] at last command
    exact .closing last command (tasks _ _ call (Nat.lt_succ_of_lt early)) early

end System.At

/-- A call that was held stands where a section has led it. -/
theorem moved {call : Cache.Call} {stage next : Cache.Stage Lenses} (held : s.cache.tasks[id]? = some { call, stage }) :
    (s.cache.tasks.set id { call, stage := next })[id]? = some { call, stage := next } :=
  List.getElem?_set_self (List.getElem?_eq_some_iff.mp held).1

/-- The sections of a timer's thread belong to calls that have come further than the loop's. -/
theorem ne_of_late {t u : Cache.Task Lenses} {i : Nat} (held : s.cache.tasks[id]? = some t) (late : 4 ≤ t.stage.rank)
    (found : s.cache.tasks[i]? = some u) (early : u.stage.rank < 4) : id ≠ i := by
  rintro rfl
  rw [held, Option.some.injEq] at found
  subst found
  exact absurd early (Nat.not_lt.mpr late)

theorem unmoved {call : Cache.Call} {stage : Cache.Stage Lenses} (next : Cache.Stage Lenses)
    (held : s.cache.tasks[id]? = some { call, stage }) (late : 4 ≤ stage.rank) (i : Nat) (t : Cache.Task Lenses)
    (found : s.cache.tasks[i]? = some t) (early : t.stage.rank < 4) :
    (s.cache.tasks.set id { call, stage := next })[i]? = some t := by
  rw [List.getElem?_set_ne (ne_of_late held late found early), found]

theorem isSome_update {scans : Nat → Option Progress} {p : Progress} {i : Nat} (begun : (scans i).isSome = true) :
    (Function.update scans id (some p) i).isSome = true := by
  rw [Function.update_apply]
  split
  · rfl
  · exact begun

/-- Beside the cache, a section of a call leads the loop on if it is the loop's own. -/
theorem System.At.act {a : Cache.Act Lenses} {call : Cache.Call} {stage next : Cache.Stage Lenses}
    {cache : Cache Lenses} (stands : s.At s.loop) (held : s.cache.tasks[id]? = some { call, stage })
    (move : Cache.Move s.cache.cache call stage a next cache) (beside : s.Beside id a s') :
    System.At { s' with cache := { cache, tasks := s.cache.tasks.set id { call, stage := next } } } s'.loop := by
  cases beside with
  | cancel key there =>
    rw [there] at stands ⊢
    cases stands with
    | scheduling last command known early =>
      rw [held, Option.some.injEq, Cache.Task.mk.injEq] at known
      obtain ⟨rfl, rfl⟩ := known
      cases move with
      | cancel => exact .scheduling last command (moved held) (by decide)
  | number there =>
    rw [there] at stands ⊢
    cases stands with
    | scheduling last command known early =>
      rw [held, Option.some.injEq, Cache.Task.mk.injEq] at known
      obtain ⟨rfl, rfl⟩ := known
      cases move with
      | number => exact .scheduling last command (moved held) (Nat.lt_succ_self 3)
  | insert key there =>
    rw [there] at stands
    cases stands with
    | scheduling last command => exact .answering last command
  | closeTimer key there =>
    rw [there] at stands ⊢
    cases stands with
    | closing last command known early =>
      rw [held, Option.some.injEq, Cache.Task.mk.injEq] at known
      obtain ⟨rfl, rfl⟩ := known
      cases move with
      | closeTimer => exact .closing last command (moved held) (by decide)
  | closeRecord there => exact .idle
  | stop =>
    refine stands.mono rfl (fun _ begun => begun) (unmoved next held ?_)
    cases move <;> simp [Cache.Stage.rank]
  | fire asked =>
    refine stands.mono rfl (fun _ => isSome_update) (unmoved next held ?_)
    cases move
    exact Nat.le_refl 4
  | compute scanned | commit key lenses | deliver lenses =>
    refine stands.mono rfl (fun _ begun => begun) (unmoved next held ?_)
    cases move
    simp [Cache.Stage.rank]

theorem Step.stands (step : Step delay s e s') (counted : s.commands.length = s.cache.tasks.length)
    (stands : s.At s.loop) : s'.At s'.loop := by
  have last (command : Command) : s.commands.length + 1 = (s.commands ++ [command]).length := by simp
  cases step with
  | @ask line d idle asked =>
    rw [System.reading]
    dsimp only
    split
    · exact .asked (last _) (last_command s _) (last_call counted _)
    · exact .answering (last _) (last_command s _)
  | close idle asked => exact .closing (last _) (last_command s _) (last_call counted _) (by decide)
  | refuse idle undecoded => exact stands
  | hit now there asked => exact .answering (stands.last (by rw [there]; rfl)) asked
  | missAtOnce now there asked =>
    rw [there] at stands
    cases stands with
    | asked last command uncalled => exact .scanning last command (by simp) uncalled
  | missDelayed now there asked =>
    rw [there] at stands
    cases stands with
    | asked last command uncalled => exact .scheduling last command uncalled (by decide)
  | scan scans progress sec => exact stands.mono rfl (fun _ => isSome_update) fun _ _ found _ => found
  | store now there asked => exact .answering (stands.last (by rw [there]; rfl)) asked
  | act held move beside => exact stands.act held move beside
  | answer there asked => exact .idle
  | forward | leave => exact stands.mono rfl (fun _ begun => begun) fun _ _ found _ => found

theorem Run.stands (run : Run v capacity idleLimit delay es s) : s.At s.loop := by
  induction run with
  | start => exact .idle
  | step run step ih => exact step.stands run.counted ih

/-! ### The end of a line -/

/-- Whether an event is a section of the loop that leads on with its line. -/
def Loop.Does (loop : Loop) : Event → Prop
  | .look id => loop = .asked id
  | .scan id | .store id => loop = .scanning id
  | .act id (.cancel _) => (∃ stale, loop = .scheduling id stale) ∨ loop = .closing id
  | .act id .number | .act id (.insert _) => ∃ stale, loop = .scheduling id stale
  | .act id .finish => loop = .closing id
  | .answer id _ => ∃ lenses stale, loop = .answering id lenses stale
  | _ => False

/-- The places in the document of a line where something may be found. -/
def System.sites (s : System) (id : Nat) : Nat :=
  match s.commands[id]? with
  | some (.provideLenses d) => (Detect.sites d.lines d.file).length
  | _ => 0

/-- How far the call of a line has come. -/
def System.rank (s : System) (id : Nat) : Nat := (s.cache.tasks[id]?.map fun t => t.stage.rank).getD 0

/-- The sections that are left at most until the loop comes to the end of its line. -/
def System.rest (s : System) : Nat :=
  match s.loop with
  | .idle => 0
  | .asked id => 2 * s.sites id + 5
  | .scanning id => ((s.scans id).map Progress.rest).getD 0 + 2
  | .scheduling id _ | .closing id => 5 - s.rank id
  | .answering _ _ _ => 1

theorem rank_of {t : Cache.Task Lenses} (held : s.cache.tasks[id]? = some t) : s.rank id = t.stage.rank := by
  rw [System.rank, held]
  rfl

theorem sites_of (asked : s.commands[id]? = some (.provideLenses d)) :
    s.sites id = (Detect.sites d.lines d.file).length := by
  rw [System.sites, asked]

theorem rest_asked (there : s.loop = .asked id) : s.rest = 2 * s.sites id + 5 := by
  rw [System.rest, there]

theorem rest_scanning {p : Progress} (there : s.loop = .scanning id) (begun : s.scans id = some p) :
    s.rest = p.rest + 2 := by
  rw [System.rest, there]
  dsimp only
  rw [begun]
  rfl

theorem rest_scheduling {stale : Option Lenses} {t : Cache.Task Lenses} (there : s.loop = .scheduling id stale)
    (held : s.cache.tasks[id]? = some t) : s.rest = 5 - t.stage.rank := by
  rw [System.rest, there, ← rank_of held]

theorem rest_closing {t : Cache.Task Lenses} (there : s.loop = .closing id) (held : s.cache.tasks[id]? = some t) :
    s.rest = 5 - t.stage.rank := by
  rw [System.rest, there, ← rank_of held]

/-- What others do leaves the loop as far from the end of its line as it is. -/
theorem System.At.rest_eq (stands : s.At s.loop) (loop : s'.loop = s.loop) (commands : s'.commands = s.commands)
    (scans : ∀ i, s.loop = .scanning i → s'.scans i = s.scans i)
    (tasks : ∀ (i : Nat) (t : Cache.Task Lenses), s.cache.tasks[i]? = some t → t.stage.rank < 4 →
      s'.cache.tasks[i]? = some t) : s'.rest = s.rest := by
  cases there : s.loop with
  | idle => rw [System.rest, System.rest, loop, there]
  | answering => rw [System.rest, System.rest, loop, there]
  | asked id => simp only [System.rest, loop, there, System.sites, commands]
  | scanning id => simp only [System.rest, loop, there, scans id there]
  | scheduling id stale =>
    rw [there] at stands
    cases stands with
    | scheduling last command call early =>
      rw [rest_scheduling there call, rest_scheduling (loop.trans there) (tasks _ _ call early)]
  | closing id =>
    rw [there] at stands
    cases stands with
    | closing last command call early =>
      rw [rest_closing there call, rest_closing (loop.trans there) (tasks _ _ call (Nat.lt_succ_of_lt early))]

/-- A section of the loop brings it nearer to the end of its line. All others leave it where it is. -/
def Nearer (s : System) (e : Event) (s' : System) : Prop :=
  s.loop.Does e ∧ s'.rest < s.rest ∨ ¬s.loop.Does e ∧ s'.loop = s.loop ∧ s'.rest = s.rest

theorem System.At.nearer {a : Cache.Act Lenses} {call : Cache.Call} {stage next : Cache.Stage Lenses}
    {cache : Cache Lenses} (stands : s.At s.loop) (held : s.cache.tasks[id]? = some { call, stage })
    (move : Cache.Move s.cache.cache call stage a next cache) (beside : s.Beside id a s') :
    Nearer s (.act id a) { s' with cache := { cache, tasks := s.cache.tasks.set id { call, stage := next } } } := by
  have further (early : stage.rank < 4) : 5 - next.rank < 5 - stage.rank := by
    have := move.rank
    omega
  cases beside with
  | @cancel stale key there =>
    refine .inl ⟨.inl ⟨stale, there⟩, ?_⟩
    rw [rest_scheduling there held]
    exact lt_of_eq_of_lt (rest_scheduling there (moved held)) (further (by cases move <;> decide))
  | @number stale there =>
    refine .inl ⟨⟨stale, there⟩, ?_⟩
    rw [rest_scheduling there held]
    exact lt_of_eq_of_lt (rest_scheduling there (moved held)) (further (by cases move; decide))
  | @insert stale key there =>
    refine .inl ⟨⟨stale, there⟩, ?_⟩
    rw [rest_scheduling there held]
    cases move
    exact Nat.lt_succ_self 1
  | closeTimer key there =>
    refine .inl ⟨.inr there, ?_⟩
    rw [rest_closing there held]
    exact lt_of_eq_of_lt (rest_closing there (moved held)) (further (by cases move <;> decide))
  | closeRecord there =>
    refine .inl ⟨there, ?_⟩
    rw [rest_closing there held]
    cases move <;> exact Nat.succ_pos 2
  | stop =>
    refine .inr ⟨not_false, rfl, stands.rest_eq rfl rfl (fun _ _ => rfl) (unmoved next held ?_)⟩
    cases move <;> simp [Cache.Stage.rank]
  | fire asked =>
    have late : 4 ≤ stage.rank := by cases move; exact Nat.le_refl 4
    refine .inr ⟨not_false, rfl, stands.rest_eq rfl rfl (fun i there => ?_) (unmoved next held late)⟩
    rw [there] at stands
    cases stands with
    | scanning last command begun uncalled =>
      exact Function.update_of_ne (ne_of_late held late uncalled (by simp [Cache.Stage.rank])).symm _ _
  | compute scanned | commit key lenses | deliver lenses =>
    refine .inr ⟨not_false, rfl, stands.rest_eq rfl rfl (fun _ _ => rfl) (unmoved next held ?_)⟩
    cases move
    simp [Cache.Stage.rank]

theorem Step.nearer (step : Step delay s e s') (stands : s.At s.loop) (busy : s.loop ≠ .idle) : Nearer s e s' := by
  cases step with
  | ask idle | close idle | refuse idle => exact absurd idle busy
  | hit now there =>
    refine .inl ⟨there, ?_⟩
    rw [rest_asked there]
    exact Nat.lt_of_lt_of_le (by decide : 1 < 5) (Nat.le_add_left ..)
  | missAtOnce now there asked =>
    refine .inl ⟨there, ?_⟩
    rw [rest_asked there, sites_of asked]
    exact lt_of_eq_of_lt (rest_scanning rfl (Function.update_self ..)) (Nat.add_lt_add_left (by decide) _)
  | missDelayed now there asked =>
    refine .inl ⟨there, ?_⟩
    rw [rest_asked there]
    rw [there] at stands
    cases stands with
    | asked last command uncalled =>
      refine lt_of_eq_of_lt (rest_scheduling rfl uncalled) ?_
      exact Nat.lt_of_lt_of_le (by decide : 4 < 5) (Nat.le_add_left ..)
  | @scan id p p' composer scans progress sec =>
    by_cases own : s.loop = .scanning id
    · refine .inl ⟨own, ?_⟩
      rw [rest_scanning own progress]
      exact lt_of_eq_of_lt (rest_scanning own (Function.update_self ..)) (Nat.add_lt_add_right sec.rest_lt 2)
    · refine .inr ⟨own, rfl, stands.rest_eq rfl rfl (fun i there => ?_) fun _ _ found _ => found⟩
      exact Function.update_of_ne (by rintro rfl; exact own there) _ _
  | store now there asked scanned =>
    refine .inl ⟨there, ?_⟩
    rw [rest_scanning there scanned]
    exact Nat.lt_of_lt_of_le (by decide : 1 < 2) (Nat.le_add_left ..)
  | act held move beside => exact stands.nearer held move beside
  | answer there asked =>
    refine .inl ⟨⟨_, _, there⟩, ?_⟩
    rw [System.rest, System.rest, there]
    exact Nat.one_pos
  | forward | leave => exact .inr ⟨not_false, rfl, rfl⟩

/-- A loop that is on a line can always go on with it. -/
theorem Run.goesOn (run : Run v capacity idleLimit delay es s) (busy : s.loop ≠ .idle) :
    ∃ e s', Step delay s e s' ∧ s.loop.Does e ∧ s'.commands = s.commands := by
  have stands := run.stands
  cases there : s.loop with
  | idle => exact absurd there busy
  | asked id =>
    rw [there] at stands
    cases stands with
    | @asked _ d last command =>
      by_cases hit : ∃ r, (s.cache.cache.get 0 d.uri).1 = some r ∧ r.version = d.version
      · obtain ⟨r, held, same⟩ := hit
        exact ⟨_, _, .hit 0 there command held same, rfl, rfl⟩
      · have missed : ∀ r, (s.cache.cache.get 0 d.uri).1 = some r → r.version ≠ d.version :=
          fun r held same => hit ⟨r, held, same⟩
        by_cases undelayed : delay = 0
        · exact ⟨_, _, .missAtOnce 0 there command missed undelayed, rfl, rfl⟩
        · exact ⟨_, _, .missDelayed 0 there command missed undelayed, rfl, rfl⟩
  | scanning id =>
    rw [there] at stands
    cases stands with
    | scanning last command begun =>
      obtain ⟨p, progress⟩ := Option.isSome_iff_exists.mp begun
      obtain ⟨d, asked, made⟩ := run.sound.scans progress
      rcases made.goesOn s.composer with ended | ⟨c', p', sec⟩
      · exact ⟨_, _, .store 0 there asked (ended ▸ progress), rfl, rfl⟩
      · exact ⟨_, _, .scan (.inl there) progress sec, rfl, rfl⟩
  | scheduling id stale =>
    rw [there] at stands
    cases stands with
    | @scheduling _ d _ stage last command call early =>
      cases stage with
      | called => exact ⟨_, _, .act call .cancel (.cancel _ there), .inl ⟨stale, rfl⟩, rfl⟩
      | cancelled => exact ⟨_, _, .act call .number (.number there), ⟨stale, rfl⟩, rfl⟩
      | numbered timer => exact ⟨_, _, .act call .insert (.insert _ there), ⟨stale, rfl⟩, rfl⟩
      | _ => exact absurd early (by simp [Cache.Stage.rank])
  | answering id lenses stale =>
    rw [there] at stands
    cases stands with
    | answering last command => exact ⟨_, _, .answer there command, ⟨_, _, rfl⟩, rfl⟩
  | closing id =>
    rw [there] at stands
    cases stands with
    | @closing _ uri stage last command call early =>
      cases stage with
      | called => exact ⟨_, _, .act call .closeTimer (.closeTimer _ there), .inr rfl, rfl⟩
      | cancelled => exact ⟨_, _, .act call .closeRecord (.closeRecord there), rfl, rfl⟩
      | _ => exact absurd early (by simp [Cache.Stage.rank])

/-- By itself the loop comes to the end of its line. -/
theorem Run.settles (run : Run v capacity idleLimit delay es s) :
    ∃ more s', Run v capacity idleLimit delay (es ++ more) s' ∧ s'.loop = .idle ∧ s'.commands = s.commands := by
  induction left : s.rest using Nat.strong_induction_on generalizing es s with
  | _ n ih =>
    by_cases idle : s.loop = .idle
    · exact ⟨[], s, by rwa [List.append_nil], idle, rfl⟩
    obtain ⟨e, next, step, does, same⟩ := run.goesOn idle
    rcases step.nearer run.stands idle with ⟨_, less⟩ | ⟨other, _⟩
    · obtain ⟨more, last, run, idle, kept⟩ := ih next.rest (left ▸ less) (run.step step) rfl
      exact ⟨e :: more, last, by simpa using run, idle, kept.trans same⟩
    · exact absurd does other

end EndpointConsole.Server.Interleaved
