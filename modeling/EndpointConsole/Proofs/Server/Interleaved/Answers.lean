import EndpointConsole.Proofs.Server.Interleaved.Loop

/-!
What a server sends for the requests for lenses (`Run.logged`). Each is answered when the loop comes to
the end of its line. Only then is there a thread to forward the lenses of a delayed scan, which sends
them once at most.
-/
namespace EndpointConsole.Server.Interleaved

open Source (Document)
open Lens (Lenses Cache)
open Detect (Scanned)

variable {v : Text} {capacity : Nat} {idleLimit : Option Nat} {delay id : Nat} {es : List Event} {e : Event}
  {s s' : System} {d : Document}

def Event.answerTo? (id : Nat) : Event → Option Json
  | answer n m => if n = id then some m else none
  | _ => none

def Event.refreshOf? (id : Nat) : Event → Option Json
  | forward n m => if n = id then some m else none
  | _ => none

/-- The messages by which a line is answered. -/
def answers (id : Nat) (es : List Event) : List Json := es.filterMap (Event.answerTo? id)

/-- The messages that forward the lenses of a line's delayed scan. -/
def refreshes (id : Nat) (es : List Event) : List Json := es.filterMap (Event.refreshOf? id)

theorem answers_concat (id : Nat) (es : List Event) (e : Event) :
    answers id (es ++ [e]) = answers id es ++ (e.answerTo? id).toList := by
  rw [answers, answers, List.filterMap_append]
  cases told : e.answerTo? id <;> simp [told]

theorem refreshes_concat (id : Nat) (es : List Event) (e : Event) :
    refreshes id (es ++ [e]) = refreshes id es ++ (e.refreshOf? id).toList := by
  rw [refreshes, refreshes, List.filterMap_append]
  cases told : e.refreshOf? id <;> simp [told]

/-- What was sent for the lines so far. -/
structure Logged (v : Text) (es : List Event) (s : System) : Prop where
  answered : ∀ {id : Nat} {d : Document}, s.commands[id]? = some (.provideLenses d) → s.loop.line? ≠ some id →
    ∃ lenses stale, answers id es = [lensesMessage d lenses stale]
  unanswered : ∀ {id : Nat}, s.commands.length ≤ id ∨ s.loop.line? = some id →
    answers id es = [] ∧ s.forwarders id = .unborn
  unrefreshed : ∀ {id : Nat}, s.forwarders id ≠ .gone → refreshes id es = []
  refreshed : ∀ {id : Nat}, refreshes id es ≠ [] → ∃ d lenses, s.commands[id]? = some (.provideLenses d) ∧
    Scanned v (partsAsked s.commands) d lenses ∧ refreshes id es = [refreshedMessage d lenses]

namespace Logged

/-- An event that sends nothing, with which no line ends and no thread begins or ends. -/
theorem quiet (logged : Logged v es s) (silent : ∀ id, e.answerTo? id = none ∧ e.refreshOf? id = none)
    (commands : s'.commands = s.commands) (line : s'.loop.line? = s.loop.line?)
    (forwarders : s'.forwarders = s.forwarders) : Logged v (es ++ [e]) s' := by
  have answers_eq (id : Nat) : answers id (es ++ [e]) = answers id es := by
    rw [answers_concat, (silent id).1, Option.toList_none, List.append_nil]
  have refreshes_eq (id : Nat) : refreshes id (es ++ [e]) = refreshes id es := by
    rw [refreshes_concat, (silent id).2, Option.toList_none, List.append_nil]
  constructor
  · intro id d asked done
    rw [answers_eq]
    exact logged.answered (commands ▸ asked) (line ▸ done)
  · intro id early
    rw [answers_eq, forwarders]
    exact logged.unanswered (by rwa [← commands, ← line])
  · intro id held
    rw [refreshes_eq]
    exact logged.unrefreshed (forwarders ▸ held)
  · intro id sent
    rw [refreshes_eq] at sent ⊢
    rw [commands]
    exact logged.refreshed sent

theorem reading (logged : Logged v es s) (idle : s.loop = .idle)
    (silent : ∀ id, e.answerTo? id = none ∧ e.refreshOf? id = none) (command : Command) (call : Cache.Call)
    {loop : Loop} (on : loop.line? = some s.commands.length) :
    Logged v (es ++ [e]) (s.reading command call loop) := by
  have before := logged.quiet (e := e) silent rfl rfl rfl
  constructor
  · intro id d asked done
    rcases Cache.getElem?_append_cases asked with ⟨last, _⟩ | ⟨_, asked⟩
    · exact absurd (last ▸ on) done
    · exact before.answered asked (by rw [idle]; nofun)
  · intro id early
    refine before.unanswered (.inl ?_)
    rcases early with beyond | last
    · rw [System.reading, List.length_append] at beyond
      omega
    · exact Nat.le_of_eq (Option.some.inj (on.symm.trans last))
  · exact before.unrefreshed
  · intro id sent
    obtain ⟨d, lenses, asked, scanned, same⟩ := before.refreshed sent
    exact ⟨d, lenses, Cache.getElem?_append_of _ asked, scanned.mono (partsAsked_subset _ _), same⟩

/-- A line that closes a document ends without an answer. -/
theorem closed (logged : Logged v es s) (silent : ∀ id, e.answerTo? id = none ∧ e.refreshOf? id = none)
    (stands : s.At s.loop) (there : s.loop = .closing id) (cache : Cache.System Lenses) :
    Logged v (es ++ [e]) { s with cache, loop := .idle } := by
  have before := logged.quiet (e := e) silent rfl rfl rfl
  refine ⟨?_, ?_, before.unrefreshed, before.refreshed⟩
  · intro other d asked _
    refine before.answered asked fun on => ?_
    rw [there] at on stands
    cases on
    cases stands with
    | closing last command =>
      rw [asked] at command
      cases command
  · rintro other (beyond | on)
    · exact before.unanswered (.inl beyond)
    · cases on

theorem answer (logged : Logged v es s) (stands : s.At s.loop) {lenses : Lenses} {stale : Bool}
    (there : s.loop = .answering id lenses stale) (asked : s.commands[id]? = some (.provideLenses d)) :
    Logged v (es ++ [.answer id (lensesMessage d lenses stale)]) { s with
      loop := .idle
      forwarders := if stale then Function.update s.forwarders id .waiting else s.forwarders } := by
  have on : s.loop.line? = some id := by rw [there]; rfl
  obtain ⟨nothing, unborn⟩ := logged.unanswered (.inr on)
  have own : answers id (es ++ [.answer id (lensesMessage d lenses stale)]) = [lensesMessage d lenses stale] := by
    rw [answers_concat, nothing, Event.answerTo?, if_pos rfl]
    rfl
  have others {other : Nat} (differs : id ≠ other) :
      answers other (es ++ [.answer id (lensesMessage d lenses stale)]) = answers other es := by
    rw [answers_concat, Event.answerTo?, if_neg differs, Option.toList_none, List.append_nil]
  have refreshes_eq (other : Nat) :
      refreshes other (es ++ [.answer id (lensesMessage d lenses stale)]) = refreshes other es :=
    (refreshes_concat ..).trans (List.append_nil _)
  constructor
  · intro other d' asked' _
    by_cases same : id = other
    · subst same
      cases asked.symm.trans asked'
      exact ⟨lenses, stale, own⟩
    · rw [others same]
      exact logged.answered asked' fun on' => same (Option.some.inj (on.symm.trans on'))
  · rintro other (beyond | idle)
    · have differs : id ≠ other := by
        rintro rfl
        exact absurd (stands.last on) (Nat.ne_of_gt (Nat.lt_succ_of_le beyond))
      obtain ⟨none_, unborn'⟩ := logged.unanswered (.inl beyond)
      refine ⟨by rw [others differs, none_], ?_⟩
      dsimp only
      split
      · rw [Function.update_of_ne (Ne.symm differs), unborn']
      · exact unborn'
    · cases idle
  · intro other held
    rw [refreshes_eq]
    by_cases same : id = other
    · exact logged.unrefreshed (by rw [← same, unborn]; nofun)
    · refine logged.unrefreshed fun gone => held ?_
      dsimp only
      split
      · rw [Function.update_of_ne (Ne.symm same), gone]
      · exact gone
  · intro other sent
    rw [refreshes_eq] at sent ⊢
    exact logged.refreshed sent

theorem forward (logged : Logged v es s) (sound : Sound v s) {lenses : Lenses} (waits : s.forwarders id = .waiting)
    (asked : s.commands[id]? = some (.provideLenses d)) (fresh : s.fresh id = some lenses) :
    Logged v (es ++ [.forward id (refreshedMessage d lenses)])
      { s with forwarders := Function.update s.forwarders id .gone } := by
  have answers_eq (other : Nat) :
      answers other (es ++ [.forward id (refreshedMessage d lenses)]) = answers other es :=
    (answers_concat ..).trans (List.append_nil _)
  have others {other : Nat} (differs : id ≠ other) :
      refreshes other (es ++ [.forward id (refreshedMessage d lenses)]) = refreshes other es := by
    rw [refreshes_concat, Event.refreshOf?, if_neg differs, Option.toList_none, List.append_nil]
  constructor
  · intro other d' asked' done
    rw [answers_eq]
    exact logged.answered asked' done
  · intro other early
    obtain ⟨nothing, unborn⟩ := logged.unanswered early
    have differs : other ≠ id := by rintro rfl; rw [waits] at unborn; cases unborn
    rw [answers_eq, nothing]
    exact ⟨rfl, (Function.update_of_ne differs _ _).trans unborn⟩
  · intro other held
    by_cases same : id = other
    · subst same
      exact absurd (Function.update_self ..) held
    · rw [others same]
      exact logged.unrefreshed fun gone => held ((Function.update_of_ne (Ne.symm same) _ _).trans gone)
  · intro other sent
    by_cases same : id = other
    · subst same
      obtain ⟨d', asked', scanned⟩ := sound.fresh fresh
      cases asked.symm.trans asked'
      have before : refreshes id es = [] := logged.unrefreshed (by rw [waits]; nofun)
      refine ⟨d, lenses, asked, scanned, ?_⟩
      rw [refreshes_concat, before, Event.refreshOf?, if_pos rfl]
      rfl
    · rw [others same] at sent ⊢
      exact logged.refreshed sent

theorem leave (logged : Logged v es s) (waits : s.forwarders id = .waiting) :
    Logged v (es ++ [.leave id]) { s with forwarders := Function.update s.forwarders id .gone } := by
  have before := logged.quiet (e := .leave id) (fun _ => ⟨rfl, rfl⟩) rfl rfl rfl
  refine ⟨before.answered, ?_, ?_, before.refreshed⟩
  · intro other early
    obtain ⟨nothing, unborn⟩ := before.unanswered early
    have differs : other ≠ id := by rintro rfl; rw [waits] at unborn; cases unborn
    exact ⟨nothing, (Function.update_of_ne differs _ _).trans unborn⟩
  · intro other held
    by_cases same : other = id
    · subst same
      exact absurd (Function.update_self ..) held
    · exact before.unrefreshed fun gone => held ((Function.update_of_ne same _ _).trans gone)

theorem step (logged : Logged v es s) (step : Step delay s e s') (stands : s.At s.loop) (sound : Sound v s) :
    Logged v (es ++ [e]) s' := by
  cases step with
  | ask idle asked =>
    refine logged.reading idle (fun _ => ⟨rfl, rfl⟩) _ _ ?_
    split <;> rfl
  | close idle asked => exact logged.reading idle (fun _ => ⟨rfl, rfl⟩) _ _ rfl
  | refuse idle undecoded => exact logged.quiet (fun _ => ⟨rfl, rfl⟩) rfl rfl rfl
  | hit now there | missAtOnce now there | missDelayed now there | store now there =>
    exact logged.quiet (fun _ => ⟨rfl, rfl⟩) rfl (by rw [there]; rfl) rfl
  | scan scans progress sec => exact logged.quiet (fun _ => ⟨rfl, rfl⟩) rfl rfl rfl
  | act held move beside =>
    cases beside with
    | insert key there => exact logged.quiet (fun _ => ⟨rfl, rfl⟩) rfl (by rw [there]; rfl) rfl
    | closeRecord there => exact logged.closed (fun _ => ⟨rfl, rfl⟩) stands there _
    | _ => exact logged.quiet (fun _ => ⟨rfl, rfl⟩) rfl rfl rfl
  | answer there asked => exact logged.answer stands there asked
  | forward waits asked fresh => exact logged.forward sound waits asked fresh
  | leave waits nothing ended => exact logged.leave waits

end Logged

theorem Run.logged (run : Run v capacity idleLimit delay es s) : Logged v es s := by
  induction run with
  | start =>
    refine ⟨?_, fun _ => ⟨rfl, rfl⟩, fun _ => rfl, fun sent => absurd rfl sent⟩
    intro id d asked
    rw [List.getElem?_nil] at asked
    cases asked
  | step run step ih => exact ih.step step run.stands run.sound

end EndpointConsole.Server.Interleaved
