import EndpointConsole.Proofs.Lens.Timers

/-!
What a delayed value can be relied on for, in every run of calls and timers that
share a cache (`Run.safe`). The sections of one call happen once and in their order
(`Run.rising`). A timer that is current was not disturbed since it was inserted
(`Run.fresh`), and only a current timer commits.
-/
namespace EndpointConsole.Lens.Cache

variable {α : Type} {capacity : Nat} {idleLimit : Option Nat} {es : List (Event α)} {s : System α}

theorem getElem?_append_of {β : Type} {l : List β} {i : Nat} {b : β} (new : β) (held : l[i]? = some b) :
    (l ++ [new])[i]? = some b := by
  obtain ⟨inside, _⟩ := List.getElem?_eq_some_iff.mp held
  rw [List.getElem?_append_left inside, held]

theorem getElem?_take_iff {β : Type} {l : List β} {i n : Nat} {b : β} :
    (l.take n)[i]? = some b ↔ i < n ∧ l[i]? = some b := by
  rw [List.getElem?_take]
  by_cases before : i < n
  · rw [if_pos before]
    exact ⟨fun held => ⟨before, held⟩, And.right⟩
  · rw [if_neg before]
    exact ⟨nofun, fun held => absurd held.1 before⟩

/-- What has happened is a step from the system that the events before it led to. -/
theorem Run.at (run : Run capacity idleLimit es s) {j : Nat} {e : Event α} (held : es[j]? = some e) :
    ∃ before after, Run capacity idleLimit (es.take j) before ∧ Step before e after := by
  induction run with
  | start => cases held
  | @step es new s next run step ih =>
    rcases getElem?_append_cases held with ⟨rfl, rfl⟩ | ⟨inside, earlier⟩
    · rw [List.take_left]
      exact ⟨s, next, run, step⟩
    · rw [List.take_append_of_le_length (Nat.le_of_lt inside)]
      exact ih earlier

def Stage.rank : Stage α → Nat
  | called => 1
  | cancelled => 2
  | numbered _ => 3
  | waiting _ => 4
  | computing _ => 5
  | computed _ _ => 6
  | committed _ => 7
  | ended => 8

def Act.rank : Act α → Nat
  | cancel _ | clearTimers => 1
  | number => 2
  | insert _ => 3
  | fire => 4
  | compute _ => 5
  | commit _ _ => 6
  | deliver _ | stop | finish => 7

def Event.rank : Event α → Nat
  | begin _ _ | use => 0
  | act _ a => a.rank

/-- The call that an event belongs to. -/
def Event.task? : Event α → Option Nat
  | begin id _ | act id _ => some id
  | use => none

/-- A section stands behind what its call has done and before what it goes on to. -/
theorem Move.rank {c c' : Cache α} {call : Call} {stage next : Stage α} {a : Act α}
    (move : Move c call stage a next c') : stage.rank ≤ a.rank ∧ a.rank < next.rank := by
  cases move <;> simp [Stage.rank, Act.rank]

/-- The calls have got further than the events that belong to them. -/
theorem Run.behind (run : Run capacity idleLimit es s) {i id : Nat} {e : Event α} (held : es[i]? = some e)
    (belongs : e.task? = some id) : ∃ task, s.tasks[id]? = some task ∧ e.rank < task.stage.rank := by
  induction run with
  | start => cases held
  | @step es new s next run step ih =>
    cases step with
    | begin call =>
      rcases getElem?_append_cases held with ⟨_, rfl⟩ | ⟨_, earlier⟩
      · cases belongs
        exact ⟨_, List.getElem?_concat_length, Nat.one_pos⟩
      · obtain ⟨task, found, less⟩ := ih earlier
        exact ⟨task, getElem?_append_of _ found, less⟩
    | use use =>
      rcases getElem?_append_cases held with ⟨_, rfl⟩ | ⟨_, earlier⟩
      · cases belongs
      · exact ih earlier
    | @act other call stage next a cache found move =>
      rcases getElem?_append_cases held with ⟨_, rfl⟩ | ⟨_, earlier⟩
      · cases belongs
        rcases getElem?_set_of { call, stage := next } found found with ⟨_, _, moved⟩ | ⟨differ, _⟩
        · exact ⟨_, moved, move.rank.2⟩
        · exact absurd rfl differ
      · obtain ⟨task, known, less⟩ := ih earlier
        rcases getElem?_set_of { call, stage := next } found known with ⟨_, rfl, moved⟩ | ⟨_, kept⟩
        · exact ⟨_, moved, Nat.lt_of_lt_of_le less (Nat.le_trans move.rank.1 (Nat.le_of_lt move.rank.2))⟩
        · exact ⟨task, kept, less⟩

/-- The events of one call happen in their order. -/
theorem Run.rising (run : Run capacity idleLimit es s) {i j id : Nat} {a b : Event α} (less : i < j)
    (first : es[i]? = some a) (second : es[j]? = some b) (belongs : a.task? = some id) (also : b.task? = some id) :
    a.rank < b.rank := by
  obtain ⟨before, after, reached, step⟩ := run.at second
  obtain ⟨task, known, behind⟩ := reached.behind (getElem?_take_iff.mpr ⟨less, first⟩) belongs
  cases step with
  | begin call =>
    -- a call that begins has its place behind all others
    cases also
    rw [List.getElem?_eq_none (Nat.le_refl _)] at known
    cases known
  | use use => cases also
  | act found move =>
    cases also
    rw [found, Option.some.injEq] at known
    subst known
    exact Nat.lt_of_lt_of_le behind move.rank.1

/-- No section of a call happens twice. -/
theorem Run.once (run : Run capacity idleLimit es s) {i j id : Nat} {a b : Event α} (first : es[i]? = some a)
    (second : es[j]? = some b) (belongs : a.task? = some id) (also : b.task? = some id) (same : a.rank = b.rank) :
    i = j := by
  rcases Nat.lt_trichotomy i j with less | equal | greater
  · exact absurd same (Nat.ne_of_lt (run.rising less first second belongs also))
  · exact equal
  · exact absurd same.symm (Nat.ne_of_lt (run.rising greater second first also belongs))

/-- A call begins before all of its sections. -/
theorem Run.begin_lt (run : Run capacity idleLimit es s) {p r id : Nat} {call : Call} {a : Act α}
    (begun : es[p]? = some (.begin id call)) (held : es[r]? = some (.act id a)) : p < r := by
  rcases Nat.lt_trichotomy p r with less | rfl | greater
  · exact less
  · rw [begun] at held
    cases held
  · exact absurd (run.rising greater held begun rfl rfl) (Nat.not_lt_zero _)

/-- Whether a call takes away the timers of a document before it returns. -/
def Call.Purges (key : Text) : Call → Prop
  | close k => k = key
  | clear => True
  | debounce _ _ => False

/-- What must have happened for a call to be where it is. -/
structure Task.Explained (es : List (Event α)) (id : Nat) (t : Task α) : Prop where
  purged : t.stage = .cancelled → ∀ key, t.call.Purges key →
    ∃ (i : Nat) (a : Act α), es[i]? = some (.act id a) ∧ a.Disturbs key
  committed : ∀ value, t.stage = .committed value →
    ∃ (i : Nat) (key : Text), es[i]? = some (.act id (.commit key value))

theorem Task.Explained.append {id : Nat} {t : Task α} (explained : t.Explained es id) (e : Event α) :
    t.Explained (es ++ [e]) id := by
  constructor
  · intro cancelled key purges
    obtain ⟨i, a, held, disturbs⟩ := explained.purged cancelled key purges
    exact ⟨i, a, getElem?_append_of e held, disturbs⟩
  · intro value committed
    obtain ⟨i, key, held⟩ := explained.committed value committed
    exact ⟨i, key, getElem?_append_of e held⟩

theorem Move.explained {c c' : Cache α} {call : Call} {stage next : Stage α} {a : Act α} {id : Nat}
    (move : Move c call stage a next c') : Task.Explained (es ++ [.act id a]) id { call, stage := next } := by
  have last : (es ++ [Event.act id a])[es.length]? = some (.act id a) := List.getElem?_concat_length
  constructor
  · intro cancelled key purges
    cases move with
    | cancel => exact purges.elim
    | closeTimer => exact ⟨_, _, last, purges⟩
    | clearTimers => exact ⟨_, _, last, trivial⟩
    | _ => cases cancelled
  · intro value committed
    cases move with
    | commit now current =>
      cases committed
      exact ⟨_, _, last⟩
    | _ => cases committed

theorem Run.explained (run : Run capacity idleLimit es s) {id : Nat} {t : Task α} (held : s.tasks[id]? = some t) :
    t.Explained es id := by
  induction run generalizing id t with
  | start => cases held
  | step run step ih =>
    cases step with
    | begin call =>
      rcases getElem?_append_cases held with ⟨_, rfl⟩ | ⟨_, before⟩
      · exact ⟨nofun, nofun⟩
      · exact (ih before).append _
    | use use => exact (ih held).append _
    | act found move =>
      rcases getElem?_set_cases held with ⟨rfl, rfl⟩ | ⟨_, before⟩
      · exact move.explained
      · exact (ih before).append _

/-- A call stays the one that was begun. -/
theorem Run.call_of_begin (run : Run capacity idleLimit es s) {i id : Nat} {call : Call} {t : Task α}
    (begun : es[i]? = some (.begin id call)) (held : s.tasks[id]? = some t) : t.call = call := by
  induction run generalizing t with
  | start => cases begun
  | @step es new s next run step ih =>
    cases step with
    | begin other =>
      rcases getElem?_append_cases begun with ⟨_, same⟩ | ⟨_, earlier⟩
      · cases same
        rw [List.getElem?_concat_length, Option.some.injEq] at held
        rw [← held]
      · rcases getElem?_append_cases held with ⟨last, _⟩ | ⟨_, before⟩
        · obtain ⟨task, known, _⟩ := run.behind earlier rfl
          rw [last, List.getElem?_eq_none (Nat.le_refl _)] at known
          cases known
        · exact ih earlier before
    | use use =>
      rcases getElem?_append_cases begun with ⟨_, same⟩ | ⟨_, earlier⟩
      · cases same
      · exact ih earlier held
    | act found move =>
      rcases getElem?_append_cases begun with ⟨_, same⟩ | ⟨_, earlier⟩
      · cases same
      · rcases getElem?_set_cases held with ⟨rfl, rfl⟩ | ⟨_, before⟩
        · exact (ih earlier found :)
        · exact ih earlier before

/-- A call has inserted a timer for a document that was left alone since. -/
def Alone (es : List (Event α)) (id : Nat) (key : Text) : Prop :=
  ∃ i : Nat, es[i]? = some (.act id (.insert key)) ∧ ∀ (k : Nat) (e : Event α), i < k → es[k]? = some e → ¬e.Disturbs key

theorem Alone.append {id : Nat} {key : Text} {e : Event α} (alone : Alone es id key) (calm : ¬e.Disturbs key) :
    Alone (es ++ [e]) id key := by
  obtain ⟨i, inserted, since⟩ := alone
  refine ⟨i, getElem?_append_of e inserted, ?_⟩
  intro k other later held
  rcases getElem?_append_cases held with ⟨_, rfl⟩ | ⟨_, earlier⟩
  · exact calm
  · exact since k other later earlier

theorem alone_insert (es : List (Event α)) (id : Nat) (key : Text) : Alone (es ++ [.act id (.insert key)]) id key := by
  refine ⟨es.length, List.getElem?_concat_length, ?_⟩
  intro k e later held
  rcases getElem?_append_cases held with ⟨last, _⟩ | ⟨inside, _⟩
  · exact absurd last (Nat.ne_of_gt later)
  · exact absurd inside (Nat.not_lt_of_gt later)

/-- The call that holds the number of a current timer has inserted it, and it was left alone since. -/
theorem Run.fresh (run : Run capacity idleLimit es s) {id timer : Nat} {key : Text}
    (current : s.cache.isCurrent key timer = true) (holds : s.Holds id timer) : Alone es id key := by
  induction run with
  | start => cases current
  | @step es e s next run step ih =>
    have numbered := run.numbered.step step
    cases step with
    | begin call => exact (ih current holds.of_begin).append not_false
    | use use =>
      rw [use.sameTimers.isCurrent] at current
      exact (ih current holds).append not_false
    | @act other call stage next a cache found move =>
      rcases move.isCurrent current with ⟨before, calm⟩ | ⟨rfl, number⟩
      · rcases System.Holds.of_act found move holds with held | ⟨_, new, _⟩
        · exact (ih before held).append calm
        · have bound := run.numbered.current key timer before
          omega
      · rcases getElem?_set_of { call, stage := next } found found with ⟨_, _, moved⟩ | ⟨differ, _⟩
        · have same := numbered.unique id other timer holds ⟨_, moved, number⟩
          exact same ▸ alone_insert es other key
        · exact absurd rfl differ

/-- What can be relied on in a run, with events named by their places in it. -/
structure Safe (es : List (Event α)) (s : System α) : Prop where
  /-- A document has one pending timer at most. -/
  one_timer : (s.cache.timers.map Prod.fst).Nodup
  commits_once : ∀ {i j id : Nat} {key key' : Text} {value value' : α},
    es[i]? = some (.act id (.commit key value)) → es[j]? = some (.act id (.commit key' value')) → i = j
  delivers_once : ∀ {i j id : Nat} {value value' : α},
    es[i]? = some (.act id (.deliver value)) → es[j]? = some (.act id (.deliver value')) → i = j
  /-- What is delivered was committed before. -/
  committed : ∀ {j id : Nat} {value : α}, es[j]? = some (.act id (.deliver value)) →
    ∃ (i : Nat) (key : Text), i < j ∧ es[i]? = some (.act id (.commit key value))
  /-- A call commits only if nothing has disturbed the timer that it inserted: no other timer was
      inserted for the document, none was cancelled, and not all were cleared. -/
  undisturbed : ∀ {j id : Nat} {key : Text} {value : α}, es[j]? = some (.act id (.commit key value)) →
    ∃ i : Nat, i < j ∧ es[i]? = some (.act id (.insert key)) ∧
      ∀ (k : Nat) (e : Event α), i < k → k < j → es[k]? = some e → ¬e.Disturbs key
  /-- Once a document was closed or all were cleared, no timer inserted before commits any more. -/
  purged : ∀ {p q i j closing id : Nat} {call : Call} {key key' : Text} {value : α},
    es[p]? = some (.begin closing call) → call.Purges key → es[q]? = some (.act closing .finish) →
    es[i]? = some (.act id (.insert key)) → i < p → es[j]? = some (.act id (.commit key' value)) → j < q

theorem Run.committed (run : Run capacity idleLimit es s) {j id : Nat} {value : α}
    (delivered : es[j]? = some (.act id (.deliver value))) :
    ∃ (i : Nat) (key : Text), i < j ∧ es[i]? = some (.act id (.commit key value)) := by
  obtain ⟨before, after, reached, step⟩ := run.at delivered
  cases step with
  | act found move =>
    cases move with
    | deliver =>
      obtain ⟨i, key, held⟩ := (reached.explained found).committed value rfl
      obtain ⟨less, committed⟩ := getElem?_take_iff.mp held
      exact ⟨i, key, less, committed⟩

theorem Run.undisturbed (run : Run capacity idleLimit es s) {j id : Nat} {key : Text} {value : α}
    (committed : es[j]? = some (.act id (.commit key value))) :
    ∃ i : Nat, i < j ∧ es[i]? = some (.act id (.insert key)) ∧
      ∀ (k : Nat) (e : Event α), i < k → k < j → es[k]? = some e → ¬e.Disturbs key := by
  obtain ⟨before, after, reached, step⟩ := run.at committed
  cases step with
  | act found move =>
    cases move with
    | commit now current =>
      obtain ⟨i, held, since⟩ := reached.fresh current ⟨_, found, rfl⟩
      obtain ⟨less, inserted⟩ := getElem?_take_iff.mp held
      refine ⟨i, less, inserted, ?_⟩
      intro k e later earlier event
      exact since k e later (getElem?_take_iff.mpr ⟨earlier, event⟩)

/-- A call that returns after it had to take timers away has done so since it began. -/
theorem Run.purged_between (run : Run capacity idleLimit es s) {p q id : Nat} {call : Call} {key : Text}
    (begun : es[p]? = some (.begin id call)) (purges : call.Purges key) (returned : es[q]? = some (.act id .finish)) :
    ∃ (r : Nat) (a : Act α), p < r ∧ r < q ∧ es[r]? = some (.act id a) ∧ a.Disturbs key := by
  obtain ⟨before, after, reached, step⟩ := run.at returned
  have first := getElem?_take_iff.mpr ⟨run.begin_lt begun returned, begun⟩
  cases step with
  | @act _ other stage next a cache found move =>
    have same : other = call := reached.call_of_begin first found
    have stopped : stage = .cancelled := by cases move <;> rfl
    obtain ⟨r, b, held, disturbs⟩ := (reached.explained found).purged stopped key (same ▸ purges)
    obtain ⟨less, event⟩ := getElem?_take_iff.mp held
    exact ⟨r, b, run.begin_lt begun event, less, event, disturbs⟩

/-- Whatever order the sections of any number of calls and timers come in, the run is safe. -/
theorem Run.safe (run : Run capacity idleLimit es s) : Safe es s where
  one_timer := run.distinct
  commits_once first second := run.once first second rfl rfl rfl
  delivers_once first second := run.once first second rfl rfl rfl
  committed := run.committed
  undisturbed := run.undisturbed
  purged := by
    intro p q i j closing id call key key' value begun purges returned inserted earlier committed
    obtain ⟨r, a, since, until_, event, disturbs⟩ := run.purged_between begun purges returned
    obtain ⟨i', less, inserted', alone⟩ := run.undisturbed committed
    -- the timer was inserted once, and taken away before the closing call returned
    have same := run.once inserted inserted' rfl rfl rfl
    subst same
    rw [inserted, Option.some.injEq] at inserted'
    cases inserted'
    by_contra late
    exact alone r (.act closing a) (by omega) (by omega) event disturbs

/-- A run in which a value comes to be held and is delivered. -/
theorem Run.safe_delivery :
    ∃ (es : List (Event Nat)) (s : System Nat), Run 0 none es s ∧ es[7]? = some (.act 0 (.deliver 7)) ∧
      s.cache.peek? ['a'] = some { version := 1, value := 7, used := 5 } ∧ Safe es s := by
  have started : Run 0 none ([] : List (Event Nat)) _ := .start
  have begun := started.step (.begin (.debounce ['a'] (some 1)))
  have cancelled := begun.step (@Step.act _ _ 0 _ _ _ _ _ rfl .cancel)
  have numbered := cancelled.step (@Step.act _ _ 0 _ _ _ _ _ rfl .number)
  have inserted := numbered.step (@Step.act _ _ 0 _ _ _ _ _ rfl .insert)
  have fired := inserted.step (@Step.act _ _ 0 _ _ _ _ _ rfl (.fire rfl))
  have computed := fired.step (@Step.act _ _ 0 _ _ _ _ _ rfl (.compute 7))
  have committed := computed.step (@Step.act _ _ 0 _ _ _ _ _ rfl (.commit 5 rfl))
  have delivered := committed.step (@Step.act _ _ 0 _ _ _ _ _ rfl .deliver)
  exact ⟨_, _, delivered, rfl, rfl, delivered.safe⟩

end EndpointConsole.Lens.Cache
