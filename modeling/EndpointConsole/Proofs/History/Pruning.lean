import EndpointConsole.Proofs.History.Reload

/-!
Old items are dropped when somebody looks, and nobody can tell who looked
(`answers_without_spare`): leaving lookups out of a run of calls changes no answer
to the lookups that remain. What a bucket shows at a time depends only on its items
that are not too old then (`unexpired`), and putting an item into a bucket, with all
that this drops from it, keeps two buckets alike in these (`unexpired_addItem`).
-/
namespace EndpointConsole.History
open Sorted (Increasing)

theorem isNewer_trans (a b c : Item) (first : isNewer a b = true) (second : isNewer b c = true) :
    isNewer a c = true := by
  simp only [isNewer, decide_eq_true_eq] at *
  omega

theorem isNewer_total (a b : Item) : (isNewer a b || isNewer b a) = true := by
  simp only [isNewer, Bool.or_eq_true, decide_eq_true_eq]
  omega

theorem newestFirst_sorted (items : List Item) : (newestFirst items).Pairwise fun a b => b.time ≤ a.time := by
  have sorted := List.pairwise_mergeSort isNewer_trans isNewer_total items
  exact sorted.imp fun newer => by simpa [isNewer] using newer

/-- Items in order are those newer than a time and then the others. -/
theorem newer_append_others {items : List Item} (sorted : items.Pairwise fun a b => b.time ≤ a.time) (time : Int) :
    items.filter (fun i => time < i.time) ++ items.filter (fun i => i.time ≤ time) = items := by
  induction items with
  | nil => rfl
  | cons item rest ih =>
    obtain ⟨older, tail⟩ := List.pairwise_cons.mp sorted
    by_cases newer : time < item.time
    · simp [newer, ih tail]
    · have others : ∀ i ∈ rest, i.time ≤ time := fun i member => Int.le_trans (older i member) (Int.not_lt.mp newer)
      have none : rest.filter (fun i => time < i.time) = [] := by simpa using others
      have all : rest.filter (fun i => i.time ≤ time) = rest := by simpa using others
      simp [newer, none, all, Int.not_lt.mp newer]

/-- An item goes behind those that are newer and before all others. -/
theorem newestFirst_cons (item : Item) (items : List Item) :
    newestFirst (item :: items) =
      (newestFirst items).filter (fun i => item.time < i.time) ++
        item :: (newestFirst items).filter fun i => i.time ≤ item.time := by
  obtain ⟨newer, others, placed, parts, above⟩ := List.mergeSort_cons isNewer_trans isNewer_total item items
  have sorted := newestFirst_sorted (item :: items)
  rw [newestFirst, placed] at sorted
  have behind := (List.pairwise_cons.mp (List.pairwise_append.mp sorted).2.1).1
  have before : ∀ i ∈ newer, item.time < i.time := fun i member => by simpa [isNewer] using above i member
  have first : (newer ++ others).filter (fun i => item.time < i.time) = newer := by
    rw [List.filter_append, List.filter_eq_self.mpr (by simpa using before),
      List.filter_eq_nil_iff.mpr (by simpa using behind), List.append_nil]
  have second : (newer ++ others).filter (fun i => i.time ≤ item.time) = others := by
    rw [List.filter_append, List.filter_eq_nil_iff.mpr (by simpa using before),
      List.filter_eq_self.mpr (by simpa using behind), List.nil_append]
  rw [newestFirst, newestFirst, placed, parts, first, second]

/-- Items may be picked before they are sorted. -/
theorem filter_newestFirst (p : Item → Bool) (items : List Item) :
    (newestFirst items).filter p = newestFirst (items.filter p) := by
  induction items with
  | nil => simp [newestFirst]
  | cons item rest ih =>
    have picked (q : Item → Bool) : ((newestFirst rest).filter q).filter p = (newestFirst (rest.filter p)).filter q := by
      rw [← ih, List.filter_comm]
    rw [newestFirst_cons, List.filter_append, picked]
    by_cases taken : p item = true
    · rw [List.filter_cons_of_pos taken, List.filter_cons_of_pos taken, newestFirst_cons, picked]
    · rw [List.filter_cons_of_neg taken, List.filter_cons_of_neg taken, picked,
        newer_append_others (newestFirst_sorted _)]

/-- Of items in order, the first few that are not too old are the first few of those not too old. -/
theorem filter_take_of_sorted {items : List Item} (sorted : items.Pairwise fun a b => b.time ≤ a.time)
    (cutoff : Int) (n : Nat) :
    (items.take n).filter (fun i => cutoff ≤ i.time) = (items.filter fun i => cutoff ≤ i.time).take n := by
  induction items generalizing n with
  | nil => simp
  | cons item rest ih =>
    obtain ⟨older, tail⟩ := List.pairwise_cons.mp sorted
    cases n with
    | zero => simp
    | succ n =>
      by_cases fresh : cutoff ≤ item.time
      · simp [fresh, ih tail]
      · -- all that follows is too old as well
        have none : ∀ i ∈ rest, ¬cutoff ≤ i.time := fun i member late => fresh (Int.le_trans late (older i member))
        have nothing : rest.filter (fun i => cutoff ≤ i.time) = [] := by simpa using none
        simp [fresh, ih tail, nothing]

/-- The items that are not too old at a time, where items are kept for a number of milliseconds that
    is read as a signed word. -/
def unexpired (kept : Option Nat) (now : Int) (items : List Item) : List Item :=
  match kept with
  | none => items
  | some time => items.filter fun i => now - wrappedSigned time ≤ i.time

def Contents.unexpired (kept : Option Nat) (now : Int) (contents : Contents) : Contents :=
  fun bucket => History.unexpired kept now (contents bucket)

/-- What was too old before is too old. -/
theorem unexpired_unexpired (kept : Option Nat) {now later : Int} (passes : now ≤ later) (items : List Item) :
    unexpired kept later (unexpired kept now items) = unexpired kept later items := by
  cases kept with
  | none => rfl
  | some time =>
    rw [unexpired, unexpired, unexpired, List.filter_filter]
    apply List.filter_congr
    intro i _
    rw [Bool.and_eq_left_iff_imp]
    intro fresh
    simp only [decide_eq_true_eq] at fresh ⊢
    omega

theorem unexpired_filter (kept : Option Nat) (now : Int) (p : Item → Bool) (items : List Item) :
    unexpired kept now (items.filter p) = (unexpired kept now items).filter p := by
  cases kept with
  | none => rfl
  | some time => exact List.filter_comm _ _ _

/-- Of the first few items in order those are shown that come first among all that are shown. -/
theorem unexpired_addItem (kept : Option Nat) (now : Int) (item : Item) (limit : Nat) (items : List Item) :
    unexpired kept now (addItem item limit items) =
      (newestFirst (unexpired kept now [item] ++ (unexpired kept now items).filter fun i => i.id ≠ item.id)).take
        (max limit 1) := by
  rw [← unexpired_filter, addItem]
  cases kept with
  | none => rfl
  | some time =>
    rw [unexpired, filter_take_of_sorted (newestFirst_sorted _), filter_newestFirst, ← List.singleton_append,
      List.filter_append]
    rfl

/-- Putting an item into a bucket at a time keeps what is shown of all buckets alike. -/
theorem Contents.unexpired_set {kept : Option Nat} {now : Int} {a b : Contents}
    (alike : a.unexpired kept now = b.unexpired kept now) (bucket : Text) {items items' : List Item}
    (also : History.unexpired kept now items = History.unexpired kept now items') :
    (a.set bucket items).unexpired kept now = (b.set bucket items').unexpired kept now := by
  funext name
  rw [Contents.unexpired, Contents.unexpired, Contents.set, Contents.set]
  by_cases asked : bucket = name
  · rw [if_pos asked, if_pos asked, also]
  · rw [if_neg asked, if_neg asked]
    exact congrFun alike name

/-- The time that items must not be older than fits a signed word, if it is asked for. -/
def Call.CutoffFits (kept : Option Nat) : Call → Prop
  | .get _ now => ∀ time ∈ kept, minSigned ≤ now - wrappedSigned time ∧ now - wrappedSigned time ≤ maxSigned
  | _ => True

variable {h : History} {bucket : Text}

/-- A lookup shows what is not too old, and drops the rest from all buckets. -/
theorem get_unexpired (increasing : Increasing h.buckets) {now : Int}
    (fits : (Call.get bucket now).CutoffFits h.kept) :
    ∃ next, h.get bucket now = .ok (newestFirst (h.contents.unexpired h.kept now bucket), next) ∧
      Increasing next.buckets ∧ next.kept = h.kept ∧ next.contents = h.contents.unexpired h.kept now := by
  cases kept : h.kept with
  | none =>
    refine ⟨h, ?_, increasing, kept, rfl⟩
    rw [get, pruned, kept]
    rfl
  | some time =>
    have cutoff := fits time kept
    have buckets : (h.keptSince (now - wrappedSigned time)).buckets = since (now - wrappedSigned time) h.buckets := by
      rw [keptSince]
      split <;> rfl
    have left := contents_since increasing (now - wrappedSigned time)
    refine ⟨h.keptSince (now - wrappedSigned time), ?_, ?_, (kept_keptSince h _).trans kept, ?_⟩
    · simp only [get, pruned, kept, checkedSigned, if_pos cutoff, Except.map, buckets]
      exact congrArg (fun items => Except.ok (newestFirst items, _)) (congrFun left bucket)
    · rw [buckets]
      exact increasing_since increasing _
    · rw [contents, buckets]
      exact left

theorem contents_add (h : History) (bucket : Text) (item : Item) (limit : Nat) :
    (h.add bucket item limit).2.contents = h.contents.set bucket (addItem item limit (h.contents bucket)) :=
  contents_insert

theorem contents_clear (h : History) (bucket : Text) : (h.clear bucket).contents = h.contents.set bucket [] := by
  rw [clear]
  cases found : Json.lookup? bucket h.buckets with
  | none => exact (contents_set_absent found).symm
  | some items => exact contents_erase

theorem increasing_clear (increasing : Increasing h.buckets) : Increasing (h.clear bucket).buckets := by
  rw [clear]
  cases Json.lookup? bucket h.buckets with
  | none => exact increasing
  | some items => exact increasing.erase

/-- The time at which a call looks at the history, if it does. -/
def Call.time? : Call → Option Int
  | .get _ now => some now
  | _ => none

/-- A call of a run. If it is spare and a lookup, it may be left out. -/
structure Turn where
  call : Call
  spare : Bool
  deriving Repr

def Turn.looks (t : Turn) : Bool := t.call.time?.isSome

def Turn.stays (t : Turn) : Bool := !(t.spare && t.looks)

def stepsOf (turns : List Turn) : List Step := turns.map fun t => .call t.call

/-- The times of the lookups. -/
def timesOf (turns : List Turn) : List Int := turns.filterMap fun t => t.call.time?

/-- The answers to the lookups that stay. -/
def lookedUp (turns : List Turn) (answers : List (List Item)) : List (List Item) :=
  ((turns.zip answers).filter fun p => p.1.stays && p.1.looks).map Prod.snd

theorem answers_call {c : Call} {answer : List Item} {next : History} {rest : List Step} {more : List (List Item)}
    (performed : h.perform c = .ok (answer, next)) (after : answers next rest = .ok more) :
    answers h (.call c :: rest) = .ok (answer :: more) := by
  rw [answers, performed]
  exact congrArg (fun r : Checked (List (List Item)) => r.bind fun more => .ok (answer :: more)) after

/-- One history answers the lookups that stay in a run as another does that is asked only these. -/
def AnswersAlike (h g : History) (turns : List Turn) : Prop :=
  ∃ all left, answers h (stepsOf turns) = .ok all ∧ answers g (stepsOf (turns.filter Turn.stays)) = .ok left ∧
    lookedUp turns all = lookedUp (turns.filter Turn.stays) left

namespace AnswersAlike
variable {g next next' : History} {t : Turn} {rest : List Turn} {answer answer' : List Item}

/-- A call that does not look at the history goes to both. -/
theorem silent (silent : t.looks = false) (performed : h.perform t.call = .ok (answer, next))
    (performed' : g.perform t.call = .ok (answer', next')) (alike : AnswersAlike next next' rest) :
    AnswersAlike h g (t :: rest) := by
  have stays : t.stays = true := by simp [Turn.stays, silent]
  obtain ⟨all, left, ran, ran', agree⟩ := alike
  refine ⟨answer :: all, answer' :: left, answers_call performed ran, ?_, ?_⟩
  · rw [List.filter_cons_of_pos stays]
    exact answers_call performed' ran'
  · rw [List.filter_cons_of_pos stays]
    simpa [lookedUp, silent] using agree

/-- A spare lookup goes to one of them only, and its answer does not count. -/
theorem spare (spare : t.stays = false) (performed : h.perform t.call = .ok (answer, next))
    (alike : AnswersAlike next g rest) : AnswersAlike h g (t :: rest) := by
  obtain ⟨all, left, ran, ran', agree⟩ := alike
  have out : (t :: rest).filter Turn.stays = rest.filter Turn.stays := List.filter_cons_of_neg (by simp [spare])
  refine ⟨answer :: all, left, answers_call performed ran, ?_, ?_⟩
  · rw [out]
    exact ran'
  · rw [out]
    simpa [lookedUp, spare] using agree

/-- Any other lookup goes to both and gets one answer. -/
theorem looked (stays : t.stays = true) (looks : t.looks = true) (performed : h.perform t.call = .ok (answer, next))
    (performed' : g.perform t.call = .ok (answer, next')) (alike : AnswersAlike next next' rest) :
    AnswersAlike h g (t :: rest) := by
  obtain ⟨all, left, ran, ran', agree⟩ := alike
  refine ⟨answer :: all, answer :: left, answers_call performed ran, ?_, ?_⟩
  · rw [List.filter_cons_of_pos stays]
    exact answers_call performed' ran'
  · rw [List.filter_cons_of_pos stays]
    simpa [lookedUp, stays, looks] using agree

end AnswersAlike

/-- The same is shown at all of some times. -/
def ShowsAlike (kept : Option Nat) (times : List Int) (a b : Contents) : Prop :=
  ∀ now ∈ times, a.unexpired kept now = b.unexpired kept now

namespace ShowsAlike
variable {kept : Option Nat} {times : List Int} {a b : Contents}

theorem set (alike : ShowsAlike kept times a b) (bucket : Text) {items items' : List Item}
    (also : ∀ now ∈ times, unexpired kept now items = unexpired kept now items') :
    ShowsAlike kept times (a.set bucket items) (b.set bucket items') :=
  fun now asked => Contents.unexpired_set (alike now asked) bucket (also now asked)

/-- What decides which items of a bucket are shown, now that one was put in, is what was shown before. -/
theorem addItem (alike : ShowsAlike kept times a b) (bucket : Text) (item : Item) (limit : Nat) :
    ShowsAlike kept times (a.set bucket (addItem item limit (a bucket)))
      (b.set bucket (History.addItem item limit (b bucket))) := by
  apply alike.set bucket
  intro now asked
  have shown : unexpired kept now (a bucket) = unexpired kept now (b bucket) := congrFun (alike now asked) bucket
  rw [unexpired_addItem, unexpired_addItem, shown]

/-- Dropping on one side what is too old at a time changes nothing later on. -/
theorem dropped {now : Int} (alike : ShowsAlike kept times a b) (later : ∀ time ∈ times, now ≤ time) :
    ShowsAlike kept times (a.unexpired kept now) b := by
  intro time asked
  rw [← alike time asked]
  funext bucket
  exact unexpired_unexpired kept (later time asked) (a bucket)

end ShowsAlike

/-- Of two histories that show the same at the times of all lookups, one may be spared some of them. -/
theorem answersAlike_of_showsAlike {turns : List Turn} {h g : History} (increasing : Increasing h.buckets)
    (increasing' : Increasing g.buckets) (kept : g.kept = h.kept) (rising : (timesOf turns).Pairwise (· ≤ ·))
    (fits : ∀ t ∈ turns, t.call.CutoffFits h.kept) (alike : ShowsAlike h.kept (timesOf turns) h.contents g.contents) :
    AnswersAlike h g turns := by
  induction turns generalizing h g with
  | nil => exact ⟨[], [], rfl, rfl, rfl⟩
  | cons t rest ih =>
    have fitsRest : ∀ t ∈ rest, t.call.CutoffFits h.kept := fun t member => fits t (List.mem_cons_of_mem _ member)
    obtain ⟨call, spare⟩ := t
    cases call with
    | add bucket item limit =>
      have next : ShowsAlike h.kept (timesOf rest) (h.add bucket item limit).2.contents
          (g.add bucket item limit).2.contents := by
        rw [contents_add, contents_add]
        exact ShowsAlike.addItem alike bucket item limit
      exact .silent rfl rfl rfl (ih increasing.insert increasing'.insert kept rising fitsRest next)
    | clear bucket =>
      have next : ShowsAlike h.kept (timesOf rest) (h.clear bucket).contents (g.clear bucket).contents := by
        rw [contents_clear, contents_clear]
        exact ShowsAlike.set alike bucket fun _ _ => rfl
      refine .silent rfl rfl rfl (ih (increasing_clear increasing) (increasing_clear increasing') ?_ rising ?_ ?_)
      · rw [kept_clear, kept_clear, kept]
      · rwa [kept_clear]
      · rwa [kept_clear]
    | get bucket now =>
      have timesAll : timesOf (⟨.get bucket now, spare⟩ :: rest) = now :: timesOf rest := rfl
      rw [timesAll] at rising alike
      obtain ⟨later, risingRest⟩ := List.pairwise_cons.mp rising
      obtain ⟨next, found, ordered, keptNext, left⟩ := get_unexpired increasing (fits _ List.mem_cons_self)
      have fitsNext : ∀ t ∈ rest, t.call.CutoffFits next.kept := by rwa [keptNext]
      cases spare with
      | true =>
        have dropped : ShowsAlike next.kept (timesOf rest) next.contents g.contents := by
          rw [left, keptNext]
          exact ShowsAlike.dropped (fun time asked => alike time (List.mem_cons_of_mem _ asked)) later
        exact .spare rfl found (ih ordered increasing' (kept.trans keptNext.symm) risingRest fitsNext dropped)
      | false =>
        have shown : h.contents.unexpired h.kept now = g.contents.unexpired g.kept now := by
          rw [kept]
          exact alike now List.mem_cons_self
        have fits' : (Call.get bucket now).CutoffFits g.kept := kept ▸ fits _ List.mem_cons_self
        obtain ⟨next', found', ordered', keptNext', left'⟩ := get_unexpired increasing' fits'
        have same : next.contents = next'.contents := by rw [left, left', shown]
        rw [← shown] at found'
        refine .looked rfl rfl found found' (ih ordered ordered' ?_ risingRest fitsNext ?_)
        · rw [keptNext', keptNext, kept]
        · intro time _
          rw [same]

/-- Over any history and any run of calls in which the times of the lookups never decrease, leaving
    spare lookups out changes no answer to the others. -/
theorem answers_without_spare {h : History} (increasing : Increasing h.buckets) {turns : List Turn}
    (rising : (timesOf turns).Pairwise (· ≤ ·)) (fits : ∀ t ∈ turns, t.call.CutoffFits h.kept) :
    ∃ all left, answers h (stepsOf turns) = .ok all ∧ answers h (stepsOf (turns.filter Turn.stays)) = .ok left ∧
      lookedUp turns all = lookedUp (turns.filter Turn.stays) left :=
  answersAlike_of_showsAlike increasing increasing rfl rising fits fun _ _ => rfl

/-- A run in which the spare lookup drops the older item, so that the next one replaces it in the
    bucket only if nobody looks. -/
theorem answers_without_spare_replaced :
    let item (id : Char) (time : Int) : Item := { id := [id], query := [], body := [], time, status := none }
    let h : History := { storage := .broken, buckets := [(['k'], [item 'a' 5])], kept := some 1000 }
    let turns : List Turn := [⟨.get ['k'] 2000, true⟩, ⟨.add ['k'] (item 'b' 2500) 1, false⟩, ⟨.get ['k'] 2600, false⟩]
    Increasing h.buckets ∧ (timesOf turns).Pairwise (· ≤ ·) ∧ (∀ t ∈ turns, t.call.CutoffFits h.kept) ∧
      ∃ all left, answers h (stepsOf turns) = .ok all ∧ answers h (stepsOf (turns.filter Turn.stays)) = .ok left ∧
        lookedUp turns all = lookedUp (turns.filter Turn.stays) left := by
  intro item h turns
  have increasing : Increasing h.buckets := List.pairwise_singleton _ _
  have rising : (timesOf turns).Pairwise (· ≤ ·) := by decide
  have fits : ∀ t ∈ turns, t.call.CutoffFits h.kept := by
    intro t member
    simp only [turns, List.mem_cons, List.not_mem_nil, or_false] at member
    rcases member with rfl | rfl | rfl
    · intro time kept
      cases kept
      decide
    · trivial
    · intro time kept
      cases kept
      decide
  exact ⟨increasing, rising, fits, answers_without_spare increasing rising fits⟩

end EndpointConsole.History
