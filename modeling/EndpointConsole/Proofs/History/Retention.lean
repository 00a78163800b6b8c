import EndpointConsole.Proofs.History.Pruning
import EndpointConsole.Settings

/-!
How long the settings keep items. A lookup drops none before its time just if that
time fits a signed word when counted in milliseconds (`retains_iff`); then it drops
exactly the items that are due, and longer times keep more. Beyond that the time
wraps, and a history that is to be kept longest is forgotten first.
-/
namespace EndpointConsole

/-- How long items are to be kept, in milliseconds and counted in full: the days if there are any,
    or else the seconds. Zero is for ever. -/
def Settings.historyMs (s : Settings) : Nat :=
  match s.historyDays with
  | some days => days * secondsPerDay * 1000
  | none => s.historySeconds.getD 0 * 1000

namespace History

/-- Whether an item is older than the settings keep items for. -/
def isDue (s : Settings) (now : Int) (i : Item) : Bool := s.historyMs != 0 && decide (s.historyMs < now - i.time)

/-- The history of a session with these settings, at a point where it holds some buckets. -/
def ofSettings (s : Settings) (storage : Storage) (buckets : Buckets) : History :=
  { ofStorage storage s.historySeconds? with buckets }

/-- Under the settings, a lookup always gives an answer and drops no item before its time. -/
def Retains (s : Settings) : Prop :=
  ∀ (storage : Storage) (buckets : Buckets), buckets.Storable → ∀ (bucket : Text) (now : Int), 0 ≤ now → now ≤ maxSigned →
    ∃ answer next, (ofSettings s storage buckets).get bucket now = .ok (answer, next) ∧
      ∀ name, (next.contents name).filter (fun i => !isDue s now i) =
        (buckets.contents name).filter fun i => !isDue s now i

variable {s : Settings}

theorem kept_ofSettings (fits : (s.historyMs : Int) ≤ maxSigned) (storage : Storage) (buckets : Buckets) :
    (ofSettings s storage buckets).kept = if s.historyMs = 0 then none else some s.historyMs := by
  have kept : (ofSettings s storage buckets).kept = s.historySeconds?.map (· * 1000) := rfl
  rw [kept, Settings.historySeconds?]
  rw [Settings.historyMs] at fits ⊢
  cases given : s.historyDays with
  | some days =>
    -- a number of days that fits is far below the greatest word
    have whole : saturatedWord (days * Settings.secondsPerDay) = days * Settings.secondsPerDay := by
      simp only [given, maxSigned] at fits
      rw [saturatedWord, maxWord]
      omega
    simp only [whole]
    split <;> split <;> first | rfl | omega
  | none =>
    dsimp only
    split <;> split <;> first | rfl | omega

/-- As long as the time fits, what is not too old is what is not due. -/
theorem unexpired_ofSettings (fits : (s.historyMs : Int) ≤ maxSigned) (storage : Storage) (buckets : Buckets)
    (now : Int) (items : List Item) :
    unexpired (ofSettings s storage buckets).kept now items = items.filter fun i => !isDue s now i := by
  rw [kept_ofSettings fits]
  by_cases forever : s.historyMs = 0
  · simp [forever, unexpired, isDue]
  · rw [if_neg forever, unexpired, wrappedSigned_natCast fits]
    apply List.filter_congr
    intro i _
    have some_time : (s.historyMs != 0) = true := bne_iff_ne.mpr forever
    rw [isDue, some_time, Bool.true_and, ← decide_not]
    exact decide_eq_decide.mpr (by omega)

theorem cutoffFits_ofSettings (fits : (s.historyMs : Int) ≤ maxSigned) (storage : Storage) (buckets : Buckets)
    (bucket : Text) {now : Int} (positive : 0 ≤ now) (word : now ≤ maxSigned) :
    (Call.get bucket now).CutoffFits (ofSettings s storage buckets).kept := by
  intro time kept
  rw [kept_ofSettings fits] at kept
  split at kept
  · cases kept
  · cases kept
    rw [wrappedSigned_natCast fits]
    simp only [minSigned, maxSigned] at *
    omega

/-- As long as the time fits, a lookup drops exactly what is due. -/
theorem get_ofSettings (fits : (s.historyMs : Int) ≤ maxSigned) (storage : Storage) {buckets : Buckets}
    (storable : buckets.Storable) (bucket : Text) {now : Int} (positive : 0 ≤ now) (word : now ≤ maxSigned) :
    ∃ answer next, (ofSettings s storage buckets).get bucket now = .ok (answer, next) ∧
      ∀ name, next.contents name = (buckets.contents name).filter fun i => !isDue s now i := by
  obtain ⟨next, found, _, _, left⟩ := get_unexpired (h := ofSettings s storage buckets) storable.increasing
    (cutoffFits_ofSettings fits storage buckets bucket positive word)
  refine ⟨_, next, found, ?_⟩
  intro name
  rw [left, Contents.unexpired, unexpired_ofSettings fits]
  rfl

/-- A lookup that answers has dropped what is older than the time says as a signed word. -/
theorem contents_of_get {h next : History} {time : Nat} {bucket : Text} {now : Int} {answer : List Item}
    (increasing : Sorted.Increasing h.buckets) (kept : h.kept = some time)
    (found : h.get bucket now = .ok (answer, next)) (name : Text) :
    next.contents name = (h.contents name).filter fun i => now - wrappedSigned time ≤ i.time := by
  have fits : (Call.get bucket now).CutoffFits h.kept := by
    intro other given
    cases kept.symm.trans given
    by_contra overflows
    simp only [get, pruned, kept, checkedSigned, if_neg overflows] at found
    cases found
  obtain ⟨next', found', _, _, left⟩ := get_unexpired increasing fits
  rw [found, Except.ok.injEq, Prod.mk.injEq] at found'
  obtain ⟨_, rfl⟩ := found'
  rw [left, kept]
  rfl

theorem wrappedSigned_bounds (n : Int) : minSigned ≤ wrappedSigned n ∧ wrappedSigned n ≤ maxSigned := by
  have low := @Int.le_bmod n (maxWord + 1) (Nat.succ_pos _)
  have high := @Int.bmod_lt n (maxWord + 1) (Nat.succ_pos _)
  simp only [maxWord] at low high
  simp only [wrappedSigned, maxWord, minSigned, maxSigned]
  omega

/-- A time that does not fit is a time all the same. -/
theorem kept_of_long (long : maxSigned < (s.historyMs : Int)) :
    ∃ time, ∀ (storage : Storage) (buckets : Buckets), (ofSettings s storage buckets).kept = some time := by
  have seconds : ∃ seconds, s.historySeconds? = some seconds := by
    rw [Settings.historySeconds?]
    rw [Settings.historyMs] at long
    cases given : s.historyDays with
    | some days =>
      simp only [given, maxSigned] at long
      have positive : 0 < saturatedWord (days * Settings.secondsPerDay) := by
        rw [saturatedWord, maxWord]
        omega
      exact ⟨_, if_pos positive⟩
    | none =>
      simp only [given, maxSigned] at long
      have positive : 0 < s.historySeconds.getD 0 := by omega
      exact ⟨_, if_pos positive⟩
  obtain ⟨seconds, given⟩ := seconds
  refine ⟨seconds * 1000, ?_⟩
  intro storage buckets
  exact congrArg (Option.map (· * 1000)) given

/-- A time that does not fit drops an item that is not due. -/
theorem not_retains_of_long (long : maxSigned < (s.historyMs : Int)) : ¬Retains s := by
  intro retains
  obtain ⟨time, kept⟩ := kept_of_long long
  obtain ⟨low, high⟩ := wrappedSigned_bounds time
  -- the item is a millisecond older than the wrapped time, which is less than the time asked for
  obtain ⟨item, age⟩ : ∃ item : Item, item.time = -wrappedSigned time - 1 ∧ item.status = none :=
    ⟨{ id := [], query := [], body := [], time := -wrappedSigned time - 1, status := none }, rfl, rfl⟩
  have storable : Buckets.Storable [([], [item])] := by
    refine ⟨List.pairwise_singleton _ _, ?_⟩
    intro p member i inside
    cases List.mem_singleton.mp member
    cases List.mem_singleton.mp inside
    simp only [minSigned, maxSigned] at low high
    exact ⟨by simp only [minSigned]; omega, by simp only [maxSigned]; omega, by simp [age.2]⟩
  obtain ⟨answer, next, found, spared⟩ := retains .broken _ storable [] 0 (by decide) (by decide)
  have dropped : next.contents [] = [] := by
    rw [contents_of_get storable.increasing (kept _ _) found]
    exact List.filter_cons_of_neg (by simp only [decide_eq_true_eq]; omega)
  have early : isDue s 0 item = false := by
    rw [isDue, decide_eq_false (by omega), Bool.and_false]
  have alone : [].filter (fun i => !isDue s 0 i) = [item].filter fun i => !isDue s 0 i := dropped ▸ spared []
  simp [early] at alone

/-- Whether other settings keep items at least as long. -/
def Outlasts (longer s : Settings) : Prop := longer.historyMs = 0 ∨ s.historyMs ≠ 0 ∧ s.historyMs ≤ longer.historyMs

theorem isDue_of_outlasts {longer : Settings} (outlasts : Outlasts longer s) {now : Int} {i : Item}
    (due : isDue longer now i = true) : isDue s now i = true := by
  simp only [isDue, Bool.and_eq_true, bne_iff_ne, decide_eq_true_eq] at due ⊢
  rcases outlasts with forever | ⟨some_time, less⟩
  · exact absurd forever due.1
  · exact ⟨some_time, by omega⟩

/-- No lookup drops an item before its time just if this time, in milliseconds, fits a signed word.
    Of two settings for which it does, those that ask for a longer time keep all that the others keep. -/
theorem retains_iff (s : Settings) :
    (Retains s ↔ (s.historyMs : Int) ≤ maxSigned) ∧
      ∀ longer : Settings, Retains s → Retains longer → Outlasts longer s →
        ∀ (storage : Storage) (buckets : Buckets), buckets.Storable →
          ∀ (bucket : Text) (now : Int), 0 ≤ now → now ≤ maxSigned →
            ∃ r r', (ofSettings s storage buckets).get bucket now = .ok r ∧
              (ofSettings longer storage buckets).get bucket now = .ok r' ∧
                ∀ name, (r.2.contents name).Sublist (r'.2.contents name) := by
  have fits {s : Settings} : Retains s ↔ (s.historyMs : Int) ≤ maxSigned := by
    constructor
    · intro retains
      by_contra long
      exact not_retains_of_long (Int.not_le.mp long) retains
    · intro fits storage buckets storable bucket now positive word
      obtain ⟨answer, next, found, left⟩ := get_ofSettings fits storage storable bucket positive word
      refine ⟨answer, next, found, ?_⟩
      intro name
      rw [left, List.filter_filter]
      simp only [Bool.and_self]
  refine ⟨fits, ?_⟩
  intro longer retains retains' outlasts storage buckets storable bucket now positive word
  obtain ⟨answer, next, found, left⟩ := get_ofSettings (fits.mp retains) storage storable bucket positive word
  obtain ⟨answer', next', found', left'⟩ := get_ofSettings (fits.mp retains') storage storable bucket positive word
  refine ⟨_, _, found, found', ?_⟩
  intro name
  rw [left, left']
  apply List.monotone_filter_right
  intro i early
  rw [Bool.not_eq_true'] at early ⊢
  by_contra due
  rw [isDue_of_outlasts outlasts (Bool.not_eq_false _ ▸ due)] at early
  cases early

/-- Half a second after an item was put in, it is gone from a history that is to be kept for the
    greatest number of seconds, while one second would have kept it. At the first time in seconds that
    does not fit, the lookup ends the program. -/
theorem not_retained_by_longest :
    let item : Item := { id := ['a'], query := [], body := [], time := 1000, status := some 200 }
    let settings (seconds : Nat) : Settings := { historySeconds := some seconds }
    let answer (seconds : Nat) : Checked (List Item) :=
      ((ofSettings (settings seconds) (.memory []) [(['k'], [item])]).get ['k'] 1500).map Prod.fst
    isDue (settings maxWord) 1500 item = false ∧ answer maxWord = .ok [] ∧ answer 1 = .ok [item] ∧
      answer 9223372036854776 = .error .overflow := by
  decide +kernel

end History

end EndpointConsole
