import EndpointConsole.Proofs.Json.Within

/-!
Integers of JSON text. Digits are gathered into a machine word, so that whatever integer a text
gives fits one, signed if it is negative (`ofWords_of_parse?`): the numbers within a value are
numbers of its tokens.
-/
namespace EndpointConsole

/-- An integer fits a machine word, signed if negative. -/
def Number.Fits : Number → Prop
  | int n => minSigned ≤ n ∧ n ≤ maxWord
  | real _ => True

namespace Json

/-- All integers within a value fit machine words. -/
def OfWords (v : Json) : Prop := ∀ n, Within (.number n) v → n.Fits

theorem OfWords.lookup? {members : List (Text × Json)} {name : Text} {v : Json} (words : OfWords (.object members))
    (found : lookup? name members = some v) : OfWords v := by
  intro n inside
  apply words
  exact .member (lookup?_mem found) inside

theorem OfWords.member? {document v : Json} {name : Text} (words : OfWords document)
    (found : document.member? name = some v) : OfWords v := by
  cases document with
  | object members => exact words.lookup? found
  | _ => cases found

/-! ### Tokens -/

theorem Gathered.whole_word {g : Gathered} (word : g.significand ≤ maxWord) (digit : Nat) :
    (g.whole digit).significand ≤ maxWord := by
  unfold Gathered.whole
  split
  · exact word
  · next fits =>
    simp only [overflows, Bool.or_eq_true, decide_eq_true_eq, not_or] at fits
    exact Nat.le_of_not_lt fits.2

theorem Gathered.foldl_whole_word {g : Gathered} (word : g.significand ≤ maxWord) (digits : Text) :
    (digits.foldl (fun g c => g.whole (digitValue c)) g).significand ≤ maxWord := by
  induction digits generalizing g with
  | nil => exact word
  | cons c digits ih => exact ih (whole_word word _)

theorem NumberText.fits_of_value? {t : NumberText} {n : Number} (value : t.value? = some n) : n.Fits := by
  have word : (t.whole.foldl (fun g c => g.whole (digitValue c)) (⟨0, 0, false⟩ : Gathered)).significand ≤ maxWord :=
    Gathered.foldl_whole_word (Nat.zero_le _) _
  have real {x : Option Binary64} (value : x.map .real = some n) : n.Fits := by
    obtain ⟨x, -, rfl⟩ := Option.map_eq_some_iff.mp value
    trivial
  rw [NumberText.value?] at value
  generalize t.whole.foldl (fun g c => g.whole (digitValue c)) (⟨0, 0, false⟩ : Gathered) = g at word value
  dsimp only at value
  split at value
  · split at value
    · exact real value
    split at value
    · cases value
      simp only [Number.Fits, minSigned]
      omega
    split at value
    · next negative =>
      cases value
      refine ⟨negative.2, ?_⟩
      omega
    · exact real value
  · exact real value

theorem fits_of_readUnsigned {negative : Bool} {s rest : Text} {n : Number}
    (read : readUnsigned negative s = some (some n, rest)) : n.Fits := by
  simp only [readUnsigned, Option.bind_eq_bind, Option.bind_eq_some_iff] at read
  obtain ⟨⟨_, _⟩, -, ⟨_, _⟩, -, ⟨_, _⟩, -, read⟩ := read
  split at read
  · cases read
  · simp only [Option.pure_def, Option.some.injEq, Prod.mk.injEq] at read
    exact NumberText.fits_of_value? read.1

/-- The number of a token, if it is one. -/
def Token.number? : Token → Option Number
  | .number n => n
  | _ => none

theorem fits_of_readWord {s rest : Text} {t : Token} {n : Number} {words : List (Text × Token)}
    (other : ∀ w ∈ words, w.2.number? = none) (read : readWord s words = some (t, rest)) : t.number? ≠ some n := by
  induction words with
  | nil => cases read
  | cons word words ih =>
    rw [List.forall_mem_cons] at other
    rw [readWord] at read
    split at read
    · cases read
      simp [other.1]
    · exact ih other.2 read

theorem fits_of_readToken {s rest : Text} {t : Token} {n : Number} (read : readToken s = some (t, rest))
    (number : t.number? = some n) : n.Fits := by
  have unsigned {negative : Bool} {s : Text}
      (read : (readUnsigned negative s).map (fun read => (Token.number read.1, read.2)) = some (t, rest)) : n.Fits := by
    obtain ⟨⟨m, after⟩, found, same⟩ := Option.map_eq_some_iff.mp read
    cases same
    obtain rfl : m = some n := number
    exact fits_of_readUnsigned found
  cases s with
  | nil => cases read
  | cons c s =>
    rw [readToken] at read
    split at read
    · next mark =>
      cases read
      unfold punctuation? at mark
      split_ifs at mark <;> cases mark <;> cases number
    split_ifs at read with quote minus digit
    · obtain ⟨⟨content, after⟩, -, same⟩ := Option.map_eq_some_iff.mp read
      cases same
      cases number
    · exact unsigned read
    · exact unsigned read
    · exact absurd number (fits_of_readWord (by decide) read)

/-- A text gives no integers but those that fit words. -/
theorem fits_of_tokens? {s : Text} {tokens : List Token} {t : Token} {n : Number} (read : tokens? s = some tokens)
    (among : t ∈ tokens) (number : t.number? = some n) : n.Fits := by
  fun_induction tokens? s generalizing tokens with
  | case1 =>
    cases read
    cases among
  | case2 c rest space ih => exact ih read among
  | case3 => cases read
  | case4 c rest solid first after found shorter ih =>
    obtain ⟨later, tail, rfl⟩ := Option.map_eq_some_iff.mp read
    rcases List.mem_cons.mp among with rfl | among
    · exact fits_of_readToken found number
    · exact ih tail among

/-! ### Trees -/

namespace Written

mutual

/-- The numbers of a tree. -/
def numbers : Written → List Number
  | .null | .bool _ | .string _ => []
  | .number n => n.toList
  | .array items => itemNumbers items
  | .object members => memberNumbers members

def itemNumbers : List Written → List Number
  | [] => []
  | w :: rest => numbers w ++ itemNumbers rest

def memberNumbers : List (Option Text × Written) → List Number
  | [] => []
  | (_, w) :: rest => numbers w ++ memberNumbers rest

end

/-- The numbers of an open container. -/
def Frame.numbers : Frame → List Number
  | .array items => itemNumbers items
  | .object members _ => memberNumbers members

/-- The numbers that have been read. -/
def State.numbers : State → List Number
  | .value outer | .firstItem outer | .firstKey outer => outer.flatMap Frame.numbers
  | .nextKey members outer | .colon members _ outer | .afterMember members outer =>
    memberNumbers members ++ outer.flatMap Frame.numbers
  | .afterItem items outer => itemNumbers items ++ outer.flatMap Frame.numbers
  | .done w => w.numbers

theorem mem_itemNumbers {n : Number} {items : List Written} :
    n ∈ itemNumbers items ↔ ∃ w ∈ items, n ∈ numbers w := by
  induction items with
  | nil => simp [itemNumbers]
  | cons w items ih => simp [itemNumbers, ih]

theorem mem_memberNumbers {n : Number} {members : List (Option Text × Written)} :
    n ∈ memberNumbers members ↔ ∃ m ∈ members, n ∈ numbers m.2 := by
  induction members with
  | nil => simp [memberNumbers]
  | cons m members ih => simp [memberNumbers, ih]

@[simp]
theorem mem_itemNumbers_reverse {n : Number} {items : List Written} :
    n ∈ itemNumbers items.reverse ↔ n ∈ itemNumbers items := by
  simp [mem_itemNumbers]

@[simp]
theorem mem_memberNumbers_reverse {n : Number} {members : List (Option Text × Written)} :
    n ∈ memberNumbers members.reverse ↔ n ∈ memberNumbers members := by
  simp [mem_memberNumbers]

theorem mem_numbers_deliver {n : Number} {w : Written} {frames : List Frame}
    (among : n ∈ (deliver w frames).numbers) : n ∈ numbers w ∨ n ∈ frames.flatMap Frame.numbers := by
  unfold deliver at among
  split at among
  · exact .inl among
  · simpa [State.numbers, Frame.numbers, itemNumbers, or_assoc] using among
  · simpa [State.numbers, Frame.numbers, memberNumbers, or_assoc] using among

theorem mem_numbers_beginValue {n : Number} {t : Token} {frames : List Frame} {next : State}
    (begun : beginValue frames t = some next) (among : n ∈ next.numbers) :
    t.number? = some n ∨ n ∈ frames.flatMap Frame.numbers := by
  unfold beginValue at begun
  split at begun
  case h_5 | h_6 =>
    cases begun
    exact .inr among
  case h_7 => cases begun
  all_goals
    cases begun
    simpa [numbers, Token.number?] using mem_numbers_deliver among

/-- One token adds its number to those that have been read. -/
theorem mem_numbers_step {n : Number} {t : Token} {state next : State} (stepped : step state t = some next)
    (among : n ∈ next.numbers) : t.number? = some n ∨ n ∈ state.numbers := by
  unfold step at stepped
  split at stepped
  case h_1 => exact mem_numbers_beginValue stepped among
  case h_3 => simpa [State.numbers, Frame.numbers, itemNumbers] using mem_numbers_beginValue stepped among
  all_goals cases stepped
  case h_2 | h_4 | h_9 | h_11 =>
    -- a container that is closed takes the numbers of its parts with it
    right
    simpa [State.numbers, numbers, itemNumbers, memberNumbers] using mem_numbers_deliver among
  all_goals
    right
    simpa [State.numbers, Frame.numbers, itemNumbers, memberNumbers] using among

theorem mem_numbers_run {n : Number} {tokens : List Token} {state last : State} (ran : run state tokens = some last)
    (among : n ∈ last.numbers) : n ∈ state.numbers ∨ ∃ t ∈ tokens, t.number? = some n := by
  induction tokens generalizing state with
  | nil =>
    cases ran
    exact .inl among
  | cons t tokens ih =>
    rw [run] at ran
    split at ran
    · cases ran
    · next next stepped =>
      rcases ih ran with held | ⟨u, later, number⟩
      · rcases mem_numbers_step stepped held with number | held
        · exact .inr ⟨t, List.mem_cons_self, number⟩
        · exact .inl held
      · exact .inr ⟨u, List.mem_cons_of_mem t later, number⟩

theorem mem_numbers_ofTokens? {n : Number} {tokens : List Token} {w : Written} (built : ofTokens? tokens = some w)
    (among : n ∈ numbers w) : ∃ t ∈ tokens, t.number? = some n := by
  unfold ofTokens? at built
  split at built
  · next ran =>
    cases built
    refine (mem_numbers_run ran among).resolve_left ?_
    simp [State.numbers]
  · cases built

mutual

theorem mem_numbers_of_value? {depth : Nat} {w : Written} {v : Json} {n : Number} (read : value? depth w = some v)
    (inside : Within (.number n) v) : n ∈ numbers w := by
  cases w with
  | null =>
    cases read
    cases inside
  | bool b =>
    cases read
    cases inside
  | number m =>
    obtain ⟨m, rfl, rfl⟩ := Option.map_eq_some_iff.mp read
    cases inside
    simp [numbers]
  | string s =>
    obtain ⟨s, rfl, rfl⟩ := Option.map_eq_some_iff.mp read
    cases inside
  | array items =>
    cases depth with
    | zero => cases read
    | succ depth =>
      obtain ⟨found, each, rfl⟩ := Option.map_eq_some_iff.mp read
      cases inside with
      | item among inside => exact mem_numbers_of_values? each among inside
  | object members =>
    cases depth with
    | zero => cases read
    | succ depth =>
      obtain ⟨found, each, rfl⟩ := Option.map_eq_some_iff.mp read
      cases inside with
      | member among inside => exact mem_numbers_of_memberValues? each (mem_ofMembers among) inside

theorem mem_numbers_of_values? {depth : Nat} {items : List Written} {found : List Json} {v : Json} {n : Number}
    (each : values? depth items = some found) (among : v ∈ found) (inside : Within (.number n) v) :
    n ∈ itemNumbers items := by
  cases items with
  | nil =>
    cases each
    cases among
  | cons w rest =>
    simp only [values?, Option.bind_eq_bind, Option.bind_eq_some_iff, Option.pure_def, Option.some.injEq] at each
    obtain ⟨first, head, more, tail, rfl⟩ := each
    rw [itemNumbers, List.mem_append]
    rcases List.mem_cons.mp among with rfl | later
    · exact .inl (mem_numbers_of_value? head inside)
    · exact .inr (mem_numbers_of_values? tail later inside)

theorem mem_numbers_of_memberValues? {depth : Nat} {members : List (Option Text × Written)}
    {found : List (Text × Json)} {m : Text × Json} {n : Number} (each : memberValues? depth members = some found)
    (among : m ∈ found) (inside : Within (.number n) m.2) : n ∈ memberNumbers members := by
  cases members with
  | nil =>
    cases each
    cases among
  | cons first rest =>
    obtain ⟨key, w⟩ := first
    simp only [memberValues?, Option.bind_eq_bind, Option.bind_eq_some_iff, Option.pure_def,
      Option.some.injEq] at each
    obtain ⟨name, -, v, head, more, tail, rfl⟩ := each
    rw [memberNumbers, List.mem_append]
    rcases List.mem_cons.mp among with rfl | later
    · exact .inl (mem_numbers_of_value? head inside)
    · exact .inr (mem_numbers_of_memberValues? tail later inside)

end

end Written

/-- All integers of a value that was read fit words. -/
theorem ofWords_of_parse? {s : Text} {v : Json} (parsed : parse? s = some v) : OfWords v := by
  intro n inside
  obtain ⟨w, written, read⟩ := Option.bind_eq_some_iff.mp parsed
  obtain ⟨tokens, split, built⟩ := Option.bind_eq_some_iff.mp written
  obtain ⟨t, among, number⟩ := Written.mem_numbers_ofTokens? built (Written.mem_numbers_of_value? read inside)
  exact fits_of_tokens? split among number

end Json

end EndpointConsole
