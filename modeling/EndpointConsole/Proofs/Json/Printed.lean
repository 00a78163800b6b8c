import EndpointConsole.Json.Written
import EndpointConsole.Proofs.Json.Members
import EndpointConsole.Proofs.Json.Numeral

/-!
The text of a value reads back as that value (`parse?_compact`). The text falls
into the tokens of the value (`tokens?_compact`), the tokens build the tree of
what was written (`run_tokensOf`), and the tree stands for the value
(`value?_written`). What a value needs for that is `Faithful`.
-/
namespace EndpointConsole.Json

mutual

/-- Whether a value is one that text can give: its numbers read back, no object has two members of
    one name, and it nests at most so many containers. -/
def Faithful : Nat → Json → Prop
  | _, .null => True
  | _, .bool _ => True
  | _, .number n => ReadsBack n
  | _, .string _ => True
  | 0, .array _ => False
  | depth + 1, .array items => FaithfulItems depth items
  | 0, .object _ => False
  | depth + 1, .object members => (members.map Prod.fst).Nodup ∧ FaithfulMembers depth members

def FaithfulItems : Nat → List Json → Prop
  | _, [] => True
  | depth, v :: rest => Faithful depth v ∧ FaithfulItems depth rest

def FaithfulMembers : Nat → List (Text × Json) → Prop
  | _, [] => True
  | depth, (_, v) :: rest => Faithful depth v ∧ FaithfulMembers depth rest

end

theorem faithfulItems_of_forall {depth : Nat} {items : List Json} (each : ∀ v ∈ items, Faithful depth v) :
    FaithfulItems depth items := by
  induction items with
  | nil => exact trivial
  | cons v rest ih =>
    exact ⟨each v List.mem_cons_self, ih fun w member => each w (List.mem_cons_of_mem v member)⟩

theorem faithfulMembers_of_forall {depth : Nat} {members : List (Text × Json)}
    (each : ∀ m ∈ members, Faithful depth m.2) : FaithfulMembers depth members := by
  induction members with
  | nil => exact trivial
  | cons m rest ih =>
    exact ⟨each m List.mem_cons_self, ih fun w member => each w (List.mem_cons_of_mem m member)⟩

mutual

/-- The tokens that the text of a value is made of. -/
def tokensOf : Json → List Token
  | .null => [.null]
  | .bool b => [.bool b]
  | .number n => [.number (some n)]
  | .string s => [.string (some s)]
  | .array items => .openArray :: itemTokens items
  | .object members => .openObject :: memberTokens members

def itemTokens : List Json → List Token
  | [] => [.closeArray]
  | v :: rest => tokensOf v ++ moreItemTokens rest

def moreItemTokens : List Json → List Token
  | [] => [.closeArray]
  | v :: rest => .comma :: (tokensOf v ++ moreItemTokens rest)

def memberTokens : List (Text × Json) → List Token
  | [] => [.closeObject]
  | (key, v) :: rest => .string (some key) :: .colon :: (tokensOf v ++ moreMemberTokens rest)

def moreMemberTokens : List (Text × Json) → List Token
  | [] => [.closeObject]
  | (key, v) :: rest => .comma :: .string (some key) :: .colon :: (tokensOf v ++ moreMemberTokens rest)

end

theorem fourDigits?_control {n : Nat} (control : n < 0x20) :
    fourDigits? '0' '0' (Hex.lowerDigit (n / 16)) (Hex.lowerDigit (n % 16)) = some n := by
  revert n
  decide

theorem readPiece_plain {c : Char} (quote : c ≠ '"') (backslash : c ≠ '\\') (printable : ¬c.toNat < 0x20) (rest : Text) :
    readPiece (c :: rest) = some (.char (some c), rest) := by
  unfold readPiece
  split
  · next empty => cases empty
  · next same => exact absurd (List.cons.inj same).1 quote
  · next same => exact absurd (List.cons.inj same).1 backslash
  · next same => exact absurd (List.cons.inj same).1 backslash
  · next d more _ _ _ same =>
    obtain ⟨rfl, rfl⟩ := List.cons.inj same
    simp [printable, backslash]

/-- An escaped character reads as that character. -/
theorem readPiece_escapeChar (c : Char) (rest : Text) :
    readPiece (escapeChar c ++ rest) = some (.char (some c), rest) := by
  have restored {n : Nat} (code : c.toNat = n) : Char.ofNat n = c := by rw [← code, Char.ofNat_toNat]
  unfold escapeChar
  by_cases quote : c = '"'
  · rw [if_pos quote, quote]
    rfl
  by_cases backslash : c = '\\'
  · rw [if_neg quote, if_pos backslash, backslash]
    rfl
  by_cases newline : c = '\n'
  · rw [if_neg quote, if_neg backslash, if_pos newline, newline]
    rfl
  by_cases carriage : c = '\r'
  · rw [if_neg quote, if_neg backslash, if_neg newline, if_pos carriage, carriage]
    rfl
  by_cases tab : c = '\t'
  · rw [if_neg quote, if_neg backslash, if_neg newline, if_neg carriage, if_pos tab, tab]
    rfl
  rw [if_neg quote, if_neg backslash, if_neg newline, if_neg carriage, if_neg tab]
  by_cases backspace : c.toNat = 8
  · rw [if_pos backspace, ← restored backspace]
    rfl
  by_cases feed : c.toNat = 12
  · rw [if_neg backspace, if_pos feed, ← restored feed]
    rfl
  rw [if_neg backspace, if_neg feed]
  by_cases control : c.toNat < 0x20
  · have high : isHighSurrogate c.toNat = false := by simp [isHighSurrogate]; omega
    have low : isLowSurrogate c.toNat = false := by simp [isLowSurrogate]; omega
    rw [if_pos control]
    simp [readPiece, takeUnit?, fourDigits?_control control, high, low, Char.ofNat_toNat]
  · rw [if_neg control]
    exact readPiece_plain quote backslash control rest

theorem readString_char {s rest : Text} {c : Option Char} (piece : readPiece s = some (.char c, rest)) :
    readString s = (readString rest).map fun (content, after) => (content.bind fun t => c.map (· :: t), after) := by
  conv => lhs; unfold readString
  split
  · next failed => rw [piece] at failed; cases failed
  · next closed => rw [piece] at closed; cases closed
  · next found =>
    rw [piece] at found
    cases found
    rfl

theorem readString_escaped (s rest : Text) :
    readString (s.flatMap escapeChar ++ '"' :: rest) = some (some s, rest) := by
  induction s with
  | nil =>
    unfold readString
    rfl
  | cons c more ih =>
    rw [List.flatMap_cons, List.append_assoc, readString_char (readPiece_escapeChar c _), ih]
    rfl

theorem readToken_quote (s rest : Text) : readToken (quote s ++ rest) = some (.string (some s), rest) := by
  have text : quote s ++ rest = '"' :: (s.flatMap escapeChar ++ '"' :: rest) := by simp [quote]
  rw [text, readToken]
  simp [punctuation?, readString_escaped]

theorem readToken_of_space {c : Char} (space : isSpace c = true) (rest : Text) : readToken (c :: rest) = none := by
  simp only [isSpace, Bool.or_eq_true, beq_iff_eq] at space
  rcases space with ((rfl | rfl) | rfl) | rfl <;> rfl

theorem tokens?_nil : tokens? [] = some [] := by rw [tokens?]

/-- There is no answer if neither white space nor a token stands at the beginning. -/
theorem tokens?_of_no_token {c : Char} {rest : Text} (solid : isSpace c = false)
    (failed : readToken (c :: rest) = none) : tokens? (c :: rest) = none := by
  rw [tokens?, if_neg (by simp [solid])]
  split
  · rfl
  · next read =>
    rw [failed] at read
    cases read

/-- The first token of a text is the one that can be read at its beginning. -/
theorem tokens?_of_readToken {s rest : Text} {t : Token} (read : readToken s = some (t, rest)) :
    tokens? s = (tokens? rest).map (t :: ·) := by
  cases s with
  | nil => cases read
  | cons c more =>
    have solid : ¬isSpace c = true := by
      intro space
      rw [readToken_of_space space] at read
      cases read
    rw [tokens?, if_neg solid]
    split
    · next failed => rw [read] at failed; cases failed
    · next found =>
      rw [read] at found
      cases found
      rfl

theorem tokens?_mark {c : Char} {t : Token} (mark : punctuation? c = some t) (rest : Text) :
    tokens? (c :: rest) = (tokens? rest).map (t :: ·) := by
  apply tokens?_of_readToken
  rw [readToken, mark]

theorem tokens?_quote (s rest : Text) : tokens? (quote s ++ rest) = (tokens? rest).map (.string (some s) :: ·) :=
  tokens?_of_readToken (readToken_quote s rest)

/-- The end of a container, after which nothing can be read as part of it. -/
theorem ends_moreItems (items : List Json) (rest : Text) : Ends (compactMoreItems items ++ rest) := by
  cases items with
  | nil => exact .inr (.inl rfl)
  | cons v more => exact .inl rfl

theorem ends_moreMembers (members : List (Text × Json)) (rest : Text) : Ends (compactMoreMembers members ++ rest) := by
  cases members with
  | nil => exact .inr (.inr (.inl rfl))
  | cons m more => exact .inl rfl

mutual

/-- The text of a value is cut into the tokens of that value. -/
theorem tokens?_compact {depth : Nat} {v : Json} (faithful : Faithful depth v) {rest : Text} (ends : Ends rest) :
    tokens? (compact v ++ rest) = (tokens? rest).map (tokensOf v ++ ·) := by
  cases v with
  | null => exact tokens?_of_readToken rfl
  | bool b => cases b <;> exact tokens?_of_readToken rfl
  | number n =>
    rw [Faithful] at faithful
    exact tokens?_of_readToken (faithful rest ends)
  | string s => exact tokens?_quote s rest
  | array items =>
    cases depth with
    | zero => rw [Faithful] at faithful; exact faithful.elim
    | succ depth =>
      rw [Faithful] at faithful
      rw [compact, List.cons_append, tokens?_mark rfl, tokens?_compactItems faithful, Option.map_map, tokensOf]
      rfl
  | object members =>
    cases depth with
    | zero => rw [Faithful] at faithful; exact faithful.elim
    | succ depth =>
      rw [Faithful] at faithful
      rw [compact, List.cons_append, tokens?_mark rfl, tokens?_compactMembers faithful.2, Option.map_map, tokensOf]
      rfl

theorem tokens?_compactItems {depth : Nat} {items : List Json} (faithful : FaithfulItems depth items) (rest : Text) :
    tokens? (compactItems items ++ rest) = (tokens? rest).map (itemTokens items ++ ·) := by
  cases items with
  | nil => exact tokens?_mark rfl rest
  | cons v more =>
    rw [FaithfulItems] at faithful
    rw [compactItems, List.append_assoc, tokens?_compact faithful.1 (ends_moreItems more rest),
      tokens?_compactMoreItems faithful.2, Option.map_map, itemTokens]
    simp only [Function.comp_def, List.append_assoc]

theorem tokens?_compactMoreItems {depth : Nat} {items : List Json} (faithful : FaithfulItems depth items)
    (rest : Text) :
    tokens? (compactMoreItems items ++ rest) = (tokens? rest).map (moreItemTokens items ++ ·) := by
  cases items with
  | nil => exact tokens?_mark rfl rest
  | cons v more =>
    rw [FaithfulItems] at faithful
    rw [compactMoreItems, List.cons_append, List.cons_append, List.append_assoc, tokens?_mark rfl,
      tokens?_compact faithful.1 (ends_moreItems more rest), tokens?_compactMoreItems faithful.2, Option.map_map,
      Option.map_map, moreItemTokens]
    simp only [Function.comp_def, List.cons_append, List.append_assoc]

theorem tokens?_compactMembers {depth : Nat} {members : List (Text × Json)}
    (faithful : FaithfulMembers depth members) (rest : Text) :
    tokens? (compactMembers members ++ rest) = (tokens? rest).map (memberTokens members ++ ·) := by
  cases members with
  | nil => exact tokens?_mark rfl rest
  | cons m more =>
    obtain ⟨key, v⟩ := m
    rw [FaithfulMembers] at faithful
    rw [compactMembers, List.append_assoc, List.append_assoc, List.cons_append, tokens?_quote, tokens?_mark rfl,
      tokens?_compact faithful.1 (ends_moreMembers more rest), tokens?_compactMoreMembers faithful.2,
      Option.map_map, Option.map_map, Option.map_map, memberTokens]
    simp only [Function.comp_def, List.cons_append, List.append_assoc]

theorem tokens?_compactMoreMembers {depth : Nat} {members : List (Text × Json)}
    (faithful : FaithfulMembers depth members) (rest : Text) :
    tokens? (compactMoreMembers members ++ rest) = (tokens? rest).map (moreMemberTokens members ++ ·) := by
  cases members with
  | nil => exact tokens?_mark rfl rest
  | cons m more =>
    obtain ⟨key, v⟩ := m
    rw [FaithfulMembers] at faithful
    rw [compactMoreMembers, List.append_assoc, List.cons_append, List.cons_append, List.append_assoc,
      List.cons_append, tokens?_mark rfl, tokens?_quote, tokens?_mark rfl,
      tokens?_compact faithful.1 (ends_moreMembers more rest), tokens?_compactMoreMembers faithful.2,
      Option.map_map, Option.map_map, Option.map_map, Option.map_map, moreMemberTokens]
    simp only [Function.comp_def, List.cons_append, List.append_assoc]

end

mutual

/-- The tree that the text of a value writes. -/
def written : Json → Written
  | .null => .null
  | .bool b => .bool b
  | .number n => .number (some n)
  | .string s => .string (some s)
  | .array items => .array (writtenItems items)
  | .object members => .object (writtenMembers members)

def writtenItems : List Json → List Written
  | [] => []
  | v :: rest => written v :: writtenItems rest

def writtenMembers : List (Text × Json) → List (Option Text × Written)
  | [] => []
  | (key, v) :: rest => (some key, written v) :: writtenMembers rest

end

namespace Written

/-- The first item of an array begins as any value does. -/
theorem run_firstItem (v : Json) (frames : List Frame) (ts : List Token) :
    run (.firstItem frames) (tokensOf v ++ ts) = run (.value (.array [] :: frames)) (tokensOf v ++ ts) := by
  cases v <;> rfl

mutual

/-- The tokens of a value end that value and hand it on. -/
theorem run_tokensOf (v : Json) (frames : List Frame) (ts : List Token) :
    run (.value frames) (tokensOf v ++ ts) = run (deliver (written v) frames) ts := by
  cases v with
  | null => rfl
  | bool b => rfl
  | number n => rfl
  | string s => rfl
  | array items =>
    rw [tokensOf, written]
    exact run_itemTokens items frames ts
  | object members =>
    rw [tokensOf, written]
    exact run_memberTokens members frames ts

theorem run_itemTokens (items : List Json) (frames : List Frame) (ts : List Token) :
    run (.firstItem frames) (itemTokens items ++ ts) = run (deliver (.array (writtenItems items)) frames) ts := by
  cases items with
  | nil => rfl
  | cons v more =>
    rw [itemTokens, List.append_assoc, run_firstItem, run_tokensOf, deliver, run_moreItemTokens, writtenItems]
    rfl

theorem run_moreItemTokens (items : List Json) (done : List Written) (frames : List Frame) (ts : List Token) :
    run (.afterItem done frames) (moreItemTokens items ++ ts) =
      run (deliver (.array (done.reverse ++ writtenItems items)) frames) ts := by
  cases items with
  | nil =>
    rw [writtenItems, List.append_nil]
    rfl
  | cons v more =>
    have next : run (.afterItem done frames) (moreItemTokens (v :: more) ++ ts) =
        run (.value (.array done :: frames)) (tokensOf v ++ (moreItemTokens more ++ ts)) := by
      rw [moreItemTokens, List.cons_append, List.append_assoc]
      rfl
    rw [next, run_tokensOf, deliver, run_moreItemTokens, writtenItems, List.reverse_cons, List.append_assoc,
      List.singleton_append]

theorem run_memberTokens (members : List (Text × Json)) (frames : List Frame) (ts : List Token) :
    run (.firstKey frames) (memberTokens members ++ ts) =
      run (deliver (.object (writtenMembers members)) frames) ts := by
  cases members with
  | nil => rfl
  | cons m more =>
    obtain ⟨key, v⟩ := m
    have next : run (.firstKey frames) (memberTokens ((key, v) :: more) ++ ts) =
        run (.value (.object [] (some key) :: frames)) (tokensOf v ++ (moreMemberTokens more ++ ts)) := by
      rw [memberTokens, List.cons_append, List.cons_append, List.append_assoc]
      rfl
    rw [next, run_tokensOf, deliver, run_moreMemberTokens, writtenMembers]
    rfl

theorem run_moreMemberTokens (members : List (Text × Json)) (done : List (Option Text × Written))
    (frames : List Frame) (ts : List Token) :
    run (.afterMember done frames) (moreMemberTokens members ++ ts) =
      run (deliver (.object (done.reverse ++ writtenMembers members)) frames) ts := by
  cases members with
  | nil =>
    rw [writtenMembers, List.append_nil]
    rfl
  | cons m more =>
    obtain ⟨key, v⟩ := m
    have next : run (.afterMember done frames) (moreMemberTokens ((key, v) :: more) ++ ts) =
        run (.value (.object done (some key) :: frames)) (tokensOf v ++ (moreMemberTokens more ++ ts)) := by
      rw [moreMemberTokens, List.cons_append, List.cons_append, List.cons_append, List.append_assoc]
      rfl
    rw [next, run_tokensOf, deliver, run_moreMemberTokens, writtenMembers, List.reverse_cons, List.append_assoc,
      List.singleton_append]

end

theorem ofTokens?_tokensOf (v : Json) : ofTokens? (tokensOf v) = some (written v) := by
  have all := run_tokensOf v [] []
  rw [List.append_nil] at all
  rw [ofTokens?, all]
  rfl

mutual

theorem value?_written {depth : Nat} {v : Json} (faithful : Faithful depth v) : value? depth (written v) = some v := by
  cases v with
  | null => rfl
  | bool b => rfl
  | number n => rfl
  | string s => rfl
  | array items =>
    cases depth with
    | zero => rw [Faithful] at faithful; exact faithful.elim
    | succ depth =>
      rw [Faithful] at faithful
      rw [written, value?, values?_writtenItems faithful, Option.map_some]
  | object members =>
    cases depth with
    | zero => rw [Faithful] at faithful; exact faithful.elim
    | succ depth =>
      rw [Faithful] at faithful
      rw [written, value?, memberValues?_writtenMembers faithful.2, Option.map_some,
        ofMembers_of_nodup faithful.1]

theorem values?_writtenItems {depth : Nat} {items : List Json} (faithful : FaithfulItems depth items) :
    values? depth (writtenItems items) = some items := by
  cases items with
  | nil => rfl
  | cons v more =>
    rw [FaithfulItems] at faithful
    simp only [writtenItems, values?, value?_written faithful.1, values?_writtenItems faithful.2,
      Option.bind_eq_bind, Option.bind_some, Option.pure_def]

theorem memberValues?_writtenMembers {depth : Nat} {members : List (Text × Json)}
    (faithful : FaithfulMembers depth members) : memberValues? depth (writtenMembers members) = some members := by
  cases members with
  | nil => rfl
  | cons m more =>
    obtain ⟨key, v⟩ := m
    rw [FaithfulMembers] at faithful
    simp only [writtenMembers, memberValues?, value?_written faithful.1, memberValues?_writtenMembers faithful.2,
      Option.bind_eq_bind, Option.bind_some, Option.pure_def]

end

end Written

/-- A text that is made of the tokens of a value reads as that value. -/
theorem parse?_of_tokens? {v : Json} (faithful : Faithful maxDepth v) {s : Text}
    (tokens : tokens? s = some (tokensOf v)) : parse? s = some v := by
  rw [parse?, Written.parse?, tokens, Option.bind_some, Written.ofTokens?_tokensOf, Option.bind_some,
    Written.value?_written faithful]

/-- A value reads back from its text on one line. -/
theorem parse?_compact {v : Json} (faithful : Faithful maxDepth v) : parse? (compact v) = some v := by
  have ends : Ends [] := trivial
  have tokens := tokens?_compact faithful ends
  rw [List.append_nil, tokens?_nil, Option.map_some, List.append_nil] at tokens
  exact parse?_of_tokens? faithful tokens

end EndpointConsole.Json
