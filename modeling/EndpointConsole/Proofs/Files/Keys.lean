import EndpointConsole.Files.Path
import EndpointConsole.Proofs.Text.LowerCase
import Mathlib.Data.List.Forall2

/-!
One key for every spelling of a path. The key looks at a character only up to its spelling: which of the two
separators it is, and the case of an ASCII letter (`key_map_folded`). Separators at the end of a path go
(`key_append`), so that all spellings of a path have its key (`Spells.key_eq`).
-/
namespace EndpointConsole.Path

def isSlash (c : Char) : Bool := c == '/' || c == '\\'

/-- Two ways to write a character of a path: either separator, or the same letter in either case. -/
inductive Alike (c d : Char) : Prop where
  | slashes (left : isSlash c = true) (right : isSlash d = true)
  | letters (same : c.toLower = d.toLower)

theorem alike_iff {c d : Char} : Alike c d ↔ isSlash c = true ∧ isSlash d = true ∨ c.toLower = d.toLower := by
  constructor
  · rintro (⟨left, right⟩ | same)
    · exact .inl ⟨left, right⟩
    · exact .inr same
  · rintro (⟨left, right⟩ | same)
    · exact .slashes left right
    · exact .letters same

instance (c d : Char) : Decidable (Alike c d) := decidable_of_iff _ alike_iff.symm

/-- Another way to write a path: each of its characters in another way, with separators appended. -/
inductive Spells (path : Text) : Text → Prop where
  | intro {written ending : Text} (alike : List.Forall₂ Alike path written) (slashes : ∀ c ∈ ending, isSlash c = true) :
      Spells path (written ++ ending)

def toSlash (c : Char) : Char := if c = '\\' then '/' else c

/-- The one way to write a character that stands for all others. -/
def folded (c : Char) : Char := (toSlash c).toLower

theorem toSlash_of_isSlash {c : Char} (slash : isSlash c = true) : toSlash c = '/' := by
  rw [isSlash, Bool.or_eq_true, beq_iff_eq, beq_iff_eq] at slash
  rcases slash with rfl | rfl <;> rfl

theorem isBlank_toSlash (c : Char) : Text.isBlank (toSlash c) = Text.isBlank c := by
  unfold toSlash
  split
  · next back =>
    rw [back]
    decide
  · rfl

theorem isBlank_folded (c : Char) : Text.isBlank (folded c) = Text.isBlank c := by
  rw [folded, Text.isBlank_toLower, isBlank_toSlash]

theorem toSlash_folded (c : Char) : toSlash (folded c) = folded c := by
  have kept : toSlash c ≠ '\\' := by
    unfold toSlash
    split
    · decide
    · assumption
  rw [toSlash, if_neg]
  rwa [folded, Text.eq_toLower_iff (by decide)]

theorem Alike.folded_eq {c d : Char} (alike : Alike c d) : folded c = folded d := by
  cases alike with
  | slashes left right => rw [folded, folded, toSlash_of_isSlash left, toSlash_of_isSlash right]
  | letters same =>
    have back : c = '\\' ↔ d = '\\' := by
      rw [← Text.eq_toLower_iff (c := c) (by decide), same, Text.eq_toLower_iff (by decide)]
    simp only [folded, toSlash, back]
    split
    · rfl
    · exact same

theorem map_folded_eq {path written : Text} (alike : List.Forall₂ Alike path written) :
    path.map folded = written.map folded := by
  induction alike with
  | nil => rfl
  | cons first _ ih => rw [List.map_cons, List.map_cons, first.folded_eq, ih]

/-- Without the slashes at its end, of which one stays when there is nothing else. -/
def bare (s : Text) : Text :=
  let kept := Text.dropEndWhile (· == '/') s
  if kept.isEmpty then s.take 1 else kept

theorem key_eq (path : Text) : key path = Text.toLower (bare ((Text.trim path).map toSlash)) := rfl

theorem bare_map_toLower (s : Text) : bare (s.map Char.toLower) = (bare s).map Char.toLower := by
  have kept : Text.dropEndWhile (· == '/') (s.map Char.toLower) = (Text.dropEndWhile (· == '/') s).map Char.toLower :=
    Text.dropEndWhile_map_of_same (Text.same_of_ascii (· == '/') (by decide))
  simp only [bare, kept, List.isEmpty_map, ← List.map_take]
  split <;> rfl

theorem bare_append {s ending : Text} (filled : s ≠ []) (slashes : ∀ c ∈ ending, c = '/') :
    bare (s ++ ending) = bare s := by
  have first : (s ++ ending).take 1 = s.take 1 := List.take_append_of_le_length (List.length_pos_iff.mpr filled)
  have kept : Text.dropEndWhile (· == '/') (s ++ ending) = Text.dropEndWhile (· == '/') s :=
    Text.dropEndWhile_append_of_all (by simpa using slashes)
  rw [bare, first, kept]
  rfl

/-- The key sees no more of a path than its folded characters. -/
theorem key_map_folded (path : Text) : key (path.map folded) = key path := by
  have slashed : (Text.trim (path.map folded)).map toSlash = ((Text.trim path).map toSlash).map Char.toLower := by
    simp only [Text.trim_map_of_same isBlank_folded, List.map_map, List.map_inj_left, Function.comp_apply]
    exact fun c _ => toSlash_folded c
  rw [key_eq, key_eq, slashed, bare_map_toLower, Text.toLower_map_toLower]

/-- Slashes go from the end of a path that ends without white space. -/
theorem key_append {path ending : Text} (filled : path ≠ []) (ends : Text.trimEnd path = path)
    (slashes : ∀ c ∈ ending, isSlash c = true) : key (path ++ ending) = key path := by
  obtain ⟨front, c, rfl, solid⟩ := Text.exists_last_of_trimEnd filled ends
  have outside : Text.trimEnd ending = ending := by
    refine Text.dropEndWhile_of_all_not fun d among => ?_
    rw [← isBlank_toSlash, toSlash_of_isSlash (slashes d among)]
    decide
  -- trimming comes first, and reaches past `c` from neither end
  have trimmed : Text.trim (front ++ [c] ++ ending) = Text.trim (front ++ [c]) ++ ending := by
    rw [List.append_assoc, List.singleton_append, Text.trim, Text.trim, Text.trimStart_append solid,
      Text.trimStart_append solid, Text.trimEnd_append solid, Text.trimEnd_append solid, outside]
    simp [Text.trimEnd, Text.dropEndWhile]
  have solid_left : (Text.trim (front ++ [c])).map toSlash ≠ [] := by
    rw [Text.trim, Text.trimStart_append solid, Text.trimEnd_append solid]
    simp
  rw [key_eq, key_eq, trimmed, List.map_append, bare_append solid_left]
  simp only [List.mem_map, forall_exists_index, and_imp]
  rintro _ d among rfl
  exact toSlash_of_isSlash (slashes d among)

/-- All spellings of a path have its key. -/
theorem Spells.key_eq {path other : Text} (spells : Spells path other) (filled : path ≠ [])
    (ends : Text.trimEnd path = path) : key other = key path := by
  obtain ⟨alike, slashes⟩ := spells
  rename_i written ending
  calc key (written ++ ending)
    _ = key ((written ++ ending).map folded) := (key_map_folded _).symm
    _ = key ((path ++ ending).map folded) := by rw [List.map_append, List.map_append, map_folded_eq alike]
    _ = key (path ++ ending) := key_map_folded _
    _ = key path := key_append filled ends slashes

end EndpointConsole.Path
