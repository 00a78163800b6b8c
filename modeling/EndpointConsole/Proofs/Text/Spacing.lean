import EndpointConsole.Proofs.Source.Margins
import EndpointConsole.Proofs.Text.Words
import Mathlib.Data.List.Forall2

/-!
Texts that differ only in how wide their white space is (`Respaced`): where one has white space, so
has the other, but neither the number of blanks nor their kind need be the same. What cuts a text at
characters that are no white space cuts both at the same places, and their words are the same
(`Respaced.words`).
-/
namespace EndpointConsole.Text

/-- The same text up to the width and the kind of its white space. -/
inductive Respaced : Text → Text → Prop
  | nil : Respaced [] []
  | char {c : Char} {s t : Text} (solid : isBlank c = false) (rest : Respaced s t) : Respaced (c :: s) (c :: t)
  | gap {a b s t : Text} (blank : IsBlank a) (some_blank : a ≠ []) (blank' : IsBlank b) (some_blank' : b ≠ [])
      (rest : Respaced s t) : Respaced (a ++ s) (b ++ t)

/-- Pieces of which each is respaced. -/
abbrev RespacedPieces : List Text → List Text → Prop := List.Forall₂ Respaced

/-- Two texts that are respaced, one behind the other. -/
def RespacedCut (x y : Text × Text) : Prop := Respaced x.1 y.1 ∧ Respaced x.2 y.2

namespace Respaced

variable {a b s t : Text} {c : Char}

theorem refl (s : Text) : Respaced s s := by
  induction s with
  | nil => exact .nil
  | cons c rest ih =>
    cases blank : isBlank c with
    | false => exact .char blank ih
    | true =>
      have alone : IsBlank [c] := fun d among => List.mem_singleton.mp among ▸ blank
      exact .gap alone (List.cons_ne_nil c []) alone (List.cons_ne_nil c []) ih

theorem append (first : Respaced a b) (second : Respaced s t) : Respaced (a ++ s) (b ++ t) := by
  induction first with
  | nil => exact second
  | char solid _ ih => exact .char solid ih
  | gap blank some_blank blank' some_blank' _ ih =>
    rw [List.append_assoc, List.append_assoc]
    exact .gap blank some_blank blank' some_blank' ih

theorem blanks (blank : IsBlank a) (some_blank : a ≠ []) (blank' : IsBlank b) (some_blank' : b ≠ []) :
    Respaced a b := by
  have alone := Respaced.gap blank some_blank blank' some_blank' .nil
  rwa [List.append_nil, List.append_nil] at alone

theorem reverse (r : Respaced s t) : Respaced s.reverse t.reverse := by
  induction r with
  | nil => exact .nil
  | char solid _ ih =>
    rw [List.reverse_cons, List.reverse_cons]
    exact ih.append (.char solid .nil)
  | gap blank some_blank blank' some_blank' _ ih =>
    rw [List.reverse_append, List.reverse_append]
    exact ih.append (blanks (fun c among => blank c (List.mem_reverse.mp among)) (by simpa using some_blank)
      (fun c among => blank' c (List.mem_reverse.mp among)) (by simpa using some_blank'))

theorem eq_nil_iff (r : Respaced s t) : s = [] ↔ t = [] := by
  cases r with
  | nil => exact Iff.rfl
  | char => exact iff_of_false (List.cons_ne_nil _ _) (List.cons_ne_nil _ _)
  | gap _ some_blank _ some_blank' => simp [some_blank, some_blank']

/-- White space does not begin with a character that is none. -/
theorem ne_cons_of_blank (blank : IsBlank a) (some_blank : a ≠ []) (solid : isBlank c = false) (s t : Text) :
    a ++ s ≠ c :: t := by
  obtain ⟨d, rest, rfl⟩ := List.exists_cons_of_ne_nil some_blank
  intro same
  exact ne_of_blank (blank d List.mem_cons_self) solid (List.cons.inj same).1

theorem of_cons (solid : isBlank c = false) (r : Respaced (c :: s) t) : ∃ t', t = c :: t' ∧ Respaced s t' := by
  generalize whole : c :: s = u at r
  cases r with
  | nil => cases whole
  | char _ rest =>
    cases whole
    exact ⟨_, rfl, rest⟩
  | gap blank some_blank => exact absurd whole.symm (ne_cons_of_blank blank some_blank solid _ _)

theorem head?_iff (solid : isBlank c = false) (r : Respaced s t) : s.head? = some c ↔ t.head? = some c := by
  cases r with
  | nil => exact Iff.rfl
  | char => exact Iff.rfl
  | gap blank some_blank blank' some_blank' =>
    refine iff_of_false (fun first => ?_) (fun first => ?_)
    · obtain ⟨rest, whole⟩ := List.head?_eq_some_iff.mp first
      exact ne_cons_of_blank blank some_blank solid _ _ whole
    · obtain ⟨rest, whole⟩ := List.head?_eq_some_iff.mp first
      exact ne_cons_of_blank blank' some_blank' solid _ _ whole

/-- A text without white space is respaced only as itself. -/
theorem eq_iff {word : Text} (solid : ∀ c ∈ word, isBlank c = false) (r : Respaced s t) : word = s ↔ word = t := by
  induction r generalizing word with
  | nil => exact Iff.rfl
  | @char c s t _ _ ih =>
    cases word with
    | nil => exact iff_of_false nofun nofun
    | cons d word =>
      rw [List.cons.injEq, List.cons.injEq, ih fun e among => solid e (List.mem_cons_of_mem d among)]
  | @gap a b s t blank some_blank blank' some_blank' _ _ =>
    have other {gap rest : Text} (blank : IsBlank gap) (some_blank : gap ≠ []) : word ≠ gap ++ rest := by
      rintro rfl
      have first := List.head_mem some_blank
      have here := blank _ first
      rw [solid _ (List.mem_append_left _ first)] at here
      cases here
    exact iff_of_false (other blank some_blank) (other blank' some_blank')

theorem trimStart (r : Respaced s t) : Respaced (Text.trimStart s) (Text.trimStart t) := by
  induction r with
  | nil => exact .nil
  | @char c s t solid rest _ =>
    have kept (u : Text) : Text.trimStart (c :: u) = c :: u :=
      List.dropWhile_cons_of_neg (Bool.eq_false_iff.mp solid)
    rw [kept, kept]
    exact .char solid rest
  | gap blank _ blank' _ _ ih =>
    rw [trimStart_blank_append blank, trimStart_blank_append blank']
    exact ih

theorem trim (r : Respaced s t) : Respaced (Text.trim s) (Text.trim t) := r.trimStart.reverse.trimStart.reverse

theorem runsFrom (r : Respaced s t) (current : Text) : Text.runsFrom isBlank current s = Text.runsFrom isBlank current t := by
  have cut {gap : Text} (blank : IsBlank gap) (some_blank : gap ≠ []) (current s : Text) :
      Text.runsFrom isBlank current (gap ++ s) = Text.runsFrom isBlank current [] ++ Text.words s := by
    obtain ⟨c, rest, rfl⟩ := List.exists_cons_of_ne_nil some_blank
    have first := runsFrom_append_cons (blank c List.mem_cons_self) current [] (rest ++ s)
    rwa [← words, words_blank_append fun d among => blank d (List.mem_cons_of_mem c among)] at first
  induction r generalizing current with
  | nil => rfl
  | char solid _ ih =>
    rw [Text.runsFrom, Text.runsFrom, if_neg (Bool.eq_false_iff.mp solid), if_neg (Bool.eq_false_iff.mp solid), ih]
  | gap blank some_blank blank' some_blank' _ ih =>
    rw [cut blank some_blank, cut blank' some_blank', Text.words, ih []]
    rfl

theorem words (r : Respaced s t) : Text.words s = Text.words t := r.runsFrom []

theorem before {sep : Char} (solid : isBlank sep = false) (r : Respaced s t) :
    Respaced (Text.before sep s) (Text.before sep t) := by
  have kept {gap : Text} (blank : IsBlank gap) (s : Text) : Text.before sep (gap ++ s) = gap ++ Text.before sep s :=
    List.takeWhile_append_of_pos fun c among => decide_eq_true (ne_of_blank (blank c among) solid)
  induction r with
  | nil => exact .nil
  | @char c s t plain _ ih =>
    by_cases here : c = sep
    · rw [Text.before, Text.before, List.takeWhile_cons_of_neg (by simp [here]),
        List.takeWhile_cons_of_neg (by simp [here])]
      exact .nil
    · rw [Text.before, Text.before, List.takeWhile_cons_of_pos (by simpa using here),
        List.takeWhile_cons_of_pos (by simpa using here)]
      exact .char plain ih
  | gap blank some_blank blank' some_blank' _ ih =>
    rw [kept blank, kept blank']
    exact .gap blank some_blank blank' some_blank' ih

theorem afterLast {sep : Char} (solid : isBlank sep = false) (r : Respaced s t) :
    Respaced (Text.afterLast sep s) (Text.afterLast sep t) := (r.reverse.before solid).reverse

theorem cutAt? {sep : Char} (solid : isBlank sep = false) (r : Respaced s t) :
    Option.Rel RespacedCut (Text.cutAt? sep s) (Text.cutAt? sep t) := by
  have kept {gap : Text} (blank : IsBlank gap) (s : Text) :
      Text.cutAt? sep (gap ++ s) = (Text.cutAt? sep s).map fun x => (gap ++ x.1, x.2) := by
    induction gap with
    | nil => exact Option.map_id_apply.symm
    | cons c rest ih =>
      rw [List.cons_append, Text.cutAt?, if_neg (ne_of_blank (blank c List.mem_cons_self) solid),
        ih fun d among => blank d (List.mem_cons_of_mem c among), Option.map_map]
      rfl
  induction r with
  | nil => exact .none
  | @char c s t plain rest ih =>
    rw [Text.cutAt?, Text.cutAt?]
    split
    · exact .some ⟨.nil, rest⟩
    · generalize Text.cutAt? sep s = x, Text.cutAt? sep t = y at ih
      cases ih with
      | none => exact .none
      | some both => exact .some ⟨.char plain both.1, both.2⟩
  | @gap a b s t blank some_blank blank' some_blank' _ ih =>
    rw [kept blank, kept blank']
    generalize Text.cutAt? sep s = x, Text.cutAt? sep t = y at ih
    cases ih with
    | none => exact .none
    | some both => exact .some ⟨.gap blank some_blank blank' some_blank' both.1, both.2⟩

theorem stripStart? {start : Text} (solid : ∀ c ∈ start, isBlank c = false) (r : Respaced s t) :
    Option.Rel Respaced (Text.stripStart? start s) (Text.stripStart? start t) := by
  induction start generalizing s t with
  | nil => exact .some r
  | cons c start ih =>
    cases r with
    | nil => exact .none
    | @char d s t _ rest =>
      rw [Text.stripStart?, Text.stripStart?]
      split
      · exact ih (fun e among => solid e (List.mem_cons_of_mem c among)) rest
      · exact .none
    | @gap a b s t blank some_blank blank' some_blank' =>
      have none_starts {gap : Text} (blank : IsBlank gap) (some_blank : gap ≠ []) (s : Text) :
          Text.stripStart? (c :: start) (gap ++ s) = none := by
        obtain ⟨d, rest, rfl⟩ := List.exists_cons_of_ne_nil some_blank
        exact stripStart?_blank_cons solid (List.cons_ne_nil c start) (blank d List.mem_cons_self) (rest ++ s)
      rw [none_starts blank some_blank, none_starts blank' some_blank']
      exact .none

theorem stripEnd? {ending : Text} (solid : ∀ c ∈ ending, isBlank c = false) (r : Respaced s t) :
    Option.Rel Respaced (Text.stripEnd? ending s) (Text.stripEnd? ending t) := by
  have backwards : ∀ c ∈ ending.reverse, isBlank c = false := fun c among => solid c (List.mem_reverse.mp among)
  have reversed := r.reverse.stripStart? backwards
  rw [Text.stripEnd?, Text.stripEnd?]
  generalize Text.stripStart? ending.reverse s.reverse = x, Text.stripStart? ending.reverse t.reverse = y at reversed
  cases reversed with
  | none => exact .none
  | some rest => exact .some rest.reverse

end Respaced

end EndpointConsole.Text
