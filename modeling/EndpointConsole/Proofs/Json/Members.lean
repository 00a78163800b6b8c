import EndpointConsole.Json
import Mathlib.Data.List.Nodup

/-!
Members of objects: what a written member reads as, and that members written one
after the other end up with distinct names (`nodup_ofMembers`), each of them as it
was written somewhere (`mem_ofMembers`); those with distinct names are left as they
are (`ofMembers_of_nodup`).
-/
namespace EndpointConsole.Json

variable {α : Type} {name key : Text} {value : α} {members : List (Text × α)}

theorem lookup?_of_not_mem (absent : name ∉ members.map Prod.fst) : lookup? name members = none := by
  induction members with
  | nil => rfl
  | cons m rest ih =>
    rw [List.map_cons, List.mem_cons, not_or] at absent
    rw [lookup?, if_neg (Ne.symm absent.1), ih absent.2]

theorem lookup?_mem (found : lookup? name members = some value) : (name, value) ∈ members := by
  induction members with
  | nil => cases found
  | cons m rest ih =>
    by_cases same : m.1 = name
    · rw [lookup?, if_pos same, Option.some.injEq] at found
      rw [← same, ← found]
      exact List.mem_cons_self
    · rw [lookup?, if_neg same] at found
      exact List.mem_cons_of_mem m (ih found)

theorem lookup?_of_mem (distinct : (members.map Prod.fst).Nodup) (among : (name, value) ∈ members) :
    lookup? name members = some value := by
  induction members with
  | nil => cases among
  | cons m rest ih =>
    obtain ⟨absent, others⟩ := List.nodup_cons.mp distinct
    rcases List.mem_cons.mp among with rfl | later
    · rw [lookup?, if_pos rfl]
    · have other : m.1 ≠ name := by
        rintro rfl
        exact absent (List.mem_map.mpr ⟨(m.1, value), later, rfl⟩)
      rw [lookup?, if_neg other, ih others later]

theorem lookup?_concat (name key : Text) (value : α) (members : List (Text × α)) :
    lookup? name (members ++ [(key, value)]) = (lookup? name members).or (if key = name then some value else none) := by
  induction members with
  | nil => rfl
  | cons m rest ih =>
    rw [List.cons_append, lookup?, lookup?, ih]
    split <;> rfl

theorem lookup?_setMember (name key : Text) (value : α) (members : List (Text × α)) :
    lookup? name (setMember key value members) = if key = name then some value else lookup? name members := by
  induction members with
  | nil => rfl
  | cons m rest ih =>
    by_cases same : m.1 = key
    · rw [setMember, if_pos same, lookup?, lookup?, same]
      by_cases asked : key = name
      · rw [if_pos asked, if_pos asked]
      · rw [if_neg asked, if_neg asked, if_neg asked]
    · rw [setMember, if_neg same, lookup?, lookup?, ih]
      by_cases asked : key = name
      · have other : m.1 ≠ name := asked ▸ same
        rw [if_neg other, if_pos asked, if_pos asked]
      · rw [if_neg asked, if_neg asked]

theorem setMember_of_not_mem (absent : key ∉ members.map Prod.fst) :
    setMember key value members = members ++ [(key, value)] := by
  induction members with
  | nil => rfl
  | cons m rest ih =>
    rw [List.map_cons, List.mem_cons, not_or] at absent
    rw [setMember, if_neg (Ne.symm absent.1), ih absent.2, List.cons_append]

theorem mem_setMember {p : Text × α} (among : p ∈ setMember key value members) : p = (key, value) ∨ p ∈ members := by
  induction members with
  | nil => exact .inl (List.mem_singleton.mp among)
  | cons m rest ih =>
    rw [setMember] at among
    split at among
    · next same =>
      rcases List.mem_cons.mp among with head | tail
      · exact .inl (same ▸ head)
      · exact .inr (List.mem_cons_of_mem m tail)
    · rcases List.mem_cons.mp among with head | tail
      · exact .inr (head ▸ List.mem_cons_self)
      · exact (ih tail).imp_right (List.mem_cons_of_mem m)

theorem nodup_setMember (distinct : (members.map Prod.fst).Nodup) :
    ((setMember key value members).map Prod.fst).Nodup := by
  induction members with
  | nil => exact List.nodup_singleton key
  | cons m rest ih =>
    obtain ⟨absent, others⟩ := List.nodup_cons.mp distinct
    rw [setMember]
    split
    · exact distinct
    · next different =>
      refine List.nodup_cons.mpr ⟨?_, ih others⟩
      intro repeated
      obtain ⟨p, among, same⟩ := List.mem_map.mp repeated
      rcases mem_setMember among with rfl | old
      · exact different same.symm
      · exact absent (same ▸ List.mem_map_of_mem old)

/-- No name is left twice. -/
theorem nodup_ofMembers (members : List (Text × α)) : ((ofMembers members).map Prod.fst).Nodup := by
  have onto (done : List (Text × α)) (distinct : (done.map Prod.fst).Nodup) :
      ((members.foldl (fun done m => setMember m.1 m.2 done) done).map Prod.fst).Nodup := by
    induction members generalizing done with
    | nil => exact distinct
    | cons m rest ih => exact ih _ (nodup_setMember distinct)
  exact onto [] List.nodup_nil

theorem mem_ofMembers {p : Text × α} (among : p ∈ ofMembers members) : p ∈ members := by
  have onto (done : List (Text × α)) (inside : p ∈ members.foldl (fun done m => setMember m.1 m.2 done) done) :
      p ∈ done ∨ p ∈ members := by
    clear among
    induction members generalizing done with
    | nil => exact .inl inside
    | cons m rest ih =>
      rcases ih _ inside with before | later
      · rcases mem_setMember before with rfl | old
        · exact .inr List.mem_cons_self
        · exact .inl old
      · exact .inr (List.mem_cons_of_mem m later)
  exact (onto [] among).resolve_left List.not_mem_nil

/-- Members with distinct names stay as they are written. -/
theorem ofMembers_of_nodup (distinct : (members.map Prod.fst).Nodup) : ofMembers members = members := by
  -- generalised over the members already written
  have onto (done : List (Text × α)) (all : ((done ++ members).map Prod.fst).Nodup) :
      members.foldl (fun done m => setMember m.1 m.2 done) done = done ++ members := by
    induction members generalizing done with
    | nil => rw [List.foldl_nil, List.append_nil]
    | cons m rest ih =>
      have split : done ++ m :: rest = done ++ [m] ++ rest := by rw [List.append_assoc, List.singleton_append]
      have absent : m.1 ∉ done.map Prod.fst := by
        rw [List.map_append, List.map_cons, List.nodup_append] at all
        intro member
        exact all.2.2 m.1 member m.1 List.mem_cons_self rfl
      rw [List.foldl_cons, setMember_of_not_mem absent, split]
      exact ih ((List.nodup_cons.mp distinct).2) (done ++ [m]) (split ▸ all)
  exact onto [] distinct

theorem mapM_eq_some {β : Type} {f : α → Option β} {g : β → α} {l : List β}
    (inverse : ∀ b ∈ l, f (g b) = some b) : (l.map g).mapM f = some l := by
  induction l with
  | nil => rfl
  | cons b rest ih =>
    have head := inverse b List.mem_cons_self
    have tail := ih fun c member => inverse c (List.mem_cons_of_mem b member)
    rw [List.map_cons, List.mapM_cons, head, tail]
    rfl

theorem mem_of_mapM {β : Type} {f : α → Option β} {l : List α} {found : List β} (read : l.mapM f = some found)
    {b : β} (member : b ∈ found) : ∃ a ∈ l, f a = some b := by
  induction l generalizing found with
  | nil =>
    cases read
    cases member
  | cons a rest ih =>
    simp only [List.mapM_cons, Option.bind_eq_bind, Option.bind_eq_some_iff, Option.pure_def,
      Option.some.injEq] at read
    obtain ⟨first, head, more, tail, rfl⟩ := read
    rcases List.mem_cons.mp member with rfl | later
    · exact ⟨a, List.mem_cons_self, head⟩
    · obtain ⟨c, inside, same⟩ := ih tail later
      exact ⟨c, List.mem_cons_of_mem a inside, same⟩

end EndpointConsole.Json
