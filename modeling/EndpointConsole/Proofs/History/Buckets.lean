import EndpointConsole.History.Item
import EndpointConsole.Proofs.Files.Keys

/-!
Which endpoints share a bucket of the history. The route may hold any text, the separator included, but
nothing before it does, so that the bucket gives away the project's key, the method and the route
(`bucketOf_eq_iff`); the key stands for the project however its path is spelled (`bucketOf_identifies`).
-/
namespace EndpointConsole

theorem HttpMethod.bar_not_mem_name (m : HttpMethod) : '|' ∉ m.name := by cases m <;> decide

theorem HttpMethod.name_inj {m n : HttpMethod} : m.name = n.name ↔ m = n := by
  constructor
  · intro same
    cases m <;> cases n <;> first | rfl | exact absurd same (by decide)
  · rintro rfl
    rfl

namespace History

/-- The key of an endpoint's project, which is empty without one. -/
def projectKey (e : Endpoint) : Text := Path.key (e.project.getD [])

variable {e f : Endpoint}

theorem bucketOf_eq (e : Endpoint) : bucketOf e = projectKey e ++ '|' :: (e.method.name ++ '|' :: e.route) := by
  have key : (e.project.map Path.key).getD [] = projectKey e := by
    rw [projectKey]
    cases e.project <;> rfl
  rw [bucketOf, key, List.append_assoc, List.cons_append]

theorem bucketOf_eq_iff (left : '|' ∉ projectKey e) (right : '|' ∉ projectKey f) :
    bucketOf e = bucketOf f ↔ e.method = f.method ∧ e.route = f.route ∧ projectKey e = projectKey f := by
  have methods : '|' ∉ e.method.name := e.method.bar_not_mem_name
  have others : '|' ∉ f.method.name := f.method.bar_not_mem_name
  rw [bucketOf_eq, bucketOf_eq, Text.append_separator_inj left right, Text.append_separator_inj methods others,
    HttpMethod.name_inj]
  tauto

/-- Endpoints share a bucket just when project, method and route are the same; the project is the same
    however its path is spelled. -/
theorem bucketOf_identifies :
    (∀ e f : Endpoint, '|' ∉ projectKey e → '|' ∉ projectKey f →
      (bucketOf e = bucketOf f ↔ e.method = f.method ∧ e.route = f.route ∧ projectKey e = projectKey f)) ∧
    ∀ path other : Text, Text.trim path ≠ [] → Text.trimEnd path = path → Path.Spells path other →
      Path.key other = Path.key path := by
  refine ⟨fun e f left right => bucketOf_eq_iff left right, ?_⟩
  intro path other filled ends spells
  refine spells.key_eq ?_ ends
  rintro rfl
  exact filled rfl

/-- A project on two spellings of its path, and a route that holds the separator. -/
theorem bucketOf_identifies_spelled :
    let e : Endpoint :=
      { method := .get, route := "/a|b".toList, controller := [], action := [], file := [], line := 1,
        project := some "C:\\Src\\Api.csproj".toList }
    let f : Endpoint := { e with project := some "c:/src/API.csproj/".toList }
    '|' ∉ projectKey e ∧ '|' ∉ projectKey f ∧
      Path.key "c:/src/API.csproj/".toList = Path.key "C:\\Src\\Api.csproj".toList ∧ bucketOf e = bucketOf f := by
  intro e f
  have alike : List.Forall₂ Path.Alike "C:\\Src\\Api.csproj".toList "c:/src/API.csproj".toList := by decide
  have same := bucketOf_identifies.2 "C:\\Src\\Api.csproj".toList "c:/src/API.csproj/".toList (by decide) (by decide)
    (@Path.Spells.intro _ _ ['/'] alike (List.all_eq_true.mp (by decide)))
  have left : '|' ∉ projectKey e := by decide
  have right : '|' ∉ projectKey f := by decide
  exact ⟨left, right, same, (bucketOf_identifies.1 e f left right).mpr ⟨rfl, rfl, same.symm⟩⟩

end History

end EndpointConsole
