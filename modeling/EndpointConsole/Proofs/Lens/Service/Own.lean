import EndpointConsole.Proofs.Lens.Service.Waiting

/-!
Every record, and every scan whose timer has fired, goes back to a document that was
asked for (`Service.Sound`), and what takes the place of a record is not older, unless
the record was lost first (`Service.Loses`). So nobody is given the lenses of another
document or version (`Service.gives_own`).
-/
namespace EndpointConsole.Lens.Service

open Source (Document)

variable {s : Service} {acts : List Act} {act : Act} {d : Document} {uri : Text} {n : Nat} {scan : Scan}
  {r r' : Record Lenses}

/-- The acts by which the record of a document is lost. -/
inductive Loses (s : Service) (uri : Text) : Act → Prop where
  | closed : Loses s uri (.close uri)
  /-- The document is asked for when its record has been idle for too long. -/
  | expired {d : Document} {r : Record Lenses} (same : d.uri = uri) (held : s.peek? uri = some r)
      (expired : s.provider.cache.isExpired s.now r = true) : Loses s uri (.provide d)
  /-- The place of the record used least recently is needed for that of another document. -/
  | evicted {act : Act} {r : Record Lenses} (limited : s.provider.cache.capacity ≠ 0)
      (full : s.provider.cache.records.length = s.provider.cache.capacity)
      (last : s.provider.cache.records.getLast? = some (uri, r)) (gone : (s.perform act).peek? uri = none) :
      Loses s uri act

/-- A record that is not lost stays, or gives way to one that is not older. -/
theorem loses_or_kept (tidy : s.provider.cache.Tidy) (held : s.peek? uri = some r) (act : Act) :
    s.Loses uri act ∨ ∃ r', (s.perform act).peek? uri = some r' ∧ r.version ≤ r'.version := by
  have step := s.step act
  have evicted := @Loses.evicted s uri act
  generalize s.perform act = s' at step evicted ⊢
  cases step with
  | @provide d answer next way =>
    by_cases gone : d.uri = uri ∧ s.provider.cache.isExpired s.now r = true
    · exact .inl (.expired gone.1 held gone.2)
    obtain ⟨used, still, version⟩ := (tidy.kept_of_get s.now d.uri held).resolve_left gone
    have stays : r.version ≤ used.version := Int.le_of_eq version.symm
    cases way with
    | unhandled other => exact .inr ⟨r, held, Int.le_refl _⟩
    | held handled got same => exact .inr ⟨used, still, stays⟩
    | delayed handled missed delayed => exact .inr ⟨used, still, stays⟩
    | atOnce handled missed undelayed =>
      rcases (tidy.get s.now d.uri).kept_of_set s.now d.uri d.version (s.provider.scan d).1 still with
        ⟨r', left, newer⟩ | ⟨limited, full, last, absent, lost⟩
      · exact .inr ⟨r', left, Int.le_trans stays newer⟩
      · -- the cache was full already when the document was asked for
        have unused := tidy.eq_of_get_full limited full absent
        rw [unused] at limited full last
        exact .inl (evicted limited full last lost)
  | close name =>
    by_cases same : name = uri
    · exact .inl (same ▸ .closed)
    · refine .inr ⟨r, ?_, Int.le_refl _⟩
      change (s.provider.cache.close name).peek? uri = some r
      rw [Cache.peek?_close, if_neg same]
      exact held
  | @finish m pending lenses fired waits =>
    rcases (tidy.cancel pending.document.uri).kept_of_set s.now pending.document.uri pending.document.version
      lenses held with kept | ⟨limited, full, last, _, lost⟩
    · exact .inr kept
    · exact .inl (evicted limited full last lost)
  | advance ms => exact .inr ⟨r, held, Int.le_refl _⟩
  | fire waiting waits => exact .inr ⟨r, held, Int.le_refl _⟩
  | unfired m => exact .inr ⟨r, held, Int.le_refl _⟩
  | dropped m => exact .inr ⟨r, held, Int.le_refl _⟩

/-- Lenses that a scan of a document gave in a run, when the document was asked for or later. -/
def Scanned (start : Service) (acts : List Act) (d : Document) (lenses : Lenses) : Prop :=
  ∃ done rest, acts = done ++ rest ∧ (.provide d ∈ done ∨ rest.head? = some (.provide d)) ∧ d.isController = true ∧
    lenses = ((start.after done).provider.scan d).1

theorem Scanned.append {start : Service} {lenses : Lenses} (scanned : Scanned start acts d lenses)
    (more : List Act) : Scanned start (acts ++ more) d lenses := by
  obtain ⟨done, rest, rfl, asked, handled, same⟩ := scanned
  refine ⟨done, rest ++ more, List.append_assoc done rest more, asked.imp_right ?_, handled, same⟩
  intro first
  rw [List.head?_append, first]
  rfl

/-- What all that a provider keeps goes back to. -/
structure Sound (start : Service) (acts : List Act) : Prop where
  tidy : (start.after acts).provider.cache.Tidy
  records : ∀ uri r, (start.after acts).peek? uri = some r →
    ∃ d, d.uri = uri ∧ d.version = r.version ∧ Scanned start acts d r.value
  asked : ∀ (n : Nat) (scan : Scan), (start.after acts).scans[n]? = some scan →
    .provide scan.pending.document ∈ acts ∧ scan.pending.document.isController = true
  scans : ∀ (n : Nat) (pending : Pending) (lenses : Lenses),
    (start.after acts).scans[n]? = some { pending, lenses := some lenses } → Scanned start acts pending.document lenses

theorem Sound.perform {start : Service} (sound : Sound start acts) (act : Act) : Sound start (acts ++ [act]) := by
  have step := (start.after acts).step act
  rw [← after_concat] at step
  constructor
  · exact step.tidy sound.tidy
  · intro uri r held
    rcases step.records_from held with ⟨old, before, version, value⟩ | ⟨d, rfl, handled, same, version, value⟩ |
      ⟨n, pending, fired, same, version⟩
    · obtain ⟨d, same, of, scanned⟩ := sound.records uri old before
      exact ⟨d, same, of.trans version, value ▸ scanned.append [act]⟩
    · exact ⟨d, same, version, acts, [.provide d], rfl, .inr rfl, handled, value⟩
    · exact ⟨pending.document, same, version, (sound.scans n pending r.value fired).append [act]⟩
  · intro n scan held
    rcases step.scans_from held with before | ⟨rfl, handled, _⟩ | ⟨pending, before, rfl⟩
    · exact (sound.asked n scan before).imp_left (List.mem_append_left [act])
    · exact ⟨List.mem_append_right acts (List.mem_singleton_self _), handled⟩
    · exact (sound.asked n _ before).imp_left (List.mem_append_left [act])
  · intro n pending lenses held
    rcases step.scans_from held with before | ⟨_, _, unfired⟩ | ⟨waiting, before, same⟩
    · exact (sound.scans n pending lenses before).append [act]
    · cases unfired
    · cases same
      obtain ⟨asked, handled⟩ := sound.asked n _ before
      exact ⟨acts, [act], rfl, .inl asked, handled, rfl⟩

theorem sound {start : Service} (empty : start.provider.cache.records = []) (idle : start.scans = [])
    (acts : List Act) : Sound start acts := by
  induction acts using List.reverseRecOn with
  | nil =>
    constructor
    · rw [after, List.foldl_nil]
      exact ⟨empty ▸ List.nodup_nil, fun _ => empty ▸ Nat.zero_le _⟩
    · intro uri r held
      rw [after, List.foldl_nil, peek?, Cache.peek?, empty] at held
      cases held
    · intro n scan held
      rw [after, List.foldl_nil, idle] at held
      cases held
    · intro n pending lenses held
      rw [after, List.foldl_nil, idle] at held
      cases held
  | append_singleton acts act ih => exact ih.perform act

/-- A scan stays as it is, or is made once, of its document. -/
theorem scans_after (held : s.scans[n]? = some scan) (acts : List Act) :
    (s.after acts).scans[n]? = some scan ∨ ∃ done rest, acts = done ++ rest ∧
      (s.after acts).scans[n]? =
        some { scan with lenses := some ((s.after done).provider.scan scan.pending.document).1 } := by
  induction acts using List.reverseRecOn with
  | nil => exact .inl held
  | append_singleton acts act ih =>
    have step := (s.after acts).step act
    rw [← after_concat] at step
    rcases ih with waiting | ⟨done, rest, split, fired⟩
    · rcases step.scans_kept waiting with still | ⟨_, fires⟩
      · exact .inl still
      · exact .inr ⟨acts, [act], rfl, fires⟩
    · rcases step.scans_kept fired with still | ⟨again, _⟩
      · exact .inr ⟨done, rest ++ [act], by rw [split, List.append_assoc], still⟩
      · cases again

/-- The version held for a document does not decrease while its record is not lost. -/
theorem version_le_after (tidy : s.provider.cache.Tidy) (held : s.peek? uri = some r)
    (left : (s.after acts).peek? uri = some r') :
    r.version ≤ r'.version ∨ ∃ done act rest, acts = done ++ act :: rest ∧ (s.after done).Loses uri act := by
  induction acts generalizing s r with
  | nil =>
    rw [after, List.foldl_nil, held, Option.some.injEq] at left
    exact .inl (Int.le_of_eq (congrArg Record.version left))
  | cons act rest ih =>
    rcases loses_or_kept tidy held act with lost | ⟨next, still, newer⟩
    · exact .inr ⟨[], act, rest, rfl, lost⟩
    · rcases ih ((s.step act).tidy tidy) still left with newest | ⟨done, lossy, later, split, lost⟩
      · exact .inl (Int.le_trans newer newest)
      · exact .inr ⟨act :: done, lossy, later, by rw [split, List.cons_append], lost⟩

variable {start : Service} {lenses : Lenses} {standing : Option Lenses} {pending : Pending}

theorem Sound.ready (sound : Sound start acts) (handled : d.isController = true)
    (answer : ((start.after acts).provide d).1 = .ready lenses) :
    ∃ d', d'.uri = d.uri ∧ d'.version = d.version ∧ Scanned start (acts ++ [.provide d]) d' lenses := by
  have way := (start.after acts).provider.provided (start.after acts).now d
  change ((start.after acts).provider.provide (start.after acts).now d).1 = .ready lenses at answer
  rw [answer] at way
  generalize ((start.after acts).provider.provide (start.after acts).now d).2 = next at way
  cases way with
  | unhandled other =>
    rw [handled] at other
    cases other
  | held handled got same =>
    obtain ⟨old, held, _, rfl⟩ := Cache.get_eq_some got
    obtain ⟨d', uri, version, scanned⟩ := sound.records d.uri old held
    exact ⟨d', uri, version.trans same, scanned.append [.provide d]⟩
  | atOnce handled missed undelayed => exact ⟨d, rfl, rfl, acts, [.provide d], rfl, .inr rfl, handled, rfl⟩

/-- Only one way of providing lenses leaves a scan to a timer. -/
theorem provide_delayed (answer : (s.provide d).1 = .delayed standing pending) :
    (∀ r, (s.provider.cache.get s.now d.uri).1 = some r → r.version ≠ d.version) ∧
      standing = (s.provider.cache.get s.now d.uri).1.map Record.value ∧ pending.document = d ∧
        (s.provide d).2.provider.isWaiting pending = true := by
  have way := s.provider.provided s.now d
  change (s.provider.provide s.now d).1 = .delayed standing pending at answer
  change _ ∧ _ ∧ _ ∧ (s.provider.provide s.now d).2.isWaiting pending = true
  generalize s.provider.provide s.now d = result at way answer ⊢
  obtain ⟨given, next⟩ := result
  dsimp only at way answer
  cases way with
  | delayed handled missed delayed =>
    cases answer
    refine ⟨missed, rfl, rfl, ?_⟩
    exact Cache.isCurrent_iff.mpr (if_pos rfl)
  | unhandled other => cases answer
  | held handled got same => cases answer
  | atOnce handled missed undelayed => cases answer

theorem Sound.stale (sound : Sound start acts)
    (answer : ((start.after acts).provide d).1 = .delayed (some lenses) pending) :
    ∃ d', d'.uri = d.uri ∧ d'.version ≠ d.version ∧ Scanned start acts d' lenses := by
  obtain ⟨missed, stands, _, _⟩ := provide_delayed answer
  obtain ⟨r, got, rfl⟩ := Option.map_eq_some_iff.mp stands.symm
  have other := missed r got
  obtain ⟨old, held, _, rfl⟩ := Cache.get_eq_some got
  obtain ⟨d', uri, version, scanned⟩ := sound.records d.uri old held
  exact ⟨d', uri, version ▸ other, scanned⟩

theorem scans_of_delayed (answer : (s.provide d).1 = .delayed standing pending) :
    (s.provide d).2.scans[s.scans.length]? = some { pending } := by
  change (s.scans ++ (s.provide d).1.scans)[s.scans.length]? = some { pending }
  rw [answer]
  exact List.getElem?_concat_length

/-- The lenses delivered at the end of a delayed scan are of the document that was asked for. -/
theorem delivered_own (answer : (s.provide d).1 = .delayed standing pending)
    (delivered : (((s.provide d).2.after acts).finish s.scans.length).1 = some lenses) :
    ∃ done rest, acts = done ++ rest ∧ lenses = (((s.provide d).2.after done).provider.scan d).1 := by
  obtain ⟨_, _, rfl, _⟩ := provide_delayed answer
  have waiting := scans_of_delayed answer
  rcases finish_cases ((s.provide pending.document).2.after acts) s.scans.length with
    nothing | ⟨ended, made, fired, waits⟩
  · rw [nothing] at delivered
    cases delivered
  · rw [finish_of_waiting fired waits, Option.some.injEq] at delivered
    subst delivered
    rcases scans_after waiting acts with still | ⟨done, rest, split, once⟩
    · rw [still] at fired
      cases fired
    · rw [once] at fired
      cases fired
      exact ⟨done, rest, split, rfl⟩

/-- A delayed scan whose timer was left alone and has fired delivers at its end. -/
theorem delivered_of_calm (numbered : Numbered s) (answer : (s.provide d).1 = .delayed standing pending)
    (calm : ∀ act ∈ acts, ¬act.Disturbs d.uri) (fires : .fire s.scans.length ∈ acts)
    (unended : .finish s.scans.length ∉ acts) :
    (((s.provide d).2.after acts).finish s.scans.length).1.isSome := by
  obtain ⟨_, _, rfl, waits⟩ := provide_delayed answer
  have next : Numbered (s.provide pending.document).2 := (s.step (.provide pending.document)).numbered numbered
  obtain ⟨still, made, kept, fired⟩ := waits_after next (scans_of_delayed answer) waits calm unended
  obtain ⟨lenses, rfl⟩ := Option.isSome_iff_exists.mp (fired fires)
  rw [finish_of_waiting kept still]
  rfl

/-- What a provider can be relied on for in a run. -/
structure Own (start : Service) (acts : List Act) : Prop where
  /-- Lenses that are ready are of a document with the same identity and version. -/
  ready : ∀ {d : Document} {lenses : Lenses}, d.isController = true →
    ((start.after acts).provide d).1 = .ready lenses →
    ∃ d', d'.uri = d.uri ∧ d'.version = d.version ∧ Scanned start (acts ++ [.provide d]) d' lenses
  /-- Lenses that stand in are of another version of the document. -/
  stale : ∀ {d : Document} {lenses : Lenses} {pending : Pending},
    ((start.after acts).provide d).1 = .delayed (some lenses) pending →
    ∃ d', d'.uri = d.uri ∧ d'.version ≠ d.version ∧ Scanned start acts d' lenses
  /-- What is delivered later is a scan of the very document asked for, made since then. -/
  fresh : ∀ {before between : List Act} {d : Document} {stale : Option Lenses} {pending : Pending} {lenses : Lenses},
    acts = before ++ .provide d :: between →
    ((start.after before).provide d).1 = .delayed stale pending →
    ((start.after acts).finish (start.after before).scans.length).1 = some lenses →
    ∃ done rest, between = done ++ rest ∧
      lenses = ((start.after (before ++ .provide d :: done)).provider.scan d).1
  /-- It is delivered once its timer has fired, unless the document was asked for again or closed since. -/
  delivered : ∀ {before between : List Act} {d : Document} {stale : Option Lenses} {pending : Pending},
    acts = before ++ .provide d :: between → ((start.after before).provide d).1 = .delayed stale pending →
    (∀ act ∈ between, ¬act.Disturbs d.uri) → .fire (start.after before).scans.length ∈ between →
    .finish (start.after before).scans.length ∉ between →
    ((start.after acts).finish (start.after before).scans.length).1.isSome
  /-- The version held for a document decreases only if its record was lost in between. -/
  rising : ∀ {before between : List Act} {uri : Text} {r r' : Record Lenses}, acts = before ++ between →
    (start.after before).peek? uri = some r → (start.after acts).peek? uri = some r' →
    r.version ≤ r'.version ∨
      ∃ done act rest, between = done ++ act :: rest ∧ (start.after (before ++ done)).Loses uri act

/-- Whatever the order of acts and the limits of its cache, a provider gives each document its own lenses. -/
theorem gives_own (composer : Route.Composer) (capacity : Nat) (idleLimit : Option Nat) (delay now : Nat)
    (acts : List Act) :
    Own { provider := { composer, cache := .empty capacity idleLimit, delay }, now } acts := by
  have all : ∀ acts, Sound { provider := { composer, cache := .empty capacity idleLimit, delay }, now } acts :=
    sound rfl rfl
  have numbered : Numbered { provider := { composer, cache := .empty capacity idleLimit, delay }, now } :=
    ⟨List.nodup_nil, nofun⟩
  generalize { provider := { composer, cache := .empty capacity idleLimit, delay }, now : Service } = start at all numbered ⊢
  constructor
  · exact (all acts).ready
  · exact (all acts).stale
  · intro before between d stale pending lenses split answer delivered
    rw [split, after_append] at delivered
    obtain ⟨done, rest, later, same⟩ := delivered_own answer delivered
    exact ⟨done, rest, later, by rw [after_append]; exact same⟩
  · intro before between d stale pending split answer calm fires unended
    rw [split, after_append]
    exact delivered_of_calm (numbered_after numbered before) answer calm fires unended
  · intro before between uri r r' split held left
    rw [split, after_append] at left
    rcases version_le_after (all before).tidy held left with newer | ⟨done, act, rest, later, lost⟩
    · exact .inl newer
    · exact .inr ⟨done, act, rest, later, by rw [after_append]; exact lost⟩

/-- An older version that is asked for later is scanned and delivered, but not kept. -/
example :
    let document (version : Int) (verb : Text) : Document :=
      { uri := ['u'], file := "UsersController.cs".toList, version,
        text := "class UsersController\n[".toList ++ verb ++ "]\npublic int List() => 1;".toList }
    let start : Service :=
      { provider := { composer := { defaultVersion := ['1'] }, cache := .empty 1 none, delay := 5 }, now := 0 }
    let late := start.after [.provide (document 2 "HttpGet".toList), .fire 0, .finish 0,
      .provide (document 1 "HttpPut".toList), .fire 1]
    (late.finish 1).1.map (·.map (·.endpoint.method)) = some [.put] ∧
      ((late.finish 1).2.peek? ['u']).map (fun r => (r.version, r.value.map (·.endpoint.method))) =
        some (2, [.get]) := by
  decide

end EndpointConsole.Lens.Service
