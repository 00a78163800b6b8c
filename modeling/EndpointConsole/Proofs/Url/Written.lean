import EndpointConsole.Proofs.Url.Host
import EndpointConsole.Url

/-!
A URL that is read is sound (`parse?_sound`), and what a sound URL is written as reads back with its host, also
without the end of its path (`parse?_written`): neither user information nor port hold what ends the authority,
so that the host is found where it was written.
-/
namespace EndpointConsole.Url

/-- What may stand in the part that names user, host and port. -/
def inAuthority (c : Char) : Bool := 0x20 < c.toNat && !endsAuthority c

variable {c : Char} {s t : Text}

theorem inAuthority_of_plain (plain : isPlain c = true) : inAuthority c = true :=
  forall_plain (P := fun c => inAuthority c = true) (by decide) plain

theorem inAuthority_of_user (outside : inUserSet c = false) : inAuthority c = true := by
  have ascii : c.toNat < 0x80 := by
    simp only [inUserSet, inPathSet, inFragmentSet, isControl, Bool.or_eq_false_iff, decide_eq_false_iff_not] at outside
    omega
  exact Text.forall_ascii (P := fun c => inUserSet c = false → inAuthority c = true) (by decide) ascii outside

theorem not_isSlash_of_inAuthority (inside : inAuthority c = true) : isSlash c = false := by
  simp only [inAuthority, endsAuthority, Bool.and_eq_true, Bool.not_eq_true', Bool.or_eq_false_iff] at inside
  exact inside.2.1.1

theorem mem_encode_user (member : c ∈ encode inUserSet s) : inUserSet c = false := by
  obtain ⟨d, -, inside⟩ := List.mem_flatMap.mp member
  split at inside
  · obtain ⟨b, -, inside⟩ := List.mem_flatMap.mp inside
    have digit : ∀ n : Fin 16, inUserSet (Hex.upperDigit n) = false := by decide
    have small : b.toNat < 256 := b.toNat_lt
    rw [Hex.upperByte, List.mem_cons, List.mem_cons, List.mem_singleton] at inside
    rcases inside with rfl | rfl | rfl
    · decide
    · exact digit ⟨b.toNat / 16, by omega⟩
    · exact digit ⟨b.toNat % 16, by omega⟩
  · next outside =>
    rw [List.mem_singleton] at inside
    rw [inside]
    simpa using outside

/-- The port as it is written, after its colon. -/
def portText : Option Nat → Text
  | none => []
  | some n => ':' :: Nat.toDigits 10 n

def authority (u : Url) : Text := userText u ++ (hostText u.host ++ portText u.port)

/-- A text that is empty or begins with a slash. -/
def Rooted (t : Text) : Prop := t = [] ∨ ∃ rest, t = '/' :: rest

theorem text_eq (u : Url) : ∃ rest, u.text = u.scheme ++ "://".toList ++ (u.authority ++ '/' :: rest) := by
  obtain ⟨scheme, username, password, host, port, path, query, fragment⟩ := u
  cases port <;> simp [text, authority, portText]

def IsWeb (scheme : Text) : Prop := scheme = "http".toList ∨ scheme = "https".toList

/-- What a URL holds that was read. -/
structure Sound (u : Url) : Prop where
  scheme : IsWeb u.scheme
  username : ∀ c ∈ u.username, inUserSet c = false
  password : ∀ c ∈ u.password, inUserSet c = false
  port : ∀ n, u.port = some n → n ≤ 65535
  address : ∀ a, u.host = .ipv4 a → a < 2 ^ 32

theorem splitUser_of_not_mem (absent : '@' ∉ s) : splitUser s = ([], s) := by
  rw [splitUser, Text.cutAt?_of_not_mem (by simpa using absent)]

theorem splitUser_append (absent : '@' ∉ s) (user : Text) : splitUser (user ++ '@' :: s) = (user, s) := by
  have reversed : (user ++ '@' :: s).reverse = s.reverse ++ '@' :: user.reverse := by simp
  rw [splitUser, reversed, Text.cutAt?_append (by simpa using absent)]
  simp

theorem userText_cases (u : Url) : userText u = [] ∨
    ∃ user, userText u = user ++ ['@'] ∧ ∀ c ∈ user, c ∈ u.username ∨ c ∈ u.password ∨ c = ':' := by
  unfold userText
  split
  · exact .inl rfl
  · refine .inr ⟨_, rfl, ?_⟩
    intro c member
    rw [List.mem_append] at member
    rcases member with name | secret
    · exact .inl name
    · split at secret
      · cases secret
      · rcases List.mem_cons.mp secret with rfl | secret
        · exact .inr (.inr rfl)
        · exact .inr (.inl secret)

/-- The host as it is written holds no more than small letters, digits and dots. -/
theorem Host.Written.plain {h : Host} (written : h.Written) : hostText h ≠ [] ∧ ∀ c ∈ hostText h, isPlain c = true := by
  cases written with
  | domain filled plain => exact ⟨filled, plain⟩
  | @ipv4 address small =>
    refine ⟨?_, ipv4Text_plain address⟩
    intro empty
    have read := ipv4?_ipv4Text small
    rw [show ipv4Text address = [] from empty] at read
    cases read

/-- A host without marks goes on to what ends it. -/
theorem splitHost_append (plain : ∀ c ∈ s, isPlain c = true) (rest : Text) :
    splitHost false (s ++ rest) = (s ++ (splitHost false rest).1, (splitHost false rest).2) := by
  induction s with
  | nil => rfl
  | cons c more ih =>
    rw [List.forall_mem_cons] at plain
    have marks : c ≠ ':' ∧ c ≠ '[' ∧ c ≠ ']' :=
      forall_plain (P := fun c => c ≠ ':' ∧ c ≠ '[' ∧ c ≠ ']') (by decide) plain.1
    simp [splitHost, marks, ih plain.2]

theorem port?_le {scheme : Text} {digits : Option Text} {n : Nat} (read : port? scheme digits = some (some n)) :
    n ≤ 65535 := by
  unfold port? at read
  split at read
  · cases read
  split at read
  · cases read
  split at read
  · split at read
    · cases read
    · split at read
      · cases read
      · next small =>
        rw [Option.some.injEq, Option.ite_none_left_eq_some] at read
        cases read.2
        omega
  · cases read

theorem port?_toDigits (scheme : Text) {n : Nat} (small : n ≤ 65535) :
    ∃ port, port? scheme (some (Nat.toDigits 10 n)) = some port := by
  have filled : Nat.toDigits 10 n ≠ [] := Nat.toDigits_ne_nil
  have digits : (Nat.toDigits 10 n).all Char.isDigit = true :=
    List.all_eq_true.mpr fun c member => isDigit_of_mem_toDigits member
  have few : ¬65535 < n := Nat.not_lt_of_le small
  simp [port?, filled, digits, digitsValue?_toDigits, few]

theorem splitHost_written (scheme : Text) {h : Host} (written : h.Written) {port : Option Nat}
    (small : ∀ n, port = some n → n ≤ 65535) :
    ∃ digits, splitHost false (hostText h ++ portText port) = (hostText h, digits) ∧
      ∃ port', port? scheme digits = some port' := by
  rw [splitHost_append written.plain.2]
  cases port with
  | none => exact ⟨none, by simp [portText, splitHost], none, rfl⟩
  | some n => exact ⟨_, by simp [portText, splitHost], port?_toDigits scheme (small n rfl)⟩

theorem host?_hostText {toAscii? : Text → Option Text} (keeps : KeepsPlain toAscii?) {h : Host} (written : h.Written) :
    host? toAscii? (hostText h) = some h := by
  obtain ⟨filled, plain⟩ := written.plain
  rw [host?_of_plain keeps filled plain]
  cases written with
  | domain _ _ named => rw [if_neg (by simpa [hostText] using named), hostText]
  | @ipv4 address small =>
    rw [hostText, if_pos (endsInNumber_ipv4Text address), ipv4?_ipv4Text small]
    rfl

theorem address_of_host? {toAscii? : Text → Option Text} {a : Nat} (read : host? toAscii? s = some (.ipv4 a)) :
    a < 2 ^ 32 := by
  unfold host? at read
  split at read
  · cases read
  · split at read <;> cases read
  · obtain ⟨name, -, read⟩ := Option.bind_eq_some_iff.mp read
    split at read
    · obtain ⟨b, value, same⟩ := Option.map_eq_some_iff.mp read
      cases same
      exact ipv4?_lt value
    · cases read

theorem authority_inside {u : Url} (sound : u.Sound) (written : u.host.Written) :
    ∀ c ∈ u.authority, inAuthority c = true := by
  intro c member
  rw [authority, List.mem_append, List.mem_append] at member
  rcases member with user | host | port
  · rcases userText_cases u with none | ⟨user', user_text, parts⟩
    · rw [none] at user
      cases user
    · rw [user_text, List.mem_append, List.mem_singleton] at user
      rcases user with among | rfl
      · rcases parts c among with name | secret | rfl
        · exact inAuthority_of_user (sound.username c name)
        · exact inAuthority_of_user (sound.password c secret)
        · decide
      · decide
  · exact inAuthority_of_plain (written.plain.2 c host)
  · cases number : u.port with
    | none =>
      rw [number] at port
      cases port
    | some n =>
      rw [number] at port
      rcases List.mem_cons.mp port with rfl | digit
      · decide
      · apply inAuthority_of_plain
        rw [isPlain, isDigit_of_mem_toDigits digit]
        simp

theorem place_no_at {u : Url} (written : u.host.Written) : '@' ∉ hostText u.host ++ portText u.port := by
  rw [List.mem_append, not_or]
  constructor
  · intro host
    exact absurd (written.plain.2 '@' host) (by decide)
  · cases u.port with
    | none => exact List.not_mem_nil
    | some n =>
      rw [portText, List.mem_cons, not_or]
      exact ⟨by decide, fun digit => absurd (isDigit_of_mem_toDigits digit) (by decide)⟩

theorem splitUser_authority {u : Url} (written : u.host.Written) :
    (splitUser u.authority).2 = hostText u.host ++ portText u.port := by
  have absent := place_no_at written
  rcases userText_cases u with none | ⟨user, user_text, -⟩
  · rw [authority, none, List.nil_append, splitUser_of_not_mem absent]
  · rw [authority, user_text, List.append_assoc, List.singleton_append, splitUser_append absent]

theorem authority_ne_nil {u : Url} (written : u.host.Written) : u.authority ≠ [] := by
  simp [authority, written.plain.1]

/-- The part of a text that names user, host and port, after any slashes. -/
def authorityOf (s : Text) : Text := (s.dropWhile isSlash).takeWhile fun c => !endsAuthority c

/-- Host and port of a text, as it gives them. -/
def placeOf (s : Text) : Text × Option Text := splitHost false (splitUser (authorityOf s)).2

theorem authorityOf_append (inside : ∀ c ∈ s, inAuthority c = true) (filled : s ≠ []) (rooted : Rooted t) :
    authorityOf (s ++ t) = s := by
  obtain ⟨c, more, rfl⟩ := List.exists_cons_of_ne_nil filled
  have first : isSlash c = false := not_isSlash_of_inAuthority (inside c List.mem_cons_self)
  have kept : ∀ d ∈ c :: more, (!endsAuthority d) = true := by
    intro d among
    have stands := inside d among
    rw [inAuthority, Bool.and_eq_true] at stands
    exact stands.2
  have stop : t.takeWhile (fun d => !endsAuthority d) = [] := by
    rcases rooted with rfl | ⟨rest, rfl⟩ <;> rfl
  rw [authorityOf, List.cons_append, List.dropWhile_cons_of_neg (by simp [first]), ← List.cons_append,
    List.takeWhile_append_of_pos kept, stop, List.append_nil]

/-- What a URL has from the text that follows its scheme. -/
structure From (toAscii? : Text → Option Text) (scheme rest : Text) (u : Url) : Prop where
  same : u.scheme = scheme
  host : host? toAscii? (placeOf rest).1 = some u.host
  port : port? scheme (placeOf rest).2 = some u.port
  username : ∃ name, u.username = encode inUserSet name
  password : ∃ secret, u.password = encode inUserSet secret

variable {toAscii? : Text → Option Text} {scheme rest : Text} {u : Url}

theorem from_of_afterScheme? (read : afterScheme? toAscii? scheme rest = some u) : From toAscii? scheme rest u := by
  simp only [afterScheme?, bind, pure, Option.bind_eq_some_iff, Option.some.injEq] at read
  obtain ⟨host, host_read, port, port_read, rfl⟩ := read
  exact ⟨rfl, host_read, port_read, ⟨_, rfl⟩, ⟨_, rfl⟩⟩

theorem exists_afterScheme? {h : Host} {port : Option Nat} (host_read : host? toAscii? (placeOf rest).1 = some h)
    (port_read : port? scheme (placeOf rest).2 = some port) :
    ∃ u, afterScheme? toAscii? scheme rest = some u ∧ u.host = h := by
  simp only [placeOf, authorityOf] at host_read port_read
  simp [afterScheme?, host_read, port_read]

theorem From.sound (read : From toAscii? scheme rest u) (web : IsWeb scheme) : u.Sound where
  scheme := read.same ▸ web
  username := by
    intro c member
    obtain ⟨name, same⟩ := read.username
    exact mem_encode_user (same ▸ member)
  password := by
    intro c member
    obtain ⟨secret, same⟩ := read.password
    exact mem_encode_user (same ▸ member)
  port := by
    intro n number
    exact port?_le (number ▸ read.port)
  address := by
    intro a address
    exact address_of_host? (address ▸ read.host)

/-- A text as a URL that it ends goes on with it. -/
def cleanEnd (s : Text) : Text :=
  (Text.dropEndWhile (·.toNat ≤ 0x20) s).filter fun c => c ≠ '\t' ∧ c ≠ '\n' ∧ c ≠ '\r'

theorem cleanEnd_append (printable : ∀ c ∈ s, 0x20 < c.toNat) (t : Text) : cleanEnd (s ++ t) = s ++ cleanEnd t := by
  have kept : s.filter (fun c => c ≠ '\t' ∧ c ≠ '\n' ∧ c ≠ '\r') = s := by
    rw [List.filter_eq_self]
    intro c among
    have large := printable c among
    rw [decide_eq_true_eq]
    refine ⟨?_, ?_, ?_⟩ <;>
    · rintro rfl
      exact absurd large (by decide)
  rcases s.eq_nil_or_concat' with rfl | ⟨front, c, rfl⟩
  · rfl
  · have solid : decide (c.toNat ≤ 0x20) = false := by simpa using printable c (by simp)
    have ends := Text.dropEndWhile_append (p := (·.toNat ≤ 0x20)) solid front t
    rw [cleanEnd, List.append_assoc, List.singleton_append, ends, ← List.singleton_append, ← List.append_assoc,
      List.filter_append, kept]
    rfl

theorem clean_append (printable : ∀ c ∈ s, 0x20 < c.toNat) (filled : s ≠ []) (t : Text) :
    clean (s ++ t) = s ++ cleanEnd t := by
  rw [← cleanEnd_append printable]
  obtain ⟨c, more, rfl⟩ := List.exists_cons_of_ne_nil filled
  have first : 0x20 < c.toNat := printable c List.mem_cons_self
  rw [clean, List.cons_append, List.dropWhile_cons_of_neg (by simpa using first)]
  rfl

theorem cleanEnd_rooted (rooted : Rooted t) : Rooted (cleanEnd t) := by
  rcases rooted with rfl | ⟨rest, rfl⟩
  · exact .inl rfl
  · refine .inr ⟨cleanEnd rest, ?_⟩
    rw [← List.singleton_append, cleanEnd_append (List.forall_mem_singleton.mpr (by decide)), List.singleton_append]

theorem printable_of_all (all : (s.all fun c => 0x20 < c.toNat) = true) : ∀ c ∈ s, 0x20 < c.toNat := by
  intro c among
  exact of_decide_eq_true (List.all_eq_true.mp all c among)

theorem parse?_eq (web : IsWeb scheme) (rest : Text) : parse? toAscii? (scheme ++ "://".toList ++ rest) =
    afterScheme? toAscii? scheme ("//".toList ++ cleanEnd rest) := by
  rcases web with rfl | rfl
  · rw [parse?, clean_append (printable_of_all (by decide)) (by decide)]
    rfl
  · rw [parse?, clean_append (printable_of_all (by decide)) (by decide)]
    rfl

theorem placeOf_slashes (s : Text) : placeOf ("//".toList ++ s) = placeOf s := rfl

/-- A URL that is read is sound. -/
theorem parse?_sound (web : IsWeb scheme) (read : parse? toAscii? (scheme ++ "://".toList ++ rest) = some u) :
    u.Sound ∧ u.scheme = scheme := by
  rw [parse?_eq web] at read
  have origin := from_of_afterScheme? read
  exact ⟨origin.sound web, origin.same⟩

/-- A sound URL reads back with its host, however its path goes on. -/
theorem parse?_written (keeps : KeepsPlain toAscii?) (sound : u.Sound) (written : u.host.Written) (rooted : Rooted t) :
    ∃ v, parse? toAscii? (u.scheme ++ "://".toList ++ (u.authority ++ t)) = some v ∧ v.host = u.host := by
  have inside := authority_inside sound written
  have printable : ∀ c ∈ u.authority, 0x20 < c.toNat := by
    intro c among
    have stands := inside c among
    rw [inAuthority, Bool.and_eq_true, decide_eq_true_eq] at stands
    exact stands.1
  obtain ⟨digits, cut, port, port_read⟩ := splitHost_written u.scheme written sound.port
  -- user information ends at the last at sign, which host and port do not hold
  have place : placeOf ("//".toList ++ (u.authority ++ cleanEnd t)) = (hostText u.host, digits) := by
    rw [placeOf_slashes, placeOf, authorityOf_append inside (authority_ne_nil written) (cleanEnd_rooted rooted),
      splitUser_authority written, cut]
  have host_read := host?_hostText keeps written
  rw [parse?_eq sound.scheme, cleanEnd_append printable]
  exact exists_afterScheme? (by rwa [place]) (by rwa [place])

end EndpointConsole.Url
