import EndpointConsole.Proofs.Encoding.Utf8
import EndpointConsole.Proofs.Json.Indented
import EndpointConsole.Proofs.Json.Nesting
import EndpointConsole.Server

/-!
The output of a server, which the loop over its lines and the threads of its timers share. Each of
them sends messages on one channel, a writer takes them from it one after the other and writes each
as a line, at any pace (`Run`). Whatever the order, what was written falls into lines that read as
the messages in the order of the channel (`Run.framed`): the text of a value holds no line feed, and
reading it gives back the value.
-/
namespace EndpointConsole.Server.Output

open Json (depth maxDepth OnlyIntegers DistinctNames)

/-- Who sends messages. -/
inductive Sender where
  | commandLoop
  /-- A thread that waits for the timer of a scan. -/
  | refresh (number : Nat)
  deriving DecidableEq

structure Pipe where
  /-- The messages on the channel. -/
  queue : List Json := []
  /-- What is left of the message that is being written. -/
  left : List UInt8 := []
  output : List UInt8 := []

inductive Event where
  | sent (sender : Sender) (m : Json)
  /-- The writer takes a message. -/
  | taken
  /-- So many bytes of it are written at most. -/
  | wrote (count : Nat)

/-- A message as it is written. -/
def frame (m : Json) : List UInt8 := Utf8.encode (written [m])

/-- What may happen to the output. -/
inductive Run : List Event → Pipe → Prop where
  | start : Run [] {}
  | send {es : List Event} {p : Pipe} (run : Run es p) (sender : Sender) (m : Json) :
      Run (es ++ [.sent sender m]) { p with queue := p.queue ++ [m] }
  | take {es : List Event} {m : Json} {queue : List Json} {output : List UInt8}
      (run : Run es ⟨m :: queue, [], output⟩) :
      Run (es ++ [.taken]) ⟨queue, frame m, output⟩
  | write {es : List Event} {p : Pipe} (run : Run es p) (count : Nat) :
      Run (es ++ [.wrote count]) { p with left := p.left.drop count, output := p.output ++ p.left.take count }

/-- The messages that were sent, in the order of the channel. -/
def sent (es : List Event) : List Json :=
  es.filterMap fun
    | .sent _ m => some m
    | .taken | .wrote _ => none

/-- The messages of one sender, in its own order. -/
def sentBy (sender : Sender) (es : List Event) : List Json :=
  es.filterMap fun
    | .sent other m => if other = sender then some m else none
    | .taken | .wrote _ => none

/-- A message that JSON text can hold: with integers for numbers and no deeper than is read back. -/
structure Sendable (m : Json) : Prop where
  nested : depth m ≤ maxDepth
  integers : OnlyIntegers m
  distinct : DistinctNames m

def Pipe.Idle (p : Pipe) : Prop := p.queue = [] ∧ p.left = []

def lineFeed : UInt8 := 10

/-- Reads a line of the output. -/
def read? (line : List UInt8) : Option Json := (Utf8.decode? line).bind Json.parse?

variable {es : List Event} {p : Pipe} {m : Json} {done : List Json} {part : List UInt8}

theorem ofNat_eq_lineFeed_iff {n : Nat} (small : n < 256) : lineFeed = UInt8.ofNat n ↔ n = 10 := by
  have feed : lineFeed.toNat = 10 := rfl
  rw [← UInt8.toNat_inj, feed, UInt8.toNat_ofNat', Nat.mod_eq_of_lt small, eq_comm]

/-- No other character has the byte of a line feed in it. -/
theorem lineFeed_not_mem_encode {s : Text} (absent : '\n' ∉ s) : lineFeed ∉ Utf8.encode s := by
  intro among
  obtain ⟨c, member, byte⟩ := List.mem_flatMap.mp among
  have bound : c.toNat < 0x110000 := (Utf8.toNat_scalar c).elim (by omega) (·.2)
  rw [Utf8.encodeChar_eq] at byte
  split at byte
  · rw [List.mem_singleton, ofNat_eq_lineFeed_iff (by omega)] at byte
    have feed : c = '\n' := Char.toNat_inj.mp byte
    exact absent (feed ▸ member)
  · split at byte
    · simp only [List.mem_cons, List.not_mem_nil, or_false] at byte
      rw [ofNat_eq_lineFeed_iff (by omega), ofNat_eq_lineFeed_iff (by omega)] at byte
      omega
    · split at byte
      · simp only [List.mem_cons, List.not_mem_nil, or_false] at byte
        rw [ofNat_eq_lineFeed_iff (by omega), ofNat_eq_lineFeed_iff (by omega),
          ofNat_eq_lineFeed_iff (by omega)] at byte
        omega
      · simp only [List.mem_cons, List.not_mem_nil, or_false] at byte
        rw [ofNat_eq_lineFeed_iff (by omega), ofNat_eq_lineFeed_iff (by omega), ofNat_eq_lineFeed_iff (by omega),
          ofNat_eq_lineFeed_iff (by omega)] at byte
        omega

theorem frame_eq (m : Json) : frame m = Utf8.encode m.compact ++ [lineFeed] := by
  rw [frame, written, List.flatMap_singleton, Utf8.encode, List.flatMap_append]
  rfl

theorem encode_written (messages : List Json) : Utf8.encode (written messages) = messages.flatMap frame := by
  have one (m : Json) : frame m = Utf8.encode (m.compact ++ ['\n']) := by rw [frame, written, List.flatMap_singleton]
  simp only [written, Utf8.encode, List.flatMap_assoc, funext one]

/-- Messages fall into their lines, with what is unfinished behind them. -/
theorem splitOn_frames {messages : List Json} (integers : ∀ m ∈ messages, OnlyIntegers m)
    (unfinished : lineFeed ∉ part) :
    Text.splitOn lineFeed (messages.flatMap frame ++ part) = messages.map (Utf8.encode ·.compact) ++ [part] := by
  induction messages with
  | nil => exact Text.splitOn_of_not_mem unfinished
  | cons m rest ih =>
    rw [List.forall_mem_cons] at integers
    have whole := lineFeed_not_mem_encode (Json.newline_not_mem_compact integers.1)
    rw [List.flatMap_cons, frame_eq, List.append_assoc, List.append_assoc, List.singleton_append,
      Text.splitOn_append whole, ih integers.2]
    rfl

theorem read?_compact (sendable : Sendable m) : read? (Utf8.encode m.compact) = some m := by
  rw [read?, Utf8.decode?_encode, Option.bind_some]
  exact Json.parse?_compact (Json.faithful_of_depth_le sendable.nested sendable.integers sendable.distinct)

/-- Where the writer is: some messages are done, and of another one a part at most. -/
inductive Stage (messages : List Json) (p : Pipe) : List Json → List UInt8 → Prop where
  | between {done : List Json} (sent : messages = done ++ p.queue) (left : p.left = [])
      (output : p.output = done.flatMap frame) : Stage messages p done []
  | within {done : List Json} {m : Json} {part : List UInt8} (sent : messages = done ++ m :: p.queue)
      (left : p.left ≠ []) (begun : part ++ p.left = frame m) (output : p.output = done.flatMap frame ++ part) :
      Stage messages p done part

/-- The writer goes through the messages in the order of the channel. -/
theorem Run.stage (run : Run es p) : ∃ done part, Stage (sent es) p done part := by
  induction run with
  | start => exact ⟨[], [], .between rfl rfl rfl⟩
  | @send es p _ sender m stage =>
    obtain ⟨done, part, stage⟩ := stage
    have more : sent (es ++ [.sent sender m]) = sent es ++ [m] := by simp [sent]
    rw [more]
    refine ⟨done, part, ?_⟩
    cases stage with
    | between sent left output => exact .between (by rw [sent, List.append_assoc]) left output
    | within sent left begun output =>
      exact .within (by rw [sent, List.append_assoc, List.cons_append]) left begun output
  | @take es m queue output _ stage =>
    obtain ⟨done, part, stage⟩ := stage
    have same : sent (es ++ [.taken]) = sent es := by simp [sent]
    rw [same]
    cases stage with
    | between sent _ output =>
      exact ⟨done, [], .within sent (by simp [frame_eq]) rfl (by rw [output, List.append_nil])⟩
    | within _ left => exact absurd rfl left
  | @write es p _ count stage =>
    obtain ⟨done, part, stage⟩ := stage
    have same : sent (es ++ [.wrote count]) = sent es := by simp [sent]
    rw [same]
    cases stage with
    | between sent left output =>
      refine ⟨done, [], .between sent ?_ ?_⟩
      · rw [left, List.drop_nil]
      · rw [left, List.take_nil, List.append_nil, output]
    | @within m part sent left begun output =>
      by_cases rest : p.left.drop count = []
      · have all : p.left.take count = p.left := by
          rw [← List.append_nil (p.left.take count), ← rest, List.take_append_drop]
        refine ⟨done ++ [m], [], .between ?_ rest ?_⟩
        · rw [sent, List.append_assoc, List.singleton_append]
        · rw [all, output, List.append_assoc, begun, List.flatMap_append, List.flatMap_singleton]
      · refine ⟨done, part ++ p.left.take count, .within sent rest ?_ ?_⟩
        · rw [List.append_assoc, List.take_append_drop, begun]
        · rw [output, List.append_assoc]

theorem Stage.isPrefix {messages : List Json} (stage : Stage messages p done part) : done <+: messages := by
  cases stage with
  | between sent => exact ⟨_, sent.symm⟩
  | within sent => exact ⟨_, sent.symm⟩

theorem Stage.output_eq {messages : List Json} (stage : Stage messages p done part) :
    p.output = done.flatMap frame ++ part := by
  cases stage with
  | between _ _ output => rw [output, List.append_nil]
  | within _ _ _ output => exact output

theorem Stage.of_idle {messages : List Json} (stage : Stage messages p done part) (idle : p.Idle) :
    p.output = messages.flatMap frame := by
  cases stage with
  | between sent _ output => rw [output, sent, idle.1, List.append_nil]
  | within _ left => exact absurd idle.2 left

/-- What is written of a message before its end holds no line feed. -/
theorem Stage.unfinished {messages : List Json} (stage : Stage messages p done part)
    (integers : ∀ m ∈ messages, OnlyIntegers m) : lineFeed ∉ part := by
  cases stage with
  | between => exact List.not_mem_nil
  | @within m _ sent left begun _ =>
    have among : m ∈ messages := by rw [sent]; exact List.mem_append_right _ List.mem_cons_self
    rw [frame_eq] at begun
    obtain ⟨front, last, same⟩ := List.eq_nil_or_concat p.left |>.resolve_left left
    rw [same, List.concat_eq_append, ← List.append_assoc] at begun
    obtain ⟨whole, _⟩ := List.append_inj' begun rfl
    intro member
    have inside : lineFeed ∈ Utf8.encode m.compact := whole ▸ List.mem_append_left _ member
    exact lineFeed_not_mem_encode (Json.newline_not_mem_compact (integers m among)) inside

/-- The writer can always finish. -/
theorem Run.drains (run : Run es p) : ∃ more last, Run (es ++ more) last ∧ sent more = [] ∧ last.Idle := by
  obtain ⟨queue, left, output⟩ := p
  induction queue generalizing es left output with
  | nil =>
    refine ⟨[.wrote left.length], _, run.write left.length, rfl, rfl, List.drop_length⟩
  | cons m rest ih =>
    have written := run.write left.length
    rw [List.drop_length, List.take_length] at written
    obtain ⟨more, last, run, quiet, idle⟩ := ih _ _ written.take
    exact ⟨.wrote left.length :: .taken :: more, last, by simpa using run, by simpa [sent] using quiet, idle⟩

/-- What was written so far falls into lines and what is unfinished of another. The lines read as the
    first messages on the channel; once the writer has nothing to do they read as all of them, each
    sender's in its own order, and nothing is unfinished. It can always get there. -/
structure Framed (es : List Event) (p : Pipe) : Prop where
  lines : ∃ done lines unfinished, done <+: sent es ∧ Text.splitOn lineFeed p.output = lines ++ [unfinished] ∧
    lines.map read? = done.map some
  whole : p.Idle → ∃ lines, Text.splitOn lineFeed p.output = lines ++ [[]] ∧ lines.map read? = (sent es).map some
  written : p.Idle → p.output = Utf8.encode (written (sent es))
  ordered : ∀ sender, (sentBy sender es).Sublist (sent es)
  drains : ∃ more last, Run (es ++ more) last ∧ sent more = [] ∧ last.Idle

theorem map_read? {messages : List Json} (sendable : ∀ m ∈ messages, Sendable m) :
    (messages.map (Utf8.encode ·.compact)).map read? = messages.map some := by
  rw [List.map_map]
  exact List.map_congr_left fun m among => read?_compact (sendable m among)

theorem sentBy_sublist (sender : Sender) (es : List Event) : (sentBy sender es).Sublist (sent es) := by
  induction es with
  | nil => exact .slnil
  | cons e rest ih =>
    cases e with
    | sent other m =>
      by_cases same : other = sender
      · simpa [sentBy, sent, same] using ih
      · simpa [sentBy, sent, same] using ih.cons m
    | taken | wrote => simpa [sentBy, sent] using ih

/-- Whatever the order in which messages are sent and however they are written, they are read back. -/
theorem Run.framed (run : Run es p) (sendable : ∀ m ∈ sent es, Sendable m) : Framed es p := by
  have integers (m : Json) (among : m ∈ sent es) : OnlyIntegers m := (sendable m among).integers
  obtain ⟨done, part, stage⟩ := run.stage
  have start : ∀ m ∈ done, m ∈ sent es := fun m among => stage.isPrefix.subset among
  constructor
  · refine ⟨done, _, part, stage.isPrefix, ?_, map_read? fun m among => sendable m (start m among)⟩
    rw [stage.output_eq, splitOn_frames (fun m among => integers m (start m among)) (stage.unfinished integers)]
  · intro idle
    refine ⟨_, ?_, map_read? sendable⟩
    have split := splitOn_frames integers (List.not_mem_nil (a := lineFeed))
    rwa [List.append_nil, ← stage.of_idle idle] at split
  · intro idle
    rw [stage.of_idle idle, encode_written]
  · exact fun sender => sentBy_sublist sender es
  · exact run.drains

theorem sendable_errorMessage (text : Text) : Sendable (errorMessage text) where
  nested := by simp [errorMessage, message, depth, Json.depthOfMembers, maxDepth]
  integers := by simp [errorMessage, message, Json.onlyIntegers_object, Json.onlyIntegers_string]
  distinct := by simp [errorMessage, message, Json.distinctNames_object, Json.distinctNames_string]

theorem sendable_empty : Sendable (.array []) where
  nested := by decide
  integers := Json.onlyIntegers_array.mpr (by simp)
  distinct := Json.distinctNames_array.mpr (by simp)

/-- An error with a line feed in it, and a message that a timer sends while the error is being written. -/
theorem framed_interleaved :
    ∃ es p, Run es p ∧ sent es = [errorMessage "a\nb".toList, .array []] ∧ (∀ m ∈ sent es, Sendable m) ∧ p.Idle ∧
      Framed es p := by
  have begun := (Run.start.send .commandLoop (errorMessage "a\nb".toList)).take.write 5
  have run := (((begun.send (.refresh 0) (.array [])).write 1000).take).write 1000
  have sendable : ∀ m ∈ [errorMessage "a\nb".toList, .array []], Sendable m := by
    simp [sendable_errorMessage, sendable_empty]
  exact ⟨_, _, run, rfl, sendable, ⟨rfl, by decide +kernel⟩, run.framed sendable⟩

end EndpointConsole.Server.Output
