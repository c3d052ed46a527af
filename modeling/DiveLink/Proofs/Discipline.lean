import DiveLink.Proofs.Windows
import DiveLink.Session

set_option autoImplicit false

namespace DiveLink

/-- Commands that were answered in full, one after the other, and what was told of that. -/
inductive Settled (listener : Option String) : List Act → Prop
  | nil : Settled listener []
  | quiet {seen : List Act} {act : Act} (before : Settled listener seen)
    (quiet : act.isQuiet = true) : Settled listener (seen ++ [act])
  | answered {seen : List Act} {command : Command} {code : UInt8} {payload : Bytes}
    (before : Settled listener seen) (short : command.isBulk = false)
    (fit : payload.length ≤ Packet.maxPayload) :
    Settled listener (seen ++ Exchange.askActs command (Packet.wire code payload))
  | transferred {seen : List Act} {command : Command} {start : Progress} {code : UInt8}
    {payload data bs : Bytes} (before : Settled listener seen) (bulk : command.isBulk = true)
    (fit : payload.length ≤ Packet.maxPayload) (carries : Bulk.Carries data bs) :
    Settled listener
      (seen ++ Exchange.askBulkActs listener command start (Packet.wire code payload) data bs)

/-- A window that begins with a whole and sound answer packet. -/
def Answered (window : List Act) : Prop :=
  ∃ code payload later, payload.length ≤ Packet.maxPayload ∧
    window = Exchange.packetActs (Packet.wire code payload) ++ later

/-- What may be done next. The current window is what the last command has led to. -/
inductive Allowed (listener : Option String) (seen : List Act) : Act → Prop
  | quiet {act : Act} (quiet : act.isQuiet = true) : Allowed listener seen act
  | pause (settled : Settled listener seen) : Allowed listener seen (.paused 100)
  /-- A command, right after its pause of 100 ms, when all earlier ones are settled. -/
  | command {before : List Act} {command : Command} {taken : Nat} {failed : Bool}
    (settled : Settled listener before) (last : seen = before ++ [.paused 100]) :
    Allowed listener seen (.sent command.wire taken failed)
  | header {before : List Act} {command : Command} {bs : Bytes} {failed : Bool}
    (last : seen = before ++ [.sent command.wire command.wire.length false]) :
    Allowed listener seen (.received Packet.headerLength bs failed)
  /-- The rest of a packet, as long as its header announces. -/
  | rest {before : List Act} {header bs : Bytes} {length : Nat} {failed : Bool}
    (last : seen = before ++ [.received Packet.headerLength header false])
    (announced : Packet.payloadLength header = .ok length) :
    Allowed listener seen
      (.received (length + (Packet.overhead - Packet.headerLength)) bs failed)
  /-- A chunk, once all chunks before it are acknowledged. -/
  | chunk {bs : Bytes} {failed : Bool} (answered : Answered (Act.current seen))
    (acknowledged : (Act.said (Act.current seen)).length = (Act.chunks (Act.current seen)).length) :
    Allowed listener seen (.received Chunk.length bs failed)
  /-- The end byte, once as many chunks as were announced are acknowledged. -/
  | ending {bs : Bytes} {failed : Bool}
    (acknowledged : (Act.said (Act.current seen)).length = (Act.chunks (Act.current seen)).length)
    (all : (Act.chunks (Act.current seen)).length = Bulk.due (Act.chunks (Act.current seen))) :
    Allowed listener seen (.received 1 bs failed)
  /-- The acknowledgement of a sound chunk, right behind it. -/
  | acknowledge {before : List Act} {chunk : Bytes} {taken : Nat} {failed : Bool}
    (sound : Chunk.Sound chunk) (last : seen = before ++ [.received Chunk.length chunk false]) :
    Allowed listener seen (.sent [Chunk.acknowledgement] taken failed)
  | acknowledgeEnd {before : List Act} {taken : Nat} {failed : Bool}
    (last : seen = before ++ [.received 1 [Chunk.endByte] false]) :
    Allowed listener seen (.sent [Chunk.acknowledgement] taken failed)

/-- No more is acknowledged than sound chunks and the end byte. -/
def Balanced (window : List Act) : Prop :=
  (Act.said window).length ≤ (Act.chunks window).countP (Chunk.Sound ·) +
    if .received 1 [Chunk.endByte] false ∈ window then 1 else 0

/-- Each act was allowed when it was done, and left the balance kept. -/
inductive Disciplined (listener : Option String) : List Act → Prop
  | nil : Disciplined listener []
  | next {seen : List Act} {act : Act} (before : Disciplined listener seen)
    (allowed : Allowed listener seen act) (balanced : Balanced (Act.current (seen ++ [act]))) :
    Disciplined listener (seen ++ [act])

variable {listener : Option String} {receiver : Receiver} {made : List Delivery}
  {seen window : List Act} {act : Act}

theorem balanced_nil : Balanced [] := Nat.zero_le _

theorem Disciplined.balanced (h : Disciplined listener seen) : Balanced (Act.current seen) := by
  cases h with
  | nil => exact balanced_nil
  | next _ _ balanced => exact balanced

theorem Balanced.concat (h : Balanced window) (silent : act.went = []) :
    Balanced (window ++ [act]) := by
  have same : Act.said (window ++ [act]) = Act.said window := by simp [silent]
  have more : (Act.chunks window).countP (Chunk.Sound ·) ≤
      (Act.chunks (window ++ [act])).countP (Chunk.Sound ·) := by
    rw [Act.chunks_append, List.countP_append]
    exact Nat.le_add_right ..
  rw [Balanced, same]
  refine Nat.le_trans h (Nat.add_le_add more ?_)
  by_cases ended : .received 1 [Chunk.endByte] false ∈ window
  · rw [if_pos ended, if_pos (List.mem_append_left _ ended)]
  · rw [if_neg ended]
    exact Nat.zero_le _

namespace Disciplined

theorem silently (h : Disciplined listener seen) (allowed : Allowed listener seen act)
    (other : act.isCommand = false) (silent : act.went = []) :
    Disciplined listener (seen ++ [act]) :=
  .next h allowed (by rw [Act.current_concat _ _ other]; exact h.balanced.concat silent)

theorem quiet (h : Disciplined listener seen) (quiet : act.isQuiet = true) :
    Disciplined listener (seen ++ [act]) :=
  have ⟨other, silent, _⟩ := Act.quiet_facts quiet
  h.silently (.quiet quiet) other silent

theorem command (h : Disciplined listener seen) (settled : Settled listener seen)
    (command : Command) (taken : Nat) (failed : Bool) :
    Disciplined listener
      (seen ++ [.paused Timing.beforePacket] ++ [.sent command.wire taken failed]) := by
  refine .next (h.silently (.pause settled) rfl rfl) (.command settled rfl) ?_
  rw [Act.current_command _ _ (Act.isCommand_wire ..)]
  exact balanced_nil

theorem header {command : Command} (h : Disciplined listener
      (seen ++ [.sent command.wire command.wire.length false])) (bs : Bytes) (failed : Bool) :
    Disciplined listener (seen ++ [.sent command.wire command.wire.length false] ++
      [.received Packet.headerLength bs failed]) :=
  h.silently (.header rfl) rfl rfl

theorem rest {header : Bytes} {length : Nat} (h : Disciplined listener
      (seen ++ [.received Packet.headerLength header false]))
    (announced : Packet.payloadLength header = .ok length) (bs : Bytes) (failed : Bool) :
    Disciplined listener (seen ++ [.received Packet.headerLength header false] ++
      [.received (length + (Packet.overhead - Packet.headerLength)) bs failed]) :=
  h.silently (.rest rfl announced) rfl rfl

end Disciplined

/-- A bulk transfer of which some chunks are acknowledged and nothing is pending. -/
structure Transferring (listener : Option String) (seen : List Act) (done : List Bytes) :
    Prop where
  disciplined : Disciplined listener seen
  answered : Answered (Act.current seen)
  chunks : Act.chunks (Act.current seen) = done
  said : Act.said (Act.current seen) = List.replicate done.length Chunk.acknowledgement
  sound : ∀ chunk ∈ done, Chunk.Sound chunk

namespace Exchange

theorem askActs_eq (command : Command) (code : UInt8) (payload : Bytes) :
    askActs command (Packet.wire code payload) = [.paused Timing.beforePacket] ++
      [.sent command.wire command.wire.length false] ++ packetActs (Packet.wire code payload) :=
  askActs_cons ..

theorem current_ask (seen : List Act) (command : Command) (code : UInt8) (payload : Bytes) :
    Act.current (seen ++ askActs command (Packet.wire code payload)) =
      packetActs (Packet.wire code payload) := by
  rw [askActs_eq, packetActs_eq, ← List.append_assoc, ← List.append_assoc, ← List.append_assoc,
    Act.current_concat _ _ rfl, Act.current_concat _ _ rfl,
    Act.current_command _ _ (Act.isCommand_wire ..)]
  rfl

theorem disciplined_ask (settled : Settled listener seen) (h : Disciplined listener seen)
    (command : Command) {payload : Bytes} (fit : payload.length ≤ Packet.maxPayload)
    (code : UInt8) :
    Disciplined listener (seen ++ askActs command (Packet.wire code payload)) := by
  have sent := h.command settled command command.wire.length false
  have headed := sent.header ((Packet.wire code payload).take Packet.headerLength) false
  have whole := headed.rest (payloadLength_header fit code)
    ((Packet.wire code payload).drop Packet.headerLength) false
  rwa [List.append_assoc _ _ [_], ← packetActs_eq, List.append_assoc _ [_] [_],
    List.append_assoc, ← askActs_eq] at whole

theorem transferring_ask (settled : Settled listener seen) (h : Disciplined listener seen)
    (command : Command) {payload : Bytes} (fit : payload.length ≤ Packet.maxPayload)
    (code : UInt8) :
    Transferring listener (seen ++ askActs command (Packet.wire code payload)) [] where
  disciplined := disciplined_ask settled h command fit code
  answered := ⟨code, payload, [], fit, by rw [current_ask, List.append_nil]⟩
  chunks := by rw [current_ask, chunks_packetActs fit]
  said := by rw [current_ask, said_packetActs]; rfl
  sound := nofun

end Exchange

namespace Transferring

variable {done : List Bytes} {chunk bs : Bytes} {failed : Bool}

theorem acknowledged (h : Transferring listener seen done) :
    (Act.said (Act.current seen)).length = (Act.chunks (Act.current seen)).length := by
  rw [h.said, h.chunks, List.length_replicate]

theorem receive (h : Transferring listener seen done) (bs : Bytes) (failed : Bool) :
    Disciplined listener (seen ++ [.received Chunk.length bs failed]) :=
  h.disciplined.silently (.chunk h.answered h.acknowledged) rfl rfl

theorem unacknowledged (h : Transferring listener seen done) (sound : Chunk.Sound chunk)
    (failed : Bool) : Disciplined listener
      (seen ++ [.received Chunk.length chunk false] ++ [.sent [Chunk.acknowledgement] 0 failed]) :=
  (h.receive chunk false).silently (.acknowledge sound rfl) rfl rfl

theorem current_chunk (seen : List Act) (chunk : Bytes) :
    Act.current (seen ++ [.received Chunk.length chunk false] ++
      [.sent [Chunk.acknowledgement] 1 false]) =
    Act.current seen ++ [.received Chunk.length chunk false] ++
      [.sent [Chunk.acknowledgement] 1 false] := by
  rw [Act.current_concat _ _ rfl, Act.current_concat _ _ rfl]

theorem acknowledge (h : Transferring listener seen done) (sound : Chunk.Sound chunk) :
    Transferring listener (seen ++ [.received Chunk.length chunk false] ++
      [.sent [Chunk.acknowledgement] 1 false]) (done ++ [chunk]) := by
  have all : ∀ c ∈ done ++ [chunk], Chunk.Sound c := by
    intro c mem
    rcases List.mem_append.1 mem with old | new
    · exact h.sound c old
    · rw [List.mem_singleton.1 new]
      exact sound
  have said : Act.said (Act.current (seen ++ [.received Chunk.length chunk false] ++
      [.sent [Chunk.acknowledgement] 1 false])) =
      List.replicate (done ++ [chunk]).length Chunk.acknowledgement := by
    rw [current_chunk]
    simp [h.said, Act.went, List.replicate_succ']
  have chunks : Act.chunks (Act.current (seen ++ [.received Chunk.length chunk false] ++
      [.sent [Chunk.acknowledgement] 1 false])) = done ++ [chunk] := by
    rw [current_chunk]
    simp [h.chunks, Act.chunk?]
  have balanced : Balanced (Act.current (seen ++ [.received Chunk.length chunk false] ++
      [.sent [Chunk.acknowledgement] 1 false])) := by
    have count : (done ++ [chunk]).countP (Chunk.Sound ·) = (done ++ [chunk]).length :=
      List.countP_eq_length.2 fun c mem => decide_eq_true (all c mem)
    rw [Balanced, said, chunks, count, List.length_replicate]
    exact Nat.le_add_right ..
  refine ⟨.next (h.receive chunk false) (.acknowledge sound rfl) balanced, ?_, chunks, said, all⟩
  obtain ⟨code, payload, later, fit, window⟩ := h.answered
  exact ⟨code, payload, later ++ [.received Chunk.length chunk false] ++
    [.sent [Chunk.acknowledgement] 1 false], fit, by rw [current_chunk, window]; simp⟩

theorem quiet (h : Transferring listener seen done) (quiet : act.isQuiet = true) :
    Transferring listener (seen ++ [act]) done := by
  obtain ⟨other, silent, none⟩ := Act.quiet_facts quiet
  have window := Act.current_concat seen act other
  refine ⟨h.disciplined.quiet quiet, ?_, ?_, ?_, h.sound⟩
  · obtain ⟨code, payload, later, fit, split⟩ := h.answered
    exact ⟨code, payload, later ++ [act], fit, by rw [window, split, List.append_assoc]⟩
  · simp [window, h.chunks, none]
  · simp [window, h.said, silent]

theorem told (h : Transferring listener seen done) (event : Event) :
    Transferring listener (seen ++ listener.toList.map (.told · event)) done := by
  cases listener with
  | none => rwa [Option.toList, List.map_nil, List.append_nil]
  | some name => exact h.quiet rfl

theorem advance (h : Transferring listener seen done) (start : Option Progress)
    (received total : Nat) :
    Transferring listener (seen ++ Exchange.advanceActs listener start received total) done := by
  cases start with
  | none => rwa [Exchange.advanceActs, List.append_nil]
  | some start => exact h.told _

theorem chunkActs_eq (sound : Chunk.Sound chunk) : Exchange.chunkActs chunk =
    [.received Chunk.length chunk false] ++ [.sent [Chunk.acknowledgement] 1 false] := by
  rw [Exchange.chunkActs, Exchange.reception_whole sound.length Chunk.length_pos]
  rfl

theorem step (h : Transferring listener seen done) (sound : Chunk.Sound chunk) :
    Transferring listener (seen ++ Exchange.chunkActs chunk) (done ++ [chunk]) := by
  rw [chunkActs_eq sound, ← List.append_assoc]
  exact h.acknowledge sound

theorem steps {more : List Bytes} (h : Transferring listener seen done)
    (sound : ∀ chunk ∈ more, Chunk.Sound chunk) (start : Option Progress) (total received : Nat) :
    Transferring listener (seen ++ Exchange.chunksActs listener start total received more)
      (done ++ more) := by
  induction more generalizing seen done received with
  | nil => rwa [Exchange.chunksActs, List.append_nil, List.append_nil]
  | cons chunk more ih =>
    have first := (h.step (sound chunk List.mem_cons_self)).advance start
      (received + min (total - received) Chunk.dataLength) total
    have rest := ih first (fun c mem => sound c (List.mem_cons_of_mem _ mem))
      (received + min (total - received) Chunk.dataLength)
    rw [Exchange.chunksActs]
    simpa using rest

theorem receiveEnd (h : Transferring listener seen done) (all : done.length = Bulk.due done)
    (bs : Bytes) (failed : Bool) : Disciplined listener (seen ++ [.received 1 bs failed]) :=
  h.disciplined.silently (.ending h.acknowledged (by rw [h.chunks, all])) rfl rfl

theorem endUnacknowledged (h : Transferring listener seen done) (all : done.length = Bulk.due done)
    (failed : Bool) : Disciplined listener (seen ++ [.received 1 [Chunk.endByte] false] ++
      [.sent [Chunk.acknowledgement] 0 failed]) :=
  (h.receiveEnd all _ _).silently (.acknowledgeEnd rfl) rfl rfl

theorem ended (h : Transferring listener seen done) (all : done.length = Bulk.due done) :
    Disciplined listener (seen ++ Exchange.chunkActs [Chunk.endByte]) := by
  have window : Act.current (seen ++ [.received 1 [Chunk.endByte] false] ++
      [.sent [Chunk.acknowledgement] 1 false]) = Act.current seen ++
        [.received 1 [Chunk.endByte] false, .sent [Chunk.acknowledgement] 1 false] := by
    rw [Act.current_concat _ _ rfl, Act.current_concat _ _ rfl, List.append_assoc]
    rfl
  have count : done.countP (Chunk.Sound ·) = done.length :=
    List.countP_eq_length.2 fun c mem => decide_eq_true (h.sound c mem)
  have balanced : Balanced (Act.current (seen ++ [.received 1 [Chunk.endByte] false] ++
      [.sent [Chunk.acknowledgement] 1 false])) := by
    have other : (1 : Nat) ≠ Chunk.length := by decide
    rw [Balanced, window]
    simp [h.said, h.chunks, Act.went, Act.chunk?, other, count]
  have h' := Disciplined.next (h.receiveEnd all [Chunk.endByte] false) (.acknowledgeEnd rfl) balanced
  rwa [List.append_assoc] at h'

theorem unfinished {tail : List Act} {closed : Bool} (h : Transferring listener seen done)
    (unfinished : Exchange.Unfinished done tail closed) :
    Disciplined listener (seen ++ tail) := by
  cases unfinished with
  | between => rw [List.append_nil]; exact h.disciplined
  | chunk => exact h.receive _ _
  | unacknowledged more sound =>
    rw [Exchange.reception_whole sound.length Chunk.length_pos, ← List.append_assoc]
    exact h.unacknowledged sound _
  | untold more sound => exact (h.step sound).disciplined
  | ending all => exact h.receiveEnd all _ _
  | endUnacknowledged all =>
    have h' := h.endUnacknowledged all
    rw [← List.append_assoc]
    exact h' _
  | ended all => exact h.ended all

end Transferring

theorem Settled.disciplined (settled : Settled listener seen) : Disciplined listener seen := by
  induction settled with
  | nil => exact .nil
  | quiet _ quiet ih => exact ih.quiet quiet
  | answered before _ fit ih => exact Exchange.disciplined_ask before ih _ fit _
  | @transferred _ command start code payload data bs before _ fit carries ih =>
    have all : (Bulk.chunks (Bulk.chunkCount data.length) bs).length =
        Bulk.due (Bulk.chunks (Bulk.chunkCount data.length) bs) := by
      rw [carries.due_eq, Bulk.length_chunks]
    have asked := Exchange.transferring_ask before ih command fit code
    have chunks := asked.steps carries.sound (some start) (Exchange.countLength + data.length) 0
    rw [Exchange.askBulkActs, Exchange.transferActs, ← List.append_assoc, ← List.append_assoc]
    exact chunks.ended all

theorem Settled.unanswered {command : Command} (settled : Settled listener seen) {acts : List Act}
    (unanswered : Exchange.Unanswered command acts) : Disciplined listener (seen ++ acts) := by
  have before := settled.disciplined
  have sent := before.command settled command command.wire.length false
  cases unanswered with
  | unasked => rwa [List.append_nil]
  | paused => exact before.silently (.pause settled) rfl rfl
  | sending =>
    have h := before.command settled command
    simpa using h _ _
  | header => simpa [command.sending_wire] using sent.header _ _
  | @rest header bs length failed whole announced =>
    have first := Exchange.reception_whole whole (by decide)
    have h := (sent.header header false).rest announced bs failed
    simpa [command.sending_wire, first] using h

theorem Settled.interrupted {command : Command} {start : Progress} (settled : Settled listener seen)
    {acts : List Act} {closed : Bool}
    (interrupted : Exchange.Interrupted listener command start acts closed) :
    Disciplined listener (seen ++ acts) := by
  cases interrupted with
  | unanswered unanswered => exact settled.unanswered unanswered
  | @unfinished code payload chunks tail _ fit sound due unfinished =>
    have asked := Exchange.transferring_ask settled settled.disciplined command fit code
    have h := (asked.steps sound (some start) (Bulk.total chunks) 0).unfinished unfinished
    simpa using h

/-- A dialogue that keeps the discipline behind settled commands, and leaves its own settled. -/
def Dialogue.Orderly {α : Type} (listener : Option String) (receiver : Receiver)
    (d : Dialogue α) : Prop :=
  ∀ before made seen outcome, Settled listener before →
    d.Partway listener receiver made seen outcome →
      Disciplined listener (before ++ seen) ∧
        ∀ a, outcome = some (.ok a) → Settled listener (before ++ seen)

namespace Dialogue.Orderly
open Exchange Conversation

variable {α β : Type}

theorem bind {d : Dialogue α} {f : α → Dialogue β} (first : d.Orderly listener receiver)
    (second : ∀ a, (f a).Orderly listener receiver) : (d >>= f).Orderly listener receiver := by
  intro before made seen outcome settled partway
  rcases Partway.of_bind partway with ⟨a, front, rest, course, later, rfl⟩ | ⟨stop, inside, rfl⟩
  · have settled' := (first before made front _ settled course.partway).2 a rfl
    rw [← List.append_assoc]
    exact second a _ _ _ _ settled' later
  · refine ⟨(first before made seen _ settled inside).1, fun a ok => ?_⟩
    cases stop <;> cases ok

theorem ofExcept (value : Except Refusal α) :
    (Dialogue.ofExcept value).Orderly listener receiver := by
  intro before made seen outcome settled partway
  have none : seen = [] := by
    cases value <;> cases partway <;> rfl
  rw [none, List.append_nil]
  exact ⟨settled.disciplined, fun _ _ => settled⟩

theorem done (a : α) : (Dialogue.done a).Orderly listener receiver := ofExcept (.ok a)

theorem refuse (why : Refusal) : (Dialogue.refuse why : Dialogue α).Orderly listener receiver :=
  ofExcept (.error why)

theorem announce (event : Event) {next : Dialogue α} (h : next.Orderly listener receiver) :
    (Dialogue.announce event next).Orderly listener receiver := by
  intro before made seen outcome settled partway
  cases partway with
  | here => exact ⟨by rw [List.append_nil]; exact settled.disciplined, nofun⟩
  | announce rest =>
    have told : Settled listener (before ++ listener.toList.map (.told · event)) := by
      cases listener with
      | none => rwa [Option.toList, List.map_nil, List.append_nil]
      | some name => exact .quiet settled rfl
    rw [← List.append_assoc]
    exact h _ _ _ _ told rest

theorem deliver (dive : Delivery) {next : DiveControl → Dialogue α}
    (h : ∀ reply, (next reply).Orderly listener receiver) :
    (Dialogue.deliver dive next).Orderly listener receiver := by
  intro before made seen outcome settled partway
  cases partway with
  | here => exact ⟨by rw [List.append_nil]; exact settled.disciplined, nofun⟩
  | deliver rest =>
    rw [List.append_cons]
    exact h _ _ _ _ _ (.quiet settled rfl) rest

theorem ask {command : Command} (short : command.isBulk = false) :
    (Exchange.ask command).Orderly listener receiver := by
  intro before made seen outcome settled partway
  refine ⟨settled.unanswered (partway_ask partway), fun payload ok => ?_⟩
  subst ok
  obtain ⟨fit, code, rfl⟩ := course_ask partway.course
  exact .answered settled short fit

theorem askBulk {command : Command} (bulk : command.isBulk = true) (buffer : Bytes)
    (start : Progress) : (Exchange.askBulk command buffer start).Orderly listener receiver := by
  intro before made seen outcome settled partway
  by_cases complete : ∃ all, outcome = some (.ok all)
  · obtain ⟨all, rfl⟩ := complete
    obtain ⟨-, code, payload, bs, fit, carries, rfl⟩ := course_askBulk partway.course
    have whole : Settled listener (before ++
        askBulkActs listener command start (Packet.wire code payload) all.1 bs) :=
      .transferred settled bulk fit carries
    exact ⟨whole.disciplined, fun _ _ => whole⟩
  · have incomplete : ∀ all, outcome ≠ some (.ok all) := fun all h => complete ⟨all, h⟩
    exact ⟨settled.interrupted (partway_askBulk incomplete partway),
      fun all h => absurd h (incomplete all)⟩

theorem readIdentity : Conversation.readIdentity.Orderly listener receiver :=
  (ask rfl).bind fun _ => (ofExcept _).bind fun _ => done _

theorem identify : Conversation.identify.Orderly listener receiver :=
  readIdentity.bind fun _ => announce _ (announce _ (done _))

theorem downloadDive (layout : Layout) (entry buffer : Bytes) (start : Progress) :
    (Conversation.downloadDive layout entry buffer start).Orderly listener receiver := by
  match entry with
  | [] | [_] => exact refuse _
  | low :: high :: rest =>
    exact (askBulk rfl buffer start).bind fun _ => (ofExcept _).bind fun _ => done _

theorem downloadDives (layout : Layout) (entries : List Bytes) (buffer : Bytes)
    (start : Progress) :
    (Conversation.downloadDives layout entries buffer start).Orderly listener receiver := by
  induction entries generalizing buffer start with
  | nil => exact done ()
  | cons entry older ih =>
    refine (downloadDive layout entry buffer start).bind fun all => (ofExcept _).bind fun fingerprint =>
      deliver _ fun reply => ?_
    cases reply with
    | more => exact ih all.2.1 all.2.2
    | stop => exact done ()

theorem downloadNew (stored : Fingerprint) :
    (Conversation.downloadNew stored).Orderly listener receiver :=
  announce _ (readIdentity.bind fun _ => (askBulk rfl _ _).bind fun _ => (ofExcept _).bind fun _ =>
    announce _ (downloadDives _ _ _ _))

theorem setClock (time : DateTime) : (Conversation.setClock time).Orderly listener receiver :=
  (ask rfl).bind fun _ => done ()

theorem leave : Conversation.leave.Orderly listener receiver :=
  (ask rfl).bind fun _ => done ()

end Dialogue.Orderly

namespace Session

theorem converse_disciplined {α : Type} {dialogue : Dialogue α} (session : Session)
    (orderly : dialogue.Orderly session.device.listener receiver) (value : α → Nat → Value)
    (points : Nat) :
    Disciplined session.device.listener
      (acts session.script.data ((session.converse receiver dialogue value).1.trace.take points)) :=
  (orderly [] [] _ none .nil (Dialogue.run_partway dialogue [] (List.take_prefix points _))).1

/-- Whatever the script does, at every point of every step: a command is sent right behind its
pause and only when the commands before it are settled, a chunk or the end byte is asked for only
when all chunks before it are acknowledged, and nothing else is acknowledged. -/
theorem step_disciplined (session : Session) (step : Step) (points : Nat) :
    Disciplined session.device.listener
      (acts session.script.data ((session.step step).1.trace.take points)) := by
  have idle : Disciplined session.device.listener (acts session.script.data ([].take points)) := by
    rw [List.take_nil]
    exact .nil
  cases step with
  | identify => exact session.converse_disciplined .identify _ points
  | downloadNew receiver => exact session.converse_disciplined (.downloadNew _) _ points
  | setClock time => exact session.converse_disciplined (.setClock time) _ points
  | leave => exact session.converse_disciplined .leave _ points
  | setFingerprint data =>
    rw [Session.step]
    cases session.device.setFingerprint data <;> exact idle
  | queue | listen | renew | describe => exact idle

end Session

end DiveLink
