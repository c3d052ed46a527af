import DiveLink.Proofs.Answers
import DiveLink.Proofs.Partway

set_option autoImplicit false

namespace DiveLink

/-- The number of chunks that the first of some chunks announces. -/
def Bulk.due (chunks : List Bytes) : Nat := chunkCount (announced (chunks.headD []))

def Bulk.total (chunks : List Bytes) : Nat :=
  Exchange.countLength + announced (chunks.headD [])

namespace Bulk.Begins
variable {data bs : Bytes}

theorem announced_chunks (begins : Begins data bs) :
    announced ((chunks (chunkCount data.length) bs).headD []) = data.length := by
  obtain ⟨later, count⟩ := Nat.exists_eq_add_of_lt (chunkCount_pos data.length)
  rw [count, Nat.zero_add, chunks_succ, List.headD_cons, announced_take, begins.announced_eq]

theorem due_eq (begins : Begins data bs) :
    due (chunks (chunkCount data.length) bs) = chunkCount data.length := by
  rw [due, begins.announced_chunks]

theorem total_eq (begins : Begins data bs) :
    total (chunks (chunkCount data.length) bs) = Exchange.countLength + data.length := by
  rw [total, begins.announced_chunks]

end Bulk.Begins

namespace Exchange
open Dialogue

/-- A command without an answer packet, or with one that need not be whole or sound. -/
inductive Unanswered (command : Command) : List Act → Prop
  | unasked : Unanswered command []
  | paused : Unanswered command [.paused Timing.beforePacket]
  | sending {taken : Nat} {failed : Bool} (fit : taken ≤ command.wire.length) :
    Unanswered command [.paused Timing.beforePacket, .sent command.wire taken failed]
  | header {bs : Bytes} {failed : Bool} (fit : bs.length ≤ Packet.headerLength) :
    Unanswered command (.paused Timing.beforePacket :: Act.sending command.wire ++
      [.received Packet.headerLength bs failed])
  | rest {header bs : Bytes} {length : Nat} {failed : Bool}
    (whole : header.length = Packet.headerLength)
    (announced : Packet.payloadLength header = .ok length)
    (fit : bs.length ≤ length + (Packet.overhead - Packet.headerLength)) :
    Unanswered command (.paused Timing.beforePacket :: Act.sending command.wire ++
      Act.reception header ++ [.received (length + (Packet.overhead - Packet.headerLength)) bs failed])

/-- What stands behind the chunks of a transfer that are acknowledged and told, when the transfer is
not complete. It may be over all the same. -/
inductive Unfinished (chunks : List Bytes) : List Act → Bool → Prop
  | between : Unfinished chunks [] false
  | chunk {bs : Bytes} {failed closed : Bool} (more : chunks.length < Bulk.due chunks)
    (fit : bs.length ≤ Chunk.length) :
    Unfinished chunks [.received Chunk.length bs failed] closed
  | unacknowledged {chunk : Bytes} {failed closed : Bool} (more : chunks.length < Bulk.due chunks)
    (sound : Chunk.Sound chunk) :
    Unfinished chunks
      (Act.reception chunk ++ [.sent [Chunk.acknowledgement] 0 failed]) closed
  | untold {chunk : Bytes} (more : chunks.length < Bulk.due chunks) (sound : Chunk.Sound chunk) :
    Unfinished chunks (chunkActs chunk) false
  | ending {bs : Bytes} {failed closed : Bool} (all : chunks.length = Bulk.due chunks)
    (fit : bs.length ≤ 1) : Unfinished chunks [.received 1 bs failed] closed
  | endUnacknowledged {failed closed : Bool} (all : chunks.length = Bulk.due chunks) :
    Unfinished chunks
      (Act.reception [Chunk.endByte] ++ [.sent [Chunk.acknowledgement] 0 failed]) closed
  | ended (all : chunks.length = Bulk.due chunks) :
    Unfinished chunks (chunkActs [Chunk.endByte]) false

variable {α : Type} {listener : Option String} {receiver : Receiver} {made : List Delivery}
  {command : Command} {seen : List Act}
  {outcome : Option (Except (Failure ScriptCall) α)}

theorem reception_whole {bs : Bytes} {count : Nat} (whole : bs.length = count) (any : 0 < count) :
    Act.reception bs = [.received count bs false] := by
  have some : bs ≠ [] := fun none => by simp [none, ← whole] at any
  rw [Act.reception, if_neg some, whole]

theorem partway_receivePacket
    {outcome : Option (Except (Failure ScriptCall) Bytes)}
    (partway : receivePacket.Partway listener receiver made seen outcome) :
    Unanswered command (.paused Timing.beforePacket :: Act.sending command.wire ++ seen) := by
  rw [← bind_done receivePacket, receivePacket_bind] at partway
  cases partway with
  | here =>
    rw [command.sending_wire]
    exact .sending (Nat.le_refl _)
  | unreceived short => exact .header (Nat.le_of_lt short)
  | @receive _ _ _ header later _ whole measured =>
    have first : Act.reception header = [.received Packet.headerLength header false] :=
      reception_whole whole (by decide)
    rcases Partway.of_ofExcept measured with ⟨length, announced, received⟩ | ⟨rfl, -⟩
    · rw [← List.append_assoc]
      cases received with
      | here =>
        rw [List.append_nil, first]
        exact .header (Nat.le_of_eq whole)
      | unreceived short => exact .rest whole announced (Nat.le_of_lt short)
      | @receive _ _ _ rest later _ whole' checked =>
        have none : later = [] := by
          rcases Partway.of_ofExcept checked with ⟨payload, -, ended⟩ | ⟨none, -⟩
          · cases ended <;> rfl
          · exact none
        rw [none, List.append_nil, reception_whole whole' (Nat.add_pos_right _ (by decide))]
        exact .rest whole announced (Nat.le_of_eq whole')
    · rw [List.append_nil, first]
      exact .header (Nat.le_of_eq whole)

theorem partway_ask {outcome : Option (Except (Failure ScriptCall) Bytes)}
    (partway : (ask command).Partway listener receiver made seen outcome) :
    Unanswered command seen := by
  rw [ask, sendCommand_eq, pause_bind, send_bind, done_bind] at partway
  cases partway with
  | here => exact .unasked
  | pause partway =>
    cases partway with
    | here => exact .paused
    | unsent short => exact .sending (Nat.le_of_lt short)
    | send partway => exact partway_receivePacket partway

theorem partway_receiveChunk {f : Bytes → Dialogue α}
    (partway : (receiveChunk >>= f).Partway listener receiver made seen outcome) :
    (seen = [] ∧ outcome = none) ∨
      (∃ bs failed, bs.length ≤ Chunk.length ∧ seen = [.received Chunk.length bs failed]) ∨
      (∃ chunk failed, Chunk.Sound chunk ∧
        seen = Act.reception chunk ++ [.sent [Chunk.acknowledgement] 0 failed]) ∨
      ∃ chunk later, Chunk.Sound chunk ∧ seen = chunkActs chunk ++ later ∧
        (f (Chunk.data chunk)).Partway listener receiver made later outcome := by
  rw [receiveChunk_bind] at partway
  cases partway with
  | here => exact .inl ⟨rfl, rfl⟩
  | unreceived short => exact .inr (.inl ⟨_, _, Nat.le_of_lt short, rfl⟩)
  | @receive _ _ _ chunk later _ whole judged =>
    have first : Act.reception chunk = [.received Chunk.length chunk false] :=
      reception_whole whole (by decide)
    have unused : Act.reception chunk ++ [] = [.received Chunk.length chunk false] := by
      rw [List.append_nil, first]
    rcases Partway.of_ofExcept judged with ⟨data, decoded, acknowledged⟩ | ⟨rfl, -⟩
    · obtain ⟨sound, rfl⟩ := Chunk.sound_of_decode whole decoded
      cases acknowledged with
      | here => exact .inr (.inl ⟨chunk, false, Nat.le_of_eq whole, unused⟩)
      | @unsent _ _ _ taken failed _ short =>
        obtain rfl : taken = 0 := Nat.lt_one_iff.1 short
        exact .inr (.inr (.inl ⟨chunk, failed, sound, rfl⟩))
      | send rest =>
        exact .inr (.inr (.inr ⟨chunk, _, sound, (List.append_assoc ..).symm, rest⟩))
    · exact .inr (.inl ⟨chunk, false, Nat.le_of_eq whole, unused⟩)

theorem partway_advance (start : Option Progress) {received total : Nat} (any : 0 < total)
    (fit : received ≤ total) (small : total < UInt32.size) {f : Option Progress → Dialogue α}
    (partway : (advance start received total >>= f).Partway listener receiver made seen outcome) :
    (seen = [] ∧ outcome = none) ∨
      ∃ later, seen = advanceActs listener start received total ++ later ∧
        (f (start.map (·.reached received total))).Partway listener receiver made later
          outcome := by
  rw [advance_bind start any fit small] at partway
  cases start with
  | none => exact .inr ⟨seen, rfl, partway⟩
  | some start =>
    cases partway with
    | here => exact .inl ⟨rfl, rfl⟩
    | announce rest => exact .inr ⟨_, rfl, rest⟩

theorem partway_receiveEnd {chunks : List Bytes} (all : chunks.length = Bulk.due chunks)
    {f : Unit → Dialogue α}
    (partway : (receiveEnd >>= f).Partway listener receiver made seen outcome) :
    Unfinished chunks seen outcome.isSome ∨
      ∃ later, seen = chunkActs [Chunk.endByte] ++ later ∧
        (f ()).Partway listener receiver made later outcome := by
  rw [receiveEnd_bind] at partway
  cases partway with
  | here => exact .inl .between
  | unreceived short => exact .inl (.ending all (Nat.le_of_lt short))
  | @receive _ _ _ bs later _ whole judged =>
    obtain ⟨b, rfl⟩ := List.length_eq_one_iff.1 whole
    dsimp only at judged
    by_cases good : b = Chunk.endByte
    · subst good
      rw [if_pos rfl] at judged
      cases judged with
      | here => exact .inl (.ending all (Nat.le_refl 1))
      | @unsent _ _ _ taken failed _ short =>
        obtain rfl : taken = 0 := Nat.lt_one_iff.1 short
        exact .inl (.endUnacknowledged all)
      | send rest => exact .inr ⟨_, (List.append_assoc ..).symm, rest⟩
    · rw [if_neg good] at judged
      cases judged with
      | here | refuse => exact .inl (.ending all (Nat.le_refl 1))

theorem due_append {chunks : List Bytes} (any : chunks ≠ []) (more : List Bytes) :
    Bulk.due (chunks ++ more) = Bulk.due chunks := by
  cases chunks with
  | nil => exact absurd rfl any
  | cons chunk later => rfl

theorem total_append {chunks : List Bytes} (any : chunks ≠ []) (more : List Bytes) :
    Bulk.total (chunks ++ more) = Bulk.total chunks := by
  cases chunks with
  | nil => exact absurd rfl any
  | cons chunk later => rfl

theorem total_small (chunks : List Bytes) : Bulk.total chunks < UInt32.size :=
  small_total (chunks.headD [])

variable {start : Option Progress} {g : Bytes × Option Progress → α}

theorem partway_receiveMissing {chunks : List Bytes} {received : Nat} {buffer : Bytes}
    {now : Option Progress} (any : chunks ≠ []) (fit : chunks.length ≤ Bulk.due chunks)
    (present : received = min (Bulk.total chunks) (Chunk.dataLength * chunks.length))
    (incomplete : ∀ a, outcome ≠ some (.ok a))
    (partway : (receiveMissing start (Bulk.total chunks) received buffer now >>= fun all =>
      receiveEnd >>= fun _ => done (g all)).Partway listener receiver made seen outcome) :
    ∃ more tail, (∀ chunk ∈ more, Chunk.Sound chunk) ∧
      (chunks ++ more).length ≤ Bulk.due chunks ∧
      seen = chunksActs listener start (Bulk.total chunks) received more ++ tail ∧
      Unfinished (chunks ++ more) tail outcome.isSome := by
  -- The induction is on the chunks that are still due.
  induction left : Bulk.due chunks - chunks.length
    generalizing chunks received buffer now seen with
  | zero =>
    have all : chunks.length = Bulk.due chunks := by omega
    have whole : received = Bulk.total chunks := by
      rw [present, all]
      exact Nat.min_eq_left (chunkCount_covers _)
    rw [whole, receiveMissing_done, done_bind] at partway
    refine ⟨[], seen, nofun, by simpa using fit, rfl, ?_⟩
    rw [List.append_nil]
    rcases partway_receiveEnd all partway with unfinished | ⟨later, rfl, ended⟩
    · exact unfinished
    · cases ended with
      | here =>
        rw [List.append_nil]
        exact .ended all
      | done a => exact absurd rfl (incomplete _)
  | succ due ih =>
    have more : chunks.length < Bulk.due chunks := by omega
    have missing : received < Bulk.total chunks := present ▸ more_due more
    rw [receiveMissing_bind missing] at partway
    rcases partway_receiveChunk partway with ⟨rfl, rfl⟩ | ⟨bs, failed, size, rfl⟩ |
      ⟨chunk, failed, sound, rfl⟩ | ⟨chunk, later, sound, rfl, advancing⟩
    · exact ⟨[], [], nofun, by simpa using fit, rfl, .between⟩
    · exact ⟨[], _, nofun, by simpa using fit, rfl, .chunk (by simpa using more) size⟩
    · exact ⟨[], _, nofun, by simpa using fit, rfl, .unacknowledged (by simpa using more) sound⟩
    · have within : received + min (Bulk.total chunks - received) Chunk.dataLength ≤
          Bulk.total chunks := by omega
      have grown : received + min (Bulk.total chunks - received) Chunk.dataLength =
          min (Bulk.total chunks) (Chunk.dataLength * (chunks ++ [chunk]).length) := by
        rw [List.length_append, List.length_singleton, Nat.mul_succ]
        omega
      rcases partway_advance start (by omega) within (total_small chunks) advancing with
        ⟨rfl, rfl⟩ | ⟨later, rfl, continuing⟩
      · refine ⟨[], chunkActs chunk, nofun, by simpa using fit, List.append_nil _, ?_⟩
        rw [List.append_nil]
        exact .untold more sound
      · have one : (chunks ++ [chunk]).length = chunks.length + 1 := List.length_append
        have same := due_append any [chunk]
        rw [← total_append any [chunk]] at continuing
        obtain ⟨others, tail, sound', fit', rfl, unfinished⟩ :=
          ih (by simp) (by omega) (by rwa [total_append any [chunk]]) continuing (by omega)
        rw [same, List.append_assoc, List.singleton_append] at fit'
        rw [List.append_assoc, List.singleton_append] at unfinished
        refine ⟨chunk :: others, tail, ?_, fit', ?_, unfinished⟩
        · simpa using ⟨sound, sound'⟩
        · simp [chunksActs, total_append any]

theorem partway_receiveBulk {buffer : Bytes} (incomplete : ∀ a, outcome ≠ some (.ok a))
    (partway : (receiveBulk buffer start >>= fun all => done (g all)).Partway listener receiver
      made seen outcome) :
    ∃ chunks tail, (∀ chunk ∈ chunks, Chunk.Sound chunk) ∧ chunks.length ≤ Bulk.due chunks ∧
      seen = chunksActs listener start (Bulk.total chunks) 0 chunks ++ tail ∧
      Unfinished chunks tail outcome.isSome := by
  have first : ([] : List Bytes).length < Bulk.due [] := Bulk.chunkCount_pos _
  rw [receiveBulk_bind] at partway
  rcases partway_receiveChunk partway with ⟨rfl, rfl⟩ | ⟨bs, failed, size, rfl⟩ |
    ⟨chunk, failed, sound, rfl⟩ | ⟨chunk, later, sound, rfl, counting⟩
  · exact ⟨[], [], nofun, Nat.zero_le _, rfl, .between⟩
  · exact ⟨[], _, nofun, Nat.zero_le _, rfl, .chunk first size⟩
  · exact ⟨[], _, nofun, Nat.zero_le _, rfl, .unacknowledged first sound⟩
  · have counted : (UInt16.ofNat (Bulk.announced chunk)).toNat = Bulk.announced chunk := by
      rw [UInt16.toNat_ofNat', Nat.mod_eq_of_lt (Bulk.announced_lt chunk)]
    have total : countLength + Bulk.announced chunk = Bulk.total [chunk] := rfl
    rw [Bulk.word?_first (Nat.le_of_eq sound.length.symm), within, ofExcept_ok, done_bind, counted,
      total] at counting
    rcases partway_advance start (Bulk.total_pos _) (Nat.min_le_left ..) (total_small [chunk])
      counting with ⟨rfl, rfl⟩ | ⟨later, rfl, continuing⟩
    · exact ⟨[], chunkActs chunk, nofun, Nat.zero_le _, List.append_nil _, .untold first sound⟩
    · obtain ⟨others, tail, sound', fit, rfl, unfinished⟩ :=
        partway_receiveMissing (List.cons_ne_nil chunk []) (Bulk.chunkCount_pos _)
          (by rw [List.length_singleton, Nat.mul_one]) incomplete continuing
      refine ⟨chunk :: others, tail, by simpa using ⟨sound, sound'⟩, fit, ?_, unfinished⟩
      have same : Bulk.total (chunk :: others) = Bulk.total [chunk] := rfl
      rw [same, chunksActs, Nat.sub_zero, Nat.zero_add, List.append_assoc, List.append_assoc]
      rfl

/-- A command without its answer, or with its answer packet and without the whole of its bulk
transfer. -/
inductive Interrupted (listener : Option String) (command : Command) (start : Progress) :
    List Act → Bool → Prop
  | unanswered {seen : List Act} {closed : Bool} (unanswered : Unanswered command seen) :
    Interrupted listener command start seen closed
  | unfinished {code : UInt8} {payload : Bytes} {chunks : List Bytes} {tail : List Act}
    {closed : Bool} (fit : payload.length ≤ Packet.maxPayload)
    (sound : ∀ chunk ∈ chunks, Chunk.Sound chunk) (due : chunks.length ≤ Bulk.due chunks)
    (unfinished : Unfinished chunks tail closed) :
    Interrupted listener command start (askActs command (Packet.wire code payload) ++
      (chunksActs listener (some start) (Bulk.total chunks) 0 chunks ++ tail)) closed

theorem partway_askBulk {buffer : Bytes} {start : Progress}
    {outcome : Option (Except (Failure ScriptCall) (Bytes × Progress))}
    (incomplete : ∀ a, outcome ≠ some (.ok a))
    (partway : (askBulk command buffer start).Partway listener receiver made seen outcome) :
    Interrupted listener command start seen outcome.isSome := by
  rw [← bind_done (askBulk command buffer start), askBulk_bind] at partway
  rcases Partway.of_bind partway with ⟨_, first, second, asked, rest, rfl⟩ | ⟨stop, asking, -⟩
  · obtain ⟨fit, code, rfl⟩ := course_ask asked
    obtain ⟨chunks, tail, sound, due, rfl, unfinished⟩ := partway_receiveBulk incomplete rest
    exact .unfinished fit sound due unfinished
  · exact .unanswered (partway_ask asking)

end Exchange

end DiveLink
