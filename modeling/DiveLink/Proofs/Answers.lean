import DiveLink.Proofs.BulkTransfer
import DiveLink.Proofs.Course
import DiveLink.Proofs.Limits

set_option autoImplicit false

namespace DiveLink

namespace Exchange
open Dialogue

variable {α : Type} {listener : Option String} {receiver : Receiver} {made : List Delivery}
  {command : Command} {payload : Bytes} {seen : List Act}

theorem receivePacket_bind (f : Bytes → Dialogue α) :
    (receivePacket >>= f) = receive Packet.headerLength fun header =>
      Dialogue.ofExcept (Packet.payloadLength header) >>= fun length =>
        receive (length + (Packet.overhead - Packet.headerLength)) fun rest =>
          Dialogue.ofExcept (Packet.decode (header ++ rest)) >>= f := by
  simp [receivePacket, bind_assoc]

theorem length_header (code : UInt8) (payload : Bytes) :
    ((Packet.wire code payload).take Packet.headerLength).length = Packet.headerLength := by
  rw [List.length_take_of_le]
  simp only [Packet.length_wire, Packet.overhead, Packet.headerLength]
  omega

theorem payloadLength_header (fit : payload.length ≤ Packet.maxPayload) (code : UInt8) :
    Packet.payloadLength ((Packet.wire code payload).take Packet.headerLength) =
      .ok payload.length := by
  have h := Packet.payloadLength_wire fit code []
  rwa [List.append_nil, ← List.take_append_drop Packet.headerLength (Packet.wire code payload),
    Packet.payloadLength_append (Nat.le_of_eq (length_header code payload).symm)] at h

theorem length_behind_header (code : UInt8) (payload : Bytes) :
    ((Packet.wire code payload).drop Packet.headerLength).length =
      payload.length + (Packet.overhead - Packet.headerLength) := by
  rw [List.length_drop, Packet.length_wire]
  rfl

def packetActs (packet : Bytes) : List Act :=
  Act.reception (packet.take Packet.headerLength) ++ Act.reception (packet.drop Packet.headerLength)

theorem follow_receivePacket (fit : payload.length ≤ Packet.maxPayload) (code : UInt8)
    (f : Bytes → Dialogue α) (later : List Token) :
    (receivePacket >>= f).follow listener receiver made
        ((Packet.wire code payload).map .byte ++ later) =
      ((f payload).follow listener receiver made later).after
        (packetActs (Packet.wire code payload)) := by
  have split : (Packet.wire code payload).map Token.byte ++ later =
      ((Packet.wire code payload).take Packet.headerLength).map .byte ++
        (((Packet.wire code payload).drop Packet.headerLength).map .byte ++ later) := by
    rw [← List.append_assoc, ← List.map_append, List.take_append_drop]
  have decoded := Packet.decode_wire fit code []
  rw [List.append_nil] at decoded
  rw [receivePacket_bind, split, follow_receive (length_header code payload),
    payloadLength_header fit, Dialogue.ofExcept_ok, done_bind,
    follow_receive (length_behind_header code payload), List.take_append_drop, decoded,
    Dialogue.ofExcept_ok, done_bind, Passage.after_after, packetActs]

theorem course_receivePacket
    (course : receivePacket.Course listener receiver made seen (.ok payload)) :
    payload.length ≤ Packet.maxPayload ∧
      ∃ code, seen = packetActs (Packet.wire code payload) := by
  rw [← bind_done receivePacket, receivePacket_bind] at course
  cases course with
  | @receive _ _ _ header later _ whole measured =>
    rcases Course.of_ofExcept measured with ⟨length, announced, received⟩ | ⟨-, why, -, h⟩
    · cases received with
      | @receive _ _ _ rest later _ whole' checked =>
        rcases Course.of_ofExcept checked with ⟨payload', decoded, ended⟩ | ⟨-, why, -, h⟩
        · cases ended
          obtain ⟨fit, code, more, split⟩ := Packet.decode_ok decoded
          have length_eq : length = payload.length := by
            have h := Packet.payloadLength_wire fit code more
            rw [← split, Packet.payloadLength_append (Nat.le_of_eq whole.symm), announced] at h
            exact Except.ok.inj h
          -- Nothing is left behind the packet, since no more was asked for than it announced.
          have none : more = [] := by
            have h := congrArg List.length split
            simp only [List.length_append, whole, whole', Packet.length_wire, length_eq,
              Packet.overhead, Packet.headerLength] at h
            exact List.length_eq_zero_iff.1 (by omega)
          refine ⟨fit, code, ?_⟩
          rw [packetActs, ← List.append_nil (Packet.wire code payload), ← none, ← split,
            List.take_left' whole, List.drop_left' whole]
          simp
        · cases h
    · cases h

def askActs (command : Command) (packet : Bytes) : List Act :=
  .paused Timing.beforePacket :: Act.sending command.wire ++ packetActs packet

theorem askActs_cons (command : Command) (packet : Bytes) : askActs command packet =
    .paused Timing.beforePacket :: .sent command.wire command.wire.length false ::
      packetActs packet := by
  rw [askActs, command.sending_wire]
  rfl

theorem follow_ask (fit : payload.length ≤ Packet.maxPayload) (code : UInt8)
    (f : Bytes → Dialogue α) (later : List Token) :
    (ask command >>= f).follow listener receiver made
        ((Packet.wire code payload).map .byte ++ later) =
      ((f payload).follow listener receiver made later).after
        (askActs command (Packet.wire code payload)) := by
  rw [ask, bind_assoc, sendCommand_eq, pause_bind, send_bind, done_bind, Dialogue.follow,
    Dialogue.follow, follow_receivePacket fit code]
  simp [askActs]

theorem course_ask (course : (ask command).Course listener receiver made seen (.ok payload)) :
    payload.length ≤ Packet.maxPayload ∧
      ∃ code, seen = askActs command (Packet.wire code payload) := by
  rw [ask, sendCommand_eq, pause_bind, send_bind, done_bind] at course
  cases course with
  | pause course =>
    cases course with
    | send course =>
      obtain ⟨fit, code, rfl⟩ := course_receivePacket course
      exact ⟨fit, code, rfl⟩

theorem course_receiveBulk {buffer data : Bytes} {start now : Option Progress}
    (course : (receiveBulk buffer start).Course listener receiver made seen (.ok (data, now))) :
    Bulk.Carries data (Act.heard seen) ∧
      now = start.map (·.reached (countLength + data.length) (countLength + data.length)) ∧
      seen = transferActs listener start data (Act.heard seen) := by
  have came := course.follow []
  rcases Bulk.begins_or_breaks (Act.heard seen) with ⟨other, begins⟩ | ⟨_, _, _, breaks⟩
  · rw [← bind_done (receiveBulk buffer start), follow_begins buffer start begins,
      Dialogue.follow] at came
    injection came with result acts left
    cases result
    rw [List.append_nil] at acts left
    have short := List.drop_eq_nil_iff.1 (List.map_eq_nil_iff.1 left)
    obtain ⟨inside, -⟩ := List.getElem?_eq_some_iff.1 begins.ended
    exact ⟨⟨begins, by omega⟩, rfl, acts.symm⟩
  · have broken := @follow_breaks _ listener receiver made buffer start _ _ _ _ breaks done 0
    rw [bind_done, List.replicate_zero, came] at broken
    cases broken.result

/-- The acts of a command, its answer packet and the bulk transfer behind it. -/
def askBulkActs (listener : Option String) (command : Command) (start : Progress)
    (packet data bs : Bytes) : List Act :=
  askActs command packet ++ transferActs listener (some start) data bs

theorem askBulk_bind (buffer : Bytes) (start : Progress) (f : Bytes × Progress → Dialogue α) :
    (askBulk command buffer start >>= f) = ask command >>= fun _ =>
      receiveBulk buffer (some start) >>= fun all => f (all.1, all.2.getD start) := by
  simp [askBulk, bind_assoc]

theorem follow_askBulk (buffer : Bytes) (start : Progress)
    (fit : payload.length ≤ Packet.maxPayload) (code : UInt8) {data bs : Bytes}
    (carries : Bulk.Carries data bs) (f : Bytes × Progress → Dialogue α) (later : List Token) :
    (askBulk command buffer start >>= f).follow listener receiver made
        ((Packet.wire code payload).map .byte ++ (bs.map .byte ++ later)) =
      ((f (data, start.reached (countLength + data.length) (countLength + data.length))).follow
        listener receiver made later).after
          (askBulkActs listener command start (Packet.wire code payload) data bs) := by
  have none : bs.drop (Chunk.length * Bulk.chunkCount data.length + 1) = [] :=
    List.drop_eq_nil_of_le (Nat.le_of_eq carries.length)
  rw [askBulk_bind, follow_ask fit code, follow_begins buffer (some start) carries.toBegins, none,
    Passage.after_after]
  rfl

theorem course_askBulk {buffer data : Bytes} {start now : Progress}
    (course : (askBulk command buffer start).Course listener receiver made seen
      (.ok (data, now))) :
    now = start.reached (countLength + data.length) (countLength + data.length) ∧
      ∃ code payload bs, payload.length ≤ Packet.maxPayload ∧ Bulk.Carries data bs ∧
        seen = askBulkActs listener command start (Packet.wire code payload) data bs := by
  rcases Course.of_bind course with ⟨payload, first, second, asked, received, rfl⟩ | ⟨why, -, h⟩
  · obtain ⟨fit, code, rfl⟩ := course_ask asked
    rcases Course.of_bind received with ⟨all, second, third, came, ended, rfl⟩ | ⟨why, -, h⟩
    · cases ended
      obtain ⟨carries, last, acts⟩ := course_receiveBulk came
      refine ⟨by rw [last]; rfl, code, payload, _, fit, carries, ?_⟩
      rw [askBulkActs, ← acts, List.append_nil]
    · cases h
  · cases h

section Projections
variable (command : Command) (packet : Bytes)

@[simp] theorem heard_askActs : Act.heard (askActs command packet) = packet := by
  simp [askActs, packetActs, Act.came]

@[simp] theorem said_askActs : Act.said (askActs command packet) = command.wire := by
  simp [askActs, packetActs, Act.went]

@[simp] theorem deliveries_askActs : Act.deliveries (askActs command packet) = [] := by
  simp [askActs, packetActs, Act.delivery?]

@[simp] theorem diveRequests_askActs : Act.diveRequests (askActs command packet) =
    if command.code = CommandCode.dive then [command.wire] else [] := by
  simp [askActs, packetActs, Act.diveRequest?, Command.wire_code]

variable (start : Progress) (data bs : Bytes)

@[simp] theorem deliveries_askBulkActs :
    Act.deliveries (askBulkActs listener command start packet data bs) = [] := by
  simp [askBulkActs]

@[simp] theorem diveRequests_askBulkActs :
    Act.diveRequests (askBulkActs listener command start packet data bs) =
      if command.code = CommandCode.dive then [command.wire] else [] := by
  simp [askBulkActs]

end Projections

theorem plain_command (other : command.code ≠ CommandCode.dive) :
    Limits.plain.sends command.wire :=
  fun same => other (Option.some.inj (command.wire_code.symm.trans same))

theorem plain_acknowledgement : Limits.plain.sends [Chunk.acknowledgement] := nofun

theorem plain_ask (other : command.code ≠ CommandCode.dive) : (ask command).Keeps .plain :=
  keeps_ask (plain_command other)

theorem plain_askBulk (other : command.code ≠ CommandCode.dive) (buffer : Bytes)
    (start : Progress) : (askBulk command buffer start).Keeps .plain :=
  keeps_askBulk plain_acknowledgement (fun _ => trivial) (plain_command other) buffer start

theorem course_request {buffer : Bytes} {start : Progress} {f : Bytes × Progress → Dialogue α}
    (plain : ∀ all, (f all).Keeps .plain) {result : Except (Failure ScriptCall) α}
    (course : (askBulk command buffer start >>= f).Course listener receiver made seen result) :
    ∃ taken failed later,
      seen = .paused Timing.beforePacket :: .sent command.wire taken failed :: later ∧
        Act.deliveries later = [] ∧ Act.diveRequests later = [] := by
  rw [askBulk_bind, ask, sendCommand_eq, pause_bind, send_bind, done_bind, pause_bind,
    send_bind] at course
  cases course with
  | pause course =>
    cases course with
    | send course =>
      obtain ⟨deliveries, requests⟩ := course.plain (keeps_receivePacket.bind fun _ =>
        (keeps_receiveBulk plain_acknowledgement (fun _ => trivial) buffer (some start)).bind
          fun all => plain (all.1, all.2.getD start))
      refine ⟨command.wire.length, false, _, ?_, deliveries, requests⟩
      rw [command.sending_wire]
      rfl
    | unsent short => exact ⟨_, _, [], rfl, rfl, rfl⟩

end Exchange

end DiveLink
