import DiveLink.Conversation
import DiveLink.Proofs.Following
import DiveLink.Proofs.PacketFormat

set_option autoImplicit false

namespace DiveLink

/-- The packet that a command is sent as. -/
def Command.wire : Command → Bytes
  | .version => Packet.wire CommandCode.version []
  | .setTime time => Packet.wire CommandCode.setTime time.wire
  | .leave => Packet.wire CommandCode.leave []
  | .logbook code => Packet.wire code []
  | .dive low high => Packet.wire CommandCode.dive [low, high]

theorem Command.wire_eq (command : Command) :
    command.wire = Packet.wire command.code command.payload := by
  cases command <;> rfl

theorem Command.wire_code (command : Command) : command.wire[4]? = some command.code := by
  rw [wire_eq, Packet.wire_command]

theorem Command.wire_ne_nil (command : Command) : command.wire ≠ [] := by
  rw [wire_eq]
  exact List.cons_ne_nil _ _

theorem Command.sending_wire (command : Command) :
    Act.sending command.wire = [.sent command.wire command.wire.length false] :=
  if_neg command.wire_ne_nil

open Dialogue

namespace Exchange
variable {limits : Limits} {command : Command}

theorem sendCommand_eq (command : Command) :
    sendCommand command = pause Timing.beforePacket (send command.wire (done ())) := by
  have fit : command.payload.length ≤ Packet.maxPayload :=
    Nat.le_trans command.length_payload_le (by decide)
  rw [sendCommand, Packet.encode_eq fit, ← command.wire_eq]
  rfl

theorem keeps_receivePacket : receivePacket.Keeps limits := fun _ =>
  (keeps_ofExcept _).bind fun _ _ => keeps_ofExcept _

theorem keeps_ask (sends : limits.sends command.wire) : (ask command).Keeps limits := by
  rw [ask, sendCommand_eq, pause_bind, send_bind, done_bind]
  exact ⟨sends, keeps_receivePacket⟩

section Transfers
variable (acknowledges : limits.sends [Chunk.acknowledgement])
  (counts : ∀ now, limits.tells (.progress now))

include acknowledges in
theorem keeps_receiveChunk : receiveChunk.Keeps limits := fun _ =>
  (keeps_ofExcept _).bind fun _ => ⟨acknowledges, trivial⟩

include acknowledges in
theorem keeps_receiveEnd : receiveEnd.Keeps limits := fun bs => by
  rcases bs with _ | ⟨b, _ | _⟩
  · trivial
  · dsimp only
    split
    · exact ⟨acknowledges, trivial⟩
    · trivial
  · trivial

include counts in
theorem keeps_advance (start : Option Progress) (received total : Nat) :
    (advance start received total).Keeps limits := by
  cases start with
  | none => trivial
  | some start => exact ⟨counts _, trivial⟩

include acknowledges counts

theorem keeps_receiveMissing (start : Option Progress) (total received : Nat) (buffer : Bytes)
    (now : Option Progress) : (receiveMissing start total received buffer now).Keeps limits := by
  fun_induction receiveMissing start total received buffer now with
  | case1 received buffer now due length ih =>
    exact (keeps_receiveChunk acknowledges).bind fun data =>
      (keeps_advance counts _ _ _).bind fun next => ih data next
  | case2 => trivial

theorem keeps_receiveBulk (buffer : Bytes) (start : Option Progress) :
    (receiveBulk buffer start).Keeps limits :=
  (keeps_receiveChunk acknowledges).bind fun _ => (keeps_ofExcept _).bind fun _ =>
    (keeps_advance counts _ _ _).bind fun _ =>
      (keeps_receiveMissing acknowledges counts _ _ _ _ _).bind fun _ =>
        (keeps_receiveEnd acknowledges).bind fun _ => trivial

theorem keeps_askBulk (sends : limits.sends command.wire) (buffer : Bytes) (start : Progress) :
    (askBulk command buffer start).Keeps limits :=
  (keeps_ask sends).bind fun _ =>
    (keeps_receiveBulk acknowledges counts buffer (some start)).bind fun _ => trivial

end Transfers

end Exchange

namespace Conversation
open Exchange

variable {limits : Limits} (sends : ∀ command : Command, limits.sends command.wire)
include sends

theorem keeps_readIdentity : readIdentity.Keeps limits :=
  (keeps_ask (sends _)).bind fun _ => (keeps_ofExcept _).bind fun _ => trivial

theorem keeps_setClock (time : DateTime) : (setClock time).Keeps limits :=
  (keeps_ask (sends _)).bind fun _ => trivial

theorem keeps_leave : leave.Keeps limits := (keeps_ask (sends _)).bind fun _ => trivial

section Downloads
variable (acknowledges : limits.sends [Chunk.acknowledgement])
  (counts : ∀ now, limits.tells (.progress now))
include acknowledges counts

theorem keeps_downloadDive (layout : Layout) (entry buffer : Bytes) (start : Progress) :
    (downloadDive layout entry buffer start).Keeps limits := by
  unfold downloadDive
  split
  · exact (keeps_askBulk acknowledges counts (sends _) _ _).bind fun _ =>
      (keeps_ofExcept _).bind fun _ => trivial
  · trivial

variable (hands : ∀ dive, limits.hands dive)
include hands

theorem keeps_downloadDives (layout : Layout) (entries : List Bytes) (buffer : Bytes)
    (start : Progress) : (downloadDives layout entries buffer start).Keeps limits := by
  induction entries generalizing buffer start with
  | nil => trivial
  | cons entry older ih =>
    refine (keeps_downloadDive sends acknowledges counts layout entry buffer start).bind fun _ =>
      (keeps_ofExcept _).bind fun _ => ⟨hands _, ?_⟩
    rintro (_ | _)
    · exact ih _ _
    · trivial

theorem keeps_downloadNew (stored : Fingerprint) : (downloadNew stored).Keeps limits :=
  ⟨counts .start, (keeps_readIdentity sends).bind fun _ =>
    (keeps_askBulk acknowledges counts (sends _) _ _).bind fun _ => (keeps_ofExcept _).bind fun _ =>
      ⟨counts _, keeps_downloadDives sends acknowledges counts hands _ _ _ _⟩⟩

end Downloads

end Conversation

end DiveLink
