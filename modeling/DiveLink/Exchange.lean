import DiveLink.Chunk
import DiveLink.Dialogue
import DiveLink.Line
import DiveLink.Packet

/-! One command and its answer: a packet each way, and after the answer packet of some
commands a bulk transfer. A bulk transfer is a row of chunks, each acknowledged before the
next is sent, and an end byte. Its data begins with the count of the bytes after that count. -/

set_option autoImplicit false

namespace DiveLink.Exchange
open Dialogue

def sendCommand (command : Command) : Dialogue Unit := do
  let packet ← ofExcept (Packet.encode command.code command.payload)
  pause Timing.beforePacket (send packet (done ()))

/-- The payload of one packet. What the first bytes announce decides how many follow. -/
def receivePacket : Dialogue Bytes :=
  receive Packet.headerLength fun header => do
    let length ← ofExcept (Packet.payloadLength header)
    receive (length + (Packet.overhead - Packet.headerLength)) fun rest =>
      ofExcept (Packet.decode (header ++ rest))

def ask (command : Command) : Dialogue Bytes := do
  sendCommand command
  receivePacket

def receiveChunk : Dialogue Bytes :=
  receive Chunk.length fun chunk => do
    let data ← ofExcept (Chunk.decode chunk)
    send [Chunk.acknowledgement] (done data)

def advance (start : Option Progress) (received total : Nat) : Dialogue (Option Progress) :=
  match start with
  | none => done none
  | some start =>
    let now := start.during received total
    announce (.progress now) (done (some now))

def receiveMissing (start : Option Progress) (total received : Nat) (buffer : Bytes)
    (now : Option Progress) : Dialogue (Bytes × Option Progress) :=
  if received < total then do
    let length := min (total - received) Chunk.dataLength
    let data ← receiveChunk
    let next ← advance start (received + length) total
    receiveMissing start total (received + length) (buffer ++ data.take length) next
  else done (buffer, now)
termination_by total - received
decreasing_by
  simp only [Chunk.dataLength]
  omega

def receiveEnd : Dialogue Unit :=
  receive 1 fun
    | [b] =>
      if b = Chunk.endByte then send [Chunk.acknowledgement] (done ()) else refuse (.endByte b)
    | _ => refuse .outOfRange

def countLength : Nat := 2

/-- One bulk transfer into a buffer, which is emptied first: the data without the count, and the
progress at the end. -/
def receiveBulk (buffer : Bytes) (start : Option Progress) :
    Dialogue (Bytes × Option Progress) := do
  let emptied := buffer.take 0
  let first ← receiveChunk
  let announced ← ofExcept (within first.word?)
  let total := countLength + announced.toNat
  let length := min total Chunk.dataLength
  let now ← advance start length total
  let all ← receiveMissing start total length
    (emptied ++ (first.take length).drop countLength) now
  receiveEnd
  done all

def askBulk (command : Command) (buffer : Bytes) (start : Progress) :
    Dialogue (Bytes × Progress) := do
  let _ ← ask command
  let (data, last) ← receiveBulk buffer (some start)
  done (data, last.getD start)

end DiveLink.Exchange
