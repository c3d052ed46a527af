import DiveLink.Session

/-! Sessions on memory of fixed sizes: buffers with a capacity, lengths, positions and sums that fit
in a word, and cuts that lie inside what they cut. Whatever does not fit ends a run with a fault. -/

set_option autoImplicit false

namespace DiveLink.Checked
open Dialogue

def holds (condition : Bool) : Except Refusal Unit :=
  if condition then .ok () else .error .outOfRange

/-- A length or a position. Words have 32 bits at least. -/
def fits (n : Nat) : Except Refusal Unit :=
  if n < UInt32.size then .ok () else .error .overflow

def word32 (n : Nat) : Except Refusal UInt32 :=
  if n < UInt32.size then .ok (.ofNat n) else .error .overflow

def range (start stop capacity : Nat) : Except Refusal Nat :=
  if start ≤ stop ∧ stop ≤ capacity then .ok (stop - start) else .error .outOfRange

def cut (start stop : Nat) (bs : Bytes) : Except Refusal Bytes := within (bs.slice? start stop)

def push (capacity : Nat) (buffer more : Bytes) : Except Refusal Bytes :=
  if buffer.length + more.length ≤ capacity then .ok (buffer ++ more) else .error .outOfRange

def payload : Command → Except Refusal Bytes
  | .setTime time => push Packet.maxPayload [] time.wire
  | .dive low high => push Packet.maxPayload [] [low, high]
  | .version | .leave | .logbook _ => .ok []

def encode (code : UInt8) (payload : Bytes) : Except Refusal Bytes :=
  if payload.length ≤ Packet.maxPayload then do
    let start ← push Packet.maxLength []
      [Packet.marker, Packet.marker, Packet.marker, .ofNat payload.length, code]
    let front ← push Packet.maxLength start payload
    let covered ← cut 3 front.length front
    let summed ← push Packet.maxLength front (wordBytes (Checksum.compute covered))
    push Packet.maxLength summed [Packet.trailer]
  else .error (.payloadTooLarge payload.length Packet.maxPayload)

def sendCommand (command : Command) : Dialogue Unit := do
  let payload ← ofExcept (payload command)
  let packet ← ofExcept (encode command.code payload)
  pause Timing.beforePacket (send packet (done ()))

def receivePacket : Dialogue Bytes :=
  receive Packet.headerLength fun header => do
    let length ← ofExcept (Packet.payloadLength header)
    let missing ← ofExcept
      (range Packet.headerLength (length + Packet.overhead) Packet.maxLength)
    receive missing fun rest => do
      let payload ← ofExcept (Packet.decode (header ++ rest))
      ofExcept (push Packet.maxPayload [] payload)

def ask (command : Command) : Dialogue Bytes := do
  ofExcept (holds !command.isBulk)
  sendCommand command
  receivePacket

def progressStep (received total : Nat) : Except Refusal UInt32 :=
  if Progress.steps * received + total / 2 < UInt64.size then .ok (Progress.step received total)
  else .error .overflow

def during (p : Progress) (received total : Nat) : Except Refusal Progress := do
  let done ← progressStep received total
  let current ← word32 (p.current.toNat + done.toNat)
  .ok { p with current := current }

def forDives (current dives : UInt32) : Except Refusal Progress := do
  let maximum ← word32 ((dives.toNat + 1) * Progress.steps)
  .ok ⟨current, maximum⟩

def advance (start : Option Progress) (received total : Nat) : Dialogue (Option Progress) :=
  match start with
  | none => done none
  | some start => do
    let now ← ofExcept (during start received total)
    announce (.progress now) (done (some now))

def receiveMissing (start : Option Progress) (total received : Nat) (buffer : Bytes)
    (now : Option Progress) : Dialogue (Bytes × Option Progress) :=
  if received < total then do
    let length := min (total - received) Chunk.dataLength
    let data ← Exchange.receiveChunk
    let part ← ofExcept (cut 0 length data)
    ofExcept (fits (received + length))
    let next ← advance start (received + length) total
    receiveMissing start total (received + length) (buffer ++ part) next
  else done (buffer, now)
termination_by total - received
decreasing_by
  simp only [Chunk.dataLength]
  omega

def receiveBulk (buffer : Bytes) (start : Option Progress) :
    Dialogue (Bytes × Option Progress) := do
  let emptied := buffer.take 0
  let first ← Exchange.receiveChunk
  let announced ← ofExcept (within first.word?)
  let total := Exchange.countLength + announced.toNat
  ofExcept (fits total)
  let length := min total Chunk.dataLength
  let part ← ofExcept (cut Exchange.countLength length first)
  ofExcept (fits length)
  let now ← advance start length total
  let all ← receiveMissing start total length (emptied ++ part) now
  Exchange.receiveEnd
  done all

def askBulk (command : Command) (buffer : Bytes) (start : Progress) :
    Dialogue (Bytes × Progress) := do
  ofExcept (holds command.isBulk)
  sendCommand command
  let _ ← receivePacket
  let (data, last) ← receiveBulk buffer (some start)
  done (data, last.getD start)

def readIdentity : Dialogue (Bytes × Identity) := do
  let block ← ask .version
  let identity ← ofExcept (Identity.read block)
  done (block, identity)

def identify : Dialogue Identity := do
  let (block, identity) ← readIdentity
  announce (.vendor block) (announce (.deviceInfo identity.info) (done identity))

def downloadDive (layout : Layout) (entry buffer : Bytes) (start : Progress) :
    Dialogue (Bytes × Bytes × Progress) :=
  match entry with
  | low :: high :: _ => do
    let (dive, now) ← askBulk (.dive low high) buffer start
    ofExcept (Dive.validate layout entry dive)
    ofExcept (fits (DiveRecord.tagLength + entry.length + dive.length))
    done (DiveRecord.assemble layout entry dive, dive, now)
  | _ => refuse .outOfRange

def downloadDives (layout : Layout) : List Bytes → Bytes → Progress → Dialogue Unit
  | [], _, _ => done ()
  | entry :: older, buffer, start => do
    let (record, dive, now) ← downloadDive layout entry buffer start
    ofExcept (fits (DiveRecord.tagLength + layout.fingerprintOffset + Fingerprint.size))
    let fingerprint ← ofExcept (Conversation.recordFingerprint layout record)
    deliver ⟨record, fingerprint⟩ fun
      | .more => downloadDives layout older dive now
      | .stop => done ()

def downloadNew (stored : Fingerprint) : Dialogue Unit :=
  announce (.progress .start) do
    let (_, identity) ← readIdentity
    let layout := identity.layout
    let (table, logbookEnd) ← askBulk (.logbook layout.logbookCode) [] .start
    let entries ← ofExcept (Logbook.pending layout stored table)
    let start ← ofExcept (forDives logbookEnd.current (.ofNat entries.length))
    announce (.progress start) (downloadDives layout entries [] start)

def setClock (time : DateTime) : Dialogue Unit := do
  let _ ← ask (.setTime time)
  done ()

def leave : Dialogue Unit := do
  let _ ← ask .leave
  done ()

section
variable {σ ε : Type} [ByteStream σ ε]

def fill (size : Nat) (filled : Bytes) (stream : σ) : Run σ ε Bytes :=
  if filled.length < size then
    let missing := size - filled.length
    match ByteStream.read missing stream with
    | (.error cause, left) => ⟨.error (.io cause), [.read missing none], left⟩
    | (.ok [], left) => ⟨.error (.timeout size filled.length), [.read missing (some 0)], left⟩
    | (.ok (b :: bs), left) =>
      if filled.length + (b :: bs).length ≤ size then
        (fill size (filled ++ b :: bs) left).after [.read missing (some (b :: bs).length)]
      else ⟨.error (.refused .outOfRange), [.read missing (some (b :: bs).length)], left⟩
  else .ended (.ok filled) stream
termination_by size - filled.length
decreasing_by
  simp only [List.length_append, List.length_cons]
  omega

def drain (bs : Bytes) (gone : Nat) (stream : σ) : Run σ ε Unit :=
  if gone < bs.length then
    let due := bs.drop gone
    match ByteStream.write due stream with
    | (.error cause, left) => ⟨.error (.io cause), [.write due none], left⟩
    | (.ok 0, left) => ⟨.error (.timeout bs.length gone), [.write due (some 0)], left⟩
    | (.ok (count + 1), left) =>
      if gone + (count + 1) ≤ bs.length then
        (drain bs (gone + (count + 1)) left).after [.write due (some (count + 1))]
      else ⟨.error (.refused .outOfRange), [.write due (some (count + 1))], left⟩
  else .ended (.ok ()) stream
termination_by bs.length - gone

def run {α : Type} (listener : Option String) (receiver : Receiver) :
    Dialogue α → List Delivery → σ → Run σ ε α
  | .done a, _, stream => .ended (.ok a) stream
  | .refuse why, _, stream => .ended (.error (.refused why)) stream
  | .pause ms next, made, stream =>
    (run listener receiver next made (ByteStream.sleep ms stream)).after [.sleep ms]
  | .send bs next, made, stream =>
    (drain bs 0 stream).andThen fun _ left => run listener receiver next made left
  | .receive count next, made, stream =>
    (fill count [] stream).andThen fun bs left => run listener receiver (next bs) made left
  | .announce event next, made, stream =>
    (run listener receiver next made stream).after (listener.toList.map (.event · event))
  | .deliver dive next, made, stream =>
    let made := made ++ [dive]
    (run listener receiver (next (receiver made)) made stream).after [.dive dive]

end

def converse {α : Type} (receiver : Receiver) (dialogue : Dialogue α) (value : α → Nat → Value)
    (session : Session) : Report × Session :=
  let run := run session.device.listener receiver dialogue [] session.script
  let dives := run.trace.countP Observation.isDive
  Session.report (run.result.map (value · dives)) run.trace { session with script := run.stream }

/-- Only the steps that carry a dialogue have anything to check. -/
def step : Step → Session → Report × Session
  | .identify, session => converse .takesAll identify (fun identity _ => .identity identity) session
  | .downloadNew receiver, session =>
    converse receiver (downloadNew session.device.fingerprint) (fun _ dives => .dives dives) session
  | .setClock time, session => converse .takesAll (setClock time) (fun _ _ => .nothing) session
  | .leave, session => converse .takesAll leave (fun _ _ => .nothing) session
  | other, session => session.step other

def steps : List Step → Session → List Report × Session
  | [], session => ([], session)
  | next :: later, session =>
    let (report, session) := step next session
    let (reports, session) := steps later session
    (report :: reports, session)

def play (start : Session.Start) (script : Script) (plan : List Step) : List Report :=
  match start with
  | .ready =>
    let session : Session := ⟨.fresh, script⟩
    (session.quietly .nothing).1 :: (steps plan session).1
  | .setup =>
    let run := Device.connect script
    match run.result with
    | .ok () =>
      let session : Session := ⟨.fresh, run.stream⟩
      (session.report (.ok .nothing) run.trace).1 :: (steps plan session).1
    | .error failure => [⟨.error failure, run.trace, none, run.stream.unread⟩]

end DiveLink.Checked
