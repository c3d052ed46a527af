import DiveLink.Checksum

/-! Packets, the unit of requests and short answers:

    AA AA AA | length | command | payload | checksum | 55

The checksum covers the length, the command and the payload. -/

set_option autoImplicit false

namespace DiveLink.Packet

def marker : UInt8 := 0xAA

def trailer : UInt8 := 0x55

def maxPayload : Nat := 12

def overhead : Nat := 8

def maxLength : Nat := maxPayload + overhead

def headerLength : Nat := 4

def covered (command : UInt8) (payload : Bytes) : Bytes :=
  .ofNat payload.length :: command :: payload

def encode (command : UInt8) (payload : Bytes) : Except Refusal Bytes :=
  if payload.length ≤ maxPayload then
    let body := covered command payload
    .ok ([marker, marker, marker] ++ body ++ wordBytes (Checksum.compute body) ++ [trailer])
  else .error (.payloadTooLarge payload.length maxPayload)

def payloadLength : Bytes → Except Refusal Nat
  | a :: b :: c :: length :: _ =>
    if [a, b, c] = [marker, marker, marker] then
      if length.toNat ≤ maxPayload then .ok length.toNat else .error (.payloadLength length)
    else .error (.headerMarkers [a, b, c])
  | short => .error (.truncated short.length headerLength)

/-- The payload of a complete packet. Bytes after the packet and the command byte, which the
device echoes, are not looked at. -/
def decode (packet : Bytes) : Except Refusal Bytes := do
  let length ← payloadLength packet
  if packet.length < length + overhead then
    .error (.truncated packet.length (length + overhead))
  else do
    let closing ← within packet[length + 7]?
    if closing ≠ trailer then .error (.trailer closing)
    else do
      Checksum.verify (← within (packet.slice? 3 (length + 5)))
        (← within (packet.slice? (length + 5) (length + 7)))
      within (packet.slice? 5 (length + 5))

theorem length_encode {command : UInt8} {payload packet : Bytes}
    (h : encode command payload = .ok packet) : packet.length = payload.length + overhead := by
  unfold encode at h
  split at h
  · cases h
    simp [covered, overhead]
  · cases h

theorem payloadLength_le {header : Bytes} {length : Nat}
    (h : payloadLength header = .ok length) : length ≤ maxPayload := by
  unfold payloadLength at h
  split at h
  · split at h
    · split at h
      · next hle => cases h; exact hle
      · cases h
    · cases h
  · cases h

end DiveLink.Packet
