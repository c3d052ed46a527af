import DiveLink.Checksum

/-! Chunks, the unit of bulk transfers:

    three bytes | 512 bytes of data | checksum

The checksum covers the data alone, and the first three bytes mean nothing. -/

set_option autoImplicit false

namespace DiveLink.Chunk

def leadLength : Nat := 3

def dataLength : Nat := 512

def length : Nat := leadLength + dataLength + 2

def endByte : UInt8 := 0x04

/-- Written for every sound chunk and for the end byte. -/
def acknowledgement : UInt8 := 0x06

def decode (chunk : Bytes) : Except Refusal Bytes := do
  let data ← within (chunk.slice? leadLength (leadLength + dataLength))
  Checksum.verify data (← within (chunk.slice? (leadLength + dataLength) length))
  .ok data

end DiveLink.Chunk
