import DiveLink.Hex

set_option autoImplicit false

namespace DiveLink

/-- What a caller needs to know to decide whether to try again. -/
inductive ErrorKind where
  /-- The caller asked for something the link cannot carry. -/
  | invalidArgument
  /-- The stream failed or stayed silent. -/
  | io
  /-- The device broke the rules of packets or bulk transfers. -/
  | protocol
  /-- The packets were sound and what they carried was not. -/
  | dataFormat
  | outOfMemory
  /-- The device is none that the link knows how to talk to. -/
  | unsupported
  /-- A computation was given operands outside its range. -/
  | fault
  deriving DecidableEq, Repr

/-- One constructor per cause. The last two say that a cut or a sum went out of range:
no bytes received can lead there, only arguments that no caller here builds. -/
inductive Refusal where
  | payloadTooLarge (size max : Nat)
  | fingerprintSize (size : Nat)
  | headerMarkers (found : Bytes)
  | truncated (size min : Nat)
  | payloadLength (length : UInt8)
  | trailer (found : UInt8)
  | checksum (expected calculated : UInt16)
  | endByte (found : UInt8)
  | diveTooShort (size min : Nat)
  | diveNumber (logbook dive : UInt16)
  | diveHeader (number : UInt16)
  | startDate (logbook dive : Bytes)
  | entryLength (length : UInt8)
  | recordTag (found : Bytes)
  | outOfMemory (requested : Nat)
  | identificationLength (length : Nat)
  | unknownModel (model : UInt8)
  | unknownFirmware (firmware : UInt16)
  | unsupportedCombination (model : UInt8) (firmware : UInt16) (version : UInt8)
  | outOfRange
  | overflow
  deriving DecidableEq, Repr

namespace Refusal

def kind : Refusal → ErrorKind
  | payloadTooLarge .. | fingerprintSize .. => .invalidArgument
  | headerMarkers .. | truncated .. | payloadLength .. | trailer .. | checksum .. | endByte .. =>
    .protocol
  | diveTooShort .. | diveNumber .. | diveHeader .. | startDate .. | entryLength ..
  | recordTag .. => .dataFormat
  | outOfMemory .. => .outOfMemory
  | identificationLength .. | unknownModel .. | unknownFirmware ..
  | unsupportedCombination .. => .unsupported
  | outOfRange | overflow => .fault

def message : Refusal → String
  | payloadTooLarge size max => s!"Payload too large: {size} bytes, at most {max} allowed"
  | fingerprintSize size => s!"Invalid fingerprint size: {size} bytes"
  | headerMarkers found => s!"Unexpected header bytes: {Hex.list found}"
  | truncated size min => s!"Truncated packet: {size} bytes, expected at least {min}"
  | payloadLength length => s!"Unexpected payload size: {length.toNat}"
  | trailer found => s!"Unexpected trailer byte: {Hex.markedByte found}"
  | checksum expected calculated =>
    s!"CRC mismatch: expected {Hex.markedWord expected}, calculated {Hex.markedWord calculated}"
  | endByte found => s!"Unexpected end byte: {Hex.markedByte found}"
  | diveTooShort size min => s!"Dive data too short: {size} bytes, expected at least {min}"
  | diveNumber logbook dive => s!"Unexpected dive number {dive.toNat} != {logbook.toNat}"
  | diveHeader number => s!"Unexpected dive header for dive {number.toNat}"
  | startDate logbook dive => s!"Unexpected start date {Hex.list dive} != {Hex.list logbook}"
  | entryLength length => s!"Unknown logbook entry length: {length.toNat}"
  | recordTag found => s!"Unexpected record tag: {Hex.list found}"
  | outOfMemory requested => s!"Out of memory: failed to reserve {requested} bytes"
  | identificationLength length => s!"Unrecognized identification length: {length} bytes"
  | unknownModel model => s!"Unknown model {model.toNat}"
  | unknownFirmware firmware => s!"Unknown firmware version {firmware.toNat}"
  | unsupportedCombination model firmware version =>
    s!"Firmware version {firmware.toNat} of model {model.toNat} not known to support " ++
      s!"API v{version.toNat}"
  | outOfRange => "Position out of range"
  | overflow => "Number out of range"

end Refusal

def within {α : Type} : Option α → Except Refusal α
  | some a => .ok a
  | none => .error .outOfRange

end DiveLink
