import DiveLink.Dive

/-! Dive records, the form in which downloaded dives are handed over:

    DC DC | version | entry length | logbook entry | dive data -/

set_option autoImplicit false

namespace DiveLink

structure DiveRecord where
  /-- The version byte, which may stand for no known version. -/
  version : UInt8
  entry : Bytes
  dive : Bytes
  deriving DecidableEq, Repr

namespace DiveRecord

def magic : Bytes := [0xDC, 0xDC]

def tagLength : Nat := 4

/-- The record of an entry and its dive. The tag announces the entry length of the layout. -/
def assemble (layout : Layout) (entry dive : Bytes) : Bytes :=
  magic ++ [layout.version.number, .ofNat layout.entryLength] ++ entry ++ dive

def wire (r : DiveRecord) : Bytes :=
  magic ++ [r.version, .ofNat r.entry.length] ++ r.entry ++ r.dive

/-- A record begins with the magic, announces an entry length in use and holds its entry. -/
def read : Bytes → Except Refusal DiveRecord
  | a :: b :: version :: length :: body =>
    if [a, b] = magic then
      if (Layout.fingerprintOffset? length.toNat).isSome then
        if body.length < length.toNat then
          .error (.diveTooShort (tagLength + body.length) (tagLength + length.toNat))
        else .ok ⟨version, body.take length.toNat, body.drop length.toNat⟩
      else .error (.entryLength length)
    else .error (.recordTag [a, b])
  | short => .error (.diveTooShort short.length tagLength)

def apiVersion? (r : DiveRecord) : Option ApiVersion := ApiVersion.ofNumber? r.version

def number? (r : DiveRecord) : Option UInt16 := r.entry.word?

def fingerprint? (r : DiveRecord) : Option Bytes := do
  let offset ← Layout.fingerprintOffset? r.entry.length
  r.entry.slice? offset (offset + Fingerprint.size)

end DiveRecord

end DiveLink
