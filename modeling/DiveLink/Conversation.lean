import DiveLink.DiveRecord
import DiveLink.Exchange

set_option autoImplicit false

namespace DiveLink.Conversation
open Dialogue Exchange

def readIdentity : Dialogue (Bytes × Identity) := do
  let block ← ask .version
  let identity ← ofExcept (Identity.read block)
  done (block, identity)

def identify : Dialogue Identity := do
  let (block, identity) ← readIdentity
  announce (.vendor block) (announce (.deviceInfo identity.info) (done identity))

/-- Downloads the dive of an entry into a buffer and makes its record. What is in the buffer then
is left there for the next dive. -/
def downloadDive (layout : Layout) (entry buffer : Bytes) (start : Progress) :
    Dialogue (Bytes × Bytes × Progress) :=
  match entry with
  | low :: high :: _ => do
    let (dive, now) ← askBulk (.dive low high) buffer start
    ofExcept (Dive.validate layout entry dive)
    done (DiveRecord.assemble layout entry dive, dive, now)
  | _ => refuse .outOfRange

def recordFingerprint (layout : Layout) (record : Bytes) : Except Refusal Bytes :=
  let offset := DiveRecord.tagLength + layout.fingerprintOffset
  within (record.slice? offset (offset + Fingerprint.size))

def downloadDives (layout : Layout) : List Bytes → Bytes → Progress → Dialogue Unit
  | [], _, _ => done ()
  | entry :: older, buffer, start => do
    let (record, dive, now) ← downloadDive layout entry buffer start
    let fingerprint ← ofExcept (recordFingerprint layout record)
    deliver ⟨record, fingerprint⟩ fun
      | .more => downloadDives layout older dive now
      | .stop => done ()

/-- Downloads the logbook, and from it all dives newer than the stored fingerprint, the
newest first. -/
def downloadNew (stored : Fingerprint) : Dialogue Unit :=
  announce (.progress .start) do
    let (_, identity) ← readIdentity
    let layout := identity.layout
    let (table, logbookEnd) ← askBulk (.logbook layout.logbookCode) [] .start
    let entries ← ofExcept (Logbook.pending layout stored table)
    let start := Progress.forDives logbookEnd.current (.ofNat entries.length)
    announce (.progress start) (downloadDives layout entries [] start)

def setClock (time : DateTime) : Dialogue Unit := do
  let _ ← ask (.setTime time)
  done ()

def leave : Dialogue Unit := do
  let _ ← ask .leave
  done ()

end DiveLink.Conversation
