import DiveLink.Logbook

/-! The data of one dive, and the check that it belongs to the logbook entry it was asked
for. In the older family the data begins with a copy of the entry that lacks five bytes; in
the newer one number and start date have to agree. -/

set_option autoImplicit false

namespace DiveLink.Dive

/-- The bytes after the number of an entry that its copy lacks. -/
def uncopiedLength : Nat := 5

def dateLength : Nat := 6

def entryDate : Nat := 3

def diveDate : Nat := 4

def agreeOnNumber (entry dive : Bytes) : Except Refusal UInt16 := do
  let inLogbook ← Logbook.number entry
  let inDive ← Logbook.number dive
  if inLogbook = inDive then .ok inDive else .error (.diveNumber inLogbook inDive)

def checkCopiedHeader (entryLength : Nat) (entry dive : Bytes) : Except Refusal Unit :=
  if entryLength < uncopiedLength then .error .overflow
  else
    let headerLength := entryLength - uncopiedLength
    if dive.length < headerLength then .error (.diveTooShort dive.length headerLength)
    else do
      let number ← agreeOnNumber entry dive
      let copy ← within (dive.slice? 2 headerLength)
      let header ← within (entry.slice? (2 + uncopiedLength) entryLength)
      if copy = header then .ok () else .error (.diveHeader number)

def checkStartDate (entry dive : Bytes) : Except Refusal Unit :=
  if dive.length < diveDate + dateLength then
    .error (.diveTooShort dive.length (diveDate + dateLength))
  else do
    let _ ← agreeOnNumber entry dive
    let expected ← within (entry.slice? entryDate (entryDate + dateLength))
    let found ← within (dive.slice? diveDate (diveDate + dateLength))
    if found = expected then .ok () else .error (.startDate expected found)

def validate (layout : Layout) (entry dive : Bytes) : Except Refusal Unit :=
  if layout.version = .v4 then checkStartDate entry dive
  else checkCopiedHeader layout.entryLength entry dive

end DiveLink.Dive
