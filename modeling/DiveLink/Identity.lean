import DiveLink.ApiVersion
import DiveLink.Command

/-! The identification block: its length tells the family of the device and with it the
layout of the logbook, its contents the model, the firmware and the serial number. -/

set_option autoImplicit false

namespace DiveLink

structure Layout where
  version : ApiVersion
  identificationLength : Nat
  entryLength : Nat
  fingerprintOffset : Nat
  logbookCode : UInt8
  deriving DecidableEq, Repr

namespace Layout

def copiedHeader : Layout := ⟨.v0, 9, 23, 17, CommandCode.logbook⟩

def startDate : Layout := ⟨.v4, 11, 15, 3, CommandCode.startDateLogbook⟩

/-- The families; the version that stands in each gives way to the negotiated one. -/
def families : List Layout := [copiedHeader, startDate]

def fingerprintOffset? (entryLength : Nat) : Option Nat :=
  (families.find? (·.entryLength = entryLength)).map (·.fingerprintOffset)

end Layout

structure DeviceInfo where
  model : UInt8
  firmware : UInt16
  serial : UInt32
  deriving DecidableEq, Repr

def DeviceInfo.read? : Bytes → Option DeviceInfo
  | s₀ :: s₁ :: s₂ :: s₃ :: model :: low :: high :: _ =>
    some ⟨model, word low high, doubleWord s₀ s₁ s₂ s₃⟩
  | _ => none

structure Identity where
  info : DeviceInfo
  layout : Layout
  deriving DecidableEq, Repr

def Identity.read (block : Bytes) : Except Refusal Identity :=
  match Layout.families.find? (·.identificationLength = block.length) with
  | none => .error (.identificationLength block.length)
  | some family => do
    let info ← within (DeviceInfo.read? block)
    let version ← ApiVersion.negotiate info.model info.firmware
    .ok ⟨info, { family with version := version }⟩

end DiveLink
