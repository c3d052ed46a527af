import DiveLink.Refusal

set_option autoImplicit false

namespace DiveLink

inductive ApiVersion where
  | v0 | v1 | v2 | v3 | v4
  deriving DecidableEq, Repr

namespace ApiVersion

def number : ApiVersion → UInt8
  | v0 => 0
  | v1 => 1
  | v2 => 2
  | v3 => 3
  | v4 => 4

def ofNumber? : UInt8 → Option ApiVersion
  | 0 => some v0
  | 1 => some v1
  | 2 => some v2
  | 3 => some v3
  | 4 => some v4
  | _ => none

@[simp] theorem ofNumber?_number (v : ApiVersion) : ofNumber? v.number = some v := by
  cases v <;> rfl

def text (v : ApiVersion) : String := s!"v{v.number.toNat}"

def ofFirmware? (firmware : UInt16) : Option ApiVersion :=
  let n := firmware.toNat
  if 161 ≤ n ∧ n ≤ 165 then some v0
  else if 166 ≤ n ∧ n ≤ 169 then some v1
  else if 170 ≤ n ∧ n ≤ 179 then some v2
  else if 100 ≤ n ∧ n ≤ 110 ∨ n = 900 then some v3
  else if 200 ≤ n ∧ n ≤ 205 then some v4
  else none

def maxModel : UInt8 := 11

def models : ApiVersion → List UInt8
  | v0 | v1 => [1, 2]
  | v2 => [1, 2, 9]
  | v3 => [1, 2, 3, 4, 5, 6, 7, 8, 9, 10, 11]
  | v4 => [1, 2, 4, 5, 9, 10]

def supports (v : ApiVersion) (model : UInt8) : Bool := v.models.contains model

/-- The generation that a model with a firmware speaks. An unknown model is reported first,
then an unknown firmware, and last two that do not go together. -/
def negotiate (model : UInt8) (firmware : UInt16) : Except Refusal ApiVersion :=
  if model = 0 ∨ maxModel < model then .error (.unknownModel model)
  else
    match ofFirmware? firmware with
    | none => .error (.unknownFirmware firmware)
    | some v =>
      if v.supports model then .ok v
      else .error (.unsupportedCombination model firmware v.number)

end ApiVersion

end DiveLink
