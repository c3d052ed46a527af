import DiveLink.Refusal

set_option autoImplicit false

namespace DiveLink

inductive Failure (ε : Type) where
  | io (cause : ε)
  /-- The stream moved no byte when more were due. -/
  | timeout (expected transferred : Nat)
  | refused (why : Refusal)
  deriving DecidableEq, Repr

namespace Failure
variable {ε : Type}

def kind : Failure ε → ErrorKind
  | io _ | timeout .. => .io
  | refused why => why.kind

def message [ToString ε] : Failure ε → String
  | io cause => s!"I/O error: {cause}"
  | timeout expected transferred =>
    s!"Operation timed out after {transferred} of {expected} bytes"
  | refused why => why.message

end Failure

end DiveLink
