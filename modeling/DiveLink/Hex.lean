import DiveLink.Bytes

set_option autoImplicit false

namespace DiveLink.Hex

def digit (n : Nat) : Char := if n < 10 then Char.ofNat (48 + n) else Char.ofNat (87 + n)

def digits : Nat → Nat → List Char
  | 0, _ => []
  | count + 1, n => digits count (n / 16) ++ [digit (n % 16)]

def byte (b : UInt8) : String := String.ofList (digits 2 b.toNat)

def markedByte (b : UInt8) : String := "0x" ++ byte b

def markedWord (w : UInt16) : String := "0x" ++ String.ofList (digits 4 w.toNat)

def list (bs : Bytes) : String := "[" ++ ", ".intercalate (bs.map byte) ++ "]"

end DiveLink.Hex
