import DiveLink.ByteStream

set_option autoImplicit false

namespace DiveLink

inductive Supply where
  | bytes (bs : Bytes)
  | silence
  | fault
  deriving DecidableEq, Repr

def Supply.length : Supply → Nat
  | bytes bs => bs.length
  | silence | fault => 0

inductive Acceptance where
  | atMost (count : Nat)
  | fault
  deriving DecidableEq, Repr

inductive ScriptCall where
  | configure | timeout | requestToSend | dataTerminalReady | purge | read | write
  deriving DecidableEq, Repr

namespace ScriptCall

def name : ScriptCall → String
  | configure => "configure"
  | timeout => "set_timeout"
  | requestToSend => "set_rts"
  | dataTerminalReady => "set_dtr"
  | purge => "purge"
  | read => "read"
  | write => "write"

instance : ToString ScriptCall := ⟨fun call => s!"mock-{call.name}"⟩

def ofControl : Control → ScriptCall
  | .configure _ => configure
  | .timeout _ => timeout
  | .requestToSend _ => requestToSend
  | .dataTerminalReady _ => dataTerminalReady
  | .purge _ => purge

end ScriptCall

structure Script where
  incoming : List Supply
  /-- Once it is used up, all bytes are taken. -/
  outgoing : List Acceptance
  maxRead : Option Nat
  /-- The requests to the line that fail. -/
  failing : List ScriptCall
  deriving DecidableEq, Repr

namespace Script

/-- What one read of `count` bytes makes of the supplies. Only one supply is touched, empty
ones apart. -/
def readFrom (count : Nat) : List Supply → Except ScriptCall Bytes × List Supply
  | [] => (.ok [], [])
  | .bytes [] :: later => readFrom count later
  | .bytes bs :: later =>
    if bs.length ≤ count then (.ok bs, later)
    else (.ok (bs.take count), .bytes (bs.drop count) :: later)
  | .silence :: later => (.ok [], later)
  | .fault :: later => (.error .read, later)

def readLimit (count : Nat) (script : Script) : Nat :=
  match script.maxRead with
  | none => count
  | some most => min count most

def read (count : Nat) (script : Script) : Except ScriptCall Bytes × Script :=
  let (outcome, later) := readFrom (script.readLimit count) script.incoming
  (outcome, { script with incoming := later })

def write (bs : Bytes) (script : Script) : Except ScriptCall Nat × Script :=
  match script.outgoing with
  | [] => (.ok bs.length, script)
  | .atMost count :: later => (.ok (min count bs.length), { script with outgoing := later })
  | .fault :: later => (.error .write, { script with outgoing := later })

def control (call : Control) (script : Script) : Except ScriptCall Unit × Script :=
  if ScriptCall.ofControl call ∈ script.failing then (.error (.ofControl call), script)
  else (.ok (), script)

instance : ByteStream Script ScriptCall where
  control := control
  sleep _ script := script
  read := read
  write := write

def queue (supplies : List Supply) (script : Script) : Script :=
  { script with incoming := script.incoming ++ supplies }

def unread (script : Script) : Nat := script.incoming.foldr (·.length + ·) 0

end Script

end DiveLink
