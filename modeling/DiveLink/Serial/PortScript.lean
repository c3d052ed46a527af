import DiveLink.Serial.Port

set_option autoImplicit false

namespace DiveLink.Serial

inductive PortSupply where
  | bytes (bs : Bytes)
  | fault (kind : IoKind)
  deriving DecidableEq, Repr

inductive PortAcceptance where
  | atMost (count : Nat)
  | fault (kind : IoKind)
  deriving DecidableEq, Repr

inductive PortCall where
  | baudRate | dataBits | parity | stopBits | flowControl | timeout | requestToSend
  | dataTerminalReady | clear | read | write
  deriving DecidableEq, Repr

namespace PortCall

def name : PortCall → String
  | baudRate => "set_baud_rate"
  | dataBits => "set_data_bits"
  | parity => "set_parity"
  | stopBits => "set_stop_bits"
  | flowControl => "set_flow_control"
  | timeout => "set_timeout"
  | requestToSend => "write_request_to_send"
  | dataTerminalReady => "write_data_terminal_ready"
  | clear => "clear"
  | read => "read"
  | write => "write"

def ofRequest : Request → PortCall
  | .baudRate _ => baudRate
  | .dataBits _ => dataBits
  | .parity _ => parity
  | .stopBits _ => stopBits
  | .flowControl _ => flowControl
  | .timeout _ => timeout
  | .requestToSend _ => requestToSend
  | .dataTerminalReady _ => dataTerminalReady
  | .clear _ => clear

def error (call : PortCall) (kind : IoKind) : PortError := ⟨kind, s!"port-{call.name}"⟩

end PortCall

/-- A call with its outcome: the kind of its error, or for a read and a write a count. -/
inductive PortEntry where
  | request (request : Request) (outcome : Except IoKind Unit)
  | read (requested : Nat) (outcome : Except IoKind Nat)
  | write (offered : Bytes) (outcome : Except IoKind Nat)

structure PortScript where
  name : String
  incoming : List PortSupply
  /-- Once it is used up, all bytes are taken. -/
  outgoing : List PortAcceptance
  /-- The calls that always fail, each with the kind of its error. -/
  failing : List (PortCall × IoKind)
  /-- The calls so far, the last one first. -/
  received : List PortEntry

namespace PortScript

def failure? (call : PortCall) (port : PortScript) : Option PortError :=
  (port.failing.lookup call).map call.error

/-- What one read of `count` bytes makes of the supplies. Only the first supply is touched. -/
def readFrom (count : Nat) : List PortSupply → Except PortError Bytes × List PortSupply
  | [] => (.error (PortCall.read.error .timedOut), [])
  | .fault kind :: later => (.error (PortCall.read.error kind), later)
  | .bytes bs :: later =>
    if bs.length ≤ count then (.ok bs, later)
    else (.ok (bs.take count), .bytes (bs.drop count) :: later)

def writeTo (count : Nat) : List PortAcceptance → Except PortError Nat × List PortAcceptance
  | [] => (.ok count, [])
  | .atMost limit :: later => (.ok (min limit count), later)
  | .fault kind :: later => (.error (PortCall.write.error kind), later)

def note (entry : PortEntry) (port : PortScript) : PortScript :=
  { port with received := entry :: port.received }

def request (request : Request) (port : PortScript) : Except PortError Unit × PortScript :=
  match port.failure? (.ofRequest request) with
  | some e => (.error e, port.note (.request request (.error e.kind)))
  | none => (.ok (), port.note (.request request (.ok ())))

def read (count : Nat) (port : PortScript) : Except PortError Bytes × PortScript :=
  let (outcome, later) : Except PortError Bytes × List PortSupply :=
    match port.failure? .read with
    | some e => (.error e, port.incoming)
    | none => readFrom count port.incoming
  let counted := (outcome.map List.length).mapError PortError.kind
  (outcome, { port with incoming := later }.note (.read count counted))

def write (bs : Bytes) (port : PortScript) : Except PortError Nat × PortScript :=
  let (outcome, later) : Except PortError Nat × List PortAcceptance :=
    match port.failure? .write with
    | some e => (.error e, port.outgoing)
    | none => writeTo bs.length port.outgoing
  (outcome, { port with outgoing := later }.note (.write bs (outcome.mapError PortError.kind)))

instance : SerialPort PortScript where
  request := request
  read := read
  write := write

end PortScript

end DiveLink.Serial
