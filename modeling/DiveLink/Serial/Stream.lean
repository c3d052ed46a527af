import DiveLink.ByteStream
import DiveLink.Serial.Port

/-! A stream over a serial port. It passes every call on to the port; a read or write that the
port gives up for lack of time has moved no bytes. -/

set_option autoImplicit false

namespace DiveLink.Serial

structure SerialStream (π : Type) where
  port : π
  deriving DecidableEq, Repr

namespace SerialStream

def settingRequests (settings : LineSettings) : Except PortError (List Request) :=
  match DataBits.ofNumber? settings.dataBits with
  | none => .error ⟨.invalidInput, s!"unsupported data bits: {settings.dataBits.toNat}"⟩
  | some bits =>
    .ok [.baudRate settings.baudRate, .dataBits bits, .parity settings.parity,
      .stopBits settings.stopBits, .flowControl settings.flowControl]

def requests : Control → Except PortError (List Request)
  | .configure settings => settingRequests settings
  | .timeout ms => .ok [.timeout ms]
  | .requestToSend level => .ok [.requestToSend level]
  | .dataTerminalReady level => .ok [.dataTerminalReady level]
  | .purge direction => .ok [.clear direction]

/-- A call that ran out of time has moved no bytes. -/
def tolerate {α : Type} (nothing : α) : Except PortError α → Except PortError α
  | .ok a => .ok a
  | .error e => if e.kind = .timedOut then .ok nothing else .error e

variable {π : Type} [SerialPort π]

def requestAll : List Request → π → Except PortError Unit × π
  | [], port => (.ok (), port)
  | first :: later, port =>
    match SerialPort.request first port with
    | (.ok (), port) => requestAll later port
    | (.error e, port) => (.error e, port)

def control (call : Control) (stream : SerialStream π) : Except PortError Unit × SerialStream π :=
  match requests call with
  | .ok calls =>
    let (outcome, port) := requestAll calls stream.port
    (outcome, ⟨port⟩)
  | .error e => (.error e, stream)

def read (count : Nat) (stream : SerialStream π) : Except PortError Bytes × SerialStream π :=
  let (outcome, port) := SerialPort.read count stream.port
  (tolerate [] outcome, ⟨port⟩)

def write (bs : Bytes) (stream : SerialStream π) : Except PortError Nat × SerialStream π :=
  let (outcome, port) := SerialPort.write bs stream.port
  (tolerate 0 outcome, ⟨port⟩)

instance : ByteStream (SerialStream π) PortError where
  control := control
  sleep _ stream := stream
  read := read
  write := write

end SerialStream

end DiveLink.Serial
