import DiveLink.Conversation
import DiveLink.Device
import DiveLink.Serial.PortScript
import DiveLink.Serial.Stream

set_option autoImplicit false

namespace DiveLink.Serial

inductive StreamCall where
  | control (call : Control)
  | sleep (ms : Nat)
  | read (count : Nat)
  | write (bs : Bytes)
  | connect
  | identify
  | setClock (time : DateTime)
  | leave
  deriving DecidableEq, Repr

inductive StreamValue where
  | nothing
  | bytes (bs : Bytes)
  | count (count : Nat)
  | identity (identity : Identity)
  deriving DecidableEq, Repr

/-- How a call fails: as one call of the stream, or as a conversation. -/
inductive StreamFailure where
  | call (error : PortError)
  | conversation (failure : Failure PortError)
  deriving DecidableEq, Repr

structure CallReport where
  result : Except StreamFailure StreamValue
  /-- The calls that the port received, in their order. -/
  received : List PortEntry

namespace StreamCall

def single {α : Type} (value : α → StreamValue)
    (made : Except PortError α × SerialStream PortScript) :
    Except StreamFailure StreamValue × SerialStream PortScript :=
  ((made.1.map value).mapError .call, made.2)

def conversation {α : Type} (value : α → StreamValue)
    (run : Run (SerialStream PortScript) PortError α) :
    Except StreamFailure StreamValue × SerialStream PortScript :=
  ((run.result.map value).mapError .conversation, run.stream)

def perform (stream : SerialStream PortScript) :
    StreamCall → Except StreamFailure StreamValue × SerialStream PortScript
  | control call => single (fun _ => .nothing) (ByteStream.control call stream)
  | sleep ms => (.ok .nothing, ByteStream.sleep ms stream)
  | read count => single .bytes (ByteStream.read count stream)
  | write bs => single .count (ByteStream.write bs stream)
  | connect => conversation (fun _ => .nothing) (Device.connect stream)
  | identify =>
    conversation .identity (Device.fresh.perform .takesAll Conversation.identify stream)
  | setClock time =>
    conversation (fun _ => .nothing)
      (Device.fresh.perform .takesAll (Conversation.setClock time) stream)
  | leave =>
    conversation (fun _ => .nothing) (Device.fresh.perform .takesAll Conversation.leave stream)

def report (call : StreamCall) (port : PortScript) : CallReport × PortScript :=
  let (result, left) := call.perform ⟨{ port with received := [] }⟩
  (⟨result, left.port.received.reverse⟩, left.port)

def reports : List StreamCall → PortScript → List CallReport × PortScript
  | [], port => ([], port)
  | call :: later, port =>
    let (report, port) := call.report port
    let (rest, port) := reports later port
    (report :: rest, port)

end StreamCall

end DiveLink.Serial
