import DiveLink.Conversation
import DiveLink.Device
import DiveLink.Script

set_option autoImplicit false

namespace DiveLink

structure Session where
  device : Device
  script : Script
  deriving DecidableEq

inductive Step where
  | queue (supplies : List Supply)
  | listen (listener : String)
  | setFingerprint (data : Bytes)
  | identify
  | downloadNew (receiver : Receiver)
  | setClock (time : DateTime)
  | leave
  /-- Takes a fresh device for the same stream. -/
  | renew
  | describe

inductive Value where
  | nothing
  | identity (identity : Identity)
  /-- The number of dives delivered. -/
  | dives (count : Nat)
  | text (text : String)
  deriving DecidableEq, Repr

structure Report where
  result : Except (Failure ScriptCall) Value
  trace : List Observation
  /-- The stored fingerprint after the step, where there is a device. -/
  fingerprint : Option Fingerprint
  /-- The bytes that the script still holds after the step. -/
  unread : Nat

namespace Session

def report (result : Except (Failure ScriptCall) Value) (trace : List Observation)
    (session : Session) : Report × Session :=
  (⟨result, trace, some session.device.fingerprint, session.script.unread⟩, session)

/-- A step that neither uses the stream nor fails. -/
def quietly (value : Value) (session : Session) : Report × Session :=
  session.report (.ok value) []

/-- A step that carries a dialogue. Its value may depend on the dives delivered. -/
def converse {α : Type} (receiver : Receiver) (dialogue : Dialogue α) (value : α → Nat → Value)
    (session : Session) : Report × Session :=
  let run := session.device.perform receiver dialogue session.script
  let dives := run.trace.countP Observation.isDive
  report (run.result.map (value · dives)) run.trace { session with script := run.stream }

def step : Step → Session → Report × Session
  | .queue supplies, session =>
    quietly .nothing { session with script := session.script.queue supplies }
  | .listen listener, session =>
    quietly .nothing { session with device := session.device.listen listener }
  | .setFingerprint data, session =>
    match session.device.setFingerprint data with
    | .ok device => quietly .nothing { session with device := device }
    | .error why => session.report (.error (.refused why)) []
  | .identify, session =>
    session.converse .takesAll Conversation.identify fun identity _ => .identity identity
  | .downloadNew receiver, session =>
    session.converse receiver (Conversation.downloadNew session.device.fingerprint)
      fun _ dives => .dives dives
  | .setClock time, session =>
    session.converse .takesAll (Conversation.setClock time) fun _ _ => .nothing
  | .leave, session => session.converse .takesAll Conversation.leave fun _ _ => .nothing
  | .renew, session => quietly .nothing { session with device := .fresh }
  | .describe, session => quietly (.text (session.device.describe "Stream")) session

def steps : List Step → Session → List Report × Session
  | [], session => ([], session)
  | next :: later, session =>
    let (report, session) := session.step next
    let (reports, session) := steps later session
    (report :: reports, session)

inductive Start where
  | ready
  /-- With a line that has to be set up first. -/
  | setup
  deriving DecidableEq, Repr

/-- The reports of a whole session: of its start and, unless that fails, of its steps. -/
def play (start : Start) (script : Script) (plan : List Step) : List Report :=
  match start with
  | .ready =>
    let session : Session := ⟨.fresh, script⟩
    (session.quietly .nothing).1 :: (session.steps plan).1
  | .setup =>
    let run := Device.connect script
    match run.result with
    | .ok () =>
      let session : Session := ⟨.fresh, run.stream⟩
      (session.report (.ok .nothing) run.trace).1 :: (session.steps plan).1
    | .error failure => [⟨.error failure, run.trace, none, run.stream.unread⟩]

end Session

end DiveLink
