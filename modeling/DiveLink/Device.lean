import DiveLink.Fingerprint
import DiveLink.Run

set_option autoImplicit false

namespace DiveLink

structure Device where
  fingerprint : Fingerprint
  listener : Option String
  deriving DecidableEq

namespace Device

def fresh : Device := ⟨.zero, none⟩

def setup : List Control :=
  [.configure .device, .timeout Timing.readTimeout, .requestToSend false, .dataTerminalReady false]

/-- Sets up a line, waits for it to settle and forgets what it holds. A line that cannot
forget is good enough. -/
def connect {σ ε : Type} [ByteStream σ ε] (stream : σ) : Run σ ε Unit :=
  (Run.controls setup stream).andThen fun _ left =>
    let purged := Run.control (.purge .all) (ByteStream.sleep Timing.settling left)
    ⟨.ok (), .sleep Timing.settling :: purged.trace, purged.stream⟩

def setFingerprint (data : Bytes) (device : Device) : Except Refusal Device := do
  let fingerprint ← Fingerprint.select data
  .ok { device with fingerprint := fingerprint }

def listen (listener : String) (device : Device) : Device :=
  { device with listener := some listener }

def perform {σ ε α : Type} [ByteStream σ ε] (device : Device) (receiver : Receiver)
    (dialogue : Dialogue α) (stream : σ) : Run σ ε α :=
  dialogue.run device.listener receiver [] stream

def describe (stream : String) (device : Device) : String :=
  let numbers := ", ".intercalate (device.fingerprint.bytes.map fun b => toString b.toNat)
  s!"GoaDevice \x7b stream: {stream}, fingerprint: [{numbers}], " ++
    s!"events: {device.listener.isSome} \x7d"

end Device

end DiveLink
