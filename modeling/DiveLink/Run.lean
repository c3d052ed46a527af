import DiveLink.ByteStream
import DiveLink.Dialogue
import DiveLink.Failure

set_option autoImplicit false

namespace DiveLink

/-- One thing seen from outside. Of a read or write that failed there is no count. -/
inductive Observation where
  | control (call : Control) (succeeded : Bool)
  | sleep (ms : Nat)
  | read (requested : Nat) (count : Option Nat)
  | write (offered : Bytes) (count : Option Nat)
  | event (listener : String) (event : Event)
  | dive (delivery : Delivery)
  deriving DecidableEq, Repr

def Observation.isDive : Observation → Bool
  | dive _ => true
  | _ => false

/-- A stretch of a conversation over a stream: its result, all that was observed, and the
stream as it was left. -/
structure Run (σ ε α : Type) where
  result : Except (Failure ε) α
  trace : List Observation
  stream : σ

namespace Run
variable {σ ε α β : Type}

def ended (result : Except (Failure ε) α) (stream : σ) : Run σ ε α := ⟨result, [], stream⟩

def after (seen : List Observation) (run : Run σ ε α) : Run σ ε α :=
  { run with trace := seen ++ run.trace }

def andThen (run : Run σ ε α) (next : α → σ → Run σ ε β) : Run σ ε β :=
  match run.result with
  | .ok a => (next a run.stream).after run.trace
  | .error failure => ⟨.error failure, run.trace, run.stream⟩

variable [ByteStream σ ε]

def readMissing (expected missing : Nat) (stream : σ) : Run σ ε Bytes :=
  if missing = 0 then .ended (.ok []) stream
  else
    match ByteStream.read missing stream with
    | (.error cause, left) => ⟨.error (.io cause), [.read missing none], left⟩
    | (.ok [], left) =>
      ⟨.error (.timeout expected (expected - missing)), [.read missing (some 0)], left⟩
    | (.ok (b :: bs), left) =>
      ((readMissing expected (missing - (b :: bs).length) left).andThen fun rest left =>
        .ended (.ok (b :: bs ++ rest)) left).after [.read missing (some (b :: bs).length)]
termination_by missing
decreasing_by
  simp only [List.length_cons]
  omega

def readExact (count : Nat) (stream : σ) : Run σ ε Bytes := readMissing count count stream

def writeMissing (expected : Nat) (bs : Bytes) (stream : σ) : Run σ ε Unit :=
  if bs.length = 0 then .ended (.ok ()) stream
  else
    match ByteStream.write bs stream with
    | (.error cause, left) => ⟨.error (.io cause), [.write bs none], left⟩
    | (.ok 0, left) =>
      ⟨.error (.timeout expected (expected - bs.length)), [.write bs (some 0)], left⟩
    | (.ok (count + 1), left) =>
      (writeMissing expected (bs.drop (count + 1)) left).after [.write bs (some (count + 1))]
termination_by bs.length
decreasing_by
  simp only [List.length_drop]
  omega

def writeAll (bs : Bytes) (stream : σ) : Run σ ε Unit := writeMissing bs.length bs stream

def control (call : Control) (stream : σ) : Run σ ε Unit :=
  match ByteStream.control call stream with
  | (.ok (), left) => ⟨.ok (), [.control call true], left⟩
  | (.error cause, left) => ⟨.error (.io cause), [.control call false], left⟩

def controls : List Control → σ → Run σ ε Unit
  | [], stream => .ended (.ok ()) stream
  | call :: calls, stream => (control call stream).andThen fun _ left => controls calls left

end Run

/-- Carries a dialogue over a stream. Events go to the listener, if there is one; dives go to
the receiver, which has `made` as its earlier deliveries. -/
def Dialogue.run {σ ε α : Type} [ByteStream σ ε] (listener : Option String)
    (receiver : Receiver) :
    Dialogue α → List Delivery → σ → Run σ ε α
  | done a, _, stream => .ended (.ok a) stream
  | refuse why, _, stream => .ended (.error (.refused why)) stream
  | pause ms next, made, stream =>
    (next.run listener receiver made (ByteStream.sleep ms stream)).after [.sleep ms]
  | send bs next, made, stream =>
    (Run.writeAll bs stream).andThen fun _ left => next.run listener receiver made left
  | receive count next, made, stream =>
    (Run.readExact count stream).andThen fun bs left => (next bs).run listener receiver made left
  | announce event next, made, stream =>
    (next.run listener receiver made stream).after (listener.toList.map (.event · event))
  | deliver dive next, made, stream =>
    let made := made ++ [dive]
    ((next (receiver made)).run listener receiver made stream).after [.dive dive]

end DiveLink
