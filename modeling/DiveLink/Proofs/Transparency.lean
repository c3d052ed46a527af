import DiveLink.Serial.Session

set_option autoImplicit false

namespace DiveLink.Serial

def PortSupply.data : PortSupply → Bytes
  | bytes bs => bs
  | fault _ => []

def PortScript.data (port : PortScript) : Bytes := port.incoming.flatMap PortSupply.data

inductive Relayed {α : Type} (nothing : α) : Except PortError α → Except PortError α → Prop
  | moved (a : α) : Relayed nothing (.ok a) (.ok a)
  | late {e : PortError} (kind : e.kind = .timedOut) : Relayed nothing (.error e) (.ok nothing)
  | failed {e : PortError} (other : e.kind ≠ .timedOut) : Relayed nothing (.error e) (.error e)

/-- Requests that a port receives one after the other, up to the first that it fails, and how they
end. -/
inductive Requested (port : PortScript) :
    List Request → List PortEntry → Except PortError Unit → Prop
  | none : Requested port [] [] (.ok ())
  | failed {first : Request} {later : List Request} {e : PortError}
    (fails : port.failure? (.ofRequest first) = some e) :
    Requested port (first :: later) [.request first (.error e.kind)] (.error e)
  | granted {first : Request} {later : List Request} {entries : List PortEntry}
    {result : Except PortError Unit} (works : port.failure? (.ofRequest first) = .none)
    (rest : Requested port later entries result) :
    Requested port (first :: later) (.request first (.ok ()) :: entries) result

def Request.ofControl? : Control → Option Request
  | .configure _ => none
  | .timeout ms => some (.timeout ms)
  | .requestToSend level => some (.requestToSend level)
  | .dataTerminalReady level => some (.dataTerminalReady level)
  | .purge direction => some (.clear direction)

namespace StreamCall

/-- The calls of a stream itself, as against conversations over it. -/
def isDirect : StreamCall → Bool
  | control _ | sleep _ | read _ | write _ => true
  | connect | identify | setClock _ | leave => false

def answer {α : Type} (value : α → StreamValue) (result : Except PortError α) :
    Except StreamFailure StreamValue :=
  (result.map value).mapError .call

/-- A call of a stream, with what its port receives for it and what it returns. -/
inductive Transparent (port : PortScript) : StreamCall → CallReport → Prop
  | read {count : Nat} {outcome result : Except PortError Bytes}
    (said : (SerialPort.read count port).1 = outcome) (relayed : Relayed [] outcome result) :
    Transparent port (.read count) ⟨answer .bytes result,
      [.read count ((outcome.map List.length).mapError PortError.kind)]⟩
  | write {bs : Bytes} {outcome result : Except PortError Nat}
    (said : (SerialPort.write bs port).1 = outcome) (relayed : Relayed 0 outcome result) :
    Transparent port (.write bs) ⟨answer .count result,
      [.write bs (outcome.mapError PortError.kind)]⟩
  | unsupported {settings : LineSettings}
    (bits : settings.dataBits.toNat < 5 ∨ 8 < settings.dataBits.toNat) :
    Transparent port (.control (.configure settings)) ⟨.error (.call ⟨.invalidInput,
      s!"unsupported data bits: {settings.dataBits.toNat}"⟩), []⟩
  | settings {settings : LineSettings} {bits : DataBits} {entries : List PortEntry}
    {result : Except PortError Unit} (supported : bits.number = settings.dataBits)
    (requested : Requested port [.baudRate settings.baudRate, .dataBits bits,
      .parity settings.parity, .stopBits settings.stopBits, .flowControl settings.flowControl]
      entries result) :
    Transparent port (.control (.configure settings)) ⟨answer (fun _ => .nothing) result, entries⟩
  | control {call : Control} {request : Request} {entries : List PortEntry}
    {result : Except PortError Unit} (single : Request.ofControl? call = some request)
    (requested : Requested port [request] entries result) :
    Transparent port (.control call) ⟨answer (fun _ => .nothing) result, entries⟩
  | sleep (ms : Nat) : Transparent port (.sleep ms) ⟨.ok .nothing, []⟩

end StreamCall

def CallReport.handed (report : CallReport) : Bytes :=
  match report.result with
  | .ok (.bytes bs) => bs
  | _ => []

theorem DataBits.ofNumber?_eq_some {n : UInt8} {bits : DataBits} (h : ofNumber? n = some bits) :
    bits.number = n := by
  unfold ofNumber? at h
  split at h <;> cases h <;> rfl

theorem DataBits.ofNumber?_eq_none {n : UInt8} (h : ofNumber? n = none) :
    n.toNat < 5 ∨ 8 < n.toNat := by
  unfold ofNumber? at h
  split at h <;> try cases h
  next five six seven eight =>
    have five' : n.toNat ≠ 5 := fun same => five (UInt8.toNat.inj same)
    have six' : n.toNat ≠ 6 := fun same => six (UInt8.toNat.inj same)
    have seven' : n.toNat ≠ 7 := fun same => seven (UInt8.toNat.inj same)
    have eight' : n.toNat ≠ 8 := fun same => eight (UInt8.toNat.inj same)
    omega

section Port
variable {port : PortScript}

def bytesOf : Except PortError Bytes → Bytes
  | .ok bs => bs
  | .error _ => []

theorem PortScript.readFrom_data (count : Nat) (supplies : List PortSupply) :
    bytesOf (readFrom count supplies).1 ++ (readFrom count supplies).2.flatMap PortSupply.data =
      supplies.flatMap PortSupply.data := by
  match supplies with
  | [] => rfl
  | .fault kind :: later => rfl
  | .bytes bs :: later =>
    rw [readFrom]
    split
    · rfl
    · simp [bytesOf, PortSupply.data, ← List.append_assoc, List.take_append_drop]

theorem PortScript.read_data (count : Nat) (port : PortScript) :
    bytesOf (port.read count).1 ++ (port.read count).2.data = port.data := by
  unfold PortScript.read
  cases port.failure? .read with
  | some e => rfl
  | none => exact readFrom_data count port.incoming

theorem tolerate_relayed {α : Type} (nothing : α) (outcome : Except PortError α) :
    Relayed nothing outcome (SerialStream.tolerate nothing outcome) := by
  cases outcome with
  | ok a => exact .moved a
  | error e =>
    rw [SerialStream.tolerate]
    split
    · next kind => exact .late kind
    · next other => exact .failed other

theorem Relayed.bytesOf_eq {outcome result : Except PortError Bytes}
    (relayed : Relayed [] outcome result) : bytesOf result = bytesOf outcome := by
  cases relayed <;> rfl

theorem Requested.of_failing {other : PortScript} {requests : List Request}
    {entries : List PortEntry} {result : Except PortError Unit}
    (same : other.failing = port.failing) (requested : Requested other requests entries result) :
    Requested port requests entries result := by
  have answers (call : PortCall) : port.failure? call = other.failure? call := by
    rw [PortScript.failure?, PortScript.failure?, same]
  induction requested with
  | none => exact .none
  | failed fails => exact .failed ((answers _).trans fails)
  | granted works _ ih => exact .granted ((answers _).trans works) ih

theorem requestAll_requested (requests : List Request) (port : PortScript) :
    ∃ entries result, Requested port requests entries result ∧
      SerialStream.requestAll requests port =
        (result, { port with received := entries.reverse ++ port.received }) := by
  induction requests generalizing port with
  | nil => exact ⟨[], .ok (), .none, rfl⟩
  | cons first later ih =>
    have next : SerialPort.request first port = port.request first := rfl
    rw [SerialStream.requestAll, next, PortScript.request]
    cases answer : port.failure? (.ofRequest first) with
    | some e => exact ⟨_, _, .failed answer, rfl⟩
    | none =>
      obtain ⟨entries, result, requested, made⟩ := ih (port.note (.request first (.ok ())))
      refine ⟨.request first (.ok ()) :: entries, result, .granted answer ?_, ?_⟩
      · exact requested.of_failing (by rfl)
      · rw [List.reverse_cons, List.append_assoc]
        exact made

end Port

namespace StreamCall

theorem report_request {call : Control} {requests : List Request}
    (known : SerialStream.requests call = .ok requests) (port : PortScript) :
    ∃ entries result, Requested port requests entries result ∧
      report (.control call) port = (⟨answer (fun _ => .nothing) result, entries⟩,
        { port with received := entries.reverse }) := by
  obtain ⟨entries, result, requested, made⟩ :=
    requestAll_requested requests { port with received := [] }
  have called : ByteStream.control call (⟨{ port with received := [] }⟩ : SerialStream PortScript) =
      (result, ⟨{ port with received := entries.reverse }⟩) := by
    show SerialStream.control call _ = _
    rw [SerialStream.control, known]
    simp only [made, List.append_nil]
  refine ⟨entries, result, requested.of_failing (by rfl), ?_⟩
  simp only [report, perform, called, single, answer, List.reverse_reverse]

theorem report_read (count : Nat) (port : PortScript) :
    let said := (port.read count).1
    let after := report (.read count) port
    after.1 = ⟨answer .bytes (SerialStream.tolerate [] said),
      [.read count ((said.map List.length).mapError PortError.kind)]⟩ ∧
    after.2.data = (port.read count).2.data := by
  have same : ({ port with received := [] } : PortScript).failure? .read = port.failure? .read := rfl
  simp only [report, perform, single, ByteStream.read, SerialStream.read, SerialPort.read,
    PortScript.read, same]
  cases port.failure? .read <;> exact ⟨rfl, rfl⟩

theorem report_write (bs : Bytes) (port : PortScript) :
    let said := (port.write bs).1
    let after := report (.write bs) port
    after.1 = ⟨answer .count (SerialStream.tolerate 0 said),
      [.write bs (said.mapError PortError.kind)]⟩ ∧
    after.2.data = port.data := by
  have same : ({ port with received := [] } : PortScript).failure? .write = port.failure? .write :=
    rfl
  simp only [report, perform, single, ByteStream.write, SerialStream.write, SerialPort.write,
    PortScript.write, same]
  cases port.failure? .write <;> exact ⟨rfl, rfl⟩

section Answers
variable {α : Type} (entries : List PortEntry)

@[simp] theorem answer_ok (value : α → StreamValue) (a : α) :
    answer value (.ok a) = .ok (value a) := rfl

@[simp] theorem answer_error (value : α → StreamValue) (e : PortError) :
    answer value (.error e) = .error (.call e) := rfl

@[simp] theorem kind_ok (a : α) : (Except.ok a).mapError PortError.kind = .ok a := rfl

@[simp] theorem kind_error (e : PortError) :
    (Except.error e : Except PortError α).mapError PortError.kind = .error e.kind := rfl

@[simp] theorem handed_bytes (result : Except PortError Bytes) :
    CallReport.handed ⟨answer .bytes result, entries⟩ = bytesOf result := by
  cases result <;> rfl

@[simp] theorem handed_count (result : Except PortError Nat) :
    CallReport.handed ⟨answer .count result, entries⟩ = [] := by
  cases result <;> rfl

@[simp] theorem handed_nothing (result : Except PortError Unit) :
    CallReport.handed ⟨answer (fun _ => .nothing) result, entries⟩ = [] := by
  cases result <;> rfl

end Answers

variable {call : StreamCall} {port : PortScript} {made : CallReport}

theorem report_transparent (direct : call.isDirect = true) (port : PortScript) :
    Transparent port call (report call port).1 ∧
      (report call port).1.handed ++ (report call port).2.data = port.data := by
  cases call with
  | read count =>
    obtain ⟨told, data⟩ := report_read count port
    have relayed := tolerate_relayed [] (port.read count).1
    rw [told, data, handed_bytes, relayed.bytesOf_eq]
    exact ⟨.read rfl relayed, port.read_data count⟩
  | write bs =>
    obtain ⟨told, data⟩ := report_write bs port
    rw [told, data, handed_count]
    exact ⟨.write rfl (tolerate_relayed 0 _), rfl⟩
  | sleep ms => exact ⟨.sleep ms, rfl⟩
  | control call =>
    cases known : SerialStream.requests call with
    | ok requests =>
      obtain ⟨entries, result, requested, told⟩ := report_request known port
      rw [told, handed_nothing]
      refine ⟨?_, rfl⟩
      cases call with
      | configure settings =>
        rw [SerialStream.requests, SerialStream.settingRequests] at known
        split at known
        · cases known
        · next bits supported =>
          cases known
          exact .settings (DataBits.ofNumber?_eq_some supported) requested
      | timeout | requestToSend | dataTerminalReady | purge =>
        cases known
        exact .control rfl requested
    | error e =>
      cases call with
      | configure settings =>
        have told : report (.control (.configure settings)) port =
            (⟨.error (.call e), []⟩, { port with received := [] }) := by
          simp only [report, perform, single, ByteStream.control, SerialStream.control, known]
          rfl
        rw [SerialStream.requests, SerialStream.settingRequests] at known
        split at known
        · next unsupported =>
          cases known
          rw [told]
          exact ⟨.unsupported (DataBits.ofNumber?_eq_none unsupported), rfl⟩
        · cases known
      | timeout | requestToSend | dataTerminalReady | purge => cases known
  | connect | identify | setClock | leave => cases direct

theorem Transparent.read_nothing {count : Nat} (transparent : Transparent port (.read count) made) :
    made.result = .ok (.bytes []) ↔
      made.received = [.read count (.ok 0)] ∨ made.received = [.read count (.error .timedOut)] := by
  cases transparent with
  | read said relayed =>
    cases relayed with
    | moved bs => simp [Except.map]
    | late kind => simp [Except.map, kind]
    | failed other => simp [Except.map, other]

theorem Transparent.write_nothing {bs : Bytes} (transparent : Transparent port (.write bs) made) :
    made.result = .ok (.count 0) ↔
      made.received = [.write bs (.ok 0)] ∨ made.received = [.write bs (.error .timedOut)] := by
  cases transparent with
  | write said relayed =>
    cases relayed with
    | moved count => simp
    | late kind => simp [kind]
    | failed other => simp [other]

theorem reports_data {calls : List StreamCall} (direct : ∀ call ∈ calls, call.isDirect = true)
    (port : PortScript) :
    (reports calls port).1.flatMap CallReport.handed ++ (reports calls port).2.data = port.data := by
  induction calls generalizing port with
  | nil => rfl
  | cons call later ih =>
    obtain ⟨first, rest⟩ := List.forall_mem_cons.1 direct
    have moved := (report_transparent first port).2
    rw [← ih rest (report call port).2, ← List.append_assoc] at moved
    exact moved

theorem length_reports (calls : List StreamCall) (port : PortScript) :
    (reports calls port).1.length = calls.length := by
  induction calls generalizing port with
  | nil => rfl
  | cons call later ih => exact congrArg (· + 1) (ih (report call port).2)

theorem reports_getElem? (calls : List StreamCall) (port : PortScript) (j : Nat) :
    (reports calls port).1[j]? =
      calls[j]?.map fun call => (report call (reports (calls.take j) port).2).1 := by
  induction calls generalizing port j with
  | nil => rfl
  | cons call later ih =>
    cases j with
    | zero => rfl
    | succ j => exact ih (report call port).2 j

/-- A stream over a port hands over what the port hands over, byte for byte, whatever goes wrong in
between. Each of its calls makes of the port the calls that it stands for and returns what these
return, but for a read or write that the port gives up for lack of time. -/
theorem reports_transparent {calls : List StreamCall}
    (direct : ∀ call ∈ calls, call.isDirect = true) (port : PortScript) :
    let made := reports calls port
    made.1.flatMap CallReport.handed ++ made.2.data = port.data ∧
      made.1.length = calls.length ∧
      ∀ (j : Nat) (call : StreamCall) (report : CallReport),
        calls[j]? = some call → made.1[j]? = some report →
          Transparent (reports (calls.take j) port).2 call report ∧
          (∀ count, call = .read count → (report.result = .ok (.bytes []) ↔
            report.received = [.read count (.ok 0)] ∨
              report.received = [.read count (.error .timedOut)])) ∧
          ∀ bs, call = .write bs → (report.result = .ok (.count 0) ↔
            report.received = [.write bs (.ok 0)] ∨
              report.received = [.write bs (.error .timedOut)]) := by
  intro made
  refine ⟨reports_data direct port, length_reports calls port, ?_⟩
  intro j call report here there
  have place := reports_getElem? calls port j
  rw [there, here, Option.map_some, Option.some_inj] at place
  have transparent := (report_transparent (direct call (List.mem_of_getElem? here))
    (reports (calls.take j) port).2).1
  rw [← place] at transparent
  refine ⟨transparent, ?_, ?_⟩
  · rintro count rfl
    exact transparent.read_nothing
  · rintro bs rfl
    exact transparent.write_nothing

theorem reports_transparent_broken :
    let port : PortScript := ⟨"fake", [.bytes [1, 2, 3], .fault .timedOut, .fault .brokenPipe,
      .bytes [4, 5]], [.fault .timedOut], [(.parity, .timedOut)], []⟩
    let calls : List StreamCall := [.read 2, .control (.configure .device), .read 9, .write [7],
      .read 9, .read 9, .read 1]
    let made := reports calls port
    made.1.flatMap CallReport.handed = [1, 2, 3, 4] ∧ made.2.data = [5] ∧
      port.data = [1, 2, 3] ++ [4, 5] ∧
      (made.1[1]?.map (·.received.length)) = some 3 ∧
      (∀ report, made.1[3]? = some report → report.result = .ok (.count 0)) ∧
      ∀ report, made.1[4]? = some report → report.result = .ok (.bytes []) := by
  intro port calls made
  have direct : ∀ call ∈ calls, call.isDirect = true := by decide
  obtain ⟨whole, -, each⟩ := reports_transparent direct port
  have left : made.2.data = [5] := by decide
  have handed : made.1.flatMap CallReport.handed = [1, 2, 3, 4] := by
    rw [left] at whole
    exact List.append_cancel_right (whole.trans (by decide))
  refine ⟨handed, left, by decide, by decide, ?_, ?_⟩
  · intro report there
    have late : report.received = [.write [7] (.error .timedOut)] := by
      cases there
      rfl
    exact ((each 3 _ report rfl there).2.2 [7] rfl).2 (.inr late)
  · intro report there
    have late : report.received = [.read 9 (.error .timedOut)] := by
      cases there
      rfl
    exact ((each 4 _ report rfl there).2.1 9 rfl).2 (.inr late)

end StreamCall

end DiveLink.Serial
