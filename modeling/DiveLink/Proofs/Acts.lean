import DiveLink.Proofs.Tokens
import DiveLink.Run

/-! A trace read as acts: the calls that one transfer took count as one act, and the bytes
that came in, which a trace does not show, are filled in from the script that supplied them. -/

set_option autoImplicit false

namespace DiveLink

inductive Act where
  | asked (call : Control) (succeeded : Bool)
  | paused (ms : Nat)
  /-- The bytes offered, and how many of them were taken. -/
  | sent (offered : Bytes) (taken : Nat) (failed : Bool)
  /-- How many bytes were due, and those that came. -/
  | received (due : Nat) (bytes : Bytes) (failed : Bool)
  | told (listener : String) (event : Event)
  | delivered (dive : Delivery)
  deriving DecidableEq, Repr

/-- Puts an act in front of others. A part of a transfer becomes one act with its rest. -/
def Act.join : Act → List Act → List Act
  | sent bs taken false, sent rest more failed :: later =>
    if 0 < taken ∧ taken < bs.length ∧ rest = bs.drop taken then
      sent bs (taken + more) failed :: later
    else sent bs taken false :: sent rest more failed :: later
  | received due bs false, received rest more failed :: later =>
    if bs ≠ [] ∧ bs.length < due ∧ rest = due - bs.length then
      received due (bs ++ more) failed :: later
    else received due bs false :: received rest more failed :: later
  | act, later => act :: later

namespace Observation

/-- One observation as an act, when `data` is what the script still holds. -/
def act (data : Bytes) : Observation → Act
  | control call succeeded => .asked call succeeded
  | sleep ms => .paused ms
  | read requested count => .received requested (data.take (count.getD 0)) count.isNone
  | write offered count => .sent offered (count.getD 0) count.isNone
  | event listener news => .told listener news
  | dive delivery => .delivered delivery

def leaves (data : Bytes) : Observation → Bytes
  | read _ count => data.drop (count.getD 0)
  | _ => data

end Observation

def shortfall (call : ScriptCall) (failed : Bool) (expected transferred : Nat) :
    Failure ScriptCall :=
  if failed then .io call else .timeout expected transferred

/-- The acts of a trace over a script that held `data` at its start. -/
def acts : Bytes → List Observation → List Act
  | _, [] => []
  | data, seen :: later => (seen.act data).join (acts (seen.leaves data) later)

namespace Act

def sending (bs : Bytes) : List Act := if bs = [] then [] else [sent bs bs.length false]

def reception (bs : Bytes) : List Act := if bs = [] then [] else [received bs.length bs false]

def came : Act → Bytes
  | received _ bs _ => bs
  | _ => []

def went : Act → Bytes
  | sent bs taken _ => bs.take taken
  | _ => []

def delivery? : Act → Option Delivery
  | delivered dive => some dive
  | _ => none

def diveRequest? : Act → Option Bytes
  | sent bs _ _ => if bs[4]? = some CommandCode.dive then some bs else none
  | _ => none

def observation? : Act → Option Observation
  | asked call succeeded => some (.control call succeeded)
  | paused ms => some (.sleep ms)
  | told listener event => some (.event listener event)
  | delivered dive => some (.dive dive)
  | sent .. | received .. => none

def heard (acts : List Act) : Bytes := acts.flatMap came

def said (acts : List Act) : Bytes := acts.flatMap went

def deliveries (acts : List Act) : List Delivery := acts.filterMap delivery?

def diveRequests (acts : List Act) : List Bytes := acts.filterMap diveRequest?

def besides (acts : List Act) : List Observation := acts.filterMap observation?

section Projections
variable (act : Act) (before later : List Act)

@[simp] theorem heard_nil : heard [] = [] := rfl

@[simp] theorem said_nil : said [] = [] := rfl

@[simp] theorem deliveries_nil : deliveries [] = [] := rfl

@[simp] theorem diveRequests_nil : diveRequests [] = [] := rfl

@[simp] theorem heard_cons : heard (act :: later) = act.came ++ heard later := rfl

@[simp] theorem said_cons : said (act :: later) = act.went ++ said later := rfl

@[simp] theorem deliveries_cons :
    deliveries (act :: later) = act.delivery?.toList ++ deliveries later := by
  cases h : act.delivery? <;> simp [deliveries, h]

@[simp] theorem diveRequests_cons :
    diveRequests (act :: later) = act.diveRequest?.toList ++ diveRequests later := by
  cases h : act.diveRequest? <;> simp [diveRequests, h]

@[simp] theorem heard_append : heard (before ++ later) = heard before ++ heard later := by
  simp [heard]

@[simp] theorem said_append : said (before ++ later) = said before ++ said later := by
  simp [said]

@[simp] theorem deliveries_append :
    deliveries (before ++ later) = deliveries before ++ deliveries later := by
  simp [deliveries]

@[simp] theorem diveRequests_append :
    diveRequests (before ++ later) = diveRequests before ++ diveRequests later := by
  simp [diveRequests]

end Projections

@[simp] theorem heard_reception (bs : Bytes) : heard (reception bs) = bs := by
  unfold reception
  split <;> simp_all [heard, came]

@[simp] theorem heard_sending (bs : Bytes) : heard (sending bs) = [] := by
  unfold sending
  split <;> simp [heard, came]

@[simp] theorem heard_told (listener : Option String) (event : Event) :
    heard (listener.toList.map (told · event)) = [] := by
  cases listener <;> simp [heard, came]

@[simp] theorem said_reception (bs : Bytes) : said (reception bs) = [] := by
  unfold reception
  split <;> simp [said, went]

@[simp] theorem said_sending (bs : Bytes) : said (sending bs) = bs := by
  unfold sending
  split <;> simp_all [said, went]

@[simp] theorem said_told (listener : Option String) (event : Event) :
    said (listener.toList.map (told · event)) = [] := by
  cases listener <;> simp [said, went]

@[simp] theorem deliveries_reception (bs : Bytes) : deliveries (reception bs) = [] := by
  unfold reception
  split <;> simp [deliveries, delivery?]

@[simp] theorem deliveries_sending (bs : Bytes) : deliveries (sending bs) = [] := by
  unfold sending
  split <;> simp [deliveries, delivery?]

@[simp] theorem deliveries_told (listener : Option String) (event : Event) :
    deliveries (listener.toList.map (told · event)) = [] := by
  cases listener <;> simp [deliveries, delivery?]

@[simp] theorem diveRequests_reception (bs : Bytes) : diveRequests (reception bs) = [] := by
  unfold reception
  split <;> simp [diveRequests, diveRequest?]

@[simp] theorem diveRequests_sending (bs : Bytes) :
    diveRequests (sending bs) = if bs[4]? = some CommandCode.dive then [bs] else [] := by
  unfold sending
  by_cases none : bs = []
  · simp [none]
  · by_cases dive : bs[4]? = some CommandCode.dive <;>
      simp [none, dive, diveRequests, diveRequest?]

@[simp] theorem diveRequests_told (listener : Option String) (event : Event) :
    diveRequests (listener.toList.map (told · event)) = [] := by
  cases listener <;> simp [diveRequests, diveRequest?]

theorem join_whole {due : Nat} {bs : Bytes} (whole : bs.length = due) (later : List Act) :
    (received due bs false).join later = received due bs false :: later := by
  rcases later with _ | ⟨act, later⟩
  · rfl
  · cases act <;> simp [join, whole]

theorem join_silent (due : Nat) (later : List Act) :
    (received due [] false).join later = received due [] false :: later := by
  rcases later with _ | ⟨act, later⟩
  · rfl
  · cases act <;> simp [join]

theorem join_part {due : Nat} {bs : Bytes} (any : bs ≠ []) (part : bs.length < due)
    (more : Bytes) (failed : Bool) (later : List Act) :
    (received due bs false).join (received (due - bs.length) more failed :: later) =
      received due (bs ++ more) failed :: later := by
  simp [join, any, part]

theorem join_sent_whole (bs : Bytes) (later : List Act) :
    (sent bs bs.length false).join later = sent bs bs.length false :: later := by
  rcases later with _ | ⟨act, later⟩
  · rfl
  · cases act <;> simp [join]

theorem join_sent_none (bs : Bytes) (later : List Act) :
    (sent bs 0 false).join later = sent bs 0 false :: later := by
  rcases later with _ | ⟨act, later⟩
  · rfl
  · cases act <;> simp [join]

theorem join_sent_part {taken : Nat} {bs : Bytes} (any : 0 < taken) (part : taken < bs.length)
    (more : Nat) (failed : Bool) (later : List Act) :
    (sent bs taken false).join (sent (bs.drop taken) more failed :: later) =
      sent bs (taken + more) failed :: later := by
  simp [join, any, part]

@[simp] theorem join_failed (due : Nat) (bs : Bytes) (later : List Act) :
    (received due bs true).join later = received due bs true :: later := rfl

@[simp] theorem join_sent_failed (bs : Bytes) (taken : Nat) (later : List Act) :
    (sent bs taken true).join later = sent bs taken true :: later := rfl

@[simp] theorem join_paused (ms : Nat) (later : List Act) :
    (paused ms).join later = paused ms :: later := rfl

@[simp] theorem join_told (listener : String) (event : Event) (later : List Act) :
    (told listener event).join later = told listener event :: later := rfl

@[simp] theorem join_delivered (dive : Delivery) (later : List Act) :
    (delivered dive).join later = delivered dive :: later := rfl

end Act

namespace Observation

def isTransfer : Observation → Bool
  | read .. | write .. => true
  | _ => false

def delivery? : Observation → Option Delivery
  | dive delivery => some delivery
  | _ => none

theorem countP_isDive (trace : List Observation) :
    trace.countP isDive = (trace.filterMap delivery?).length := by
  induction trace with
  | nil => rfl
  | cons seen later ih =>
    cases seen <;> simp [List.countP_cons, List.filterMap_cons, isDive, delivery?, ih]

def taken : Observation → Bytes
  | write offered (some count) => offered.take count
  | _ => []

end Observation

namespace Act

theorem besides_join_received (due : Nat) (bs : Bytes) (failed : Bool) (later : List Act) :
    besides ((received due bs failed).join later) = besides later := by
  rcases later with _ | ⟨act, later⟩
  · cases failed <;> rfl
  · cases failed <;> cases act <;> simp only [join] <;> try rfl
    split <;> rfl

theorem besides_join_sent (bs : Bytes) (taken : Nat) (failed : Bool) (later : List Act) :
    besides ((sent bs taken failed).join later) = besides later := by
  rcases later with _ | ⟨act, later⟩
  · cases failed <;> rfl
  · cases failed <;> cases act <;> simp only [join] <;> try rfl
    split <;> rfl

theorem besides_acts (data : Bytes) (trace : List Observation) :
    besides (acts data trace) = trace.filter (!·.isTransfer) := by
  induction trace generalizing data with
  | nil => rfl
  | cons seen later ih =>
    cases seen with
    | read requested count => exact (besides_join_received _ _ _ _).trans (ih _)
    | write offered count => exact (besides_join_sent _ _ _ _).trans (ih _)
    | _ => exact congrArg (List.cons _) (ih data)

theorem said_join_received (due : Nat) (bs : Bytes) (failed : Bool) (later : List Act) :
    said ((received due bs failed).join later) = said later := by
  rcases later with _ | ⟨act, later⟩
  · cases failed <;> rfl
  · cases failed <;> cases act <;> simp only [join] <;> try rfl
    split <;> rfl

theorem said_join_sent (bs : Bytes) (taken : Nat) (failed : Bool) (later : List Act) :
    said ((sent bs taken failed).join later) = bs.take taken ++ said later := by
  rcases later with _ | ⟨act, later⟩
  · cases failed <;> rfl
  · cases failed <;> cases act <;> simp only [join] <;> try rfl
    split
    · next h =>
      obtain ⟨-, -, rfl⟩ := h
      simp [said, went, List.take_add]
    · rfl

theorem said_acts (data : Bytes) (trace : List Observation) :
    said (acts data trace) = trace.flatMap Observation.taken := by
  induction trace generalizing data with
  | nil => rfl
  | cons seen later ih =>
    cases seen with
    | read requested count => exact (said_join_received _ _ _ _).trans (ih _)
    | write offered count =>
      have h := (said_join_sent offered (count.getD 0) count.isNone (acts data later)).trans
        (congrArg (offered.take (count.getD 0) ++ ·) (ih data))
      cases count <;> exact h
    | _ => exact ih data

theorem deliveries_eq_besides (acts : List Act) :
    deliveries acts = (besides acts).filterMap Observation.delivery? := by
  induction acts with
  | nil => rfl
  | cons act later ih =>
    simp only [deliveries, besides] at ih
    cases act <;> simp [deliveries, besides, List.filterMap_cons, delivery?, observation?,
      Observation.delivery?, ih]

theorem deliveries_acts (data : Bytes) (trace : List Observation) :
    deliveries (acts data trace) = trace.filterMap Observation.delivery? := by
  rw [deliveries_eq_besides, besides_acts, List.filterMap_filter]
  congr 1
  funext seen
  cases seen <;> rfl

end Act

namespace Run

variable {α β : Type} {σ ε : Type}

theorem andThen_ok {run : Run σ ε α} {a : α} (h : run.result = .ok a)
    (next : α → σ → Run σ ε β) :
    run.andThen next = (next a run.stream).after run.trace := by
  simp [andThen, h]

theorem andThen_error {run : Run σ ε α} {why : Failure ε} (h : run.result = .error why)
    (next : α → σ → Run σ ε β) :
    run.andThen next = ⟨.error why, run.trace, run.stream⟩ := by
  simp [andThen, h]

theorem andThen_ended_trace (run : Run σ ε α) (f : α → β) :
    (run.andThen fun a left => .ended (.ok (f a)) left).trace = run.trace := by
  unfold andThen
  split <;> simp [after, ended]

theorem andThen_ended_stream (run : Run σ ε α) (f : α → β) :
    (run.andThen fun a left => .ended (.ok (f a)) left).stream = run.stream := by
  unfold andThen
  split <;> rfl

/-- What a transfer does to a script and to its trace when `missing` of `expected` bytes are
still due and `got` of them come. -/
structure Receives (expected missing : Nat) (script : Script) (run : Run Script ScriptCall Bytes)
    (got : Bytes) (failed : Bool) : Prop where
  fit : got.length ≤ missing
  result : run.result =
    if got.length = missing then .ok got
    else .error (shortfall .read failed expected (expected - missing + got.length))
  whole : got.length = missing → failed = false
  data : script.data = got ++ run.stream.data
  acts : 0 < missing → ∀ later, DiveLink.acts script.data (run.trace ++ later) =
    .received missing got failed :: DiveLink.acts run.stream.data later
  idle : missing = 0 → run.trace = []
  outgoing : run.stream.outgoing = script.outgoing
  maxRead : run.stream.maxRead = script.maxRead
  tokens : script.maxRead ≠ some 0 →
    Token.receive missing script.tokens = ⟨got, failed, run.stream.tokens⟩

theorem Receives.none {expected missing : Nat} {script left : Script} (failed : Bool)
    (due : 0 < missing) (data : script.data = left.data)
    (outgoing : left.outgoing = script.outgoing) (maxRead : left.maxRead = script.maxRead)
    (tokens : script.maxRead ≠ some 0 →
      Token.receive missing script.tokens = ⟨[], failed, left.tokens⟩) :
    Receives expected missing script
      ⟨.error (shortfall .read failed expected (expected - missing)),
        [.read missing (if failed then Option.none else some 0)], left⟩ [] failed where
  fit := Nat.zero_le _
  result := by simp [Nat.ne_of_lt due]
  whole h := absurd h (Nat.ne_of_lt due)
  data := data
  acts _ later := by
    cases failed <;> simp [DiveLink.acts, Observation.act, Observation.leaves, Act.join_silent, data]
  idle h := absurd h (Nat.ne_of_gt due)
  outgoing := outgoing
  maxRead := maxRead
  tokens := tokens

theorem Receives.some {expected missing : Nat} {script left : Script} {bs got : Bytes}
    {failed : Bool} {run : Run Script ScriptCall Bytes} (due : missing ≤ expected)
    (any : bs ≠ []) (fit : bs.length ≤ missing)
    (before : script.tokens = bs.map .byte ++ left.tokens)
    (outgoing : left.outgoing = script.outgoing) (maxRead : left.maxRead = script.maxRead)
    (rest : Receives expected (missing - bs.length) left run got failed) :
    Receives expected missing script
      ((run.andThen fun more left => .ended (.ok (bs ++ more)) left).after
        [.read missing (some bs.length)]) (bs ++ got) failed := by
  have length : (bs ++ got).length = bs.length + got.length := List.length_append
  have fit' := rest.fit
  have pos := List.length_pos_iff.2 any
  have data : script.data = bs ++ left.data := by simp [Script.data, before]
  have trace := andThen_ended_trace run (bs ++ ·)
  have stream := andThen_ended_stream run (bs ++ ·)
  constructor
  case fit => omega
  case result =>
    by_cases h : got.length = missing - bs.length
    · rw [andThen_ok (by rw [rest.result, if_pos h]), if_pos (by omega)]
      rfl
    · rw [andThen_error (by rw [rest.result, if_neg h]), if_neg (by omega), length]
      have : expected - (missing - bs.length) + got.length =
          expected - missing + (bs.length + got.length) := by omega
      rw [← this]
      rfl
  case whole => exact fun h => rest.whole (by omega)
  case data => simp only [after, stream, data, rest.data, List.append_assoc]
  case acts =>
    intro _ later
    have take : (bs ++ left.data).take bs.length = bs := by simp
    have drop : (bs ++ left.data).drop bs.length = left.data := by simp
    simp only [after, stream, trace, List.cons_append, List.nil_append, DiveLink.acts,
      Observation.act, Observation.leaves, Option.getD_some, Option.isNone_some, data, take, drop]
    by_cases h : bs.length = missing
    · have none : got = [] := List.length_eq_zero_iff.1 (by omega)
      have left : left.data = run.stream.data := by simpa [none] using rest.data
      have whole : failed = false := rest.whole (by omega)
      rw [rest.idle (by omega), Act.join_whole h, none, List.append_nil, whole, left,
        List.nil_append]
    · rw [rest.acts (by omega), Act.join_part any (by omega)]
  case idle => omega
  case outgoing => rw [after, stream, rest.outgoing, outgoing]
  case maxRead => rw [after, stream, rest.maxRead, maxRead]
  case tokens =>
    intro hands
    have more := rest.tokens (by rwa [maxRead])
    have split : missing = bs.length + (missing - bs.length) := by omega
    rw [split, before, Token.receive_bytes, more, after, stream]

theorem readMissing_receives {expected missing : Nat} (due : missing ≤ expected)
    (script : Script) : ∃ got failed,
    Receives expected missing script (readMissing expected missing script) got failed := by
  induction missing using Nat.strongRecOn generalizing script with
  | ind missing ih =>
    by_cases none : missing = 0
    · subst none
      refine ⟨[], false, ?_⟩
      rw [readMissing]
      constructor <;> simp [ended]
    have any : 0 < missing := Nat.pos_of_ne_zero none
    obtain ⟨step, outgoing, maxRead⟩ := script.read_tokens missing
    have limit := script.readLimit_le missing
    have idle : script.maxRead ≠ some 0 → 0 < script.readLimit missing := Script.readLimit_pos any
    have next : ByteStream.read missing script = script.read missing := rfl
    rw [readMissing, if_neg none, next]
    generalize script.read missing = seen at step outgoing maxRead
    obtain ⟨outcome, left⟩ := seen
    generalize before : script.tokens = tokens at step
    generalize after : left.tokens = later at step
    cases step with
    | @bytes bs later any fit =>
      obtain ⟨b, bs, rfl⟩ := List.exists_cons_of_ne_nil any
      obtain ⟨got, failed, rest⟩ := ih (missing - (b :: bs).length) (by simp; omega) (by omega) left
      exact ⟨_, failed, .some due any (by omega) (by rw [before, after]) outgoing maxRead rest⟩
    | nothing =>
      refine ⟨[], false, .none false any ?_ outgoing maxRead fun _ => ?_⟩
      · simp [Script.data, before, after]
      · rw [before, after, ← Nat.succ_pred_eq_of_pos any, Token.receive]
    | silence =>
      refine ⟨[], false, .none false any ?_ outgoing maxRead fun _ => ?_⟩
      · simp [Script.data, before, after, Token.data]
      · rw [before, after, ← Nat.succ_pred_eq_of_pos any, Token.receive]
    | fault =>
      refine ⟨[], true, .none true any ?_ outgoing maxRead fun _ => ?_⟩
      · simp [Script.data, before, after, Token.data]
      · rw [before, after, ← Nat.succ_pred_eq_of_pos any, Token.receive]
    | idle unwilling =>
      refine ⟨[], false, .none false any ?_ outgoing maxRead fun hands => ?_⟩
      · simp [Script.data, before, after]
      · have := idle hands
        omega

structure Sends (expected : Nat) (bs : Bytes) (script : Script) (run : Run Script ScriptCall Unit)
    (taken : Nat) (failed : Bool) : Prop where
  fit : taken ≤ bs.length
  result : run.result =
    if taken = bs.length then .ok ()
    else .error (shortfall .write failed expected (expected - bs.length + taken))
  whole : taken = bs.length → failed = false
  acts : bs ≠ [] → ∀ data later, DiveLink.acts data (run.trace ++ later) =
    .sent bs taken failed :: DiveLink.acts data later
  incoming : run.stream.incoming = script.incoming
  maxRead : run.stream.maxRead = script.maxRead
  idle : bs = [] → run.trace = []
  willing : script.Willing → taken = bs.length ∧ run.stream.Willing

theorem Sends.none {expected : Nat} {bs : Bytes} {script left : Script} (failed : Bool)
    (any : bs ≠ []) (incoming : left.incoming = script.incoming)
    (maxRead : left.maxRead = script.maxRead) (unwilling : ¬ script.Willing) :
    Sends expected bs script
      ⟨.error (shortfall .write failed expected (expected - bs.length)),
        [.write bs (if failed then Option.none else some 0)], left⟩ 0 failed where
  fit := Nat.zero_le _
  result := by simp [any, eq_comm]
  whole h := absurd (List.length_eq_zero_iff.1 h.symm) any
  acts _ data later := by
    cases failed <;> simp [DiveLink.acts, Observation.act, Observation.leaves, Act.join_sent_none]
  incoming := incoming
  maxRead := maxRead
  idle h := absurd h any
  willing h := absurd h unwilling

theorem Sends.some {expected : Nat} {bs : Bytes} {script left : Script} {count taken : Nat}
    {failed : Bool} {run : Run Script ScriptCall Unit} (due : bs.length ≤ expected)
    (any : 0 < count) (fit : count ≤ bs.length) (incoming : left.incoming = script.incoming)
    (maxRead : left.maxRead = script.maxRead) (willing : script.Willing → left.Willing)
    (rest : Sends expected (bs.drop count) left run taken failed) :
    Sends expected bs script (run.after [.write bs (some count)]) (count + taken) failed := by
  have length : (bs.drop count).length = bs.length - count := List.length_drop
  have fit' := rest.fit
  constructor
  case fit => omega
  case result =>
    have total : expected - (bs.drop count).length + taken =
        expected - bs.length + (count + taken) := by omega
    have whole : taken = (bs.drop count).length ↔ count + taken = bs.length := by omega
    simp only [after, rest.result, total, whole]
  case whole => exact fun h => rest.whole (by omega)
  case acts =>
    intro _ data later
    simp only [after, List.cons_append, List.nil_append, DiveLink.acts, Observation.act,
      Observation.leaves, Option.getD_some, Option.isNone_some]
    by_cases h : count = bs.length
    · have none : taken = 0 := by omega
      have whole : failed = false := rest.whole (by omega)
      rw [rest.idle (List.length_eq_zero_iff.1 (by omega)), none, whole, h, Act.join_sent_whole,
        List.nil_append, Nat.add_zero]
    · have more : bs.drop count ≠ [] := by
        intro hn
        rw [hn] at length
        simp only [List.length_nil] at length
        omega
      rw [rest.acts more, Act.join_sent_part any (by omega)]
  case incoming => rw [after, rest.incoming, incoming]
  case maxRead => rw [after, rest.maxRead, maxRead]
  case idle =>
    intro hn
    simp only [hn, List.length_nil] at fit
    omega
  case willing =>
    intro h
    obtain ⟨all, still⟩ := rest.willing (willing h)
    exact ⟨by omega, still⟩

theorem writeMissing_sends {expected : Nat} {bs : Bytes} (due : bs.length ≤ expected)
    (script : Script) : ∃ taken failed,
    Sends expected bs script (writeMissing expected bs script) taken failed := by
  induction h : bs.length using Nat.strongRecOn generalizing bs script with
  | ind length ih =>
    by_cases none : bs.length = 0
    · have none' := List.length_eq_zero_iff.1 none
      subst none'
      refine ⟨0, false, ?_⟩
      rw [writeMissing]
      constructor <;> simp [ended]
    have any : bs ≠ [] := fun hn => none (by simp [hn])
    have next : ByteStream.write bs script = script.write bs := rfl
    rw [writeMissing, if_neg none, next]
    obtain ⟨incoming, maxRead, takes⟩ := script.write_takes any
    generalize script.write bs = seen at incoming maxRead takes
    obtain ⟨outcome, left⟩ := seen
    rcases takes with ⟨count, rfl, fit, willing⟩ | ⟨rfl, unwilling⟩ | ⟨rfl, unwilling⟩
    · have shorter : (bs.drop (count + 1)).length < length := by
        rw [List.length_drop]
        omega
      obtain ⟨taken, failed, rest⟩ := ih _ shorter (by omega) left rfl
      exact ⟨_, failed, .some due (Nat.succ_pos count) fit incoming maxRead willing rest⟩
    · exact ⟨0, false, .none false any incoming maxRead unwilling⟩
    · exact ⟨0, true, .none true any incoming maxRead unwilling⟩

theorem readExact_receives (count : Nat) (script : Script) : ∃ got failed,
    Receives count count script (readExact count script) got failed :=
  readMissing_receives (Nat.le_refl count) script

theorem writeAll_sends (bs : Bytes) (script : Script) : ∃ taken failed,
    Sends bs.length bs script (writeAll bs script) taken failed :=
  writeMissing_sends (Nat.le_refl bs.length) script

theorem Receives.acts_whole {count : Nat} {script : Script} {run : Run Script ScriptCall Bytes}
    {got : Bytes} {failed : Bool} (h : Receives count count script run got failed)
    (whole : got.length = count) (later : List Observation) :
    DiveLink.acts script.data (run.trace ++ later) =
      Act.reception got ++ DiveLink.acts run.stream.data later := by
  by_cases none : count = 0
  · have empty : got = [] := List.length_eq_zero_iff.1 (by omega)
    have data : script.data = run.stream.data := by simpa [empty] using h.data
    rw [h.idle none, empty, data]
    rfl
  · have any : got ≠ [] := fun hn => none (by simp [← whole, hn])
    rw [h.acts (by omega), h.whole whole, Act.reception, if_neg any, whole]
    rfl

theorem Sends.acts_whole {bs : Bytes} {script : Script} {run : Run Script ScriptCall Unit}
    {failed : Bool} (h : Sends bs.length bs script run bs.length failed) (data : Bytes)
    (later : List Observation) :
    DiveLink.acts data (run.trace ++ later) = Act.sending bs ++ DiveLink.acts data later := by
  by_cases none : bs = []
  · rw [h.idle none, none]
    rfl
  · rw [h.acts none, h.whole rfl, Act.sending, if_neg none]
    rfl

end Run

end DiveLink
