import DiveLink.Proofs.PacketFormat
import DiveLink.Proofs.Partway
import DiveLink.Session

set_option autoImplicit false

namespace DiveLink

namespace Observation

def isEvent : Observation → Bool
  | event .. => true
  | _ => false

def event? : Observation → Option (String × Event)
  | event listener news => some (listener, news)
  | _ => none

theorem countP_isDive_unheard (trace : List Observation) :
    (trace.filter (!·.isEvent)).countP isDive = trace.countP isDive := by
  rw [List.countP_filter]
  congr 1
  funext seen
  cases seen <;> rfl

end Observation

def heardOf (trace : List Observation) : List (String × Event) :=
  trace.filterMap Observation.event?

def toldTo (listener : Option String) (events : List Event) : List (String × Event) :=
  listener.toList.flatMap fun name => events.map (name, ·)

theorem heardOf_append (before later : List Observation) :
    heardOf (before ++ later) = heardOf before ++ heardOf later := List.filterMap_append

theorem heardOf_told (listener : Option String) (event : Event) :
    heardOf (listener.toList.map (.event · event)) = toldTo listener [event] := by
  cases listener <;> rfl

theorem heardOf_transfers {trace : List Observation}
    (transfers : ∀ seen ∈ trace, seen.isTransfer = true) : heardOf trace = [] := by
  refine List.filterMap_eq_nil_iff.2 fun seen mem => ?_
  have transfer := transfers seen mem
  cases seen <;> first | rfl | cases transfer

theorem toldTo_cons (listener : Option String) (event : Event) (later : List Event) :
    toldTo listener (event :: later) = toldTo listener [event] ++ toldTo listener later := by
  cases listener <;> simp [toldTo]

@[simp] theorem toldTo_nil (listener : Option String) : toldTo listener [] = [] := by
  cases listener <;> rfl

namespace Run
variable {σ ε α : Type}

def unheard (run : Run σ ε α) : Run σ ε α :=
  { run with trace := run.trace.filter (!·.isEvent) }

theorem unheard_after (seen : List Observation) (run : Run σ ε α) :
    (run.after seen).unheard = run.unheard.after (seen.filter (!·.isEvent)) := by
  simp [unheard, after]

variable [ByteStream σ ε]

theorem heardOf_readExact (count : Nat) (stream : σ) :
    heardOf (readExact count stream).trace = [] :=
  heardOf_transfers (isTransfer_readMissing count count stream)

theorem heardOf_control (call : Control) (stream : σ) :
    heardOf (control call stream).trace = [] := by
  unfold control
  split <;> rfl

theorem heardOf_controls (calls : List Control) (stream : σ) :
    heardOf (controls calls stream).trace = [] := by
  induction calls generalizing stream with
  | nil => rfl
  | cons call later ih =>
    rw [controls]
    cases made : (control call stream).result with
    | error why => rw [andThen_error made, heardOf_control]
    | ok a => rw [andThen_ok made, after, heardOf_append, heardOf_control, ih, List.append_nil]

theorem heardOf_writeAll (bs : Bytes) (stream : σ) : heardOf (writeAll bs stream).trace = [] :=
  heardOf_transfers (isTransfer_writeMissing bs.length bs stream)

end Run

namespace Dialogue
variable {σ ε α : Type} [ByteStream σ ε] {receiver : Receiver}

/-- What a dialogue has to tell on its way over a stream, whether anyone listens or not. -/
def announced (receiver : Receiver) : Dialogue α → List Delivery → σ → List Event
  | done _, _, _ | refuse _, _, _ => []
  | pause ms next, made, stream => next.announced receiver made (ByteStream.sleep ms stream)
  | send bs next, made, stream =>
    match (Run.writeAll bs stream).result with
    | .ok () => next.announced receiver made (Run.writeAll bs stream).stream
    | .error _ => []
  | receive count next, made, stream =>
    match (Run.readExact count stream).result with
    | .ok bs => (next bs).announced receiver made (Run.readExact count stream).stream
    | .error _ => []
  | announce event next, made, stream => event :: next.announced receiver made stream
  | deliver dive next, made, stream =>
    (next (receiver (made ++ [dive]))).announced receiver (made ++ [dive]) stream

/-- But for the events a run does not depend on who listens. -/
theorem run_unheard (d : Dialogue α) (first second : Option String) (made : List Delivery)
    (stream : σ) :
    (d.run first receiver made stream).unheard = (d.run second receiver made stream).unheard := by
  -- Only what is announced differs, and of that only the event is observed.
  induction d generalizing made stream with
  | done a => rfl
  | refuse why => rfl
  | pause ms next ih => simp only [run, Run.unheard_after, ih]
  | send bs next ih =>
    simp only [run]
    cases sent : (Run.writeAll bs stream).result with
    | error why => simp only [Run.andThen_error sent]
    | ok a => simp only [Run.andThen_ok sent, Run.unheard_after, ih]
  | receive count next ih =>
    simp only [run]
    cases received : (Run.readExact count stream).result with
    | error why => simp only [Run.andThen_error received]
    | ok bs => simp only [Run.andThen_ok received, Run.unheard_after, ih bs]
  | announce event next ih =>
    have none (listener : Option String) :
        (listener.toList.map (Observation.event · event)).filter (!·.isEvent) = [] := by
      cases listener <;> rfl
    simp only [run, Run.unheard_after, none, ih made stream]
  | deliver dive next ih => simp only [run, Run.unheard_after, ih]

theorem heardOf_run (d : Dialogue α) (listener : Option String) (made : List Delivery)
    (stream : σ) :
    heardOf (d.run listener receiver made stream).trace =
      toldTo listener (d.announced receiver made stream) := by
  induction d generalizing made stream with
  | done a => exact (toldTo_nil listener).symm
  | refuse why => exact (toldTo_nil listener).symm
  | pause ms next ih => exact ih made _
  | send bs next ih =>
    simp only [run, announced]
    cases sent : (Run.writeAll bs stream).result with
    | error why => rw [Run.andThen_error sent, Run.heardOf_writeAll, toldTo_nil]
    | ok a =>
      rw [Run.andThen_ok sent, Run.after, heardOf_append, Run.heardOf_writeAll, ih]
      rfl
  | receive count next ih =>
    simp only [run, announced]
    cases received : (Run.readExact count stream).result with
    | error why => rw [Run.andThen_error received, Run.heardOf_readExact, toldTo_nil]
    | ok bs =>
      rw [Run.andThen_ok received, Run.after, heardOf_append, Run.heardOf_readExact, ih]
      rfl
  | announce event next ih =>
    rw [run, Run.after, heardOf_append, heardOf_told, ih, announced, ← toldTo_cons]
  | deliver dive next ih => exact ih _ _ stream

end Dialogue

theorem Device.heardOf_connect {σ ε : Type} [ByteStream σ ε] (stream : σ) :
    heardOf (Device.connect stream).trace = [] := by
  rw [Device.connect]
  cases made : (Run.controls Device.setup stream).result with
  | error why => rw [Run.andThen_error made, Run.heardOf_controls]
  | ok a =>
    rw [Run.andThen_ok made, Run.after, heardOf_append, Run.heardOf_controls]
    exact Run.heardOf_control _ _

def Report.unheard (report : Report) : Report :=
  { report with trace := report.trace.filter (!·.isEvent) }

namespace Step

def isListen : Step → Bool
  | listen _ => true
  | _ => false

/-- The listener that a step brings about, or its lack. -/
def installs : Step → Option (Option String)
  | listen listener => some (some listener)
  | renew => some none
  | _ => none

/-- The listener after some steps, of which the last one to bring one about or to remove it counts. -/
def listening (first : Option String) (plan : List Step) : Option String :=
  (plan.reverse.findSome? installs).getD first

/-- Of what there is for each of some steps, that for those which install no listener. -/
def others {γ : Type} (plan : List Step) (each : List γ) : List γ :=
  ((plan.zip each).filter (!·.1.isListen)).map (·.2)

variable {γ : Type} {step : Step}

theorem listening_cons (first : Option String) (step : Step) (later : List Step) :
    listening first (step :: later) = listening (step.installs.getD first) later := by
  rw [listening, listening, List.reverse_cons, List.findSome?_append]
  cases later.reverse.findSome? installs with
  | some listener => rfl
  | none => cases installed : step.installs <;> simp [installed]

theorem others_nil (plan : List Step) : others plan ([] : List γ) = [] := by simp [others]

theorem others_listen (listens : step.isListen = true) (plan : List Step) (one : γ)
    (each : List γ) : others (step :: plan) (one :: each) = others plan each := by
  simp [others, listens]

theorem others_cons (other : step.isListen = false) (plan : List Step) (one : γ)
    (each : List γ) : others (step :: plan) (one :: each) = one :: others plan each := by
  simp [others, other]

end Step

namespace Session

def announced : Step → Session → List Event
  | .identify, session => Conversation.identify.announced .takesAll [] session.script
  | .downloadNew receiver, session =>
    (Conversation.downloadNew session.device.fingerprint).announced receiver [] session.script
  | .setClock time, session => (Conversation.setClock time).announced .takesAll [] session.script
  | .leave, session => Conversation.leave.announced .takesAll [] session.script
  | .queue _, _ | .listen _, _ | .setFingerprint _, _ | .renew, _ | .describe, _ => []

def announcements : List Step → Session → List (List Event)
  | [], _ => []
  | step :: later, session => session.announced step :: announcements later (session.step step).2

/-- Sessions that differ in nothing but who listens. -/
structure Twin (a b : Session) : Prop where
  fingerprint : a.device.fingerprint = b.device.fingerprint
  script : a.script = b.script

variable {a b : Session} {step : Step}

theorem converse_unheard {α : Type} (receiver : Receiver) (dialogue : Dialogue α)
    (value : α → Nat → Value) (twin : a.Twin b) :
    (a.converse receiver dialogue value).1.unheard =
        (b.converse receiver dialogue value).1.unheard ∧
      (a.converse receiver dialogue value).2.Twin (b.converse receiver dialogue value).2 := by
  obtain ⟨⟨fingerprint, first⟩, script⟩ := a
  obtain ⟨⟨fingerprint', second⟩, script'⟩ := b
  obtain ⟨rfl, rfl⟩ : fingerprint = fingerprint' ∧ script = script' :=
    ⟨twin.fingerprint, twin.script⟩
  have same : _ = (dialogue.run second receiver [] script).unheard :=
    dialogue.run_unheard first second [] script
  have result := congrArg Run.result same
  have trace := congrArg Run.trace same
  have stream := congrArg Run.stream same
  have dives := congrArg (List.countP Observation.isDive) trace
  simp only [Run.unheard, Observation.countP_isDive_unheard] at result trace stream dives
  constructor
  · simp only [converse, report, Device.perform, Report.unheard, result, trace, stream, dives]
  · exact ⟨rfl, stream⟩

theorem converse_heard {α : Type} (receiver : Receiver) (dialogue : Dialogue α)
    (value : α → Nat → Value) (session : Session) :
    heardOf (session.converse receiver dialogue value).1.trace =
      toldTo session.device.listener (dialogue.announced receiver [] session.script) :=
  dialogue.heardOf_run session.device.listener [] session.script

theorem step_unheard (twin : a.Twin b) (other : step.isListen = false) (tacit : step ≠ .describe) :
    (a.step step).1.unheard = (b.step step).1.unheard ∧ a.announced step = b.announced step ∧
      (a.step step).2.Twin (b.step step).2 := by
  obtain ⟨⟨fingerprint, first⟩, script⟩ := a
  obtain ⟨⟨fingerprint', second⟩, script'⟩ := b
  obtain ⟨rfl, rfl⟩ : fingerprint = fingerprint' ∧ script = script' :=
    ⟨twin.fingerprint, twin.script⟩
  cases step with
  | queue supplies => exact ⟨rfl, rfl, rfl, rfl⟩
  | listen listener => cases other
  | setFingerprint data =>
    cases stored : Fingerprint.select data with
    | ok f =>
      simp only [Session.step, Device.setFingerprint, stored, bind, Except.bind]
      exact ⟨rfl, rfl, rfl, rfl⟩
    | error why =>
      simp only [Session.step, Device.setFingerprint, stored, bind, Except.bind]
      exact ⟨rfl, rfl, rfl, rfl⟩
  | identify =>
    obtain ⟨reports, after⟩ := converse_unheard .takesAll Conversation.identify
      (fun identity _ => .identity identity) twin
    exact ⟨reports, rfl, after⟩
  | downloadNew receiver =>
    obtain ⟨reports, after⟩ := converse_unheard receiver (Conversation.downloadNew fingerprint)
      (fun _ dives => .dives dives) twin
    exact ⟨reports, rfl, after⟩
  | setClock time =>
    obtain ⟨reports, after⟩ := converse_unheard .takesAll (Conversation.setClock time)
      (fun _ _ => .nothing) twin
    exact ⟨reports, rfl, after⟩
  | leave =>
    obtain ⟨reports, after⟩ := converse_unheard .takesAll Conversation.leave
      (fun _ _ => .nothing) twin
    exact ⟨reports, rfl, after⟩
  | renew => exact ⟨rfl, rfl, rfl, rfl⟩
  | describe => exact absurd rfl tacit

theorem step_heard (step : Step) (session : Session) :
    heardOf (session.step step).1.trace =
      toldTo session.device.listener (session.announced step) := by
  cases step with
  | identify | downloadNew | setClock | leave => exact converse_heard _ _ _ session
  | setFingerprint data =>
    rw [announced, toldTo_nil, Session.step]
    cases session.device.setFingerprint data <;> rfl
  | queue | listen | renew | describe => exact (toldTo_nil _).symm

theorem step_listener (step : Step) (session : Session) :
    (session.step step).2.device.listener = step.installs.getD session.device.listener := by
  cases step with
  | setFingerprint data =>
    simp only [Session.step, Device.setFingerprint]
    cases Fingerprint.select data <;> rfl
  | queue | listen | identify | downloadNew | setClock | leave | renew | describe => rfl

theorem steps_heard (plan : List Step) (session : Session) :
    ∀ (j : Nat) (report : Report), (session.steps plan).1[j]? = some report →
      ∃ events, (session.announcements plan)[j]? = some events ∧
        heardOf report.trace =
          toldTo (Step.listening session.device.listener (plan.take j)) events := by
  induction plan generalizing session with
  | nil => nofun
  | cons step later ih =>
    rintro (_ | j) report found
    · cases found
      exact ⟨_, rfl, step_heard step session⟩
    · obtain ⟨events, told, heard⟩ := ih (session.step step).2 j report found
      refine ⟨events, told, heard.trans ?_⟩
      rw [step_listener, List.take_succ_cons, Step.listening_cons]

theorem step_listen (listens : step.isListen = true) (twin : a.Twin b) :
    (a.step step).2.Twin b := by
  cases step with
  | listen listener => exact ⟨twin.fingerprint, twin.script⟩
  | queue | setFingerprint | identify | downloadNew | setClock | leave | renew | describe =>
    cases listens

theorem steps_unheard {plan : List Step} (tacit : ∀ step ∈ plan, step ≠ .describe)
    (twin : a.Twin b) :
    let left := plan.filter (!·.isListen)
    Step.others plan ((a.steps plan).1.map Report.unheard) =
        (b.steps left).1.map Report.unheard ∧
      Step.others plan (a.announcements plan) = b.announcements left ∧
      (a.steps plan).2.Twin (b.steps left).2 := by
  induction plan generalizing a b with
  | nil => exact ⟨rfl, rfl, twin⟩
  | cons step later ih =>
    obtain ⟨first, rest⟩ := List.forall_mem_cons.1 tacit
    by_cases listens : step.isListen = true
    · -- Here the one session gets a listener while the other stands still.
      obtain ⟨reports, told, after⟩ := ih rest (step_listen listens twin)
      rw [List.filter_cons_of_neg (by simp [listens])]
      refine ⟨?_, ?_, after⟩
      · exact (Step.others_listen listens ..).trans reports
      · exact (Step.others_listen listens ..).trans told
    · have other := Bool.eq_false_iff.2 listens
      obtain ⟨report, tells, twin'⟩ := step_unheard twin other first
      obtain ⟨reports, told, after⟩ := ih rest twin'
      rw [List.filter_cons_of_pos (by simp [other])]
      refine ⟨?_, ?_, after⟩
      · exact (Step.others_cons other ..).trans (List.cons_eq_cons.2 ⟨report, reports⟩)
      · exact (Step.others_cons other ..).trans (List.cons_eq_cons.2 ⟨tells, told⟩)

def opened (start : Start) (script : Script) : Session :=
  match start with
  | .ready => ⟨.fresh, script⟩
  | .setup => ⟨.fresh, (Device.connect script).stream⟩

theorem play_begins (start : Start) (script : Script) : ∃ first, heardOf first.trace = [] ∧
    ((∀ plan, play start script plan = first :: ((opened start script).steps plan).1) ∨
      ∀ plan, play start script plan = [first]) := by
  cases start with
  | ready => exact ⟨_, rfl, .inl fun _ => rfl⟩
  | setup =>
    have silent := Device.heardOf_connect script
    cases ended : (Device.connect script).result with
    | ok _ =>
      refine ⟨(report (.ok .nothing) (Device.connect script).trace (opened .setup script)).1,
        silent, .inl fun plan => ?_⟩
      rw [play, ended]
      rfl
    | error failure =>
      refine ⟨⟨.error failure, (Device.connect script).trace, none,
        (Device.connect script).stream.unread⟩, silent, .inr fun plan => ?_⟩
      rw [play, ended]

/-- Listeners have no part in what is done. Plans that differ in which listeners they install, and
where, lead to the same reports of all other steps but for the events, and there is the same to
tell in each of them. Whoever is the listener at a step hears all of that, each thing once, and
nobody else hears anything. -/
theorem play_listened (start : Start) (script : Script) :
    (∀ plan plan' : List Step, (∀ step ∈ plan, step ≠ .describe) →
      plan.filter (!·.isListen) = plan'.filter (!·.isListen) →
      let reports := play start script plan
      let reports' := play start script plan'
      reports.head? = reports'.head? ∧
        Step.others plan (reports.tail.map Report.unheard) =
          Step.others plan' (reports'.tail.map Report.unheard) ∧
        Step.others plan ((opened start script).announcements plan) =
          Step.others plan' ((opened start script).announcements plan')) ∧
    ∀ plan : List Step,
      (∀ report, (play start script plan).head? = some report → heardOf report.trace = []) ∧
      ∀ (j : Nat) (report : Report), (play start script plan)[j + 1]? = some report →
        ∃ events, ((opened start script).announcements plan)[j]? = some events ∧
          heardOf report.trace = toldTo (Step.listening none (plan.take j)) events := by
  obtain ⟨first, silent, plays⟩ := play_begins start script
  have unheard : (opened start script).device.listener = none := by cases start <;> rfl
  constructor
  · intro plan plan' tacit same reports reports'
    have tacit' : ∀ step ∈ plan', step ≠ .describe := by
      rintro step mem rfl
      have kept : Step.describe ∈ plan.filter (!·.isListen) :=
        same ▸ List.mem_filter.2 ⟨mem, rfl⟩
      exact tacit _ (List.mem_filter.1 kept).1 rfl
    -- Each plan is compared with what is left of it, and that is the same for both.
    have twin : (opened start script).Twin (opened start script) := ⟨rfl, rfl⟩
    obtain ⟨left, told, -⟩ := steps_unheard tacit twin
    obtain ⟨left', told', -⟩ := steps_unheard tacit' twin
    rw [← same] at left' told'
    refine ⟨?_, ?_, told.trans told'.symm⟩
    · rcases plays with plays | plays <;> simp only [reports, reports', plays, List.head?_cons]
    · rcases plays with plays | plays
      · simpa only [reports, reports', plays, List.tail_cons] using left.trans left'.symm
      · simp only [reports, reports', plays, List.tail_cons, List.map_nil, Step.others_nil]
  · intro plan
    constructor
    · intro report found
      have begins : (play start script plan).head? = some first := by
        rcases plays with plays | plays <;> rw [plays] <;> rfl
      cases begins.symm.trans found
      exact silent
    · intro j report found
      rcases plays with plays | plays
      · rw [plays] at found
        exact unheard ▸ steps_heard plan (opened start script) j report found
      · rw [plays] at found
        cases found

theorem play_listened_three :
    let block : Bytes := [1, 2, 3, 4, 1, 200, 0, 0, 0, 0, 0]
    let info : DeviceInfo := ⟨1, 200, 0x04030201⟩
    let answer := Packet.wire 0 block
    let script : Script := ⟨[.bytes (answer ++ answer), .bytes answer], [], none, []⟩
    let plan : List Step := [.listen "first", .identify, .listen "second", .identify, .renew,
      .identify]
    let bare : List Step := [.identify, .identify, .renew, .identify]
    let reports := play .ready script plan
    Step.others plan (reports.tail.map Report.unheard) =
        Step.others bare ((play .ready script bare).tail.map Report.unheard) ∧
      reports.map (heardOf ·.trace) = [[], [], [("first", .vendor block),
        ("first", .deviceInfo info)], [], [("second", .vendor block),
          ("second", .deviceInfo info)], [], []] := by
  intro block info answer script plan bare reports
  have tacit : ∀ step ∈ plan, step ≠ .describe := by simp [plan]
  exact ⟨((play_listened .ready script).1 plan bare tacit rfl).2.1, by decide +kernel⟩

end Session

end DiveLink
