import DiveLink.Proofs.CheckedSessions
import DiveLink.Proofs.FailFast
import DiveLink.Proofs.PacketReceipt

set_option autoImplicit false

namespace DiveLink

/-- What is wrong with an answer packet or a chunk. No packet is too short, since as much of it is
read as it announces. -/
inductive PacketRefusal : Refusal → Prop
  | headerMarkers (found : Bytes) : PacketRefusal (.headerMarkers found)
  | payloadLength (length : UInt8) : PacketRefusal (.payloadLength length)
  | trailer (found : UInt8) : PacketRefusal (.trailer found)
  | checksum {expected calculated : UInt16} (differ : expected ≠ calculated) :
    PacketRefusal (.checksum expected calculated)

inductive TransferRefusal : Refusal → Prop
  | packet {why : Refusal} (packet : PacketRefusal why) : TransferRefusal why
  | endByte {found : UInt8} (other : found ≠ Chunk.endByte) : TransferRefusal (.endByte found)

inductive IdentityRefusal : Refusal → Prop
  | identificationLength (length : Nat) : IdentityRefusal (.identificationLength length)
  | unknownModel (model : UInt8) : IdentityRefusal (.unknownModel model)
  | unknownFirmware (firmware : UInt16) : IdentityRefusal (.unknownFirmware firmware)
  | unsupportedCombination (model : UInt8) (firmware : UInt16) (version : UInt8) :
    IdentityRefusal (.unsupportedCombination model firmware version)

/-- Why a dive does not belong to its entry. Which check comes after that of the number is a matter
of the version. -/
inductive DiveRefusal (version : ApiVersion) : Refusal → Prop
  | tooShort {size min : Nat} (few : size < min) : DiveRefusal version (.diveTooShort size min)
  | number {logbook dive : UInt16} (differ : logbook ≠ dive) :
    DiveRefusal version (.diveNumber logbook dive)
  | header (number : UInt16) (older : version ≠ .v4) : DiveRefusal version (.diveHeader number)
  | date {logbook dive : Bytes} (newer : version = .v4) (differ : dive ≠ logbook) :
    DiveRefusal version (.startDate logbook dive)

/-- What is no matter of a talk with a device: arguments, loose packets and records, and the limits
of memory and numbers. -/
def Refusal.isForeign : Refusal → Bool
  | payloadTooLarge .. | fingerprintSize .. | truncated .. | entryLength .. | recordTag ..
  | outOfMemory .. | outOfRange | overflow => true
  | headerMarkers .. | payloadLength .. | trailer .. | checksum .. | endByte .. | diveTooShort ..
  | diveNumber .. | diveHeader .. | startDate .. | identificationLength .. | unknownModel ..
  | unknownFirmware .. | unsupportedCombination .. => false

theorem TransferRefusal.kind {why : Refusal} (h : TransferRefusal why) : why.kind = .protocol := by
  cases h with
  | packet packet => cases packet <;> rfl
  | endByte => rfl

theorem IdentityRefusal.kind {why : Refusal} (h : IdentityRefusal why) :
    why.kind = .unsupported := by
  cases h <;> rfl

theorem DiveRefusal.kind {version : ApiVersion} {why : Refusal} (h : DiveRefusal version why) :
    why.kind = .dataFormat := by
  cases h <;> rfl

/-- A computation that, faults apart, is refused for some of these reasons only. -/
def FailsFor {α : Type} (reasons : Refusal → Prop) (value : Except Refusal α) : Prop :=
  ∀ why, value = .error why → why.kind ≠ .fault → reasons why

section Computations
variable {α β : Type} {reasons : Refusal → Prop}

theorem failsFor_ok (a : α) : FailsFor reasons (.ok a) := fun _ h => nomatch h

theorem failsFor_error {why : Refusal} (reason : reasons why) :
    FailsFor reasons (.error why : Except Refusal α) := by
  rintro _ ⟨⟩ -
  exact reason

theorem failsFor_fault {why : Refusal} (fault : why.kind = .fault) :
    FailsFor reasons (.error why : Except Refusal α) := by
  rintro _ ⟨⟩ sound
  exact absurd fault sound

theorem failsFor_within (found : Option α) : FailsFor reasons (within found) := by
  cases found with
  | none => exact failsFor_fault rfl
  | some a => exact failsFor_ok a

theorem FailsFor.bind {value : Except Refusal α} {next : α → Except Refusal β}
    (first : FailsFor reasons value) (second : ∀ a, FailsFor reasons (next a)) :
    FailsFor reasons (value >>= next) := by
  cases value with
  | ok a => exact second a
  | error why =>
    rintro _ ⟨⟩ sound
    exact first why rfl sound

theorem Checksum.verify_failsFor (data stored : Bytes) :
    FailsFor PacketRefusal (verify data stored) := by
  have reads : FailsFor PacketRefusal (Checksum.read stored) := by
    unfold Checksum.read
    split
    · exact failsFor_ok _
    · exact failsFor_fault rfl
  refine reads.bind fun expected => ?_
  dsimp only
  split
  · exact failsFor_ok ()
  · next differ => exact failsFor_error (.checksum differ)

theorem Chunk.decode_failsFor (chunk : Bytes) : FailsFor PacketRefusal (decode chunk) :=
  (failsFor_within _).bind fun data => (failsFor_within _).bind fun _ =>
    (Checksum.verify_failsFor data _).bind fun _ => failsFor_ok data

theorem Packet.decode_failsFor (packet : Bytes) :
    FailsFor (fun why => (∃ size min, why = .truncated size min) ∨ PacketRefusal why)
      (decode packet) := by
  intro why refused _
  cases decode_eq_error_iff.1 refused with
  | short | truncated => exact .inl ⟨_, _, rfl⟩
  | unmarked => exact .inr (.headerMarkers _)
  | tooLong => exact .inr (.payloadLength _)
  | unclosed => exact .inr (.trailer _)
  | corrupt _ _ _ _ differs => exact .inr (.checksum differs)

theorem ApiVersion.negotiate_failsFor (model : UInt8) (firmware : UInt16) :
    FailsFor IdentityRefusal (negotiate model firmware) := by
  unfold negotiate
  split
  · exact failsFor_error (.unknownModel model)
  · split
    · exact failsFor_error (.unknownFirmware firmware)
    · split
      · exact failsFor_ok _
      · exact failsFor_error (.unsupportedCombination ..)

theorem Identity.read_failsFor (block : Bytes) :
    FailsFor IdentityRefusal (Identity.read block) := by
  unfold Identity.read
  split
  · exact failsFor_error (.identificationLength _)
  · exact (failsFor_within _).bind fun info =>
      (ApiVersion.negotiate_failsFor _ _).bind fun _ => failsFor_ok _

namespace Dive
variable {version : ApiVersion}

theorem agreeOnNumber_failsFor (entry dive : Bytes) :
    FailsFor (DiveRefusal version) (agreeOnNumber entry dive) := by
  refine (failsFor_within _).bind fun inLogbook => (failsFor_within _).bind fun inDive => ?_
  split
  · exact failsFor_ok _
  · next differ => exact failsFor_error (.number differ)

theorem checkCopiedHeader_failsFor (older : version ≠ .v4) (entryLength : Nat)
    (entry dive : Bytes) :
    FailsFor (DiveRefusal version) (checkCopiedHeader entryLength entry dive) := by
  unfold checkCopiedHeader
  split
  · exact failsFor_fault rfl
  dsimp only
  split
  · next few => exact failsFor_error (.tooShort few)
  refine (agreeOnNumber_failsFor entry dive).bind fun number => ?_
  refine (failsFor_within _).bind fun copy => (failsFor_within _).bind fun header => ?_
  split
  · exact failsFor_ok ()
  · exact failsFor_error (.header number older)

theorem checkStartDate_failsFor (newer : version = .v4) (entry dive : Bytes) :
    FailsFor (DiveRefusal version) (checkStartDate entry dive) := by
  unfold checkStartDate
  split
  · next few => exact failsFor_error (.tooShort few)
  refine (agreeOnNumber_failsFor entry dive).bind fun _ => ?_
  refine (failsFor_within _).bind fun expected => (failsFor_within _).bind fun found => ?_
  split
  · exact failsFor_ok ()
  · next differ => exact failsFor_error (.date newer differ)

theorem validate_failsFor (layout : Layout) (entry dive : Bytes) :
    FailsFor (DiveRefusal layout.version) (validate layout entry dive) := by
  unfold validate
  split
  · next newer => exact checkStartDate_failsFor newer entry dive
  · next older => exact checkCopiedHeader_failsFor older _ entry dive

end Dive

end Computations

namespace Dialogue
variable {α β : Type} {reasons other : Refusal → Prop}

def FailsFor (reasons : Refusal → Prop) (d : Dialogue α) : Prop :=
  ∀ ⦃listener : Option String⦄ ⦃receiver : Receiver⦄ ⦃made : List Delivery⦄ ⦃seen : List Act⦄
    ⦃why : Refusal⦄, d.Course listener receiver made seen (.error (.refused why)) →
      why.kind ≠ .fault → reasons why

theorem failsFor_done (a : α) : (done a).FailsFor reasons := by
  intro listener receiver made seen why course
  cases course

theorem failsFor_ofExcept {value : Except Refusal α} (fails : DiveLink.FailsFor reasons value) :
    (Dialogue.ofExcept value).FailsFor reasons := by
  intro listener receiver made seen why course sound
  cases value with
  | ok a => cases course
  | error cause =>
    cases course
    exact fails _ rfl sound

namespace FailsFor

theorem mono {d : Dialogue α} (fails : d.FailsFor reasons)
    (wider : ∀ why, reasons why → other why) : d.FailsFor other :=
  fun _ _ _ _ why course sound => wider why (fails course sound)

theorem pause {ms : Nat} {next : Dialogue α} (fails : next.FailsFor reasons) :
    (Dialogue.pause ms next).FailsFor reasons := by
  intro listener receiver made seen why course
  cases course with
  | pause rest => exact fails rest

theorem announce {event : Event} {next : Dialogue α} (fails : next.FailsFor reasons) :
    (Dialogue.announce event next).FailsFor reasons := by
  intro listener receiver made seen why course
  cases course with
  | announce rest => exact fails rest

theorem send {bs : Bytes} {next : Dialogue α} (fails : next.FailsFor reasons) :
    (Dialogue.send bs next).FailsFor reasons := by
  intro listener receiver made seen why course
  generalize ended : Except.error (Failure.refused why) = result at course
  cases course with
  | send rest => exact fails (ended ▸ rest)
  | unsent short =>
    exact absurd (Except.error.inj ended).symm (Exchange.shortfall_ne_refused _ _ _ _ why)

theorem receive {count : Nat} {next : Bytes → Dialogue α}
    (fails : ∀ bs, bs.length = count → (next bs).FailsFor reasons) :
    (Dialogue.receive count next).FailsFor reasons := by
  intro listener receiver made seen why course
  generalize ended : Except.error (Failure.refused why) = result at course
  cases course with
  | receive whole rest => exact fails _ whole (ended ▸ rest)
  | unreceived short =>
    exact absurd (Except.error.inj ended).symm (Exchange.shortfall_ne_refused _ _ _ _ why)

theorem bind {d : Dialogue α} {f : α → Dialogue β} (first : d.FailsFor reasons)
    (second : ∀ a, (f a).FailsFor reasons) : (d >>= f).FailsFor reasons := by
  intro listener receiver made seen why course
  rcases course.of_bind with ⟨a, _, _, -, rest, -⟩ | ⟨failure, failed, same⟩
  · exact second a rest
  · cases same
    exact first failed

end FailsFor

end Dialogue

open Dialogue

namespace Exchange
variable {listener : Option String} {receiver : Receiver} {made : List Delivery} {seen : List Act}

theorem failsFor_receivePacket : receivePacket.FailsFor PacketRefusal := by
  -- The decoder would also refuse too few bytes, but here it is never given them.
  have any : receivePacket.FailsFor
      fun why => (∃ size min, why = .truncated size min) ∨ PacketRefusal why := by
    refine .receive fun header _ => .bind (failsFor_ofExcept ?_) fun length =>
      .receive fun rest _ => failsFor_ofExcept (Packet.decode_failsFor _)
    exact fun why refused =>
      Packet.decode_failsFor header why (Packet.decode_of_payloadLength refused)
  intro listener receiver made seen why course sound
  rcases any course sound with ⟨size, min, rfl⟩ | packet
  · exact absurd rfl (course_not_truncated course size min)
  · exact packet

theorem failsFor_ask (command : Command) : (ask command).FailsFor PacketRefusal := by
  rw [ask, sendCommand_eq, pause_bind, send_bind, done_bind]
  exact .pause (.send failsFor_receivePacket)

theorem failsFor_receiveChunk : receiveChunk.FailsFor PacketRefusal :=
  .receive fun chunk _ => (failsFor_ofExcept (Chunk.decode_failsFor chunk)).bind fun data =>
    .send (failsFor_done data)

theorem failsFor_advance {reasons : Refusal → Prop} (start : Option Progress)
    (received total : Nat) : (advance start received total).FailsFor reasons := by
  cases start with
  | none => exact failsFor_done none
  | some start => exact .announce (failsFor_done _)

theorem failsFor_receiveMissing (start : Option Progress) (total received : Nat) (buffer : Bytes)
    (now : Option Progress) :
    (receiveMissing start total received buffer now).FailsFor PacketRefusal := by
  fun_induction receiveMissing start total received buffer now with
  | @case1 received buffer now due length ih =>
    exact failsFor_receiveChunk.bind fun data => (failsFor_advance _ _ _).bind fun next =>
      ih data next
  | case2 => exact failsFor_done _

theorem failsFor_receiveEnd : receiveEnd.FailsFor TransferRefusal := by
  refine .receive fun bs length => ?_
  obtain ⟨b, rfl⟩ := List.length_eq_one_iff.1 length
  dsimp only
  split
  · exact .send (failsFor_done ())
  · next other =>
    intro listener receiver made seen why course _
    cases course
    exact .endByte other

theorem failsFor_receiveBulk (buffer : Bytes) (start : Option Progress) :
    (receiveBulk buffer start).FailsFor TransferRefusal :=
  (failsFor_receiveChunk.mono fun _ => .packet).bind fun _ =>
    (failsFor_ofExcept (failsFor_within _)).bind fun _ => (failsFor_advance _ _ _).bind fun _ =>
      ((failsFor_receiveMissing _ _ _ _ _).mono fun _ => .packet).bind fun _ =>
        failsFor_receiveEnd.bind fun _ => failsFor_done _

theorem failsFor_askBulk (command : Command) (buffer : Bytes) (start : Progress) :
    (askBulk command buffer start).FailsFor TransferRefusal :=
  ((failsFor_ask command).mono fun _ => .packet).bind fun _ =>
    (failsFor_receiveBulk buffer (some start)).bind fun _ => failsFor_done _

end Exchange

def Step.talks : Step → Bool
  | .identify | .downloadNew _ | .setClock _ | .leave => true
  | .queue _ | .listen _ | .setFingerprint _ | .renew | .describe => false

def Step.kinds : Step → List ErrorKind
  | .setClock _ | .leave => [.io, .protocol]
  | .identify => [.io, .protocol, .unsupported]
  | .downloadNew _ => [.io, .protocol, .unsupported, .dataFormat]
  | .setFingerprint _ => [.invalidArgument]
  | .queue _ | .listen _ | .renew | .describe => []

open Exchange Conversation

/-- How a step that talks to the device is refused, and what was done before. -/
inductive Step.Refused (listener : Option String) : Step → List Act → Refusal → Prop
  | packet {step : Step} {seen : List Act} {why : Refusal} (packet : PacketRefusal why) :
    Refused listener step seen why
  | transfer {receiver : Receiver} {seen : List Act} {why : Refusal}
    (transfer : TransferRefusal why) : Refused listener (.downloadNew receiver) seen why
  | unidentified {code : UInt8} {block : Bytes} {why : Refusal}
    (fit : block.length ≤ Packet.maxPayload) (refused : Identity.read block = .error why)
    (unknown : IdentityRefusal why) :
    Refused listener .identify (askActs .version (Packet.wire code block)) why
  /-- A download ends as soon as the device turns out to be none that is known. -/
  | unopened {receiver : Receiver} {code : UInt8} {block : Bytes} {why : Refusal}
    (fit : block.length ≤ Packet.maxPayload) (refused : Identity.read block = .error why)
    (unknown : IdentityRefusal why) :
    Refused listener (.downloadNew receiver) (listener.toList.map (.told · (.progress .start)) ++
      askActs .version (Packet.wire code block)) why
  /-- It also ends with the first dive that does not belong to its entry, all of which was
  transferred and acknowledged. -/
  | mismatched {receiver : Receiver} {identity : Identity} {table entry data : Bytes}
    {opening between fetch : List Act} {why : Refusal}
    (opens : Opens listener identity table opening) (fetches : Fetches listener entry data fetch)
    (refused : Dive.validate identity.layout entry data = .error why)
    (differs : DiveRefusal identity.layout.version why) :
    Refused listener (.downloadNew receiver) (opening ++ between ++ fetch) why

namespace Conversation
variable {listener : Option String} {receiver : Receiver} {made : List Delivery} {seen : List Act}
  {why : Refusal}

theorem course_identify_refused
    (course : identify.Course listener receiver made seen (.error (.refused why)))
    (sound : why.kind ≠ .fault) : Step.Refused listener .identify seen why := by
  simp only [identify, readIdentity, bind_assoc, done_bind] at course
  rcases course.of_bind with ⟨block, first, later, asked, judged, rfl⟩ | ⟨failure, failed, same⟩
  · obtain ⟨fit, code, rfl⟩ := course_ask asked
    rcases Course.of_ofExcept judged with ⟨identity, -, told⟩ | ⟨rfl, why, refused, ⟨⟩⟩
    · cases told with | announce told => cases told with | announce told => cases told
    · rw [List.append_nil]
      exact .unidentified fit refused (Identity.read_failsFor block why refused sound)
  · cases same
    exact .packet (failsFor_ask _ failed sound)

theorem course_downloadDive_refused {layout : Layout} {entry buffer : Bytes} {start : Progress}
    (course : (downloadDive layout entry buffer start).Course listener receiver made seen
      (.error (.refused why))) (sound : why.kind ≠ .fault) :
    TransferRefusal why ∨
      ∃ data, Fetches listener entry data seen ∧ Dive.validate layout entry data = .error why := by
  match entry with
  | [] | [_] =>
    cases course
    exact absurd rfl sound
  | low :: high :: rest =>
    rw [downloadDive_bind] at course
    rcases course.of_bind with
      ⟨⟨data, now⟩, fetch, later, asked, judged, rfl⟩ | ⟨failure, failed, same⟩
    · obtain ⟨-, code, payload, bs, fit, carries, rfl⟩ := course_askBulk asked
      rcases Course.of_ofExcept judged with ⟨_, -, ended⟩ | ⟨rfl, why, refused, ⟨⟩⟩
      · cases ended
      · rw [List.append_nil]
        have fetches : Fetches listener (low :: high :: rest) data _ :=
          ⟨low, high, rest, start, code, payload, bs, rfl, fit, carries, rfl⟩
        exact .inr ⟨data, fetches, refused⟩
    · cases same
      exact .inl (failsFor_askBulk _ _ _ failed sound)

theorem course_downloadDives_refused {layout : Layout} {entries : List Bytes} {buffer : Bytes}
    {start : Progress}
    (course : (downloadDives layout entries buffer start).Course listener receiver made seen
      (.error (.refused why))) (sound : why.kind ≠ .fault) :
    TransferRefusal why ∨ ∃ before entry data fetch, seen = before ++ fetch ∧
      Fetches listener entry data fetch ∧ Dive.validate layout entry data = .error why := by
  -- What was done for the newer entries is put in front of what was done for the older ones.
  induction entries generalizing buffer start made seen with
  | nil => cases course
  | cons entry older ih =>
    rw [downloadDives] at course
    rcases course.of_bind with
      ⟨⟨record, dive, now⟩, first, later, -, served, rfl⟩ | ⟨failure, failed, same⟩
    · rcases Course.of_ofExcept served with ⟨print, -, delivered⟩ | ⟨-, why, refused, ⟨⟩⟩
      · cases delivered with
        | deliver rest =>
          dsimp only at rest
          split at rest
          · rcases ih rest with transfer | ⟨before, entry, data, fetch, rfl, fetches⟩
            · exact .inl transfer
            · refine .inr ⟨first ++ .delivered ⟨record, print⟩ :: before, entry, data, fetch, ?_,
                fetches⟩
              simp
          · cases rest
      · exact (@failsFor_within _ (fun _ => False) _ why refused sound).elim
    · cases same
      rcases course_downloadDive_refused failed sound with transfer | ⟨data, fetches, refused⟩
      · exact .inl transfer
      · exact .inr ⟨[], entry, data, seen, rfl, fetches, refused⟩

theorem course_downloadNew_refused {stored : Fingerprint}
    (course : (downloadNew stored).Course listener receiver made seen (.error (.refused why)))
    (sound : why.kind ≠ .fault) :
    Step.Refused listener (.downloadNew receiver) seen why := by
  rw [downloadNew_eq] at course
  cases course with
  | announce course =>
    rcases course.of_bind with ⟨block, first, later, asked, judged, rfl⟩ | ⟨failure, failed, same⟩
    · obtain ⟨fit, code, rfl⟩ := course_ask asked
      rcases Course.of_ofExcept judged with ⟨identity, identified, loaded⟩ | ⟨rfl, why, refused, ⟨⟩⟩
      · rcases loaded.of_bind with
          ⟨⟨table, last⟩, second, later, asked', scanned, rfl⟩ | ⟨failure, failed, same⟩
        · obtain ⟨-, code', payload, bs, fit', carries, rfl⟩ := course_askBulk asked'
          have opens : Opens listener identity table _ :=
            ⟨code, block, code', payload, bs, fit, identified, fit', carries, rfl⟩
          rcases Course.of_ofExcept scanned with ⟨entries, -, told⟩ | ⟨-, why, refused, -⟩
          · dsimp only at told
            generalize Progress.forDives last.current (.ofNat entries.length) = start at told
            cases told with
            | announce served =>
              rcases course_downloadDives_refused served sound with
                transfer | ⟨before, entry, data, fetch, rfl, fetches, refused⟩
              · exact .transfer transfer
              · have differs := Dive.validate_failsFor _ _ _ why refused sound
                let between := listener.toList.map (.told · (.progress start)) ++ before
                have whole := @Step.Refused.mismatched listener receiver identity table entry data
                  _ between fetch why opens fetches refused differs
                simpa only [between, List.append_assoc] using whole
          · obtain ⟨entries, pending⟩ :=
              Logbook.pending_total (Identity.read_usable identified) stored table
            cases refused.symm.trans pending
        · cases same
          exact .transfer (failsFor_askBulk _ _ _ failed sound)
      · rw [List.append_nil]
        exact .unopened fit refused (Identity.read_failsFor block why refused sound)
    · cases same
      exact .packet (failsFor_ask _ failed sound)

theorem failsFor_setClock (time : DateTime) : (setClock time).FailsFor PacketRefusal :=
  (failsFor_ask _).bind fun _ => failsFor_done ()

theorem failsFor_leave : leave.FailsFor PacketRefusal :=
  (failsFor_ask _).bind fun _ => failsFor_done ()

end Conversation

theorem Step.common_kinds {step : Step} (talks : step.talks = true) :
    .io ∈ step.kinds ∧ .protocol ∈ step.kinds := by
  cases step with
  | identify | downloadNew | setClock | leave => simp [kinds]
  | queue | listen | setFingerprint | renew | describe => cases talks

namespace Step.Refused
variable {listener : Option String} {step : Step} {seen : List Act} {why : Refusal}

theorem mem_kinds (refused : step.Refused listener seen why) (talks : step.talks = true) :
    why.kind ∈ step.kinds := by
  cases refused with
  | packet packet =>
    rw [(TransferRefusal.packet packet).kind]
    exact (common_kinds talks).2
  | transfer transfer => simp [kinds, transfer.kind]
  | unidentified _ _ unknown | unopened _ _ unknown => simp [kinds, unknown.kind]
  | mismatched _ _ _ differs => simp [kinds, differs.kind]

theorem not_foreign (refused : step.Refused listener seen why) : why.isForeign = false := by
  cases refused with
  | packet packet => cases packet <;> rfl
  | transfer transfer =>
    cases transfer with
    | packet packet => cases packet <;> rfl
    | endByte => rfl
  | unidentified _ _ unknown | unopened _ _ unknown => cases unknown <;> rfl
  | mismatched _ _ _ differs => cases differs <;> rfl

theorem unsupported (refused : step.Refused listener seen why) (kind : why.kind = .unsupported) :
    Act.deliveries seen = [] ∧ Act.said seen = Command.version.wire := by
  cases refused with
  | packet packet => cases (TransferRefusal.packet packet).kind.symm.trans kind
  | transfer transfer => cases transfer.kind.symm.trans kind
  | unidentified | unopened => simp
  | mismatched _ _ _ differs => cases differs.kind.symm.trans kind

theorem dataFormat (refused : step.Refused listener seen why) (kind : why.kind = .dataFormat) :
    ∃ identity table opening between entry data fetch, seen = opening ++ between ++ fetch ∧
      Opens listener identity table opening ∧ Fetches listener entry data fetch ∧
      Dive.validate identity.layout entry data = .error why ∧
      DiveRefusal identity.layout.version why := by
  cases refused with
  | packet packet => cases (TransferRefusal.packet packet).kind.symm.trans kind
  | transfer transfer => cases transfer.kind.symm.trans kind
  | unidentified _ _ unknown | unopened _ _ unknown => cases unknown.kind.symm.trans kind
  | mismatched opens fetches refused differs =>
    exact ⟨_, _, _, _, _, _, _, rfl, opens, fetches, refused, differs⟩

end Step.Refused

namespace Session
variable {session : Session}

theorem converse_course {α : Type} {receiver : Receiver} {dialogue : Dialogue α}
    {value : α → Nat → Value} {failure : Failure ScriptCall}
    (failed : (session.converse receiver dialogue value).1.result = .error failure) :
    dialogue.Course session.device.listener receiver []
      (DiveLink.acts session.script.data (session.converse receiver dialogue value).1.trace)
      (.error failure) := by
  have course : dialogue.Course session.device.listener receiver [] _ _ :=
    dialogue.run_course [] session.script
  cases ended : (dialogue.run session.device.listener receiver [] session.script).result with
  | ok a =>
    simp only [converse, report, Device.perform, ended, Except.map] at failed
    cases failed
  | error other =>
    simp only [converse, report, Device.perform, ended, Except.map] at failed
    cases failed
    exact ended ▸ course

theorem step_failsFast {step : Step} (talks : step.talks = true) :
    let report := (session.step step).1
    let left := (session.step step).2
    Run.FailsFast session.script
      (⟨report.result, report.trace, left.script⟩ : Run Script ScriptCall Value) := by
  cases step with
  | identify | downloadNew | setClock | leave => exact converse_failsFast _ _ _ session
  | queue | listen | setFingerprint | renew | describe => cases talks

theorem step_refused {step : Step} {why : Refusal} (talks : step.talks = true)
    (failed : (session.step step).1.result = .error (.refused why)) :
    step.Refused session.device.listener
      (DiveLink.acts session.script.data (session.step step).1.trace) why := by
  have sound : why.kind ≠ .fault := step_isSound step session _ failed
  cases step with
  | identify => exact course_identify_refused (converse_course failed) sound
  | downloadNew receiver => exact course_downloadNew_refused (converse_course failed) sound
  | setClock time => exact .packet (failsFor_setClock time (converse_course failed) sound)
  | leave => exact .packet (failsFor_leave (converse_course failed) sound)
  | queue | listen | setFingerprint | renew | describe => cases talks

/-- A step that talks to the device ends with the first call that fails or moves nothing, and fails
as that call did; it does not fail for the stream otherwise. All else that it fails for is what it
looks at. A device that is not known is not asked for its logbook, and a dive is refused when all
of it has come and is acknowledged. -/
theorem step_fails (session : Session) (step : Step) (talks : step.talks = true) :
    let report := (session.step step).1
    let left := (session.step step).2
    let seen := DiveLink.acts session.script.data report.trace
    Run.FailsFast session.script
        (⟨report.result, report.trace, left.script⟩ : Run Script ScriptCall Value) ∧
      (∀ failure, report.result = .error failure → failure.kind ∈ step.kinds) ∧
      ∀ why, report.result = .error (.refused why) →
        step.Refused session.device.listener seen why ∧ why.isForeign = false ∧
        (why.kind = .unsupported → report.trace.filterMap Observation.delivery? = [] ∧
          report.trace.flatMap Observation.taken = Command.version.wire) ∧
        (why.kind = .dataFormat → ∃ identity table opening between entry data fetch,
          seen = opening ++ between ++ fetch ∧
          Opens session.device.listener identity table opening ∧
          Fetches session.device.listener entry data fetch ∧
          Dive.validate identity.layout entry data = .error why ∧
          DiveRefusal identity.layout.version why) := by
  refine ⟨step_failsFast talks, ?_, ?_⟩
  · intro failure failed
    cases failure with
    | io | timeout => exact (Step.common_kinds talks).1
    | refused why => exact (step_refused talks failed).mem_kinds talks
  · intro why failed
    have refused := step_refused talks failed
    refine ⟨refused, refused.not_foreign, fun kind => ?_, refused.dataFormat⟩
    rw [← Act.deliveries_acts session.script.data, ← Act.said_acts session.script.data]
    exact refused.unsupported kind

theorem step_fails_download :
    let unknown : Session :=
      ⟨.fresh, ⟨[.bytes (Packet.wire 0 [1, 2, 3, 4, 0, 200, 0, 0, 0])], [], none, []⟩⟩
    let silent : Session := ⟨.fresh, ⟨[.bytes [0xAA, 0xAA]], [], none, []⟩⟩
    let download := (unknown.step (.downloadNew .takesAll)).1
    let farewell := silent.step .leave
    download.result = .error (.refused (.unknownModel 0)) ∧
      download.trace.flatMap Observation.taken = Command.version.wire ∧
      farewell.1.result = .error (.timeout 4 2) ∧
      Run.FailsFast silent.script (⟨farewell.1.result, farewell.1.trace, farewell.2.script⟩ :
        Run Script ScriptCall Value) := by
  intro unknown silent download farewell
  have refused : download.result = .error (.refused (.unknownModel 0)) := by decide +kernel
  have short : farewell.1.result = .error (.timeout 4 2) := by decide +kernel
  obtain ⟨-, -, causes⟩ := step_fails unknown (.downloadNew .takesAll) rfl
  exact ⟨refused, ((causes _ refused).2.2.1 rfl).2, short, (step_fails silent .leave rfl).1⟩

end Session

end DiveLink
