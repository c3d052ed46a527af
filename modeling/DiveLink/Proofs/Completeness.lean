import DiveLink.Proofs.Deliveries

set_option autoImplicit false

namespace DiveLink

namespace Progress

theorem forDives_eq (current : UInt32) (count : Nat) :
    forDives current (.ofNat count) = ⟨current, .ofNat ((count + 1) * steps)⟩ := by
  rw [forDives, UInt32.ofNat_mul, UInt32.ofNat_add]
  rfl

end Progress

/-- An answer packet and the bulk transfer behind it. -/
structure BulkAnswer where
  code : UInt8
  payload : Bytes
  data : Bytes
  bulk : Bytes
  fit : payload.length ≤ Packet.maxPayload
  carries : Bulk.Carries data bulk

namespace BulkAnswer

def plain (data : Bytes) (size : data.length < UInt16.size) : BulkAnswer :=
  ⟨0, [], data, Bulk.wire (Bulk.parts data), Nat.zero_le _, Bulk.carries_parts size⟩

def wire (answer : BulkAnswer) : Bytes := Packet.wire answer.code answer.payload ++ answer.bulk

/-- What is written to have an answer: a packet, and an acknowledgement for each chunk and for the
end byte. -/
def request (answer : BulkAnswer) (packet : Bytes) : Bytes :=
  packet ++ List.replicate (Bulk.chunkCount answer.data.length + 1) Chunk.acknowledgement

def last (answer : BulkAnswer) (start : Progress) : Progress :=
  start.reached (Exchange.countLength + answer.data.length)
    (Exchange.countLength + answer.data.length)

end BulkAnswer

namespace Conversation
open Dialogue Exchange

def diveCommand (entry : Bytes) : Command := .dive (entry.getD 0 0) (entry.getD 1 0)

/-- The packet that asks for the dive of an entry by the number in its first two bytes. -/
def diveRequest (entry : Bytes) : Bytes := Packet.wire CommandCode.dive (entry.take 2)

theorem diveCommand_wire {entry : Bytes} (numbered : 2 ≤ entry.length) :
    (diveCommand entry).wire = diveRequest entry := by
  match entry, numbered with
  | low :: high :: more, _ => rfl

def diveActs (listener : Option String) (layout : Layout) :
    Progress → List Bytes → List BulkAnswer → List Act
  | start, entry :: entries, answer :: answers =>
    askBulkActs listener (diveCommand entry) start (Packet.wire answer.code answer.payload)
        answer.data answer.bulk ++
      .delivered (delivery layout entry answer.data) ::
        diveActs listener layout (answer.last start) entries answers
  | _, _, _ => []

variable {listener : Option String} {layout : Layout} {made : List Delivery}

theorem deliveries_diveActs (start : Progress) (entries : List Bytes) (answers : List BulkAnswer) :
    Act.deliveries (diveActs listener layout start entries answers) =
      List.zipWith (fun entry answer => delivery layout entry answer.data) entries answers := by
  induction entries generalizing start answers with
  | nil => simp [diveActs]
  | cons entry entries ih =>
    cases answers with
    | nil => simp [diveActs]
    | cons answer answers => simp [diveActs, ih, Act.delivery?]

theorem diveRequests_diveActs (start : Progress) {entries : List Bytes}
    (numbers : ∀ entry ∈ entries, 2 ≤ entry.length) {answers : List BulkAnswer}
    (each : entries.length = answers.length) :
    Act.diveRequests (diveActs listener layout start entries answers) =
      entries.map diveRequest := by
  induction entries generalizing start answers with
  | nil => simp [diveActs]
  | cons entry entries ih =>
    obtain ⟨numbered, others⟩ := List.forall_mem_cons.1 numbers
    cases answers with
    | nil => cases each
    | cons answer answers =>
      have code : (diveCommand entry).code = CommandCode.dive := rfl
      simp [diveActs, ih _ others (Nat.succ.inj each), code, Act.diveRequest?,
        diveCommand_wire numbered]

theorem follow_askBulkAnswer {α : Type} {receiver : Receiver} (buffer : Bytes) (start : Progress)
    (command : Command) (answer : BulkAnswer) (f : Bytes × Progress → Dialogue α)
    (later : List Token) :
    (askBulk command buffer start >>= f).follow listener receiver made
        (answer.wire.map .byte ++ later) =
      ((f (answer.data, answer.last start)).follow listener receiver made later).after
        (askBulkActs listener command start (Packet.wire answer.code answer.payload) answer.data
          answer.bulk) := by
  rw [BulkAnswer.wire, List.map_append, List.append_assoc]
  exact follow_askBulk buffer start answer.fit answer.code answer.carries f later

theorem follow_downloadDive {α : Type} {receiver : Receiver} {entry : Bytes} {answer : BulkAnswer}
    (numbered : 2 ≤ entry.length) (valid : Dive.validate layout entry answer.data = .ok ())
    (buffer : Bytes) (start : Progress) (f : Bytes × Bytes × Progress → Dialogue α)
    (later : List Token) :
    (downloadDive layout entry buffer start >>= f).follow listener receiver made
        (answer.wire.map .byte ++ later) =
      ((f (DiveRecord.assemble layout entry answer.data, answer.data,
        answer.last start)).follow listener receiver made later).after
          (askBulkActs listener (diveCommand entry) start
            (Packet.wire answer.code answer.payload) answer.data answer.bulk) := by
  match entry, numbered with
  | low :: high :: more, _ =>
    rw [downloadDive_bind, bind_assoc, follow_askBulkAnswer, bind_assoc, valid]
    rfl

theorem follow_downloadDives {entries : List Bytes} {answers : List BulkAnswer}
    (numbers : ∀ entry ∈ entries, 2 ≤ entry.length)
    (fits : ∀ entry ∈ entries, layout.fingerprintOffset + Fingerprint.size ≤ entry.length)
    (valid : List.Forall₂ (fun entry answer => Dive.validate layout entry answer.data = .ok ())
      entries answers)
    (buffer : Bytes) (start : Progress) (later : List Token) :
    (downloadDives layout entries buffer start).follow listener .takesAll made
        ((answers.flatMap BulkAnswer.wire).map .byte ++ later) =
      ⟨.ok (), diveActs listener layout start entries answers, later⟩ := by
  induction valid generalizing buffer start made with
  | nil => rfl
  | @cons entry answer entries answers valid rest ih =>
    obtain ⟨numbered, numbers⟩ := List.forall_mem_cons.1 numbers
    obtain ⟨fit, fits⟩ := List.forall_mem_cons.1 fits
    have older := @ih (made ++ [delivery layout entry answer.data]) numbers fits answer.data
      (answer.last start)
    rw [List.flatMap_cons, List.map_append, List.append_assoc, downloadDives,
      follow_downloadDive numbered valid]
    dsimp only
    rw [recordFingerprint_assemble fit, Dialogue.ofExcept_ok, done_bind, Dialogue.follow,
      delivery_assemble]
    simp only [Receiver.takesAll]
    rw [older]
    rfl

def divesStart (logbook : BulkAnswer) (entries : List Bytes) : Progress :=
  ⟨(logbook.last .start).current, .ofNat ((entries.length + 1) * Progress.steps)⟩

/-- All that happens in a download before the first dive is asked for. -/
def openingActs (listener : Option String) (layout : Layout) (version : Bytes)
    (logbook : BulkAnswer) (entries : List Bytes) : List Act :=
  listener.toList.map (.told · (.progress .start)) ++
    askActs .version version ++
    askBulkActs listener (.logbook layout.logbookCode) .start
      (Packet.wire logbook.code logbook.payload) logbook.data logbook.bulk ++
    listener.toList.map (.told · (.progress (divesStart logbook entries)))

def downloadActs (listener : Option String) (layout : Layout) (version : Bytes)
    (logbook : BulkAnswer) (entries : List Bytes) (answers : List BulkAnswer) : List Act :=
  openingActs listener layout version logbook entries ++
    diveActs listener layout (divesStart logbook entries) entries answers

theorem follow_opening {receiver : Receiver} {stored : Fingerprint} {block : Bytes}
    {identity : Identity} (identified : Identity.read block = .ok identity) (code : UInt8)
    (logbook : BulkAnswer) {entries : List Bytes}
    (pending : Logbook.pending identity.layout stored logbook.data = .ok entries)
    (later : List Token) :
    (downloadNew stored).follow listener receiver made
        ((Packet.wire code block ++ logbook.wire).map .byte ++ later) =
      ((downloadDives identity.layout entries [] (divesStart logbook entries)).follow listener
        receiver made later).after
          (openingActs listener identity.layout (Packet.wire code block) logbook entries) := by
  rw [downloadNew_eq, List.map_append, List.append_assoc, Dialogue.follow,
    follow_ask (Identity.read_fit identified), identified, Dialogue.ofExcept_ok, done_bind,
    follow_askBulkAnswer]
  dsimp only
  rw [pending, Dialogue.ofExcept_ok, done_bind, Progress.forDives_eq, Dialogue.follow]
  simp only [Passage.after_after, openingActs, divesStart, List.append_assoc]

theorem follow_downloadNew {stored : Fingerprint} {block : Bytes} {identity : Identity}
    (identified : Identity.read block = .ok identity) (code : UInt8) (logbook : BulkAnswer)
    {entries : List Bytes} {answers : List BulkAnswer}
    (pending : Logbook.pending identity.layout stored logbook.data = .ok entries)
    (valid : List.Forall₂ (fun entry answer =>
      Dive.validate identity.layout entry answer.data = .ok ()) entries answers)
    (later : List Token) :
    (downloadNew stored).follow listener .takesAll made
        ((Packet.wire code block ++ logbook.wire ++
          answers.flatMap BulkAnswer.wire).map .byte ++ later) =
      ⟨.ok (), downloadActs listener identity.layout (Packet.wire code block) logbook entries answers,
        later⟩ := by
  have usable := Identity.read_usable identified
  have dives := @follow_downloadDives listener identity.layout made entries answers
    (fun entry mem => Logbook.length_mem_pending pending mem ▸ usable.number)
    (fun entry mem => Logbook.length_mem_pending pending mem ▸ usable.fingerprint) valid []
    (divesStart logbook entries) later
  rw [List.map_append, List.append_assoc, follow_opening identified code logbook pending, dives]
  rfl

end Conversation

end DiveLink
