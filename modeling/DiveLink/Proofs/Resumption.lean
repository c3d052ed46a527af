import DiveLink.Proofs.Completeness
import Mathlib.Data.List.Forall2
import Mathlib.Data.List.TakeWhile

set_option autoImplicit false

namespace DiveLink

/-- A device with no fingerprint stored, as a fresh one or as one that was given no bytes. -/
def Device.Cleared (device : Device) : Prop :=
  device.fingerprint = Device.fresh.fingerprint ∨
    ∃ before : Device, before.setFingerprint [] = .ok device

theorem Device.Cleared.zero {device : Device} (cleared : device.Cleared) :
    device.fingerprint = .zero := by
  rcases cleared with stored | ⟨before, stored⟩
  · exact stored
  · cases stored
    rfl

theorem Device.setFingerprint_bytes {data : Bytes} (six : data.length = 6) (device : Device) :
    device.setFingerprint data = .ok { device with fingerprint := ⟨data, six⟩ } := by
  rw [setFingerprint, Fingerprint.select, dif_pos six]
  rfl

namespace Logbook
variable {layout : Layout} {stored : Fingerprint}

/-- An entry for the table that stands behind the dive with a fingerprint. -/
structure Newer (layout : Layout) (known : Bytes) (entry : Bytes) : Prop where
  length : entry.length = layout.entryLength
  numbered : number entry ≠ .ok 0
  other : fingerprint layout entry ≠ .ok known

theorem pending_added (usable : layout.Usable) {table newest : Bytes} {older added : List Bytes}
    (first : pending layout stored table = .ok (newest :: older))
    (newer : ∀ entry ∈ added, Newer layout (print layout newest) entry) {known : Fingerprint}
    (synced : known.bytes = print layout newest) :
    pending layout known (table ++ added.flatten) = .ok added.reverse := by
  obtain ⟨all, cut, taken⟩ := bind_eq_ok.1 first
  obtain ⟨before, -⟩ := takePending_ok taken
  obtain ⟨rest, rfl⟩ := before
  have grown := entriesNewestFirst_append cut fun entry mem => (newer entry mem).length
  have fresh : ∀ entry ∈ added.reverse,
      (isOccupied entry && print layout entry != known.bytes) = true := by
    intro entry mem
    have new := newer entry (List.mem_reverse.1 mem)
    have numbered := (number_ne_zero (new.length ▸ usable.number)).1 new.numbered
    have other := new.other
    rw [fingerprint_eq (new.length ▸ usable.fingerprint)] at other
    simp only [numbered, Bool.true_and, bne_iff_ne, ne_eq]
    exact fun same => other (congrArg Except.ok (same.trans synced))
  -- The scan goes through all that was added and ends at the newest dive of before.
  have stop : (isOccupied newest && print layout newest != known.bytes) = false := by
    simp [synced]
  rw [pending_eq usable grown, List.takeWhile_append_of_pos fresh, List.cons_append,
    List.takeWhile_cons_of_neg (by simp [stop]), List.append_nil]

/-- No entry has a fingerprint that looks like none. -/
def Printed (layout : Layout) (entries : List Bytes) : Prop :=
  ∀ entry ∈ entries, fingerprint layout entry ≠ .ok Fingerprint.zero.bytes

instance (entries : List Bytes) : Decidable (Printed layout entries) :=
  inferInstanceAs (Decidable (∀ entry ∈ entries, _))

theorem pending_zero (usable : layout.Usable) {table : Bytes} {all : List Bytes}
    (cut : entriesNewestFirst layout.entryLength table = .ok all) :
    ∃ entries, pending layout .zero table = .ok entries ∧ entries <+: all.takeWhile isOccupied ∧
      (entries.length = (all.takeWhile isOccupied).length ↔
        Printed layout (all.takeWhile isOccupied)) := by
  have scan := pending_eq usable cut .zero
  have split : (all.takeWhile isOccupied).takeWhile
      (fun entry => print layout entry != Fingerprint.zero.bytes) =
      all.takeWhile fun entry =>
        isOccupied entry && print layout entry != Fingerprint.zero.bytes := by
    rw [List.takeWhile_takeWhile]
    congr 1
    funext entry
    rw [Bool.eq_iff_iff]
    simp [and_comm]
  rw [← split] at scan
  have before := @List.takeWhile_prefix _ (all.takeWhile isOccupied)
    fun entry => print layout entry != Fingerprint.zero.bytes
  refine ⟨_, scan, before, ?_⟩
  have unlike (entry : Bytes) (mem : entry ∈ all.takeWhile isOccupied) :
      (print layout entry != Fingerprint.zero.bytes) = true ↔
        fingerprint layout entry ≠ .ok Fingerprint.zero.bytes := by
    have length := length_mem_entries cut ((List.takeWhile_prefix _).subset mem)
    rw [fingerprint_eq (length ▸ usable.fingerprint)]
    simp
  constructor
  · intro same entry mem
    exact (unlike entry mem).1 (List.takeWhile_eq_self_iff.1 (before.eq_of_length same) entry mem)
  · intro each
    rw [List.takeWhile_eq_self_iff.2 fun entry mem => (unlike entry mem).2 (each entry mem)]

/-- A dive whose fingerprint is six zeros is taken for one that is known. -/
theorem pending_zero_misses : ¬ ∀ family ∈ Layout.families, ∀ (version : ApiVersion) (table : Bytes)
    (all entries : List Bytes), entriesNewestFirst family.entryLength table = .ok all →
      pending { family with version := version } .zero table = .ok entries →
      entries.length = (all.takeWhile isOccupied).length := by
  intro claim
  let entry : Bytes := [1, 0] ++ List.replicate 21 0
  have found := claim .copiedHeader (by decide) .v0 entry [entry] [] (by decide) (by decide)
  exact absurd found (by decide)

end Logbook

namespace Conversation
open Dialogue Exchange

theorem downloadNew_answered (device : Device) {block : Bytes} {identity : Identity}
    (identified : Identity.read block = .ok identity) (code : UInt8) {logbook : BulkAnswer}
    {entries : List Bytes}
    (pending : Logbook.pending identity.layout device.fingerprint logbook.data = .ok entries)
    {answers : List BulkAnswer}
    (valid : List.Forall₂ (fun entry answer =>
      Dive.validate identity.layout entry answer.data = .ok ()) entries answers)
    {script : Script} (willing : script.Willing) {rest : List Token}
    (supplied : script.tokens = (Packet.wire code block ++ logbook.wire ++
      answers.flatMap BulkAnswer.wire).map .byte ++ rest) :
    let run := device.perform .takesAll (downloadNew device.fingerprint) script
    run.result = .ok () ∧
      run.trace.filterMap Observation.delivery? =
        List.zipWith (fun entry answer => delivery identity.layout entry answer.data)
          entries answers ∧
      Act.diveRequests (acts script.data run.trace) = entries.map diveRequest ∧
      run.stream.tokens = rest := by
  intro run
  have agree : run.Follows script ((downloadNew device.fingerprint).follow device.listener .takesAll
      [] script.tokens) := run_follows _ _ _ _ willing
  rw [supplied, follow_downloadNew identified code logbook pending valid] at agree
  have other : (Command.logbook identity.layout.logbookCode).code ≠ CommandCode.dive :=
    (Identity.read_usable identified).other
  have numbers : ∀ entry ∈ entries, 2 ≤ entry.length := fun entry mem =>
    Logbook.length_mem_pending pending mem ▸ (Identity.read_usable identified).number
  refine ⟨agree.result, ?_, ?_, agree.left⟩
  · rw [← Act.deliveries_acts script.data, agree.acts]
    simp [downloadActs, openingActs, deliveries_diveActs]
  · rw [agree.acts]
    simp [downloadActs, openingActs, diveRequests_diveActs _ numbers valid.length_eq,
      version_ne_dive, other]

theorem downloadNew_first (device : Device) {block : Bytes} {identity : Identity}
    (identified : Identity.read block = .ok identity) {code : UInt8} {logbook : BulkAnswer}
    {receiver : Receiver} {script : Script} (willing : script.Willing) {rest : List Token}
    (supplied : script.tokens = (Packet.wire code block ++ logbook.wire).map .byte ++ rest)
    {dive : Delivery} {more : List Delivery}
    (delivered : (device.perform receiver (downloadNew device.fingerprint) script).trace.filterMap
      Observation.delivery? = dive :: more) :
    ∃ newest older, Logbook.pending identity.layout device.fingerprint logbook.data =
        .ok (newest :: older) ∧
      dive.fingerprint = Logbook.print identity.layout newest := by
  have usable := Identity.read_usable identified
  obtain ⟨entries, pending⟩ := Logbook.pending_total usable device.fingerprint logbook.data
  have agree : (device.perform receiver (downloadNew device.fingerprint) script).Follows script
      ((downloadNew device.fingerprint).follow device.listener receiver [] script.tokens) :=
    run_follows _ _ _ _ willing
  rw [supplied, follow_opening identified code logbook pending] at agree
  have fits : ∀ entry ∈ entries,
      identity.layout.fingerprintOffset + Fingerprint.size ≤ entry.length := by
    intro entry mem
    rw [Logbook.length_mem_pending pending mem]
    exact usable.fingerprint
  have course := @follow_course _ device.listener receiver
    (downloadDives identity.layout entries [] (divesStart logbook entries)) [] rest
  generalize Dialogue.follow device.listener receiver
    (downloadDives identity.layout entries [] (divesStart logbook entries)) [] rest = served
    at agree course
  have same : Act.deliveries served.acts = dive :: more := by
    rw [← delivered, ← Act.deliveries_acts script.data, agree.acts]
    simp [openingActs]
  have first : (Act.deliveries served.acts)[0]? = some dive := congrArg (·[0]?) same
  have dives := course_downloadDives fits course
  obtain ⟨newest, data, place, content⟩ := dives.delivered 0 dive first
  obtain ⟨older, rfl⟩ : ∃ older, entries = newest :: older := by
    cases entries with
    | nil => cases place
    | cons entry older => exact ⟨older, by cases place; rfl⟩
  exact ⟨newest, older, pending, congrArg Delivery.fingerprint content.content⟩

/-- A download after which the caller stores the fingerprint of the first dive, and a later one from
the same device, whose logbook has grown by whole entries. -/
theorem downloadNew_resumes (device : Device) {block : Bytes} {identity : Identity}
    (identified : Identity.read block = .ok identity) {code : UInt8} {logbook : BulkAnswer}
    {receiver : Receiver} {script : Script} (willing : script.Willing) {rest : List Token}
    (supplied : script.tokens = (Packet.wire code block ++ logbook.wire).map .byte ++ rest)
    {dive : Delivery} {more : List Delivery}
    (delivered : (device.perform receiver (downloadNew device.fingerprint) script).trace.filterMap
      Observation.delivery? = dive :: more) :
    ∃ synced, device.setFingerprint dive.fingerprint = .ok synced ∧
      ∀ (added : List Bytes) (code : UInt8) (grown : BulkAnswer) (answers : List BulkAnswer)
        (script : Script) (rest : List Token),
        grown.data = logbook.data ++ added.flatten →
        (∀ entry ∈ added, Logbook.Newer identity.layout dive.fingerprint entry) →
        List.Forall₂ (fun entry answer => Dive.validate identity.layout entry answer.data = .ok ())
          added.reverse answers →
        script.Willing →
        script.tokens = (Packet.wire code block ++ grown.wire ++
          answers.flatMap BulkAnswer.wire).map .byte ++ rest →
        let run := synced.perform .takesAll (downloadNew synced.fingerprint) script
        run.result = .ok () ∧ run.trace.countP Observation.isDive = added.length ∧
          run.trace.filterMap Observation.delivery? =
            List.zipWith (fun entry answer => delivery identity.layout entry answer.data)
              added.reverse answers ∧
          Act.diveRequests (acts script.data run.trace) = added.reverse.map diveRequest ∧
          run.stream.tokens = rest := by
  have usable := Identity.read_usable identified
  obtain ⟨newest, older, first, print⟩ :=
    downloadNew_first device identified willing supplied delivered
  have six : dive.fingerprint.length = 6 := by
    have length := Logbook.length_mem_pending first List.mem_cons_self
    rw [print, Logbook.length_print (length ▸ usable.fingerprint), Fingerprint.size]
  let synced : Device := { device with fingerprint := ⟨dive.fingerprint, six⟩ }
  refine ⟨synced, Device.setFingerprint_bytes six device, ?_⟩
  intro added code grown answers script rest table newer valid willing supplied run
  have pending : Logbook.pending identity.layout synced.fingerprint grown.data = .ok added.reverse :=
    table ▸ Logbook.pending_added usable first (print ▸ newer) print
  obtain ⟨result, dives, requests, left⟩ :=
    downloadNew_answered synced identified code pending valid willing supplied
  refine ⟨result, ?_, dives, requests, left⟩
  have count := valid.length_eq
  rw [List.length_reverse] at count
  rw [Observation.countP_isDive, dives, List.length_zipWith, List.length_reverse, ← count,
    Nat.min_self]

theorem downloadNew_resumes_one :
    let block : Bytes := [1, 2, 3, 4, 1, 200, 0, 0, 0, 0, 0]
    let layout : Layout := { Layout.startDate with version := .v4 }
    let entry : Bytes := [5, 0, 9, 20, 1, 2, 3, 4, 5, 0, 0, 0, 0, 0, 0]
    let later : Bytes := [6, 0, 9, 20, 1, 3, 3, 4, 5, 0, 0, 0, 0, 0, 0]
    let dive : Bytes := [5, 0, 7, 7, 20, 1, 2, 3, 4, 5]
    let laterDive : Bytes := [6, 0, 7, 7, 20, 1, 3, 3, 4, 5]
    let logbook := BulkAnswer.plain entry (by decide)
    let grown := BulkAnswer.plain (entry ++ later) (by decide)
    let answer := BulkAnswer.plain dive (by decide)
    let laterAnswer := BulkAnswer.plain laterDive (by decide)
    let script : Script := ⟨[.bytes (Packet.wire 0 block ++ logbook.wire), .bytes answer.wire],
      [], some 64, []⟩
    let laterScript : Script := ⟨[.bytes (Packet.wire 0 block ++ grown.wire),
      .bytes laterAnswer.wire, .silence], [.atMost 3], none, []⟩
    let synced : Device := ⟨⟨[20, 1, 2, 3, 4, 5], rfl⟩, none⟩
    let run := Device.fresh.perform .takesAll (downloadNew .zero) script
    let laterRun := synced.perform .takesAll (downloadNew synced.fingerprint) laterScript
    run.trace.filterMap Observation.delivery? = [delivery layout entry dive] ∧
      laterRun.result = .ok () ∧
      laterRun.trace.filterMap Observation.delivery? = [delivery layout later laterDive] ∧
      laterRun.stream.tokens = [.silence] := by
  intro block layout entry later dive laterDive logbook grown answer laterAnswer script laterScript
    synced run laterRun
  have identified : Identity.read block = .ok ⟨⟨1, word 200 0, doubleWord 1 2 3 4⟩, layout⟩ := rfl
  have one : Logbook.pending layout .zero entry = .ok [entry] := by decide
  have supplied : script.tokens = (Packet.wire 0 block ++ logbook.wire).map .byte ++
      answer.wire.map .byte := by
    simp [script, Script.tokens, Supply.tokens]
  have suppliedLater : laterScript.tokens = (Packet.wire 0 block ++ grown.wire ++
      [laterAnswer].flatMap BulkAnswer.wire).map .byte ++ [.silence] := by
    simp [laterScript, Script.tokens, Supply.tokens]
  have delivered : run.trace.filterMap Observation.delivery? = [delivery layout entry dive] :=
    (@downloadNew_answered .fresh _ _ identified 0 logbook [entry] one [answer] (.cons rfl .nil)
      script (by decide) [] (by rw [supplied]; simp)).2.1
  obtain ⟨stored, synced', resumes⟩ :=
    downloadNew_resumes .fresh identified (by decide) supplied delivered
  cases synced'
  have newer : ∀ entry ∈ [later], Logbook.Newer layout [20, 1, 2, 3, 4, 5] entry := by
    intro entry mem
    cases List.mem_singleton.1 mem
    exact ⟨rfl, by decide, by decide⟩
  obtain ⟨result, -, dives, -, left⟩ := resumes [later] 0 grown [laterAnswer] laterScript [.silence]
    rfl newer (.cons rfl .nil) (by decide) suppliedLater
  exact ⟨delivered, result, dives, left⟩

/-- A download with no fingerprint stored misses nothing if no dive has a fingerprint that looks
like none. -/
theorem downloadNew_cleared {family : Layout} (known : family ∈ Layout.families)
    (version : ApiVersion) (table : Bytes) {device : Device} (cleared : device.Cleared) :
    let layout := { family with version := version }
    ∃ all, Logbook.entriesNewestFirst layout.entryLength table = .ok all ∧
      let occupied := all.takeWhile Logbook.isOccupied
      (∃ entries, Logbook.pending layout device.fingerprint table = .ok entries ∧
        entries <+: occupied ∧ (entries.length = occupied.length ↔ Logbook.Printed layout occupied)) ∧
      (Logbook.Printed layout occupied → ∀ (info : DeviceInfo) (block : Bytes) (code : UInt8)
        (logbook : BulkAnswer) (answers : List BulkAnswer) (script : Script) (rest : List Token),
        Identity.read block = .ok ⟨info, layout⟩ → logbook.data = table →
        List.Forall₂ (fun entry answer => Dive.validate layout entry answer.data = .ok ())
          occupied answers →
        script.Willing →
        script.tokens = (Packet.wire code block ++ logbook.wire ++
          answers.flatMap BulkAnswer.wire).map .byte ++ rest →
        let run := device.perform .takesAll (downloadNew device.fingerprint) script
        run.result = .ok () ∧ run.trace.filterMap Observation.delivery? =
          List.zipWith (fun entry answer => delivery layout entry answer.data) occupied answers) := by
  intro layout
  have usable : layout.Usable := by
    have usable := Layout.families_usable family known
    exact ⟨usable.number, usable.fingerprint, usable.other⟩
  have any : layout.entryLength ≠ 0 := by
    have numbered := usable.number
    omega
  obtain ⟨all, cut⟩ := Logbook.entriesNewestFirst_total any table
  obtain ⟨entries, pending, before, whole⟩ := Logbook.pending_zero usable cut
  rw [← cleared.zero] at pending
  refine ⟨all, cut, ⟨entries, pending, before, whole⟩, ?_⟩
  intro printed info block code logbook answers script rest identified same valid willing supplied run
  cases same
  rw [before.eq_of_length (whole.2 printed)] at pending
  obtain ⟨result, dives, -⟩ :=
    downloadNew_answered device identified code pending valid willing supplied
  exact ⟨result, dives⟩

theorem downloadNew_cleared_one :
    let block : Bytes := [1, 2, 3, 4, 1, 200, 0, 0, 0, 0, 0]
    let layout : Layout := { Layout.startDate with version := .v4 }
    let entry : Bytes := [5, 0, 9, 20, 1, 2, 3, 4, 5, 0, 0, 0, 0, 0, 0]
    let dive : Bytes := [5, 0, 7, 7, 20, 1, 2, 3, 4, 5]
    let table : Bytes := List.replicate 15 0 ++ entry
    let logbook := BulkAnswer.plain table (by decide)
    let answer := BulkAnswer.plain dive (by decide)
    let script : Script := ⟨[.bytes (Packet.wire 0 block ++ logbook.wire), .bytes answer.wire],
      [.atMost 1], some 64, []⟩
    let run := Device.fresh.perform .takesAll (downloadNew Device.fresh.fingerprint) script
    Layout.startDate ∈ Layout.families ∧ Device.fresh.Cleared ∧
      Logbook.pending layout .zero table = .ok [entry] ∧ run.result = .ok () ∧
      run.trace.filterMap Observation.delivery? = [delivery layout entry dive] := by
  intro block layout entry dive table logbook answer script run
  have known : Layout.startDate ∈ Layout.families := by decide
  have cleared : Device.fresh.Cleared := .inl rfl
  have identified : Identity.read block = .ok ⟨⟨1, word 200 0, doubleWord 1 2 3 4⟩, layout⟩ := rfl
  have supplied : script.tokens = (Packet.wire 0 block ++ logbook.wire ++
      [answer].flatMap BulkAnswer.wire).map .byte ++ [] := by
    simp [script, Script.tokens, Supply.tokens]
  obtain ⟨all, cut, ⟨entries, pending, before, whole⟩, complete⟩ :=
    downloadNew_cleared known .v4 table cleared
  have two : Logbook.entriesNewestFirst 15 table = .ok [entry, List.replicate 15 0] := by decide
  cases cut.symm.trans two
  have printed : Logbook.Printed layout
      ([entry, List.replicate 15 0].takeWhile Logbook.isOccupied) := by decide
  cases before.eq_of_length (whole.2 printed)
  obtain ⟨result, dives⟩ := complete printed _ block 0 logbook [answer] script [] identified rfl
    (.cons rfl .nil) (by decide) supplied
  exact ⟨known, cleared, pending, result, dives⟩

end Conversation

end DiveLink
