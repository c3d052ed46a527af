import DiveLink.Proofs.Deliveries

set_option autoImplicit false

namespace DiveLink

theorem Identity.read_ok {block : Bytes} {identity : Identity}
    (h : Identity.read block = .ok identity) :
    ∃ family ∈ Layout.families, family.identificationLength = block.length ∧
      identity.layout = { family with version := identity.layout.version } ∧
      ApiVersion.negotiate identity.info.model identity.info.firmware =
        .ok identity.layout.version := by
  unfold Identity.read at h
  split at h
  · cases h
  · next family found =>
    obtain ⟨info, -, h⟩ := bind_eq_ok.1 h
    obtain ⟨version, negotiated, h⟩ := bind_eq_ok.1 h
    cases h
    refine ⟨family, List.mem_of_find?_eq_some found, ?_, rfl, negotiated⟩
    simpa using List.find?_some found

theorem Identity.entryLength_bounds {block : Bytes} {identity : Identity}
    (h : Identity.read block = .ok identity) :
    9 ≤ identity.layout.entryLength ∧ identity.layout.entryLength ≤ 23 := by
  obtain ⟨family, known, -, layout, -⟩ := Identity.read_ok h
  have bounds : ∀ family ∈ Layout.families, 9 ≤ family.entryLength ∧ family.entryLength ≤ 23 := by
    decide
  rw [layout]
  exact bounds family known

theorem ApiVersion.negotiate_ok {model : UInt8} {firmware : UInt16} {version : ApiVersion}
    (h : negotiate model firmware = .ok version) : ofFirmware? firmware = some version := by
  unfold negotiate at h
  split at h
  · cases h
  · split at h
    · cases h
    · next found =>
      split at h
      · cases h
        exact found
      · cases h

namespace Layout

/-- The sizes and the version belong to the same family, and so does the length of the block. -/
def Coherent (block : Bytes) (layout : Layout) : Prop :=
  block.length = 9 ∧ layout.version ∈ [ApiVersion.v0, .v1, .v2, .v3] ∧ layout.entryLength = 23 ∧
      layout.fingerprintOffset = 17 ∧ layout.logbookCode = 0x21 ∨
    block.length = 11 ∧ layout.version = .v4 ∧ layout.entryLength = 15 ∧
      layout.fingerprintOffset = 3 ∧ layout.logbookCode = 0x23

/-- Of the version and the entries, one is of the newer family exactly when both are. -/
structure Consistent (layout : Layout) : Prop where
  sizes : layout.entryLength = 15 ∨ layout.entryLength = 23
  version : layout.version = .v4 ↔ layout.entryLength = 15

namespace Consistent
variable {layout : Layout}

theorem validate_eq (consistent : layout.Consistent) (entry dive : Bytes) :
    Dive.validate layout entry dive =
      if layout.entryLength = 15 then Dive.checkStartDate entry dive
      else Dive.checkCopiedHeader 23 entry dive := by
  rw [Dive.validate]
  by_cases newer : layout.entryLength = 15
  · rw [if_pos newer, if_pos (consistent.version.2 newer)]
  · have sizes := consistent.sizes.resolve_left newer
    rw [if_neg newer, if_neg (newer ∘ consistent.version.1), sizes]

theorem tag (consistent : layout.Consistent) (entry dive : Bytes) :
    (DiveRecord.assemble layout entry dive)[2]? = some 4 ↔
      (DiveRecord.assemble layout entry dive)[3]? = some 15 := by
  have number : layout.version.number = 4 ↔ layout.version = .v4 := by
    cases layout.version <;> decide
  have length : UInt8.ofNat layout.entryLength = 15 ↔ layout.entryLength = 15 := by
    rcases consistent.sizes with sizes | sizes <;> rw [sizes] <;> decide
  have second : (DiveRecord.assemble layout entry dive)[2]? = some layout.version.number := rfl
  have third : (DiveRecord.assemble layout entry dive)[3]? = some (.ofNat layout.entryLength) := rfl
  rw [second, third, Option.some_inj, Option.some_inj, number, length]
  exact consistent.version

end Consistent

end Layout

namespace Identity

/-- The firmware is of the family that the length of the block stands for. -/
def Matched (block : Bytes) (identity : Identity) : Prop :=
  ApiVersion.ofFirmware? identity.info.firmware = some .v4 ↔ block.length = 11

instance (block : Bytes) (identity : Identity) : Decidable (identity.Matched block) :=
  inferInstanceAs (Decidable (_ ↔ _))

variable {block : Bytes} {identity : Identity}

theorem read_sizes (h : Identity.read block = .ok identity) :
    ApiVersion.ofFirmware? identity.info.firmware = some identity.layout.version ∧
      (block.length = 9 ∧ identity.layout.entryLength = 23 ∧
          identity.layout.fingerprintOffset = 17 ∧ identity.layout.logbookCode = 0x21 ∨
        block.length = 11 ∧ identity.layout.entryLength = 15 ∧
          identity.layout.fingerprintOffset = 3 ∧ identity.layout.logbookCode = 0x23) := by
  obtain ⟨family, known, length, layout, negotiated⟩ := Identity.read_ok h
  refine ⟨ApiVersion.negotiate_ok negotiated, ?_⟩
  rw [← length, layout]
  rcases List.mem_cons.1 known with rfl | known
  · exact .inl ⟨rfl, rfl, rfl, rfl⟩
  · cases List.mem_singleton.1 known
    exact .inr ⟨rfl, rfl, rfl, rfl⟩

theorem read_coherent_iff (h : Identity.read block = .ok identity) :
    identity.layout.Coherent block ↔ identity.Matched block := by
  obtain ⟨version, sizes⟩ := read_sizes h
  have older : identity.layout.version ∈ [ApiVersion.v0, .v1, .v2, .v3] ↔
      identity.layout.version ≠ .v4 := by
    cases identity.layout.version <;> decide
  rw [Layout.Coherent, Matched, version, Option.some_inj, older]
  rcases sizes with ⟨length, rest⟩ | ⟨length, rest⟩ <;> simp [length, rest]

theorem read_consistent (h : Identity.read block = .ok identity) (matched : identity.Matched block) :
    identity.layout.Consistent := by
  obtain ⟨version, sizes⟩ := read_sizes h
  rw [Matched, version, Option.some_inj] at matched
  rcases sizes with ⟨length, entry, -⟩ | ⟨length, entry, -⟩
  · exact ⟨.inr entry, by simp [matched, length, entry]⟩
  · exact ⟨.inl entry, by simp [matched, length, entry]⟩

/-- A block of the older family with firmware of the newer one is accepted. -/
theorem read_incoherent : ¬ ∀ (block : Bytes) (identity : Identity),
    Identity.read block = .ok identity → identity.layout.Coherent block := by
  intro claim
  let block : Bytes := [0, 0, 0, 0, 1, 200, 0, 0, 0]
  have accepted : Identity.read block = .ok
      ⟨⟨1, 200, 0⟩, { Layout.copiedHeader with version := .v4 }⟩ := by decide
  rcases claim block _ accepted with ⟨-, version, -⟩ | ⟨length, -⟩
  · exact absurd version (by decide)
  · exact absurd length (by decide)

end Identity

namespace Conversation
open Dialogue Exchange

theorem Opens.heard {listener : Option String} {identity : Identity} {table : Bytes}
    {opening : List Act} (opens : Opens listener identity table opening) :
    ∃ code block, Identity.read block = .ok identity ∧
      Packet.wire code block <+: Act.heard opening := by
  obtain ⟨code, block, _, _, _, -, identified, -, -, rfl⟩ := opens
  refine ⟨code, block, identified, ?_⟩
  rw [Act.heard_append, Act.heard_append, Act.heard_told, List.nil_append, heard_askActs]
  exact List.prefix_append ..

theorem downloadNew_layout (device : Device) (receiver : Receiver) (script : Script) {block : Bytes}
    {identity : Identity} (identified : Identity.read block = .ok identity) {code : UInt8}
    (answered : Packet.wire code block <+: Act.heard (acts script.data
      (device.perform receiver (downloadNew device.fingerprint) script).trace))
    {dive : Delivery} (delivered : dive ∈ (device.perform receiver (downloadNew device.fingerprint)
      script).trace.filterMap Observation.delivery?) :
    ∃ entry data, dive = delivery identity.layout entry data := by
  have course := @run_course _ device.listener receiver (downloadNew device.fingerprint) [] script
  rw [← Act.deliveries_acts script.data] at delivered
  rw [Device.perform] at answered delivered
  generalize acts script.data _ = seen at answered delivered course
  rcases course_downloadNew course with
    quiet | ⟨other, table, entries, opening, later, rfl, opens, -, dives⟩
  · rw [quiet.1] at delivered
    cases delivered
  · obtain ⟨code', block', identified', heard⟩ := opens.heard
    -- Both packets stand at the start of what was heard, which decodes to one block only.
    have same : block = block' := by
      obtain ⟨rest, front⟩ := answered
      obtain ⟨rest', front'⟩ : Packet.wire code' block' <+: Act.heard (opening ++ later) := by
        rw [Act.heard_append]
        exact heard.trans (List.prefix_append ..)
      have first := Packet.decode_wire (Identity.read_fit identified) code rest
      have second := Packet.decode_wire (Identity.read_fit identified') code' rest'
      rw [front, ← front'] at first
      exact Except.ok.inj (first.symm.trans second)
    cases same
    cases identified.symm.trans identified'
    obtain ⟨j, place⟩ := List.getElem?_of_mem delivered
    obtain ⟨entry, data, -, known⟩ := dives.delivered j dive place
    exact ⟨entry, data, known.content⟩

/-- The version and the layout of a device agree exactly when its firmware is of the family that its
block stands for. Its dives are then judged by the rule for its entries, and the tags of their
records say so. -/
theorem layouts_coherent {block : Bytes} {identity : Identity}
    (identified : Identity.read block = .ok identity) :
    (identity.layout.Coherent block ↔ identity.Matched block) ∧
      (identity.Matched block →
        (∀ entry dive, Dive.validate identity.layout entry dive =
          if identity.layout.entryLength = 15 then Dive.checkStartDate entry dive
          else Dive.checkCopiedHeader 23 entry dive) ∧
        ∀ (device : Device) (receiver : Receiver) (script : Script) (code : UInt8),
          let run := device.perform receiver (downloadNew device.fingerprint) script
          Packet.wire code block <+: Act.heard (acts script.data run.trace) →
            ∀ dive ∈ run.trace.filterMap Observation.delivery?,
              (dive.record[2]? = some 4 ↔ dive.record[3]? = some 15)) := by
  refine ⟨Identity.read_coherent_iff identified, fun matched => ?_⟩
  have consistent := Identity.read_consistent identified matched
  refine ⟨consistent.validate_eq, ?_⟩
  intro device receiver script code run answered dive delivered
  obtain ⟨entry, data, rfl⟩ :=
    downloadNew_layout device receiver script identified answered delivered
  exact consistent.tag entry data

theorem layouts_coherent_both :
    let older : Bytes := [0, 0, 0, 0, 3, 105, 0, 0, 0]
    let newer : Bytes := [0, 0, 0, 0, 9, 202, 0, 0, 0, 0, 0]
    ∃ first second, Identity.read older = .ok first ∧ first.layout.Coherent older ∧
      Identity.read newer = .ok second ∧ second.layout.Coherent newer := by
  intro older newer
  let first : Identity := ⟨⟨3, 105, 0⟩, { Layout.copiedHeader with version := .v3 }⟩
  let second : Identity := ⟨⟨9, 202, 0⟩, { Layout.startDate with version := .v4 }⟩
  have accepted : Identity.read older = .ok first := by decide
  have accepted' : Identity.read newer = .ok second := by decide
  have matched : first.Matched older := by decide
  have matched' : second.Matched newer := by decide
  exact ⟨first, second, accepted, (layouts_coherent accepted).1.2 matched,
    accepted', (layouts_coherent accepted').1.2 matched'⟩

end Conversation

end DiveLink
