import DiveLink.Proofs.Entries

set_option autoImplicit false

namespace DiveLink

/-- A computation that is never refused for a fault. -/
def Faultless {α : Type} (value : Except Refusal α) : Prop :=
  ∀ why, value = .error why → why.kind ≠ .fault

theorem faultless_ok {α : Type} (a : α) : Faultless (.ok a) := fun _ h => nomatch h

theorem faultless_error {α : Type} {why : Refusal} (sound : why.kind ≠ .fault) :
    Faultless (.error why : Except Refusal α) := by
  intro other h
  cases h
  exact sound

theorem Faultless.bind {α β : Type} {value : Except Refusal α} {next : α → Except Refusal β}
    (first : Faultless value) (second : ∀ a, value = .ok a → Faultless (next a)) :
    Faultless (value >>= next) := by
  cases value with
  | ok a => exact second a rfl
  | error why => exact faultless_error (first why rfl)

theorem within_faultless {α : Type} {found : Option α} {a : α} (h : found = some a) :
    Faultless (within found) := by
  rw [h]
  exact faultless_ok a

theorem Bytes.slice?_inside {start stop : Nat} {bs : Bytes} (order : start ≤ stop)
    (inside : stop ≤ bs.length) :
    bs.slice? start stop = some ((bs.drop start).take (stop - start)) :=
  Bytes.slice?_eq_some_iff.2 ⟨order, inside, rfl⟩

theorem slice_faultless {start stop : Nat} {bs : Bytes} (order : start ≤ stop)
    (inside : stop ≤ bs.length) : Faultless (within (bs.slice? start stop)) :=
  within_faultless (Bytes.slice?_inside order inside)

theorem Checksum.verify_faultless (data : Bytes) {stored : Bytes} (two : stored.length = 2) :
    Faultless (verify data stored) := by
  obtain ⟨low, high, rfl⟩ := List.length_eq_two.1 two
  refine (faultless_ok _).bind fun expected _ => ?_
  by_cases agree : expected = compute data
  · rw [if_pos agree]
    exact faultless_ok ()
  · rw [if_neg agree]
    exact faultless_error nofun

theorem Packet.payloadLength_faultless (header : Bytes) : Faultless (payloadLength header) := by
  unfold payloadLength
  split
  · split
    · split
      · exact faultless_ok _
      · exact faultless_error nofun
    · exact faultless_error nofun
  · exact faultless_error nofun

theorem Packet.decode_faultless (packet : Bytes) : Faultless (decode packet) := by
  refine (payloadLength_faultless packet).bind fun length _ => ?_
  by_cases short : packet.length < length + overhead
  · rw [if_pos short]
    exact faultless_error (by rintro ⟨⟩)
  rw [if_neg short]
  rw [overhead] at short
  have closing : length + 7 < packet.length := by omega
  refine (within_faultless (List.getElem?_eq_getElem closing)).bind fun closing _ => ?_
  by_cases bad : closing ≠ trailer
  · rw [if_pos bad]
    exact faultless_error (by rintro ⟨⟩)
  rw [if_neg bad]
  refine (slice_faultless (by omega) (by omega)).bind fun covered _ => ?_
  refine (slice_faultless (by omega) (by omega)).bind fun stored cut => ?_
  have two : stored.length = 2 := by
    rw [Bytes.length_slice? (within_eq_ok.1 cut)]
    omega
  exact (Checksum.verify_faultless covered two).bind fun _ _ =>
    slice_faultless (by omega) (by omega)

theorem Chunk.decode_faultless {chunk : Bytes} (whole : chunk.length = Chunk.length) :
    Faultless (decode chunk) := by
  have size : Chunk.length = leadLength + dataLength + 2 := rfl
  refine (slice_faultless (by omega) (by omega)).bind fun data _ => ?_
  refine (slice_faultless (by omega) (by omega)).bind fun stored cut => ?_
  have two : stored.length = 2 := by
    rw [Bytes.length_slice? (within_eq_ok.1 cut)]
    omega
  exact (Checksum.verify_faultless data two).bind fun _ _ => faultless_ok data

theorem ApiVersion.negotiate_faultless (model : UInt8) (firmware : UInt16) :
    Faultless (negotiate model firmware) := by
  unfold negotiate
  split
  · exact faultless_error nofun
  · split
    · exact faultless_error nofun
    · split
      · exact faultless_ok _
      · exact faultless_error nofun

theorem DeviceInfo.read?_isSome {block : Bytes} (enough : 7 ≤ block.length) :
    (DeviceInfo.read? block).isSome := by
  match block, enough with
  | _ :: _ :: _ :: _ :: _ :: _ :: _ :: _, _ => rfl

theorem Identity.read_faultless (block : Bytes) : Faultless (Identity.read block) := by
  unfold Identity.read
  split
  · exact faultless_error nofun
  · next family found =>
    have known : ∀ family ∈ Layout.families, 7 ≤ family.identificationLength := by decide
    have enough := known family (List.mem_of_find?_eq_some found)
    have length : family.identificationLength = block.length := by
      simpa using List.find?_some found
    obtain ⟨info, read⟩ := Option.isSome_iff_exists.1 (DeviceInfo.read?_isSome (length ▸ enough))
    exact (within_faultless read).bind fun _ _ =>
      (ApiVersion.negotiate_faultless _ _).bind fun _ _ => faultless_ok _

namespace Dive

theorem number_faultless {bs : Bytes} (numbered : 2 ≤ bs.length) : Faultless (Logbook.number bs) := by
  match bs, numbered with
  | _ :: _ :: _, _ => exact faultless_ok _

theorem agreeOnNumber_faultless {entry dive : Bytes} (first : 2 ≤ entry.length)
    (second : 2 ≤ dive.length) : Faultless (agreeOnNumber entry dive) := by
  refine (number_faultless first).bind fun inLogbook _ => ?_
  refine (number_faultless second).bind fun inDive _ => ?_
  by_cases same : inLogbook = inDive
  · rw [if_pos same]
    exact faultless_ok _
  · rw [if_neg same]
    exact faultless_error nofun

theorem checkCopiedHeader_faultless {entryLength : Nat} {entry : Bytes} (enough : 7 ≤ entryLength)
    (length : entry.length = entryLength) (dive : Bytes) :
    Faultless (checkCopiedHeader entryLength entry dive) := by
  unfold checkCopiedHeader
  rw [uncopiedLength, if_neg (by omega)]
  dsimp only
  split
  · exact faultless_error nofun
  · refine (agreeOnNumber_faultless (by omega) (by omega)).bind fun number _ => ?_
    refine (slice_faultless (by omega) (by omega)).bind fun copy _ => ?_
    refine (slice_faultless (by omega) (by omega)).bind fun header _ => ?_
    split
    · exact faultless_ok _
    · exact faultless_error nofun

theorem checkStartDate_faultless {entry : Bytes} (enough : 9 ≤ entry.length) (dive : Bytes) :
    Faultless (checkStartDate entry dive) := by
  have ends : entryDate + dateLength = 9 := rfl
  unfold checkStartDate
  by_cases short : dive.length < diveDate + dateLength
  · rw [if_pos short]
    exact faultless_error nofun
  · rw [if_neg short]
    have dated : diveDate + dateLength = 10 := rfl
    refine (agreeOnNumber_faultless (by omega) (by omega)).bind fun _ _ => ?_
    refine (slice_faultless (by omega) (by omega)).bind fun expected _ => ?_
    refine (slice_faultless (by omega) (by omega)).bind fun found _ => ?_
    split
    · exact faultless_ok _
    · exact faultless_error nofun

/-- Either rule finds what it reads in an entry of the layout, also when the layout comes with the
rule of the other family. -/
theorem validate_faultless {layout : Layout} {entry : Bytes} (enough : 9 ≤ layout.entryLength)
    (length : entry.length = layout.entryLength) (dive : Bytes) :
    Faultless (validate layout entry dive) := by
  unfold validate
  split
  · exact checkStartDate_faultless (length ▸ enough) dive
  · exact checkCopiedHeader_faultless (by omega) length dive

end Dive

end DiveLink
