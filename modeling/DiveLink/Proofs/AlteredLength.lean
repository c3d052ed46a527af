import DiveLink.Command
import DiveLink.Proofs.PacketCodec

set_option autoImplicit false

namespace DiveLink.Packet

def relabel (length : UInt8) (packet : Bytes) : Bytes := packet.set 3 length

/-- Behind the first `length` bytes of a payload there stands what ends the packet of these bytes:
its checksum and a trailer. The last of them may belong to the checksum of the longer packet. -/
structure Hides (command : UInt8) (payload : Bytes) (length : UInt8) : Prop where
  shorter : length.toNat < payload.length
  ending :
    wordBytes (Checksum.compute (covered command (payload.take length.toNat))) ++ [trailer] <+:
      payload.drop length.toNat ++ wordBytes (Checksum.compute (covered command payload))

instance (command : UInt8) (payload : Bytes) (length : UInt8) :
    Decidable (Hides command payload length) :=
  decidable_of_iff (length.toNat < payload.length ∧
      wordBytes (Checksum.compute (covered command (payload.take length.toNat))) ++ [trailer] <+:
        payload.drop length.toNat ++ wordBytes (Checksum.compute (covered command payload)))
    ⟨fun h => ⟨h.1, h.2⟩, fun h => ⟨h.shorter, h.ending⟩⟩

variable {command length : UInt8} {payload accepted : Bytes}

theorem relabel_wire (length command : UInt8) (payload : Bytes) :
    relabel length (wire command payload) = marker :: marker :: marker :: length :: command ::
      (payload ++ (wordBytes (Checksum.compute (covered command payload)) ++ [trailer])) := by
  simp [relabel, wire, covered]

theorem length_relabel (length : UInt8) (packet : Bytes) :
    (relabel length packet).length = packet.length := List.length_set

theorem announces_relabel (length command : UInt8) (payload : Bytes) :
    Announces (relabel length (wire command payload)) length := ⟨_, relabel_wire ..⟩

theorem Hides.decode (hides : Hides command payload length) (fit : payload.length ≤ maxPayload) :
    decode (relabel length (wire command payload)) = .ok (payload.take length.toNat) := by
  have size : (payload.take length.toNat).length = length.toNat :=
    List.length_take_of_le (Nat.le_of_lt hides.shorter)
  obtain ⟨rest, split⟩ := hides.ending
  have behind : payload ++ (wordBytes (Checksum.compute (covered command payload)) ++ [trailer]) =
      payload.take length.toNat ++
        (wordBytes (Checksum.compute (covered command (payload.take length.toNat))) ++
          [trailer] ++ (rest ++ [trailer])) := by
    calc
      _ = payload.take length.toNat ++ (payload.drop length.toNat ++
          wordBytes (Checksum.compute (covered command payload)) ++ [trailer]) := by
        rw [List.append_assoc (payload.drop _), ← List.append_assoc (payload.take _),
          List.take_append_drop]
      _ = _ := by rw [← split, List.append_assoc _ rest]
  have packet : relabel length (wire command payload) =
      wire command (payload.take length.toNat) ++ (rest ++ [trailer]) := by
    rw [relabel_wire, behind]
    simp [wire, covered, size]
  have short : (payload.take length.toNat).length ≤ maxPayload := by
    have := hides.shorter
    omega
  rw [packet, decode_wire short]

theorem hides_of_decode (other : length.toNat ≠ payload.length)
    (ok : decode (relabel length (wire command payload)) = .ok accepted) :
    Hides command payload length ∧ accepted = payload.take length.toNat := by
  obtain ⟨fit, command', rest, split⟩ := decode_ok ok
  have parts : wire command' accepted ++ rest = marker :: marker :: marker ::
      .ofNat accepted.length :: command' :: (accepted ++
        (wordBytes (Checksum.compute (covered command' accepted)) ++ [trailer] ++ rest)) := by
    simp [wire, covered]
  rw [relabel_wire, parts] at split
  simp only [List.cons.injEq, true_and] at split
  obtain ⟨rfl, rfl, behind⟩ := split
  have number : (UInt8.ofNat accepted.length).toNat = accepted.length := toNat_ofNat_length fit
  rw [number] at other ⊢
  have total := congrArg List.length behind
  simp only [List.length_append, length_wordBytes, List.length_singleton] at total
  have shorter : accepted.length < payload.length := by omega
  have front : accepted = payload.take accepted.length := by
    have same := congrArg (List.take accepted.length) behind
    rwa [List.take_append_of_le_length (Nat.le_of_lt shorter), List.take_left, eq_comm] at same
  refine ⟨⟨by rwa [number], ?_⟩, front⟩
  rw [number, ← front]
  have same := congrArg (List.drop accepted.length) behind
  rw [List.drop_append_of_le_length (Nat.le_of_lt shorter), List.drop_left, ← List.append_assoc]
    at same
  -- The trailer of the longer packet is too far behind to count.
  refine List.prefix_of_prefix_length_le ⟨rest, same.symm⟩ (List.prefix_append _ [trailer]) ?_
  simp only [List.length_append, List.length_drop, length_wordBytes, List.length_singleton]
  omega

theorem relabel_longer (longer : payload.length < length.toNat) (command : UInt8) :
    decode (relabel length (wire command payload)) =
      if length.toNat ≤ maxPayload then
        .error (.truncated (payload.length + overhead) (length.toNat + overhead))
      else .error (.payloadLength length) := by
  have announces := announces_relabel length command payload
  have size : (relabel length (wire command payload)).length = payload.length + overhead := by
    rw [length_relabel, length_wire]
  split
  · next fit =>
    rw [decode_truncated announces fit (by omega), size]
  · next above =>
    exact decode_of_payloadLength (announces.payloadLength_above (Nat.lt_of_not_le above))

/-- A packet with an altered length byte is refused for breaking the rules of packets, unless its
payload hides a shorter packet. Then that one is accepted, and nothing else ever is. -/
theorem decode_relabel {packet : Bytes} (encoded : encode command payload = .ok packet)
    (other : length.toNat ≠ payload.length) :
    (relabel length packet).length = packet.length ∧
      (∀ accepted, decode (relabel length packet) = .ok accepted ↔
        Hides command payload length ∧ accepted = payload.take length.toNat) ∧
      (¬ Hides command payload length →
        ∃ why, decode (relabel length packet) = .error why ∧ why.kind = .protocol) ∧
      (payload.length < length.toNat → decode (relabel length packet) =
        if length.toNat ≤ maxPayload then
          .error (.truncated packet.length (length.toNat + overhead))
        else .error (.payloadLength length)) := by
  have total := length_encode encoded
  obtain ⟨fit, rfl⟩ := encode_eq_ok_iff.1 encoded
  refine ⟨length_relabel .., fun accepted => ⟨hides_of_decode other, ?_⟩, fun shown => ?_,
    fun longer => total ▸ relabel_longer longer command⟩
  · rintro ⟨hides, rfl⟩
    exact hides.decode fit
  · rcases decode_ok_or (relabel length (wire command payload)) with ⟨accepted, ok⟩ | ⟨why, rejects⟩
    · exact absurd (hides_of_decode other ok).1 shown
    · exact ⟨why, rejects.decode, rejects.kind⟩

theorem decode_relabel_both :
    let hollow : Bytes := [0x00, 0x00, 0x55]
    let plain : Bytes := [0x10, 0x20]
    Hides CommandCode.version hollow 0 ∧ ¬ Hides CommandCode.version plain 1 ∧
      decode (relabel 0 (wire CommandCode.version hollow)) = .ok [] ∧
      ∃ why, decode (relabel 1 (wire CommandCode.version plain)) = .error why ∧
        why.kind = .protocol := by
  intro hollow plain
  have hides : Hides CommandCode.version hollow 0 := by decide +kernel
  have shown : ¬ Hides CommandCode.version plain 1 := by decide +kernel
  have first := @decode_relabel CommandCode.version 0 hollow _ (encode_eq (by decide) _) (by decide)
  have second := @decode_relabel CommandCode.version 1 plain _ (encode_eq (by decide) _) (by decide)
  exact ⟨hides, shown, (first.2.1 []).2 ⟨hides, rfl⟩, second.2.2.1 shown⟩

/-- An altered length byte alone does not get a packet refused. -/
theorem relabel_accepted : ¬ ∀ (command : UInt8) (payload packet : Bytes) (length : UInt8),
    encode command payload = .ok packet → length.toNat ≠ payload.length →
      ∃ why, decode (relabel length packet) = .error why ∧ why.kind = .protocol := by
  intro always
  have hides : Hides CommandCode.version [0x00, 0x00, 0x55] 0 := by decide +kernel
  obtain ⟨why, refused, -⟩ := always CommandCode.version [0x00, 0x00, 0x55] _ 0
    (encode_eq (by decide) _) (by decide)
  cases (hides.decode (by decide)).symm.trans refused

end DiveLink.Packet
