import DiveLink.Proofs.BulkFormat
import DiveLink.Proofs.ErrorPatterns
import DiveLink.Proofs.PacketCodec

set_option autoImplicit false

namespace DiveLink

namespace Checksum

/-- The data that a checksum covers, in packets and in chunks behind three other bytes. -/
def covers (count : Nat) (bs : Bytes) : Bytes := (bs.drop 3).take count

/-- Bytes with a checksum behind the data that it covers, whether or not it agrees. -/
structure Stores (count : Nat) (bs : Bytes) (stored : UInt16) : Prop where
  whole : 3 + (count + 2) ≤ bs.length
  stored : (bs.drop (3 + count)).take 2 = wordBytes stored

variable {a b : Bytes} {count : Nat} {v w : UInt16}

theorem Stores.cut (stores : Stores count a v) :
    (a.drop 3).take (count + 2) = covers count a ++ wordBytes v := by
  rw [List.take_add, List.drop_drop, stores.stored, covers]

theorem Stores.length_covers (stores : Stores count a v) : (covers count a).length = count := by
  have := stores.whole
  rw [covers, List.length_take, List.length_drop]
  omega

def storedDifferences (count : Nat) (a b : Bytes) : Finset Nat :=
  Bytes.differences ((a.drop 3).take (count + 2)) ((b.drop 3).take (count + 2))

theorem not_accepted (first : Stores count a (compute (covers count a))) (second : Stores count b w)
    (harmful : ¬ divisor ∣ alteration count (storedDifferences count a b)) :
    w ≠ compute (covers count b) := by
  intro accepted
  have same : (covers count a).length = (covers count b).length :=
    first.length_covers.trans second.length_covers.symm
  have divides := dvd_alteration same rfl accepted
  rw [first.length_covers, ← first.cut, ← second.cut] at divides
  exact harmful divides

theorem differences_nonempty (length : a.length = b.length) (differ : a ≠ b) :
    (a.differences b).Nonempty :=
  Finset.nonempty_iff_ne_empty.2 fun none => differ (Bytes.eq_of_differences length none)

theorem burst_not_accepted (first : Stores count a (compute (covers count a)))
    (second : Stores count b w) (length : a.length = b.length) (differ : a ≠ b)
    (burst : Burst (a.differences b))
    (inside : ∀ place ∈ a.differences b, 8 * 3 ≤ place ∧ place < 8 * (3 + count)) :
    w ≠ compute (covers count b) := by
  have places {place : Nat} := @Bytes.mem_differences_cut a b (count + 2) place 3 first.whole
  apply not_accepted first second
  apply not_dvd_burst
  · obtain ⟨place, mem⟩ := differences_nonempty length differ
    have bounds := inside place mem
    have back : 8 * 3 + (place - 8 * 3) = place := by omega
    have within : place - 8 * 3 < 8 * (count + 2) := by omega
    exact ⟨place - 8 * 3, places.2 ⟨within, back.symm ▸ mem⟩⟩
  · obtain ⟨start, window⟩ := burst
    refine ⟨start - 8 * 3, fun place mem => ?_⟩
    have := window _ (places.1 mem).2
    omega
  · intro place mem
    have := inside _ (places.1 mem).2
    omega

theorem fewOrOdd_not_accepted (first : Stores count a (compute (covers count a)))
    (second : Stores count b w) (short : count ≤ Chunk.dataLength)
    (few : FewOrOdd (a.differences b))
    (inside : ∀ place ∈ a.differences b, 8 * 3 ≤ place ∧ place < 8 * (3 + (count + 2))) :
    w ≠ compute (covers count b) := by
  apply not_accepted first second
  apply not_dvd_fewOrOdd short
  · rwa [FewOrOdd, storedDifferences, Bytes.card_differences_cut first.whole inside]
  · intro place mem
    exact ((Bytes.mem_differences_cut first.whole).1 mem).1

theorem compute_ne_of_burst (length : a.length = b.length) (differ : a ≠ b)
    (burst : Burst (a.differences b)) : compute a ≠ compute b := by
  intro same
  have divides := dvd_alteration length rfl same
  rw [Bytes.differences_append _ length] at divides
  apply not_dvd_burst (differences_nonempty length differ) burst _ divides
  intro place mem
  exact (Bytes.mem_differences.1 mem).1

end Checksum

open Checksum (Stores covers)

namespace Chunk

variable {chunk : Bytes}

theorem stores_of_drop {stored : UInt16} (whole : chunk.length = length)
    (last : chunk.drop (leadLength + dataLength) = wordBytes stored) :
    Stores dataLength chunk stored where
  whole := Nat.le_of_eq whole.symm
  stored := by
    have all : (chunk.drop (leadLength + dataLength)).take 2 = chunk.drop (leadLength + dataLength) := by
      rw [last]
      rfl
    exact all.trans last

theorem Sound.stores (sound : Sound chunk) :
    Stores dataLength chunk (Checksum.compute (covers dataLength chunk)) :=
  stores_of_drop sound.length sound.checksum

theorem exists_stores (whole : chunk.length = length) :
    ∃ stored, Stores dataLength chunk stored ∧
      (stored ≠ Checksum.compute (covers dataLength chunk) →
        decode chunk = .error (.checksum stored (Checksum.compute (covers dataLength chunk)))) := by
  obtain ⟨stored, last⟩ := exists_stored whole
  refine ⟨stored, stores_of_drop whole last, fun differs => ?_⟩
  rw [decode_stored whole last]
  exact if_neg differs

end Chunk

namespace Packet

variable {altered payload : Bytes} {command : UInt8}

theorem wire_trailer (command : UInt8) (payload : Bytes) :
    (wire command payload)[payload.length + 7]? = some trailer := by
  simp [wire, covered, wordBytes]

theorem stores_wire (command : UInt8) (payload : Bytes) :
    Stores (payload.length + 2) (wire command payload)
      (Checksum.compute (covers (payload.length + 2) (wire command payload))) := by
  have split : (wire command payload).drop 3 = covered command payload ++
      (wordBytes (Checksum.compute (covered command payload)) ++ [trailer]) := by
    simp [wire]
  have size := length_covered command payload
  rw [covers, split, ← size, List.take_left]
  constructor
  · rw [length_wire, size, overhead]
    omega
  · rw [← List.drop_drop, split, List.drop_left]
    rfl

theorem exists_stores (fit : payload.length ≤ maxPayload)
    (length : (wire command payload).length = altered.length)
    (inside : ∀ place ∈ (wire command payload).differences altered,
      8 * headerLength ≤ place ∧ place < 8 * (payload.length + 7)) :
    ∃ stored, Stores (payload.length + 2) altered stored ∧
      (stored ≠ Checksum.compute (covers (payload.length + 2) altered) →
        decode altered = .error
          (.checksum stored (Checksum.compute (covers (payload.length + 2) altered)))) := by
  have size : altered.length = payload.length + overhead := length.symm.trans (length_wire ..)
  have number := toNat_ofNat_length fit
  have header : (wire command payload).take headerLength = altered.take headerLength :=
    Bytes.take_eq length fun place mem => (inside place mem).1
  have announces : Announces altered (.ofNat payload.length) := by
    refine ⟨altered.drop headerLength, ?_⟩
    rw [← List.take_append_drop headerLength altered, ← header]
    simp [wire, covered, headerLength]
  have last : altered[payload.length + 7]? = some trailer := by
    rw [← wire_trailer command payload]
    symm
    apply Bytes.getElem?_eq length
    intro place mem
    have := inside place mem
    omega
  have enough : (UInt8.ofNat payload.length).toNat + overhead ≤ altered.length := by
    rw [number, size]
  obtain ⟨stored, sum⟩ := exists_stored enough
  have judged := decode_eq announces (by rwa [number]) (by rwa [number]) sum
  rw [number] at sum
  rw [number, if_neg (fun other => other rfl), coveredIn, number] at judged
  have place : 3 + (payload.length + 2) = payload.length + 5 := by omega
  refine ⟨stored, ⟨?_, place ▸ sum⟩, fun differs => judged.trans (if_neg differs)⟩
  rw [size, overhead]
  omega

end Packet

namespace Checksum

/-- Two strings of one length that differ within 16 bits in a row have two checksums. So a packet is
refused that was altered like this in its command and payload, and a chunk that was in its data. -/
theorem burst_detected :
    (∀ a b : Bytes, a.length = b.length → a ≠ b → Burst (a.differences b) → compute a ≠ compute b) ∧
    (∀ command payload packet altered, Packet.encode command payload = .ok packet →
      packet.length = altered.length → packet ≠ altered → Burst (packet.differences altered) →
      (∀ place ∈ packet.differences altered,
        8 * Packet.headerLength ≤ place ∧ place < 8 * (payload.length + 5)) →
      ∃ expected calculated, Packet.decode altered = .error (.checksum expected calculated)) ∧
    ∀ chunk data altered, chunk.length = Chunk.length → Chunk.decode chunk = .ok data →
      chunk.length = altered.length → chunk ≠ altered → Burst (chunk.differences altered) →
      (∀ place ∈ chunk.differences altered,
        8 * Chunk.leadLength ≤ place ∧ place < 8 * (Chunk.leadLength + Chunk.dataLength)) →
      ∃ expected calculated, Chunk.decode altered = .error (.checksum expected calculated) := by
  refine ⟨fun a b => compute_ne_of_burst, ?_, ?_⟩
  · intro command payload packet altered encoded length differ burst inside
    obtain ⟨fit, rfl⟩ := Packet.encode_eq_ok_iff.1 encoded
    have bounds : ∀ place ∈ (Packet.wire command payload).differences altered,
        8 * 4 ≤ place ∧ place < 8 * (payload.length + 5) := inside
    obtain ⟨stored, second, refused⟩ := Packet.exists_stores fit length fun place mem => by
      have := bounds place mem
      simp only [Packet.headerLength]
      omega
    have first := Packet.stores_wire command payload
    refine ⟨_, _, refused (burst_not_accepted first second length differ burst ?_)⟩
    intro place mem
    have := bounds place mem
    omega
  · intro chunk data altered whole decoded length differ burst inside
    have first := (Chunk.sound_of_decode whole decoded).1.stores
    obtain ⟨stored, second, refused⟩ := Chunk.exists_stores (length.symm.trans whole)
    exact ⟨_, _, refused (burst_not_accepted first second length differ burst inside)⟩

theorem burst_detected_pair :
    let places : Finset Nat := {47, 48}
    let packet := Packet.wire CommandCode.version [0x10, 0x20]
    let chunk := Chunk.wire [1, 2, 3] (List.replicate Chunk.dataLength 0x5A)
    Burst places ∧ packet.differences (packet.invert places) = places ∧
      chunk.differences (chunk.invert places) = places ∧
      (∃ expected calculated,
        Packet.decode (packet.invert places) = .error (.checksum expected calculated)) ∧
      ∃ expected calculated,
        Chunk.decode (chunk.invert places) = .error (.checksum expected calculated) := by
  intro places packet chunk
  have burst : Burst places := ⟨47, by decide⟩
  have sound : Chunk.Sound chunk := Chunk.sound_wire rfl List.length_replicate
  have inPacket : packet.differences (packet.invert places) = places :=
    Bytes.differences_invert (by rw [Packet.length_wire]; decide)
  have inChunk : chunk.differences (chunk.invert places) = places :=
    Bytes.differences_invert (by rw [sound.length]; decide)
  have differs {bs : Bytes} (all : bs.differences (bs.invert places) = places) :
      bs ≠ bs.invert places := by
    intro same
    have mem : 47 ∈ bs.differences bs := by
      rw [← same] at all
      rw [all]
      decide
    exact (Bytes.mem_differences.1 mem).2 rfl
  refine ⟨burst, inPacket, inChunk, ?_, ?_⟩
  · exact burst_detected.2.1 _ [0x10, 0x20] packet _ (Packet.encode_eq (by decide) _)
      (packet.length_invert places).symm (differs inPacket) (by rwa [inPacket])
      (by rw [inPacket]; decide)
  · exact burst_detected.2.2 chunk _ _ sound.length (Chunk.decode_sound sound)
      (chunk.length_invert places).symm (differs inChunk) (by rwa [inChunk])
      (by rw [inChunk]; decide)

/-- One, two or three inverted bits, or any odd number of them, are found wherever they stand in a
chunk or a packet, the stored checksum included. -/
theorem fewOrOdd_detected :
    (∀ chunk data places, chunk.length = Chunk.length → Chunk.decode chunk = .ok data →
      FewOrOdd places → (∀ place ∈ places, 8 * Chunk.leadLength ≤ place ∧ place < 8 * Chunk.length) →
      ∃ expected calculated,
        Chunk.decode (chunk.invert places) = .error (.checksum expected calculated)) ∧
    ∀ command payload packet places, Packet.encode command payload = .ok packet →
      FewOrOdd places →
      (∀ place ∈ places, 8 * Packet.headerLength ≤ place ∧ place < 8 * (payload.length + 7)) →
      ∃ expected calculated,
        Packet.decode (packet.invert places) = .error (.checksum expected calculated) := by
  constructor
  · intro chunk data places whole decoded few inside
    have differences : chunk.differences (chunk.invert places) = places := by
      apply Bytes.differences_invert
      rw [whole]
      exact fun place mem => (inside place mem).2
    have first := (Chunk.sound_of_decode whole decoded).1.stores
    obtain ⟨stored, second, refused⟩ := Chunk.exists_stores ((chunk.length_invert places).trans whole)
    refine ⟨_, _, refused (fewOrOdd_not_accepted first second (Nat.le_refl _) ?_ ?_)⟩
    · rwa [differences]
    · rwa [differences]
  · intro command payload packet places encoded few inside
    obtain ⟨fit, rfl⟩ := Packet.encode_eq_ok_iff.1 encoded
    have bounds : ∀ place ∈ places, 8 * 4 ≤ place ∧ place < 8 * (payload.length + 7) := inside
    have differences : (Packet.wire command payload).differences
        ((Packet.wire command payload).invert places) = places := by
      apply Bytes.differences_invert
      intro place mem
      have := bounds place mem
      rw [Packet.length_wire, Packet.overhead]
      omega
    have short : payload.length + 2 ≤ Chunk.dataLength :=
      Nat.le_trans (Nat.add_le_add_right fit 2) (by decide)
    have first := Packet.stores_wire command payload
    obtain ⟨stored, second, refused⟩ := Packet.exists_stores fit
      (Bytes.length_invert places _).symm (by rwa [differences])
    refine ⟨_, _, refused (fewOrOdd_not_accepted first second short ?_ ?_)⟩
    · rwa [differences]
    · rw [differences]
      intro place mem
      have := bounds place mem
      omega

theorem fewOrOdd_detected_two :
    let places : Finset Nat := {32, 71}
    let packet := Packet.wire CommandCode.version [0x10, 0x20]
    let chunk := Chunk.wire [1, 2, 3] (List.replicate Chunk.dataLength 0x5A)
    FewOrOdd places ∧ Packet.encode CommandCode.version [0x10, 0x20] = .ok packet ∧
      Chunk.Sound chunk ∧
      (∃ expected calculated,
        Packet.decode (packet.invert places) = .error (.checksum expected calculated)) ∧
      ∃ expected calculated,
        Chunk.decode (chunk.invert places) = .error (.checksum expected calculated) := by
  intro places packet chunk
  have few : FewOrOdd places := .inr (.inl rfl)
  have encoded : Packet.encode CommandCode.version [0x10, 0x20] = .ok packet :=
    Packet.encode_eq (by decide) _
  have sound : Chunk.Sound chunk := Chunk.sound_wire rfl List.length_replicate
  exact ⟨few, encoded, sound, fewOrOdd_detected.2 _ _ packet places encoded few (by decide),
    fewOrOdd_detected.1 chunk _ places sound.length (Chunk.decode_sound sound) few (by decide)⟩

end Checksum

end DiveLink
