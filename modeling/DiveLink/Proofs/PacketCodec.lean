import DiveLink.Proofs.PacketFormat

set_option autoImplicit false

namespace DiveLink.Packet

def Announces (bs : Bytes) (length : UInt8) : Prop :=
  ∃ rest, bs = marker :: marker :: marker :: length :: rest

def coveredIn (bs : Bytes) (length : UInt8) : Bytes := (bs.drop 3).take (length.toNat + 2)

/-- The first check that bytes fail as a packet. Each supposes that those before it are passed. -/
inductive Rejects (bs : Bytes) : Refusal → Prop
  | short (few : bs.length < headerLength) : Rejects bs (.truncated bs.length headerLength)
  | unmarked (enough : headerLength ≤ bs.length) (other : bs.take 3 ≠ [marker, marker, marker]) :
    Rejects bs (.headerMarkers (bs.take 3))
  | tooLong {length : UInt8} (announces : Announces bs length) (above : maxPayload < length.toNat) :
    Rejects bs (.payloadLength length)
  | truncated {length : UInt8} (announces : Announces bs length) (fit : length.toNat ≤ maxPayload)
    (few : bs.length < length.toNat + overhead) :
    Rejects bs (.truncated bs.length (length.toNat + overhead))
  | unclosed {length closing : UInt8} (announces : Announces bs length)
    (fit : length.toNat ≤ maxPayload) (last : bs[length.toNat + 7]? = some closing)
    (other : closing ≠ trailer) : Rejects bs (.trailer closing)
  | corrupt {length : UInt8} {stored : UInt16} (announces : Announces bs length)
    (fit : length.toNat ≤ maxPayload) (last : bs[length.toNat + 7]? = some trailer)
    (sum : (bs.drop (length.toNat + 5)).take 2 = wordBytes stored)
    (differs : stored ≠ Checksum.compute (coveredIn bs length)) :
    Rejects bs (.checksum stored (Checksum.compute (coveredIn bs length)))

variable {bs : Bytes} {length : UInt8}

theorem Announces.length_le (announces : Announces bs length) : headerLength ≤ bs.length := by
  obtain ⟨rest, rfl⟩ := announces
  simp only [List.length_cons, headerLength]
  omega

theorem Announces.take {count : Nat} (announces : Announces bs length)
    (enough : headerLength ≤ count) : Announces (bs.take count) length := by
  obtain ⟨rest, rfl⟩ := announces
  obtain ⟨more, rfl⟩ := Nat.exists_eq_add_of_le' enough
  exact ⟨rest.take more, rfl⟩

theorem Announces.payloadLength_eq (announces : Announces bs length) :
    payloadLength bs =
      if length.toNat ≤ maxPayload then .ok length.toNat else .error (.payloadLength length) := by
  obtain ⟨rest, rfl⟩ := announces
  rfl

theorem announces_or_unmarked (enough : headerLength ≤ bs.length) :
    (∃ length, Announces bs length) ∨
      bs.take 3 ≠ [marker, marker, marker] ∧
        payloadLength bs = .error (.headerMarkers (bs.take 3)) := by
  match bs, enough with
  | a :: b :: c :: length :: rest, _ =>
    by_cases marked : [a, b, c] = [marker, marker, marker]
    · cases marked
      exact .inl ⟨length, rest, rfl⟩
    · exact .inr ⟨marked, if_neg marked⟩
  | [], enough | [_], enough | [_, _], enough | [_, _, _], enough =>
    simp only [List.length_cons, List.length_nil, headerLength] at enough
    omega

theorem Announces.getElem? (announces : Announces bs length) : bs[3]? = some length := by
  obtain ⟨rest, rfl⟩ := announces
  rfl

theorem Announces.payloadLength_above (announces : Announces bs length)
    (above : maxPayload < length.toNat) : payloadLength bs = .error (.payloadLength length) :=
  announces.payloadLength_eq.trans (if_neg (Nat.not_le_of_lt above))

theorem payloadLength_unmarked (enough : headerLength ≤ bs.length)
    (other : bs.take 3 ≠ [marker, marker, marker]) :
    payloadLength bs = .error (.headerMarkers (bs.take 3)) := by
  rcases announces_or_unmarked enough with ⟨length, rest, rfl⟩ | ⟨-, refused⟩
  · exact absurd rfl other
  · exact refused

theorem announces_wire (command : UInt8) (payload rest : Bytes) :
    Announces (wire command payload ++ rest) (.ofNat payload.length) :=
  ⟨_, rfl⟩

theorem toNat_ofNat_length {payload : Bytes} (fit : payload.length ≤ maxPayload) :
    (UInt8.ofNat payload.length).toNat = payload.length := by
  rw [UInt8.toNat_ofNat', Nat.mod_eq_of_lt]
  exact Nat.lt_of_le_of_lt fit (by decide)

theorem payloadLength_short (few : bs.length < headerLength) :
    payloadLength bs = .error (.truncated bs.length headerLength) := by
  match bs, few with
  | [], _ | [_], _ | [_, _], _ | [_, _, _], _ => rfl
  | _ :: _ :: _ :: _ :: _, few =>
    simp only [List.length_cons, headerLength] at few
    omega

theorem decode_of_payloadLength {why : Refusal} (refused : payloadLength bs = .error why) :
    decode bs = .error why := by
  rw [decode, refused]
  rfl

theorem decode_truncated (announces : Announces bs length) (fit : length.toNat ≤ maxPayload)
    (few : bs.length < length.toNat + overhead) :
    decode bs = .error (.truncated bs.length (length.toNat + overhead)) := by
  simp only [decode, announces.payloadLength_eq, if_pos fit, bind, Except.bind, if_pos few]

theorem exists_stored (enough : length.toNat + overhead ≤ bs.length) :
    ∃ stored, (bs.drop (length.toNat + 5)).take 2 = wordBytes stored := by
  have two : ((bs.drop (length.toNat + 5)).take 2).length = 2 := by
    rw [overhead] at enough
    rw [List.length_take, List.length_drop]
    omega
  obtain ⟨low, high, h⟩ := List.length_eq_two.1 two
  exact ⟨word low high, by rw [h, wordBytes_word]⟩

theorem decode_eq {closing : UInt8} {stored : UInt16} (announces : Announces bs length)
    (fit : length.toNat ≤ maxPayload) (last : bs[length.toNat + 7]? = some closing)
    (sum : (bs.drop (length.toNat + 5)).take 2 = wordBytes stored) :
    decode bs =
      if closing ≠ trailer then .error (.trailer closing)
      else if stored = Checksum.compute (coveredIn bs length) then
        .ok ((bs.drop 5).take length.toNat)
      else .error (.checksum stored (Checksum.compute (coveredIn bs length))) := by
  obtain ⟨inside, -⟩ := List.getElem?_eq_some_iff.1 last
  have long : ¬ bs.length < length.toNat + overhead := by
    rw [overhead]
    omega
  have covers : bs.slice? 3 (length.toNat + 5) = some (coveredIn bs length) :=
    Bytes.slice?_eq_some_iff.2 ⟨by omega, by omega, rfl⟩
  have stands : bs.slice? (length.toNat + 5) (length.toNat + 7) = some (wordBytes stored) := by
    refine Bytes.slice?_eq_some_iff.2 ⟨by omega, by omega, ?_⟩
    rw [Nat.add_sub_add_left, sum]
  have payload : bs.slice? 5 (length.toNat + 5) = some ((bs.drop 5).take length.toNat) :=
    Bytes.slice?_eq_some_iff.2 ⟨by omega, by omega, by rw [Nat.add_sub_cancel]⟩
  simp only [decode, announces.payloadLength_eq, if_pos fit, bind, Except.bind, if_neg long, last,
    within, covers, stands, payload, Checksum.verify, Checksum.read_wordBytes]
  by_cases other : closing ≠ trailer
  · rw [if_pos other, if_pos other]
  rw [if_neg other, if_neg other]
  by_cases agree : stored = Checksum.compute (coveredIn bs length)
  · rw [if_pos agree, if_pos agree]
  · rw [if_neg agree, if_neg agree]

theorem Rejects.decode {why : Refusal} (rejects : Rejects bs why) : decode bs = .error why := by
  cases rejects with
  | short few => exact decode_of_payloadLength (payloadLength_short few)
  | unmarked enough other => exact decode_of_payloadLength (payloadLength_unmarked enough other)
  | tooLong announces above => exact decode_of_payloadLength (announces.payloadLength_above above)
  | truncated announces fit few => exact decode_truncated announces fit few
  | @unclosed length closing announces fit last other =>
    obtain ⟨inside, -⟩ := List.getElem?_eq_some_iff.1 last
    obtain ⟨stored, sum⟩ := @exists_stored bs length inside
    rw [decode_eq announces fit last sum, if_pos other]
  | corrupt announces fit last sum differs =>
    rw [decode_eq announces fit last sum, if_neg (fun other => other rfl), if_neg differs]

theorem Rejects.kind {why : Refusal} (rejects : Rejects bs why) : why.kind = .protocol := by
  cases rejects <;> rfl

theorem decode_ok_or (bs : Bytes) : (∃ payload, decode bs = .ok payload) ∨ ∃ why, Rejects bs why := by
  by_cases few : bs.length < headerLength
  · exact .inr ⟨_, .short few⟩
  have enough := Nat.le_of_not_lt few
  rcases announces_or_unmarked enough with ⟨length, announces⟩ | ⟨other, -⟩
  · by_cases fit : length.toNat ≤ maxPayload
    · by_cases few : bs.length < length.toNat + overhead
      · exact .inr ⟨_, .truncated announces fit few⟩
      obtain ⟨stored, sum⟩ := exists_stored (Nat.le_of_not_lt few)
      have inside : length.toNat + 7 < bs.length := Nat.le_of_not_lt few
      have last := List.getElem?_eq_getElem inside
      by_cases other : bs[length.toNat + 7] ≠ trailer
      · exact .inr ⟨_, .unclosed announces fit last other⟩
      by_cases agree : stored = Checksum.compute (coveredIn bs length)
      · exact .inl ⟨_, by rw [decode_eq announces fit last sum, if_neg other, if_pos agree]⟩
      · rw [Decidable.not_not.1 other] at last
        exact .inr ⟨_, .corrupt announces fit last sum agree⟩
    · exact .inr ⟨_, .tooLong announces (Nat.lt_of_not_le fit)⟩
  · exact .inr ⟨_, .unmarked enough other⟩

theorem decode_eq_error_iff {why : Refusal} : decode bs = .error why ↔ Rejects bs why := by
  refine ⟨fun refused => ?_, Rejects.decode⟩
  rcases decode_ok_or bs with ⟨payload, ok⟩ | ⟨other, rejects⟩
  · cases ok.symm.trans refused
  · cases rejects.decode.symm.trans refused
    exact rejects

theorem encode_eq_ok_iff {command : UInt8} {payload packet : Bytes} :
    encode command payload = .ok packet ↔
      payload.length ≤ maxPayload ∧ packet = wire command payload := by
  by_cases fit : payload.length ≤ maxPayload
  · simp [encode_eq fit, fit, eq_comm]
  · simp [encode, fit]

theorem decode_eq_ok_iff {payload : Bytes} : decode bs = .ok payload ↔
    payload.length ≤ maxPayload ∧
      ∃ command packet rest, encode command payload = .ok packet ∧ bs = packet ++ rest := by
  constructor
  · intro ok
    obtain ⟨fit, command, rest, rfl⟩ := decode_ok ok
    exact ⟨fit, command, _, rest, encode_eq fit command, rfl⟩
  · rintro ⟨fit, command, packet, rest, encoded, rfl⟩
    obtain ⟨-, rfl⟩ := encode_eq_ok_iff.1 encoded
    exact decode_wire fit command rest

theorem decode_take (announces : Announces bs length) (fit : length.toNat ≤ maxPayload)
    (enough : length.toNat + overhead ≤ bs.length) :
    decode (bs.take (length.toNat + overhead)) = decode bs := by
  have inside : length.toNat + 7 < bs.length := enough
  have last := List.getElem?_eq_getElem inside
  obtain ⟨stored, sum⟩ := exists_stored enough
  have same (start count : Nat) (within : start + count ≤ length.toNat + overhead) :
      ((bs.take (length.toNat + overhead)).drop start).take count = (bs.drop start).take count := by
    rw [List.drop_take, List.take_take, Nat.min_eq_left (by omega)]
  rw [decode_eq announces fit last sum, decode_eq (announces.take (by simp [overhead, headerLength]))
    fit (by rwa [List.getElem?_take_of_lt (by simp [overhead])])
    (by rwa [same _ _ (by simp [overhead])])]
  have covers : coveredIn (bs.take (length.toNat + overhead)) length = coveredIn bs length :=
    same _ _ (by simp only [overhead]; omega)
  rw [covers, same _ _ (by simp only [overhead]; omega)]

/-- Decoding undoes encoding, accepts nothing but encodings with anything behind them, and refuses
all else for the first check that it fails. -/
theorem decode_exact :
    (∀ bs payload, decode bs = .ok payload ↔ payload.length ≤ maxPayload ∧
      ∃ command packet rest, encode command payload = .ok packet ∧ bs = packet ++ rest) ∧
    (∀ command payload, (maxPayload < payload.length ↔ ∃ why, encode command payload = .error why) ∧
      (maxPayload < payload.length →
        encode command payload = .error (.payloadTooLarge payload.length maxPayload)) ∧
      ∀ packet, encode command payload = .ok packet → packet.length = payload.length + overhead) ∧
    ∀ bs why, decode bs = .error why ↔ Rejects bs why := by
  refine ⟨fun _ _ => decode_eq_ok_iff, fun command payload => ⟨⟨?_, ?_⟩, ?_, ?_⟩,
    fun _ _ => decode_eq_error_iff⟩
  · exact fun above => ⟨_, if_neg (Nat.not_le_of_lt above)⟩
  · rintro ⟨why, refused⟩
    refine Nat.lt_of_not_le fun fit => ?_
    rw [encode_eq fit] at refused
    cases refused
  · exact fun above => if_neg (Nat.not_le_of_lt above)
  · exact fun packet encoded => length_encode encoded

end DiveLink.Packet
