import Mathlib.Data.List.Basic
import DiveLink.Packet

set_option autoImplicit false

namespace DiveLink

theorem wordBytes_word (low high : UInt8) : wordBytes (word low high) = [low, high] := by
  have hl := low.toNat_lt
  have hh := high.toNat_lt
  have number : (word low high).toNat = low.toNat + 256 * high.toNat := by
    rw [word, UInt16.toNat_ofNat']
    omega
  rw [wordBytes, number]
  congr 1
  · apply UInt8.toNat.inj
    rw [UInt8.toNat_ofNat']
    omega
  · congr 1
    apply UInt8.toNat.inj
    rw [UInt8.toNat_ofNat']
    omega

theorem bind_eq_ok {α β : Type} {step : Except Refusal α} {next : α → Except Refusal β} {b : β} :
    (step >>= next) = .ok b ↔ ∃ a, step = .ok a ∧ next a = .ok b := by
  cases step with
  | error why =>
    constructor
    · intro h
      cases h
    · rintro ⟨_, h, _⟩
      cases h
  | ok a =>
    constructor
    · exact fun h => ⟨a, rfl, h⟩
    · rintro ⟨_, h, h'⟩
      cases h
      exact h'

theorem within_eq_ok {α : Type} {found : Option α} {a : α} :
    within found = .ok a ↔ found = some a := by
  cases found <;> simp [within]

theorem slice?_of_split {start stop : Nat} {bs cut : Bytes} (front rest : Bytes)
    (split : bs = front ++ cut ++ rest) (before : front.length = start)
    (upTo : start + cut.length = stop) : bs.slice? start stop = some cut := by
  subst split before upTo
  exact Bytes.slice?_append front cut rest

theorem slice?_window {start size : Nat} {bs : Bytes} (fit : start + size ≤ bs.length) :
    bs.slice? start (start + size) = some ((bs.drop start).take size) :=
  Bytes.slice?_eq_some_iff.2 ⟨Nat.le_add_right .., fit, by rw [Nat.add_sub_cancel_left]⟩

theorem slice?_nested {start size : Nat} {part : Bytes} (fit : start + size ≤ part.length)
    (front rest : Bytes) :
    (front ++ part ++ rest).slice? (front.length + start) (front.length + start + size) =
      some ((part.drop start).take size) := by
  have inside : front.length + start + size ≤ (front ++ part ++ rest).length := by
    simp only [List.length_append]
    omega
  have enough : size ≤ (part.drop start).length := by
    rw [List.length_drop]
    omega
  rw [slice?_window inside, List.append_assoc, List.drop_length_add_append,
    List.drop_append_of_le_length (by omega), List.take_append_of_le_length enough]

namespace Checksum

theorem verify_ok {data stored : Bytes} (h : verify data stored = .ok ()) :
    stored = wordBytes (compute data) := by
  unfold verify at h
  obtain ⟨expected, found, h⟩ := bind_eq_ok.1 h
  by_cases agree : expected = compute data
  · unfold read at found
    split at found
    · next low high =>
      cases found
      rw [← agree, wordBytes_word]
    · cases found
  · rw [if_neg agree] at h
    cases h

theorem verify_wordBytes (data : Bytes) : verify data (wordBytes (compute data)) = .ok () := by
  simp [verify, read_wordBytes, bind, Except.bind]

end Checksum

namespace Packet

def wire (command : UInt8) (payload : Bytes) : Bytes :=
  [marker, marker, marker] ++ covered command payload ++
    wordBytes (Checksum.compute (covered command payload)) ++ [trailer]

theorem encode_eq {payload : Bytes} (fit : payload.length ≤ maxPayload) (command : UInt8) :
    encode command payload = .ok (wire command payload) := by
  rw [encode, if_pos fit]
  rfl

theorem length_wire (command : UInt8) (payload : Bytes) :
    (wire command payload).length = payload.length + overhead := by
  simp [wire, covered, overhead]

theorem length_covered (command : UInt8) (payload : Bytes) :
    (covered command payload).length = payload.length + 2 := rfl

theorem wire_command (command : UInt8) (payload : Bytes) :
    (wire command payload)[4]? = some command := by
  simp [wire, covered]

theorem payloadLength_append {header : Bytes} (whole : headerLength ≤ header.length)
    (rest : Bytes) : payloadLength (header ++ rest) = payloadLength header := by
  match header, whole with
  | _ :: _ :: _ :: _ :: _, _ => rfl
  | [], whole | [_], whole | [_, _], whole | [_, _, _], whole =>
    simp only [List.length_cons, List.length_nil, headerLength] at whole
    omega

theorem payloadLength_ok {bs : Bytes} {length : Nat} (h : payloadLength bs = .ok length) :
    length ≤ maxPayload ∧ ∃ rest, bs = marker :: marker :: marker :: .ofNat length :: rest := by
  refine ⟨payloadLength_le h, ?_⟩
  unfold payloadLength at h
  split at h
  · next a b c announced rest =>
    by_cases markers : [a, b, c] = [marker, marker, marker]
    · rw [if_pos markers] at h
      split at h
      · cases h
        cases markers
        exact ⟨rest, by rw [UInt8.ofNat_toNat]⟩
      · cases h
    · rw [if_neg markers] at h
      cases h
  · cases h

theorem payloadLength_wire {payload : Bytes} (fit : payload.length ≤ maxPayload)
    (command : UInt8) (rest : Bytes) :
    payloadLength (wire command payload ++ rest) = .ok payload.length := by
  have number : (UInt8.ofNat payload.length).toNat = payload.length := by
    rw [UInt8.toNat_ofNat', Nat.mod_eq_of_lt]
    exact Nat.lt_of_le_of_lt fit (by decide)
  simp only [wire, covered, List.cons_append, List.nil_append, payloadLength, number, if_pos fit,
    if_true]

theorem decode_wire {payload : Bytes} (fit : payload.length ≤ maxPayload) (command : UInt8)
    (rest : Bytes) : decode (wire command payload ++ rest) = .ok payload := by
  have length : ¬ (wire command payload ++ rest).length < payload.length + overhead := by
    rw [List.length_append, length_wire]
    omega
  have closing : (wire command payload ++ rest)[payload.length + 7]? = some trailer := by
    have front : ([marker, marker, marker] ++ covered command payload ++
        wordBytes (Checksum.compute (covered command payload))).length = payload.length + 7 := by
      simp [covered]
    rw [wire, List.append_assoc, List.getElem?_append_right (Nat.le_of_eq front), front,
      Nat.sub_self]
    rfl
  have body : (wire command payload ++ rest).slice? 3 (payload.length + 5) =
      some (covered command payload) := by
    refine slice?_of_split [marker, marker, marker]
      (wordBytes (Checksum.compute (covered command payload)) ++ [trailer] ++ rest) ?_ rfl ?_
    · simp only [wire, List.append_assoc]
    · rw [length_covered]
      omega
  have stored : (wire command payload ++ rest).slice? (payload.length + 5) (payload.length + 7) =
      some (wordBytes (Checksum.compute (covered command payload))) := by
    refine slice?_of_split ([marker, marker, marker] ++ covered command payload)
      ([trailer] ++ rest) ?_ ?_ rfl
    · simp only [wire, List.append_assoc]
    · rw [List.length_append, length_covered, List.length_cons, List.length_cons,
        List.length_cons, List.length_nil]
      omega
  have cut : (wire command payload ++ rest).slice? 5 (payload.length + 5) = some payload := by
    refine slice?_of_split [marker, marker, marker, .ofNat payload.length, command]
      (wordBytes (Checksum.compute (covered command payload)) ++ [trailer] ++ rest) ?_ rfl
      (Nat.add_comm ..)
    simp [wire, covered]
  simp only [decode, payloadLength_wire fit, if_neg length, closing, body, stored, cut, within,
    bind, Except.bind, Checksum.verify_wordBytes, ne_eq, not_true_eq_false, if_false]

theorem wire_of_parts {command : UInt8} {tail payload : Bytes}
    (first : tail.take payload.length = payload)
    (second : (tail.drop payload.length).take 2 =
      wordBytes (Checksum.compute (covered command payload)))
    (third : tail[payload.length + 2]? = some trailer) :
    marker :: marker :: marker :: .ofNat payload.length :: command :: tail =
      wire command payload ++ tail.drop (payload.length + 3) := by
  obtain ⟨inside, closing⟩ := List.getElem?_eq_some_iff.1 third
  have rest : (tail.drop payload.length).drop 2 = trailer :: tail.drop (payload.length + 3) := by
    rw [List.drop_drop, List.drop_eq_getElem_cons inside, closing]
  have whole : tail = payload ++ (wordBytes (Checksum.compute (covered command payload)) ++
      trailer :: tail.drop (payload.length + 3)) := by
    calc
      tail = tail.take payload.length ++ ((tail.drop payload.length).take 2 ++
          (tail.drop payload.length).drop 2) := by
        rw [List.take_append_drop, List.take_append_drop]
      _ = _ := by rw [first, second, rest]
  have front : wire command payload ++ tail.drop (payload.length + 3) =
      marker :: marker :: marker :: .ofNat payload.length :: command :: (payload ++
        (wordBytes (Checksum.compute (covered command payload)) ++
          trailer :: tail.drop (payload.length + 3))) := by
    simp only [wire, List.append_assoc, List.cons_append, List.nil_append]
    rw [covered]
    rfl
  rw [front, ← whole]

theorem decode_ok {packet payload : Bytes} (h : decode packet = .ok payload) :
    payload.length ≤ maxPayload ∧ ∃ command rest, packet = wire command payload ++ rest := by
  unfold decode at h
  obtain ⟨length, announced, h⟩ := bind_eq_ok.1 h
  by_cases short : packet.length < length + overhead
  · rw [if_pos short] at h
    cases h
  rw [if_neg short] at h
  obtain ⟨closing, atEnd, h⟩ := bind_eq_ok.1 h
  by_cases unclosed : closing ≠ trailer
  · rw [if_pos unclosed] at h
    cases h
  rw [if_neg unclosed] at h
  obtain ⟨body, bodyCut, h⟩ := bind_eq_ok.1 h
  obtain ⟨stored, storedCut, h⟩ := bind_eq_ok.1 h
  obtain ⟨_, verified, payloadCut⟩ := bind_eq_ok.1 h
  have sum := Checksum.verify_ok verified
  have body_eq := (Bytes.slice?_eq_some_iff.1 (within_eq_ok.1 bodyCut)).2.2
  have stored_eq := (Bytes.slice?_eq_some_iff.1 (within_eq_ok.1 storedCut)).2.2
  have payload_eq := (Bytes.slice?_eq_some_iff.1 (within_eq_ok.1 payloadCut)).2.2
  have end_eq : packet[length + 7]? = some trailer := by
    rw [within_eq_ok.1 atEnd, Decidable.not_not.1 unclosed]
  obtain ⟨fit, more, rfl⟩ := payloadLength_ok announced
  rcases more with _ | ⟨command, tail⟩
  · simp only [List.length_cons, List.length_nil, overhead] at short
    omega
  have first : tail.take length = payload := by simpa using payload_eq.symm
  have size : payload.length = length := by
    simp only [List.length_cons, overhead] at short
    rw [← first, List.length_take_of_le (by omega)]
  subst size
  have covers : body = covered command payload := by
    rw [body_eq, covered]
    simpa using first
  refine ⟨fit, command, _, wire_of_parts first ?_ (by simpa using end_eq)⟩
  rw [← covers, ← sum, stored_eq]
  simp

end Packet

end DiveLink
