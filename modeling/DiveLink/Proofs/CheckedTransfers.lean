import DiveLink.Proofs.Agreement
import DiveLink.Proofs.BulkTransfer
import DiveLink.Proofs.Limits

set_option autoImplicit false

namespace DiveLink

theorem Progress.reached_le {p : Progress} (room : p.HasRoom) {received total : Nat}
    (any : 0 < total) (fit : received ≤ total) :
    (p.reached received total).current.toNat ≤ p.current.toNat + steps := by
  rw [toNat_reached room any fit]
  exact Nat.add_le_add_left (quotient_le any fit) _

namespace Checked
open Dialogue

theorem holds_eq {condition : Bool} (h : condition = true) : holds condition = .ok () := if_pos h

theorem fits_eq {n : Nat} (h : n < UInt32.size) : fits n = .ok () := if_pos h

theorem range_eq {start stop capacity : Nat} (order : start ≤ stop) (inside : stop ≤ capacity) :
    range start stop capacity = .ok (stop - start) := if_pos ⟨order, inside⟩

theorem cut_eq {start stop : Nat} {bs : Bytes} (order : start ≤ stop) (inside : stop ≤ bs.length) :
    cut start stop bs = .ok ((bs.drop start).take (stop - start)) :=
  within_eq_ok.2 (Bytes.slice?_inside order inside)

theorem push_eq {capacity : Nat} {buffer more : Bytes}
    (room : buffer.length + more.length ≤ capacity) :
    push capacity buffer more = .ok (buffer ++ more) := if_pos room

theorem payload_eq (command : Command) : payload command = .ok command.payload := by
  cases command with
  | setTime time => exact push_eq (by simp [DateTime.length_wire, Packet.maxPayload])
  | dive low high => exact push_eq (by simp [Packet.maxPayload])
  | version | leave | logbook code => rfl

theorem encode_eq {payload : Bytes} (fit : payload.length ≤ Packet.maxPayload) (code : UInt8) :
    encode code payload = .ok (Packet.wire code payload) := by
  have most : payload.length ≤ 12 := fit
  have capacity : Packet.maxLength = 20 := rfl
  have start : push Packet.maxLength [] [Packet.marker, Packet.marker, Packet.marker,
      .ofNat payload.length, code] = .ok [Packet.marker, Packet.marker, Packet.marker,
        .ofNat payload.length, code] := push_eq (by simp [capacity])
  have covered {front : Bytes} (parts : front = [Packet.marker, Packet.marker, Packet.marker] ++
      Packet.covered code payload) :
      cut 3 front.length front = .ok (Packet.covered code payload) := by
    subst parts
    rw [cut_eq (by simp) (Nat.le_refl _)]
    simp
  rw [encode, if_pos fit]
  refine bind_eq_ok.2 ⟨_, start, bind_eq_ok.2 ⟨_, push_eq ?_, bind_eq_ok.2 ⟨_, covered rfl,
    bind_eq_ok.2 ⟨_, push_eq ?_, push_eq ?_⟩⟩⟩⟩
  · simp only [List.length_cons, List.length_nil]
    omega
  · simp only [List.length_append, List.length_cons, List.length_nil, length_wordBytes]
    omega
  · simp only [List.length_append, List.length_cons, List.length_nil, length_wordBytes]
    omega

theorem sendCommand_agree (command : Command) :
    Agree (fun _ => True) (sendCommand command) (Exchange.sendCommand command) := by
  have fit : command.payload.length ≤ Packet.maxPayload :=
    Nat.le_trans command.length_payload_le (by decide)
  rw [Exchange.sendCommand_eq, command.wire_eq]
  exact .checked (payload_eq command) (.checked (encode_eq fit _) (.pause (.send (.done trivial))))

theorem receivePacket_agree : Agree (fun _ => True) receivePacket Exchange.receivePacket := by
  refine .receive fun header _ => ?_
  refine (agree_ofExcept (Packet.payloadLength_faultless header)).bind fun length announced => ?_
  have most : length ≤ 12 := Packet.payloadLength_le announced
  have window : range Packet.headerLength (length + Packet.overhead) Packet.maxLength =
      .ok (length + (Packet.overhead - Packet.headerLength)) := by
    have inside : length + Packet.overhead ≤ Packet.maxLength := Nat.add_le_add_right most _
    rw [range_eq (Nat.le_add_left_of_le (by decide)) inside, Nat.add_sub_assoc (by decide)]
  refine .checked window (.receive fun rest _ => ?_)
  cases decoded : Packet.decode (header ++ rest) with
  | error why => exact .refuse (Packet.decode_faultless _ why decoded)
  | ok payload =>
    have fit := (Packet.decode_ok decoded).1
    have pushed : push Packet.maxPayload [] payload = .ok payload := push_eq (by simpa using fit)
    rw [ofExcept_ok, done_bind, pushed]
    exact .done trivial

theorem ask_agree {command : Command} (short : command.isBulk = false) :
    Agree (fun _ => True) (ask command) (Exchange.ask command) :=
  .checked (holds_eq (by rw [short]; rfl))
    ((sendCommand_agree command).bind fun _ _ => receivePacket_agree)

theorem receiveChunk_agree :
    Agree (·.length = Chunk.dataLength) Exchange.receiveChunk Exchange.receiveChunk := by
  refine .receive fun chunk whole => ?_
  refine (agree_ofExcept (Chunk.decode_faultless whole)).bind fun data decoded => ?_
  obtain ⟨stored, last⟩ := Chunk.exists_stored whole
  rw [Chunk.decode_stored whole last] at decoded
  split at decoded
  · cases decoded
    exact .send (.done (Chunk.length_data whole))
  · cases decoded

theorem during_eq {p : Progress} (room : p.HasRoom) {received total : Nat} (any : 0 < total)
    (fit : received ≤ total) (small : total < UInt32.size) :
    during p received total = .ok (p.reached received total) := by
  have sum := Progress.toNat_reached room any fit
  have word : (p.reached received total).current.toNat < UInt32.size := UInt32.toNat_lt _
  have dividend : Progress.steps * received + total / 2 < UInt64.size := by
    simp only [Progress.steps, UInt32.size, UInt64.size] at small ⊢
    omega
  rw [← Progress.toNat_quotient any fit, ← Progress.step_eq any fit small] at sum
  rw [during, progressStep, if_pos dividend]
  change (word32 _ >>= fun current => _) = _
  rw [← sum, word32, if_pos word, UInt32.ofNat_toNat]
  rfl

/-- A transfer counts no further than its own steps. -/
def NearStart (start now : Option Progress) : Prop :=
  ∀ p ∈ start, (now.getD p).current.toNat ≤ p.current.toNat + Progress.steps

section
variable {start : Option Progress} (room : ∀ p ∈ start, p.HasRoom)
include room

theorem advance_agree {received total : Nat} (any : 0 < total) (fit : received ≤ total)
    (small : total < UInt32.size) :
    Agree (NearStart start) (advance start received total)
      (Exchange.advance start received total) := by
  cases start with
  | none => exact .done nofun
  | some p =>
    have near := Progress.reached_le (room p rfl) any fit
    rw [advance, Exchange.advance, during_eq (room p rfl) any fit small, p.during_eq any fit small]
    refine .announce (.done ?_)
    rintro _ ⟨⟩
    exact near

theorem receiveMissing_agree {total received : Nat} (small : total < UInt32.size)
    (fit : received ≤ total) {buffer : Bytes} {bound : Nat}
    (inside : buffer.length + (total - received) ≤ bound) {now : Option Progress}
    (near : NearStart start now) :
    Agree (fun all => all.1.length ≤ bound ∧ NearStart start all.2)
      (receiveMissing start total received buffer now)
      (Exchange.receiveMissing start total received buffer now) := by
  -- On the bytes that are missing; the progress never leaves the span of this one transfer.
  induction left : total - received using Nat.strongRecOn generalizing received buffer now with
  | ind left' ih =>
    have some := Chunk.dataLength_pos
    rw [receiveMissing, Exchange.receiveMissing]
    by_cases due : received < total
    · rw [if_pos due, if_pos due]
      dsimp only
      generalize size : min (total - received) Chunk.dataLength = length
      refine receiveChunk_agree.bind fun data full => ?_
      refine .checked (cut_eq (Nat.zero_le length) (by omega)) (.checked (fits_eq (by omega)) ?_)
      rw [List.drop_zero, Nat.sub_zero]
      refine (advance_agree room (by omega) (by omega) small).bind fun next near' => ?_
      refine ih _ (by omega) (by omega) ?_ near' rfl
      rw [List.length_append, List.length_take]
      omega
    · rw [if_neg due, if_neg due]
      exact .done ⟨Nat.le_of_add_right_le inside, near⟩

end

theorem receiveEnd_agree : Agree (fun _ => True) Exchange.receiveEnd Exchange.receiveEnd := by
  refine .receive fun bs one => ?_
  obtain ⟨b, rfl⟩ := List.length_eq_one_iff.1 one
  dsimp only
  split
  · exact .send (.done trivial)
  · exact .refuse nofun

theorem receiveBulk_agree {start : Option Progress} (room : ∀ p ∈ start, p.HasRoom)
    (buffer : Bytes) :
    Agree (fun all => all.1.length < UInt16.size ∧ NearStart start all.2)
      (receiveBulk buffer start) (Exchange.receiveBulk buffer start) := by
  refine receiveChunk_agree.bind fun first full => ?_
  match first, full with
  | low :: high :: more, full =>
    have announced := (word low high).toNat_lt
    generalize total_eq : Exchange.countLength + (word low high).toNat = total
    have two : Exchange.countLength = 2 := rfl
    have small : total < UInt32.size := by
      simp only [UInt32.size]
      omega
    have chunk : Chunk.dataLength = 512 := rfl
    rw [Bytes.word?, within, ofExcept_ok, done_bind, done_bind]
    dsimp only
    rw [total_eq]
    generalize size : min total Chunk.dataLength = length
    refine .checked (fits_eq small) (.checked (cut_eq (by omega) (by omega)) ?_)
    refine .checked (fits_eq (by omega)) ?_
    rw [← List.drop_take]
    refine (advance_agree room (by omega) (by omega) small).bind fun now near => ?_
    have inside : (buffer.take 0 ++ ((low :: high :: more).take length).drop
        Exchange.countLength).length + (total - length) ≤ (word low high).toNat := by
      rw [List.take_zero, List.nil_append, List.length_drop, List.length_take]
      omega
    refine (receiveMissing_agree room small (by omega) inside near).bind fun all known => ?_
    exact receiveEnd_agree.bind fun _ _ => .done ⟨Nat.lt_of_le_of_lt known.1 announced, known.2⟩

theorem askBulk_agree {command : Command} (bulk : command.isBulk = true) (buffer : Bytes)
    {start : Progress} (room : start.HasRoom) :
    Agree (fun all => all.1.length < UInt16.size ∧
        all.2.current.toNat ≤ start.current.toNat + Progress.steps)
      (askBulk command buffer start) (Exchange.askBulk command buffer start) := by
  have counted := @receiveBulk_agree (some start) (by simpa using room) buffer
  rw [Exchange.askBulk, Exchange.ask, bind_assoc]
  exact .checked (holds_eq bulk) ((sendCommand_agree command).bind fun _ _ =>
    receivePacket_agree.bind fun _ _ => counted.bind fun _ known =>
      .done ⟨known.1, known.2 start rfl⟩)

end Checked

end DiveLink
