import DiveLink.Proofs.BulkFormat
import DiveLink.Proofs.Following

set_option autoImplicit false

namespace DiveLink

namespace Progress

/-- Whether the count of a transfer that begins here stays within a word. -/
def HasRoom (p : Progress) : Prop := p.current.toNat + steps < UInt32.size

instance (p : Progress) : Decidable p.HasRoom := inferInstanceAs (Decidable (_ < _))

/-- Where a transfer that began here is after so many bytes. -/
def reached (p : Progress) (received total : Nat) : Progress :=
  { p with current := p.current + .ofNat ((steps * received + total / 2) / total) }

theorem step_eq {received total : Nat} (any : 0 < total) (fit : received ≤ total)
    (small : total < UInt32.size) :
    step received total = .ofNat ((steps * received + total / 2) / total) := by
  rw [step, if_neg (Nat.ne_of_gt any), Nat.mod_eq_of_lt]
  simp only [steps, UInt32.size, UInt64.size] at small ⊢
  omega

theorem quotient_le {received total : Nat} (any : 0 < total) (fit : received ≤ total) :
    (steps * received + total / 2) / total ≤ steps := by
  apply Nat.le_of_lt_succ
  rw [Nat.div_lt_iff_lt_mul any]
  simp only [steps]
  omega

theorem quotient_end {total : Nat} (any : 0 < total) :
    (steps * total + total / 2) / total = steps := by
  have half : total / 2 / total = 0 := Nat.div_eq_of_lt (Nat.div_lt_self any (by decide))
  rw [Nat.mul_comm, Nat.mul_add_div any, half, Nat.add_zero]

theorem during_eq (p : Progress) {received total : Nat} (any : 0 < total)
    (fit : received ≤ total) (small : total < UInt32.size) :
    p.during received total = p.reached received total := by
  rw [during, step_eq any fit small, reached]

theorem reached_zero (p : Progress) {total : Nat} (any : 0 < total) : p.reached 0 total = p := by
  have none : total / 2 / total = 0 := Nat.div_eq_of_lt (Nat.div_lt_self any (by decide))
  simp [reached, none]

theorem reached_end (p : Progress) {total : Nat} (any : 0 < total) :
    p.reached total total = { p with current := p.current + .ofNat steps } := by
  rw [reached, quotient_end any]

theorem toNat_quotient {received total : Nat} (any : 0 < total) (fit : received ≤ total) :
    UInt32.toNat (.ofNat ((steps * received + total / 2) / total)) =
      (steps * received + total / 2) / total := by
  have most := quotient_le any fit
  have steps_lt : steps < UInt32.size := by decide
  rw [UInt32.toNat_ofNat', Nat.mod_eq_of_lt]
  exact Nat.lt_of_le_of_lt most steps_lt

theorem toNat_reached {p : Progress} (room : p.HasRoom) {received total : Nat} (any : 0 < total)
    (fit : received ≤ total) : (p.reached received total).current.toNat =
      p.current.toNat + (steps * received + total / 2) / total := by
  have most := quotient_le any fit
  rw [HasRoom] at room
  rw [reached, UInt32.toNat_add, toNat_quotient any fit, Nat.mod_eq_of_lt]
  exact Nat.lt_of_le_of_lt (Nat.add_le_add_left most _) room

theorem reached_current {p : Progress} (room : p.HasRoom) {total : Nat} (any : 0 < total) :
    (p.reached total total).current.toNat = p.current.toNat + steps := by
  rw [toNat_reached room any (Nat.le_refl total), quotient_end any]

end Progress

namespace Exchange
open Dialogue

variable {α : Type} {listener : Option String} {receiver : Receiver} {made : List Delivery}

def chunkActs (chunk : Bytes) : List Act :=
  Act.reception chunk ++ Act.sending [Chunk.acknowledgement]

theorem receiveChunk_bind (f : Bytes → Dialogue α) :
    (receiveChunk >>= f) = receive Chunk.length fun chunk =>
      ofExcept (Chunk.decode chunk) >>= fun data => send [Chunk.acknowledgement] (f data) := by
  simp [receiveChunk, bind_assoc]

theorem follow_sound {chunk : Bytes} (sound : Chunk.Sound chunk) (f : Bytes → Dialogue α)
    (later : List Token) :
    (receiveChunk >>= f).follow listener receiver made (chunk.map .byte ++ later) =
      ((f (Chunk.data chunk)).follow listener receiver made later).after (chunkActs chunk) := by
  rw [receiveChunk_bind, follow_receive sound.length, Chunk.decode_sound sound]
  simp [follow, chunkActs]

theorem follow_corrupt {chunk : Bytes} {stored : UInt16} (whole : chunk.length = Chunk.length)
    (last : chunk.drop (Chunk.leadLength + Chunk.dataLength) = wordBytes stored)
    (differs : stored ≠ Checksum.compute (Chunk.data chunk)) (f : Bytes → Dialogue α)
    (later : List Token) :
    (receiveChunk >>= f).follow listener receiver made (chunk.map .byte ++ later) =
      ⟨.error (.refused (.checksum stored (Checksum.compute (Chunk.data chunk)))),
        Act.reception chunk, later⟩ := by
  rw [receiveChunk_bind, follow_receive whole, Chunk.decode_stored whole last, if_neg differs]
  simp [follow, Passage.after]

theorem follow_short {bs : Bytes} {count : Nat} (short : bs.length < count)
    (next : Bytes → Dialogue α) (times : Nat) :
    (receive count next).follow listener receiver made
        (bs.map .byte ++ List.replicate times .silence) =
      ⟨.error (.timeout count bs.length), [.received count bs false],
        List.replicate (times - 1) .silence⟩ := by
  simp [follow, Token.receive_silent short, Nat.ne_of_lt short, shortfall]

def advanceActs (listener : Option String) : Option Progress → Nat → Nat → List Act
  | none, _, _ => []
  | some start, received, total =>
    listener.toList.map (.told · (.progress (start.reached received total)))

theorem advance_bind (start : Option Progress) {received total : Nat} (any : 0 < total)
    (fit : received ≤ total) (small : total < UInt32.size) (f : Option Progress → Dialogue α) :
    (advance start received total >>= f) = match start with
      | none => f none
      | some start => announce (.progress (start.reached received total))
          (f (some (start.reached received total))) := by
  cases start with
  | none => rfl
  | some start => simp [advance, Progress.during_eq start any fit small]

theorem follow_advance (start : Option Progress) {received total : Nat} (any : 0 < total)
    (fit : received ≤ total) (small : total < UInt32.size) (f : Option Progress → Dialogue α)
    (tokens : List Token) :
    (advance start received total >>= f).follow listener receiver made tokens =
      ((f (start.map (·.reached received total))).follow listener receiver made tokens).after
        (advanceActs listener start received total) := by
  rw [advance_bind start any fit small]
  cases start with
  | none => rfl
  | some start => rfl

theorem receiveMissing_bind {start : Option Progress} {total received : Nat}
    (due : received < total) (buffer : Bytes) (now : Option Progress)
    (f : Bytes × Option Progress → Dialogue α) :
    (receiveMissing start total received buffer now >>= f) = receiveChunk >>= fun data =>
      advance start (received + min (total - received) Chunk.dataLength) total >>= fun next =>
        receiveMissing start total (received + min (total - received) Chunk.dataLength)
          (buffer ++ data.take (min (total - received) Chunk.dataLength)) next >>= f := by
  rw [receiveMissing, if_pos due]
  simp [bind_assoc]

theorem receiveMissing_done (start : Option Progress) (total : Nat) (buffer : Bytes)
    (now : Option Progress) :
    receiveMissing start total total buffer now = done (buffer, now) := by
  rw [receiveMissing, if_neg (Nat.lt_irrefl total)]

theorem receiveMissing_append (start : Option Progress) (total received : Nat)
    (front buffer : Bytes) (now : Option Progress) (f : Bytes × Option Progress → Dialogue α) :
    (receiveMissing start total received (front ++ buffer) now >>= f) =
      receiveMissing start total received buffer now >>= fun all => f (front ++ all.1, all.2) := by
  have some := Chunk.dataLength_pos
  induction left : total - received using Nat.strongRecOn generalizing received buffer now with
  | ind left' ih =>
    by_cases due : received < total
    · rw [receiveMissing_bind due, receiveMissing_bind due]
      congr 1
      funext data
      congr 1
      funext next
      rw [List.append_assoc, ih _ (by omega) _ _ _ rfl]
    · rw [receiveMissing, receiveMissing, if_neg due, if_neg due]
      rfl

/-- What sound chunks give rise to when `received` of `total` bytes were there before. -/
def chunksActs (listener : Option String) (start : Option Progress) (total : Nat) :
    Nat → List Bytes → List Act
  | _, [] => []
  | received, chunk :: later =>
    chunkActs chunk ++
      advanceActs listener start (received + min (total - received) Chunk.dataLength) total ++
      chunksActs listener start total (received + min (total - received) Chunk.dataLength) later

theorem take_part {bs : Bytes} {size : Nat} (length : bs.length = size) (missing : Nat)
    (more : Bytes) :
    bs.take (min missing size) ++ more.take (missing - min missing size) =
      (bs ++ more).take missing := by
  subst length
  have beyond : missing - min missing bs.length = missing - bs.length := by omega
  rw [List.take_append, beyond, ← List.take_take, List.take_length]

theorem follow_chunks (start : Option Progress) {total received : Nat}
    (small : total < UInt32.size) {chunks : List Bytes} (sound : ∀ chunk ∈ chunks, Chunk.Sound chunk)
    (due : received + Chunk.dataLength * chunks.length < total + Chunk.dataLength)
    (buffer : Bytes) (f : Bytes × Option Progress → Dialogue α) (later : List Token) :
    (receiveMissing start total received buffer (start.map (·.reached received total)) >>=
        f).follow listener receiver made (chunks.flatten.map .byte ++ later) =
      ((receiveMissing start total
            (received + min (total - received) (Chunk.dataLength * chunks.length))
            (buffer ++ (chunks.flatMap Chunk.data).take (total - received))
            (start.map (·.reached
              (received + min (total - received) (Chunk.dataLength * chunks.length)) total)) >>=
          f).follow listener receiver made later).after
            (chunksActs listener start total received chunks) := by
  induction chunks generalizing received buffer with
  | nil => simp [chunksActs]
  | cons chunk chunks ih =>
    simp only [List.length_cons, Chunk.dataLength] at due
    have first := sound chunk List.mem_cons_self
    have length := Chunk.length_data first.length
    have rest := @ih (received + min (total - received) 512)
      (fun c hc => sound c (List.mem_cons_of_mem _ hc)) (by simp only [Chunk.dataLength]; omega)
      (buffer ++ (Chunk.data chunk).take (min (total - received) Chunk.dataLength))
    have taken : received + min (total - received) 512 +
        min (total - received - min (total - received) 512) (512 * chunks.length) =
      received + min (total - received) (512 * (chunks.length + 1)) := by omega
    have left : total - (received + min (total - received) 512) =
        total - received - min (total - received) 512 := by omega
    have cut (more : Bytes) := take_part length (total - received) more
    simp only [Chunk.dataLength, left, taken] at rest cut
    rw [List.flatten_cons, List.map_append, List.append_assoc,
      receiveMissing_bind (by omega : received < total), follow_sound first, Chunk.dataLength,
      follow_advance start (by omega : 0 < total) (by omega) small, rest]
    simp only [Passage.after_after, List.append_assoc, cut, chunksActs, Chunk.dataLength,
      List.length_cons, List.flatMap_cons]

theorem receiveEnd_bind (f : Unit → Dialogue α) :
    (receiveEnd >>= f) = receive 1 fun
      | [b] =>
        if b = Chunk.endByte then send [Chunk.acknowledgement] (f ()) else refuse (.endByte b)
      | _ => refuse .outOfRange := by
  rw [receiveEnd, receive_bind]
  congr 1
  funext bs
  rcases bs with _ | ⟨b, _ | _⟩
  · rfl
  · dsimp only
    split <;> simp
  · rfl

theorem follow_end (f : Unit → Dialogue α) (later : List Token) :
    (receiveEnd >>= f).follow listener receiver made (.byte Chunk.endByte :: later) =
      ((f ()).follow listener receiver made later).after (chunkActs [Chunk.endByte]) := by
  rw [receiveEnd_bind]
  have length : [Chunk.endByte].length = 1 := rfl
  exact (follow_receive length _ made later).trans (by simp [follow, chunkActs])

theorem follow_badEnd {b : UInt8} (bad : b ≠ Chunk.endByte) (f : Unit → Dialogue α)
    (later : List Token) :
    (receiveEnd >>= f).follow listener receiver made (.byte b :: later) =
      ⟨.error (.refused (.endByte b)), Act.reception [b], later⟩ := by
  rw [receiveEnd_bind]
  have length : [b].length = 1 := rfl
  exact (follow_receive length _ made later).trans (by simp [follow, bad, Passage.after])

def finish (f : Bytes × Option Progress → Dialogue α) (all : Bytes × Option Progress) :
    Dialogue α :=
  receiveEnd >>= fun _ => f (all.1.drop countLength, all.2)

/-- Nothing of what was in the buffer matters. -/
theorem receiveBulk_bind (buffer : Bytes) (start : Option Progress)
    (f : Bytes × Option Progress → Dialogue α) :
    (receiveBulk buffer start >>= f) = receiveChunk >>= fun first =>
      Dialogue.ofExcept (within first.word?) >>= fun announced =>
        advance start (min (countLength + announced.toNat) Chunk.dataLength)
            (countLength + announced.toNat) >>= fun now =>
          receiveMissing start (countLength + announced.toNat)
              (min (countLength + announced.toNat) Chunk.dataLength)
              ((first.take (min (countLength + announced.toNat) Chunk.dataLength)).drop
                countLength) now >>= fun all =>
            receiveEnd >>= fun _ => f all := by
  simp [receiveBulk, bind_assoc]

theorem receiveMissing_finish (start : Option Progress) (total received : Nat) {buffer : Bytes}
    (counted : countLength ≤ buffer.length) (now : Option Progress)
    (f : Bytes × Option Progress → Dialogue α) :
    (receiveMissing start total received (buffer.drop countLength) now >>= fun all =>
        receiveEnd >>= fun _ => f all) =
      receiveMissing start total received buffer now >>= finish f := by
  have front : (buffer.take countLength).length = countLength := List.length_take_of_le counted
  have parts := receiveMissing_append start total received (buffer.take countLength)
    (buffer.drop countLength) now (finish f)
  rw [List.take_append_drop] at parts
  rw [parts]
  congr 1
  funext all
  rw [finish, List.drop_left' front]

/-- A bulk transfer is a transfer of what its first chunk announces and of the count itself. -/
theorem follow_receiveBulk (buffer : Bytes) (start : Option Progress)
    (f : Bytes × Option Progress → Dialogue α) (tokens : List Token) :
    (receiveBulk buffer start >>= f).follow listener receiver made tokens =
      (receiveMissing start
          (countLength + Bulk.announced (Token.receive Chunk.length tokens).bytes) 0 [] start >>=
        finish f).follow listener receiver made tokens := by
  rw [receiveBulk_bind, receiveMissing_bind (Bulk.total_pos _), receiveChunk_bind, receiveChunk_bind,
    follow, follow]
  generalize Token.receive Chunk.length tokens = receipt
  obtain ⟨chunk, failed, left⟩ := receipt
  by_cases whole : chunk.length = Chunk.length
  · obtain ⟨stored, last⟩ := Chunk.exists_stored whole
    have first := Bulk.word?_first (Nat.le_of_eq whole.symm)
    have number := Bulk.announced_lt chunk
    have length := Chunk.length_data whole
    simp only [if_pos whole, Chunk.decode_stored whole last]
    by_cases sound : stored = Checksum.compute (Chunk.data chunk)
    · have counted : (UInt16.ofNat (Bulk.announced chunk)).toNat = Bulk.announced chunk := by
        rw [UInt16.toNat_ofNat', Nat.mod_eq_of_lt number]
      have enough : countLength ≤ ((Chunk.data chunk).take
          (min (countLength + Bulk.announced chunk) Chunk.dataLength)).length := by
        rw [List.length_take, length]
        simp only [countLength, Chunk.dataLength]
        omega
      simp only [if_pos sound, Dialogue.ofExcept_ok, done_bind, first, within, counted,
        Nat.sub_zero, Nat.zero_add, List.nil_append, receiveMissing_finish _ _ _ enough]
    · simp only [if_neg sound, Dialogue.ofExcept_error, refuse_bind]
  · simp only [if_neg whole]

theorem announced_receive {bs : Bytes} (whole : Chunk.length ≤ bs.length) (later : List Token) :
    Bulk.announced (Token.receive Chunk.length (bs.map .byte ++ later)).bytes =
      Bulk.announced bs := by
  rw [Token.receive_take whole, Bulk.announced_take]

theorem announced_silent (bs : Bytes) (times : Nat) :
    Bulk.announced (Token.receive Chunk.length
      (bs.map .byte ++ List.replicate times .silence)).bytes = Bulk.announced bs := by
  by_cases whole : Chunk.length ≤ bs.length
  · exact announced_receive whole _
  · rw [Token.receive_silent (Nat.lt_of_not_le whole)]

theorem tokens_chunks (count : Nat) (bs : Bytes) (later : List Token) :
    bs.map .byte ++ later = (Bulk.chunks count bs).flatten.map .byte ++
      ((bs.drop (Chunk.length * count)).map .byte ++ later) := by
  rw [← List.append_assoc, ← List.map_append, Bulk.chunks_append_drop]

theorem small_total (bs : Bytes) : countLength + Bulk.announced bs < UInt32.size := by
  have small := Bulk.announced_lt bs
  simp only [countLength, UInt16.size, UInt32.size] at small ⊢
  omega

theorem follow_start (buffer : Bytes) (start : Option Progress) {bs : Bytes} {count : Nat}
    (sound : Bulk.SoundStart bs count) (due : count ≤ Bulk.chunkCount (Bulk.announced bs))
    (f : Bytes × Option Progress → Dialogue α) {later : List Token}
    (seen : Bulk.announced (Token.receive Chunk.length (bs.map .byte ++ later)).bytes =
      Bulk.announced bs) :
    (receiveBulk buffer start >>= f).follow listener receiver made (bs.map .byte ++ later) =
      ((receiveMissing start (countLength + Bulk.announced bs)
            (min (countLength + Bulk.announced bs) (Chunk.dataLength * count))
            (((Bulk.chunks count bs).flatMap Chunk.data).take (countLength + Bulk.announced bs))
            (start.map (·.reached
              (min (countLength + Bulk.announced bs) (Chunk.dataLength * count))
              (countLength + Bulk.announced bs))) >>= finish f).follow listener receiver made
        ((bs.drop (Chunk.length * count)).map .byte ++ later)).after
          (chunksActs listener start (countLength + Bulk.announced bs) 0 (Bulk.chunks count bs)) := by
  have fit : 0 + Chunk.dataLength * (Bulk.chunks count bs).length <
      countLength + Bulk.announced bs + Chunk.dataLength := by
    rw [Bulk.length_chunks]
    simp only [Bulk.chunkCount, countLength, Chunk.dataLength] at due ⊢
    omega
  have begun : start.map (·.reached 0 (countLength + Bulk.announced bs)) = start := by
    cases start with
    | none => rfl
    | some start => rw [Option.map_some, start.reached_zero (Bulk.total_pos _)]
  have rest := @follow_chunks α listener receiver made start _ _ (small_total bs) _ sound fit []
    (finish f) ((bs.drop (Chunk.length * count)).map .byte ++ later)
  rw [begun, Bulk.length_chunks] at rest
  rw [follow_receiveBulk, seen, tokens_chunks count bs later, rest]
  simp only [Nat.zero_add, Nat.sub_zero, List.nil_append]

def transferActs (listener : Option String) (start : Option Progress) (data bs : Bytes) :
    List Act :=
  chunksActs listener start (countLength + data.length) 0
    (Bulk.chunks (Bulk.chunkCount data.length) bs) ++ chunkActs [Chunk.endByte]

theorem take_carried {data all : Bytes} {count : UInt16} (carried : wordBytes count ++ data <+: all) :
    (all.take (countLength + data.length)).drop countLength = data := by
  obtain ⟨padding, rfl⟩ := carried
  rw [List.append_assoc, List.drop_take, Nat.add_sub_cancel_left]
  exact List.take_left' rfl

theorem chunkCount_covers (size : Nat) :
    countLength + size ≤ Chunk.dataLength * Bulk.chunkCount size := by
  simp only [Bulk.chunkCount, countLength, Chunk.dataLength]
  omega

theorem more_due {count size : Nat} (more : count < Bulk.chunkCount size) :
    min (countLength + size) (Chunk.dataLength * count) < countLength + size := by
  simp only [Bulk.chunkCount, countLength, Chunk.dataLength] at more ⊢
  omega

theorem getElem?_map_drop {bs : Bytes} {i : Nat} {b : UInt8} (h : bs[i]? = some b)
    (later : List Token) :
    (bs.drop i).map .byte ++ later = .byte b :: ((bs.drop (i + 1)).map .byte ++ later) := by
  obtain ⟨inside, rfl⟩ := List.getElem?_eq_some_iff.1 h
  rw [List.drop_eq_getElem_cons inside, List.map_cons, List.cons_append]

theorem follow_begins (buffer : Bytes) (start : Option Progress) {data bs : Bytes}
    (begins : Bulk.Begins data bs) (f : Bytes × Option Progress → Dialogue α)
    (later : List Token) :
    (receiveBulk buffer start >>= f).follow listener receiver made (bs.map .byte ++ later) =
      ((f (data, start.map (·.reached (countLength + data.length)
          (countLength + data.length)))).follow listener receiver made
        ((bs.drop (Chunk.length * Bulk.chunkCount data.length + 1)).map .byte ++ later)).after
          (transferActs listener start data bs) := by
  have announced := begins.announced_eq
  have some := Bulk.chunkCount_pos data.length
  have whole : Chunk.length ≤ bs.length :=
    Nat.le_trans (Nat.le_mul_of_pos_right _ some) begins.sound.length_le
  have taken := take_carried begins.carried
  rw [follow_start buffer start begins.sound (Nat.le_of_eq (by rw [announced])) f
      (announced_receive whole later),
    announced, Nat.min_eq_left (chunkCount_covers data.length), receiveMissing_done, done_bind,
    finish, taken, getElem?_map_drop begins.ended, follow_end, Passage.after_after, transferActs]

section Projections
variable (chunk : Bytes) (start : Option Progress) (total received : Nat) (chunks : List Bytes)

@[simp] theorem said_chunkActs : Act.said (chunkActs chunk) = [Chunk.acknowledgement] := by
  simp [chunkActs]

@[simp] theorem deliveries_chunkActs : Act.deliveries (chunkActs chunk) = [] := by
  simp [chunkActs]

@[simp] theorem diveRequests_chunkActs : Act.diveRequests (chunkActs chunk) = [] := by
  simp [chunkActs]

@[simp] theorem said_advanceActs : Act.said (advanceActs listener start received total) = [] := by
  cases start <;> simp [advanceActs]

@[simp] theorem deliveries_advanceActs :
    Act.deliveries (advanceActs listener start received total) = [] := by
  cases start <;> simp [advanceActs]

@[simp] theorem diveRequests_advanceActs :
    Act.diveRequests (advanceActs listener start received total) = [] := by
  cases start <;> simp [advanceActs]

@[simp] theorem said_chunksActs :
    Act.said (chunksActs listener start total received chunks) =
      List.replicate chunks.length Chunk.acknowledgement := by
  induction chunks generalizing received with
  | nil => rfl
  | cons chunk later ih => simp [chunksActs, ih, List.replicate_succ]

@[simp] theorem deliveries_chunksActs :
    Act.deliveries (chunksActs listener start total received chunks) = [] := by
  induction chunks generalizing received with
  | nil => rfl
  | cons chunk later ih => simp [chunksActs, ih]

@[simp] theorem diveRequests_chunksActs :
    Act.diveRequests (chunksActs listener start total received chunks) = [] := by
  induction chunks generalizing received with
  | nil => rfl
  | cons chunk later ih => simp [chunksActs, ih]

end Projections

theorem said_transferActs (start : Option Progress) (data bs : Bytes) :
    Act.said (transferActs listener start data bs) =
      List.replicate (Bulk.chunkCount data.length + 1) Chunk.acknowledgement := by
  simp [transferActs, Bulk.length_chunks, List.replicate_succ']

@[simp] theorem deliveries_transferActs (start : Option Progress) (data bs : Bytes) :
    Act.deliveries (transferActs listener start data bs) = [] := by
  simp [transferActs]

@[simp] theorem diveRequests_transferActs (start : Option Progress) (data bs : Bytes) :
    Act.diveRequests (transferActs listener start data bs) = [] := by
  simp [transferActs]

structure Broken (bs : Bytes) (count consumed : Nat) (why : Failure ScriptCall)
    (p : Passage α) : Prop where
  result : p.result = .error why
  acknowledged : Act.said p.acts = List.replicate count Chunk.acknowledgement
  left : Token.data p.left = bs.drop consumed

theorem follow_breaks (buffer : Bytes) (start : Option Progress) {bs : Bytes}
    {count consumed : Nat} {why : Failure ScriptCall} (breaks : Bulk.Breaks bs count consumed why)
    (f : Bytes × Option Progress → Dialogue α) (times : Nat) :
    Broken bs count consumed why ((receiveBulk buffer start >>= f).follow listener receiver made
      (bs.map .byte ++ List.replicate times .silence)) := by
  have seen := announced_silent bs times
  have acknowledged (count : Nat) : Act.said (chunksActs listener start
      (countLength + Bulk.announced bs) 0 (Bulk.chunks count bs)) =
      List.replicate count Chunk.acknowledgement := by
    rw [said_chunksActs, Bulk.length_chunks]
  cases breaks with
  | short sound more short =>
    have rest : (bs.drop (Chunk.length * count)).length < Chunk.length := by
      rw [Nat.mul_succ] at short
      rw [List.length_drop]
      have := sound.length_le
      omega
    rw [follow_start buffer start sound (Nat.le_of_lt more) f seen,
      receiveMissing_bind (more_due more), receiveChunk_bind, follow_short rest, List.length_drop]
    exact ⟨rfl, by simp [acknowledged, Act.went], by simp⟩
  | @corrupt count chunk stored sound more next whole last differs =>
    have rest : (bs.drop (Chunk.length * count)).map .byte ++ List.replicate times .silence =
        chunk.map .byte ++ ((bs.drop (Chunk.length * (count + 1))).map .byte ++
          List.replicate times Token.silence) := by
      rw [← List.append_assoc, ← List.map_append, next, Nat.mul_succ, ← List.drop_drop,
        List.take_append_drop]
    rw [follow_start buffer start sound (Nat.le_of_lt more) f seen,
      receiveMissing_bind (more_due more), rest, follow_corrupt whole last differs]
    exact ⟨rfl, by simp [acknowledged], Token.data_silent ..⟩
  | endless sound length =>
    have rest : bs.drop (Chunk.length * Bulk.chunkCount (Bulk.announced bs)) = [] :=
      List.drop_eq_nil_of_le (Nat.le_of_eq length)
    have short : ([] : Bytes).length < 1 := Nat.zero_lt_one
    rw [follow_start buffer start sound (Nat.le_refl _) f seen,
      Nat.min_eq_left (chunkCount_covers _), receiveMissing_done, done_bind, finish, rest,
      receiveEnd_bind, follow_short short]
    exact ⟨rfl, by simp [acknowledged, Act.went], by simp [Token.data_replicate_silence]⟩
  | badEnd sound next bad =>
    rw [follow_start buffer start sound (Nat.le_refl _) f seen,
      Nat.min_eq_left (chunkCount_covers _), receiveMissing_done, done_bind, finish,
      getElem?_map_drop next, follow_badEnd bad]
    exact ⟨rfl, by simp [acknowledged], Token.data_silent ..⟩

end Exchange

end DiveLink
