import Mathlib.Data.List.Basic
import DiveLink.Exchange
import DiveLink.Failure
import DiveLink.Logbook
import DiveLink.Proofs.PacketFormat
import DiveLink.Script

set_option autoImplicit false

namespace DiveLink

open Logbook (pieces)

namespace Chunk

theorem length_pos : 0 < length := by decide

theorem dataLength_pos : 0 < dataLength := by decide

def data (chunk : Bytes) : Bytes := (chunk.drop leadLength).take dataLength

/-- What its checksum demands of a chunk. Its first three bytes may be anything. -/
structure Sound (chunk : Bytes) : Prop where
  length : chunk.length = Chunk.length
  checksum : chunk.drop (leadLength + dataLength) = wordBytes (Checksum.compute (data chunk))

instance (chunk : Bytes) : Decidable (Sound chunk) :=
  decidable_of_iff (chunk.length = length ∧
      chunk.drop (leadLength + dataLength) = wordBytes (Checksum.compute (data chunk)))
    ⟨fun h => ⟨h.1, h.2⟩, fun h => ⟨h.length, h.checksum⟩⟩

theorem length_data {chunk : Bytes} (whole : chunk.length = length) :
    (data chunk).length = dataLength := by
  simp only [data, List.length_take, List.length_drop, whole, length, leadLength, dataLength]
  omega

theorem decode_stored {chunk : Bytes} {stored : UInt16} (whole : chunk.length = length)
    (last : chunk.drop (leadLength + dataLength) = wordBytes stored) :
    decode chunk =
      if stored = Checksum.compute (data chunk) then .ok (data chunk)
      else .error (.checksum stored (Checksum.compute (data chunk))) := by
  have front : Bytes.slice? leadLength (leadLength + dataLength) chunk = some (data chunk) := by
    refine Bytes.slice?_eq_some_iff.2 ⟨by omega, ?_, ?_⟩
    · simp only [whole, length]
      omega
    · rw [data, Nat.add_sub_cancel_left]
  have rear : Bytes.slice? (leadLength + dataLength) length chunk = some (wordBytes stored) := by
    refine Bytes.slice?_eq_some_iff.2 ⟨by simp only [length]; omega, by omega, ?_⟩
    rw [last]
    rfl
  simp only [decode, front, rear, within, bind, Except.bind, Checksum.verify,
    Checksum.read_wordBytes]
  by_cases sound : stored = Checksum.compute (data chunk)
  · rw [if_pos sound, if_pos sound]
  · rw [if_neg sound, if_neg sound]

theorem decode_sound {chunk : Bytes} (sound : Sound chunk) : decode chunk = .ok (data chunk) := by
  rw [decode_stored sound.length sound.checksum, if_pos rfl]

def wire (lead data : Bytes) : Bytes := lead ++ data ++ wordBytes (Checksum.compute data)

theorem data_wire {lead data : Bytes} (front : lead.length = leadLength)
    (full : data.length = dataLength) : Chunk.data (wire lead data) = data := by
  rw [Chunk.data, wire, List.append_assoc, List.drop_left' front, List.take_left' full]

theorem sound_wire {lead data : Bytes} (front : lead.length = leadLength)
    (full : data.length = dataLength) : Sound (wire lead data) where
  length := by
    simp only [wire, List.length_append, front, full, length_wordBytes]
    rfl
  checksum := by
    rw [data_wire front full, wire]
    exact List.drop_left' (by rw [List.length_append, front, full])

theorem exists_stored {chunk : Bytes} (whole : chunk.length = length) :
    ∃ stored, chunk.drop (leadLength + dataLength) = wordBytes stored := by
  have two : (chunk.drop (leadLength + dataLength)).length = 2 := by
    rw [List.length_drop, whole]
    rfl
  obtain ⟨low, high, h⟩ := List.length_eq_two.1 two
  exact ⟨word low high, by rw [h, wordBytes_word]⟩

theorem sound_of_decode {chunk found : Bytes} (whole : chunk.length = length)
    (decoded : decode chunk = .ok found) : Sound chunk ∧ found = data chunk := by
  obtain ⟨stored, last⟩ := exists_stored whole
  rw [decode_stored whole last] at decoded
  by_cases agree : stored = Checksum.compute (data chunk)
  · rw [if_pos agree] at decoded
    exact ⟨⟨whole, agree ▸ last⟩, (Except.ok.inj decoded).symm⟩
  · rw [if_neg agree] at decoded
    cases decoded

end Chunk

namespace Bulk
open Exchange (countLength)

/-- The number of chunks that carry so many bytes and the count in front of them. -/
def chunkCount (size : Nat) : Nat := (size + countLength + (Chunk.dataLength - 1)) / Chunk.dataLength

/-- The count that the first chunk of some bytes announces. -/
def announced (bs : Bytes) : Nat :=
  ((Bytes.word? (bs.drop Chunk.leadLength)).map UInt16.toNat).getD 0

def chunks (count : Nat) (bs : Bytes) : List Bytes := pieces Chunk.length count bs

def SoundStart (bs : Bytes) (count : Nat) : Prop := ∀ chunk ∈ chunks count bs, Chunk.Sound chunk

/-- Some bytes begin with a bulk transfer of some data: sound chunks that carry a count of
the data and the data itself, perhaps with something behind it, and then the end byte. -/
structure Begins (data bs : Bytes) : Prop where
  size : data.length < UInt16.size
  sound : SoundStart bs (chunkCount data.length)
  carried : wordBytes (.ofNat data.length) ++ data <+:
    (chunks (chunkCount data.length) bs).flatMap Chunk.data
  ended : bs[Chunk.length * chunkCount data.length]? = some Chunk.endByte

structure Carries (data bs : Bytes) : Prop extends Begins data bs where
  length : bs.length = Chunk.length * chunkCount data.length + 1

/-- Some bytes break the format after so many sound chunks, which shows when so many bytes
are read. -/
inductive Breaks (bs : Bytes) : Nat → Nat → Failure ScriptCall → Prop
  | short {count : Nat} (start : SoundStart bs count) (more : count < chunkCount (announced bs))
    (short : bs.length < Chunk.length * (count + 1)) :
    Breaks bs count bs.length (.timeout Chunk.length (bs.length - Chunk.length * count))
  | corrupt {count : Nat} {chunk : Bytes} {stored : UInt16} (start : SoundStart bs count)
    (more : count < chunkCount (announced bs))
    (next : chunk = (bs.drop (Chunk.length * count)).take Chunk.length)
    (whole : chunk.length = Chunk.length)
    (last : chunk.drop (Chunk.leadLength + Chunk.dataLength) = wordBytes stored)
    (differs : stored ≠ Checksum.compute (Chunk.data chunk)) :
    Breaks bs count (Chunk.length * (count + 1))
      (.refused (.checksum stored (Checksum.compute (Chunk.data chunk))))
  | endless (start : SoundStart bs (chunkCount (announced bs)))
    (length : bs.length = Chunk.length * chunkCount (announced bs)) :
    Breaks bs (chunkCount (announced bs)) bs.length (.timeout 1 0)
  | badEnd {b : UInt8} (start : SoundStart bs (chunkCount (announced bs)))
    (next : bs[Chunk.length * chunkCount (announced bs)]? = some b) (bad : b ≠ Chunk.endByte) :
    Breaks bs (chunkCount (announced bs)) (Chunk.length * chunkCount (announced bs) + 1)
      (.refused (.endByte b))

theorem total_pos (size : Nat) : 0 < countLength + size := Nat.add_pos_left (by decide) size

theorem chunkCount_pos (size : Nat) : 0 < chunkCount size := by
  simp only [chunkCount, countLength, Chunk.dataLength]
  omega

theorem chunks_succ (count : Nat) (bs : Bytes) :
    chunks (count + 1) bs = bs.take Chunk.length :: chunks count (bs.drop Chunk.length) := rfl

theorem chunks_snoc (count : Nat) (bs : Bytes) :
    chunks (count + 1) bs =
      chunks count bs ++ [(bs.drop (Chunk.length * count)).take Chunk.length] := by
  induction count generalizing bs with
  | zero => rfl
  | succ count ih =>
    rw [chunks_succ, ih, chunks_succ, List.drop_drop, Nat.mul_succ, Nat.add_comm (_ * _)]
    rfl

theorem length_chunks (count : Nat) (bs : Bytes) : (chunks count bs).length = count :=
  Logbook.length_pieces ..

theorem soundStart_zero (bs : Bytes) : SoundStart bs 0 := fun _ h => nomatch h

theorem soundStart_snoc {bs : Bytes} {count : Nat} : SoundStart bs (count + 1) ↔
    SoundStart bs count ∧ Chunk.Sound ((bs.drop (Chunk.length * count)).take Chunk.length) := by
  simp only [SoundStart, chunks_snoc, List.mem_append, List.mem_singleton, or_imp, forall_and,
    forall_eq]

theorem SoundStart.length_le {bs : Bytes} {count : Nat} (start : SoundStart bs count) :
    Chunk.length * count ≤ bs.length := by
  cases count with
  | zero => simp
  | succ count =>
    have last := (soundStart_snoc.1 start).2.length
    rw [List.length_take, List.length_drop] at last
    have some := Chunk.length_pos
    rw [Nat.mul_succ]
    omega

theorem length_flatten_sound {all : List Bytes} (sound : ∀ chunk ∈ all, Chunk.Sound chunk) :
    all.flatten.length = Chunk.length * all.length := by
  induction all with
  | nil => rfl
  | cons chunk later ih =>
    rw [List.flatten_cons, List.length_append, (sound chunk List.mem_cons_self).length,
      ih fun c hc => sound c (List.mem_cons_of_mem _ hc), List.length_cons, Nat.mul_succ,
      Nat.add_comm]

theorem flatten_pieces (size count : Nat) (bs : Bytes) :
    (pieces size count bs).flatten = bs.take (size * count) := by
  induction count generalizing bs with
  | zero => rfl
  | succ count ih => rw [pieces, List.flatten_cons, ih, Nat.mul_succ, Nat.add_comm, List.take_add]

theorem chunks_append_drop (count : Nat) (bs : Bytes) :
    (chunks count bs).flatten ++ bs.drop (Chunk.length * count) = bs := by
  rw [chunks, flatten_pieces, List.take_append_drop]

theorem length_flatMap_data {chunks : List Bytes} (sound : ∀ chunk ∈ chunks, Chunk.Sound chunk) :
    (chunks.flatMap Chunk.data).length = Chunk.dataLength * chunks.length := by
  induction chunks with
  | nil => rfl
  | cons chunk later ih =>
    have first := Chunk.length_data (sound chunk List.mem_cons_self).length
    have rest := ih fun c hc => sound c (List.mem_cons_of_mem _ hc)
    rw [List.flatMap_cons, List.length_append, first, rest, List.length_cons, Nat.mul_succ,
      Nat.add_comm]

theorem word?_first {bs : Bytes} (whole : Chunk.length ≤ bs.length) :
    Bytes.word? (Chunk.data bs) = some (.ofNat (announced bs)) := by
  simp only [Chunk.length, Chunk.leadLength, Chunk.dataLength] at whole
  match bs, whole with
  | _ :: _ :: _ :: low :: high :: more, _ =>
    simp [Chunk.data, announced, Chunk.leadLength, Chunk.dataLength, Bytes.word?]
  | [], whole | [_], whole | [_, _], whole | [_, _, _], whole | [_, _, _, _], whole =>
    simp only [List.length_cons, List.length_nil] at whole
    omega

theorem data_take (bs : Bytes) : Chunk.data (bs.take Chunk.length) = Chunk.data bs := by
  rw [Chunk.data, Chunk.data, List.drop_take, List.take_take]
  rfl

theorem announced_take (bs : Bytes) : announced (bs.take Chunk.length) = announced bs := by
  rw [announced, announced, List.drop_take]
  match bs.drop Chunk.leadLength with
  | [] | [_] | _ :: _ :: _ => rfl

theorem word?_data {bs : Bytes} {count : Nat} (start : SoundStart bs count) (any : 0 < count) :
    Bytes.word? ((chunks count bs).flatMap Chunk.data) = some (.ofNat (announced bs)) := by
  obtain ⟨later, rfl⟩ := Nat.exists_eq_add_of_lt any
  have whole := start.length_le
  rw [Nat.zero_add, Nat.mul_succ] at whole
  have first := @word?_first bs (by omega)
  rw [Nat.zero_add, chunks_succ, List.flatMap_cons, data_take]
  match Chunk.data bs, first with
  | _ :: _ :: _, first => exact first

theorem length_mem_pieces {size count : Nat} {bs piece : Bytes} (room : size * count ≤ bs.length)
    (mem : piece ∈ pieces size count bs) : piece.length = size := by
  induction count generalizing bs with
  | zero => cases mem
  | succ count ih =>
    rw [Nat.mul_succ] at room
    rcases List.mem_cons.1 mem with rfl | mem
    · rw [List.length_take]
      omega
    · refine ih ?_ mem
      rw [List.length_drop]
      omega

theorem chunks_flatten_append {all : List Bytes} (sound : ∀ chunk ∈ all, Chunk.Sound chunk)
    (rest : Bytes) : chunks all.length (all.flatten ++ rest) = all := by
  induction all with
  | nil => rfl
  | cons chunk later ih =>
    have first := (sound chunk List.mem_cons_self).length
    rw [List.length_cons, chunks_succ, List.flatten_cons, List.append_assoc,
      List.take_left' first, List.drop_left' first,
      ih fun c hc => sound c (List.mem_cons_of_mem _ hc)]

theorem announced_lt (bs : Bytes) : announced bs < UInt16.size := by
  unfold announced
  cases Bytes.word? (bs.drop Chunk.leadLength) with
  | none => decide
  | some w => exact w.toNat_lt

theorem Begins.announced_eq {data bs : Bytes} (begins : Begins data bs) :
    announced bs = data.length := by
  obtain ⟨padding, carried⟩ := begins.carried
  have count := word?_data begins.sound (chunkCount_pos _)
  rw [← carried, List.append_assoc, word?_wordBytes_append] at count
  have number := congrArg UInt16.toNat (Option.some.inj count)
  have size := begins.size
  have small := announced_lt bs
  rw [UInt16.toNat_ofNat', UInt16.toNat_ofNat'] at number
  simp only [UInt16.size] at size small
  omega

theorem le_length_data {bs : Bytes} {size : Nat} (sound : SoundStart bs (chunkCount size)) :
    countLength + size ≤ ((chunks (chunkCount size) bs).flatMap Chunk.data).length := by
  rw [length_flatMap_data sound, length_chunks]
  simp only [chunkCount, countLength, Chunk.dataLength]
  omega

def content (bs : Bytes) : Bytes :=
  (((chunks (chunkCount (announced bs)) bs).flatMap Chunk.data).drop countLength).take (announced bs)

theorem begins_content {bs : Bytes} (sound : SoundStart bs (chunkCount (announced bs)))
    (ended : bs[Chunk.length * chunkCount (announced bs)]? = some Chunk.endByte) :
    Begins (content bs) bs := by
  have room := le_length_data sound
  have size : (content bs).length = announced bs := by
    rw [content, List.length_take, List.length_drop]
    omega
  have count := word?_data sound (chunkCount_pos _)
  refine ⟨by rw [size]; exact announced_lt bs, by rwa [size], ?_, by rwa [size]⟩
  rw [size, content]
  generalize (chunks (chunkCount (announced bs)) bs).flatMap Chunk.data = all at room count
  match all, count with
  | low :: high :: rest, count =>
    have number : word low high = .ofNat (announced bs) := Option.some.inj count
    rw [← number, wordBytes_word]
    exact List.prefix_append_right_inj [low, high] |>.2 (List.take_prefix _ _)

def wire (parts : List (Bytes × Bytes)) : Bytes :=
  (parts.map fun part => Chunk.wire part.1 part.2).flatten ++ [Chunk.endByte]

theorem carries_wire {data : Bytes} {parts : List (Bytes × Bytes)} (size : data.length < UInt16.size)
    (count : parts.length = chunkCount data.length)
    (leads : ∀ part ∈ parts, part.1.length = Chunk.leadLength)
    (full : ∀ part ∈ parts, part.2.length = Chunk.dataLength)
    (carried : wordBytes (.ofNat data.length) ++ data <+: parts.flatMap (·.2)) :
    Carries data (wire parts) := by
  have sound : ∀ chunk ∈ parts.map fun part => Chunk.wire part.1 part.2, Chunk.Sound chunk := by
    intro chunk mem
    obtain ⟨part, inside, rfl⟩ := List.mem_map.1 mem
    exact Chunk.sound_wire (leads part inside) (full part inside)
  have split : chunks (chunkCount data.length) (wire parts) =
      parts.map fun part => Chunk.wire part.1 part.2 := by
    have h := chunks_flatten_append sound [Chunk.endByte]
    rwa [List.length_map, count] at h
  have datas : (parts.map fun part => Chunk.wire part.1 part.2).flatMap Chunk.data =
      parts.flatMap (·.2) := by
    rw [List.flatMap_map]
    exact List.flatMap_congr fun part mem => Chunk.data_wire (leads part mem) (full part mem)
  have length := length_flatten_sound sound
  rw [List.length_map, count] at length
  refine ⟨⟨size, ?_, ?_, ?_⟩, ?_⟩
  · rw [SoundStart, split]
    exact sound
  · rwa [split, datas]
  · rw [wire, List.getElem?_append_right (Nat.le_of_eq length), length, Nat.sub_self]
    rfl
  · rw [wire, List.length_append, length]
    rfl

def parts (data : Bytes) : List (Bytes × Bytes) :=
  (pieces Chunk.dataLength (chunkCount data.length)
    (wordBytes (.ofNat data.length) ++ data ++ List.replicate Chunk.dataLength 0)).map
      (List.replicate Chunk.leadLength 0, ·)

theorem carries_parts {data : Bytes} (size : data.length < UInt16.size) :
    Carries data (wire (parts data)) := by
  have length : (wordBytes (.ofNat data.length) ++ data).length = countLength + data.length := by
    rw [List.length_append]
    rfl
  have covered : countLength + data.length ≤ Chunk.dataLength * chunkCount data.length ∧
      Chunk.dataLength * chunkCount data.length ≤
        countLength + data.length + Chunk.dataLength := by
    simp only [chunkCount, countLength, Chunk.dataLength]
    omega
  refine carries_wire size (by rw [parts, List.length_map, Logbook.length_pieces]) ?_ ?_ ?_
  · intro part mem
    obtain ⟨piece, -, rfl⟩ := List.mem_map.1 mem
    exact List.length_replicate
  · intro part mem
    obtain ⟨piece, inside, rfl⟩ := List.mem_map.1 mem
    refine length_mem_pieces ?_ inside
    rw [List.length_append, length, List.length_replicate]
    exact covered.2
  · rw [parts, List.flatMap_map, List.flatMap_id', flatten_pieces, List.take_append,
      List.take_of_length_le (length.symm ▸ covered.1)]
    exact List.prefix_append _ _

theorem soundStart_or (bs : Bytes) (count : Nat) :
    SoundStart bs count ∨ ∃ sound < count, SoundStart bs sound ∧
      ¬ Chunk.Sound ((bs.drop (Chunk.length * sound)).take Chunk.length) := by
  induction count with
  | zero => exact .inl (soundStart_zero bs)
  | succ count ih =>
    rcases ih with start | ⟨sound, less, start, broken⟩
    · by_cases next : Chunk.Sound ((bs.drop (Chunk.length * count)).take Chunk.length)
      · exact .inl (soundStart_snoc.2 ⟨start, next⟩)
      · exact .inr ⟨count, Nat.lt_succ_self count, start, next⟩
    · exact .inr ⟨sound, Nat.lt_succ_of_lt less, start, broken⟩

theorem breaks_of_unsound {bs : Bytes} {count : Nat} (start : SoundStart bs count)
    (more : count < chunkCount (announced bs))
    (broken : ¬ Chunk.Sound ((bs.drop (Chunk.length * count)).take Chunk.length)) :
    ∃ consumed why, Breaks bs count consumed why := by
  by_cases whole : ((bs.drop (Chunk.length * count)).take Chunk.length).length = Chunk.length
  · obtain ⟨stored, last⟩ := Chunk.exists_stored whole
    have differs : stored ≠
        Checksum.compute (Chunk.data ((bs.drop (Chunk.length * count)).take Chunk.length)) := by
      rintro rfl
      exact broken ⟨whole, last⟩
    exact ⟨_, _, .corrupt start more rfl whole last differs⟩
  · rw [List.length_take, List.length_drop] at whole
    have present := start.length_le
    exact ⟨_, _, .short start more (by rw [Nat.mul_succ]; omega)⟩

theorem begins_or_breaks (bs : Bytes) :
    (∃ data, Begins data bs) ∨ ∃ count consumed why, Breaks bs count consumed why := by
  rcases soundStart_or bs (chunkCount (announced bs)) with sound | ⟨count, more, start, broken⟩
  · cases ended : bs[Chunk.length * chunkCount (announced bs)]? with
    | none =>
      have short := List.getElem?_eq_none_iff.1 ended
      exact .inr ⟨_, _, _, .endless sound (Nat.le_antisymm short sound.length_le)⟩
    | some b =>
      by_cases good : b = Chunk.endByte
      · exact .inl ⟨_, begins_content sound (good ▸ ended)⟩
      · exact .inr ⟨_, _, _, .badEnd sound ended good⟩
  · exact .inr ⟨count, breaks_of_unsound start more broken⟩

end Bulk

end DiveLink
