import Mathlib.Algebra.Order.Round
import Mathlib.Algebra.Order.Field.Basic
import Mathlib.Data.Rat.Floor
import Mathlib.Tactic.Linarith
import DiveLink.Proofs.Completeness
import DiveLink.Proofs.Windows

set_option autoImplicit false

namespace DiveLink

namespace Progress

def share (received total : Nat) : Nat := (round ((steps * received : ℚ) / total)).toNat

/-- To add half of the total is enough for odd totals too, where that half is rounded down. -/
theorem quotient_nearest {total : Nat} (any : 0 < total) (received : Nat) :
    2 * ((steps * received + total / 2) / total * total) ≤ 2 * (steps * received) + total ∧
      2 * (steps * received) < 2 * ((steps * received + total / 2) / total * total) + total := by
  have lower := Nat.div_mul_le_self (steps * received + total / 2) total
  have upper := Nat.lt_div_mul_add any (a := steps * received + total / 2)
  generalize (steps * received + total / 2) / total * total = product at lower upper ⊢
  omega

theorem share_eq {total : Nat} (any : 0 < total) (received : Nat) :
    share received total = (steps * received + total / 2) / total := by
  obtain ⟨below, above⟩ := quotient_nearest any received
  generalize (steps * received + total / 2) / total = quotient at below above ⊢
  have below' : (2 * (quotient * total) : ℚ) ≤ 2 * (steps * received) + total := by
    exact_mod_cast below
  have above' : (2 * (steps * received) : ℚ) < 2 * (quotient * total) + total := by
    exact_mod_cast above
  have any' : (0 : ℚ) < total := by exact_mod_cast any
  have rounded : round ((steps * received : ℚ) / total) = (quotient : ℤ) := by
    refine round_eq_iff.2 ⟨?_, ?_⟩
    · rw [le_div_iff₀ any']
      push_cast
      linarith
    · rw [div_lt_iff₀ any']
      push_cast
      linarith
  rw [share, rounded, Int.toNat_natCast]

example : share 512 1026 = 499 ∧ share 1 3 = 333 ∧ share 2 3 = 667 := by decide +kernel

theorem share_le {received total : Nat} (any : 0 < total) (fit : received ≤ total) :
    share received total ≤ steps := by
  rw [share_eq any]
  exact quotient_le any fit

theorem share_end {total : Nat} (any : 0 < total) : share total total = steps := by
  rw [share_eq any, quotient_end any]

theorem share_mono {total earlier later : Nat} (any : 0 < total) (order : earlier ≤ later) :
    share earlier total ≤ share later total := by
  rw [share_eq any, share_eq any]
  exact Nat.div_le_div_right (Nat.add_le_add_right (Nat.mul_le_mul_left _ order) _)

/-- What a transfer that begins at `base` tells of so many chunks, one after the other. -/
def ticks (base maximum total count : Nat) : List (Nat × Nat) :=
  (List.range count).map fun i =>
    (base + share (min (Chunk.dataLength * (i + 1)) total) total, maximum)

def ofChunks (base maximum : Nat) (chunks : List Bytes) : List (Nat × Nat) :=
  ticks base maximum (Bulk.total chunks) chunks.length

/-- What the transfers of dives tell, by the windows of their exchanges. The first of them is the
dive with number `first`, the logbook counted as zero. -/
def ofDives (first maximum : Nat) (windows : List (List Act)) : List (Nat × Nat) :=
  (windows.mapIdx fun k window =>
    ofChunks (steps * (first + k)) maximum (Act.acknowledged window)).flatten

/-- What a download tells: of its start, of the logbook and, if that came to its end, of so many
dives. -/
def ofDownload (dives : Option Nat) (windows : List (List Act)) : List (Nat × Nat) :=
  (0, 0) :: ofChunks 0 0 (Act.acknowledged (windows.getD 2 [])) ++
    match dives with
    | none => []
    | some n => (steps, steps * (n + 1)) :: ofDives 1 (steps * (n + 1)) (windows.drop 3)

section Bounds
variable {base maximum total count first : Nat} {chunks : List Bytes} {windows : List (List Act)}

theorem mem_ticks (any : 0 < total) {p : Nat × Nat} (mem : p ∈ ticks base maximum total count) :
    base ≤ p.1 ∧ p.1 ≤ base + steps ∧ p.2 = maximum := by
  obtain ⟨i, -, rfl⟩ := List.mem_map.1 mem
  exact ⟨Nat.le_add_right .., Nat.add_le_add_left (share_le any (Nat.min_le_right ..)) _, rfl⟩

theorem sorted_ticks (any : 0 < total) :
    (ticks base maximum total count).Pairwise fun p q => p.1 ≤ q.1 := by
  refine List.pairwise_map.2 (List.pairwise_lt_range.imp fun {i j} order => ?_)
  have later : min (Chunk.dataLength * (i + 1)) total ≤ min (Chunk.dataLength * (j + 1)) total := by
    simp only [Chunk.dataLength]
    omega
  exact Nat.add_le_add_left (share_mono any later) base

theorem getLast?_ticks (any : 0 < count) (whole : total ≤ Chunk.dataLength * count)
    (some : 0 < total) :
    (ticks base maximum total count).getLast? = .some (base + steps, maximum) := by
  obtain ⟨before, rfl⟩ := Nat.exists_eq_add_of_lt any
  rw [Nat.zero_add] at whole ⊢
  rw [ticks, List.range_succ, List.map_append, List.map_singleton, List.getLast?_concat,
    Nat.min_eq_right whole, share_end some]

theorem ofDives_cons (first maximum : Nat) (window : List Act) (windows : List (List Act)) :
    ofDives first maximum (window :: windows) =
      ofChunks (steps * first) maximum (Act.acknowledged window) ++
        ofDives (first + 1) maximum windows := by
  simp [ofDives, List.mapIdx_cons, Nat.add_assoc, Nat.add_comm 1]

theorem mem_ofDives {p : Nat × Nat} (mem : p ∈ ofDives first maximum windows) :
    steps * first ≤ p.1 ∧ p.1 ≤ steps * (first + windows.length) ∧ p.2 = maximum := by
  induction windows generalizing first with
  | nil => cases mem
  | cons window windows ih =>
    rw [ofDives_cons] at mem
    have step : steps * (first + 1) = steps * first + steps := Nat.mul_succ ..
    have more : steps * (first + 1) ≤ steps * (first + 1 + windows.length) :=
      Nat.mul_le_mul_left _ (Nat.le_add_right ..)
    have count : first + (window :: windows).length = first + 1 + windows.length := by
      rw [List.length_cons]
      omega
    rw [count]
    rcases List.mem_append.1 mem with here | later
    · have h := mem_ticks (Bulk.total_pos _) here
      exact ⟨h.1, by omega, h.2.2⟩
    · have h := ih later
      exact ⟨by omega, h.2.1, h.2.2⟩

theorem sorted_ofDives (first maximum : Nat) (windows : List (List Act)) :
    (ofDives first maximum windows).Pairwise fun p q => p.1 ≤ q.1 := by
  induction windows generalizing first with
  | nil => exact .nil
  | cons window windows ih =>
    rw [ofDives_cons]
    refine List.pairwise_append.2 ⟨sorted_ticks (Bulk.total_pos _), ih _, ?_⟩
    intro p here q later
    have before := mem_ticks (Bulk.total_pos _) here
    have behind := mem_ofDives later
    have step : steps * (first + 1) = steps * first + steps := Nat.mul_succ ..
    omega

theorem sorted_ofDownload (dives : Option Nat) (windows : List (List Act)) :
    (ofDownload dives windows).Pairwise fun p q => p.1 ≤ q.1 := by
  refine List.pairwise_cons.2 ⟨fun _ _ => Nat.zero_le _, ?_⟩
  refine List.pairwise_append.2 ⟨sorted_ticks (Bulk.total_pos _), ?_, ?_⟩
  · cases dives with
    | none => exact .nil
    | some n =>
      refine List.pairwise_cons.2 ⟨fun q mem => ?_, sorted_ofDives ..⟩
      exact (mem_ofDives mem).1
  · intro p logbook q later
    have before := (mem_ticks (Bulk.total_pos _) logbook).2.1
    rw [Nat.zero_add] at before
    cases dives with
    | none => cases later
    | some n =>
      rcases List.mem_cons.1 later with rfl | later
      · exact before
      · exact Nat.le_trans before (mem_ofDives later).1

theorem bounded_ofDownload {dives : Option Nat} {windows : List (List Act)}
    (few : ∀ n ∈ dives, windows.length ≤ n + 3) :
    ∀ p ∈ ofDownload dives windows, p.2 ≠ 0 → p.1 ≤ p.2 := by
  intro p mem known
  rcases List.mem_cons.1 mem with rfl | mem
  · exact absurd rfl known
  rcases List.mem_append.1 mem with logbook | later
  · exact absurd (mem_ticks (Bulk.total_pos _) logbook).2.2 known
  cases dives with
  | none => cases later
  | some n =>
    rcases List.mem_cons.1 later with rfl | later
    · exact Nat.mul_le_mul_left steps (Nat.le_add_left 1 n)
    · obtain ⟨-, most, maximum⟩ := mem_ofDives later
      have count := few n rfl
      rw [maximum]
      refine Nat.le_trans most (Nat.mul_le_mul_left steps ?_)
      rw [List.length_drop]
      omega

end Bounds

end Progress

namespace Exchange
open Dialogue

variable {command : Command} {start : Progress} {name : String} {seen window : List Act}

theorem numbers_reached (room : start.HasRoom) {received total : Nat} (any : 0 < total)
    (fit : received ≤ total) : (start.reached received total).numbers =
      (start.current.toNat + Progress.share received total, start.maximum.toNat) := by
  rw [Progress.numbers, Progress.toNat_reached room any fit, Progress.share_eq any]
  rfl

theorem progress_advanceActs (room : start.HasRoom) {received total : Nat} (any : 0 < total)
    (fit : received ≤ total) :
    Act.progress (advanceActs (some name) (some start) received total) =
      [(start.current.toNat + Progress.share received total, start.maximum.toNat)] := by
  rw [← numbers_reached room any fit]
  rfl

theorem progress_chunksActs (room : start.HasRoom) {total : Nat} (any : 0 < total)
    (all : List Bytes) (before : Nat) :
    Act.progress (chunksActs (some name) (some start) total
        (min (Chunk.dataLength * before) total) all) =
      (List.range' before all.length).map fun i =>
        (start.current.toNat + Progress.share (min (Chunk.dataLength * (i + 1)) total) total,
          start.maximum.toNat) := by
  induction all generalizing before with
  | nil => rfl
  | cons chunk later ih =>
    have next : min (Chunk.dataLength * before) total +
        min (total - min (Chunk.dataLength * before) total) Chunk.dataLength =
          min (Chunk.dataLength * (before + 1)) total := by
      simp only [Chunk.dataLength]
      omega
    have told := @progress_advanceActs _ name room _ _ any
      (Nat.min_le_right (Chunk.dataLength * (before + 1)) total)
    rw [chunksActs, next, List.length_cons, List.range'_succ, List.map_cons, ← ih (before + 1)]
    simp [told]

theorem progress_transfer (room : start.HasRoom) (all : List Bytes) :
    Act.progress (chunksActs (some name) (some start) (Bulk.total all) 0 all) =
      Progress.ofChunks start.current.toNat start.maximum.toNat all := by
  have any : 0 < Bulk.total all := Bulk.total_pos _
  have h := @progress_chunksActs start name room _ any all 0
  rwa [Nat.mul_zero, Nat.zero_min, ← List.range_eq_range'] at h

/-- The acts of an exchange behind its command: they tell of each acknowledged chunk, and deliver
nothing. -/
structure Told (start : Progress) (window : List Act) : Prop where
  inside : Act.Inside window
  told : Act.progress window =
    Progress.ofChunks start.current.toNat start.maximum.toNat (Act.acknowledged window)
  undelivered : Act.deliveries window = []

theorem Told.exchange (told : Told start window) (command : Command) (ms taken : Nat)
    (failed : Bool) :
    Act.deliveries (.paused ms :: .sent command.wire taken failed :: window) = [] :=
  told.undelivered

theorem told_nothing (inside : Act.Inside window) (progress : Act.progress window = [])
    (said : Act.said window = []) (undelivered : Act.deliveries window = []) :
    Told start window where
  inside := inside
  told := by rw [progress, Act.acknowledged, said]; rfl
  undelivered := undelivered

theorem Told.silent (told : Told start window) (said : Act.said window = []) :
    Act.progress window = [] := by
  rw [told.told, Act.acknowledged, said]
  rfl

/-- What is done when no command follows: at most there is the pause before it. -/
structure Idle (seen : List Act) : Prop extends Act.Still seen where
  untold : Act.progress seen = []
  undelivered : Act.deliveries seen = []

theorem idle_nil : Idle [] := ⟨Act.still_nil, rfl, rfl⟩

theorem idle_paused (ms : Nat) : Idle [.paused ms] :=
  ⟨⟨Act.inside_singleton rfl, rfl, rfl⟩, rfl, rfl⟩

theorem told_unanswered (start : Progress) (unanswered : Unanswered command seen) :
    Idle seen ∨ ∃ taken failed window, seen =
        .paused Timing.beforePacket :: .sent command.wire taken failed :: window ∧
      Told start window ∧ Act.said window = [] := by
  cases unanswered with
  | unasked => exact .inl idle_nil
  | paused => exact .inl (idle_paused _)
  | sending => exact .inr ⟨_, _, [], rfl, told_nothing nofun rfl rfl rfl, rfl⟩
  | header =>
    rw [command.sending_wire]
    exact .inr ⟨_, _, _, rfl, told_nothing (Act.inside_singleton rfl) rfl rfl rfl, rfl⟩
  | @rest header bs length failed =>
    rw [command.sending_wire]
    have said : Act.said (Act.reception header ++
        [.received (length + (Packet.overhead - Packet.headerLength)) bs failed]) = [] := by
      simp [Act.went]
    refine .inr ⟨_, _, _, rfl, told_nothing ?_ ?_ said ?_, said⟩
    · exact Act.inside_append.2 ⟨Act.inside_reception _, Act.inside_singleton rfl⟩
    · simp [Act.progress?]
    · simp [Act.delivery?]

def transferWindow (name : String) (start : Progress) (code : UInt8) (payload : Bytes)
    (chunks : List Bytes) (tail : List Act) : List Act :=
  packetActs (Packet.wire code payload) ++
    (chunksActs (some name) (some start) (Bulk.total chunks) 0 chunks ++ tail)

section Transfers
variable {code : UInt8} {payload : Bytes} {chunks : List Bytes} {tail : List Act}

theorem chunks_transferWindow (fit : payload.length ≤ Packet.maxPayload)
    (sound : ∀ chunk ∈ chunks, Chunk.Sound chunk) :
    Act.chunks (transferWindow name start code payload chunks tail) =
      chunks ++ Act.chunks tail := by
  simp [transferWindow, chunks_packetActs fit, chunks_chunksActs sound]

theorem said_transferWindow : Act.said (transferWindow name start code payload chunks tail) =
    List.replicate chunks.length Chunk.acknowledgement ++ Act.said tail := by
  simp [transferWindow, said_packetActs]

theorem acknowledged_transferWindow (fit : payload.length ≤ Packet.maxPayload)
    (sound : ∀ chunk ∈ chunks, Chunk.Sound chunk)
    (other : Act.said tail = [] ∨ Act.chunks tail = []) :
    Act.acknowledged (transferWindow name start code payload chunks tail) = chunks := by
  rw [Act.acknowledged, chunks_transferWindow fit sound, said_transferWindow, List.length_append,
    List.length_replicate]
  rcases other with none | none
  · rw [none, List.length_nil, Nat.add_zero]
    exact List.take_left
  · rw [none, List.append_nil]
    exact List.take_of_length_le (Nat.le_add_right ..)

theorem told_transferWindow (room : start.HasRoom) (fit : payload.length ≤ Packet.maxPayload)
    (sound : ∀ chunk ∈ chunks, Chunk.Sound chunk) (inside : Act.Inside tail)
    (progress : Act.progress tail = []) (undelivered : Act.deliveries tail = [])
    (other : Act.said tail = [] ∨ Act.chunks tail = []) :
    Told start (transferWindow name start code payload chunks tail) where
  inside := Act.inside_append.2 ⟨inside_packetActs _,
    Act.inside_append.2 ⟨inside_chunksActs _ _ _ _ _, inside⟩⟩
  told := by
    rw [acknowledged_transferWindow fit sound other]
    simp [transferWindow, progress_transfer room, progress]
  undelivered := by simp [transferWindow, packetActs, undelivered]

theorem told_unfinished (room : start.HasRoom) (fit : payload.length ≤ Packet.maxPayload)
    (sound : ∀ chunk ∈ chunks, Chunk.Sound chunk) (unfinished : Unfinished chunks tail true) :
    Told start (transferWindow name start code payload chunks tail) ∧ Act.said tail = [] := by
  have still : Act.Inside tail ∧ Act.progress tail = [] ∧ Act.deliveries tail = [] ∧
      Act.said tail = [] := by
    cases unfinished with
    | chunk | ending => exact ⟨Act.inside_singleton rfl, rfl, rfl, rfl⟩
    | unacknowledged | endUnacknowledged =>
      refine ⟨Act.inside_append.2 ⟨Act.inside_reception _, Act.inside_singleton rfl⟩, ?_⟩
      simp [Act.progress?, Act.delivery?, Act.went]
  obtain ⟨inside, progress, undelivered, said⟩ := still
  exact ⟨told_transferWindow room fit sound inside progress undelivered (.inl said), said⟩

end Transfers

theorem told_interrupted (room : start.HasRoom)
    (interrupted : Interrupted (some name) command start seen true) :
    Idle seen ∨ ∃ taken failed window, seen =
        .paused Timing.beforePacket :: .sent command.wire taken failed :: window ∧
      Told start window ∧ (Act.said window).length ≤ Bulk.due (Act.chunks window) := by
  cases interrupted with
  | unanswered unanswered =>
    rcases told_unanswered start unanswered with idle | ⟨taken, failed, window, rfl, told, said⟩
    · exact .inl idle
    · exact .inr ⟨taken, failed, window, rfl, told, by simp [said]⟩
  | @unfinished code payload chunks tail _ fit sound due unfinished =>
    obtain ⟨told, said⟩ : Told start (transferWindow name start code payload chunks tail) ∧ _ :=
      told_unfinished room fit sound unfinished
    rw [askActs_cons]
    refine .inr ⟨_, _, transferWindow name start code payload chunks tail, rfl, told, ?_⟩
    rw [said_transferWindow, chunks_transferWindow fit sound, said, List.append_nil,
      List.length_replicate]
    by_cases any : chunks = []
    · simp [any]
    · rwa [due_append any]

theorem course_askBulk_error {receiver : Receiver} {made : List Delivery} (room : start.HasRoom)
    {buffer : Bytes} {why : Failure ScriptCall}
    (course : (askBulk command buffer start).Course (some name) receiver made seen (.error why)) :
    Idle seen ∨ ∃ taken failed window, seen =
        .paused Timing.beforePacket :: .sent command.wire taken failed :: window ∧
      Told start window ∧ (Act.said window).length ≤ Bulk.due (Act.chunks window) := by
  have incomplete : ∀ a, some (.error why) ≠
      some (.ok a : Except (Failure ScriptCall) (Bytes × Progress)) := nofun
  exact told_interrupted room (partway_askBulk incomplete course.partway)

/-- A complete exchange: each chunk and the end byte are acknowledged, and all steps are told. -/
structure Whole (start : Progress) (window : List Act) : Prop extends Told start window where
  last : (Act.progress window).getLast? =
    some (start.current.toNat + Progress.steps, start.maximum.toNat)
  any : Act.chunks window ≠ []
  more : Bulk.due (Act.chunks window) < (Act.said window).length

theorem whole_askBulk (room : start.HasRoom) {code : UInt8} {payload data bs : Bytes}
    (fit : payload.length ≤ Packet.maxPayload) (carries : Bulk.Carries data bs) :
    ∃ window, askBulkActs (some name) command start (Packet.wire code payload) data bs =
        .paused Timing.beforePacket :: .sent command.wire command.wire.length false :: window ∧
      Whole start window := by
  have sound : ∀ chunk ∈ Bulk.chunks (Bulk.chunkCount data.length) bs, Chunk.Sound chunk :=
    carries.sound
  have count := Bulk.length_chunks (Bulk.chunkCount data.length) bs
  have due := carries.due_eq
  have total := carries.total_eq
  have acts : askBulkActs (some name) command start (Packet.wire code payload) data bs =
      .paused Timing.beforePacket :: .sent command.wire command.wire.length false ::
        transferWindow name start code payload (Bulk.chunks (Bulk.chunkCount data.length) bs)
          (chunkActs [Chunk.endByte]) := by
    rw [askBulkActs, transferActs, ← total, askActs_cons]
    rfl
  generalize Bulk.chunks (Bulk.chunkCount data.length) bs = chunks at sound count due total acts
  have any : 0 < chunks.length := count ▸ Bulk.chunkCount_pos _
  have none : Act.chunks (chunkActs [Chunk.endByte]) = [] := by decide
  have told : Told start
      (transferWindow name start code payload chunks (chunkActs [Chunk.endByte])) :=
    told_transferWindow room fit sound (inside_chunkActs _) (progress_chunkActs _)
      (deliveries_chunkActs _) (.inr none)
  have arrived : Act.chunks (transferWindow name start code payload chunks
      (chunkActs [Chunk.endByte])) = chunks := by
    rw [chunks_transferWindow fit sound, none, List.append_nil]
  refine ⟨_, acts, told, ?_, ?_, ?_⟩
  · have whole : Bulk.total chunks ≤ Chunk.dataLength * chunks.length := by
      rw [total, count]
      exact chunkCount_covers _
    rw [told.told, acknowledged_transferWindow fit sound (.inr none)]
    exact Progress.getLast?_ticks any whole (Bulk.total_pos _)
  · rw [arrived]
    exact List.length_pos_iff.1 any
  · rw [arrived, said_transferWindow, due, ← count]
    simp

end Exchange

end DiveLink
