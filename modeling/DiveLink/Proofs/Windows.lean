import Mathlib.Data.List.DropRight
import DiveLink.Proofs.Interruptions

/-! The acts of a run by exchanges: a window begins behind a command and ends in front of the
next one. -/

set_option autoImplicit false

namespace DiveLink

def Progress.numbers (p : Progress) : Nat × Nat := (p.current.toNat, p.maximum.toNat)

namespace Act

def isCommand : Act → Bool
  | sent bs _ _ => bs ≠ [Chunk.acknowledgement]
  | _ => false

def isQuiet : Act → Bool
  | told .. | delivered _ => true
  | _ => false

/-- The bytes of a chunk that was asked for, whole or not. -/
def chunk? : Act → Option Bytes
  | received due bs _ => if due = Chunk.length then some bs else none
  | _ => none

def progress? : Act → Option (Nat × Nat)
  | told _ (.progress now) => some now.numbers
  | _ => none

def chunks (seen : List Act) : List Bytes := seen.filterMap chunk?

def progress (seen : List Act) : List (Nat × Nat) := seen.filterMap progress?

/-- What was done since the last command was sent or begun. -/
def current (seen : List Act) : List Act := seen.rtakeWhile (!·.isCommand)

/-- What was done before the first command, and behind each command up to the next. -/
def exchanges (seen : List Act) : List (List Act) := seen.splitOnP isCommand

/-- The chunks that were acknowledged: one for each byte accepted, as far as there are chunks. -/
def acknowledged (window : List Act) : List Bytes := (chunks window).take (said window).length

def Inside (window : List Act) : Prop := ∀ act ∈ window, act.isCommand = false

structure Still (seen : List Act) : Prop where
  inside : Inside seen
  unread : chunks seen = []
  unsaid : said seen = []

section Projections
variable (seen before later : List Act) (act : Act)

@[simp] theorem chunks_nil : chunks [] = [] := rfl

@[simp] theorem progress_nil : progress [] = [] := rfl

@[simp] theorem chunks_cons : chunks (act :: later) = act.chunk?.toList ++ chunks later := by
  cases h : act.chunk? <;> simp [chunks, h]

@[simp] theorem progress_cons : progress (act :: later) = act.progress?.toList ++ progress later := by
  cases h : act.progress? <;> simp [progress, h]

@[simp] theorem chunks_append : chunks (before ++ later) = chunks before ++ chunks later :=
  List.filterMap_append

@[simp] theorem progress_append :
    progress (before ++ later) = progress before ++ progress later := List.filterMap_append

@[simp] theorem progress_reception (bs : Bytes) : progress (reception bs) = [] := by
  unfold reception
  split <;> simp [progress?]

@[simp] theorem progress_sending (bs : Bytes) : progress (sending bs) = [] := by
  unfold sending
  split <;> simp [progress?]

@[simp] theorem chunks_sending (bs : Bytes) : chunks (sending bs) = [] := by
  unfold sending
  split <;> simp [chunk?]

@[simp] theorem chunks_told (listener : Option String) (event : Event) :
    chunks (listener.toList.map (told · event)) = [] := by
  cases listener <;> simp [chunk?]

@[simp] theorem current_nil : current [] = [] := rfl

theorem current_concat (other : act.isCommand = false) :
    current (seen ++ [act]) = current seen ++ [act] :=
  List.rtakeWhile_concat_pos _ _ _ (by simp [other])

theorem current_command (command : act.isCommand = true) : current (seen ++ [act]) = [] :=
  List.rtakeWhile_concat_neg _ _ _ (by simp [command])

end Projections

theorem quiet_facts {act : Act} (quiet : act.isQuiet = true) :
    act.isCommand = false ∧ act.went = [] ∧ act.chunk? = none := by
  cases act with
  | told | delivered => exact ⟨rfl, rfl, rfl⟩
  | _ => cases quiet

theorem isCommand_wire (command : Command) (taken : Nat) (failed : Bool) :
    (sent command.wire taken failed).isCommand = true := by
  have long := Packet.length_wire command.code command.payload
  have other : command.wire ≠ [Chunk.acknowledgement] := by
    intro same
    rw [← command.wire_eq, same] at long
    simp only [List.length_singleton, Packet.overhead] at long
    omega
  simp [isCommand, other]

section Windows
variable {first second later : List Act} {act : Act}

theorem inside_append : Inside (first ++ second) ↔ Inside first ∧ Inside second := by
  simp only [Inside, List.mem_append, or_imp, forall_and]

theorem inside_singleton (other : act.isCommand = false) : Inside [act] := by
  intro act' mem
  rwa [List.mem_singleton.1 mem]

theorem inside_reception (bs : Bytes) : Inside (reception bs) := by
  unfold reception
  split
  · exact nofun
  · exact inside_singleton rfl

theorem inside_told (listener : Option String) (event : Event) :
    Inside (listener.toList.map (told · event)) := by
  cases listener with
  | none => exact nofun
  | some name => exact inside_singleton rfl

theorem inside_acknowledgement : Inside (sending [Chunk.acknowledgement]) :=
  inside_singleton rfl

theorem still_nil : Still [] := ⟨nofun, rfl, rfl⟩

theorem still_quiet (quiet : act.isQuiet = true) : Still [act] := by
  obtain ⟨other, silent, unread⟩ := quiet_facts quiet
  exact ⟨inside_singleton other, by simp [unread], by simp [silent]⟩

theorem Still.append (before : Still first) (after : Still second) : Still (first ++ second) where
  inside := inside_append.2 ⟨before.inside, after.inside⟩
  unread := by rw [chunks_append, before.unread, after.unread, List.append_nil]
  unsaid := by rw [said_append, before.unsaid, after.unsaid, List.append_nil]

theorem Still.acknowledged (still : Still second) :
    acknowledged (first ++ second) = acknowledged first := by
  rw [Act.acknowledged, chunks_append, said_append, still.unread, still.unsaid, List.append_nil,
    List.append_nil, Act.acknowledged]

theorem exchanges_inside (inside : Inside first) : exchanges first = [first] :=
  List.splitOnP_eq_singleton inside

theorem exchanges_command (inside : Inside first) (command : act.isCommand = true) :
    exchanges (first ++ act :: later) = first :: exchanges later :=
  List.splitOnP_append_cons_of_forall_mem inside act command later

theorem exchanges_cons (other : act.isCommand = false) {window : List Act}
    {windows : List (List Act)} (split : exchanges later = window :: windows) :
    exchanges (act :: later) = (act :: window) :: windows := by
  rw [exchanges] at split
  rw [exchanges, List.splitOnP_cons_eq_if_modifyHead, if_neg (by simp [other]), split]
  rfl

theorem exchanges_append (inside : Inside first) {window : List Act} {windows : List (List Act)}
    (split : exchanges later = window :: windows) :
    exchanges (first ++ later) = (first ++ window) :: windows := by
  induction first with
  | nil => exact split
  | cons act first ih =>
    have other : act.isCommand = false := inside act List.mem_cons_self
    exact exchanges_cons other (ih fun act mem => inside act (List.mem_cons_of_mem _ mem))

theorem exchanges_exchange (inside : Inside first) {window : List Act} {windows : List (List Act)}
    (split : exchanges later = window :: windows) (command : Command) (ms taken : Nat)
    (failed : Bool) :
    exchanges (.paused ms :: .sent command.wire taken failed :: (first ++ later)) =
      [.paused ms] :: (first ++ window) :: windows := by
  have paused : Inside [paused ms] := inside_singleton rfl
  rw [← exchanges_append inside split]
  exact exchanges_command paused (isCommand_wire command taken failed)

theorem exchanges_last (inside : Inside first) (command : Command) (ms taken : Nat)
    (failed : Bool) :
    exchanges (.paused ms :: .sent command.wire taken failed :: first) = [[.paused ms], first] := by
  have nothing : exchanges [] = [[]] := exchanges_inside nofun
  have split := exchanges_exchange inside nothing command ms taken failed
  rwa [List.append_nil] at split

theorem exists_exchanges (seen : List Act) :
    ∃ window windows, exchanges seen = window :: windows :=
  List.exists_cons_of_ne_nil (List.splitOnP_ne_nil _ _)

end Windows

end Act

namespace Exchange

theorem packetActs_eq (code : UInt8) (payload : Bytes) :
    packetActs (Packet.wire code payload) =
      [.received Packet.headerLength ((Packet.wire code payload).take Packet.headerLength) false] ++
        [.received (payload.length + (Packet.overhead - Packet.headerLength))
          ((Packet.wire code payload).drop Packet.headerLength) false] := by
  rw [packetActs, reception_whole (length_header code payload) (by decide),
    reception_whole (length_behind_header code payload) (Nat.add_pos_right _ (by decide))]

theorem chunks_packetActs {payload : Bytes} (fit : payload.length ≤ Packet.maxPayload)
    (code : UInt8) : Act.chunks (packetActs (Packet.wire code payload)) = [] := by
  have other : payload.length + (Packet.overhead - Packet.headerLength) ≠ Chunk.length := by
    simp only [Packet.maxPayload, Packet.overhead, Packet.headerLength, Chunk.length,
      Chunk.leadLength, Chunk.dataLength] at fit ⊢
    omega
  have other' : Packet.headerLength ≠ Chunk.length := by decide
  simp [packetActs_eq, Act.chunk?, other, other']

theorem said_packetActs (packet : Bytes) : Act.said (packetActs packet) = [] := by
  simp [packetActs]

theorem inside_packetActs (packet : Bytes) : Act.Inside (packetActs packet) :=
  Act.inside_append.2 ⟨Act.inside_reception _, Act.inside_reception _⟩

@[simp] theorem progress_packetActs (packet : Bytes) : Act.progress (packetActs packet) = [] := by
  simp [packetActs]

@[simp] theorem progress_askActs (command : Command) (packet : Bytes) :
    Act.progress (askActs command packet) = [] := by
  simp [askActs, Act.progress?]

theorem chunks_reception {chunk : Bytes} (whole : chunk.length = Chunk.length) :
    Act.chunks (Act.reception chunk) = [chunk] := by
  rw [reception_whole whole Chunk.length_pos]
  rfl

theorem chunks_chunkActs {chunk : Bytes} (whole : chunk.length = Chunk.length) :
    Act.chunks (chunkActs chunk) = [chunk] := by
  simp [chunkActs, chunks_reception whole]

@[simp] theorem progress_chunkActs (chunk : Bytes) : Act.progress (chunkActs chunk) = [] := by
  simp [chunkActs]

theorem inside_chunkActs (chunk : Bytes) : Act.Inside (chunkActs chunk) :=
  Act.inside_append.2 ⟨Act.inside_reception _, Act.inside_acknowledgement⟩

theorem inside_advanceActs (listener : Option String) (start : Option Progress)
    (received total : Nat) : Act.Inside (advanceActs listener start received total) := by
  cases start with
  | none => exact nofun
  | some start => exact Act.inside_told listener _

@[simp] theorem chunks_advanceActs (listener : Option String) (start : Option Progress)
    (received total : Nat) : Act.chunks (advanceActs listener start received total) = [] := by
  cases start with
  | none => rfl
  | some start => exact Act.chunks_told listener _

theorem chunks_chunksActs {listener : Option String} {start : Option Progress}
    {total received : Nat} {all : List Bytes} (sound : ∀ chunk ∈ all, Chunk.Sound chunk) :
    Act.chunks (chunksActs listener start total received all) = all := by
  induction all generalizing received with
  | nil => rfl
  | cons chunk later ih =>
    have whole := (sound chunk List.mem_cons_self).length
    have rest := @ih (received + min (total - received) Chunk.dataLength)
      fun c mem => sound c (List.mem_cons_of_mem _ mem)
    simp [chunksActs, chunks_chunkActs whole, rest]

theorem inside_chunksActs (listener : Option String) (start : Option Progress)
    (total received : Nat) (all : List Bytes) : Act.Inside (chunksActs listener start total received all) := by
  induction all generalizing received with
  | nil => exact nofun
  | cons chunk later ih =>
    exact Act.inside_append.2 ⟨Act.inside_append.2 ⟨inside_chunkActs chunk,
      inside_advanceActs _ _ _ _⟩, ih _⟩

end Exchange

end DiveLink
