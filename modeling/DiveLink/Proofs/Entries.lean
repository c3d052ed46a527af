import DiveLink.Conversation
import DiveLink.Proofs.PacketFormat

set_option autoImplicit false

namespace DiveLink

/-- What every layout in use provides for. -/
structure Layout.Usable (layout : Layout) : Prop where
  number : 2 ≤ layout.entryLength
  fingerprint : layout.fingerprintOffset + Fingerprint.size ≤ layout.entryLength
  other : layout.logbookCode ≠ CommandCode.dive

theorem Layout.families_usable : ∀ family ∈ Layout.families, family.Usable := by
  intro family known
  rcases List.mem_cons.1 known with rfl | known
  · exact ⟨by decide, by decide, by decide⟩
  · cases List.mem_singleton.1 known
    exact ⟨by decide, by decide, by decide⟩

theorem Identity.read_usable {block : Bytes} {identity : Identity}
    (h : Identity.read block = .ok identity) : identity.layout.Usable := by
  unfold Identity.read at h
  split at h
  · cases h
  · next family found =>
    obtain ⟨info, -, h⟩ := bind_eq_ok.1 h
    obtain ⟨version, -, h⟩ := bind_eq_ok.1 h
    cases h
    have usable := Layout.families_usable family (List.mem_of_find?_eq_some found)
    exact ⟨usable.number, usable.fingerprint, usable.other⟩

theorem Identity.read_fit {block : Bytes} {identity : Identity}
    (h : Identity.read block = .ok identity) : block.length ≤ Packet.maxPayload := by
  unfold Identity.read at h
  split at h
  · cases h
  · next family found =>
    have length : family.identificationLength = block.length := by
      simpa using List.find?_some found
    have known : ∀ family ∈ Layout.families, family.identificationLength ≤ Packet.maxPayload := by
      decide
    exact length ▸ known family (List.mem_of_find?_eq_some found)

namespace Logbook

variable {layout : Layout} {stored : Fingerprint}

theorem getElem?_pieces {size count i : Nat} (inside : i < count) (table : Bytes) :
    (pieces size count table)[i]? = some ((table.drop (size * i)).take size) := by
  induction count generalizing i table with
  | zero => cases inside
  | succ count ih =>
    cases i with
    | zero => rfl
    | succ i =>
      rw [pieces, List.getElem?_cons_succ, ih (Nat.lt_of_succ_lt_succ inside), List.drop_drop,
        Nat.mul_succ, Nat.add_comm]

def entryAt (size j : Nat) (table : Bytes) : Bytes :=
  (table.drop (table.length - size * (j + 1))).take size

theorem length_entryAt {size j : Nat} {table : Bytes} (inside : size * (j + 1) ≤ table.length) :
    (entryAt size j table).length = size := by
  rw [entryAt, List.length_take, List.length_drop, Nat.mul_succ] at *
  omega

theorem getElem?_entriesNewestFirst {size j : Nat} {table entry : Bytes} {entries : List Bytes}
    (h : entriesNewestFirst size table = .ok entries) (found : entries[j]? = some entry) :
    size * (j + 1) ≤ table.length ∧ entry = entryAt size j table := by
  unfold entriesNewestFirst at h
  by_cases none : size = 0
  · rw [if_pos none] at h
    cases h
  rw [if_neg none] at h
  cases h
  have whole := Nat.div_add_mod table.length size
  obtain ⟨inside, -⟩ := List.getElem?_eq_some_iff.1 found
  rw [List.length_reverse, length_pieces] at inside
  obtain ⟨newer, count⟩ := Nat.exists_eq_add_of_lt inside
  have split : size * (j + newer + 1) = size * (j + 1) + size * newer := by
    rw [← Nat.mul_add]
    congr 1
    omega
  have older : j + newer + 1 - 1 - j = newer := by omega
  rw [count, split] at whole
  rw [List.getElem?_reverse (by rwa [length_pieces]), length_pieces, getElem?_pieces (by omega),
    List.drop_drop, count, older] at found
  refine ⟨by omega, ?_⟩
  rw [entryAt, ← Option.some.inj found]
  congr 2
  omega

theorem entriesNewestFirst_total {size : Nat} (any : size ≠ 0) (table : Bytes) :
    ∃ all, entriesNewestFirst size table = .ok all := ⟨_, if_neg any⟩

theorem length_mem_entries {size : Nat} {table entry : Bytes} {all : List Bytes}
    (cut : entriesNewestFirst size table = .ok all) (mem : entry ∈ all) : entry.length = size := by
  obtain ⟨j, found⟩ := List.getElem?_of_mem mem
  obtain ⟨inside, rfl⟩ := getElem?_entriesNewestFirst cut found
  exact length_entryAt inside

theorem pieces_append {size count : Nat} {front : Bytes} (whole : front.length = size * count)
    (more : Nat) (back : Bytes) :
    pieces size (count + more) (front ++ back) = pieces size count front ++ pieces size more back := by
  induction count generalizing front with
  | zero =>
    rw [Nat.mul_zero] at whole
    rw [List.eq_nil_of_length_eq_zero whole, Nat.zero_add]
    rfl
  | succ count ih =>
    rw [Nat.mul_succ] at whole
    have rest : (front.drop size).length = size * count := by
      rw [List.length_drop]
      omega
    rw [Nat.succ_add, pieces, pieces, List.take_append_of_le_length (by omega),
      List.drop_append_of_le_length (by omega), ih rest]
    rfl

theorem entriesNewestFirst_append {size : Nat} {table : Bytes} {all : List Bytes}
    (cut : entriesNewestFirst size table = .ok all)
    {added : List Bytes} (lengths : ∀ entry ∈ added, entry.length = size) :
    entriesNewestFirst size (table ++ added.flatten) = .ok (added.reverse ++ all) := by
  unfold entriesNewestFirst at cut ⊢
  by_cases none : size = 0
  · rw [if_pos none] at cut
    cases cut
  rw [if_neg none] at cut ⊢
  cases cut
  have some : 0 < size := Nat.pos_of_ne_zero none
  have flat : added.flatten.length = size * added.length := by
    rw [List.length_flatten, List.map_congr_left lengths, List.map_const', List.sum_replicate_nat,
      Nat.mul_comm]
  have split := Nat.mod_add_div table.length size
  have front : (table.drop (table.length % size)).length = size * (table.length / size) := by
    rw [List.length_drop]
    omega
  dsimp only
  rw [List.length_append, flat, Nat.add_mul_mod_self_left, Nat.add_mul_div_left _ _ some,
    List.drop_append_of_le_length (Nat.mod_le ..), pieces_append front, pieces_flatten added lengths,
    List.reverse_append]

theorem isPending_eq_true {entry : Bytes} (h : isPending layout stored entry = .ok true) :
    (∃ w, number entry = .ok w ∧ w ≠ 0) ∧
      ∃ found, fingerprint layout entry = .ok found ∧ found ≠ stored.bytes := by
  unfold isPending at h
  obtain ⟨w, numbered, h⟩ := bind_eq_ok.1 h
  by_cases empty : w = 0
  · rw [if_pos empty] at h
    cases h
  · rw [if_neg empty] at h
    obtain ⟨found, printed, h⟩ := bind_eq_ok.1 h
    exact ⟨⟨w, numbered, empty⟩, found, printed, by simpa using h⟩

theorem takePending_ok {all entries : List Bytes} (h : takePending layout stored all = .ok entries) :
    entries <+: all ∧ ∀ entry ∈ entries, isPending layout stored entry = .ok true := by
  induction all generalizing entries with
  | nil =>
    cases h
    exact ⟨List.nil_prefix, fun _ none => nomatch none⟩
  | cons entry older ih =>
    obtain ⟨pending, looked, h⟩ := bind_eq_ok.1 h
    cases pending with
    | false =>
      cases h
      exact ⟨List.nil_prefix, fun _ none => nomatch none⟩
    | true =>
      obtain ⟨rest, taken, h⟩ := bind_eq_ok.1 h
      cases h
      obtain ⟨before, each⟩ := ih taken
      refine ⟨List.cons_prefix_cons.2 ⟨rfl, before⟩, fun e mem => ?_⟩
      rcases List.mem_cons.1 mem with rfl | mem
      · exact looked
      · exact each e mem

/-- What is known of an entry that is still to be downloaded and has `j` newer ones. -/
structure Pending (layout : Layout) (stored : Fingerprint) (table : Bytes) (j : Nat)
    (entry : Bytes) : Prop where
  inside : layout.entryLength * (j + 1) ≤ table.length
  place : entry = entryAt layout.entryLength j table
  numbered : ∃ w, number entry = .ok w ∧ w ≠ 0
  fresh : ∃ found, fingerprint layout entry = .ok found ∧ found ≠ stored.bytes

theorem Pending.length {table entry : Bytes} {j : Nat}
    (known : Pending layout stored table j entry) : entry.length = layout.entryLength := by
  rw [known.place, length_entryAt known.inside]

theorem pending_ok {table : Bytes} {entries : List Bytes}
    (h : pending layout stored table = .ok entries) {j : Nat} {entry : Bytes}
    (found : entries[j]? = some entry) : Pending layout stored table j entry := by
  obtain ⟨all, cut, taken⟩ := bind_eq_ok.1 h
  obtain ⟨before, each⟩ := takePending_ok taken
  obtain ⟨older, rfl⟩ := before
  obtain ⟨shown, -⟩ := List.getElem?_eq_some_iff.1 found
  have place := getElem?_entriesNewestFirst cut ((List.getElem?_append_left shown).trans found)
  obtain ⟨numbered, fresh⟩ := isPending_eq_true (each entry (List.mem_of_getElem? found))
  exact ⟨place.1, place.2, numbered, fresh⟩

theorem length_mem_pending {table entry : Bytes} {entries : List Bytes}
    (h : pending layout stored table = .ok entries) (mem : entry ∈ entries) :
    entry.length = layout.entryLength := by
  obtain ⟨j, place⟩ := List.getElem?_of_mem mem
  exact (pending_ok h place).length

def print (layout : Layout) (entry : Bytes) : Bytes :=
  (entry.drop layout.fingerprintOffset).take Fingerprint.size

theorem length_print {entry : Bytes}
    (fit : layout.fingerprintOffset + Fingerprint.size ≤ entry.length) :
    (print layout entry).length = Fingerprint.size := by
  rw [print, List.length_take_of_le]
  rw [List.length_drop]
  omega

theorem fingerprint_eq {entry : Bytes}
    (fit : layout.fingerprintOffset + Fingerprint.size ≤ entry.length) :
    fingerprint layout entry = .ok (print layout entry) :=
  within_eq_ok.2 (slice?_window fit)

/-- A slot that holds a dive. -/
def isOccupied (entry : Bytes) : Bool := entry.word? ≠ some 0

theorem number_ne_zero {entry : Bytes} (numbered : 2 ≤ entry.length) :
    number entry ≠ .ok 0 ↔ isOccupied entry = true := by
  match entry, numbered with
  | low :: high :: rest, _ => simp [number, isOccupied, Bytes.word?, within]

theorem isPending_eq {entry : Bytes} (numbered : 2 ≤ entry.length)
    (printed : layout.fingerprintOffset + Fingerprint.size ≤ entry.length) :
    isPending layout stored entry = .ok (isOccupied entry && print layout entry != stored.bytes) := by
  have found := fingerprint_eq printed
  match entry, numbered with
  | low :: high :: rest, _ =>
    by_cases empty : word low high = 0
    · simp [isPending, number, isOccupied, Bytes.word?, within, bind, Except.bind, empty]
    · simp [isPending, number, isOccupied, Bytes.word?, within, bind, Except.bind, empty, found,
        bne, Bool.beq_eq_decide_eq]

theorem takePending_eq {all : List Bytes} {fresh : Bytes → Bool}
    (each : ∀ entry ∈ all, isPending layout stored entry = .ok (fresh entry)) :
    takePending layout stored all = .ok (all.takeWhile fresh) := by
  induction all with
  | nil => rfl
  | cons entry older ih =>
    have looked := each entry List.mem_cons_self
    have rest := ih fun e mem => each e (List.mem_cons_of_mem _ mem)
    cases known : fresh entry <;>
      simp [takePending, looked, known, rest, bind, Except.bind]

theorem pending_eq (usable : layout.Usable) {table : Bytes} {all : List Bytes}
    (cut : entriesNewestFirst layout.entryLength table = .ok all) (stored : Fingerprint) :
    pending layout stored table =
      .ok (all.takeWhile fun entry => isOccupied entry && print layout entry != stored.bytes) := by
  refine bind_eq_ok.2 ⟨all, cut, takePending_eq fun entry mem => ?_⟩
  have length := length_mem_entries cut mem
  exact isPending_eq (length ▸ usable.number) (length ▸ usable.fingerprint)

theorem pending_total (usable : layout.Usable) (stored : Fingerprint) (table : Bytes) :
    ∃ entries, pending layout stored table = .ok entries := by
  have any : layout.entryLength ≠ 0 := by
    have numbered := usable.number
    omega
  obtain ⟨all, cut⟩ := entriesNewestFirst_total any table
  exact ⟨_, pending_eq usable cut stored⟩

theorem length_pending {table : Bytes} {entries : List Bytes}
    (h : pending layout stored table = .ok entries) :
    layout.entryLength * entries.length ≤ table.length := by
  cases count : entries.length with
  | zero => simp
  | succ newer =>
    have last : newer < entries.length := by omega
    exact (pending_ok h (List.getElem?_eq_getElem last)).inside

/-- A logbook that can be transferred has no more pending entries than a word can count. -/
theorem few_pending (usable : layout.Usable) {table : Bytes} {entries : List Bytes}
    (h : pending layout stored table = .ok entries) (size : table.length < UInt16.size) :
    entries.length < UInt16.size := by
  have least := Nat.mul_le_mul_right entries.length usable.number
  have inside := length_pending h
  omega

end Logbook

theorem recordFingerprint_assemble {layout : Layout} {entry : Bytes}
    (fit : layout.fingerprintOffset + Fingerprint.size ≤ entry.length) (dive : Bytes) :
    Conversation.recordFingerprint layout (DiveRecord.assemble layout entry dive) =
      .ok ((entry.drop layout.fingerprintOffset).take Fingerprint.size) :=
  within_eq_ok.2 (slice?_nested fit
    (DiveRecord.magic ++ [layout.version.number, .ofNat layout.entryLength]) dive)

end DiveLink
