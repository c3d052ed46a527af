import DiveLink.Fingerprint
import DiveLink.Identity

/-! The logbook: a table of entries of one length, the newest at its end. Entries are looked
at from the newest to the oldest, up to an empty slot or to the dive already downloaded. -/

set_option autoImplicit false

namespace DiveLink.Logbook

def pieces (size : Nat) : Nat → Bytes → List Bytes
  | 0, _ => []
  | count + 1, table => table.take size :: pieces size count (table.drop size)

/-- The whole entries, newest first. Bytes of a partial entry stand at the start of the table
and are skipped. -/
def entriesNewestFirst (entryLength : Nat) (table : Bytes) : Except Refusal (List Bytes) :=
  if entryLength = 0 then .error .outOfRange
  else
    let skipped := table.length % entryLength
    .ok (pieces entryLength (table.length / entryLength) (table.drop skipped)).reverse

def number (entry : Bytes) : Except Refusal UInt16 := within entry.word?

def fingerprint (layout : Layout) (entry : Bytes) : Except Refusal Bytes :=
  within (entry.slice? layout.fingerprintOffset (layout.fingerprintOffset + Fingerprint.size))

def isPending (layout : Layout) (stored : Fingerprint) (entry : Bytes) : Except Refusal Bool := do
  if (← number entry) = 0 then .ok false
  else do
    let found ← fingerprint layout entry
    .ok (found ≠ stored.bytes)

/-- The entries before the first that is not pending. Later ones are not looked at. -/
def takePending (layout : Layout) (stored : Fingerprint) :
    List Bytes → Except Refusal (List Bytes)
  | [] => .ok []
  | entry :: older => do
    if ← isPending layout stored entry then
      let rest ← takePending layout stored older
      .ok (entry :: rest)
    else .ok []

def pending (layout : Layout) (stored : Fingerprint) (table : Bytes) :
    Except Refusal (List Bytes) := do
  takePending layout stored (← entriesNewestFirst layout.entryLength table)

theorem pieces_flatten {size : Nat} (entries : List Bytes)
    (h : ∀ entry ∈ entries, entry.length = size) :
    pieces size entries.length entries.flatten = entries := by
  induction entries with
  | nil => rfl
  | cons entry older ih =>
    have hsize : entry.length = size := h entry List.mem_cons_self
    have hrest := ih fun e he => h e (List.mem_cons_of_mem _ he)
    rw [List.length_cons, List.flatten_cons, pieces, ← hsize, List.take_left', List.drop_left']
    · rw [hsize, hrest]
    · rfl
    · rfl

theorem length_pieces (size count : Nat) (table : Bytes) :
    (pieces size count table).length = count := by
  induction count generalizing table with
  | zero => rfl
  | succ count ih => simp [pieces, ih]

end DiveLink.Logbook
