import DiveLink.Proofs.Acts

/-! Transfers over a script, item by item. To read takes what is due off the front of the supplies, or
all that is there and the mark behind it. What is written is taken as far as the acceptances go. -/

set_option autoImplicit false

namespace DiveLink

namespace Supply

/-- The bytes in front of the first mark, which is a silence or a fault. -/
def front : List Supply → Bytes
  | bytes bs :: later => bs ++ front later
  | _ => []

def behind : List Supply → List Supply
  | bytes _ :: later => behind later
  | supplies => supplies

/-- What one read of at most `limit` bytes makes of supplies with this front and these behind: it hands
over a part of the front or, where that is empty, takes the mark away. -/
inductive Hands (limit : Nat) (data : Bytes) (marked : List Supply) :
    Except ScriptCall Bytes → List Supply → Prop
  | part {bs : Bytes} {later : List Supply} (any : bs ≠ []) (fit : bs.length ≤ limit)
    (split : data = bs ++ front later) (same : behind later = marked) :
    Hands limit data marked (.ok bs) later
  | nothing (empty : data = []) (quiet : marked.head? ≠ some .fault) :
    Hands limit data marked (.ok []) marked.tail
  | fault (empty : data = []) (met : marked.head? = some .fault) :
    Hands limit data marked (.error .read) marked.tail

end Supply

namespace Acceptance

def front : List Acceptance → Nat
  | atMost (count + 1) :: later => count + 1 + front later
  | _ => 0

def behind : List Acceptance → List Acceptance
  | atMost (_ + 1) :: later => behind later
  | entries => entries

/-- Whether so many bytes are taken in front of the first entry that takes none. Without such an entry
all are. -/
def Covers (entries : List Acceptance) (count : Nat) : Prop :=
  behind entries = [] ∨ count ≤ front entries

instance (entries : List Acceptance) (count : Nat) : Decidable (Covers entries count) :=
  inferInstanceAs (Decidable (_ ∨ _))

theorem covers_zero (entries : List Acceptance) : Covers entries 0 := .inr (Nat.zero_le _)

theorem front_lt {entries : List Acceptance} {count : Nat} (short : ¬ Covers entries count) :
    front entries < count :=
  Nat.lt_of_not_le fun enough => short (.inr enough)

theorem covers_part {entries later : List Acceptance} {taken count : Nat}
    (less : front entries = taken + front later) (same : behind later = behind entries) :
    Covers entries count ↔ Covers later (count - taken) := by
  rw [Covers, Covers, same, less, Nat.sub_le_iff_le_add']

/-- What one write of so many bytes makes of some entries: it takes all that is due, a part of it
because the first entry allows no more, or nothing. -/
inductive Takes (due : Nat) (entries : List Acceptance) :
    Except ScriptCall Nat → List Acceptance → Prop
  | whole {later : List Acceptance} (covered : Covers entries due) :
    Takes due entries (.ok due) later
  | part {count : Nat} {later : List Acceptance} (any : 0 < count) (less : count < due)
    (split : front entries = count + front later) (same : behind later = behind entries) :
    Takes due entries (.ok count) later
  | nothing (uncovered : ¬ Covers entries due) (empty : front entries = 0)
    (quiet : (behind entries).head? ≠ some .fault) : Takes due entries (.ok 0) (behind entries).tail
  | fault (uncovered : ¬ Covers entries due) (empty : front entries = 0)
    (met : (behind entries).head? = some .fault) :
    Takes due entries (.error .write) (behind entries).tail

end Acceptance

namespace Script

theorem readFrom_hands {limit : Nat} (any : 0 < limit) (supplies : List Supply) :
    Supply.Hands limit (Supply.front supplies) (Supply.behind supplies)
      (readFrom limit supplies).1 (readFrom limit supplies).2 := by
  fun_induction readFrom limit supplies with
  | case1 => exact .nothing rfl (by simp [Supply.behind])
  | case2 later ih => exact ih
  | case3 bs later some fit => exact .part some fit rfl rfl
  | case4 bs later some more =>
    refine .part ?_ (List.length_take_le ..) ?_ rfl
    · simpa [Nat.ne_of_gt any] using some
    · rw [Supply.front, Supply.front, ← List.append_assoc, List.take_append_drop]
  | case5 later => exact .nothing rfl (by simp [Supply.behind])
  | case6 later => exact .fault rfl rfl

theorem read_hands {count : Nat} (due : 0 < count) {script : Script}
    (hands : script.maxRead ≠ some 0) :
    ∃ outcome later, script.read count = (outcome, { script with incoming := later }) ∧
      Supply.Hands count (Supply.front script.incoming) (Supply.behind script.incoming)
        outcome later := by
  have step := readFrom_hands (readLimit_pos due hands) script.incoming
  have most := script.readLimit_le count
  refine ⟨_, _, rfl, ?_⟩
  generalize readFrom (script.readLimit count) script.incoming = seen at step ⊢
  obtain ⟨outcome, later⟩ := seen
  cases step with
  | part any fit split same => exact .part any (Nat.le_trans fit most) split same
  | nothing empty quiet => exact .nothing empty quiet
  | fault empty met => exact .fault empty met

theorem write_takes_front {bs : Bytes} (any : bs ≠ []) (script : Script) :
    ∃ outcome later, script.write bs = (outcome, { script with outgoing := later }) ∧
      Acceptance.Takes bs.length script.outgoing outcome later := by
  have uncovered {entry : Acceptance} {later : List Acceptance} :
      ¬ (entry :: later = [] ∨ bs.length ≤ 0) := by
    simp [any]
  obtain ⟨incoming, outgoing, maxRead, failing⟩ := script
  rcases outgoing with _ | ⟨⟨_ | limit⟩ | _, later⟩
  · exact ⟨_, [], rfl, .whole (.inl rfl)⟩
  · refine ⟨_, later, rfl, ?_⟩
    rw [Nat.zero_min]
    exact .nothing uncovered rfl (by simp [Acceptance.behind])
  · refine ⟨_, later, rfl, ?_⟩
    by_cases whole : bs.length ≤ limit + 1
    · rw [Nat.min_eq_right whole]
      exact .whole (.inr (Nat.le_trans whole (Nat.le_add_right ..)))
    · have part := Nat.lt_of_not_le whole
      rw [Nat.min_eq_left (Nat.le_of_lt part)]
      exact .part (Nat.succ_pos limit) part rfl rfl
  · exact ⟨_, later, rfl, .fault uncovered rfl rfl⟩

end Script

namespace Run

/-- What a transfer makes of a script when `missing` of `expected` bytes are still due: they come off
the front or, when that is too short, all of it comes and the transfer fails at the mark behind. -/
structure Drains (expected missing : Nat) (script : Script) (run : Run Script ScriptCall Bytes) :
    Prop where
  enough : missing ≤ (Supply.front script.incoming).length →
    run.result = .ok ((Supply.front script.incoming).take missing) ∧
      Supply.front run.stream.incoming = (Supply.front script.incoming).drop missing ∧
      Supply.behind run.stream.incoming = Supply.behind script.incoming
  short : (Supply.front script.incoming).length < missing →
    run.result = .error (shortfall .read ((Supply.behind script.incoming).head? = some .fault)
        expected (expected - missing + (Supply.front script.incoming).length)) ∧
      run.stream.incoming = (Supply.behind script.incoming).tail
  besides : run.stream = { script with incoming := run.stream.incoming }

theorem Drains.more {expected missing : Nat} {script : Script} {bs : Bytes} {later : List Supply}
    {run : Run Script ScriptCall Bytes} (due : missing ≤ expected) (fit : bs.length ≤ missing)
    (split : Supply.front script.incoming = bs ++ Supply.front later)
    (same : Supply.behind later = Supply.behind script.incoming)
    (rest : Drains expected (missing - bs.length) { script with incoming := later } run) :
    Drains expected missing script
      ((run.andThen fun more left => .ended (.ok (bs ++ more)) left).after
        [.read missing (some bs.length)]) := by
  have length : (Supply.front script.incoming).length =
      bs.length + (Supply.front later).length := by
    rw [split, List.length_append]
  have stream := andThen_ended_stream run (bs ++ ·)
  constructor
  case enough =>
    intro enough
    have still : missing - bs.length ≤ (Supply.front later).length := by omega
    obtain ⟨result, front, behind⟩ := rest.enough still
    refine ⟨?_, ?_, ?_⟩
    · rw [andThen_ok result, split, List.take_append, List.take_of_length_le fit]
      rfl
    · rw [after, stream, front, split, List.drop_append, List.drop_of_length_le fit,
        List.nil_append]
    · rw [after, stream, behind, same]
  case short =>
    intro short
    have still : (Supply.front later).length < missing - bs.length := by omega
    obtain ⟨result, left⟩ := rest.short still
    have transferred : expected - (missing - bs.length) + (Supply.front later).length =
        expected - missing + (Supply.front script.incoming).length := by
      omega
    rw [transferred, same] at result
    rw [andThen_error result]
    exact ⟨rfl, left.trans (by rw [same])⟩
  case besides => rw [after, stream, rest.besides]

theorem Drains.none {expected missing : Nat} {script : Script} (due : 0 < missing)
    (empty : Supply.front script.incoming = []) {run : Run Script ScriptCall Bytes}
    (result : run.result = .error (shortfall .read
      ((Supply.behind script.incoming).head? = some .fault) expected (expected - missing)))
    (left : run.stream = { script with incoming := (Supply.behind script.incoming).tail }) :
    Drains expected missing script run where
  enough enough := by
    rw [empty] at enough
    exact absurd enough (Nat.not_le_of_gt due)
  short _ := by
    rw [result, left, empty]
    exact ⟨rfl, rfl⟩
  besides := by rw [left]

theorem readMissing_drains {expected missing : Nat} (due : missing ≤ expected) {script : Script}
    (hands : script.maxRead ≠ some 0) :
    Drains expected missing script (readMissing expected missing script) := by
  induction missing using Nat.strongRecOn generalizing script with
  | ind missing ih =>
    by_cases none : missing = 0
    · subst none
      rw [readMissing]
      constructor <;> simp [ended]
    have any : 0 < missing := Nat.pos_of_ne_zero none
    have next : ByteStream.read missing script = script.read missing := rfl
    obtain ⟨outcome, later, read, step⟩ := script.read_hands any hands
    rw [readMissing, if_neg none, next, read]
    cases step with
    | @part bs later some fit split same =>
      obtain ⟨b, bs, rfl⟩ := List.exists_cons_of_ne_nil some
      have shorter : missing - (b :: bs).length < missing := by
        rw [List.length_cons]
        omega
      exact .more due fit split same (ih _ shorter (by omega) hands)
    | nothing empty quiet => exact .none any empty (by simp [quiet, shortfall]) rfl
    | fault empty met => exact .none any empty (by simp [met, shortfall]) rfl

structure Spends (expected : Nat) (bs : Bytes) (script : Script) (run : Run Script ScriptCall Unit) :
    Prop where
  covered : Acceptance.Covers script.outgoing bs.length →
    run.result = .ok () ∧ run.trace.flatMap Observation.taken = bs
  short : ¬ Acceptance.Covers script.outgoing bs.length →
    run.result = .error (shortfall .write ((Acceptance.behind script.outgoing).head? = some .fault)
        expected (expected - bs.length + Acceptance.front script.outgoing)) ∧
      run.trace.flatMap Observation.taken = bs.take (Acceptance.front script.outgoing) ∧
      run.stream.outgoing = (Acceptance.behind script.outgoing).tail
  besides : run.stream = { script with outgoing := run.stream.outgoing }

theorem Spends.more {expected count : Nat} {bs : Bytes} {script : Script} {later : List Acceptance}
    {run : Run Script ScriptCall Unit} (due : bs.length ≤ expected) (part : count < bs.length)
    (split : Acceptance.front script.outgoing = count + Acceptance.front later)
    (same : Acceptance.behind later = Acceptance.behind script.outgoing)
    (rest : Spends expected (bs.drop count) { script with outgoing := later } run) :
    Spends expected bs script (run.after [.write bs (some count)]) := by
  have length : (bs.drop count).length = bs.length - count := List.length_drop
  have covers : Acceptance.Covers script.outgoing bs.length ↔
      Acceptance.Covers later (bs.drop count).length := by
    rw [length]
    exact Acceptance.covers_part split same
  constructor
  case covered =>
    intro covered
    obtain ⟨result, taken⟩ := rest.covered (covers.1 covered)
    refine ⟨result, ?_⟩
    rw [after, List.singleton_append, List.flatMap_cons, taken]
    exact List.take_append_drop count bs
  case short =>
    intro short
    obtain ⟨result, taken, left⟩ := rest.short fun covered => short (covers.2 covered)
    refine ⟨?_, ?_, left.trans (by rw [same])⟩
    · have transferred : expected - (bs.drop count).length + Acceptance.front later =
          expected - bs.length + Acceptance.front script.outgoing := by
        omega
      rw [transferred, same] at result
      exact result
    · rw [after, List.singleton_append, List.flatMap_cons, taken, split, List.take_add]
      rfl
  case besides => rw [after, rest.besides]

theorem Spends.none {expected : Nat} {bs : Bytes} {script : Script}
    (empty : Acceptance.front script.outgoing = 0)
    (uncovered : ¬ Acceptance.Covers script.outgoing bs.length) {run : Run Script ScriptCall Unit}
    (result : run.result = .error (shortfall .write
      ((Acceptance.behind script.outgoing).head? = some .fault) expected (expected - bs.length)))
    (taken : run.trace.flatMap Observation.taken = [])
    (left : run.stream = { script with outgoing := (Acceptance.behind script.outgoing).tail }) :
    Spends expected bs script run where
  covered covered := absurd covered uncovered
  short _ := by
    rw [result, taken, left, empty]
    exact ⟨rfl, rfl, rfl⟩
  besides := by rw [left]

theorem writeMissing_spends {expected : Nat} {bs : Bytes} (due : bs.length ≤ expected)
    (script : Script) : Spends expected bs script (writeMissing expected bs script) := by
  induction h : bs.length using Nat.strongRecOn generalizing bs script with
  | ind length ih =>
    by_cases none : bs.length = 0
    · rw [List.length_eq_zero_iff.1 none, writeMissing]
      exact ⟨fun _ => ⟨rfl, rfl⟩, fun short => absurd (Acceptance.covers_zero _) short, rfl⟩
    have any : bs ≠ [] := fun empty => none (by rw [empty, List.length_nil])
    have next : ByteStream.write bs script = script.write bs := rfl
    obtain ⟨outcome, later, written, step⟩ := script.write_takes_front any
    rw [writeMissing, if_neg none, next, written]
    cases step with
    | whole covered =>
      obtain ⟨b, bs, rfl⟩ := List.exists_cons_of_ne_nil any
      -- The entry may allow more than is due, so this is no part with an empty rest.
      have nothing : (b :: bs).drop (bs.length + 1) = [] := List.drop_length
      rw [List.length_cons]
      simp only [nothing]
      rw [writeMissing]
      refine ⟨fun _ => ⟨rfl, ?_⟩, fun short => absurd covered short, rfl⟩
      simp [after, ended, Observation.taken]
    | @part count later some less split same =>
      obtain ⟨count, rfl⟩ := Nat.exists_eq_succ_of_ne_zero (Nat.ne_of_gt some)
      have shorter : (bs.drop (count + 1)).length < length := by
        rw [List.length_drop]
        omega
      exact .more due less split same (ih _ shorter (by omega) _ rfl)
    | nothing uncovered empty quiet =>
      exact .none empty uncovered (by simp [quiet, shortfall]) rfl rfl
    | fault uncovered empty met =>
      exact .none empty uncovered (by simp [met, shortfall]) rfl rfl

section Taken
variable {bs : Bytes} {script : Script} {run : Run Script ScriptCall Unit}

theorem Spends.result_eq_ok_iff {expected : Nat} (spends : Spends expected bs script run) :
    run.result = .ok () ↔ Acceptance.Covers script.outgoing bs.length := by
  by_cases covered : Acceptance.Covers script.outgoing bs.length
  · exact iff_of_true (spends.covered covered).1 covered
  · refine iff_of_false (fun ok => ?_) covered
    cases ok.symm.trans (spends.short covered).1

theorem Spends.taken_prefix {expected : Nat} (spends : Spends expected bs script run) :
    run.trace.flatMap Observation.taken <+: bs := by
  by_cases covered : Acceptance.Covers script.outgoing bs.length
  · exact ⟨[], by rw [List.append_nil, (spends.covered covered).2]⟩
  · rw [(spends.short covered).2.1]
    exact List.take_prefix ..

theorem Spends.failed (spends : Spends bs.length bs script run) (failed : run.result ≠ .ok ()) :
    run.result = .error (if (Acceptance.behind script.outgoing).head? = some .fault then .io .write
        else .timeout bs.length (run.trace.flatMap Observation.taken).length) ∧
      (run.trace.flatMap Observation.taken).length = Acceptance.front script.outgoing ∧
      run.stream.outgoing = (Acceptance.behind script.outgoing).tail := by
  have uncovered := fun covered => failed (spends.result_eq_ok_iff.2 covered)
  obtain ⟨result, taken, left⟩ := spends.short uncovered
  have length : (run.trace.flatMap Observation.taken).length =
      Acceptance.front script.outgoing := by
    rw [taken, List.length_take_of_le (Nat.le_of_lt (Acceptance.front_lt uncovered))]
  rw [Nat.sub_self, Nat.zero_add, ← length] at result
  refine ⟨?_, length, left⟩
  simpa only [shortfall, decide_eq_true_eq] using result

end Taken

/-- A read transfer is exact on every script whose reads hand over something while there is something,
a write transfer on every script. -/
theorem transfers_exact (script : Script) :
    (script.maxRead ≠ some 0 → ∀ count,
      let data := Supply.front script.incoming
      let marked := Supply.behind script.incoming
      let run := readExact count script
      (count ≤ data.length → run.result = .ok (data.take count) ∧
        Supply.front run.stream.incoming = data.drop count ∧
        Supply.behind run.stream.incoming = marked) ∧
      (data.length < count → run.result = .error
          (if marked.head? = some .fault then .io .read else .timeout count data.length) ∧
        run.stream.incoming = marked.tail) ∧
      run.stream = { script with incoming := run.stream.incoming } ∧
      (count = 0 → run.trace = [])) ∧
    ∀ bs,
      let refusing := Acceptance.behind script.outgoing
      let run := writeAll bs script
      let taken := run.trace.flatMap Observation.taken
      (run.result = .ok () ↔ Acceptance.Covers script.outgoing bs.length) ∧
      (run.result = .ok () → taken = bs) ∧
      taken <+: bs ∧
      (run.result ≠ .ok () → run.result = .error
          (if refusing.head? = some .fault then .io .write else .timeout bs.length taken.length) ∧
        taken.length = Acceptance.front script.outgoing ∧
        run.stream.outgoing = refusing.tail) ∧
      run.stream = { script with outgoing := run.stream.outgoing } ∧
      (bs = [] → run.trace = []) := by
  refine ⟨fun hands count => ?_, fun bs => ?_⟩
  · have drains := readMissing_drains (Nat.le_refl count) hands
    have short := drains.short
    simp only [Nat.sub_self, Nat.zero_add, shortfall, decide_eq_true_eq] at short
    refine ⟨drains.enough, short, drains.besides, ?_⟩
    rintro rfl
    rw [readExact, readMissing]
    rfl
  · have spends := writeMissing_spends (Nat.le_refl bs.length) script
    have done := spends.result_eq_ok_iff
    refine ⟨done, fun ok => (spends.covered (done.1 ok)).2, spends.taken_prefix, spends.failed,
      spends.besides, ?_⟩
    rintro rfl
    rw [writeAll, writeMissing]
    rfl

theorem transfers_exact_broken :
    let script : Script := ⟨[.bytes [1, 2], .bytes [], .bytes [3], .fault, .bytes [4]],
      [.atMost 2, .atMost 0, .fault], some 1, []⟩
    script.maxRead ≠ some 0 ∧
      (readExact 3 script).result = .ok [1, 2, 3] ∧
      (readExact 4 script).result = .error (.io .read) ∧
      (readExact 4 script).stream.incoming = [.bytes [4]] ∧
      (writeAll [7, 8] script).result = .ok () ∧
      (writeAll [7, 8, 9] script).result = .error (.timeout 3 2) := by
  intro script
  have hands : script.maxRead ≠ some 0 := by decide
  obtain ⟨reads, writes⟩ := transfers_exact script
  have three := ((reads hands 3).1 (by decide)).1
  have four := (reads hands 4).2.1 (by decide)
  have pair := (writes [7, 8]).1.2 (by decide)
  have more : (writeAll [7, 8, 9] script).result ≠ .ok () := fun ok =>
    absurd ((writes [7, 8, 9]).1.1 ok) (by decide)
  obtain ⟨result, length, -⟩ := (writes [7, 8, 9]).2.2.2.1 more
  rw [length] at result
  exact ⟨hands, three, four.1, four.2, pair, result⟩

end Run

end DiveLink
