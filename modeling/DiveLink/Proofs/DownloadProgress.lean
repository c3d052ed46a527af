import DiveLink.Proofs.ProgressEvents

set_option autoImplicit false

namespace DiveLink

def Observation.progress? : Observation → Option (Nat × Nat)
  | event _ (.progress now) => some now.numbers
  | _ => none

namespace Act

theorem progress_eq_besides (acts : List Act) :
    progress acts = (besides acts).filterMap Observation.progress? := by
  induction acts with
  | nil => rfl
  | cons act later ih =>
    rw [progress_cons, ih]
    cases act with
    | told listener event => cases event <;> rfl
    | _ => rfl

theorem progress_acts (data : Bytes) (trace : List Observation) :
    progress (acts data trace) = trace.filterMap Observation.progress? := by
  rw [progress_eq_besides, besides_acts, List.filterMap_filter]
  congr 1
  funext seen
  cases seen <;> rfl

theorem join_append (act : Act) (before later : List Act) (dive : Delivery) :
    act.join (before ++ delivered dive :: later) = act.join before ++ delivered dive :: later := by
  rcases before with _ | ⟨next, before⟩
  · cases act with
    | sent bs taken failed => cases failed <;> rfl
    | received due bs failed => cases failed <;> rfl
    | _ => rfl
  · cases act with
    | sent bs taken failed =>
      cases failed <;> cases next <;> simp only [List.cons_append, join]
      split <;> rfl
    | received due bs failed =>
      cases failed <;> cases next <;> simp only [List.cons_append, join]
      split <;> rfl
    | _ => rfl

theorem acts_dive (data : Bytes) (before : List Observation) (dive : Delivery)
    (later : List Observation) : ∃ behind,
      acts data (before ++ .dive dive :: later) = acts data before ++ delivered dive :: behind := by
  induction before generalizing data with
  | nil => exact ⟨_, rfl⟩
  | cons seen before ih =>
    obtain ⟨behind, rest⟩ := ih (seen.leaves data)
    exact ⟨behind, by rw [List.cons_append, acts, rest, join_append, acts]⟩

theorem not_delivered {seen before after : List Act} {dive : Delivery}
    (none : deliveries seen = []) : seen ≠ before ++ delivered dive :: after := by
  rintro rfl
  simp [delivery?] at none

theorem split_delivered {first later before after : List Act} {dive : Delivery}
    (none : deliveries first = []) (same : first ++ later = before ++ delivered dive :: after) :
    ∃ between, before = first ++ between ∧ later = between ++ delivered dive :: after := by
  rcases List.append_eq_append_iff.1 same with ⟨between, rfl, rest⟩ | ⟨excess, rfl, rest⟩
  · exact ⟨between, rfl, rest⟩
  · rcases excess with _ | ⟨act, excess⟩
    · exact ⟨[], by simp, by simpa using rest.symm⟩
    · obtain ⟨rfl, -⟩ := List.cons.inj rest
      exact absurd rfl (not_delivered none)

end Act

namespace Conversation
open Dialogue Exchange

variable {layout : Layout} {receiver : Receiver} {made : List Delivery} {name : String}
  {start : Progress} {seen window later : List Act} {first count maximum : Nat}

/-- What dives tell, at most `count` of them, the first of which has the number `first`. -/
structure Counted (first count maximum : Nat) (seen : List Act) : Prop where
  windows : ∃ head windows, Act.exchanges seen = head :: windows ∧ Act.Still head ∧
    windows.length ≤ count ∧ Act.progress seen = Progress.ofDives first maximum windows
  delivered : ∀ before dive after, seen = before ++ .delivered dive :: after →
    (Act.progress before).getLast? =
      some (Progress.steps * (first + 1 + (Act.deliveries before).length), maximum)

theorem counted_idle (idle : Idle seen) : Counted first count maximum seen where
  windows := ⟨seen, [], Act.exchanges_inside idle.inside, idle.toStill, Nat.zero_le _, idle.untold⟩
  delivered _ _ _ same := absurd same (Act.not_delivered idle.undelivered)

theorem progress_exchange {command : Command} {taken : Nat} {failed : Bool}
    (told : Told start window) {ms : Nat} (numbers : start.numbers = (Progress.steps * first, maximum))
    {head : List Act} (still : Act.Still head) {windows : List (List Act)}
    (rest : Act.progress later = Progress.ofDives (first + 1) maximum windows) :
    Act.progress (.paused ms :: .sent command.wire taken failed :: (window ++ later)) =
      Progress.ofDives first maximum ((window ++ head) :: windows) := by
  obtain ⟨base, same⟩ := Prod.mk.inj numbers
  rw [Progress.ofDives_cons, still.acknowledged, ← base, ← same, ← told.told, same, ← rest]
  simp [Act.progress?]

theorem counted_failed {command : Command} {taken : Nat} {failed : Bool} {ms : Nat}
    (told : Told start window) (numbers : start.numbers = (Progress.steps * first, maximum)) :
    Counted first (count + 1) maximum
      (.paused ms :: .sent command.wire taken failed :: window) where
  windows := by
    have total := @progress_exchange start window [] first maximum command taken failed told ms
      numbers [] Act.still_nil [] rfl
    rw [List.append_nil] at total
    exact ⟨_, _, Act.exchanges_last told.inside command ms taken failed, (idle_paused ms).toStill,
      Nat.succ_le_succ (Nat.zero_le _), total⟩
  delivered _ _ _ same := absurd same (Act.not_delivered (told.exchange ..))

theorem counted_served {command : Command} {taken : Nat} {failed : Bool} {ms : Nat}
    {dive : Delivery} (whole : Whole start window)
    (numbers : start.numbers = (Progress.steps * first, maximum))
    (rest : Counted (first + 1) count maximum later) :
    Counted first (count + 1) maximum
      (.paused ms :: .sent command.wire taken failed :: (window ++ .delivered dive :: later)) where
  windows := by
    obtain ⟨head, windows, split, still, few, told⟩ := rest.windows
    have served : Act.exchanges (.delivered dive :: later) = (.delivered dive :: head) :: windows :=
      Act.exchanges_cons rfl split
    have quiet : Act.Still (.delivered dive :: head) := (Act.still_quiet rfl).append still
    exact ⟨_, _, Act.exchanges_exchange whole.inside served command ms taken failed,
      (idle_paused ms).toStill, Nat.succ_le_succ few, progress_exchange whole.toTold numbers quiet told⟩
  delivered := by
    intro before other after same
    obtain ⟨base, maximum'⟩ := Prod.mk.inj numbers
    have last := whole.last
    rw [base, maximum'] at last
    obtain ⟨between, rfl, place⟩ := Act.split_delivered (whole.exchange ..) same
    rcases between with _ | ⟨act, between⟩
    · simp [Act.progress?, Act.delivery?, last, whole.undelivered, Nat.mul_succ]
    · obtain ⟨rfl, rfl⟩ := List.cons.inj place
      have further := rest.delivered between other after rfl
      have shift : first + 1 + 1 + (Act.deliveries between).length =
          first + 1 + ((Act.deliveries between).length + 1) := by omega
      rw [shift] at further
      simp [Act.progress?, Act.delivery?, further, whole.undelivered]

section Courses
variable {entry buffer : Bytes} {entries : List Bytes}

theorem course_downloadDive_whole (room : start.HasRoom) {record dive : Bytes} {now : Progress}
    (course : (downloadDive layout entry buffer start).Course (some name) receiver made seen
      (.ok (record, dive, now))) :
    (∃ command window, seen = .paused Timing.beforePacket ::
        .sent (Command.wire command) command.wire.length false :: window ∧ Whole start window) ∧
      now.numbers = (start.current.toNat + Progress.steps, start.maximum.toNat) := by
  match entry with
  | [] | [_] => cases course
  | low :: high :: rest =>
    rw [downloadDive_bind] at course
    rcases Course.of_bind course with ⟨⟨data, last⟩, fetch, _, asked, checked, rfl⟩ | ⟨why, -, h⟩
    · obtain ⟨rfl, code, payload, bs, fit, carries, rfl⟩ := course_askBulk asked
      obtain ⟨window, acts, whole⟩ := whole_askBulk room fit carries
      rcases Course.of_ofExcept checked with ⟨_, valid, ended⟩ | ⟨-, why, -, h⟩
      · cases ended
        have any : 0 < countLength + data.length := Bulk.total_pos _
        have numbers := numbers_reached room any (Nat.le_refl _)
        rw [Progress.share_end any] at numbers
        exact ⟨⟨_, window, by rw [List.append_nil, acts], whole⟩, numbers⟩
      · cases h
    · cases h

theorem course_downloadDive_told (room : start.HasRoom)
    {result : Except (Failure ScriptCall) (Bytes × Bytes × Progress)}
    (course : (downloadDive layout entry buffer start).Course (some name) receiver made seen
      result) :
    Idle seen ∨ ∃ command taken failed window, seen = .paused Timing.beforePacket ::
        .sent (Command.wire command) taken failed :: window ∧ Told start window := by
  match entry with
  | [] | [_] =>
    cases course
    exact .inl idle_nil
  | low :: high :: rest =>
    rw [downloadDive_bind] at course
    rcases Course.of_bind course with
      ⟨⟨data, last⟩, fetch, behind, asked, checked, rfl⟩ | ⟨why, asking, -⟩
    · obtain ⟨-, code, payload, bs, fit, carries, rfl⟩ := course_askBulk asked
      obtain ⟨window, acts, whole⟩ := whole_askBulk room fit carries
      have nothing : behind = [] := by
        rcases Course.of_ofExcept checked with ⟨_, -, ended⟩ | ⟨nothing, -⟩
        · cases ended
          rfl
        · exact nothing
      exact .inr ⟨_, _, _, window, by rw [nothing, List.append_nil, acts], whole.toTold⟩
    · rcases course_askBulk_error room asking with idle | ⟨taken, failed, window, rfl, told, -⟩
      · exact .inl idle
      · exact .inr ⟨_, taken, failed, window, rfl, told⟩

theorem course_downloadDives_counted {result : Except (Failure ScriptCall) Unit}
    (numbers : start.numbers = (Progress.steps * first, maximum))
    (room : Progress.steps * (first + entries.length) < UInt32.size)
    (course : (downloadDives layout entries buffer start).Course (some name) receiver made seen
      result) :
    Counted first entries.length maximum seen := by
  -- A dive begins at a multiple of the steps, as the transfer before it was told to its last step.
  induction entries generalizing first buffer start made seen with
  | nil =>
    cases course
    exact counted_idle idle_nil
  | cons entry older ih =>
    obtain ⟨base, maximum'⟩ := Prod.mk.inj numbers
    have after : first + (entry :: older).length = first + 1 + older.length := by
      rw [List.length_cons]
      omega
    have step : Progress.steps * (first + 1) = Progress.steps * first + Progress.steps :=
      Nat.mul_succ ..
    rw [after] at room
    have space : start.HasRoom := by
      have more : Progress.steps * (first + 1) ≤ Progress.steps * (first + 1 + older.length) :=
        Nat.mul_le_mul_left _ (Nat.le_add_right ..)
      rw [Progress.HasRoom, base]
      omega
    rw [downloadDives] at course
    rcases Course.of_bind course with
      ⟨⟨record, dive, now⟩, fetch, later, fetched, served, rfl⟩ | ⟨why, failed, -⟩
    · obtain ⟨⟨command, window, rfl, whole⟩, numbers'⟩ := course_downloadDive_whole space fetched
      rcases Course.of_ofExcept served with ⟨fingerprint, -, delivering⟩ | ⟨rfl, -⟩
      · cases delivering with
        | deliver rest =>
          rw [base, maximum', ← step] at numbers'
          dsimp only at rest
          split at rest
          · exact counted_served whole numbers (ih numbers' room rest)
          · cases rest
            exact counted_served whole numbers (counted_idle idle_nil)
      · rw [List.append_nil]
        exact counted_failed whole.toTold numbers
    · rcases course_downloadDive_told space failed with
        idle | ⟨command, taken, failed, window, rfl, told⟩
      · exact counted_idle idle
      · exact counted_failed told numbers

theorem course_downloadDives_end {listener : Option String}
    (course : (downloadDives layout entries buffer start).Course listener receiver made seen
      (.ok ()))
    (wanted : ∀ j < (Act.deliveries seen).length,
      receiver (made ++ (Act.deliveries seen).take (j + 1)) = .more) :
    (entries = [] ∧ seen = []) ∨ ∃ before dive, seen = before ++ [.delivered dive] ∧
      (Act.deliveries before).length + 1 = entries.length := by
  induction entries generalizing buffer start made seen with
  | nil =>
    cases course
    exact .inl ⟨rfl, rfl⟩
  | cons entry older ih =>
    rw [downloadDives] at course
    rcases Course.of_bind course with
      ⟨⟨record, data, now⟩, fetch, later, fetched, served, rfl⟩ | ⟨why, -, h⟩
    · have quiet := (course_downloadDive_any fetched).1
      rw [quiet, List.append_nil] at served
      rcases Course.of_ofExcept served with ⟨fingerprint, -, delivering⟩ | ⟨-, why, -, h⟩
      · cases delivering with
        | @deliver _ _ _ later _ rest =>
          generalize Delivery.mk record fingerprint = dive at rest wanted ⊢
          have all : Act.deliveries (fetch ++ .delivered dive :: later) =
              dive :: Act.deliveries later := by
            simp [quiet, Act.delivery?]
          rw [all] at wanted
          have reply : receiver (made ++ [dive]) = .more := wanted 0 (Nat.succ_pos _)
          rw [reply] at rest
          have wanted' : ∀ j < (Act.deliveries later).length,
              receiver (made ++ [dive] ++ (Act.deliveries later).take (j + 1)) = .more := by
            intro j less
            rw [List.append_assoc]
            exact wanted (j + 1) (Nat.succ_lt_succ less)
          refine .inr ?_
          rcases ih rest wanted' with ⟨rfl, rfl⟩ | ⟨before, last, rfl, count⟩
          · exact ⟨fetch, dive, rfl, by simp [quiet]⟩
          · refine ⟨fetch ++ .delivered dive :: before, last, by simp, ?_⟩
            simp [quiet, Act.delivery?, count]
      · cases h
    · cases h

end Courses

/-- Whether a logbook arrived whole, with so many pending entries. -/
def Finds (listener : Option String) (stored : Fingerprint) (seen : List Act) (n : Nat) : Prop :=
  ∃ identity table entries opening later, seen = opening ++ later ∧
    Opens listener identity table opening ∧
    Logbook.pending identity.layout stored table = .ok entries ∧ entries.length = n

theorem Opens.exchanges {identity : Identity} {table : Bytes} {opening head : List Act}
    (opens : Opens (some name) identity table opening) {windows : List (List Act)}
    (split : Act.exchanges later = head :: windows) :
    ∃ first second window,
      Act.exchanges (opening ++ later) = first :: second :: (window ++ head) :: windows ∧
        Whole .start window ∧ Act.progress opening = (0, 0) :: Act.progress window ∧
        Act.deliveries opening = [] := by
  obtain ⟨code, block, code', payload, bs, fit, identified, fit', carries, rfl⟩ := opens
  have room : Progress.start.HasRoom := by decide
  obtain ⟨window, acts, whole⟩ := @whole_askBulk (.logbook identity.layout.logbookCode) .start name
    room code' payload table bs fit' carries
  have logbook := Act.exchanges_exchange whole.inside split
    (.logbook identity.layout.logbookCode) Timing.beforePacket
    (Command.logbook identity.layout.logbookCode).wire.length false
  have version := Act.exchanges_exchange (inside_packetActs (Packet.wire code block)) logbook
    .version Timing.beforePacket Command.version.wire.length false
  have told : (Act.told name (.progress .start)).isCommand = false := rfl
  have all := Act.exchanges_cons told version
  rw [acts]
  refine ⟨_, _, window, (congrArg Act.exchanges ?_).trans all, whole, ?_, ?_⟩
  · rw [List.append_assoc, List.append_assoc]
    rfl
  · simp [Act.progress?, Progress.start, Progress.numbers]
  · simp [whole.undelivered, Act.delivery?]

/-- What a download tells, when the logbook has so many pending entries or does not arrive. -/
structure Tells (name : String) (stored : Fingerprint) (receiver : Receiver) (made : List Delivery)
    (seen : List Act) (result : Except (Failure ScriptCall) Unit) (dives : Option Nat) : Prop where
  found : ∀ n ∈ dives, Finds (some name) stored seen n
  missed : dives = none → ∀ n, ¬ Finds (some name) stored seen n
  progress : Act.progress seen = Progress.ofDownload dives (Act.exchanges seen)
  few : ∀ n ∈ dives, (Act.exchanges seen).length ≤ n + 3
  small : ∀ n ∈ dives, Progress.steps * (n + 1) < UInt32.size
  delivered : ∀ before dive after, seen = before ++ .delivered dive :: after →
    ∃ n ∈ dives, (Act.progress before).getLast? =
      some (Progress.steps * ((Act.deliveries before).length + 2), Progress.steps * (n + 1))
  complete : result = .ok () → (∀ j < (Act.deliveries seen).length,
      receiver (made ++ (Act.deliveries seen).take (j + 1)) = .more) →
    ∃ n ∈ dives, (Act.progress seen).getLast? =
      some (Progress.steps * (n + 1), Progress.steps * (n + 1))

section Downloads
variable {stored : Fingerprint}

theorem tells_missed {head : List Act} {windows : List (List Act)} {why : Failure ScriptCall}
    (split : Act.exchanges later = head :: windows)
    (told : Act.progress later = Progress.ofChunks 0 0 (Act.acknowledged (windows.getD 1 [])))
    (undelivered : Act.deliveries later = [])
    (short : (Act.said (windows.getD 1 [])).length ≤ Bulk.due (Act.chunks (windows.getD 1 []))) :
    Tells name stored receiver made (.told name (.progress .start) :: later) (.error why) none := by
  have all : Act.exchanges (.told name (.progress .start) :: later) =
      (.told name (.progress .start) :: head) :: windows := Act.exchanges_cons rfl split
  refine ⟨nofun, fun _ n => ?_, ?_, nofun, nofun, ?_, nofun⟩
  · rintro ⟨identity, table, entries, opening, behind, same, opens, -, -⟩
    obtain ⟨head', windows', split'⟩ := Act.exists_exchanges behind
    obtain ⟨first, second, window, exchanges, whole, -, -⟩ := opens.exchanges split'
    rw [← same, all] at exchanges
    obtain ⟨-, rfl⟩ := List.cons.inj exchanges
    have more := whole.more
    simp only [List.getD_cons_succ, List.getD_cons_zero, Act.said_append, Act.chunks_append,
      due_append whole.any, List.length_append] at short
    omega
  · rw [all, Act.progress_cons, told]
    simp [Progress.ofDownload, Act.progress?, Progress.start, Progress.numbers]
  · have none : Act.deliveries (.told name (.progress .start) :: later) = [] := undelivered
    exact fun _ _ _ same => absurd same (Act.not_delivered none)

theorem tells_found {identity : Identity} {table : Bytes} {entries : List Bytes}
    {opening : List Act} {result : Except (Failure ScriptCall) Unit}
    (opens : Opens (some name) identity table opening)
    (pending : Logbook.pending identity.layout stored table = .ok entries)
    (numbers : start.numbers = (Progress.steps, Progress.steps * (entries.length + 1)))
    (small : Progress.steps * (entries.length + 1) < UInt32.size)
    (counted : Counted 1 entries.length (Progress.steps * (entries.length + 1)) later)
    (ending : result = .ok () → (∀ j < (Act.deliveries later).length,
        receiver (made ++ (Act.deliveries later).take (j + 1)) = .more) →
      (entries = [] ∧ later = []) ∨ ∃ before dive, later = before ++ [.delivered dive] ∧
        (Act.deliveries before).length + 1 = entries.length) :
    Tells name stored receiver made (opening ++ .told name (.progress start) :: later) result
      (some entries.length) := by
  obtain ⟨head, windows, split, still, few, told⟩ := counted.windows
  have behind : Act.exchanges (.told name (.progress start) :: later) =
      (.told name (.progress start) :: head) :: windows := Act.exchanges_cons rfl split
  have quiet : Act.Still (.told name (.progress start) :: head) :=
    (Act.still_quiet rfl).append still
  obtain ⟨first, second, window, exchanges, whole, progress, undelivered⟩ := opens.exchanges behind
  have all : Act.progress (opening ++ .told name (.progress start) :: later) =
      (0, 0) :: Act.progress window ++
        (Progress.steps, Progress.steps * (entries.length + 1)) :: Act.progress later := by
    simp [progress, Act.progress?, numbers]
  have none : Act.deliveries (opening ++ [.told name (.progress start)]) = [] := by
    simp [undelivered, Act.delivery?]
  have same : Act.deliveries (opening ++ .told name (.progress start) :: later) =
      Act.deliveries later := by
    simp [undelivered, Act.delivery?]
  constructor
  case found =>
    rintro n ⟨⟩
    exact ⟨identity, table, entries, opening, _, rfl, opens, pending, rfl⟩
  case missed =>
    intro lost
    cases lost
  case progress =>
    have logbook : Act.progress window = Progress.ofChunks 0 0 (Act.acknowledged window) := whole.told
    rw [all, exchanges, Progress.ofDownload, logbook, told]
    simp [quiet.acknowledged]
  case few =>
    rintro n ⟨⟩
    rw [exchanges]
    simp only [List.length_cons]
    omega
  case small =>
    rintro n ⟨⟩
    exact small
  case delivered =>
    intro before dive after place
    rw [List.append_cons] at place
    obtain ⟨between, rfl, rfl⟩ := Act.split_delivered none place
    have last := counted.delivered between dive after rfl
    refine ⟨_, rfl, ?_⟩
    rw [Act.progress_append, List.getLast?_append, last, Act.deliveries_append, none,
      List.nil_append, Nat.add_comm (Act.deliveries between).length]
    rfl
  case complete =>
    intro ok wanted
    rw [same] at wanted
    refine ⟨_, rfl, ?_⟩
    rw [all, List.getLast?_append, List.getLast?_cons]
    rcases ending ok wanted with ⟨rfl, rfl⟩ | ⟨before, dive, rfl, count⟩
    · rfl
    · have last := counted.delivered before dive [] rfl
      have shift : 1 + 1 + (Act.deliveries before).length = entries.length + 1 := by omega
      rw [shift] at last
      simp [last, Act.progress?]

theorem tells_dives {identity : Identity} {table : Bytes} {entries : List Bytes}
    {opening : List Act} {last : UInt32} {result : Except (Failure ScriptCall) Unit}
    (opens : Opens (some name) identity table opening)
    (pending : Logbook.pending identity.layout stored table = .ok entries)
    (small : entries.length < UInt16.size) (current : last.toNat = Progress.steps)
    (course : (downloadDives identity.layout entries []
        ⟨last, .ofNat ((entries.length + 1) * Progress.steps)⟩).Course (some name) receiver made later
      result) :
    Tells name stored receiver made (opening ++ .told name
      (.progress ⟨last, .ofNat ((entries.length + 1) * Progress.steps)⟩) :: later) result
      (some entries.length) := by
  have fits : Progress.steps * (entries.length + 1) < UInt32.size := by
    simp only [Progress.steps, UInt16.size, UInt32.size] at small ⊢
    omega
  have numbers : Progress.numbers ⟨last, .ofNat ((entries.length + 1) * Progress.steps)⟩ =
      (Progress.steps, Progress.steps * (entries.length + 1)) := by
    rw [Progress.numbers, current, UInt32.toNat_ofNat', Nat.mul_comm, Nat.mod_eq_of_lt fits]
  have least : Progress.steps * (1 + entries.length) < UInt32.size := by rwa [Nat.add_comm]
  refine tells_found opens pending numbers fits
    (course_downloadDives_counted numbers least course) ?_
  rintro rfl
  exact course_downloadDives_end course

theorem tells_answered {head : List Act} {windows : List (List Act)} {why : Failure ScriptCall}
    (code : UInt8) (block : Bytes) (split : Act.exchanges later = head :: windows)
    (told : Act.progress later = Progress.ofChunks 0 0 (Act.acknowledged (windows.getD 0 [])))
    (undelivered : Act.deliveries later = [])
    (short : (Act.said (windows.getD 0 [])).length ≤ Bulk.due (Act.chunks (windows.getD 0 []))) :
    Tells name stored receiver made
      (.told name (.progress .start) :: (askActs .version (Packet.wire code block) ++ later))
      (.error why) none := by
  have both := Act.exchanges_exchange (inside_packetActs (Packet.wire code block)) split
    .version Timing.beforePacket Command.version.wire.length false
  refine tells_missed both ?_ ?_ short
  · rw [Act.progress_append, progress_askActs]
    exact told
  · rw [Act.deliveries_append, deliveries_askActs]
    exact undelivered

theorem course_downloadNew_tells {result : Except (Failure ScriptCall) Unit}
    (course : (downloadNew stored).Course (some name) receiver made seen result) :
    ∃ dives, Tells name stored receiver made seen result dives := by
  have room : Progress.start.HasRoom := by decide
  rw [downloadNew_eq] at course
  cases course with
  | @announce _ _ _ later _ course =>
  rcases Course.of_bind course with ⟨block, first, later, asked, judged, rfl⟩ | ⟨why, failed, rfl⟩
  · obtain ⟨fit, code, rfl⟩ := course_ask asked
    rcases Course.of_ofExcept judged with ⟨identity, identified, loaded⟩ | ⟨rfl, why, -, rfl⟩
    · have usable := Identity.read_usable identified
      rcases Course.of_bind loaded with
        ⟨⟨table, last⟩, second, later, asked', scanned, rfl⟩ | ⟨why, failed, rfl⟩
      · obtain ⟨rfl, code', payload, bs, fit', carries, rfl⟩ := course_askBulk asked'
        obtain ⟨entries, pending⟩ := Logbook.pending_total usable stored table
        have small := Logbook.few_pending usable pending carries.size
        have current : (Progress.start.reached (countLength + table.length)
            (countLength + table.length)).current.toNat = Progress.steps :=
          Progress.reached_current room (Bulk.total_pos _)
        generalize Progress.start.reached (countLength + table.length)
          (countLength + table.length) = last at scanned current
        dsimp only at scanned
        rw [pending, Dialogue.ofExcept_ok, done_bind, Progress.forDives_eq] at scanned
        have opens : Opens (some name) identity table
            ([.told name (.progress .start)] ++ askActs .version (Packet.wire code block) ++
              askBulkActs (some name) (.logbook identity.layout.logbookCode) .start
                (Packet.wire code' payload) table bs) :=
          ⟨code, block, code', payload, bs, fit, identified, fit', carries, rfl⟩
        cases scanned with
        | @announce _ _ _ later _ served =>
        simp only [deliveries_askActs, deliveries_askBulkActs, List.append_nil] at served
        refine ⟨some entries.length, ?_⟩
        rw [← List.append_assoc, ← List.append_assoc]
        exact tells_dives opens pending small current served
      · rcases course_askBulk_error room failed with
          idle | ⟨taken, failed, window, rfl, told, short⟩
        · exact ⟨none, tells_answered code block (Act.exchanges_inside idle.inside) idle.untold
            idle.undelivered (Nat.zero_le _)⟩
        · exact ⟨none, tells_answered code block (Act.exchanges_last told.inside _ _ _ _)
            told.told told.undelivered short⟩
    · exact ⟨none, tells_answered code block (Act.exchanges_inside nofun) rfl rfl (Nat.zero_le _)⟩
  · rcases told_unanswered .start (partway_ask failed.partway) with
      idle | ⟨taken, failed, window, rfl, told, said⟩
    · exact ⟨none, tells_missed (Act.exchanges_inside idle.inside) idle.untold idle.undelivered
        (Nat.zero_le _)⟩
    · exact ⟨none, tells_missed (Act.exchanges_last told.inside _ _ _ _) (told.silent said)
        told.undelivered (Nat.zero_le _)⟩

end Downloads

/-- A download over any stream, with any receiver and a listener. All that it tells is what its
exchanges and the number of pending dives lead to, as far as it comes. -/
theorem downloadNew_progress (device : Device) (listener : String) (receiver : Receiver)
    (script : Script) :
    let run := (device.listen listener).perform receiver (downloadNew device.fingerprint) script
    let seen := acts script.data run.trace
    let told := run.trace.filterMap Observation.progress?
    let made := run.trace.filterMap Observation.delivery?
    ∃ dives : Option Nat,
      (∀ n ∈ dives, Finds (some listener) device.fingerprint seen n) ∧
      (dives = none → ∀ n, ¬ Finds (some listener) device.fingerprint seen n) ∧
      told = Progress.ofDownload dives (Act.exchanges seen) ∧
      told.Pairwise (fun p q => p.1 ≤ q.1) ∧
      (∀ p ∈ told, p.2 ≠ 0 → p.1 ≤ p.2) ∧
      (∀ n ∈ dives, Progress.steps * (n + 1) < UInt32.size) ∧
      (∀ before dive after, run.trace = before ++ .dive dive :: after →
        (before.filterMap Observation.progress?).getLast?.map Prod.fst =
          some (Progress.steps * ((before.filterMap Observation.delivery?).length + 2))) ∧
      (run.result = .ok () → (∀ j < made.length, receiver (made.take (j + 1)) = .more) →
        ∃ n ∈ dives, told.getLast? = some (Progress.steps * (n + 1), Progress.steps * (n + 1))) := by
  intro run seen told made
  have course : (downloadNew device.fingerprint).Course (some listener) receiver [] seen run.result :=
    run_course _ _ script
  have numbers : Act.progress seen = told := Act.progress_acts script.data run.trace
  have delivered : Act.deliveries seen = made := Act.deliveries_acts script.data run.trace
  obtain ⟨dives, tells⟩ := course_downloadNew_tells course
  have all : told = Progress.ofDownload dives (Act.exchanges seen) := numbers ▸ tells.progress
  refine ⟨dives, tells.found, tells.missed, all, ?_, ?_, tells.small, ?_, ?_⟩
  · rw [all]
    exact Progress.sorted_ofDownload ..
  · rw [all]
    exact Progress.bounded_ofDownload tells.few
  · intro before dive after split
    obtain ⟨behind, place⟩ := Act.acts_dive script.data before dive after
    rw [← split] at place
    obtain ⟨n, -, last⟩ := tells.delivered _ dive behind place
    rw [Act.progress_acts, Act.deliveries_acts] at last
    rw [last]
    rfl
  · intro ok wanted
    rw [← numbers]
    refine tells.complete ok ?_
    rw [delivered]
    exact wanted

end Conversation

end DiveLink
