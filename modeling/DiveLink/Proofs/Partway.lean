import DiveLink.Proofs.Course

set_option autoImplicit false

namespace DiveLink

theorem Script.read_ok {count : Nat} {script left : Script} {bs : Bytes}
    (h : script.read count = (.ok bs, left)) :
    script.data = bs ++ left.data ∧ bs.length ≤ count := by
  obtain ⟨step, -⟩ := script.read_tokens count
  have limit := script.readLimit_le count
  rw [h] at step
  generalize before : script.tokens = tokens at step
  generalize after : left.tokens = later at step
  rw [Script.data, Script.data, before, after]
  cases step with
  | bytes any fit => exact ⟨by simp, Nat.le_trans fit limit⟩
  | nothing | silence | idle => exact ⟨rfl, Nat.zero_le count⟩

namespace Run

section Transfers
variable {σ ε : Type} [ByteStream σ ε]

theorem isTransfer_readMissing (expected missing : Nat) (stream : σ) :
    ∀ seen ∈ (readMissing expected missing stream).trace, seen.isTransfer = true := by
  fun_induction readMissing expected missing stream with
  | case1 => nofun
  | case2 => exact fun _ mem => List.mem_singleton.1 mem ▸ rfl
  | case3 => exact fun _ mem => List.mem_singleton.1 mem ▸ rfl
  | case4 missing stream any b bs left read ih =>
    rw [after, andThen_ended_trace]
    exact List.forall_mem_cons.2 ⟨rfl, ih⟩

theorem isTransfer_writeMissing (expected : Nat) (bs : Bytes) (stream : σ) :
    ∀ seen ∈ (writeMissing expected bs stream).trace, seen.isTransfer = true := by
  fun_induction writeMissing expected bs stream with
  | case1 => nofun
  | case2 => exact fun _ mem => List.mem_singleton.1 mem ▸ rfl
  | case3 => exact fun _ mem => List.mem_singleton.1 mem ▸ rfl
  | case4 bs stream any count left written ih => exact List.forall_mem_cons.2 ⟨rfl, ih⟩

end Transfers

/-- Between two of its calls a transfer shows as one that is not whole yet. -/
theorem readMissing_part {expected missing : Nat} {script : Script} {before : List Observation}
    (part : before <+: (readMissing expected missing script).trace) :
    before = [] ∨ before = (readMissing expected missing script).trace ∨
      ∃ got, got.length < missing ∧ acts script.data before = [.received missing got false] := by
  induction missing using Nat.strongRecOn generalizing script before with
  | ind missing ih =>
    have next : ByteStream.read missing script = script.read missing := rfl
    rw [readMissing] at part ⊢
    by_cases none : missing = 0
    · rw [if_pos none] at part
      exact .inl (List.prefix_nil.1 part)
    rw [if_neg none, next] at part ⊢
    rcases read : script.read missing with ⟨cause | bs, left⟩
    · rw [read] at part
      rcases List.prefix_cons_iff.1 part with rfl | ⟨rest, rfl, h⟩
      · exact .inl rfl
      · exact .inr (.inl (by rw [List.prefix_nil.1 h]))
    rcases bs with _ | ⟨b, bs⟩
    · rw [read] at part
      rcases List.prefix_cons_iff.1 part with rfl | ⟨rest, rfl, h⟩
      · exact .inl rfl
      · exact .inr (.inl (by rw [List.prefix_nil.1 h]))
    · obtain ⟨data, fit⟩ := Script.read_ok read
      simp only [read, after, andThen_ended_trace] at part ⊢
      generalize some : b :: bs = bs at part data fit ⊢
      have any : bs ≠ [] := some ▸ List.cons_ne_nil b _
      have size : 0 < bs.length := List.length_pos_iff.2 any
      have first (rest : List Observation) :
          acts script.data (.read missing (.some bs.length) :: rest) =
            (Act.received missing bs false).join (acts left.data rest) := by
        simp [acts, Observation.act, Observation.leaves, data]
      rcases List.prefix_cons_iff.1 part with rfl | ⟨rest, rfl, h⟩
      · exact .inl rfl
      rcases ih (missing - bs.length) (by omega) h with rfl | rfl | ⟨got, short, more⟩
      · by_cases whole : bs.length = missing
        · rw [whole, Nat.sub_self, readMissing, if_pos rfl]
          exact .inr (.inl rfl)
        · exact .inr (.inr ⟨bs, by omega, first []⟩)
      · exact .inr (.inl rfl)
      · refine .inr (.inr ⟨bs ++ got, by rw [List.length_append]; omega, ?_⟩)
        rw [first, more, Act.join_part any (by omega)]

theorem writeMissing_part {expected : Nat} {bs : Bytes} {script : Script}
    {before : List Observation} (part : before <+: (writeMissing expected bs script).trace)
    (data : Bytes) :
    before = [] ∨ before = (writeMissing expected bs script).trace ∨
      ∃ taken, taken < bs.length ∧ acts data before = [.sent bs taken false] := by
  induction h : bs.length using Nat.strongRecOn generalizing bs script before with
  | ind length ih =>
    have next : ByteStream.write bs script = script.write bs := rfl
    rw [writeMissing] at part ⊢
    by_cases none : bs.length = 0
    · rw [if_pos none] at part
      exact .inl (List.prefix_nil.1 part)
    have any : bs ≠ [] := fun hn => none (by simp [hn])
    rw [if_neg none, next] at part ⊢
    obtain ⟨-, -, takes⟩ := script.write_takes any
    rcases wrote : script.write bs with ⟨cause | count, left⟩
    · rw [wrote] at part
      rcases List.prefix_cons_iff.1 part with rfl | ⟨rest, rfl, h⟩
      · exact .inl rfl
      · exact .inr (.inl (by rw [List.prefix_nil.1 h]))
    rcases count with _ | count
    · rw [wrote] at part
      rcases List.prefix_cons_iff.1 part with rfl | ⟨rest, rfl, h⟩
      · exact .inl rfl
      · exact .inr (.inl (by rw [List.prefix_nil.1 h]))
    · have fit : count + 1 ≤ bs.length := by
        rw [wrote] at takes
        rcases takes with ⟨_, h, fit, -⟩ | ⟨h, -⟩ | ⟨h, -⟩ <;> cases h
        exact fit
      have first (rest : List Observation) : acts data (.write bs (some (count + 1)) :: rest) =
          (Act.sent bs (count + 1) false).join (acts data rest) := rfl
      have size : (bs.drop (count + 1)).length = bs.length - (count + 1) := List.length_drop
      simp only [wrote, after] at part ⊢
      rcases List.prefix_cons_iff.1 part with rfl | ⟨rest, rfl, h⟩
      · exact .inl rfl
      rcases ih _ (by omega) h rfl with rfl | rfl | ⟨taken, short, more⟩
      · by_cases whole : count + 1 = bs.length
        · rw [writeMissing, if_pos (by omega)]
          exact .inr (.inl rfl)
        · exact .inr (.inr ⟨count + 1, by omega, first []⟩)
      · exact .inr (.inl rfl)
      · refine .inr (.inr ⟨count + 1 + taken, by omega, ?_⟩)
        rw [first, more, Act.join_sent_part (by omega) (by omega)]

theorem writeAll_part {bs : Bytes} {script : Script} {before : List Observation}
    (part : before <+: (writeAll bs script).trace) (data : Bytes) :
    acts data before = [] ∨ acts data before = Act.sending bs ∨
      ∃ taken failed, taken < bs.length ∧ acts data before = [.sent bs taken failed] := by
  rcases writeMissing_part part data with rfl | rfl | ⟨taken, short, h⟩
  · exact .inl rfl
  · obtain ⟨taken, failed, sends⟩ := writeAll_sends bs script
    by_cases whole : taken = bs.length
    · subst whole
      have h := sends.acts_whole data []
      rw [List.append_nil] at h
      exact .inr (.inl (h.trans (List.append_nil _)))
    · have short : taken < bs.length := Nat.lt_of_le_of_ne sends.fit whole
      have h := sends.acts (fun none => by simp [none] at short) data []
      rw [List.append_nil] at h
      exact .inr (.inr ⟨taken, failed, short, h⟩)
  · exact .inr (.inr ⟨taken, false, short, h⟩)

theorem readExact_part {count : Nat} {script : Script} {before : List Observation}
    (part : before <+: (readExact count script).trace) :
    acts script.data before = [] ∨
      (∃ got, got.length = count ∧ acts script.data before = Act.reception got) ∨
      ∃ got failed, got.length < count ∧ acts script.data before = [.received count got failed] := by
  rcases readMissing_part part with rfl | rfl | ⟨got, short, h⟩
  · exact .inl rfl
  · obtain ⟨got, failed, receives⟩ := readExact_receives count script
    by_cases whole : got.length = count
    · have h := receives.acts_whole whole []
      rw [List.append_nil] at h
      exact .inr (.inl ⟨got, whole, h.trans (List.append_nil _)⟩)
    · have short : got.length < count := Nat.lt_of_le_of_ne receives.fit whole
      have h := receives.acts (Nat.zero_lt_of_lt short) []
      rw [List.append_nil] at h
      exact .inr (.inr ⟨got, failed, short, h⟩)
  · exact .inr (.inr ⟨got, false, short, h⟩)

end Run

namespace Dialogue

/-- The acts of a dialogue up to some point, and its result if that point is the end. -/
inductive Partway {α : Type} (listener : Option String) (receiver : Receiver) :
    Dialogue α → List Delivery → List Act → Option (Except (Failure ScriptCall) α) → Prop
  | here (d : Dialogue α) (made : List Delivery) : Partway listener receiver d made [] none
  | done (a : α) (made : List Delivery) : Partway listener receiver (.done a) made [] (some (.ok a))
  | refuse (why : Refusal) (made : List Delivery) :
    Partway listener receiver (.refuse why) made [] (some (.error (.refused why)))
  | pause {ms : Nat} {next : Dialogue α} {made : List Delivery} {later : List Act}
    {outcome : Option (Except (Failure ScriptCall) α)}
    (rest : Partway listener receiver next made later outcome) :
    Partway listener receiver (.pause ms next) made (.paused ms :: later) outcome
  | send {bs : Bytes} {next : Dialogue α} {made : List Delivery} {later : List Act}
    {outcome : Option (Except (Failure ScriptCall) α)}
    (rest : Partway listener receiver next made later outcome) :
    Partway listener receiver (.send bs next) made (Act.sending bs ++ later) outcome
  | unsent {bs : Bytes} {next : Dialogue α} {made : List Delivery} {taken : Nat} {failed : Bool}
    {outcome : Option (Except (Failure ScriptCall) α)} (short : taken < bs.length)
    (ends : ∀ result ∈ outcome, result = .error (shortfall .write failed bs.length taken)) :
    Partway listener receiver (.send bs next) made [.sent bs taken failed] outcome
  | receive {count : Nat} {next : Bytes → Dialogue α} {made : List Delivery} {bs : Bytes}
    {later : List Act} {outcome : Option (Except (Failure ScriptCall) α)}
    (whole : bs.length = count) (rest : Partway listener receiver (next bs) made later outcome) :
    Partway listener receiver (.receive count next) made (Act.reception bs ++ later) outcome
  | unreceived {count : Nat} {next : Bytes → Dialogue α} {made : List Delivery} {bs : Bytes}
    {failed : Bool} {outcome : Option (Except (Failure ScriptCall) α)} (short : bs.length < count)
    (ends : ∀ result ∈ outcome, result = .error (shortfall .read failed count bs.length)) :
    Partway listener receiver (.receive count next) made [.received count bs failed] outcome
  | announce {event : Event} {next : Dialogue α} {made : List Delivery} {later : List Act}
    {outcome : Option (Except (Failure ScriptCall) α)}
    (rest : Partway listener receiver next made later outcome) :
    Partway listener receiver (.announce event next) made
      (listener.toList.map (.told · event) ++ later) outcome
  | deliver {dive : Delivery} {next : DiveControl → Dialogue α} {made : List Delivery}
    {later : List Act} {outcome : Option (Except (Failure ScriptCall) α)}
    (rest : Partway listener receiver (next (receiver (made ++ [dive]))) (made ++ [dive]) later
      outcome) :
    Partway listener receiver (.deliver dive next) made (.delivered dive :: later) outcome

variable {α β : Type} {listener : Option String} {receiver : Receiver} {made : List Delivery}
  {later : List Act}

theorem Course.partway {d : Dialogue α} {result : Except (Failure ScriptCall) α}
    (course : d.Course listener receiver made later result) :
    d.Partway listener receiver made later (some result) := by
  induction course with
  | done a made => exact .done a made
  | refuse why made => exact .refuse why made
  | pause _ ih => exact .pause ih
  | send _ ih => exact .send ih
  | unsent short => exact .unsent short fun _ h => (Option.some.inj h).symm
  | receive whole _ ih => exact .receive whole ih
  | unreceived short => exact .unreceived short fun _ h => (Option.some.inj h).symm
  | announce _ ih => exact .announce ih
  | deliver _ ih => exact .deliver ih

theorem Partway.course {d : Dialogue α} {result : Except (Failure ScriptCall) α}
    (partway : d.Partway listener receiver made later (some result)) :
    d.Course listener receiver made later result := by
  generalize closed : some result = outcome at partway
  induction partway with
  | here => cases closed
  | done a made =>
    cases closed
    exact .done a made
  | refuse why made =>
    cases closed
    exact .refuse why made
  | pause _ ih => exact .pause (ih closed)
  | send _ ih => exact .send (ih closed)
  | unsent short ends =>
    obtain rfl := ends result closed.symm
    exact .unsent short
  | receive whole _ ih => exact .receive whole (ih closed)
  | unreceived short ends =>
    obtain rfl := ends result closed.symm
    exact .unreceived short
  | announce _ ih => exact .announce (ih closed)
  | deliver _ ih => exact .deliver (ih closed)

/-- At every point a run is partway, also between the calls of one transfer. -/
theorem run_partway (d : Dialogue α) (made : List Delivery) {script : Script}
    {before : List Observation} (part : before <+: (d.run listener receiver made script).trace) :
    d.Partway listener receiver made (acts script.data before) none := by
  induction d generalizing made script before with
  | done a =>
    rw [List.prefix_nil.1 part]
    exact .here _ made
  | refuse why =>
    rw [List.prefix_nil.1 part]
    exact .here _ made
  | pause ms next ih =>
    rcases List.prefix_cons_iff.1 part with rfl | ⟨rest, rfl, h⟩
    · exact .here _ made
    · exact .pause (ih made h)
  | send bs next ih =>
    have inside (part : before <+: (Run.writeAll bs script).trace) :
        (send bs next).Partway listener receiver made (acts script.data before) none := by
      rcases Run.writeAll_part part script.data with h | h | ⟨taken, failed, short, h⟩
      · rw [h]
        exact .here _ made
      · rw [h, ← List.append_nil (Act.sending bs)]
        exact .send (.here next made)
      · rw [h]
        exact .unsent short nofun
    obtain ⟨taken, failed, sends⟩ := Run.writeAll_sends bs script
    rw [Dialogue.run] at part
    by_cases whole : taken = bs.length
    · subst whole
      rw [Run.andThen_ok (sends.result.trans (if_pos rfl))] at part
      rcases List.prefix_or_prefix_of_prefix part (List.prefix_append _ _) with h | ⟨rest, rfl⟩
      · exact inside h
      · have data : (Run.writeAll bs script).stream.data = script.data := by
          simp only [Script.data, Script.tokens, sends.incoming]
        rw [sends.acts_whole, ← data]
        exact .send (ih made (List.prefix_append_right_inj _ |>.1 part))
    · rw [Run.andThen_error (sends.result.trans (if_neg whole))] at part
      exact inside part
  | receive count next ih =>
    have inside (part : before <+: (Run.readExact count script).trace) :
        (receive count next).Partway listener receiver made (acts script.data before) none := by
      rcases Run.readExact_part part with h | ⟨got, whole, h⟩ | ⟨got, failed, short, h⟩
      · rw [h]
        exact .here _ made
      · rw [h, ← List.append_nil (Act.reception got)]
        exact .receive whole (.here _ made)
      · rw [h]
        exact .unreceived short nofun
    obtain ⟨got, failed, receives⟩ := Run.readExact_receives count script
    rw [Dialogue.run] at part
    by_cases whole : got.length = count
    · rw [Run.andThen_ok (receives.result.trans (if_pos whole))] at part
      rcases List.prefix_or_prefix_of_prefix part (List.prefix_append _ _) with h | ⟨rest, rfl⟩
      · exact inside h
      · rw [receives.acts_whole whole]
        exact .receive whole (ih got made (List.prefix_append_right_inj _ |>.1 part))
    · rw [Run.andThen_error (receives.result.trans (if_neg whole))] at part
      exact inside part
  | announce event next ih =>
    cases listener with
    | none => exact .announce (ih made part)
    | some name =>
      rcases List.prefix_cons_iff.1 part with rfl | ⟨rest, rfl, h⟩
      · exact .here _ made
      · exact .announce (ih made h)
  | deliver dive next ih =>
    rcases List.prefix_cons_iff.1 part with rfl | ⟨rest, rfl, h⟩
    · exact .here _ made
    · exact .deliver (ih _ _ h)

namespace Partway

theorem stopped {outcome : Option (Except (Failure ScriptCall) β)} {why : Failure ScriptCall}
    (ends : ∀ result ∈ outcome, result = .error why) :
    ∃ stop : Option (Failure ScriptCall), outcome = stop.map .error ∧
      ∀ result ∈ (stop.map .error : Option (Except (Failure ScriptCall) α)), result = .error why := by
  rcases outcome with _ | result
  · exact ⟨none, rfl, nofun⟩
  · obtain rfl := ends result rfl
    exact ⟨some why, rfl, fun _ h => (Option.some.inj h).symm⟩

theorem of_bind {d : Dialogue α} {f : α → Dialogue β}
    {outcome : Option (Except (Failure ScriptCall) β)}
    (partway : (d >>= f).Partway listener receiver made later outcome) :
    (∃ a first second, d.Course listener receiver made first (.ok a) ∧
        (f a).Partway listener receiver (made ++ Act.deliveries first) second outcome ∧
        later = first ++ second) ∨
      ∃ stop : Option (Failure ScriptCall),
        d.Partway listener receiver made later (stop.map .error) ∧ outcome = stop.map .error := by
  induction d generalizing made later with
  | done a => exact .inl ⟨a, [], later, .done a made, by simpa using partway, rfl⟩
  | refuse why =>
    cases partway with
    | here => exact .inr ⟨none, .here _ made, rfl⟩
    | refuse => exact .inr ⟨some _, .refuse why made, rfl⟩
  | pause ms next ih =>
    cases partway with
    | here => exact .inr ⟨none, .here _ made, rfl⟩
    | pause rest =>
      rcases ih rest with ⟨a, first, second, h, h', rfl⟩ | ⟨stop, h, rfl⟩
      · exact .inl ⟨a, _, second, .pause h, by simpa [Act.delivery?] using h', rfl⟩
      · exact .inr ⟨stop, .pause h, rfl⟩
  | send bs next ih =>
    cases partway with
    | here => exact .inr ⟨none, .here _ made, rfl⟩
    | send rest =>
      rcases ih rest with ⟨a, first, second, h, h', rfl⟩ | ⟨stop, h, rfl⟩
      · exact .inl ⟨a, _, second, .send h, by simpa using h', (List.append_assoc ..).symm⟩
      · exact .inr ⟨stop, .send h, rfl⟩
    | unsent short ends =>
      obtain ⟨stop, rfl, ends⟩ := stopped ends
      exact .inr ⟨stop, .unsent short ends, rfl⟩
  | receive count next ih =>
    cases partway with
    | here => exact .inr ⟨none, .here _ made, rfl⟩
    | receive whole rest =>
      rcases ih _ rest with ⟨a, first, second, h, h', rfl⟩ | ⟨stop, h, rfl⟩
      · exact .inl ⟨a, _, second, .receive whole h, by simpa using h', (List.append_assoc ..).symm⟩
      · exact .inr ⟨stop, .receive whole h, rfl⟩
    | unreceived short ends =>
      obtain ⟨stop, rfl, ends⟩ := stopped ends
      exact .inr ⟨stop, .unreceived short ends, rfl⟩
  | announce event next ih =>
    cases partway with
    | here => exact .inr ⟨none, .here _ made, rfl⟩
    | announce rest =>
      rcases ih rest with ⟨a, first, second, h, h', rfl⟩ | ⟨stop, h, rfl⟩
      · exact .inl ⟨a, _, second, .announce h, by simpa using h', (List.append_assoc ..).symm⟩
      · exact .inr ⟨stop, .announce h, rfl⟩
  | deliver dive next ih =>
    cases partway with
    | here => exact .inr ⟨none, .here _ made, rfl⟩
    | deliver rest =>
      rcases ih _ rest with ⟨a, first, second, h, h', rfl⟩ | ⟨stop, h, rfl⟩
      · exact .inl ⟨a, _, second, .deliver h, by simpa [Act.delivery?] using h', rfl⟩
      · exact .inr ⟨stop, .deliver h, rfl⟩

theorem of_ofExcept {value : Except Refusal α} {f : α → Dialogue β}
    {outcome : Option (Except (Failure ScriptCall) β)}
    (partway : (Dialogue.ofExcept value >>= f).Partway listener receiver made later outcome) :
    (∃ a, value = .ok a ∧ (f a).Partway listener receiver made later outcome) ∨
      later = [] ∧ ∃ why, value = .error why ∧
        ∀ result ∈ outcome, result = .error (.refused why) := by
  cases value with
  | ok a => exact .inl ⟨a, rfl, partway⟩
  | error why =>
    cases partway with
    | here => exact .inr ⟨rfl, why, rfl, nofun⟩
    | refuse => exact .inr ⟨rfl, why, rfl, fun _ h => (Option.some.inj h).symm⟩

end Partway

end Dialogue

end DiveLink
