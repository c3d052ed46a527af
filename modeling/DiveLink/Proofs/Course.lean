import DiveLink.Proofs.Following

set_option autoImplicit false

namespace DiveLink

namespace Dialogue

/-- A course of a dialogue, with its acts and its result. -/
inductive Course {α : Type} (listener : Option String) (receiver : Receiver) :
    Dialogue α → List Delivery → List Act → Except (Failure ScriptCall) α → Prop
  | done (a : α) (made : List Delivery) : Course listener receiver (.done a) made [] (.ok a)
  | refuse (why : Refusal) (made : List Delivery) :
    Course listener receiver (.refuse why) made [] (.error (.refused why))
  | pause {ms : Nat} {next : Dialogue α} {made : List Delivery} {later : List Act}
    {result : Except (Failure ScriptCall) α} (rest : Course listener receiver next made later result) :
    Course listener receiver (.pause ms next) made (.paused ms :: later) result
  | send {bs : Bytes} {next : Dialogue α} {made : List Delivery} {later : List Act}
    {result : Except (Failure ScriptCall) α} (rest : Course listener receiver next made later result) :
    Course listener receiver (.send bs next) made (Act.sending bs ++ later) result
  | unsent {bs : Bytes} {next : Dialogue α} {made : List Delivery} {taken : Nat} {failed : Bool}
    (short : taken < bs.length) :
    Course listener receiver (.send bs next) made [.sent bs taken failed]
      (.error (shortfall .write failed bs.length taken))
  | receive {count : Nat} {next : Bytes → Dialogue α} {made : List Delivery} {bs : Bytes}
    {later : List Act} {result : Except (Failure ScriptCall) α} (whole : bs.length = count)
    (rest : Course listener receiver (next bs) made later result) :
    Course listener receiver (.receive count next) made (Act.reception bs ++ later) result
  | unreceived {count : Nat} {next : Bytes → Dialogue α} {made : List Delivery} {bs : Bytes}
    {failed : Bool} (short : bs.length < count) :
    Course listener receiver (.receive count next) made [.received count bs failed]
      (.error (shortfall .read failed count bs.length))
  | announce {event : Event} {next : Dialogue α} {made : List Delivery} {later : List Act}
    {result : Except (Failure ScriptCall) α} (rest : Course listener receiver next made later result) :
    Course listener receiver (.announce event next) made
      (listener.toList.map (.told · event) ++ later) result
  | deliver {dive : Delivery} {next : DiveControl → Dialogue α} {made : List Delivery}
    {later : List Act} {result : Except (Failure ScriptCall) α}
    (rest : Course listener receiver (next (receiver (made ++ [dive]))) (made ++ [dive]) later
      result) :
    Course listener receiver (.deliver dive next) made (.delivered dive :: later) result

variable {α β : Type} {listener : Option String} {receiver : Receiver}

theorem run_course (d : Dialogue α) (made : List Delivery) (script : Script) :
    d.Course listener receiver made
      (acts script.data (d.run listener receiver made script).trace)
      (d.run listener receiver made script).result := by
  induction d generalizing made script with
  | done a => exact .done a made
  | refuse why => exact .refuse why made
  | pause ms next ih => exact .pause (ih made script)
  | send bs next ih =>
    obtain ⟨taken, failed, h⟩ := Run.writeAll_sends bs script
    rw [Dialogue.run]
    by_cases whole : taken = bs.length
    · subst whole
      have data : (Run.writeAll bs script).stream.data = script.data := by
        simp only [Script.data, Script.tokens, h.incoming]
      have rest := ih made (Run.writeAll bs script).stream
      rw [Run.andThen_ok (h.result.trans (if_pos rfl)), Run.after, h.acts_whole, ← data]
      exact .send rest
    · have short : taken < bs.length := Nat.lt_of_le_of_ne h.fit whole
      have any : bs ≠ [] := fun none => by simp [none] at short
      have seen := h.acts any script.data []
      rw [List.append_nil] at seen
      rw [Run.andThen_error (h.result.trans (if_neg whole)), seen, Nat.sub_self, Nat.zero_add]
      exact .unsent short
  | receive count next ih =>
    obtain ⟨got, failed, h⟩ := Run.readExact_receives count script
    rw [Dialogue.run]
    by_cases whole : got.length = count
    · have rest := ih got made (Run.readExact count script).stream
      rw [Run.andThen_ok (h.result.trans (if_pos whole)), Run.after, h.acts_whole whole]
      exact .receive whole rest
    · have short : got.length < count := Nat.lt_of_le_of_ne h.fit whole
      have seen := h.acts (Nat.zero_lt_of_lt short) []
      rw [List.append_nil] at seen
      rw [Run.andThen_error (h.result.trans (if_neg whole)), seen, Nat.sub_self, Nat.zero_add]
      exact .unreceived short
  | announce event next ih =>
    have rest := ih made script
    cases listener <;> exact .announce rest
  | deliver dive next ih => exact .deliver (ih _ _ script)

theorem follow_course (d : Dialogue α) (made : List Delivery) (tokens : List Token) :
    d.Course listener receiver made (d.follow listener receiver made tokens).acts
      (d.follow listener receiver made tokens).result := by
  induction d generalizing made tokens with
  | done a => exact .done a made
  | refuse why => exact .refuse why made
  | pause ms next ih => exact .pause (ih made tokens)
  | send bs next ih => exact .send (ih made tokens)
  | receive count next ih =>
    have fit := Token.length_receive_le count tokens
    simp only [Dialogue.follow]
    split
    · next whole => exact .receive whole (ih _ made _)
    · next short => exact .unreceived (Nat.lt_of_le_of_ne fit short)
  | announce event next ih => exact .announce (ih made tokens)
  | deliver dive next ih => exact .deliver (ih _ _ tokens)

namespace Course

variable {made : List Delivery} {later : List Act}

/-- A course of two dialogues in a row is one of the first followed by one of the second, or one
of the first that fails. -/
theorem of_bind {d : Dialogue α} {f : α → Dialogue β} {result : Except (Failure ScriptCall) β}
    (course : (d >>= f).Course listener receiver made later result) :
    (∃ a first second, d.Course listener receiver made first (.ok a) ∧
        (f a).Course listener receiver (made ++ Act.deliveries first) second result ∧
        later = first ++ second) ∨
      ∃ why, d.Course listener receiver made later (.error why) ∧ result = .error why := by
  induction d generalizing made later with
  | done a => exact .inl ⟨a, [], later, .done a made, by simpa using course, rfl⟩
  | refuse why =>
    cases course
    exact .inr ⟨_, .refuse why made, rfl⟩
  | pause ms next ih =>
    cases course with
    | pause rest =>
      rcases ih rest with ⟨a, first, second, h, h', rfl⟩ | ⟨why, h, rfl⟩
      · exact .inl ⟨a, _, second, .pause h, by simpa [Act.delivery?] using h', rfl⟩
      · exact .inr ⟨why, .pause h, rfl⟩
  | send bs next ih =>
    cases course with
    | send rest =>
      rcases ih rest with ⟨a, first, second, h, h', rfl⟩ | ⟨why, h, rfl⟩
      · exact .inl ⟨a, _, second, .send h, by simpa using h', (List.append_assoc ..).symm⟩
      · exact .inr ⟨why, .send h, rfl⟩
    | unsent short => exact .inr ⟨_, .unsent short, rfl⟩
  | receive count next ih =>
    cases course with
    | receive whole rest =>
      rcases ih _ rest with ⟨a, first, second, h, h', rfl⟩ | ⟨why, h, rfl⟩
      · exact .inl ⟨a, _, second, .receive whole h, by simpa using h', (List.append_assoc ..).symm⟩
      · exact .inr ⟨why, .receive whole h, rfl⟩
    | unreceived short => exact .inr ⟨_, .unreceived short, rfl⟩
  | announce event next ih =>
    cases course with
    | announce rest =>
      rcases ih rest with ⟨a, first, second, h, h', rfl⟩ | ⟨why, h, rfl⟩
      · exact .inl ⟨a, _, second, .announce h, by simpa using h', (List.append_assoc ..).symm⟩
      · exact .inr ⟨why, .announce h, rfl⟩
  | deliver dive next ih =>
    cases course with
    | deliver rest =>
      rcases ih _ rest with ⟨a, first, second, h, h', rfl⟩ | ⟨why, h, rfl⟩
      · exact .inl ⟨a, _, second, .deliver h, by simpa [Act.delivery?] using h', rfl⟩
      · exact .inr ⟨why, .deliver h, rfl⟩

theorem of_ofExcept {value : Except Refusal α} {f : α → Dialogue β}
    {result : Except (Failure ScriptCall) β}
    (course : (Dialogue.ofExcept value >>= f).Course listener receiver made later result) :
    (∃ a, value = .ok a ∧ (f a).Course listener receiver made later result) ∨
      later = [] ∧ ∃ why, value = .error why ∧ result = .error (.refused why) := by
  cases value with
  | ok a => exact .inl ⟨a, rfl, course⟩
  | error why =>
    cases course
    exact .inr ⟨rfl, why, rfl, rfl⟩

theorem follow {d : Dialogue α} {a : α}
    (course : d.Course listener receiver made later (.ok a)) (rest : List Token) :
    d.follow listener receiver made ((Act.heard later).map .byte ++ rest) = ⟨.ok a, later, rest⟩ := by
  generalize ended : (Except.ok a : Except (Failure ScriptCall) α) = result at course
  induction course with
  | done a' made =>
    cases ended
    rfl
  | refuse why made => cases ended
  | pause _ ih => simp [Dialogue.follow, Act.came, ih ended, Passage.after]
  | send _ ih => simp [Dialogue.follow, ih ended, Passage.after]
  | unsent short => cases ended
  | receive whole _ ih =>
    rw [Act.heard_append, Act.heard_reception, List.map_append, List.append_assoc,
      follow_receive whole, ih ended]
    rfl
  | unreceived short => cases ended
  | announce _ ih => simp [Dialogue.follow, ih ended, Passage.after]
  | deliver _ ih => simp [Dialogue.follow, Act.came, ih ended, Passage.after]

end Course

theorem Course.keeps {d : Dialogue α} {made : List Delivery} {later : List Act}
    {result : Except (Failure ScriptCall) α} {limits : Limits}
    (course : d.Course listener receiver made later result) (keeps : d.Keeps limits) :
    ∀ act ∈ later, limits.Allows act := by
  induction course with
  | done | refuse => exact List.forall_mem_nil _
  | pause _ ih => exact List.forall_mem_cons.2 ⟨trivial, ih keeps⟩
  | @send bs _ _ _ _ _ ih =>
    refine List.forall_mem_append.2 ⟨?_, ih keeps.2⟩
    rw [Act.sending]
    split
    · exact List.forall_mem_nil _
    · exact List.forall_mem_singleton.2 keeps.1
  | unsent short => exact List.forall_mem_singleton.2 keeps.1
  | @receive _ _ _ bs _ _ _ _ ih =>
    refine List.forall_mem_append.2 ⟨?_, ih (keeps bs)⟩
    rw [Act.reception]
    split
    · exact List.forall_mem_nil _
    · exact List.forall_mem_singleton.2 trivial
  | unreceived short => exact List.forall_mem_singleton.2 trivial
  | @announce event _ _ _ _ _ ih =>
    refine List.forall_mem_append.2 ⟨?_, ih keeps.2⟩
    exact List.forall_mem_map.2 fun _ _ => keeps.1
  | deliver _ ih => exact List.forall_mem_cons.2 ⟨keeps.1, ih (keeps.2 _)⟩

theorem Course.plain {d : Dialogue α} {made : List Delivery} {later : List Act}
    {result : Except (Failure ScriptCall) α}
    (course : d.Course listener receiver made later result) (plain : d.Keeps .plain) :
    Act.deliveries later = [] ∧ Act.diveRequests later = [] := by
  have allowed := course.keeps plain
  constructor
  · refine List.filterMap_eq_nil_iff.2 fun act mem => ?_
    cases act with
    | delivered dive => exact (allowed _ mem).elim
    | _ => rfl
  · refine List.filterMap_eq_nil_iff.2 fun act mem => ?_
    cases act with
    | sent bs taken failed => exact if_neg (allowed _ mem)
    | _ => rfl

end Dialogue

end DiveLink
