import DiveLink.Checked
import DiveLink.Proofs.Acts
import DiveLink.Proofs.Faultless

set_option autoImplicit false

namespace DiveLink

namespace Dialogue
variable {α β : Type} {P : α → Prop}

/-- Two dialogues that go alike whatever they receive, are refused for no fault, and give a value
with a property. -/
inductive Agree (P : α → Prop) : Dialogue α → Dialogue α → Prop
  | done {a : α} (known : P a) : Agree P (.done a) (.done a)
  | refuse {why : Refusal} (sound : why.kind ≠ .fault) : Agree P (.refuse why) (.refuse why)
  | pause {ms : Nat} {next next' : Dialogue α} (rest : Agree P next next') :
    Agree P (.pause ms next) (.pause ms next')
  | send {bs : Bytes} {next next' : Dialogue α} (rest : Agree P next next') :
    Agree P (.send bs next) (.send bs next')
  | receive {count : Nat} {next next' : Bytes → Dialogue α}
    (rest : ∀ bs, bs.length = count → Agree P (next bs) (next' bs)) :
    Agree P (.receive count next) (.receive count next')
  | announce {event : Event} {next next' : Dialogue α} (rest : Agree P next next') :
    Agree P (.announce event next) (.announce event next')
  | deliver {dive : Delivery} {next next' : DiveControl → Dialogue α}
    (rest : ∀ reply, Agree P (next reply) (next' reply)) :
    Agree P (.deliver dive next) (.deliver dive next')

theorem Agree.bind {R : β → Prop} {d d' : Dialogue α} {f f' : α → Dialogue β}
    (first : Agree P d d') (second : ∀ a, P a → Agree R (f a) (f' a)) :
    Agree R (d >>= f) (d' >>= f') := by
  induction first with
  | done known => exact second _ known
  | refuse sound => exact .refuse sound
  | pause _ ih => exact .pause ih
  | send _ ih => exact .send ih
  | receive _ ih => exact .receive ih
  | announce _ ih => exact .announce ih
  | deliver _ ih => exact .deliver ih

theorem agree_ofExcept {value : Except Refusal α} (sound : Faultless value) :
    Agree (value = .ok ·) (ofExcept value) (ofExcept value) := by
  cases value with
  | ok a => exact .done rfl
  | error why => exact .refuse (sound why rfl)

theorem Agree.checked {check : Except Refusal β} {b : β} (passed : check = .ok b)
    {f : β → Dialogue α} {d' : Dialogue α} (rest : Agree P (f b) d') :
    Agree P (ofExcept check >>= f) d' := by
  rw [passed]
  exact rest

end Dialogue

namespace Run
variable {α β γ σ ε : Type}

theorem after_andThen (seen : List Observation) (run : Run σ ε α) (next : α → σ → Run σ ε β) :
    (run.after seen).andThen next = (run.andThen next).after seen := by
  obtain ⟨result, trace, stream⟩ := run
  cases result <;> simp [andThen, after]

theorem andThen_andThen (run : Run σ ε α) (next : α → σ → Run σ ε β) (last : β → σ → Run σ ε γ) :
    (run.andThen next).andThen last = run.andThen fun a left => (next a left).andThen last := by
  obtain ⟨result, trace, stream⟩ := run
  cases result with
  | ok a => exact after_andThen trace (next a stream) last
  | error why => rfl

theorem andThen_ended (run : Run σ ε α) : (run.andThen fun a left => ended (.ok a) left) = run := by
  obtain ⟨result, trace, stream⟩ := run
  cases result <;> simp [andThen, after, ended]

end Run

theorem Token.Read.length_le {limit : Nat} {tokens later : List Token} {bs : Bytes}
    (read : Read limit tokens (.ok bs) later) : bs.length ≤ limit := by
  cases read with
  | bytes _ fit => exact fit
  | nothing | silence | idle => exact Nat.zero_le limit

theorem Script.length_read {count : Nat} {script : Script} {bs : Bytes}
    (read : (script.read count).1 = .ok bs) : bs.length ≤ count := by
  have seen := (script.read_tokens count).1
  rw [read] at seen
  exact Nat.le_trans seen.length_le (script.readLimit_le count)

theorem Script.write_le {bs : Bytes} (any : bs ≠ []) {script : Script} {count : Nat}
    (taken : (script.write bs).1 = .ok count) : count ≤ bs.length := by
  rcases (script.write_takes any).2.2 with ⟨n, h, fit, -⟩ | ⟨h, -⟩ | ⟨h, -⟩
  · rw [h] at taken
    cases taken
    exact fit
  · rw [h] at taken
    cases taken
    exact Nat.zero_le _
  · rw [h] at taken
    cases taken

namespace Checked
variable {α : Type} {listener : Option String} {receiver : Receiver}

theorem fill_readMissing {size : Nat} {filled : Bytes} (fit : filled.length ≤ size)
    (script : Script) :
    fill size filled script = (Run.readMissing size (size - filled.length) script).andThen
      fun rest left => .ended (.ok (filled ++ rest)) left := by
  induction due : size - filled.length using Nat.strongRecOn generalizing filled script with
  | ind missing ih =>
    rw [fill, Run.readMissing]
    by_cases full : missing = 0
    · rw [if_neg (by omega), if_pos full]
      simp [Run.andThen, Run.ended, Run.after]
    rw [if_pos (by omega), if_neg full, due]
    dsimp only
    have next : ByteStream.read missing script = script.read missing := rfl
    have most := @Script.length_read missing script
    rw [next]
    generalize script.read missing = seen at most
    have transferred : size - missing = filled.length := by omega
    rcases seen with ⟨cause | bs, left⟩
    · rfl
    cases bs with
    | nil =>
      rw [transferred]
      rfl
    | cons b bs =>
      have part := most rfl
      have some : 0 < (b :: bs).length := Nat.succ_pos _
      dsimp only
      rw [if_pos (by omega), Run.after_andThen, Run.andThen_andThen,
        ih (missing - (b :: bs).length) (by omega) (by rw [List.length_append]; omega) left
          (by rw [List.length_append]; omega)]
      simp [Run.andThen, Run.ended, Run.after]

theorem fill_eq (count : Nat) (script : Script) :
    fill count [] script = Run.readExact count script := by
  rw [fill_readMissing (Nat.zero_le count)]
  exact Run.andThen_ended _

theorem drain_writeMissing {bs : Bytes} {gone : Nat} (fit : gone ≤ bs.length) (script : Script) :
    drain bs gone script = Run.writeMissing bs.length (bs.drop gone) script := by
  induction due : bs.length - gone using Nat.strongRecOn generalizing gone script with
  | ind missing ih =>
    have length : (bs.drop gone).length = missing := by rw [List.length_drop, due]
    rw [drain, Run.writeMissing, length]
    by_cases finished : missing = 0
    · rw [if_neg (by omega), if_pos finished]
    rw [if_pos (by omega), if_neg finished]
    dsimp only
    have any : bs.drop gone ≠ [] := fun none => finished (by rw [← length, none]; rfl)
    have next : ByteStream.write (bs.drop gone) script = script.write (bs.drop gone) := rfl
    have most := @Script.write_le _ any script
    rw [next]
    generalize script.write (bs.drop gone) = seen at most
    have transferred : bs.length - missing = gone := by omega
    rcases seen with ⟨cause | count, left⟩
    · rfl
    cases count with
    | zero => rw [transferred]
    | succ count =>
      have part := most rfl
      dsimp only
      rw [if_pos (by omega), ih (missing - (count + 1)) (by omega) (by omega) left (by omega),
        List.drop_drop]

theorem drain_eq (bs : Bytes) (script : Script) : drain bs 0 script = Run.writeAll bs script :=
  drain_writeMissing (Nat.zero_le _) script

theorem run_eq {P : α → Prop} {d d' : Dialogue α} (agree : d.Agree P d') (made : List Delivery)
    (script : Script) :
    run listener receiver d made script = d'.run listener receiver made script := by
  induction agree generalizing made script with
  | done known => rfl
  | refuse sound => rfl
  | pause _ ih => rw [run, Dialogue.run, ih]
  | send _ ih =>
    rw [run, Dialogue.run, drain_eq]
    congr 1
    funext _ left
    exact ih made left
  | @receive count next next' _ ih =>
    obtain ⟨got, failed, received⟩ := Run.readExact_receives count script
    rw [run, Dialogue.run, fill_eq]
    -- Only bytes of the length asked for go on to the rest.
    by_cases whole : got.length = count
    · have result := received.result.trans (if_pos whole)
      rw [Run.andThen_ok result, Run.andThen_ok result, ih got whole]
    · have result := received.result.trans (if_neg whole)
      rw [Run.andThen_error result, Run.andThen_error result]
  | announce _ ih => rw [run, Dialogue.run, ih]
  | deliver _ ih => rw [run, Dialogue.run, ih]

end Checked

theorem shortfall_kind (call : ScriptCall) (failed : Bool) (expected transferred : Nat) :
    (shortfall call failed expected transferred).kind = .io := by
  cases failed <;> rfl

namespace Dialogue
variable {α : Type} {listener : Option String} {receiver : Receiver}

theorem Agree.run_kind {P : α → Prop} {d d' : Dialogue α} (agree : d.Agree P d')
    {made : List Delivery} {script : Script} {failure : Failure ScriptCall}
    (failed : (d'.run listener receiver made script).result = .error failure) :
    failure.kind ≠ .fault := by
  induction agree generalizing made script with
  | done known => cases failed
  | refuse sound =>
    cases failed
    exact sound
  | pause _ ih => exact ih failed
  | @send bs _ _ _ ih =>
    obtain ⟨taken, broken, sent⟩ := Run.writeAll_sends bs script
    rw [Dialogue.run] at failed
    by_cases whole : taken = bs.length
    · rw [Run.andThen_ok (sent.result.trans (if_pos whole))] at failed
      exact ih failed
    · rw [Run.andThen_error (sent.result.trans (if_neg whole))] at failed
      cases failed
      rw [shortfall_kind]
      decide
  | @receive count _ _ _ ih =>
    obtain ⟨got, broken, received⟩ := Run.readExact_receives count script
    rw [Dialogue.run] at failed
    by_cases whole : got.length = count
    · rw [Run.andThen_ok (received.result.trans (if_pos whole))] at failed
      exact ih got whole failed
    · rw [Run.andThen_error (received.result.trans (if_neg whole))] at failed
      cases failed
      rw [shortfall_kind]
      decide
  | announce _ ih => exact ih failed
  | deliver _ ih => exact ih _ failed

end Dialogue

end DiveLink
