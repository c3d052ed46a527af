import DiveLink.Proofs.CheckedTransfers

set_option autoImplicit false

namespace DiveLink.Exchange
open Dialogue

variable {listener : Option String} {receiver : Receiver} {made : List Delivery}

/-- What a transfer comes to when its bytes have the format. -/
structure Accepted (start : Option Progress) (data bs : Bytes)
    (run : Run Script ScriptCall (Bytes × Option Progress)) : Prop where
  announced : Bulk.announced bs = data.length
  result : run.result =
    .ok (data, start.map fun p => { p with current := p.current + .ofNat Progress.steps })
  acknowledged : run.trace.flatMap Observation.taken =
    List.replicate (Bulk.chunkCount data.length + 1) Chunk.acknowledgement
  consumed : run.stream.data = bs.drop (Chunk.length * Bulk.chunkCount data.length + 1)

structure Rejected (bs : Bytes) (count consumed : Nat) (why : Failure ScriptCall)
    (run : Run Script ScriptCall (Bytes × Option Progress)) : Prop where
  result : run.result = .error why
  acknowledged : run.trace.flatMap Observation.taken = List.replicate count Chunk.acknowledgement
  consumed : run.stream.data = bs.drop consumed

variable {script : Script} {bs : Bytes} {times : Nat} (buffer : Bytes) (start : Option Progress)

theorem receiveBulk_accepted (willing : script.Willing)
    (supplied : script.tokens = bs.map .byte ++ List.replicate times .silence) {data : Bytes}
    (begins : Bulk.Begins data bs) :
    Accepted start data bs ((receiveBulk buffer start).run listener receiver made script) := by
  have agree := (receiveBulk buffer start).run_follows listener receiver made willing
  rw [← bind_done (receiveBulk buffer start), supplied, follow_begins buffer start begins] at agree
  rw [bind_done] at agree
  refine ⟨begins.announced_eq, agree.result.trans ?_, ?_, ?_⟩
  · simp only [Passage.after_result, Dialogue.follow, Progress.reached_end _ (Bulk.total_pos _)]
  · rw [← Act.said_acts script.data, agree.acts, Passage.after_acts, Act.said_append,
      said_transferActs]
    exact List.append_nil _
  · rw [Script.data, agree.left]
    exact Token.data_silent ..

theorem receiveBulk_rejected (willing : script.Willing)
    (supplied : script.tokens = bs.map .byte ++ List.replicate times .silence)
    {count consumed : Nat} {why : Failure ScriptCall}
    (breaks : Bulk.Breaks bs count consumed why) :
    Rejected bs count consumed why
      ((receiveBulk buffer start).run listener receiver made script) := by
  have agree := (receiveBulk buffer start).run_follows listener receiver made willing
  have broken := @follow_breaks _ listener receiver made buffer start _ _ _ _ breaks done times
  rw [bind_done, ← supplied] at broken
  refine ⟨agree.result.trans broken.result, ?_, ?_⟩
  · rw [← Act.said_acts script.data, agree.acts, broken.acknowledged]
  · rw [Script.data, agree.left, broken.left]

/-- A transfer over a stream that supplies some bytes, in whatever pieces, and then nothing: into any
buffer, and counted from any progress or not at all. Its counts wrap; where they are checked instead,
the transfer is the same from any progress with room for its steps. -/
theorem receiveBulk_exact (willing : script.Willing)
    (supplied : script.tokens = bs.map .byte ++ List.replicate times .silence) :
    let run := (receiveBulk buffer start).run listener receiver made script
    (∀ data, (∃ now, run.result = .ok (data, now)) ↔ Bulk.Begins data bs) ∧
      (∀ data, Bulk.Begins data bs → Accepted start data bs run) ∧
      (∀ count consumed why, Bulk.Breaks bs count consumed why →
        Rejected bs count consumed why run) ∧
      ((∃ data, Bulk.Begins data bs) ∨ ∃ count consumed why, Bulk.Breaks bs count consumed why) ∧
      ((∀ p ∈ start, p.HasRoom) →
        Checked.run listener receiver (Checked.receiveBulk buffer start) made script = run) := by
  intro run
  have accepted {data : Bytes} (begins : Bulk.Begins data bs) : Accepted start data bs run :=
    receiveBulk_accepted buffer start willing supplied begins
  have rejected {count consumed : Nat} {why : Failure ScriptCall}
      (breaks : Bulk.Breaks bs count consumed why) : Rejected bs count consumed why run :=
    receiveBulk_rejected buffer start willing supplied breaks
  refine ⟨fun data => ⟨?_, fun begins => ⟨_, (accepted begins).result⟩⟩, fun _ => accepted,
    fun _ _ _ => rejected, Bulk.begins_or_breaks bs,
    fun room => Checked.run_eq (Checked.receiveBulk_agree room buffer) made script⟩
  rintro ⟨now, ok⟩
  rcases Bulk.begins_or_breaks bs with ⟨other, begins⟩ | ⟨_, _, _, breaks⟩
  · cases ok.symm.trans (accepted begins).result
    exact begins
  · cases ok.symm.trans (rejected breaks).result

/-- Three bytes of data, cut off behind the first byte of their chunk, over what is left of an older
transfer: once not counted, once from the last number of a word, and once with checked counts. -/
theorem receiveBulk_exact_three :
    let bs := Bulk.wire (Bulk.parts [7, 8, 9])
    let script : Script :=
      ⟨[.bytes (bs.take 1), .bytes (bs.drop 1), .silence], [.atMost 1], some 7, []⟩
    let last : Progress := ⟨0xFFFFFFFF, 0⟩
    script.Willing ∧ script.tokens = bs.map .byte ++ List.replicate 1 .silence ∧
      ((receiveBulk [1, 2, 3, 4] none).run none .takesAll [] script).result =
        .ok ([7, 8, 9], none) ∧
      ((receiveBulk [1, 2, 3, 4] (some last)).run none .takesAll [] script).result =
        .ok ([7, 8, 9], some ⟨999, 0⟩) ∧
      (Checked.run none .takesAll (Checked.receiveBulk [1, 2, 3, 4] (some .start)) []
        script).result = .ok ([7, 8, 9], some ⟨1000, 0⟩) := by
  intro bs script last
  have willing : script.Willing := by decide
  have supplied : script.tokens = bs.map .byte ++ List.replicate 1 .silence := by
    have whole : (bs.take 1).map Token.byte ++ (bs.drop 1).map .byte = bs.map .byte := by
      rw [← List.map_append, List.take_append_drop]
    rw [← whole, List.append_assoc]
    rfl
  have carries : Bulk.Carries [7, 8, 9] bs := Bulk.carries_parts (by decide)
  have exact (start : Option Progress) :=
    @receiveBulk_exact none .takesAll [] script bs 1 [1, 2, 3, 4] start willing supplied
  have accepted (start : Option Progress) : Accepted start [7, 8, 9] bs
      ((receiveBulk [1, 2, 3, 4] start).run none .takesAll [] script) :=
    (exact start).2.1 _ carries.toBegins
  have wraps : ({ last with current := last.current + .ofNat Progress.steps } : Progress) =
      ⟨999, 0⟩ := by decide
  have room : ∀ p ∈ some Progress.start, p.HasRoom := by
    rintro _ ⟨⟩
    decide
  refine ⟨willing, supplied, (accepted none).result, ?_, ?_⟩
  · exact (accepted (some last)).result.trans (by rw [Option.map_some, wraps])
  · rw [(exact (some .start)).2.2.2.2 room]
    exact (accepted (some .start)).result

end DiveLink.Exchange
