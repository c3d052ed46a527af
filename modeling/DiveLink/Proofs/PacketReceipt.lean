import DiveLink.Proofs.Answers
import DiveLink.Proofs.PacketCodec

set_option autoImplicit false

namespace DiveLink.Exchange
open Dialogue

variable {listener : Option String} {receiver : Receiver} {made : List Delivery}
  {bs : Bytes} {length : UInt8}

theorem follow_ofExcept {α : Type} (value : Except Refusal α) (tokens : List Token) :
    (Dialogue.ofExcept value).follow listener receiver made tokens =
      ⟨value.mapError .refused, [], tokens⟩ := by
  cases value <;> rfl

theorem tokens_split (count : Nat) (later : List Token) :
    bs.map .byte ++ later = (bs.take count).map .byte ++ ((bs.drop count).map .byte ++ later) := by
  rw [← List.append_assoc, ← List.map_append, List.take_append_drop]

theorem follow_header (enough : Packet.headerLength ≤ bs.length) (later : List Token) :
    receivePacket.follow listener receiver made (bs.map .byte ++ later) =
      ((Dialogue.ofExcept (Packet.payloadLength bs) >>= fun length =>
          receive (length + (Packet.overhead - Packet.headerLength)) fun rest =>
            Dialogue.ofExcept (Packet.decode (bs.take Packet.headerLength ++ rest))).follow
        listener receiver made ((bs.drop Packet.headerLength).map .byte ++ later)).after
          (Act.reception (bs.take Packet.headerLength)) := by
  have whole := List.length_take_of_le enough
  have same : Packet.payloadLength (bs.take Packet.headerLength) = Packet.payloadLength bs := by
    have h := Packet.payloadLength_append (Nat.le_of_eq whole.symm) (bs.drop Packet.headerLength)
    rwa [List.take_append_drop, eq_comm] at h
  rw [receivePacket, tokens_split Packet.headerLength later, follow_receive whole, same]

theorem follow_headless {why : Refusal} (enough : Packet.headerLength ≤ bs.length)
    (refused : Packet.payloadLength bs = .error why) (later : List Token) :
    receivePacket.follow listener receiver made (bs.map .byte ++ later) =
      ⟨.error (.refused why), Act.reception (bs.take Packet.headerLength),
        (bs.drop Packet.headerLength).map .byte ++ later⟩ := by
  rw [follow_header enough, refused]
  simp [Dialogue.follow, Passage.after]

theorem follow_headerless (few : bs.length < Packet.headerLength) (times : Nat) :
    receivePacket.follow listener receiver made (bs.map .byte ++ List.replicate times .silence) =
      ⟨.error (.timeout Packet.headerLength bs.length),
        [.received Packet.headerLength bs false], List.replicate (times - 1) .silence⟩ :=
  follow_short few _ times

theorem follow_measured (announces : Packet.Announces bs length)
    (fit : length.toNat ≤ Packet.maxPayload) (later : List Token) :
    receivePacket.follow listener receiver made (bs.map .byte ++ later) =
      ((receive (length.toNat + (Packet.overhead - Packet.headerLength)) fun rest =>
          Dialogue.ofExcept (Packet.decode (bs.take Packet.headerLength ++ rest))).follow
        listener receiver made ((bs.drop Packet.headerLength).map .byte ++ later)).after
          (Act.reception (bs.take Packet.headerLength)) := by
  rw [follow_header announces.length_le, announces.payloadLength_eq, if_pos fit, ofExcept_ok,
    done_bind]

theorem follow_decoded (announces : Packet.Announces bs length)
    (fit : length.toNat ≤ Packet.maxPayload)
    (enough : length.toNat + Packet.overhead ≤ bs.length) (later : List Token) :
    (receivePacket.follow listener receiver made (bs.map .byte ++ later)).result =
        (Packet.decode bs).mapError .refused ∧
      (receivePacket.follow listener receiver made (bs.map .byte ++ later)).left =
        (bs.drop (length.toNat + Packet.overhead)).map .byte ++ later := by
  have sum : Packet.headerLength + (length.toNat + (Packet.overhead - Packet.headerLength)) =
      length.toNat + Packet.overhead := by
    rw [Packet.headerLength, Packet.overhead]
    omega
  have whole : ((bs.drop Packet.headerLength).take
      (length.toNat + (Packet.overhead - Packet.headerLength))).length =
        length.toNat + (Packet.overhead - Packet.headerLength) := by
    rw [List.length_take_of_le]
    rw [List.length_drop]
    omega
  have packet : bs.take Packet.headerLength ++ (bs.drop Packet.headerLength).take
      (length.toNat + (Packet.overhead - Packet.headerLength)) =
        bs.take (length.toNat + Packet.overhead) := by
    rw [← List.take_add, sum]
  rw [follow_measured announces fit, tokens_split _ later, follow_receive whole, packet,
    Packet.decode_take announces fit enough, follow_ofExcept, List.drop_drop, sum]
  exact ⟨rfl, rfl⟩

def Consumed {α : Type} (bs : Bytes) (count : Nat) (run : Run Script ScriptCall α) : Prop :=
  count ≤ bs.length ∧ run.stream.data = bs.drop count

/-- What becomes of a packet that is received from some bytes with nothing behind them, by what the
decoder makes of the same bytes. -/
structure Agrees (bs : Bytes) (run : Run Script ScriptCall Bytes) : Prop where
  accepted : ∀ payload, Packet.decode bs = .ok payload →
    run.result = .ok payload ∧ Consumed bs (payload.length + Packet.overhead) run
  headless : ∀ why, Packet.decode bs = .error why →
    (∃ found, why = .headerMarkers found) ∨ (∃ length, why = .payloadLength length) →
      run.result = .error (.refused why) ∧ Consumed bs Packet.headerLength run
  corrupt : ∀ why, Packet.decode bs = .error why →
    (∃ found, why = .trailer found) ∨ (∃ expected calculated, why = .checksum expected calculated) →
      ∃ length, bs[3]? = some length ∧ run.result = .error (.refused why) ∧
        Consumed bs (length.toNat + Packet.overhead) run
  truncated : ∀ size min, Packet.decode bs = .error (.truncated size min) →
    (bs.length < 4 → run.result = .error (.timeout 4 bs.length)) ∧
      (4 ≤ bs.length → ∃ length, bs[3]? = some length ∧
        run.result = .error (.timeout (length.toNat + 4) (bs.length - 4))) ∧
      Consumed bs bs.length run

theorem shortfall_ne_refused (call : ScriptCall) (failed : Bool) (expected transferred : Nat)
    (why : Refusal) : shortfall call failed expected transferred ≠ .refused why := by
  cases failed <;> simp [shortfall]

/-- As many bytes are decoded as were announced. -/
theorem course_not_truncated {seen : List Act} {result : Except (Failure ScriptCall) Bytes}
    (course : receivePacket.Course listener receiver made seen result) (size min : Nat) :
    result ≠ .error (.refused (.truncated size min)) := by
  intro ended
  rw [← bind_done receivePacket, receivePacket_bind] at course
  cases course with
  | unreceived short => exact shortfall_ne_refused _ _ _ _ _ (Except.error.inj ended)
  | @receive _ _ _ header later _ whole measured =>
    have enough := Nat.le_of_eq whole.symm
    rcases Course.of_ofExcept measured with ⟨length, announced, received⟩ | ⟨-, why, refused, rfl⟩
    · cases received with
      | unreceived short => exact shortfall_ne_refused _ _ _ _ _ (Except.error.inj ended)
      | @receive _ _ _ rest later _ whole' checked =>
        rcases Course.of_ofExcept checked with ⟨payload, decoded, done⟩ | ⟨-, why, refused, rfl⟩
        · cases done
          cases ended
        · cases ended
          have total : (header ++ rest).length = length + Packet.overhead := by
            rw [List.length_append, whole, whole', Packet.overhead, Packet.headerLength]
            omega
          cases Packet.decode_eq_error_iff.1 refused with
          | short few =>
            rw [total, Packet.overhead, Packet.headerLength] at few
            omega
          | truncated announces fit few =>
            have same := Packet.payloadLength_append enough rest
            rw [announced, announces.payloadLength_eq, if_pos fit] at same
            cases same
            omega
    · cases ended
      rcases Packet.announces_or_unmarked enough with ⟨length, announces⟩ | ⟨-, other⟩
      · rw [announces.payloadLength_eq] at refused
        split at refused <;> cases refused
      · cases other.symm.trans refused

def receivePackets : Nat → Dialogue (List Bytes)
  | 0 => done []
  | count + 1 => do
    let first ← receivePacket
    let later ← receivePackets count
    done (first :: later)

theorem keeps_receivePackets {limits : Limits} (count : Nat) :
    (receivePackets count).Keeps limits := by
  induction count with
  | zero => trivial
  | succ count ih => exact keeps_receivePacket.bind fun _ => ih.bind fun _ => trivial

theorem follow_receivePackets {α : Type} {frames : List (UInt8 × Bytes)} {packets : List Bytes}
    (encoded : List.Forall₂ (fun frame packet => Packet.encode frame.1 frame.2 = .ok packet)
      frames packets) (f : List Bytes → Dialogue α) (later : List Token) :
    (receivePackets frames.length >>= f).follow listener receiver made
        (packets.flatten.map .byte ++ later) =
      ((f (frames.map Prod.snd)).follow listener receiver made later).after
        (packets.flatMap packetActs) := by
  induction encoded generalizing f with
  | nil => rfl
  | @cons frame packet frames packets first _ ih =>
    obtain ⟨fit, rfl⟩ := Packet.encode_eq_ok_iff.1 first
    rw [List.length_cons, receivePackets, bind_assoc, List.flatten_cons, List.map_append,
      List.append_assoc, follow_receivePacket fit, bind_assoc, ih]
    simp

section Streams
variable {script : Script} {times : Nat}

theorem run_receivePacket (hands : script.maxRead ≠ some 0)
    (supplied : script.tokens = bs.map .byte ++ List.replicate times .silence) :
    (receivePacket.run listener receiver made script).Follows script
      (receivePacket.follow listener receiver made (bs.map .byte ++ List.replicate times .silence)) :=
  supplied ▸ receivePacket.run_follows_of listener receiver made hands (.inr keeps_receivePacket)

theorem consumed_of_left {α : Type} {run : Run Script ScriptCall α} {count : Nat}
    (fit : count ≤ bs.length)
    (left : run.stream.tokens = (bs.drop count).map .byte ++ List.replicate times .silence) :
    Consumed bs count run :=
  ⟨fit, by rw [Script.data, left, Token.data_silent]⟩

theorem run_decoded (announces : Packet.Announces bs length)
    (fit : length.toNat ≤ Packet.maxPayload) (enough : length.toNat + Packet.overhead ≤ bs.length)
    (hands : script.maxRead ≠ some 0)
    (supplied : script.tokens = bs.map .byte ++ List.replicate times .silence) :
    (receivePacket.run listener receiver made script).result =
        (Packet.decode bs).mapError .refused ∧
      Consumed bs (length.toNat + Packet.overhead)
        (receivePacket.run listener receiver made script) := by
  have follows := @run_receivePacket listener receiver made _ _ _ hands supplied
  obtain ⟨result, left⟩ := @follow_decoded listener receiver made _ _ announces fit enough
    (List.replicate times .silence)
  exact ⟨follows.result.trans result, consumed_of_left enough (follows.left.trans left)⟩

theorem run_headless {why : Refusal} (enough : Packet.headerLength ≤ bs.length)
    (refused : Packet.payloadLength bs = .error why) (hands : script.maxRead ≠ some 0)
    (supplied : script.tokens = bs.map .byte ++ List.replicate times .silence) :
    (receivePacket.run listener receiver made script).result = .error (.refused why) ∧
      Consumed bs Packet.headerLength (receivePacket.run listener receiver made script) := by
  have follows := @run_receivePacket listener receiver made _ _ _ hands supplied
  rw [follow_headless enough refused] at follows
  exact ⟨follows.result, consumed_of_left enough follows.left⟩

theorem run_short (few : bs.length < Packet.headerLength) (hands : script.maxRead ≠ some 0)
    (supplied : script.tokens = bs.map .byte ++ List.replicate times .silence) :
    (receivePacket.run listener receiver made script).result =
        .error (.timeout Packet.headerLength bs.length) ∧
      Consumed bs bs.length (receivePacket.run listener receiver made script) := by
  have follows := @run_receivePacket listener receiver made _ _ _ hands supplied
  rw [follow_headerless few] at follows
  exact ⟨follows.result, consumed_of_left (Nat.le_refl _) (by simpa using follows.left)⟩

theorem run_truncated (announces : Packet.Announces bs length)
    (fit : length.toNat ≤ Packet.maxPayload) (few : bs.length < length.toNat + Packet.overhead)
    (hands : script.maxRead ≠ some 0)
    (supplied : script.tokens = bs.map .byte ++ List.replicate times .silence) :
    (receivePacket.run listener receiver made script).result =
        .error (.timeout (length.toNat + 4) (bs.length - 4)) ∧
      Consumed bs bs.length (receivePacket.run listener receiver made script) := by
  have follows := @run_receivePacket listener receiver made _ _ _ hands supplied
  have enough := announces.length_le
  have short : (bs.drop Packet.headerLength).length <
      length.toNat + (Packet.overhead - Packet.headerLength) := by
    simp only [Packet.overhead, Packet.headerLength, List.length_drop] at few enough ⊢
    omega
  rw [follow_measured announces fit, follow_short short, List.length_drop] at follows
  exact ⟨follows.result, consumed_of_left (Nat.le_refl _) (by simpa using follows.left)⟩

theorem run_agrees (hands : script.maxRead ≠ some 0)
    (supplied : script.tokens = bs.map .byte ++ List.replicate times .silence) :
    Agrees bs (receivePacket.run listener receiver made script) where
  accepted := by
    intro payload ok
    obtain ⟨fit, command, rest, rfl⟩ := Packet.decode_ok ok
    have length := Packet.toNat_ofNat_length fit
    have enough : (UInt8.ofNat payload.length).toNat + Packet.overhead ≤
        (Packet.wire command payload ++ rest).length := by
      rw [length, List.length_append, Packet.length_wire]
      omega
    have h := @run_decoded listener receiver made _ _ _ _ (Packet.announces_wire command payload rest)
      (by rwa [length]) enough hands supplied
    rwa [ok, length] at h
  headless := by
    intro why refused header
    cases Packet.decode_eq_error_iff.1 refused with
    | unmarked enough other =>
      exact run_headless enough (Packet.payloadLength_unmarked enough other) hands supplied
    | tooLong announces above =>
      exact run_headless announces.length_le (announces.payloadLength_above above) hands supplied
    | _ => simp at header
  corrupt := by
    intro why refused rear
    cases Packet.decode_eq_error_iff.1 refused with
    | unclosed announces fit last other | corrupt announces fit last sum differs =>
      obtain ⟨inside, -⟩ := List.getElem?_eq_some_iff.1 last
      have h := @run_decoded listener receiver made _ _ _ _ announces fit inside hands supplied
      rw [refused] at h
      exact ⟨_, announces.getElem?, h⟩
    | _ => simp at rear
  truncated := by
    intro size min refused
    cases Packet.decode_eq_error_iff.1 refused with
    | short few =>
      obtain ⟨timeout, consumed⟩ := @run_short listener receiver made _ _ _ few hands supplied
      exact ⟨fun _ => timeout, fun enough => absurd few (Nat.not_lt.2 enough), consumed⟩
    | truncated announces fit few =>
      obtain ⟨timeout, consumed⟩ :=
        @run_truncated listener receiver made _ _ _ _ announces fit few hands supplied
      exact ⟨fun few => absurd few (Nat.not_lt.2 announces.length_le),
        fun _ => ⟨_, announces.getElem?, timeout⟩, consumed⟩

theorem run_receivePackets (hands : script.maxRead ≠ some 0)
    (supplied : script.tokens = bs.map .byte ++ List.replicate times .silence)
    {frames : List (UInt8 × Bytes)} {packets : List Bytes} {rest : Bytes}
    (encoded : List.Forall₂ (fun frame packet => Packet.encode frame.1 frame.2 = .ok packet)
      frames packets) (split : bs = packets.flatten ++ rest) :
    ((receivePackets frames.length).run listener receiver made script).result =
        .ok (frames.map Prod.snd) ∧
      ((receivePackets frames.length).run listener receiver made script).stream.data = rest := by
  have follows := (receivePackets frames.length).run_follows_of listener receiver made hands
    (.inr (keeps_receivePackets _))
  have received := @follow_receivePackets listener receiver made _ _ _ encoded done
    (rest.map .byte ++ List.replicate times .silence)
  rw [bind_done, ← List.append_assoc, ← List.map_append, ← split, ← supplied] at received
  rw [received] at follows
  exact ⟨follows.result, by rw [Script.data, follows.left]; exact Token.data_silent rest times⟩

end Streams

/-- Over a stream that supplies some bytes, in whatever pieces, and then nothing, a packet is
received as the decoder judges the same bytes, and packets are received one behind the other. -/
theorem receivePacket_agrees {script : Script} {times : Nat} (hands : script.maxRead ≠ some 0)
    (supplied : script.tokens = bs.map .byte ++ List.replicate times .silence) :
    Agrees bs (receivePacket.run listener receiver made script) ∧
      (∀ frames packets rest, bs = packets.flatten ++ rest →
        List.Forall₂ (fun frame packet => Packet.encode frame.1 frame.2 = .ok packet)
          frames packets →
        ((receivePackets frames.length).run listener receiver made script).result =
            .ok (frames.map Prod.snd) ∧
          ((receivePackets frames.length).run listener receiver made script).stream.data = rest) ∧
      ∀ (other : Script) size min, (receivePacket.run listener receiver made other).result ≠
        .error (.refused (.truncated size min)) :=
  ⟨run_agrees hands supplied,
    fun _ _ _ split encoded => run_receivePackets hands supplied encoded split,
    fun other => course_not_truncated (run_course _ _ other)⟩

theorem receivePacket_agrees_pieces :
    let bs := Packet.wire CommandCode.version [7, 8] ++ [9]
    let script : Script :=
      ⟨[.bytes (bs.take 2), .bytes (bs.drop 2), .silence], [.fault], some 3, []⟩
    let run := receivePacket.run none .takesAll [] script
    script.maxRead ≠ some 0 ∧ script.tokens = bs.map .byte ++ List.replicate 1 .silence ∧
      run.result = .ok [7, 8] ∧ Consumed bs 10 run := by
  intro bs script run
  have hands : script.maxRead ≠ some 0 := by decide
  have supplied : script.tokens = bs.map .byte ++ List.replicate 1 .silence := by
    rw [tokens_split 2]
    rfl
  have decoded : Packet.decode bs = .ok [7, 8] := Packet.decode_wire (by decide) _ [9]
  exact ⟨hands, supplied, (receivePacket_agrees hands supplied).1.accepted _ decoded⟩

end DiveLink.Exchange
