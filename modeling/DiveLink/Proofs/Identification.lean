import DiveLink.Proofs.Agreement
import DiveLink.Proofs.Belonging
import DiveLink.Proofs.Listeners
import DiveLink.Proofs.Stopping

set_option autoImplicit false

namespace DiveLink

theorem toNat_doubleWord (a b c d : UInt8) :
    (doubleWord a b c d).toNat = Bytes.value [a, b, c, d] := by
  have ha := a.toNat_lt
  have hb := b.toNat_lt
  have hc := c.toNat_lt
  have hd := d.toNat_lt
  rw [doubleWord, UInt32.toNat_ofNat']
  simp only [Bytes.value]
  omega

/-- The facts stand in a block from its first byte on, numbers with their lowest byte first. -/
structure DeviceInfo.StandsIn (info : DeviceInfo) (block : Bytes) : Prop where
  serial : info.serial.toNat = Bytes.value (block.take 4)
  model : block[4]? = some info.model
  firmware : info.firmware.toNat = Bytes.value ((block.drop 5).take 2)

theorem DeviceInfo.read?_standsIn {block : Bytes} {info : DeviceInfo}
    (found : DeviceInfo.read? block = some info) : info.StandsIn block := by
  unfold DeviceInfo.read? at found
  split at found
  · next s₀ s₁ s₂ s₃ model low high _ =>
    cases found
    exact ⟨toNat_doubleWord s₀ s₁ s₂ s₃, rfl, toNat_word low high⟩
  · cases found

theorem Identity.read_info {block : Bytes} {identity : Identity}
    (h : Identity.read block = .ok identity) : DeviceInfo.read? block = some identity.info := by
  unfold Identity.read at h
  split at h
  · cases h
  · obtain ⟨info, found, h⟩ := bind_eq_ok.1 h
    obtain ⟨version, -, h⟩ := bind_eq_ok.1 h
    cases h
    exact within_eq_ok.1 found

theorem mem_toldTo {listener : Option String} {events : List Event} {news : String × Event}
    (mem : news ∈ toldTo listener events) : news.2 ∈ events := by
  cases listener with
  | none => cases mem
  | some name =>
    simp only [toldTo, Option.toList_some, List.flatMap_cons, List.flatMap_nil,
      List.append_nil] at mem
    obtain ⟨event, told, rfl⟩ := List.mem_map.1 mem
    exact told

namespace Dialogue
variable {α β σ ε : Type} {allowed : Event → Prop}

variable [ByteStream σ ε] {listener : Option String} {receiver : Receiver}

theorem Keeps.announced {d : Dialogue α} (keeps : d.Keeps (.telling allowed))
    (made : List Delivery) (stream : σ) :
    ∀ event ∈ d.announced receiver made stream, allowed event := by
  induction d generalizing made stream with
  | done a => exact List.forall_mem_nil _
  | refuse why => exact List.forall_mem_nil _
  | pause ms next ih => exact ih keeps made _
  | send bs next ih =>
    simp only [Dialogue.announced]
    cases (Run.writeAll bs stream).result with
    | ok a => exact ih keeps.2 made _
    | error why => exact List.forall_mem_nil _
  | receive count next ih =>
    simp only [Dialogue.announced]
    cases (Run.readExact count stream).result with
    | ok bs => exact ih bs (keeps bs) made _
    | error why => exact List.forall_mem_nil _
  | announce event next ih =>
    exact List.forall_mem_cons.2 ⟨keeps.1, ih keeps.2 made stream⟩
  | deliver dive next ih => exact ih _ (keeps.2 _) _ stream

theorem Keeps.heardOf {d : Dialogue α} (keeps : d.Keeps (.telling allowed))
    (made : List Delivery) (stream : σ) :
    ∀ news ∈ heardOf (d.run listener receiver made stream).trace, allowed news.2 := by
  intro news mem
  rw [d.heardOf_run] at mem
  exact keeps.announced made stream _ (mem_toldTo mem)

theorem Keeps.unheard {d : Dialogue α} (silent : d.Keeps (.telling fun _ => False))
    (made : List Delivery) (stream : σ) :
    DiveLink.heardOf (d.run listener receiver made stream).trace = [] :=
  List.eq_nil_iff_forall_not_mem.2 (silent.heardOf made stream)

theorem run_bind {d : Dialogue α} (undelivering : d.Keeps .undelivering) (f : α → Dialogue β)
    (made : List Delivery) (stream : σ) :
    (d >>= f).run listener receiver made stream =
      (d.run listener receiver made stream).andThen fun a left =>
        (f a).run listener receiver made left := by
  induction d generalizing stream with
  | done a => rfl
  | refuse why => rfl
  | pause ms next ih => rw [pause_bind, run, run, Run.after_andThen, ih undelivering]
  | send bs next ih => simp only [send_bind, run, Run.andThen_andThen, ih undelivering.2]
  | receive count next ih =>
    simp only [receive_bind, run, Run.andThen_andThen, ih _ (undelivering _)]
  | announce event next ih => rw [announce_bind, run, run, Run.after_andThen, ih undelivering.2]
  | deliver dive next ih => exact undelivering.1.elim

end Dialogue

open Dialogue

namespace Exchange

theorem run_ask_ok {listener : Option String} {receiver : Receiver} {made : List Delivery}
    {command : Command} {payload : Bytes} {script : Script}
    (answered : ((ask command).run listener receiver made script).result = .ok payload) :
    payload.length ≤ Packet.maxPayload ∧ ∃ code, script.data = Packet.wire code payload ++
      ((ask command).run listener receiver made script).stream.data := by
  have course := @run_course _ listener receiver (ask command) made script
  rw [answered] at course
  obtain ⟨fit, code, seen⟩ := course_ask course
  have held := (ask command).run_heard listener receiver made script
  rw [seen, heard_askActs] at held
  exact ⟨fit, code, held⟩

end Exchange

open Exchange

namespace Conversation

theorem run_identify {σ ε : Type} [ByteStream σ ε] (name : String) (receiver : Receiver)
    (stream : σ) :
    let asked := (ask .version).run (some name) receiver [] stream
    let run := identify.run (some name) receiver [] stream
    (∃ why, run.result = .error why) ∧ heardOf run.trace = [] ∨
      ∃ block identity, asked.result = .ok block ∧ Identity.read block = .ok identity ∧
        run.result = .ok identity ∧ run.stream = asked.stream ∧
        heardOf run.trace = [(name, .vendor block), (name, .deviceInfo identity.info)] := by
  intro asked run
  have silent : heardOf asked.trace = [] := (keeps_ask trivial).unheard [] stream
  have split : run = asked.andThen fun block left =>
      (Dialogue.ofExcept (Identity.read block) >>= fun identity =>
        announce (.vendor block) (announce (.deviceInfo identity.info) (done identity))).run
          (some name) receiver [] left := by
    simp only [run, identify, readIdentity, bind_assoc, done_bind]
    exact run_bind (keeps_ask trivial) _ [] stream
  cases answered : asked.result with
  | error why =>
    rw [split, Run.andThen_error answered]
    exact .inl ⟨⟨why, rfl⟩, silent⟩
  | ok block =>
    rw [split, Run.andThen_ok answered]
    cases judged : Identity.read block with
    | error why =>
      refine .inl ⟨⟨.refused why, rfl⟩, ?_⟩
      rw [Run.after, heardOf_append, silent]
      rfl
    | ok identity =>
      refine .inr ⟨block, identity, rfl, judged, rfl, rfl, ?_⟩
      rw [Run.after, heardOf_append, silent]
      rfl

/-- An identity, the block that it was read from and the packet with this block, which is what is
gone from the script. -/
structure Identified (script left : Script) (block : Bytes) (identity : Identity) : Prop where
  packet : ∃ code, script.data = Packet.wire code block ++ left.data ∧
    Packet.decode (Packet.wire code block) = .ok block
  read : Identity.read block = .ok identity
  info : DeviceInfo.read? block = some identity.info
  standsIn : identity.info.StandsIn block

end Conversation

open Conversation

namespace Device

/-- A listener hears of a block and of its facts, in this order and of nothing else, just when the
device is identified; what is heard is the answer of the device, and when the request fails nothing
is heard. Of a download the listener hears how far it is, and nothing at all when the clock is set
or when the conversation ends. -/
theorem identify_heard (device : Device) {name : String} (listens : device.listener = some name)
    (script : Script) :
    let run := device.perform .takesAll identify script
    (∀ identity, run.result = .ok identity ↔ ∃ block,
      heardOf run.trace = [(name, .vendor block), (name, .deviceInfo identity.info)] ∧
        Identified script run.stream block identity) ∧
      (∀ why, run.result = .error why → heardOf run.trace = []) ∧
      ∀ {σ ε : Type} [ByteStream σ ε] (device : Device) (stream : σ),
        (∀ receiver, ∀ news ∈ heardOf (device.perform receiver
          (downloadNew device.fingerprint) stream).trace, ∃ now, news.2 = .progress now) ∧
        (∀ time, heardOf (device.perform .takesAll (setClock time) stream).trace = []) ∧
        heardOf (device.perform .takesAll leave stream).trace = [] := by
  intro run
  have cases := run_identify name .takesAll script
  rw [← listens] at cases
  refine ⟨fun identity => ⟨fun succeeded => ?_, ?_⟩, fun why failed => ?_, ?_⟩
  · rcases cases with ⟨⟨why, failed⟩, -⟩ | ⟨block, found, answered, judged, ended, left, heard⟩
    · cases failed.symm.trans succeeded
    · cases ended.symm.trans succeeded
      obtain ⟨fit, code, held⟩ := run_ask_ok answered
      have decoded := Packet.decode_wire fit code []
      rw [List.append_nil] at decoded
      have info := Identity.read_info judged
      exact ⟨block, heard, ⟨code, left ▸ held, decoded⟩, judged, info,
        DeviceInfo.read?_standsIn info⟩
  · rintro ⟨block, told, identified⟩
    rcases cases with ⟨-, silent⟩ | ⟨block', found, -, judged, ended, -, heard⟩
    · cases silent.symm.trans told
    · -- What was heard names the block, and the block makes only one identity.
      obtain rfl : block' = block := by simpa using (List.cons.inj (heard.symm.trans told)).1
      cases judged.symm.trans identified.read
      exact ended
  · rcases cases with ⟨-, silent⟩ | ⟨_, _, _, _, ended, _, _⟩
    · exact silent
    · cases ended.symm.trans failed
  · intro σ ε _ device stream
    refine ⟨fun receiver => ?_, fun time => ?_, ?_⟩
    · have counts (now : Progress) : ∃ later, Event.progress now = .progress later := ⟨now, rfl⟩
      have tells : (downloadNew device.fingerprint).Keeps (.telling (∃ now, · = .progress now)) :=
        keeps_downloadNew (fun _ => trivial) trivial counts (fun _ => trivial) _
      exact tells.heardOf [] stream
    · exact (keeps_setClock (fun _ => trivial) time).unheard [] stream
    · exact (keeps_leave fun _ => trivial).unheard [] stream

theorem identify_heard_startDate :
    let block : Bytes := [1, 2, 3, 4, 1, 200, 0, 0, 0, 0, 0]
    let identity : Identity := ⟨⟨1, 200, 0x04030201⟩, .startDate⟩
    let device : Device := ⟨.zero, some "dives"⟩
    let script : Script := ⟨[.bytes (Packet.wire 0 block ++ [7])], [], none, []⟩
    let run := device.perform .takesAll identify script
    device.listener = some "dives" ∧ run.result = .ok identity ∧ run.stream.data = [7] ∧
      ∃ block', heardOf run.trace =
        [("dives", .vendor block'), ("dives", .deviceInfo identity.info)] ∧
          Identified script run.stream block' identity := by
  intro block identity device script run
  have succeeded : run.result = .ok identity := by decide +kernel
  exact ⟨rfl, succeeded, by decide +kernel,
    ((identify_heard device rfl script).1 identity).1 succeeded⟩

end Device

end DiveLink
