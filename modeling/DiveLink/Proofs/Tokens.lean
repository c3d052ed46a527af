import DiveLink.Script

/-! The supplies of a script taken apart into single bytes and what comes between them. Where
one supply ended and the next began is lost; nothing else is. -/

set_option autoImplicit false

namespace DiveLink

inductive Token where
  | byte (b : UInt8)
  | silence
  | fault
  deriving DecidableEq, Repr

namespace Token

def data : List Token → Bytes
  | [] => []
  | byte b :: later => b :: data later
  | silence :: later | fault :: later => data later

@[simp] theorem data_append (before later : List Token) :
    data (before ++ later) = data before ++ data later := by
  induction before with
  | nil => rfl
  | cons t before ih => cases t <;> simp [data, ih]

@[simp] theorem data_map_byte (bs : Bytes) : data (bs.map byte) = bs := by
  induction bs with
  | nil => rfl
  | cons b bs ih => simp [data, ih]

@[simp] theorem data_replicate_silence (count : Nat) : data (List.replicate count silence) = [] := by
  induction count with
  | zero => rfl
  | succ count ih => simp [List.replicate_succ, data, ih]

theorem data_silent (bs : Bytes) (times : Nat) :
    data (bs.map byte ++ List.replicate times silence) = bs := by
  rw [data_append, data_map_byte, data_replicate_silence, List.append_nil]

structure Receipt where
  bytes : Bytes
  failed : Bool
  left : List Token
  deriving DecidableEq, Repr

def receive : Nat → List Token → Receipt
  | 0, tokens => ⟨[], false, tokens⟩
  | _ + 1, [] => ⟨[], false, []⟩
  | _ + 1, silence :: later => ⟨[], false, later⟩
  | _ + 1, fault :: later => ⟨[], true, later⟩
  | count + 1, byte b :: later =>
    let rest := receive count later
    { rest with bytes := b :: rest.bytes }

@[simp] theorem receive_zero (tokens : List Token) : receive 0 tokens = ⟨[], false, tokens⟩ := by
  simp [receive]

theorem receive_bytes (bs : Bytes) (count : Nat) (later : List Token) :
    receive (bs.length + count) (bs.map byte ++ later) =
      { receive count later with bytes := bs ++ (receive count later).bytes } := by
  induction bs with
  | nil => simp
  | cons b bs ih =>
    rw [List.length_cons, Nat.add_right_comm, List.map_cons, List.cons_append, receive, ih]
    rfl

theorem receive_all (bs : Bytes) (later : List Token) :
    receive bs.length (bs.map byte ++ later) = ⟨bs, false, later⟩ := by
  have h := receive_bytes bs 0 later
  simpa using h

theorem receive_take {bs : Bytes} {count : Nat} (fit : count ≤ bs.length) (later : List Token) :
    receive count (bs.map byte ++ later) =
      ⟨bs.take count, false, (bs.drop count).map byte ++ later⟩ := by
  have h := receive_all (bs.take count) ((bs.drop count).map byte ++ later)
  rwa [List.length_take_of_le fit, ← List.append_assoc, ← List.map_append,
    List.take_append_drop] at h

theorem receive_silent {bs : Bytes} {count : Nat} (short : bs.length < count) (times : Nat) :
    receive count (bs.map byte ++ List.replicate times silence) =
      ⟨bs, false, List.replicate (times - 1) silence⟩ := by
  obtain ⟨missing, rfl⟩ := Nat.exists_eq_add_of_lt short
  rw [Nat.add_assoc, receive_bytes]
  cases times with
  | zero => simp [receive]
  | succ times => simp [List.replicate_succ, receive]

theorem length_receive_le (count : Nat) (tokens : List Token) :
    (receive count tokens).bytes.length ≤ count := by
  induction tokens generalizing count with
  | nil => cases count <;> simp [receive]
  | cons token later ih =>
    cases count with
    | zero => simp
    | succ count =>
      cases token with
      | byte b => simpa [receive] using ih count
      | silence | fault => simp [receive]

/-- What one read of at most `limit` bytes can make of the tokens in front of it. -/
inductive Read (limit : Nat) : List Token → Except ScriptCall Bytes → List Token → Prop
  | bytes {bs : Bytes} {later : List Token} (any : bs ≠ []) (fit : bs.length ≤ limit) :
    Read limit (bs.map byte ++ later) (.ok bs) later
  | nothing : Read limit [] (.ok []) []
  | silence {later : List Token} : Read limit (silence :: later) (.ok []) later
  | fault {later : List Token} : Read limit (fault :: later) (.error .read) later
  | idle {tokens : List Token} (unwilling : limit = 0) : Read limit tokens (.ok []) tokens

end Token

def Supply.tokens : Supply → List Token
  | bytes bs => bs.map .byte
  | silence => [.silence]
  | fault => [.fault]

theorem Supply.length_data (s : Supply) : (Token.data s.tokens).length = s.length := by
  cases s <;> simp [tokens, length, Token.data]

namespace Script

def tokens (script : Script) : List Token := script.incoming.flatMap Supply.tokens

def data (script : Script) : Bytes := Token.data script.tokens

/-- A script whose reads hand over something while there is something, and whose writes take
something. -/
structure Willing (script : Script) : Prop where
  hands : script.maxRead ≠ some 0
  takes : ∀ a ∈ script.outgoing, ∃ count, a = .atMost (count + 1)

instance (script : Script) : Decidable script.Willing :=
  decidable_of_iff (script.maxRead ≠ some 0 ∧ ∀ a ∈ script.outgoing, a ≠ .fault ∧ a ≠ .atMost 0) <| by
    constructor
    · rintro ⟨hands, takes⟩
      refine ⟨hands, fun a ha => ?_⟩
      match a, takes a ha with
      | .atMost (count + 1), _ => exact ⟨count, rfl⟩
    · rintro ⟨hands, takes⟩
      refine ⟨hands, fun a ha => ?_⟩
      obtain ⟨count, rfl⟩ := takes a ha
      simp

theorem unread_eq_length_data (script : Script) : script.unread = script.data.length := by
  unfold unread data tokens
  induction script.incoming with
  | nil => rfl
  | cons s later ih =>
    simp only [List.foldr_cons, List.flatMap_cons, Token.data_append,
      List.length_append, ih, Supply.length_data]

theorem tokens_queue (supplies : List Supply) (script : Script) :
    (script.queue supplies).tokens = script.tokens ++ supplies.flatMap Supply.tokens := by
  simp [tokens, queue]

theorem readFrom_tokens (count : Nat) (supplies : List Supply) :
    Token.Read count (supplies.flatMap Supply.tokens) (readFrom count supplies).1
      ((readFrom count supplies).2.flatMap Supply.tokens) := by
  fun_induction readFrom count supplies with
  | case1 => exact .nothing
  | case2 later ih => simpa [Supply.tokens] using ih
  | case3 bs later any fit =>
    exact .bytes (by simpa using any) fit
  | case4 bs later any long =>
    rw [List.flatMap_cons, List.flatMap_cons]
    by_cases unwilling : count = 0
    · subst unwilling
      simpa [Supply.tokens] using Token.Read.idle rfl
    · have split : (Supply.bytes bs).tokens ++ later.flatMap Supply.tokens =
          (bs.take count).map .byte ++
            ((Supply.bytes (bs.drop count)).tokens ++ later.flatMap Supply.tokens) := by
        rw [← List.append_assoc, Supply.tokens, Supply.tokens, ← List.map_append,
          List.take_append_drop]
      rw [split]
      exact .bytes (by simpa [unwilling] using any) (List.length_take_le ..)
  | case5 later => exact .silence
  | case6 later => exact .fault

theorem read_tokens (count : Nat) (script : Script) :
    Token.Read (script.readLimit count) script.tokens (script.read count).1
        (script.read count).2.tokens ∧
      (script.read count).2.outgoing = script.outgoing ∧
      (script.read count).2.maxRead = script.maxRead :=
  ⟨readFrom_tokens (script.readLimit count) script.incoming, rfl, rfl⟩

theorem readLimit_le (count : Nat) (script : Script) : script.readLimit count ≤ count := by
  unfold readLimit
  split
  · exact Nat.le_refl count
  · exact Nat.min_le_left ..

theorem readLimit_pos {count : Nat} (any : 0 < count) {script : Script}
    (hands : script.maxRead ≠ some 0) : 0 < script.readLimit count := by
  unfold readLimit
  split
  · exact any
  · next most h =>
    have : most ≠ 0 := fun hz => hands (by rw [h, hz])
    omega

theorem write_takes {bs : Bytes} (any : bs ≠ []) (script : Script) :
    (script.write bs).2.incoming = script.incoming ∧
      (script.write bs).2.maxRead = script.maxRead ∧
      ((∃ count, (script.write bs).1 = .ok (count + 1) ∧ count + 1 ≤ bs.length ∧
          (script.Willing → (script.write bs).2.Willing)) ∨
        (script.write bs).1 = .ok 0 ∧ ¬ script.Willing ∨
        (script.write bs).1 = .error .write ∧ ¬ script.Willing) := by
  have length := List.length_pos_iff.2 any
  rcases taking : script.outgoing with _ | ⟨⟨limit⟩ | _, later⟩
  · simp only [write, taking, true_and]
    exact .inl ⟨bs.length - 1, by rw [Nat.sub_add_cancel length], by omega, id⟩
  · simp only [write, taking, true_and]
    rcases limit with _ | limit
    · right; left
      refine ⟨by simp, fun willing => ?_⟩
      obtain ⟨count, h⟩ := willing.takes (.atMost 0) (by simp [taking])
      cases h
    · left
      refine ⟨min (limit + 1) bs.length - 1, ?_, by omega, fun willing => ⟨willing.hands, ?_⟩⟩
      · rw [Nat.sub_add_cancel (by omega)]
      · intro a ha
        exact willing.takes a (by rw [taking]; exact List.mem_cons_of_mem _ ha)
  · simp only [write, taking, true_and]
    right; right
    intro willing
    obtain ⟨count, h⟩ := willing.takes .fault (by simp [taking])
    cases h

end Script

end DiveLink
