import DiveLink.Proofs.Layouts

set_option autoImplicit false

namespace DiveLink

theorem Layout.fingerprintOffset?_isSome {entryLength : Nat} :
    (fingerprintOffset? entryLength).isSome ↔ entryLength = 15 ∨ entryLength = 23 := by
  by_cases older : entryLength = 23
  · simp [older, fingerprintOffset?, families, copiedHeader]
  · by_cases newer : entryLength = 15
    · simp [newer, fingerprintOffset?, families, copiedHeader, startDate]
    · simp [older, newer, fingerprintOffset?, families, copiedHeader, startDate, eq_comm]

theorem Identity.fingerprintOffset?_eq {block : Bytes} {identity : Identity}
    (h : Identity.read block = .ok identity) :
    Layout.fingerprintOffset? identity.layout.entryLength =
      some identity.layout.fingerprintOffset := by
  rcases (Identity.read_sizes h).2 with ⟨-, length, offset, -⟩ | ⟨-, length, offset, -⟩ <;>
    rw [length, offset] <;> rfl

namespace DiveRecord

/-- A record of one of the families, by the length of its entry. -/
structure Known (r : DiveRecord) : Prop where
  length : r.entry.length = 15 ∨ r.entry.length = 23

/-- What bytes show as a record. Every part is cut from inside of them. -/
structure Shows (bs : Bytes) (r : DiveRecord) : Prop where
  bytes : r.wire = bs
  split : bs = bs.take tagLength ++ r.entry ++ r.dive
  version : bs[2]? = some r.version
  length : bs[3]?.map UInt8.toNat = some r.entry.length
  entry : bs.slice? tagLength (tagLength + r.entry.length) = some r.entry
  dive : bs.slice? (tagLength + r.entry.length) bs.length = some r.dive
  number : r.number?.isSome
  fingerprint : ∃ offset print, Layout.fingerprintOffset? r.entry.length = some offset ∧
    r.fingerprint? = some print ∧
    bs.slice? (tagLength + offset) (tagLength + offset + Fingerprint.size) = some print

/-- The first check that bytes fail as a record. Each supposes that those before it are passed. -/
inductive Rejects (bs : Bytes) : Refusal → Prop
  | short (few : bs.length < tagLength) : Rejects bs (.diveTooShort bs.length tagLength)
  | unmarked (enough : tagLength ≤ bs.length) (other : bs.take 2 ≠ magic) :
    Rejects bs (.recordTag (bs.take 2))
  | unknown {length : UInt8} (marked : bs.take 2 = magic) (announced : bs[3]? = some length)
    (other : length ≠ 15 ∧ length ≠ 23) : Rejects bs (.entryLength length)
  | truncated {length : UInt8} (marked : bs.take 2 = magic) (announced : bs[3]? = some length)
    (known : length = 15 ∨ length = 23) (few : bs.length < tagLength + length.toNat) :
    Rejects bs (.diveTooShort bs.length (tagLength + length.toNat))

variable {bs : Bytes} {r : DiveRecord}

theorem toNat_known {length : UInt8} :
    length.toNat = 15 ∨ length.toNat = 23 ↔ length = 15 ∨ length = 23 := by
  have number (n : UInt8) : length.toNat = n.toNat ↔ length = n := UInt8.toNat_inj
  exact or_congr (number 15) (number 23)

theorem Known.toNat (known : r.Known) : (UInt8.ofNat r.entry.length).toNat = r.entry.length := by
  rcases known.length with length | length <;> rw [length] <;> rfl

theorem length_wire (r : DiveRecord) :
    r.wire.length = tagLength + r.entry.length + r.dive.length := by
  simp only [wire, magic, tagLength, List.length_append, List.length_cons, List.length_nil]

theorem offset_inside {entryLength offset : Nat}
    (found : Layout.fingerprintOffset? entryLength = some offset) :
    offset + Fingerprint.size ≤ entryLength := by
  rcases Layout.fingerprintOffset?_isSome.1 (Option.isSome_of_eq_some found) with rfl | rfl <;>
    cases found <;> decide

theorem fingerprint?_eq {offset : Nat}
    (found : Layout.fingerprintOffset? r.entry.length = some offset) :
    r.fingerprint? = some ((r.entry.drop offset).take Fingerprint.size) := by
  rw [fingerprint?, found]
  exact slice?_window (offset_inside found)

theorem shows_wire (known : r.Known) : Shows r.wire r where
  bytes := rfl
  split := rfl
  version := rfl
  length := congrArg some known.toNat
  entry := slice?_of_split (magic ++ [r.version, .ofNat r.entry.length]) r.dive rfl rfl rfl
  dive := by
    refine slice?_of_split (magic ++ [r.version, .ofNat r.entry.length] ++ r.entry) [] ?_ ?_ ?_
    · rw [List.append_nil, wire]
    · simp [magic, tagLength, Nat.add_comm, Nat.add_left_comm]
    · rw [length_wire]
  number := by
    rcases entry_eq : r.entry with _ | ⟨low, _ | ⟨high, rest⟩⟩
    · simpa [entry_eq] using known.length
    · simpa [entry_eq] using known.length
    · simp [number?, entry_eq, Bytes.word?]
  fingerprint := by
    obtain ⟨offset, found⟩ :=
      Option.isSome_iff_exists.1 (Layout.fingerprintOffset?_isSome.2 known.length)
    exact ⟨offset, _, found, fingerprint?_eq found, slice?_nested (offset_inside found)
      (magic ++ [r.version, .ofNat r.entry.length]) r.dive⟩

theorem read_wire (known : r.Known) : read r.wire = .ok r := by
  have usable := Layout.fingerprintOffset?_isSome.2 known.length
  have enough : ¬ (r.entry ++ r.dive).length < r.entry.length := by
    rw [List.length_append]
    omega
  simp only [wire, magic, List.cons_append, List.nil_append, read, known.toNat, usable, enough,
    if_true, if_false, List.take_left, List.drop_left]

theorem wire_of_parts {version length : UInt8} {body : Bytes}
    (enough : length.toNat ≤ body.length) :
    wire ⟨version, body.take length.toNat, body.drop length.toNat⟩ =
      0xDC :: 0xDC :: version :: length :: body := by
  simp [wire, magic, List.length_take_of_le enough]

theorem read_ok (h : read bs = .ok r) : r.Known ∧ r.wire = bs := by
  unfold read at h
  split at h
  · next a b version length body =>
    split at h
    · next marked =>
      split at h
      · next usable =>
        split at h
        · cases h
        · next enough =>
          have enough := Nat.le_of_not_lt enough
          cases h
          cases marked
          refine ⟨⟨?_⟩, wire_of_parts enough⟩
          rw [List.length_take_of_le enough]
          exact Layout.fingerprintOffset?_isSome.1 usable
      · cases h
    · cases h
  · cases h

theorem read_eq_ok_iff : read bs = .ok r ↔ r.Known ∧ r.wire = bs := by
  refine ⟨read_ok, ?_⟩
  rintro ⟨known, rfl⟩
  exact read_wire known

theorem Rejects.read {why : Refusal} (rejects : Rejects bs why) : read bs = .error why := by
  cases rejects with
  | short few =>
    match bs, few with
    | [], _ | [_], _ | [_, _], _ | [_, _, _], _ => rfl
    | _ :: _ :: _ :: _ :: _, few =>
      simp only [List.length_cons, tagLength] at few
      omega
  | unmarked enough other =>
    match bs, enough with
    | a :: b :: version :: length :: body, _ => exact if_neg other
    | [], enough | [_], enough | [_, _], enough | [_, _, _], enough =>
      simp only [List.length_cons, List.length_nil, tagLength] at enough
      omega
  | @unknown length marked announced other =>
    match bs, announced with
    | a :: b :: version :: _ :: body, rfl =>
      have useless : ¬ (Layout.fingerprintOffset? length.toNat).isSome = true := fun usable =>
        (toNat_known.1 (Layout.fingerprintOffset?_isSome.1 usable)).elim other.1 other.2
      exact (if_pos marked).trans (if_neg useless)
  | @truncated length marked announced known few =>
    match bs, announced with
    | a :: b :: version :: _ :: body, rfl =>
      have usable := Layout.fingerprintOffset?_isSome.2 (toNat_known.2 known)
      have size : (a :: b :: version :: length :: body).length = tagLength + body.length := by
        simp only [List.length_cons, tagLength]
        omega
      rw [size] at few ⊢
      exact (if_pos marked).trans ((if_pos usable).trans (if_pos (by omega)))

theorem read_ok_or (bs : Bytes) : (∃ r, read bs = .ok r) ∨ ∃ why, Rejects bs why := by
  match bs with
  | [] | [_] | [_, _] | [_, _, _] =>
    refine .inr ⟨_, .short ?_⟩
    simp only [List.length_cons, List.length_nil, tagLength]
    omega
  | a :: b :: version :: length :: body =>
    by_cases marked : [a, b] = magic
    · by_cases known : length = 15 ∨ length = 23
      · by_cases few : body.length < length.toNat
        · refine .inr ⟨_, .truncated marked rfl known ?_⟩
          simp only [List.length_cons, tagLength]
          omega
        · have enough := Nat.le_of_not_lt few
          cases marked
          refine .inl ⟨_, read_eq_ok_iff.2 ⟨⟨?_⟩, wire_of_parts enough⟩⟩
          rw [List.length_take_of_le enough]
          exact toNat_known.2 known
      · exact .inr ⟨_, .unknown marked rfl (not_or.1 known)⟩
    · refine .inr ⟨_, .unmarked ?_ marked⟩
      simp only [List.length_cons, tagLength]
      omega

theorem read_eq_error_iff {why : Refusal} : read bs = .error why ↔ Rejects bs why := by
  refine ⟨fun refused => ?_, Rejects.read⟩
  rcases read_ok_or bs with ⟨r, ok⟩ | ⟨other, rejects⟩
  · cases ok.symm.trans refused
  · cases rejects.read.symm.trans refused
    exact rejects

theorem read_isOk_iff : (∃ r, read bs = .ok r) ↔ ∃ version length body,
    bs = 0xDC :: 0xDC :: version :: length :: body ∧ (length = 15 ∨ length = 23) ∧
      length.toNat ≤ body.length := by
  constructor
  · rintro ⟨r, ok⟩
    obtain ⟨known, rfl⟩ := read_ok ok
    refine ⟨r.version, .ofNat r.entry.length, r.entry ++ r.dive, by simp [wire, magic], ?_, ?_⟩
    · rw [← toNat_known, known.toNat]
      exact known.length
    · rw [known.toNat, List.length_append]
      exact Nat.le_add_right ..
  · rintro ⟨version, length, body, rfl, known, enough⟩
    refine ⟨_, read_eq_ok_iff.2 ⟨⟨?_⟩, wire_of_parts enough⟩⟩
    rw [List.length_take_of_le enough]
    exact toNat_known.2 known

theorem assemble_eq {layout : Layout} {entry : Bytes} (length : entry.length = layout.entryLength)
    (dive : Bytes) : assemble layout entry dive = wire ⟨layout.version.number, entry, dive⟩ := by
  rw [wire, length, assemble]

theorem read_assemble {block : Bytes} {identity : Identity}
    (identified : Identity.read block = .ok identity) {entry : Bytes}
    (length : entry.length = identity.layout.entryLength) (dive : Bytes) :
    let record := assemble identity.layout entry dive
    ∃ r : DiveRecord, read record = .ok r ∧ Shows record r ∧
      r.version = identity.layout.version.number ∧
      r.apiVersion? = some identity.layout.version ∧ r.entry = entry ∧ r.dive = dive ∧
      (∃ number, r.number? = some number ∧ Logbook.number entry = .ok number) ∧
      ∃ print, r.fingerprint? = some print ∧
        Logbook.fingerprint identity.layout entry = .ok print ∧
        Conversation.recordFingerprint identity.layout record = .ok print := by
  intro record
  have fit : identity.layout.fingerprintOffset + Fingerprint.size ≤ entry.length :=
    length ▸ (Identity.read_usable identified).fingerprint
  have offset := Identity.fingerprintOffset?_eq identified
  rw [← length] at offset
  let r : DiveRecord := ⟨identity.layout.version.number, entry, dive⟩
  have known : r.Known := ⟨Layout.fingerprintOffset?_isSome.1 (Option.isSome_of_eq_some offset)⟩
  have same : record = r.wire := assemble_eq length dive
  have shows : Shows record r := same ▸ shows_wire known
  obtain ⟨number, counted⟩ := Option.isSome_iff_exists.1 shows.number
  refine ⟨r, same ▸ read_wire known, shows, rfl, ApiVersion.ofNumber?_number _, rfl, rfl,
    ⟨number, counted, within_eq_ok.2 counted⟩, _, fingerprint?_eq offset, ?_, ?_⟩
  · exact Logbook.fingerprint_eq fit
  · exact recordFingerprint_assemble fit dive

/-- What went into the record of an identified device is what is found in it. The records are all
bytes with the tag, an entry length in use and an entry; all of a record can be looked at, and no
two show the same. All else is refused for the first check that it fails. -/
theorem records_exact :
    (∀ (block : Bytes) (identity : Identity) (entry dive : Bytes),
      Identity.read block = .ok identity → entry.length = identity.layout.entryLength →
        let record := assemble identity.layout entry dive
        ∃ r : DiveRecord, read record = .ok r ∧ Shows record r ∧
          r.version = identity.layout.version.number ∧
          r.apiVersion? = some identity.layout.version ∧ r.entry = entry ∧ r.dive = dive ∧
          (∃ number, r.number? = some number ∧ Logbook.number entry = .ok number) ∧
          ∃ print, r.fingerprint? = some print ∧
            Logbook.fingerprint identity.layout entry = .ok print ∧
            Conversation.recordFingerprint identity.layout record = .ok print) ∧
    (∀ bs : Bytes, (∃ r, read bs = .ok r) ↔ ∃ version length body,
      bs = 0xDC :: 0xDC :: version :: length :: body ∧ (length = 15 ∨ length = 23) ∧
        length.toNat ≤ body.length) ∧
    (∀ (bs : Bytes) (r : DiveRecord), read bs = .ok r → Shows bs r) ∧
    (∀ (a b : Bytes) (r : DiveRecord), read a = .ok r → read b = .ok r → a = b) ∧
    ∀ (bs : Bytes) (why : Refusal), read bs = .error why ↔ Rejects bs why := by
  refine ⟨fun _ _ _ dive identified length => read_assemble identified length dive,
    fun _ => read_isOk_iff, ?_, ?_, fun _ _ => read_eq_error_iff⟩
  · intro bs r ok
    obtain ⟨known, rfl⟩ := read_ok ok
    exact shows_wire known
  · intro a b r first second
    rw [← (read_ok first).2, (read_ok second).2]

theorem records_exact_mixed :
    let block : Bytes := [0, 0, 0, 0, 1, 200, 0, 0, 0]
    let entry : Bytes := [7, 1] ++ List.replicate 15 0 ++ [1, 2, 3, 4, 5, 6]
    ∃ identity record r, Identity.read block = .ok identity ∧
      record = assemble identity.layout entry [9] ∧ read record = .ok r ∧
      r.apiVersion? = some .v4 ∧ r.fingerprint? = some [1, 2, 3, 4, 5, 6] ∧
      read (record.take 26) = .error (.diveTooShort 26 27) := by
  intro block entry
  let identity : Identity := ⟨⟨1, 200, 0⟩, { Layout.copiedHeader with version := .v4 }⟩
  have identified : Identity.read block = .ok identity := by decide
  have length : entry.length = identity.layout.entryLength := by decide
  obtain ⟨r, ok, -, -, version, -, -, -, print, shown, found, -⟩ :=
    records_exact.1 block identity entry [9] identified length
  have expected : Logbook.fingerprint identity.layout entry = .ok [1, 2, 3, 4, 5, 6] := by decide
  cases found.symm.trans expected
  refine ⟨identity, _, r, identified, rfl, ok, version, shown, ?_⟩
  refine (records_exact.2.2.2.2 _ _).2 ?_
  exact @Rejects.truncated _ 23 (by decide) (by decide) (by decide) (by decide)

end DiveRecord

end DiveLink
