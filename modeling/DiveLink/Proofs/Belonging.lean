import DiveLink.Dive
import DiveLink.Proofs.PacketFormat

set_option autoImplicit false

namespace DiveLink

def Bytes.value : Bytes → Nat
  | [] => 0
  | b :: higher => b.toNat + 256 * value higher

theorem toNat_word (low high : UInt8) : (word low high).toNat = Bytes.value [low, high] := by
  have hl := low.toNat_lt
  have hh := high.toNat_lt
  rw [word, UInt16.toNat_ofNat']
  simp only [Bytes.value]
  omega

theorem word_inj {a b c d : UInt8} : word a b = word c d ↔ a = c ∧ b = d := by
  constructor
  · intro same
    have bytes := congrArg wordBytes same
    rw [wordBytes_word, wordBytes_word] at bytes
    simpa using bytes
  · rintro ⟨rfl, rfl⟩
    rfl

namespace Dive

def shortestEntry (version : ApiVersion) : Nat := if version = .v4 then 9 else 7

def shortestData (version : ApiVersion) (entry : Bytes) : Nat :=
  if version = .v4 then 10 else entry.length - 5

/-- Data that belongs to an entry. In the older versions it begins with the entry, less five bytes
behind the number; in the newest with the number, two bytes of its own and the start date. -/
inductive Belongs (version : ApiVersion) (entry dive : Bytes) : Prop
  | copied (older : version ≠ .v4) (rest : Bytes)
    (shape : dive = entry.take 2 ++ entry.drop 7 ++ rest) : Belongs version entry dive
  | dated (newer : version = .v4) (own rest : Bytes) (two : own.length = 2)
    (shape : dive = entry.take 2 ++ own ++ (entry.drop 3).take 6 ++ rest) :
    Belongs version entry dive

/-- The first check that data fails beside an entry. Each supposes that those before it are
passed. -/
inductive Mismatch (version : ApiVersion) (entry dive : Bytes) : Refusal → Prop
  | tooShort (few : dive.length < shortestData version entry) :
    Mismatch version entry dive (.diveTooShort dive.length (shortestData version entry))
  | number {inLogbook inDive : UInt16} (enough : shortestData version entry ≤ dive.length)
    (logbook : inLogbook.toNat = Bytes.value (entry.take 2))
    (data : inDive.toNat = Bytes.value (dive.take 2)) (differ : inLogbook ≠ inDive) :
    Mismatch version entry dive (.diveNumber inLogbook inDive)
  | header {number : UInt16} (older : version ≠ .v4)
    (enough : shortestData version entry ≤ dive.length) (same : dive.take 2 = entry.take 2)
    (common : number.toNat = Bytes.value (entry.take 2))
    (differ : (dive.drop 2).take (entry.length - 7) ≠ entry.drop 7) :
    Mismatch version entry dive (.diveHeader number)
  | date (newer : version = .v4) (enough : shortestData version entry ≤ dive.length)
    (same : dive.take 2 = entry.take 2)
    (differ : (dive.drop 4).take 6 ≠ (entry.drop 3).take 6) :
    Mismatch version entry dive (.startDate ((entry.drop 3).take 6) ((dive.drop 4).take 6))

variable {layout : Layout} {version : ApiVersion} {entry dive : Bytes} {why : Refusal}

theorem Mismatch.kind (mismatch : Mismatch version entry dive why) : why.kind = .dataFormat := by
  cases mismatch <;> rfl

section Numbers

theorem agreeOnNumber_same (long : 2 ≤ entry.length) (same : dive.take 2 = entry.take 2) :
    ∃ number : UInt16, number.toNat = Bytes.value (entry.take 2) ∧
      agreeOnNumber entry dive = .ok number := by
  match entry, long with
  | a :: b :: _, _ =>
    match dive, same with
    | c :: d :: _, same =>
      obtain ⟨rfl, rfl⟩ : c = a ∧ d = b := by simpa using same
      exact ⟨word c d, toNat_word c d, if_pos rfl⟩

theorem agreeOnNumber_differ (long : 2 ≤ entry.length) (enough : 2 ≤ dive.length)
    {inLogbook inDive : UInt16} (logbook : inLogbook.toNat = Bytes.value (entry.take 2))
    (data : inDive.toNat = Bytes.value (dive.take 2)) (differ : inLogbook ≠ inDive) :
    agreeOnNumber entry dive = .error (.diveNumber inLogbook inDive) := by
  match entry, long, dive, enough with
  | a :: b :: _, _, c :: d :: _, _ =>
    obtain rfl : inLogbook = word a b := UInt16.toNat.inj (logbook.trans (toNat_word a b).symm)
    obtain rfl : inDive = word c d := UInt16.toNat.inj (data.trans (toNat_word c d).symm)
    exact if_neg differ

theorem exists_numbers (long : 2 ≤ entry.length) (enough : 2 ≤ dive.length)
    (other : dive.take 2 ≠ entry.take 2) :
    ∃ inLogbook inDive : UInt16, inLogbook.toNat = Bytes.value (entry.take 2) ∧
      inDive.toNat = Bytes.value (dive.take 2) ∧ inLogbook ≠ inDive := by
  match entry, long, dive, enough with
  | a :: b :: _, _, c :: d :: _, _ =>
    refine ⟨word a b, word c d, toNat_word a b, toNat_word c d, fun same => other ?_⟩
    obtain ⟨rfl, rfl⟩ := word_inj.1 same
    rfl

end Numbers

section Checks

theorem checkCopiedHeader_eq (long : 7 ≤ entry.length) (enough : entry.length - 5 ≤ dive.length) :
    checkCopiedHeader entry.length entry dive = agreeOnNumber entry dive >>= fun number =>
      if (dive.drop 2).take (entry.length - 7) = entry.drop 7 then .ok ()
      else .error (.diveHeader number) := by
  have copy : dive.slice? 2 (entry.length - 5) = some ((dive.drop 2).take (entry.length - 7)) :=
    Bytes.slice?_eq_some_iff.2 ⟨by omega, enough, rfl⟩
  have header : entry.slice? 7 entry.length = some (entry.drop 7) := by
    refine Bytes.slice?_eq_some_iff.2 ⟨long, Nat.le_refl _, ?_⟩
    rw [← List.length_drop, List.take_length]
  simp only [checkCopiedHeader, uncopiedLength, if_neg (show ¬ entry.length < 5 by omega),
    if_neg (Nat.not_lt.2 enough), copy, header]
  rfl

theorem checkStartDate_eq (long : 9 ≤ entry.length) (enough : 10 ≤ dive.length) :
    checkStartDate entry dive = agreeOnNumber entry dive >>= fun _ =>
      if (dive.drop 4).take 6 = (entry.drop 3).take 6 then .ok ()
      else .error (.startDate ((entry.drop 3).take 6) ((dive.drop 4).take 6)) := by
  have expected : entry.slice? 3 9 = some ((entry.drop 3).take 6) := @slice?_window 3 6 _ long
  have found : dive.slice? 4 10 = some ((dive.drop 4).take 6) := @slice?_window 4 6 _ enough
  simp only [checkStartDate, diveDate, dateLength, entryDate, if_neg (Nat.not_lt.2 enough),
    expected, found]
  rfl

end Checks

structure Fits (layout : Layout) (entry : Bytes) : Prop where
  length : entry.length = layout.entryLength
  least : shortestEntry layout.version ≤ entry.length

theorem validate_few (few : dive.length < shortestData layout.version entry)
    (fits : Fits layout entry) : validate layout entry dive =
      .error (.diveTooShort dive.length (shortestData layout.version entry)) := by
  have least := fits.least
  rw [validate, ← fits.length]
  by_cases newer : layout.version = .v4
  · simp only [shortestData, if_pos newer] at few ⊢
    exact if_pos few
  · simp only [shortestData, shortestEntry, if_neg newer] at few least ⊢
    rw [checkCopiedHeader, if_neg (by simp only [uncopiedLength]; omega)]
    exact if_pos few

theorem validate_older (older : layout.version ≠ .v4) (fits : Fits layout entry)
    (enough : shortestData layout.version entry ≤ dive.length) :
    validate layout entry dive = agreeOnNumber entry dive >>= fun number =>
      if (dive.drop 2).take (entry.length - 7) = entry.drop 7 then .ok ()
      else .error (.diveHeader number) := by
  have least := fits.least
  simp only [shortestData, shortestEntry, if_neg older] at enough least
  rw [validate, if_neg older, ← fits.length, checkCopiedHeader_eq least enough]

theorem validate_newer (newer : layout.version = .v4) (fits : Fits layout entry)
    (enough : shortestData layout.version entry ≤ dive.length) :
    validate layout entry dive = agreeOnNumber entry dive >>= fun _ =>
      if (dive.drop 4).take 6 = (entry.drop 3).take 6 then .ok ()
      else .error (.startDate ((entry.drop 3).take 6) ((dive.drop 4).take 6)) := by
  have least := fits.least
  simp only [shortestData, shortestEntry, if_pos newer] at enough least
  rw [validate, if_pos newer, checkStartDate_eq least enough]

theorem Fits.numbered (fits : Fits layout entry) : 2 ≤ entry.length := by
  have least := fits.least
  unfold shortestEntry at least
  split at least <;> omega

theorem Fits.enough (fits : Fits layout entry)
    (enough : shortestData layout.version entry ≤ dive.length) : 2 ≤ dive.length := by
  have least := fits.least
  by_cases newer : layout.version = .v4
  · simp only [shortestData, if_pos newer] at enough
    omega
  · simp only [shortestData, shortestEntry, if_neg newer] at enough least
    omega

theorem Mismatch.validate (fits : Fits layout entry)
    (mismatch : Mismatch layout.version entry dive why) :
    Dive.validate layout entry dive = .error why := by
  cases mismatch with
  | tooShort few => exact validate_few few fits
  | number enough logbook data differ =>
    have checked := agreeOnNumber_differ fits.numbered (fits.enough enough) logbook data differ
    by_cases newer : layout.version = .v4
    · rw [validate_newer newer fits enough, checked]
      rfl
    · rw [validate_older newer fits enough, checked]
      rfl
  | @header number older enough same common differ =>
    obtain ⟨other, value, checked⟩ := agreeOnNumber_same fits.numbered same
    obtain rfl : number = other := UInt16.toNat.inj (common.trans value.symm)
    rw [validate_older older fits enough, checked]
    exact if_neg differ
  | date newer enough same differ =>
    obtain ⟨number, -, checked⟩ := agreeOnNumber_same fits.numbered same
    rw [validate_newer newer fits enough, checked]
    exact if_neg differ

theorem Belongs.validate (fits : Fits layout entry)
    (belongs : Belongs layout.version entry dive) : Dive.validate layout entry dive = .ok () := by
  have least := fits.least
  have front : (entry.take 2).length = 2 := List.length_take_of_le fits.numbered
  cases belongs with
  | copied older rest shape =>
    simp only [shortestEntry, if_neg older] at least
    have same : dive.take 2 = entry.take 2 := by
      rw [shape, List.append_assoc, List.take_left' front]
    have copy : (dive.drop 2).take (entry.length - 7) = entry.drop 7 := by
      rw [shape, List.append_assoc, List.drop_left' front, List.take_left' List.length_drop]
    have enough : shortestData layout.version entry ≤ dive.length := by
      rw [shape, shortestData, if_neg older]
      simp only [List.length_append, front, List.length_drop]
      omega
    obtain ⟨number, -, checked⟩ := agreeOnNumber_same fits.numbered same
    rw [validate_older older fits enough, checked]
    exact if_pos copy
  | dated newer own rest two shape =>
    simp only [shortestEntry, if_pos newer] at least
    have date : ((entry.drop 3).take 6).length = 6 := by
      rw [List.length_take, List.length_drop]
      omega
    have same : dive.take 2 = entry.take 2 := by
      rw [shape, List.append_assoc, List.append_assoc, List.take_left' front]
    have found : (dive.drop 4).take 6 = (entry.drop 3).take 6 := by
      have before : (entry.take 2 ++ own).length = 4 := by rw [List.length_append, front, two]
      rw [shape, List.append_assoc, List.drop_left' before, List.take_left' date]
    have enough : shortestData layout.version entry ≤ dive.length := by
      rw [shape, shortestData, if_pos newer]
      simp only [List.length_append, front, two, date]
      omega
    obtain ⟨number, -, checked⟩ := agreeOnNumber_same fits.numbered same
    rw [validate_newer newer fits enough, checked]
    exact if_pos found

theorem belongs_or (fits : Fits layout entry) (dive : Bytes) :
    Belongs layout.version entry dive ∨ ∃ why, Mismatch layout.version entry dive why := by
  by_cases few : dive.length < shortestData layout.version entry
  · exact .inr ⟨_, .tooShort few⟩
  have enough := Nat.le_of_not_lt few
  by_cases same : dive.take 2 = entry.take 2
  swap
  · obtain ⟨inLogbook, inDive, logbook, data, differ⟩ :=
      exists_numbers fits.numbered (fits.enough enough) same
    exact .inr ⟨_, .number enough logbook data differ⟩
  have least := fits.least
  by_cases newer : layout.version = .v4
  · by_cases found : (dive.drop 4).take 6 = (entry.drop 3).take 6
    · have two : ((dive.drop 2).take 2).length = 2 := by
        simp only [shortestData, if_pos newer] at enough
        rw [List.length_take, List.length_drop]
        omega
      refine .inl (.dated newer _ ((dive.drop 4).drop 6) two ?_)
      rw [← found, ← same, List.append_assoc, List.take_append_drop, ← List.take_add,
        List.take_append_drop]
    · exact .inr ⟨_, .date newer enough same found⟩
  · by_cases copy : (dive.drop 2).take (entry.length - 7) = entry.drop 7
    · refine .inl (.copied newer ((dive.drop 2).drop (entry.length - 7)) ?_)
      rw [← copy, ← same, List.append_assoc, List.take_append_drop, List.take_append_drop]
    · obtain ⟨number, common, -⟩ := agreeOnNumber_same fits.numbered same
      exact .inr ⟨_, .header newer enough same common copy⟩

/-- The data that is accepted for an entry is the data that belongs to it. All other is refused for
the first check that it fails, and nothing is looked for where there is nothing. -/
theorem validate_exact (length : entry.length = layout.entryLength)
    (least : shortestEntry layout.version ≤ layout.entryLength) (dive : Bytes) :
    (validate layout entry dive = .ok () ↔ Belongs layout.version entry dive) ∧
      (∀ why, validate layout entry dive = .error why ↔ Mismatch layout.version entry dive why) ∧
      ∀ why, validate layout entry dive = .error why → why.kind = .dataFormat := by
  have fits : Fits layout entry := ⟨length, length ▸ least⟩
  have refused (why : Refusal) : validate layout entry dive = .error why ↔
      Mismatch layout.version entry dive why := by
    refine ⟨fun failed => ?_, Mismatch.validate fits⟩
    rcases belongs_or fits dive with belongs | ⟨other, mismatch⟩
    · cases (belongs.validate fits).symm.trans failed
    · cases (mismatch.validate fits).symm.trans failed
      exact mismatch
  refine ⟨⟨fun accepted => ?_, Belongs.validate fits⟩, refused, ?_⟩
  · rcases belongs_or fits dive with belongs | ⟨why, mismatch⟩
    · exact belongs
    · cases (mismatch.validate fits).symm.trans accepted
  · exact fun why failed => ((refused why).1 failed).kind

theorem validate_exact_shortest :
    let older : Layout := { Layout.startDate with version := .v2, entryLength := 7 }
    let newer : Layout := { Layout.copiedHeader with version := .v4, entryLength := 9 }
    validate older [3, 1, 0, 0, 0, 0, 0] [3, 1] = .ok () ∧
      validate newer [3, 1, 0, 20, 1, 2, 3, 4, 5] [3, 1, 9, 9, 20, 1, 2, 3, 4, 6] =
        .error (.startDate [20, 1, 2, 3, 4, 5] [20, 1, 2, 3, 4, 6]) := by
  intro older newer
  constructor
  · exact (@validate_exact older [3, 1, 0, 0, 0, 0, 0] rfl (by decide) [3, 1]).1.2
      (.copied (by decide) [] rfl)
  · exact ((@validate_exact newer [3, 1, 0, 20, 1, 2, 3, 4, 5] rfl (by decide) _).2.1 _).2
      (.date rfl (by decide) rfl (by decide))

end Dive

end DiveLink
