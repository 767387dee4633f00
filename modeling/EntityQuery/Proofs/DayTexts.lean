import EntityQuery.Proofs.Comparing
import EntityQuery.Proofs.DocumentTexts
import EntityQuery.Proofs.IsoTexts
import EntityQuery.Proofs.KeyTexts
import EntityQuery.Proofs.Sample
/-! Days as they are written and as they are read. What is written is cut out of the text of the instant, and what is read is
put together from the parts of the day, so the two agree for the years that have four digits by themselves. -/

namespace EntityQuery

namespace Text

theorem plainJoined {cs : List Char} (plain : ∀ c ∈ cs, half? c = none) : isJoined cs := by
  induction cs with
  | nil => rfl
  | cons c rest ih =>
    obtain ⟨first, others⟩ := List.forall_mem_cons.mp plain
    cases rest with
    | nil => rfl
    | cons d rest => simp [isJoined, leads, first, ih others]

end Text

namespace Number

theorem textCharPlain {c : Char} (text : isTextChar c) : Text.half? c = none := by
  have small : c.toNat < 128 := by
    simp only [isTextChar, Bool.or_eq_true, beq_iff_eq] at text
    obtain (((digit | rfl) | rfl) | rfl) | rfl := text
    · exact Uuid.hexAscii (by simp [Uuid.isHex, digit])
    all_goals decide
  exact if_pos (by unfold Text.firstHalf; omega)

theorem textJoined {cs : List Char} (text : ∀ c ∈ cs, isTextChar c) : Text.isJoined cs :=
  Text.plainJoined fun c mem => textCharPlain (text c mem)

end Number

namespace Time

variable {t : Instant}

theorem dayBounds (reached : inRange t) :
    (parts t).day.year.natAbs ≤ 999999 ∧ 1 ≤ (parts t).day.month ∧ (parts t).day.month ≤ 12 ∧
      1 ≤ (parts t).day.day ∧ (parts t).day.day ≤ 31 := by
  have bound : t.natAbs ≤ greatest.natAbs := of_decide_eq_true reached
  unfold greatest at bound
  have near : (t / 86400000).natAbs ≤ 100000000 := by omega
  exact epochBounds near

theorem isoStart (t : Instant) :
    ∃ clock, isoChars t = yearText (parts t).day.year ++ '-' :: padded 2 (parts t).day.month ++
      ('-' :: padded 2 (parts t).day.day ++ clock) := by
  simp only [isoChars, List.append_assoc]
  exact ⟨_, rfl⟩

theorem paddedPlain {width n : Nat} (wide : 0 < width) : padded (width + 1) n = Nat.toDigits 10 n ↔ 10 ^ width ≤ n := by
  have few : (Nat.toDigits 10 n).length ≤ width ↔ n < 10 ^ width := Nat.length_toDigits_le_iff (by decide) wide
  simp only [padded, Text.padLeft, List.append_left_eq_self, List.replicate_eq_nil_iff]
  omega

/-- A year of four digits leaves room for the month and the day. -/
theorem plainCut (reached : inRange t) (plain : 0 ≤ (parts t).day.year ∧ (parts t).day.year ≤ 9999) :
    (isoChars t).take 10 = padded 4 (parts t).day.year.toNat ++
      ('-' :: padded 2 (parts t).day.month ++ '-' :: padded 2 (parts t).day.day) := by
  obtain ⟨-, -, month, -, day⟩ := dayBounds reached
  obtain ⟨clock, start⟩ := isoStart t
  have long : (padded 4 (parts t).day.year.toNat).length = 4 ∧ (padded 2 (parts t).day.month).length = 2 ∧
      (padded 2 (parts t).day.day).length = 2 :=
    ⟨paddedLength (by decide) (by omega), paddedLength (by decide) (by omega), paddedLength (by decide) (by omega)⟩
  rw [yearText, if_pos plain, List.append_assoc, ← List.append_assoc ('-' :: _), ← List.append_assoc] at start
  rw [start, List.take_left' (by simp [long])]

/-- A sign and six digits leave room for the month alone. -/
theorem signedCut (reached : inRange t) (signed : ¬ (0 ≤ (parts t).day.year ∧ (parts t).day.year ≤ 9999)) :
    (isoChars t).take 10 = (if (parts t).day.year < 0 then '-' else '+') :: padded 6 (parts t).day.year.natAbs ++
      '-' :: padded 2 (parts t).day.month := by
  obtain ⟨year, -, month, -, -⟩ := dayBounds reached
  obtain ⟨clock, start⟩ := isoStart t
  have long : (padded 6 (parts t).day.year.natAbs).length = 6 ∧ (padded 2 (parts t).day.month).length = 2 :=
    ⟨paddedLength (by decide) (by omega), paddedLength (by decide) (by omega)⟩
  rw [yearText, if_neg signed] at start
  rw [start, List.take_left' (by simp [long])]

theorem dayChars (t : Instant) :
    (dayText t).toList = (Number.intText (parts t).day.year).toList ++
      ('-' :: padded 2 (parts t).day.month ++ '-' :: padded 2 (parts t).day.day) := by
  simp only [dayText, String.toList_ofList, List.append_assoc]

/-- The day is the start of the text of its instant exactly in the years from 1000 to 9999. -/
theorem dayCut (reached : inRange t) :
    (isoChars t).take 10 = (dayText t).toList ↔ 1000 ≤ (parts t).day.year ∧ (parts t).day.year ≤ 9999 := by
  rw [dayChars, Number.intChars]
  by_cases plain : 0 ≤ (parts t).day.year ∧ (parts t).day.year ≤ 9999
  · have same : (parts t).day.year.toNat = (parts t).day.year.natAbs := by omega
    rw [plainCut reached plain, if_neg (by omega), List.append_left_inj, same, paddedPlain (by decide)]
    omega
  · rw [signedCut reached plain]
    refine iff_of_false (fun equal => ?_) (by omega)
    split at equal
    · -- the digits of the year end at the same hyphen, but behind it there is no day on the left
      obtain ⟨-, rest⟩ := Text.cutOnce (paddedDigits 6 _) (Number.naturalDigits _) (endsMark rfl) (endsMark rfl)
        (List.cons.inj equal).2
      simp at rest
    · obtain ⟨c, cs, written, digit⟩ := Number.someDigit (parts t).day.year.natAbs
      rw [written] at equal
      obtain ⟨rfl, -⟩ := List.cons.inj equal
      cases digit

theorem paddedText (width n : Nat) : ∀ c ∈ padded width n, Number.isTextChar c :=
  fun c mem => Number.digitIsText (paddedDigits width n c mem)

theorem monthDayText (month day : Nat) : ∀ c ∈ '-' :: padded 2 month ++ '-' :: padded 2 day, Number.isTextChar c :=
  List.forall_mem_append.mpr ⟨List.forall_mem_cons.mpr ⟨rfl, paddedText 2 month⟩, List.forall_mem_cons.mpr ⟨rfl, paddedText 2 day⟩⟩

theorem dayJoined (t : Instant) : Text.isJoined (dayText t).toList := by
  rw [dayChars]
  exact Number.textJoined (List.forall_mem_append.mpr ⟨(Number.intTextChars _).1, monthDayText _ _⟩)

theorem cutJoined (reached : inRange t) : Text.isJoined ((isoChars t).take 10) := by
  by_cases plain : 0 ≤ (parts t).day.year ∧ (parts t).day.year ≤ 9999
  · rw [plainCut reached plain]
    exact Number.textJoined (List.forall_mem_append.mpr ⟨paddedText _ _, monthDayText _ _⟩)
  · rw [signedCut reached plain]
    have sign : Number.isTextChar (if (parts t).day.year < 0 then '-' else '+') := by split <;> rfl
    exact Number.textJoined (List.forall_mem_append.mpr
      ⟨List.forall_mem_cons.mpr ⟨sign, paddedText _ _⟩, List.forall_mem_cons.mpr ⟨rfl, paddedText _ _⟩⟩)

end Time

namespace Field

variable {f : Field} {t : Time.Instant}

/-- A day is read as the text that was written, and stored texts compare it as equal to it, exactly in the years from 1000
to 9999: an earlier year is read without the zeros before it, and where the written year has a sign the day is cut off. -/
theorem dayReadAsWritten (type : f.type = .date) (reached : Time.inRange t) :
    ∃ written read same, f.encode (.date (some t)) = .ok (.text written) ∧ f.decode (.date (some t)) = .ok (.text read) ∧
      Store.same (.text written) (.text read) = .ok same ∧
      (written = read ↔ 1000 ≤ (Time.parts t).day.year ∧ (Time.parts t).day.year ≤ 9999) ∧ (same = true ↔ written = read) := by
  have written : f.encode (.date (some t)) = .ok (.text (String.ofList ((Time.toIso t).toList.take 10))) := by
    simp only [encode, encodePresent, type]
    rfl
  have read : f.decode (.date (some t)) = .ok (.text (Time.dayText t)) := by
    simp only [decode, decodePresent, type]
    rfl
  have chars : (String.ofList ((Time.toIso t).toList.take 10)).toList = (Time.isoChars t).take 10 := by
    simp only [Time.toIso, String.toList_ofList]
  have joined : Text.isJoined (String.ofList ((Time.toIso t).toList.take 10)).toList := by
    simp only [chars, Time.cutJoined reached]
  refine ⟨_, _, _, written, read, Store.sameTexts joined (Time.dayJoined t), ?_, beq_iff_eq⟩
  rw [← Time.dayCut reached, ← chars, String.toList_inj]

end Field

namespace Sample

/-- The first day of the year 999 is read without the zero that it was written with. -/
theorem earlyDayRead : Time.inRange (-30641760000000) ∧
    ∃ written read, dayField.encode (.date (some (-30641760000000))) = .ok (.text written) ∧
      dayField.decode (.date (some (-30641760000000))) = .ok (.text read) ∧ written ≠ read ∧
      Store.same (.text written) (.text read) = .ok false := by
  obtain ⟨written, read, same, encoded, decoded, compared, agree, equal⟩ :=
    Field.dayReadAsWritten (f := dayField) (t := -30641760000000) rfl (by decide)
  have early : ¬ (1000 ≤ (Time.parts (-30641760000000)).day.year ∧ (Time.parts (-30641760000000)).day.year ≤ 9999) := by decide
  have differ : written ≠ read := fun texts => early (agree.mp texts)
  cases same with
  | false => exact ⟨by decide, written, read, encoded, decoded, differ, compared⟩
  | true => exact absurd (equal.mp rfl) differ

end Sample

end EntityQuery
