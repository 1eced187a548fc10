import UserDirectory.Proofs.Text.Numerals
import UserDirectory.Proofs.Time.Dates
import UserDirectory.Time.Rfc3339

/-!
# Reading written timestamps

A timestamp is written with every number at a fixed width, and so it can be read again
number by number. What comes back is the instant up to the millisecond, to which its text
has cut it off (`Instant.read?_text`); a second such round changes nothing more.

Two things make this less than obvious. The date is that of a day number and has to give
this number back, for years of four digits at least; a year beyond them is written with a
sign, at which reading stops (`Instant.read?_text_eq_none`). And the sixtieth second can be
written only at the end of a minute. An instant with a leap second anywhere else would come
back changed; but no such instant is ever read, because offsets are whole minutes
(`Instant.LeapsAtMinute`).
-/

namespace UserDirectory

/-! ## Digits at the front -/

theorem takeDigits?_padded {width n : Nat} (hwidth : 0 < width) (h : n < tenTo width)
    (rest : List Char) : takeDigits? width (padded width n ++ rest) = some (n, rest) := by
  have hlength := length_padded hwidth h
  have hdigits : (padded width n).all Char.isDigit = true :=
    List.all_eq_true.2 fun _ hc => isDigit_of_mem_padded hc
  unfold takeDigits?
  dsimp only
  rw [List.take_left' hlength, List.drop_left' hlength, hlength, hdigits, decimalValue_padded,
    beq_self_eq_true]
  rfl

theorem takeDigits?_cons_of_not_digit {c : Char} (h : c.isDigit = false) (width : Nat)
    (rest : List Char) : takeDigits? (width + 1) (c :: rest) = none := by
  unfold takeDigits?
  dsimp only
  rw [List.take_succ_cons, List.all_cons, h, Bool.false_and, Bool.and_false]
  rfl

theorem takeOneOf?_cons {allowed : List Char} {c : Char} (h : allowed.contains c = true)
    (rest : List Char) : takeOneOf? allowed (c :: rest) = some rest := if_pos h

/-- **A fraction of milliseconds** is read as so many nanoseconds. -/
theorem takeNanos?_padded {millis : Nat} (h : millis < 1000) {c : Char} (hc : c.isDigit = false)
    (rest : List Char) : takeNanos? ('.' :: (padded 3 millis ++ c :: rest)) =
      some (millis * nanosPerMilli, c :: rest) := by
  have hdigits : ∀ c ∈ padded 3 millis, c.isDigit = true := fun _ hc => isDigit_of_mem_padded hc
  have hlength : (padded 3 millis).length = 3 := length_padded (by decide) h
  have htake : (padded 3 millis ++ c :: rest).takeWhile Char.isDigit = padded 3 millis := by
    rw [List.takeWhile_append_of_pos hdigits, List.takeWhile_cons, hc]
    exact List.append_nil _
  have hdrop : (padded 3 millis ++ c :: rest).dropWhile Char.isDigit = c :: rest := by
    rw [List.dropWhile_append_of_pos hdigits, List.dropWhile_cons, hc]
    rfl
  have hempty : (padded 3 millis).isEmpty = false := by
    rw [List.isEmpty_eq_false_iff]
    exact List.ne_nil_of_length_eq_add_one hlength
  have hplaces : (padded 3 millis ++ List.replicate 8 '0').take 9 =
      padded 3 millis ++ List.replicate 6 '0' := by
    rw [List.take_append, hlength, List.take_of_length_le (by omega)]
    rfl
  have hmillion : tenTo 6 = nanosPerMilli := rfl
  rw [takeNanos?, htake, hdrop, hempty, hplaces, decimalValue_append, decimalValue_padded,
    decimalValue_replicate_zero, List.length_replicate, Nat.add_zero, if_neg Bool.false_ne_true,
    hmillion]

/-- Universal time has no offset. -/
theorem takeOffset?_universal : takeOffset? ['Z'] = some (0, []) := rfl

/-- A fraction is less than a second. -/
theorem takeNanos?_lt {cs rest : List Char} {nanos : Nat} (h : takeNanos? cs = some (nanos, rest)) :
    nanos < nanosPerSecond := by
  unfold takeNanos? at h
  split at h
  · next cs =>
    dsimp only at h
    split at h
    · exact absurd h nofun
    · obtain ⟨rfl, -⟩ := Prod.mk.inj (Option.some.inj h)
      have hdigits : ∀ c ∈ (cs.takeWhile Char.isDigit ++ List.replicate 8 '0').take 9,
          c.isDigit = true := by
        intro c hc
        rcases List.mem_append.1 (List.mem_of_mem_take hc) with hc | hc
        · exact List.all_eq_true.1 List.all_takeWhile c hc
        · rw [(List.mem_replicate.1 hc).2]
          rfl
      refine Nat.lt_of_lt_of_le (decimalValue_lt hdigits) ?_
      show _ ≤ tenTo 9
      exact Nat.pow_le_pow_right (by decide) (List.length_take_le _ _)
  · obtain ⟨rfl, -⟩ := Prod.mk.inj (Option.some.inj h)
    exact Nat.zero_lt_succ _

namespace Instant

/-! ## Instants that are read -/

/-- **A leap second lies at the end of a minute**, and lasts a second. -/
structure LeapsAtMinute (t : Instant) : Prop where
  nano_lt : t.nano < 2 * nanosPerSecond
  second_of_le : nanosPerSecond ≤ t.nano → t.second % 60 = 59

/-- The instant of a number of milliseconds has no leap second. -/
theorem leapsAtMinute_of_ofEpochMillis? {millis : Int} {t : Instant}
    (h : ofEpochMillis? millis = some t) : t.LeapsAtMinute := by
  unfold ofEpochMillis? at h
  dsimp only at h
  split at h
  · obtain rfl := Option.some.inj h
    have hlt : (millis % 1000).toNat * nanosPerMilli < nanosPerSecond := by
      unfold nanosPerMilli nanosPerSecond
      omega
    exact ⟨by dsimp only; omega, fun hle => absurd hlt (Nat.not_lt.2 hle)⟩
  · exact absurd h nofun

/-- A number of milliseconds is that of its instant. -/
theorem epochMillis_of_ofEpochMillis? {millis : Int} {t : Instant}
    (h : ofEpochMillis? millis = some t) : t.epochMillis = millis := by
  unfold ofEpochMillis? at h
  dsimp only at h
  split at h
  · obtain rfl := Option.some.inj h
    unfold epochMillis nanosPerMilli
    dsimp only
    omega
  · exact absurd h nofun

/-- **An instant that is read** has its leap second at the end of a minute, as offsets are
whole minutes. -/
theorem leapsAtMinute_of_read? {text : String} {t : Instant} (h : read? text = some t) :
    t.LeapsAtMinute := by
  unfold read? at h
  obtain ⟨⟨year, cs⟩, -, h⟩ := Option.bind_eq_some_iff.1 h
  obtain ⟨cs, -, h⟩ := Option.bind_eq_some_iff.1 h
  obtain ⟨⟨month, cs⟩, -, h⟩ := Option.bind_eq_some_iff.1 h
  obtain ⟨cs, -, h⟩ := Option.bind_eq_some_iff.1 h
  obtain ⟨⟨day, cs⟩, -, h⟩ := Option.bind_eq_some_iff.1 h
  obtain ⟨cs, -, h⟩ := Option.bind_eq_some_iff.1 h
  obtain ⟨⟨hour, cs⟩, -, h⟩ := Option.bind_eq_some_iff.1 h
  obtain ⟨cs, -, h⟩ := Option.bind_eq_some_iff.1 h
  obtain ⟨⟨minute, cs⟩, -, h⟩ := Option.bind_eq_some_iff.1 h
  obtain ⟨cs, -, h⟩ := Option.bind_eq_some_iff.1 h
  obtain ⟨⟨second, cs⟩, -, h⟩ := Option.bind_eq_some_iff.1 h
  obtain ⟨⟨nanos, cs⟩, hnanos, h⟩ := Option.bind_eq_some_iff.1 h
  obtain ⟨⟨offset, cs⟩, -, h⟩ := Option.bind_eq_some_iff.1 h
  have hlt := takeNanos?_lt hnanos
  dsimp only at h
  split at h
  · obtain rfl := Option.some.inj h
    refine ⟨?_, fun hle => ?_⟩
    · dsimp only
      split <;> omega
    · dsimp only at hle ⊢
      split at hle
      · next hleap =>
        rw [if_pos hleap]
        omega
      · omega
  · exact absurd h nofun

/-! ## The text of an instant -/

/-- The characters of a timestamp in universal time. -/
def timestampChars (d : Date) (hour minute second millis : Nat) : List Char :=
  yearChars d.year ++ '-' :: padded 2 d.month ++ '-' :: padded 2 d.day ++ 'T' :: padded 2 hour
    ++ ':' :: padded 2 minute ++ ':' :: padded 2 second ++ '.' :: padded 3 millis ++ ['Z']

/-- The second that the clock shows, the sixtieth in a leap second. -/
def shownSecond (t : Instant) : Nat :=
  if nanosPerSecond ≤ t.nano then t.secondOfDay % 60 + 1 else t.secondOfDay % 60

/-- The milliseconds that the clock shows. -/
def shownMillis (t : Instant) : Nat := t.nano % nanosPerSecond / nanosPerMilli

theorem text_eq (t : Instant) : t.text = String.ofList (timestampChars t.date
    (t.secondOfDay / 3600) (t.secondOfDay / 60 % 60) t.shownSecond t.shownMillis) := rfl

/-- **The numbers of a timestamp are read one by one.** -/
theorem read?_timestampChars {d : Date} {hour minute second millis : Nat} (hyear : 0 ≤ d.year)
    (hyear' : d.year ≤ 9999) (hd : d.isValid = true) (hhour : hour ≤ 23) (hminute : minute ≤ 59)
    (hsecond : second ≤ 60) (hmillis : millis < 1000) :
    read? (String.ofList (timestampChars d hour minute second millis)) =
      some ⟨(d.dayNumber - Date.epochDay) * 86400 +
          (hour * 3600 + minute * 60 + (if second = 60 then 59 else second) : Nat),
        if second = 60 then millis * nanosPerMilli + nanosPerSecond
        else millis * nanosPerMilli⟩ := by
  obtain ⟨hmonth, hday⟩ := Date.lt_hundred_of_isValid hd
  have hyearDigits : d.year.natAbs < tenTo 4 := by
    show d.year.natAbs < 10000
    omega
  have hhourDigits : hour < tenTo 2 := Nat.lt_of_le_of_lt hhour (by decide)
  have hminuteDigits : minute < tenTo 2 := Nat.lt_of_le_of_lt hminute (by decide)
  have hsecondDigits : second < tenTo 2 := Nat.lt_of_le_of_lt hsecond (by decide)
  have hchars : timestampChars d hour minute second millis =
      padded 4 d.year.natAbs ++ ('-' :: (padded 2 d.month ++ ('-' :: (padded 2 d.day ++
        ('T' :: (padded 2 hour ++ (':' :: (padded 2 minute ++ (':' :: (padded 2 second ++
          ('.' :: (padded 3 millis ++ ['Z'])))))))))))) := by
    have hfour : yearChars d.year = padded 4 d.year.natAbs := by
      simp [yearChars, hyear, hyear']
    simp only [timestampChars, hfour, List.append_assoc, List.cons_append]
  have hdate : (⟨(d.year.natAbs : Int), d.month, d.day⟩ : Date) = d := by
    rw [Int.natAbs_of_nonneg hyear]
  unfold read?
  rw [String.toList_ofList, hchars]
  -- the date
  refine Option.bind_eq_some_iff.2 ⟨_, takeDigits?_padded (by decide) hyearDigits _, ?_⟩
  refine Option.bind_eq_some_iff.2 ⟨_, takeOneOf?_cons rfl _, ?_⟩
  refine Option.bind_eq_some_iff.2 ⟨_, takeDigits?_padded (by decide) hmonth _, ?_⟩
  refine Option.bind_eq_some_iff.2 ⟨_, takeOneOf?_cons rfl _, ?_⟩
  refine Option.bind_eq_some_iff.2 ⟨_, takeDigits?_padded (by decide) hday _, ?_⟩
  refine Option.bind_eq_some_iff.2 ⟨_, takeOneOf?_cons rfl _, ?_⟩
  -- the time, its fraction and the offset
  refine Option.bind_eq_some_iff.2 ⟨_, takeDigits?_padded (by decide) hhourDigits _, ?_⟩
  refine Option.bind_eq_some_iff.2 ⟨_, takeOneOf?_cons rfl _, ?_⟩
  refine Option.bind_eq_some_iff.2 ⟨_, takeDigits?_padded (by decide) hminuteDigits _, ?_⟩
  refine Option.bind_eq_some_iff.2 ⟨_, takeOneOf?_cons rfl _, ?_⟩
  refine Option.bind_eq_some_iff.2 ⟨_, takeDigits?_padded (by decide) hsecondDigits _, ?_⟩
  refine Option.bind_eq_some_iff.2 ⟨_, takeNanos?_padded hmillis rfl _, ?_⟩
  refine Option.bind_eq_some_iff.2 ⟨_, takeOffset?_universal, ?_⟩
  dsimp only
  rw [hdate, hd, decide_eq_true hhour, decide_eq_true hminute, decide_eq_true hsecond,
    Int.zero_mul, Int.sub_zero]
  simp only [beq_iff_eq]
  rfl

/-! ## Reading a written instant -/

/-- **The instant cut off** to whole milliseconds. -/
def wholeMillis (t : Instant) : Instant := ⟨t.second, t.nano / nanosPerMilli * nanosPerMilli⟩

theorem epochMillis_wholeMillis (t : Instant) : t.wholeMillis.epochMillis = t.epochMillis := by
  unfold epochMillis wholeMillis nanosPerMilli
  dsimp only
  omega

/-- **What is cut off is not written.** -/
theorem text_wholeMillis (t : Instant) : t.wholeMillis.text = t.text := by
  have hleap : nanosPerSecond ≤ t.nano / nanosPerMilli * nanosPerMilli ↔
      nanosPerSecond ≤ t.nano := by
    unfold nanosPerMilli nanosPerSecond
    omega
  have hsecond : t.wholeMillis.shownSecond = t.shownSecond :=
    ite_congr (propext hleap) (fun _ => rfl) fun _ => rfl
  have hmillis : t.wholeMillis.shownMillis = t.shownMillis := by
    unfold shownMillis wholeMillis nanosPerMilli nanosPerSecond
    dsimp only
    omega
  rw [text_eq, text_eq, hsecond, hmillis]
  rfl

/-- **A written instant is read up to the millisecond.** -/
theorem read?_text {t : Instant} (ht : t.LeapsAtMinute) (hyear : 0 ≤ t.date.year)
    (hyear' : t.date.year ≤ 9999) : read? t.text = some t.wholeMillis := by
  have hday : t.date.dayNumber = t.second / 86400 + Date.epochDay := Date.dayNumber_ofDayNumber _
  have hinDay : (t.secondOfDay : Int) = t.second % 86400 :=
    Int.toNat_of_nonneg (Int.emod_nonneg _ (by decide))
  have hnano := ht.nano_lt
  have hmillis : t.shownMillis < 1000 := by
    unfold shownMillis nanosPerMilli nanosPerSecond
    omega
  -- the sixtieth second is shown exactly in a leap second
  have hsecond : t.shownSecond = 60 ↔ nanosPerSecond ≤ t.nano := by
    have hleap := ht.second_of_le
    unfold shownSecond
    split <;> omega
  have hsixty : t.shownSecond ≤ 60 := by
    unfold shownSecond
    split <;> omega
  rw [text_eq, read?_timestampChars hyear hyear' (Date.isValid_ofDayNumber _) (by omega) (by omega)
    hsixty hmillis, hday, wholeMillis, Option.some.injEq, Instant.mk.injEq]
  by_cases hleap : nanosPerSecond ≤ t.nano
  · have hminute := ht.second_of_le hleap
    rw [if_pos (hsecond.2 hleap), if_pos (hsecond.2 hleap)]
    refine ⟨by omega, ?_⟩
    unfold shownMillis nanosPerMilli nanosPerSecond at *
    omega
  · rw [if_neg (mt hsecond.1 hleap), if_neg (mt hsecond.1 hleap)]
    refine ⟨?_, ?_⟩
    · unfold shownSecond
      rw [if_neg hleap]
      omega
    · unfold shownMillis nanosPerMilli nanosPerSecond at *
      omega

/-- **A year without four digits** is not read. -/
theorem read?_text_eq_none {t : Instant} (h : ¬(0 ≤ t.date.year ∧ t.date.year ≤ 9999)) :
    read? t.text = none := by
  have hyear : ∃ c rest, c.isDigit = false ∧ yearChars t.date.year = c :: rest := by
    unfold yearChars
    rw [if_neg (by simpa using h)]
    split
    · exact ⟨_, _, rfl, rfl⟩
    · exact ⟨_, _, rfl, rfl⟩
  obtain ⟨c, rest, hc, hyear⟩ := hyear
  have hstart : ∃ rest, t.text.toList = c :: rest := by
    rw [text_eq, String.toList_ofList]
    unfold timestampChars
    rw [hyear]
    exact ⟨_, rfl⟩
  obtain ⟨rest, hstart⟩ := hstart
  unfold read?
  rw [hstart, takeDigits?_cons_of_not_digit hc]
  rfl

end Instant

end UserDirectory
