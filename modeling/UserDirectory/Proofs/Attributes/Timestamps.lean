import UserDirectory.Attributes.Timestamp
import UserDirectory.Proofs.Time.Rfc3339

/-!
# Coerced timestamps

Coercing a date of a record loses nothing that can be seen in milliseconds, and doing it
again changes nothing, as long as the year has four digits: then what has been written is
read as the instant it was, cut off to milliseconds (`coerceTimestamp_roundTrip`). The year
is that of universal time. A text that gives a year of four digits may lie in another year
by its offset, and a number of milliseconds may lie far from them; such an instant is
written, but its text is no timestamp any more, so that a second coercion gives `null`.
-/

namespace UserDirectory

/-- **The year has four digits**, by universal time. -/
def Instant.HasFourDigitYear (t : Instant) : Prop := 0 ≤ t.date.year ∧ t.date.year ≤ 9999

instance (t : Instant) : Decidable t.HasFourDigitYear := inferInstanceAs (Decidable (_ ∧ _))

theorem coerceTimestamp_of_instant? {v : Json} {t : Instant} (h : v.instant? = some t) :
    coerceTimestamp v = .str t.text := by
  rw [coerceTimestamp, h]

theorem Json.leapsAtMinute_of_instant? {v : Json} {t : Instant} (h : v.instant? = some t) :
    t.LeapsAtMinute := by
  match v with
  | .str s => exact Instant.leapsAtMinute_of_read? h
  | .num (.int millis) => exact Instant.leapsAtMinute_of_ofEpochMillis? h
  | .num (.real _) | .null | .bool _ | .arr _ | .obj _ => exact absurd h nofun

/-- **What is written is an instant again**, cut off to milliseconds, or nothing. -/
theorem Json.instant?_text {v : Json} {t : Instant} (h : v.instant? = some t) :
    (Json.str t.text).instant? = if t.HasFourDigitYear then some t.wholeMillis else none := by
  show Instant.read? t.text = _
  split
  · next hyear => exact Instant.read?_text (leapsAtMinute_of_instant? h) hyear.1 hyear.2
  · next hyear => exact Instant.read?_text_eq_none hyear

/-- The instant of a field that holds a value. -/
theorem Record.instant?_of_get? {r : Record} {field : String} {v : Json}
    (h : Table.get? r field = some v) : r.instant? field = v.instant? := by
  rw [instant?, h, Option.bind_some]

/-- **Coercion of timestamps.** A value that is read as an instant becomes the text of this
instant, whose milliseconds are the value itself if it is a number. If the year has four
digits, coercing again changes nothing, and wherever the text is the field of a record, it
is read as an instant of the same milliseconds. If not, the text is no instant wherever it
is read, and coercing again gives `null`. -/
theorem coerceTimestamp_roundTrip {v : Json} {t : Instant} (h : v.instant? = some t) :
    coerceTimestamp v = .str t.text ∧
      (∀ millis, v = .num (.int millis) → t.epochMillis = millis) ∧
      (t.HasFourDigitYear →
        coerceTimestamp (coerceTimestamp v) = coerceTimestamp v ∧
          ∀ (r : Record) (field : String), Table.get? r field = some (coerceTimestamp v) →
            (r.instant? field).map Instant.epochMillis = some t.epochMillis) ∧
      (¬t.HasFourDigitYear →
        coerceTimestamp (coerceTimestamp v) = .null ∧
          ∀ (r : Record) (field : String), Table.get? r field = some (coerceTimestamp v) →
            r.instant? field = none) := by
  have hread := Json.instant?_text h
  rw [coerceTimestamp_of_instant? h]
  refine ⟨rfl, ?_, fun hyear => ?_, fun hyear => ?_⟩
  · rintro millis rfl
    exact Instant.epochMillis_of_ofEpochMillis? h
  · rw [if_pos hyear] at hread
    refine ⟨?_, fun r field hr => ?_⟩
    · rw [coerceTimestamp_of_instant? hread, Instant.text_wholeMillis]
    · rw [Record.instant?_of_get? hr, hread, Option.map_some, Instant.epochMillis_wholeMillis]
  · rw [if_neg hyear] at hread
    refine ⟨?_, fun r field hr => ?_⟩
    · rw [coerceTimestamp, hread]
    · rw [Record.instant?_of_get? hr, hread]

/-- A leap second west of universal time, and the first moment of a year of five digits. -/
theorem coerceTimestamp_roundTrip_leap :
    let leap : Json := .str "1972-06-30T19:59:60.9876-04:00"
    let late : Json := .num (.int 253402300800000)
    (leap.instant? = some ⟨78796799, 1987600000⟩ ∧
        coerceTimestamp leap = .str "1972-06-30T23:59:60.987Z" ∧
        coerceTimestamp (coerceTimestamp leap) = coerceTimestamp leap ∧
        (Record.instant? [("at", coerceTimestamp leap)] "at").map Instant.epochMillis =
          some 78796800987) ∧
      late.instant? = some ⟨253402300800, 0⟩ ∧
        coerceTimestamp late = .str "+10000-01-01T00:00:00.000Z" ∧
        coerceTimestamp (coerceTimestamp late) = .null := by
  intro leap late
  have hleap : leap.instant? = some ⟨78796799, 1987600000⟩ := by decide +kernel
  have hlate : late.instant? = some ⟨253402300800, 0⟩ := by decide +kernel
  obtain ⟨htext, -, hfour, -⟩ := coerceTimestamp_roundTrip hleap
  obtain ⟨htext', -, -, hfive⟩ := coerceTimestamp_roundTrip hlate
  obtain ⟨hagain, hfield⟩ := hfour (by decide +kernel)
  refine ⟨⟨hleap, htext.trans (by decide +kernel), hagain, ?_⟩, hlate,
    htext'.trans (by decide +kernel), (hfive (by decide +kernel)).1⟩
  exact (hfield [("at", coerceTimestamp leap)] "at" rfl).trans (by decide +kernel)

end UserDirectory
