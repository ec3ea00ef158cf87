import TokenBudget.Instant.Reader
import TokenBudget.Instant.Writer
import TokenBudget.Proofs.Text.Scanning

namespace TokenBudget.Instant

open Text (Scanner padded length_padded isDigit_head_padded isBlank_of_isDigit
  isDigit_of_mem_padded)
open Text.Scanner

/-!
# Reading an instant that was written

The text of an instant in the form of data is read back: any year with or without
a sign, every width of the fraction, and leap seconds as second 60.  The scanner
takes the text in the parts in which it was written.

A text has no words for a leap second within a minute, which is written as the
second that follows.  `Instant.asNamed` is the instant that is read in its place;
the instants that texts name are those of `Instant.LeapEndsMinute`.
-/

theorem spacedMark_takes
    {mark : Char}
    (notBlank : Text.isBlank mark = false)
    (rest : List Char) :
    spacedMark mark (mark :: rest) = some ((), rest) := by
  rw [spacedMark, bind_of_takes (blanks_takes (mark :: rest) (by simpa)), char_takes]

theorem blanks_takes_padded
    (width value : Nat)
    (rest : List Char) :
    Scanner.blanks (padded width value ++ rest) = some ((), padded width value ++ rest) :=
  blanks_takes _ fun char first => isBlank_of_isDigit (isDigit_head_padded width value rest char first)

theorem spacedNumber_takes
    {value : Nat}
    (small : value < 100)
    (rest : List Char) :
    spacedNumber 2 (padded 2 value ++ rest) = some (value, rest) := by
  rw [spacedNumber, bind_of_takes (blanks_takes_padded 2 value rest),
    number_padded (by decide) small]

theorem signedYear_takes
    (magnitude : Nat)
    (rest : List Char) :
    Scanner.number (padded 4 magnitude ++ '-' :: rest).length
        (padded 4 magnitude ++ '-' :: rest) =
      some (magnitude, '-' :: rest) :=
  number_padded_of_ends (by simp) _ (by simp)

theorem yearScanner_takes
    (year : Int)
    (rest : List Char) :
    yearScanner (yearText year ++ '-' :: rest) = some (year, '-' :: rest) := by
  have head_ne : ∀ mark : Char, mark.isDigit = false →
      (padded 4 year.toNat ++ '-' :: rest).head? ≠ some mark := by
    intro mark notDigit first
    have digit := isDigit_head_padded 4 year.toNat ('-' :: rest) mark first
    simp [notDigit] at digit
  unfold yearText yearScanner
  split
  case isTrue plain =>
    have small : year.toNat < Nat.pow 10 4 := by
      have := plain.2
      simp only [Nat.reducePow, Nat.pow_eq]
      omega
    rw [bind_of_takes (blanks_takes_padded 4 _ _),
      bind_of_takes (char?_passes _ (head_ne '-' (by decide))), if_neg Bool.false_ne_true,
      bind_of_takes (char?_passes _ (head_ne '+' (by decide))), if_neg Bool.false_ne_true,
      bind_of_takes (number_padded (by decide) small _), pure_takes, Int.toNat_of_nonneg plain.1]
  case isFalse signed =>
    split
    case isTrue negative =>
      rw [List.cons_append, bind_of_takes (blanks_takes _ (by rintro _ ⟨⟩; decide)),
        bind_of_takes (char?_takes '-' _), if_pos rfl, bind_of_takes (rest_takes _),
        bind_of_takes (signedYear_takes _ _), pure_takes]
      have back : -(year.natAbs : Int) = year := by omega
      rw [back]
    case isFalse positive =>
      rw [List.cons_append, bind_of_takes (blanks_takes _ (by rintro _ ⟨⟩; decide)),
        bind_of_takes (char?_passes _ (by simp)), if_neg Bool.false_ne_true,
        bind_of_takes (char?_takes '+' _), if_pos rfl, bind_of_takes (rest_takes _),
        bind_of_takes (signedYear_takes _ _), pure_takes]
      have back : (year.natAbs : Int) = year := by omega
      rw [back]

/-- A date in the calendar is read back. -/
theorem dateScanner_takes
    {date : Date}
    (inCalendar : date.Exists)
    (rest : List Char) :
    dateScanner (dateText date ++ rest) = some (date, rest) := by
  obtain ⟨_, month_le, _, day_le⟩ := inCalendar
  have day_lt : date.day < 100 := by
    have short : Date.monthLength date.year date.month ≤ 31 := by
      unfold Date.monthLength
      split <;> split <;> decide
    omega
  rw [dateScanner, dateText, List.append_assoc, List.cons_append, List.append_assoc,
    List.cons_append, bind_of_takes (yearScanner_takes _ _),
    bind_of_takes (spacedMark_takes (by decide) _),
    bind_of_takes (spacedNumber_takes (by omega) _),
    bind_of_takes (spacedMark_takes (by decide) _),
    bind_of_takes (spacedNumber_takes day_lt _), pure_takes]

/-- Zeros behind a number shift it by as many places. -/
theorem value_append_zeros
    (run : List Char)
    (count : Nat) :
    Text.value (run ++ List.replicate count '0') = Text.value run * Nat.pow 10 count := by
  induction count with
  | zero =>
      simp
  | succ count inductionHypothesis =>
      rw [List.replicate_succ', ← List.append_assoc, Text.value_append_digit,
        inductionHypothesis]
      simp [Text.digitValue, Nat.pow_succ, Nat.mul_assoc]

/-- The first digits of a second are its nanoseconds in a coarser unit. -/
theorem fractionNanos_padded
    {width value : Nat}
    (positive : 0 < width)
    (short : width ≤ 9)
    (small : value < Nat.pow 10 width) :
    fractionNanos (padded width value) = value * Nat.pow 10 (9 - width) := by
  have filled := length_padded positive small
  rw [fractionNanos, List.take_of_length_le (by omega), filled, value_append_zeros,
    Text.value_padded]

theorem fractionScanner_takes_digits
    {width value : Nat}
    (positive : 0 < width)
    (short : width ≤ 9)
    (small : value < Nat.pow 10 width)
    (rest : List Char)
    (ends : ∀ char ∈ rest.head?, char.isDigit = false) :
    fractionScanner ('.' :: padded width value ++ rest) =
      some (value * Nat.pow 10 (9 - width), rest) := by
  rw [fractionScanner, List.cons_append, bind_of_takes (char?_takes '.' _), if_pos rfl,
    bind_of_takes (run_takes (fun _ => isDigit_of_mem_padded) rest ends),
    bind_of_takes (guard_takes (by simp [Text.padded_ne_nil]) _), pure_takes,
    fractionNanos_padded positive short small]

/-- A fraction of a second is read back, whatever its width. -/
theorem fractionScanner_takes
    {nanos : Nat}
    (small : nanos < nanosPerSecond)
    (rest : List Char) :
    fractionScanner (fractionText nanos ++ 'Z' :: rest) = some (nanos, 'Z' :: rest) := by
  unfold nanosPerSecond at small
  have ends : ∀ char ∈ ('Z' :: rest).head?, char.isDigit = false := by simp
  unfold fractionText
  split
  case isTrue whole =>
    rw [List.nil_append, fractionScanner, bind_of_takes (char?_passes _ (by simp)),
      if_neg Bool.false_ne_true, pure_takes, whole]
  case isFalse =>
    split
    case isTrue millis =>
      rw [fractionScanner_takes_digits (by decide) (by decide)
        (show nanos / 1000000 < 1000 by omega) _ ends]
      have back : nanos / 1000000 * Nat.pow 10 (9 - 3) = nanos := by
        change nanos / 1000000 * 1000000 = nanos
        omega
      rw [back]
    case isFalse =>
      split
      case isTrue micros =>
        rw [fractionScanner_takes_digits (by decide) (by decide)
          (show nanos / 1000 < 1000000 by omega) _ ends]
        have back : nanos / 1000 * Nat.pow 10 (9 - 6) = nanos := by
          change nanos / 1000 * 1000 = nanos
          omega
        rw [back]
      case isFalse =>
        rw [fractionScanner_takes_digits (by decide) (by decide) small _ ends]
        simp

/-- The parts in which an instant is written in the form of data. -/
def asWritten (instant : Instant) : Written where
  date := .ofDayNumber instant.day
  hour := instant.second / 3600
  minute := instant.second / 60 % 60
  second := instant.shownSecond
  nano := instant.shownNano
  offsetMinutes := 0

theorem shownSecond_le (instant : Instant) :
    instant.shownSecond ≤ 60 := by
  unfold shownSecond
  split <;> omega

theorem shownNano_lt (instant : Instant) :
    instant.shownNano < nanosPerSecond := by
  have bound := instant.nano_lt
  unfold shownNano isLeap
  split
  case isTrue =>
    omega
  case isFalse plain =>
    simpa using plain

theorem offsetScanner_takes :
    offsetScanner ['Z'] = some (0, []) :=
  rfl

theorem writtenScanner_takes (instant : Instant) :
    writtenScanner (instant.write .data) = some (instant.asWritten, []) := by
  have inDay := instant.second_lt
  unfold secondsPerDay at inDay
  have shape :
      instant.write .data =
        dateText (.ofDayNumber instant.day) ++ 'T' :: (padded 2 (instant.second / 3600) ++
          ':' :: (padded 2 (instant.second / 60 % 60) ++ ':' :: (padded 2 instant.shownSecond ++
            (fractionText instant.shownNano ++ ['Z'])))) := by
    simp [write, timeText, InstantForm.data]
  have shown := instant.shownSecond_le
  rw [shape, writtenScanner, bind_of_takes (dateScanner_takes (Date.exists_ofDayNumber _) _),
    bind_of_takes (one_takes (by decide) _),
    bind_of_takes (spacedNumber_takes (by omega) _),
    bind_of_takes (spacedMark_takes (by decide) _),
    bind_of_takes (spacedNumber_takes (by omega) _),
    bind_of_takes (spacedMark_takes (by decide) _),
    bind_of_takes (spacedNumber_takes (by omega) _),
    bind_of_takes (fractionScanner_takes instant.shownNano_lt _),
    bind_of_takes (blanks_takes _ (by rintro _ ⟨⟩; decide)),
    bind_of_takes offsetScanner_takes]
  rfl

theorem valid_asWritten (instant : Instant) :
    instant.asWritten.Valid := by
  have inDay := instant.second_lt
  unfold secondsPerDay at inDay
  have hasInstants : HasInstants (Date.ofDayNumber instant.day).dayNumber := by
    rw [Date.dayNumber_ofDayNumber]
    exact ⟨instant.firstDay_le, instant.le_lastDay⟩
  refine ⟨Date.exists_ofDayNumber _, hasInstants, ?_, ?_, shownSecond_le instant,
    shownNano_lt instant, show (0 : Int).natAbs < 1440 by decide⟩
  · simp only [asWritten]
    omega
  · simp only [asWritten]
    omega

/-- Not in a leap second, or in one that ends a minute. -/
def LeapEndsMinute (instant : Instant) : Prop :=
  instant.isLeap = true → instant.second % 60 = 59

instance (instant : Instant) : Decidable instant.LeapEndsMinute := by
  unfold LeapEndsMinute
  infer_instance

theorem succ_second_lt
    {instant : Instant}
    (within : instant.second % 60 ≠ 59) :
    instant.second + 1 < secondsPerDay := by
  have inDay := instant.second_lt
  unfold secondsPerDay at *
  omega

/--
The instant that is named by the text of an instant: in a leap second within a
minute, the same nanosecond of the second that follows.
-/
def asNamed (instant : Instant) : Instant :=
  if within : instant.isLeap = true ∧ instant.second % 60 ≠ 59 then
    { instant with
      second := instant.second + 1
      nano := instant.nano - nanosPerSecond
      second_lt := succ_second_lt within.2
      nano_lt := Nat.lt_of_le_of_lt (Nat.sub_le _ _) instant.nano_lt }
  else
    instant

theorem asNamed_of_leapEndsMinute
    {instant : Instant}
    (ends : instant.LeapEndsMinute) :
    instant.asNamed = instant :=
  dif_neg fun within => within.2 (ends within.1)

theorem asNamed_day (instant : Instant) :
    instant.asNamed.day = instant.day := by
  unfold asNamed
  split <;> rfl

/-- Hour, minute and second as written make up the second of the day that is named. -/
theorem secondOfDay_asWritten (instant : Instant) :
    instant.asWritten.secondOfDay = instant.asNamed.second := by
  have inDay := instant.second_lt
  unfold secondsPerDay at inDay
  simp only [Written.secondOfDay, Written.universalMinutes, asWritten, shownSecond]
  by_cases leap : instant.isLeap = true
  · by_cases ends : instant.second % 60 = 59
    · -- Second 60 is cut back to the second that the leap second follows.
      rw [asNamed_of_leapEndsMinute fun _ => ends, if_pos leap]
      omega
    · rw [asNamed, dif_pos ⟨leap, ends⟩, if_pos leap]
      dsimp only
      omega
  · rw [asNamed_of_leapEndsMinute fun isLeap => absurd isLeap leap, if_neg leap]
    omega

/-- Second and nanoseconds as written make up the nanoseconds that are named. -/
theorem nanoOfSecond_asWritten (instant : Instant) :
    instant.asWritten.nanoOfSecond = instant.asNamed.nano := by
  have writtenSecond : instant.asWritten.second = instant.shownSecond := rfl
  have writtenNano : instant.asWritten.nano = instant.shownNano := rfl
  by_cases leap : instant.isLeap = true
  · have shown : instant.shownSecond = instant.second % 60 + 1 := if_pos leap
    have shownNano : instant.shownNano = instant.nano - nanosPerSecond := if_pos leap
    by_cases ends : instant.second % 60 = 59
    · rw [asNamed_of_leapEndsMinute fun _ => ends, Written.nanoOfSecond, if_pos (by omega),
        writtenNano, shownNano]
      exact Nat.sub_add_cancel (of_decide_eq_true leap)
    · rw [asNamed, dif_pos ⟨leap, ends⟩, Written.nanoOfSecond, if_neg (by omega), writtenNano,
        shownNano]
  · have shown : instant.shownSecond = instant.second % 60 := if_neg leap
    rw [asNamed_of_leapEndsMinute fun isLeap => absurd isLeap leap, Written.nanoOfSecond,
      if_neg (by omega), writtenNano, shownNano, if_neg leap]

theorem universalMinutes_asWritten (instant : Instant) :
    instant.asWritten.universalMinutes / 1440 = 0 := by
  have inDay := instant.second_lt
  unfold secondsPerDay at inDay
  simp only [Written.universalMinutes, asWritten]
  omega

theorem instant?_asWritten (instant : Instant) :
    instant.asWritten.instant? = some instant.asNamed := by
  have day : instant.asWritten.date.dayNumber + instant.asWritten.universalMinutes / 1440 =
      instant.asNamed.day := by
    rw [universalMinutes_asWritten, Int.add_zero, asNamed_day]
    exact Date.dayNumber_ofDayNumber instant.day
  have valid : instant.asWritten.Valid ∧ HasInstants instant.asNamed.day :=
    ⟨valid_asWritten instant, instant.asNamed.firstDay_le, instant.asNamed.le_lastDay⟩
  simp only [Written.instant?, day, secondOfDay_asWritten, nanoOfSecond_asWritten,
    dif_pos valid]

/-- From the text of an instant in the form of data, the instant that it names is read. -/
theorem ofText?_toText (instant : Instant) :
    ofText? (instant.toText .data) = some instant.asNamed := by
  simp only [ofText?, toText, Scanner.read?, String.toList_ofList, writtenScanner_takes,
    Option.map_some, Option.bind_some, instant?_asWritten]

/-- Second 60 is the only leap second that a text has words for, and it ends its minute. -/
theorem leapEndsMinute_of_instant?
    {written : Written}
    {instant : Instant}
    (names : written.instant? = some instant) :
    instant.LeapEndsMinute := by
  rw [Written.instant?] at names
  split at names
  case isTrue valid =>
    cases names
    intro leap
    have small : written.nano < nanosPerSecond := valid.1.2.2.2.2.2.1
    have reaches : nanosPerSecond ≤ written.nanoOfSecond := of_decide_eq_true leap
    have sixty : written.second = 60 := by
      by_contra other
      rw [Written.nanoOfSecond, if_neg other] at reaches
      omega
    simp only [Written.secondOfDay, sixty]
    omega
  case isFalse =>
    contradiction

/-- Texts name the instants outside leap seconds, and those in leap seconds that end a minute. -/
theorem exists_ofText?_iff {instant : Instant} :
    (∃ text, ofText? text = some instant) ↔ instant.LeapEndsMinute := by
  constructor
  · rintro ⟨text, read⟩
    obtain ⟨written, _, names⟩ := Option.bind_eq_some_iff.mp read
    exact leapEndsMinute_of_instant? names
  · intro ends
    exact ⟨instant.toText .data, by rw [ofText?_toText, asNamed_of_leapEndsMinute ends]⟩

theorem leapEndsMinute_asNamed (instant : Instant) :
    instant.asNamed.LeapEndsMinute :=
  exists_ofText?_iff.mp ⟨instant.toText .data, ofText?_toText instant⟩

end TokenBudget.Instant
