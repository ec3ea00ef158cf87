import TokenBudget.Contest.PlayLog
import TokenBudget.Proofs.Contest.AllPlays
import TokenBudget.Proofs.Instant.WrittenForm
import TokenBudget.Proofs.Json.Rereading

namespace TokenBudget

/-!
# Saving and reloading a ledger

A play log is read back as the plays that were written, whatever their texts and
instants: `Ledger.ofText?_toText`.  Only a leap second within a minute, which no
text names, is read as the second that follows.  Where there is none the reloaded
ledger holds the plays of each participant by instant, and saves to the same text.
-/

namespace Play

open Json (Value Piece Rereads RereadsField)

/-- The value that is read where a play was written. -/
def asRead (play : Play) : Value :=
  .object
    ([("participant", play.participant),
      ("task", play.task),
      ("submission", play.submission),
      ("timestamp", play.instant.toText .data)].map
        fun field => (Piece.ofWrittenText field.1, .string (Piece.ofWrittenText field.2)))

theorem rereadsField_ofText (name text : String) :
    RereadsField 1 (Piece.ofText name, .ofText text)
      (Piece.ofWrittenText name, .string (Piece.ofWrittenText text)) where
  name := ⟨name, rfl, rfl⟩
  value := Json.rereads_ofText text

theorem rereads_toJson (play : Play) :
    Rereads 2 play.toJson play.asRead :=
  Json.rereads_object
    (.cons (rereadsField_ofText _ _)
      (.cons (rereadsField_ofText _ _)
        (.cons (rereadsField_ofText _ _)
          (.cons (rereadsField_ofText _ _) .nil))))

/-- The play that is read where a play was written: at the instant that its text names. -/
def reread (play : Play) : Play :=
  { play with instant := play.instant.asNamed }

theorem reread_of_leapEndsMinute
    {play : Play}
    (ends : play.instant.LeapEndsMinute) :
    play.reread = play := by
  rw [reread, Instant.asNamed_of_leapEndsMinute ends]

/-- A play is decoded from what is read where it was written. -/
theorem ofJson?_asRead (play : Play) :
    ofJson? play.asRead = some play.reread := by
  simp [asRead, ofJson?, namedField?, soleField?, ofStrings?, Value.text?,
    Instant.ofText?_toText, reread]

theorem mapM_ofJson?_asRead (plays : List Play) :
    (plays.map asRead).mapM ofJson? = some (plays.map reread) := by
  induction plays with
  | nil =>
      rfl
  | cons play plays inductionHypothesis =>
      simp [List.mapM_cons, ofJson?_asRead, inductionHypothesis]

theorem leapEndsMinute_of_ofStrings?
    {participant task submission instant : Value}
    {play : Play}
    (reads : ofStrings? participant task submission instant = some play) :
    play.instant.LeapEndsMinute := by
  simp only [ofStrings?, bind, pure, Option.bind_eq_some_iff, Option.some.injEq] at reads
  obtain ⟨_, _, _, _, _, _, text, _, named, namedByText, rfl⟩ := reads
  exact Instant.exists_ofText?_iff.mp ⟨text, namedByText⟩

/-- However a play is spelled, it is read at an instant that a text names. -/
theorem leapEndsMinute_of_ofJson?
    {value : Value}
    {play : Play}
    (reads : ofJson? value = some play) :
    play.instant.LeapEndsMinute := by
  unfold ofJson? at reads
  split at reads
  · simp only [bind, Option.bind_eq_some_iff] at reads
    obtain ⟨_, _, _, _, _, _, _, _, _, _, decodes⟩ := reads
    exact leapEndsMinute_of_ofStrings? decodes
  · exact leapEndsMinute_of_ofStrings? reads
  · contradiction

theorem leapEndsMinute_of_mapM_ofJson?
    {values : List Value}
    {plays : List Play}
    (reads : values.mapM ofJson? = some plays) :
    ∀ play ∈ plays, play.instant.LeapEndsMinute := by
  induction values generalizing plays with
  | nil =>
      cases reads
      exact List.forall_mem_nil _
  | cons value values inductionHypothesis =>
      simp only [List.mapM_cons, bind, pure, Option.bind_eq_some_iff, Option.some.injEq] at reads
      obtain ⟨first, firstReads, others, othersRead, rfl⟩ := reads
      exact List.forall_mem_cons.mpr
        ⟨leapEndsMinute_of_ofJson? firstReads, inductionHypothesis othersRead⟩

end Play

namespace Ledger

open Json (Rereads)

theorem rereads_toJson (ledger : Ledger) :
    Rereads 3 ledger.toJson (.array (ledger.allPlays.map Play.asRead)) := by
  apply Json.rereads_array
  rw [List.forall₂_map_left_iff, List.forall₂_map_right_iff, List.forall₂_same]
  exact fun play _ => play.rereads_toJson

/-- A play log is read back as the plays that were written, at the instants that it names. -/
theorem ofText?_toText (ledger : Ledger) :
    ofText? ledger.toText = some (ofPlays (ledger.allPlays.map Play.reread)) := by
  have long : 3 ≤ (Json.writeValue 0 ledger.toJson).length + 1 := by
    rw [toJson]
    cases ledger.allPlays.map Play.toJson with
    | nil =>
        simp [Json.writeValue]
    | cons first others =>
        simp only [Json.writeValue, List.length_cons, List.length_append, List.length_nil]
        omega
  rw [ofText?, toText, Json.read?_write ledger.rereads_toJson long]
  simp only [Play.mapM_ofJson?_asRead, Option.map_some]

/-- Every play in a leap second is in one that ends a minute. -/
def LeapsEndMinutes (ledger : Ledger) : Prop :=
  ∀ play ∈ ledger.allPlays, play.instant.LeapEndsMinute

theorem LeapsEndMinutes.map_reread_allPlays
    {ledger : Ledger}
    (ends : ledger.LeapsEndMinutes) :
    ledger.allPlays.map Play.reread = ledger.allPlays := by
  rw [List.map_congr_left fun play member => Play.reread_of_leapEndsMinute (ends play member),
    List.map_id']

/-- Without leap seconds within minutes, a play log is read back as it was written. -/
theorem LeapsEndMinutes.ofText?_toText
    {ledger : Ledger}
    (ends : ledger.LeapsEndMinutes) :
    ofText? ledger.toText = some (ofPlays ledger.allPlays) := by
  rw [Ledger.ofText?_toText, ends.map_reread_allPlays]

theorem leapsEndMinutes_ofPlays
    {plays : List Play}
    (ends : ∀ play ∈ plays, play.instant.LeapEndsMinute) :
    (ofPlays plays).LeapsEndMinutes := by
  intro play member
  rw [allPlays_ofPlays, List.mem_mergeSort] at member
  exact ends play member

namespace WellFormed

variable {ledger : Ledger}

/-- Reloading puts the plays of each participant in the order of their instants. -/
theorem playsOf_ofPlays_allPlays
    (wellFormed : ledger.WellFormed)
    (participant : String) :
    (Ledger.ofPlays ledger.allPlays).playsOf participant =
      sortedByKey Play.instant (ledger.playsOf participant) := by
  rw [playsOf_ofPlays, wellFormed.sortedByInstant_playsOf]

theorem allPlays_ofPlays_allPlays (wellFormed : ledger.WellFormed) :
    (Ledger.ofPlays ledger.allPlays).allPlays = ledger.allPlays := by
  apply allPlays_congr (ofPlays _) wellFormed
  intro instant participant
  rw [wellFormed.playsOf_ofPlays_allPlays, ofKey_sortedByKey]

/-- What is read does not change who has played on what. -/
theorem hasToken_ofPlays_map_reread
    (wellFormed : ledger.WellFormed)
    (participant submission : String) :
    (Ledger.ofPlays (ledger.allPlays.map Play.reread)).hasToken participant submission =
      ledger.hasToken participant submission := by
  have accounts :
      (Ledger.ofPlays (ledger.allPlays.map Play.reread)).playsOf participant =
        (sortedByKey Play.instant (ledger.playsOf participant)).map Play.reread := by
    rw [playsOf_ofPlays, List.filter_map, wellFormed.sortedByInstant_playsOf]
    rfl
  rw [hasToken, accounts, List.any_map]
  exact (sortedByKey_perm Play.instant (ledger.playsOf participant)).any_eq

/-- The list of plays survives reloading just where each leap second ends a minute. -/
theorem allPlays_reread_iff
    (wellFormed : ledger.WellFormed) :
    (Ledger.ofPlays (ledger.allPlays.map Play.reread)).allPlays = ledger.allPlays ↔
      ledger.LeapsEndMinutes := by
  constructor
  · intro same
    have ends : (Ledger.ofPlays (ledger.allPlays.map Play.reread)).LeapsEndMinutes :=
      leapsEndMinutes_ofPlays <| List.forall_mem_map.mpr fun play _ =>
        play.instant.leapEndsMinute_asNamed
    rwa [LeapsEndMinutes, same] at ends
  · intro ends
    rw [ends.map_reread_allPlays, wellFormed.allPlays_ofPlays_allPlays]

theorem leapsEndMinutes_record
    (wellFormed : ledger.WellFormed)
    (ends : ledger.LeapsEndMinutes)
    {play : Play}
    (playEnds : play.instant.LeapEndsMinute) :
    (ledger.record play).LeapsEndMinutes := by
  intro recorded member
  rw [(wellFormed.record play).mem_allPlays_iff, playsOf_record] at member
  have earlierEnds (earlier : recorded ∈ ledger.playsOf recorded.participant) :
      recorded.instant.LeapEndsMinute :=
    ends recorded (wellFormed.mem_allPlays_iff.mpr earlier)
  split at member
  · rcases List.mem_append.mp member with earlier | last
    · exact earlierEnds earlier
    · exact List.mem_singleton.mp last ▸ playEnds
  · exact earlierEnds member

end WellFormed

/-- The plays that the text of a play log lists, in its order. -/
def listed? (text : String) : Option (List Play) :=
  match Json.read? text with
  | some (.array items) => items.mapM Play.ofJson?
  | _ => none

/-- The text of a play log of some plays: by instant, then by participant. -/
def textOf (plays : List Play) : String :=
  Json.write (.array ((plays.mergeSort precedes).map Play.toJson))

theorem ofText?_eq_listed? (text : String) :
    ofText? text = (listed? text).map ofPlays := by
  rw [ofText?, listed?]
  cases Json.read? text with
  | none =>
      rfl
  | some value =>
      cases value <;> rfl

theorem toText_ofPlays (plays : List Play) :
    (ofPlays plays).toText = textOf plays := by
  rw [toText, toJson, allPlays_ofPlays, textOf]

/-- The text of a ledger with one more play lists that play with those before. -/
theorem toText_record
    (plays : List Play)
    (play : Play) :
    ((ofPlays plays).record play).toText = textOf (plays ++ [play]) := by
  rw [← toText_ofPlays, ofPlays, ofPlays, List.foldl_concat]

/-- A play log that is read makes a well-formed ledger. -/
theorem wellFormed_of_ofText?
    {text : String}
    {ledger : Ledger}
    (parses : ofText? text = some ledger) :
    ledger.WellFormed := by
  rw [ofText?] at parses
  split at parses
  · obtain ⟨plays, _, rfl⟩ := Option.map_eq_some_iff.mp parses
    exact .ofPlays plays
  · contradiction

/-- The plays of a ledger that was read are at instants that texts name. -/
theorem leapsEndMinutes_of_ofText?
    {text : String}
    {ledger : Ledger}
    (parses : ofText? text = some ledger) :
    ledger.LeapsEndMinutes := by
  rw [ofText?] at parses
  split at parses
  · obtain ⟨plays, reads, rfl⟩ := Option.map_eq_some_iff.mp parses
    exact leapsEndMinutes_ofPlays (Play.leapEndsMinute_of_mapM_ofJson? reads)
  · contradiction

/-- What the ledger says of submissions does not depend on the order of plays. -/
theorem hasToken_of_perm
    {first second : Ledger}
    {participant : String}
    (samePlays : (first.playsOf participant).Perm (second.playsOf participant))
    (submission : String) :
    first.hasToken participant submission = second.hasToken participant submission :=
  samePlays.any_eq

/--
Every ledger, once saved, is loaded again with the same submissions.  Its list of
plays is the same just when every play in a leap second is in one that ends a
minute.  Then the plays of each participant are sorted by instant, and the text is
the same again.
-/
theorem exists_reloaded
    (ledger : Ledger)
    (wellFormed : ledger.WellFormed) :
    ∃ reloaded,
      ofText? ledger.toText = some reloaded ∧
        (∀ participant submission,
          reloaded.hasToken participant submission = ledger.hasToken participant submission) ∧
        (reloaded.allPlays = ledger.allPlays ↔ ledger.LeapsEndMinutes) ∧
        (ledger.LeapsEndMinutes →
          (∀ participant,
            reloaded.playsOf participant =
              (ledger.playsOf participant).mergeSort
                fun first second => decide (first.instant ≤ second.instant)) ∧
          reloaded.toText = ledger.toText) := by
  refine ⟨ofPlays (ledger.allPlays.map Play.reread), ledger.ofText?_toText,
    wellFormed.hasToken_ofPlays_map_reread, wellFormed.allPlays_reread_iff, fun ends => ?_⟩
  have samePlays := wellFormed.allPlays_reread_iff.mpr ends
  refine ⟨fun participant => ?_, by rw [toText, toJson, samePlays, toText, toJson]⟩
  rw [ends.map_reread_allPlays, wellFormed.playsOf_ofPlays_allPlays]
  rfl

/-- Two plays in one leap second, the first on a submission whose name is a control character. -/
def twoInLeapSecond : Ledger :=
  ofPlays
    [{ participant := "bob", task := "sum", submission := "\x01", instant := .inLeapSecond },
      { participant := "ann", task := "sum", submission := "", instant := .inLeapSecond }]

theorem exists_reloaded_twoInLeapSecond :
    twoInLeapSecond.WellFormed ∧
      twoInLeapSecond.LeapsEndMinutes ∧
      ∃ reloaded,
        ofText? twoInLeapSecond.toText = some reloaded ∧
          reloaded.allPlays = twoInLeapSecond.allPlays ∧
          (reloaded.playsOf "bob").map Play.submission = ["\x01"] ∧
          reloaded.hasToken "ann" "\x01" = false ∧
          reloaded.toText = twoInLeapSecond.toText := by
  have wellFormed : twoInLeapSecond.WellFormed := .ofPlays _
  have ends : twoInLeapSecond.LeapsEndMinutes := leapsEndMinutes_ofPlays (by decide)
  obtain ⟨reloaded, loads, tokens, samePlays, restored⟩ :=
    exists_reloaded twoInLeapSecond wellFormed
  refine ⟨wellFormed, ends, reloaded, loads, samePlays.mpr ends, ?_, ?_, (restored ends).2⟩
  · rw [(restored ends).1]
    decide +kernel
  · rw [tokens]
    decide

/-- A play in the leap second that follows 30 seconds; its text names an instant after 31 seconds. -/
def leapPlay : Play where
  participant := "ann"
  task := "sum"
  submission := "leap"
  instant := (Instant.onDayZero 30).withNano 1400000000 (by decide)

/-- A later play, at an instant before the one that the text of the first play names. -/
def nextPlay : Play where
  participant := "ann"
  task := "sum"
  submission := "next"
  instant := (Instant.onDayZero 31).withNano 200000000 (by decide)

/-- A leap second within a minute is lost, and with it the order of the plays. -/
theorem not_reloaded_of_leapWithinMinute :
    (ofPlays [leapPlay, nextPlay]).WellFormed ∧
      (ofPlays [leapPlay, nextPlay]).allPlays = [leapPlay, nextPlay] ∧
      ∃ reloaded,
        ofText? (ofPlays [leapPlay, nextPlay]).toText = some reloaded ∧
          reloaded.allPlays.map Play.submission = ["next", "leap"] ∧
          reloaded.allPlays ≠ (ofPlays [leapPlay, nextPlay]).allPlays ∧
          reloaded.toText ≠ (ofPlays [leapPlay, nextPlay]).toText := by
  have inOrder : (ofPlays [leapPlay, nextPlay]).allPlays = [leapPlay, nextPlay] := by
    rw [allPlays_ofPlays]
    exact List.mergeSort_of_pairwise (by decide)
  have reordered :
      (ofPlays [leapPlay.reread, nextPlay.reread]).allPlays =
        [nextPlay.reread, leapPlay.reread] := by
    rw [allPlays_ofPlays]
    have swapped : precedes leapPlay.reread nextPlay.reread = false := by
      decide
    simp [List.mergeSort, swapped]
  refine ⟨.ofPlays _, inOrder, ofPlays [leapPlay.reread, nextPlay.reread], ?_, ?_, ?_, ?_⟩
  · rw [ofText?_toText, inOrder]
    rfl
  · rw [reordered]
    rfl
  · rw [reordered, inOrder]
    decide
  · rw [toText, toText, toJson, toJson, reordered, inOrder]
    decide +kernel

end Ledger

end TokenBudget
