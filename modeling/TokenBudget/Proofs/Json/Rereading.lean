import Mathlib.Data.List.Forall2
import TokenBudget.Json.Reader
import TokenBudget.Json.Writer
import TokenBudget.Proofs.Text.Scanning

namespace TokenBudget.Json

open Text (Scanner)
open Text.Scanner

/-!
# Reading values that were written

Texts, and arrays and objects of what can be read back, are read back from what
the writer makes of them.  `Rereads` is the relation between a value and what is
read; it has one theorem for each kind of value.  The value that is read may
differ in the spelling of a string: control characters without a short escape
come back as code units, which `Piece.decode?` takes for the same characters.
-/

/-- The control characters that have an escape of one letter. -/
def shortControls : List Char :=
  ['\x08', '\t', '\n', '\x0c', '\r']

namespace Piece

/-- What is read where a character was written. -/
def ofWritten (char : Char) : Piece :=
  if char.toNat < 0x20 ∧ char ∉ shortControls then
    .unit char.toNat
  else
    .plain char

/-- What is read where a text was written. -/
def ofWrittenText (text : String) : List Piece :=
  text.toList.map ofWritten

/-- A code unit that is no surrogate is a character of its own. -/
theorem decode?_unit_cons
    {code : Nat}
    (notSurrogate : code < 0xD800)
    (rest : List Piece) :
    decode? (.unit code :: rest) = (decode? rest).map (Char.ofNat code :: ·) := by
  have notHigh : isHighSurrogate code = false := by
    simp [isHighSurrogate]
    omega
  have notLow : isLowSurrogate code = false := by
    simp [isLowSurrogate]
    omega
  rw [decode?.eq_def]
  simp [notHigh, notLow]

theorem decode?_map_ofWritten (chars : List Char) :
    decode? (chars.map ofWritten) = some chars := by
  induction chars with
  | nil =>
      rfl
  | cons char chars inductionHypothesis =>
      rw [List.map_cons, ofWritten]
      split
      case isTrue control =>
        simp [decode?_unit_cons (show char.toNat < 0xD800 by omega), inductionHypothesis]
      case isFalse =>
        simp [decode?, inductionHypothesis]

@[simp]
theorem toText?_ofWrittenText (text : String) :
    toText? (ofWrittenText text) = some text := by
  simp [toText?, ofWrittenText, decode?_map_ofWritten]

end Piece

/-- The digits of a small code unit are read back. -/
theorem hexNumber?_hexDigits
    {code : Nat}
    (small : code < 0x20) :
    hexNumber? [hexDigit (code / 4096), hexDigit (code / 256 % 16),
      hexDigit (code / 16 % 16), hexDigit (code % 16)] = some code := by
  revert code
  decide

/-- The escape of a control character is read as its code unit. -/
theorem stringTail_unitEscape
    {code : Nat}
    (small : code < 0x20)
    {text rest : List Char}
    {pieces : List Piece}
    (takes : stringTail text = some (pieces, rest)) :
    stringTail (unitEscape code ++ text) = some (.unit code :: pieces, rest) := by
  simp [unitEscape, stringTail, hexNumber?_hexDigits small, takes]

/-- One written character is read as one piece. -/
theorem stringTail_writeChar
    (char : Char)
    {text rest : List Char}
    {pieces : List Piece}
    (takes : stringTail text = some (pieces, rest)) :
    stringTail (writeChar char ++ text) = some (.ofWritten char :: pieces, rest) := by
  have short : ∀ letter, letter ≠ 'u' → shortEscape? letter = some char →
      Piece.ofWritten char = .plain char →
      stringTail ('\\' :: letter :: text) = some (.ofWritten char :: pieces, rest) := by
    intro letter notUnit escapes plain
    rw [plain, stringTail.eq_def]
    simp [notUnit, escapes, takes]
  unfold writeChar
  split
  case isTrue quote =>
    subst quote
    exact short '"' (by decide) rfl rfl
  split
  case isTrue backslash =>
    subst backslash
    exact short '\\' (by decide) rfl rfl
  split
  case isTrue backspace =>
    subst backspace
    exact short 'b' (by decide) rfl rfl
  split
  case isTrue tab =>
    subst tab
    exact short 't' (by decide) rfl rfl
  split
  case isTrue lineFeed =>
    subst lineFeed
    exact short 'n' (by decide) rfl rfl
  split
  case isTrue formFeed =>
    subst formFeed
    exact short 'f' (by decide) rfl rfl
  split
  case isTrue carriageReturn =>
    subst carriageReturn
    exact short 'r' (by decide) rfl rfl
  split
  case isTrue control =>
    have notShort : char ∉ shortControls := by simp_all [shortControls]
    rw [Piece.ofWritten, if_pos ⟨control, notShort⟩]
    exact stringTail_unitEscape control takes
  case isFalse _ notBackslash _ _ _ _ _ printed =>
    rw [Piece.ofWritten, if_neg (fun escaped => printed escaped.1), List.singleton_append,
      stringTail.eq_def]
    simp [notBackslash, printed, takes]

/-- The characters of a text and a closing quote are read back. -/
theorem stringTail_write
    (chars : List Char)
    (rest : List Char) :
    stringTail (chars.flatMap writeChar ++ '"' :: rest) =
      some (chars.map Piece.ofWritten, rest) := by
  induction chars with
  | nil =>
      simp [stringTail]
  | cons char chars inductionHypothesis =>
      rw [List.flatMap_cons, List.append_assoc, stringTail_writeChar char inductionHypothesis,
        List.map_cons]

theorem string_takes
    (text : String)
    (rest : List Char) :
    string (writeString (Piece.ofText text) ++ rest) =
      some (Piece.ofWrittenText text, rest) := by
  have shape : writeString (Piece.ofText text) ++ rest =
      '"' :: (text.toList.flatMap writeChar ++ '"' :: rest) := by
    simp [writeString, Piece.ofText, List.flatMap_map, writePiece]
  rw [shape, string, bind_of_takes (char_takes '"' _), stringTail_write, Piece.ofWrittenText]

theorem gap_takes
    (text : List Char)
    (stands : ∀ char ∈ text.head?, isGap char = false) :
    gap text = some ((), text) := by
  cases text with
  | nil =>
      rfl
  | cons char text =>
      simp [gap, stands char (by simp)]

theorem gap_append
    {before : List Char}
    (gaps : ∀ char ∈ before, isGap char = true)
    (text : List Char) :
    gap (before ++ text) = gap text := by
  simp [gap, List.dropWhile_append_of_pos gaps]

theorem gap_bind_append
    {before : List Char}
    {next : Unit → Scanner Next}
    (gaps : ∀ char ∈ before, isGap char = true)
    (text : List Char) :
    (gap >>= next) (before ++ text) = (gap >>= next) text := by
  rw [bind_apply, bind_apply, gap_append gaps]

theorem gaps_lineBreak (depth : Nat) :
    ∀ char ∈ lineBreak depth, isGap char = true := by
  intro char member
  simp only [lineBreak, List.mem_cons, List.mem_replicate] at member
  rcases member with lineFeed | ⟨_, space⟩
  · exact lineFeed ▸ by decide
  · exact space ▸ by decide

/-- A scanner takes a text off the front of whatever follows it. -/
def Takes
    (scanner : Scanner Item)
    (text : List Char)
    (item : Item) :
    Prop :=
  ∀ rest, scanner (text ++ rest) = some (item, rest)

section

variable
    {Item : Type}
    {item : Scanner Item}
    (close : Char)
    {before : List Char}
    {texts : List (List Char)}
    {values : List Item}
    {text : List Char}
    {value : Item}

theorem gap_takes_close
    (closeStands : isGap close = false)
    (gaps : ∀ char ∈ before, isGap char = true)
    (rest : List Char) :
    gap (before ++ close :: rest) = some ((), close :: rest) := by
  rw [gap_append gaps, gap_takes _ (by simpa)]

/-- Items with commas between them are taken one after the other, up to the closing mark. -/
theorem itemsUpTo_takes
    (closeStands : isGap close = false)
    (notComma : close ≠ ',')
    (gaps : ∀ char ∈ before, isGap char = true)
    (takesFirst : Takes item text value)
    (takes : List.Forall₂ (Takes item) texts values)
    {limit : Nat}
    (within : texts.length < limit)
    (rest : List Char) :
    itemsUpTo close item limit
        (text ++ (texts.flatMap (',' :: ·) ++ (before ++ close :: rest))) =
      some (value :: values, rest) := by
  induction takes generalizing text value limit with
  | nil =>
      obtain ⟨limit, rfl⟩ : ∃ fewer, limit = fewer + 1 := ⟨limit - 1, by omega⟩
      rw [itemsUpTo, bind_of_takes (takesFirst _), List.flatMap_nil, List.nil_append,
        bind_of_takes (gap_takes_close close closeStands gaps rest),
        bind_of_takes (char?_passes _ (by simpa)), if_neg Bool.false_ne_true,
        bind_of_takes (char_takes close rest), pure_takes]
  | @cons nextText nextValue texts values takesNext _ inductionHypothesis =>
      obtain ⟨limit, rfl⟩ : ∃ fewer, limit = fewer + 1 := ⟨limit - 1, by omega⟩
      have others := inductionHypothesis takesNext (Nat.lt_of_succ_lt_succ within)
      rw [itemsUpTo, bind_of_takes (takesFirst _), List.flatMap_cons, List.cons_append,
        List.cons_append, List.append_assoc, bind_of_takes (gap_takes _ (by simp; decide)),
        bind_of_takes (char?_takes ',' _), if_pos rfl, bind_of_takes others, pure_takes]

theorem length_le_flatMap_comma (texts : List (List Char)) :
    texts.length ≤ (texts.flatMap (',' :: ·)).length := by
  induction texts with
  | nil =>
      exact Nat.le_refl 0
  | cons text texts inductionHypothesis =>
      simp only [List.length_cons, List.flatMap_cons, List.length_append]
      omega

/-- At least one item between an opening mark and a closing mark. -/
theorem items_takes
    (closeStands : isGap close = false)
    (notComma : close ≠ ',')
    {lead : List Char}
    (leadGaps : ∀ char ∈ lead, isGap char = true)
    (gaps : ∀ char ∈ before, isGap char = true)
    {first : Char}
    (starts : text.head? = some first)
    (firstStands : isGap first = false)
    (notClose : first ≠ close)
    (takesFirst : Takes item text value)
    (takes : List.Forall₂ (Takes item) texts values)
    (rest : List Char) :
    items close item
        (lead ++ (text ++ (texts.flatMap (',' :: ·) ++ (before ++ close :: rest)))) =
      some (value :: values, rest) := by
  have head (after : List Char) : (text ++ after).head? = some first := by
    simp [List.head?_append, starts]
  have stripped (after : List Char) :
      gap (lead ++ (text ++ after)) = some ((), text ++ after) := by
    rw [gap_append leadGaps, gap_takes _ (by simpa [head])]
  have within (after : List Char) :
      texts.length < (text ++ (texts.flatMap (',' :: ·) ++ (before ++ close :: after))).length := by
    have many := length_le_flatMap_comma texts
    simp only [List.length_append, List.length_cons]
    omega
  rw [items, bind_of_takes (stripped _), bind_of_takes (char?_passes _ (by simpa [head])),
    if_neg Bool.false_ne_true, bind_of_takes (rest_takes _),
    itemsUpTo_takes close closeStands notComma gaps takesFirst takes (within rest)]

theorem items_takes_none
    (closeStands : isGap close = false)
    (rest : List Char) :
    items close item (close :: rest) = some ([], rest) := by
  rw [items, bind_of_takes (gap_takes _ (by simpa)), bind_of_takes (char?_takes close rest),
    if_pos rfl, pure_takes]

end

/-!
## Values
-/

/--
One value is read where another was written, by every reader that lets values nest
at least so deep.  What is written starts with a quote or an opening bracket.
-/
structure Rereads
    (nesting : Nat)
    (written : Value)
    (read : Value) : Prop where
  starts : ∀ depth, ∃ first ∈ ['"', '[', '\x7b'], (writeValue depth written).head? = some first
  takes : ∀ depth limit, nesting ≤ limit → Takes (valueWithin limit) (writeValue depth written) read

theorem stands_of_opens
    {first : Char}
    (opens : first ∈ ['"', '[', '\x7b']) :
    isGap first = false ∧ first ≠ ']' := by
  simp only [List.mem_cons, List.not_mem_nil, or_false] at opens
  rcases opens with rfl | rfl | rfl <;> decide

/-- White space before a value is passed over. -/
theorem takes_valueWithin_lead
    {limit : Nat}
    {lead text : List Char}
    {read : Value}
    (leadGaps : ∀ char ∈ lead, isGap char = true)
    (takes : Takes (valueWithin limit) text read) :
    Takes (valueWithin limit) (lead ++ text) read := by
  intro rest
  rw [← takes rest, List.append_assoc]
  cases limit with
  | zero =>
      rfl
  | succ limit =>
      rw [valueWithin]
      exact gap_bind_append leadGaps (text ++ rest)

section

variable
    {limit : Nat}
    {text rest : List Char}

theorem valueWithin_of_string
    {pieces : List Piece}
    (taken : string ('"' :: text) = some (pieces, rest)) :
    valueWithin (limit + 1) ('"' :: text) = some (.string pieces, rest) := by
  rw [valueWithin, bind_of_takes (gap_takes _ (by simp; decide)), bind_of_takes (peek?_takes _ _)]
  exact bind_of_takes taken

theorem valueWithin_of_items
    {read : List Value}
    (taken : items ']' (valueWithin limit) text = some (read, rest)) :
    valueWithin (limit + 1) ('[' :: text) = some (.array read, rest) := by
  rw [valueWithin, bind_of_takes (gap_takes _ (by simp; decide)), bind_of_takes (peek?_takes _ _)]
  exact (bind_of_takes (char_takes '[' text)).trans (bind_of_takes taken)

theorem valueWithin_of_fields
    {read : List (List Piece × Value)}
    (taken : items '\x7d' (field (valueWithin limit)) text = some (read, rest)) :
    valueWithin (limit + 1) ('\x7b' :: text) = some (.object read, rest) := by
  rw [valueWithin, bind_of_takes (gap_takes _ (by simp; decide)), bind_of_takes (peek?_takes _ _)]
  exact (bind_of_takes (char_takes '\x7b' text)).trans (bind_of_takes taken)

end

theorem rereads_ofText (text : String) :
    Rereads 1 (.ofText text) (.string (Piece.ofWrittenText text)) where
  starts _ :=
    ⟨'"', by decide, rfl⟩
  takes depth limit deep rest := by
    obtain ⟨limit, rfl⟩ : ∃ shallower, limit = shallower + 1 := ⟨limit - 1, by omega⟩
    exact valueWithin_of_string (string_takes text rest)

theorem writeItems_eq_flatMap
    (depth : Nat)
    (items : List Value) :
    writeItems depth items =
      (items.map fun item => lineBreak depth ++ writeValue depth item).flatMap (',' :: ·) := by
  induction items with
  | nil =>
      rfl
  | cons item items inductionHypothesis =>
      simp [writeItems, inductionHypothesis]

theorem rereads_array
    {nesting : Nat}
    {written read : List Value}
    (rereads : List.Forall₂ (Rereads nesting) written read) :
    Rereads (nesting + 1) (.array written) (.array read) where
  starts depth := by
    refine ⟨'[', by decide, ?_⟩
    cases written <;> simp [writeValue]
  takes depth limit deep rest := by
    obtain ⟨limit, rfl⟩ : ∃ shallower, limit = shallower + 1 := ⟨limit - 1, by omega⟩
    cases rereads with
    | nil =>
        exact valueWithin_of_items (items_takes_none _ (by decide) rest)
    | @cons first firstRead others othersRead rereadsFirst rereadsOthers =>
        obtain ⟨start, opens, starts⟩ := rereadsFirst.starts (depth + 1)
        obtain ⟨stands, notClose⟩ := stands_of_opens opens
        have takesOthers :
            List.Forall₂ (Takes (valueWithin limit))
              (others.map fun item => lineBreak (depth + 1) ++ writeValue (depth + 1) item)
              othersRead := by
          rw [List.forall₂_map_left_iff]
          refine rereadsOthers.imp fun item itemRead rereads => ?_
          exact takes_valueWithin_lead (gaps_lineBreak (depth + 1))
            (rereads.takes (depth + 1) limit (by omega))
        have taken :=
          items_takes ']' (by decide) (by decide) (gaps_lineBreak (depth + 1))
            (gaps_lineBreak depth) starts stands notClose
            (rereadsFirst.takes (depth + 1) limit (by omega)) takesOthers rest
        simpa [writeValue, writeItems_eq_flatMap] using valueWithin_of_items taken

/-- The text of a field in an object at a depth. -/
def writeField
    (depth : Nat)
    (field : List Piece × Value) :
    List Char :=
  writeString field.1 ++ ([':', ' '] ++ writeValue depth field.2)

theorem writeFields_eq_flatMap
    (depth : Nat)
    (fields : List (List Piece × Value)) :
    writeFields depth fields =
      (fields.map fun field => lineBreak depth ++ writeField depth field).flatMap
        (',' :: ·) := by
  induction fields with
  | nil =>
      rfl
  | cons field fields inductionHypothesis =>
      simp [writeFields, writeField, inductionHypothesis]

/-- One field is read where another was written. -/
structure RereadsField
    (nesting : Nat)
    (written : List Piece × Value)
    (read : List Piece × Value) : Prop where
  name : ∃ text, written.1 = Piece.ofText text ∧ read.1 = Piece.ofWrittenText text
  value : Rereads nesting written.2 read.2

theorem takes_field
    {nesting depth limit : Nat}
    {lead : List Char}
    {written read : List Piece × Value}
    (rereads : RereadsField nesting written read)
    (leadGaps : ∀ char ∈ lead, isGap char = true)
    (deep : nesting ≤ limit) :
    Takes (field (valueWithin limit)) (lead ++ writeField depth written) read := by
  obtain ⟨writtenName, writtenValue⟩ := written
  obtain ⟨readName, readValue⟩ := read
  obtain ⟨⟨text, rfl, rfl⟩, rereadsValue⟩ := rereads
  intro rest
  have key := string_takes text
    (':' :: (' ' :: (writeValue depth writtenValue ++ rest)))
  have spaced : Takes (valueWithin limit) ([' '] ++ writeValue depth writtenValue) readValue :=
    takes_valueWithin_lead (List.forall_mem_singleton.mpr (by decide)) (rereadsValue.takes depth limit deep)
  have value : valueWithin limit (' ' :: (writeValue depth writtenValue ++ rest)) =
      some (readValue, rest) :=
    spaced rest
  have shape : lead ++ writeField depth (Piece.ofText text, writtenValue) ++ rest =
      lead ++ (writeString (Piece.ofText text) ++
        ':' :: (' ' :: (writeValue depth writtenValue ++ rest))) := by
    simp [writeField]
  have quoted : gap (writeString (Piece.ofText text) ++
      ':' :: (' ' :: (writeValue depth writtenValue ++ rest))) = some ((), _) :=
    gap_takes _ (by simp [writeString]; decide)
  rw [shape, field, gap_bind_append leadGaps, bind_of_takes quoted, bind_of_takes key,
    bind_of_takes (gap_takes _ (by simp; decide)), bind_of_takes (char_takes ':' _),
    bind_of_takes value, pure_takes]

theorem rereads_object
    {nesting : Nat}
    {written read : List (List Piece × Value)}
    (rereads : List.Forall₂ (RereadsField nesting) written read) :
    Rereads (nesting + 1) (.object written) (.object read) where
  starts depth := by
    refine ⟨'\x7b', by decide, ?_⟩
    cases written <;> simp [writeValue]
  takes depth limit deep rest := by
    obtain ⟨limit, rfl⟩ : ∃ shallower, limit = shallower + 1 := ⟨limit - 1, by omega⟩
    cases rereads with
    | nil =>
        exact valueWithin_of_fields (items_takes_none _ (by decide) rest)
    | @cons first firstRead others othersRead rereadsFirst rereadsOthers =>
        have starts : (writeField (depth + 1) first).head? = some '"' := rfl
        have takesFirst :
            Takes (field (valueWithin limit)) (writeField (depth + 1) first) firstRead :=
          takes_field rereadsFirst (List.forall_mem_nil _) (by omega)
        have takesOthers :
            List.Forall₂ (Takes (field (valueWithin limit)))
              (others.map fun field => lineBreak (depth + 1) ++ writeField (depth + 1) field)
              othersRead := by
          rw [List.forall₂_map_left_iff]
          refine rereadsOthers.imp fun field fieldRead rereads => ?_
          exact takes_field rereads (gaps_lineBreak (depth + 1)) (by omega)
        have taken :=
          items_takes '\x7d' (by decide) (by decide) (gaps_lineBreak (depth + 1))
            (gaps_lineBreak depth) starts (by decide) (by decide) takesFirst takesOthers rest
        simpa [writeValue, writeField, writeFields_eq_flatMap] using valueWithin_of_fields taken

/-- A whole text that was written is read. -/
theorem read?_write
    {nesting : Nat}
    {written read : Value}
    (rereads : Rereads nesting written read)
    (deep : nesting ≤ (writeValue 0 written).length + 1) :
    read? (write written) = some read := by
  have taken := rereads.takes 0 _ deep []
  rw [List.append_nil] at taken
  have scanned : document (writeValue 0 written) = some (read, []) := by
    rw [document, bind_of_takes (rest_takes _), bind_of_takes taken,
      bind_of_takes (gap_takes [] (by simp)), bind_of_takes (show Scanner.finished [] = _ from rfl),
      pure_takes]
  simp only [read?, Scanner.read?, write, String.toList_ofList, scanned, Option.map_some]

end TokenBudget.Json
