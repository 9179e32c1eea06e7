import Mathlib.Tactic.Use
import TableQuery.Csv.Reader
import TableQuery.Csv.Writer
import TableQuery.Proofs.Text.Bytes

/-!
# Reading what was written

A CSV text that was written is read back as the table of the texts of its cells
(`Csv.read_write`).  A scan passes over the bytes of a field and holds the text of the field
after them (`Scan.exists_passes_fieldText`), a comma ends the field and a line feed the record, so
that each line is read as one record.  The only text that is read otherwise is one that starts
with a byte order mark, which is skipped.
-/

namespace TableQuery.Csv

/-- The bytes of characters. -/
def charBytes (cs : List Char) : List UInt8 :=
  cs.flatMap String.utf8EncodeChar

namespace Scan

/-! ### Passing over bytes -/

/-- The scan moves over bytes of one record, none of which ends it. -/
inductive Passes : Scan → List UInt8 → Scan → Prop where
  | nil (s : Scan) : Passes s [] s
  | cons {s s' s'' : Scan} {b : UInt8} {bytes : List UInt8} (step : s.step b = (s', none))
      (rest : Passes s' bytes s'') : Passes s (b :: bytes) s''

variable {s s' s'' : Scan} {place : Place} {field bytes more : List UInt8}
  {fields : List (List UInt8)} {b : UInt8} {c : Char} {cs : List Char} {text : String}

theorem Passes.single (step : s.step b = (s', none)) :
  Passes s [b] s'
  := .cons step (.nil s')

theorem Passes.append (h : Passes s bytes s') (h' : Passes s' more s'') :
  Passes s (bytes ++ more) s''
  := by
  induction h with
  | nil => apply h'
  | cons step _ ih => apply Passes.cons step (ih h')

/-- No record ends on the way. -/
theorem recordsFrom_of_passes (h : Passes s bytes s') (start offset : Nat) (rest : List UInt8) :
  recordsFrom start offset s (bytes ++ rest)
    = recordsFrom start (offset + bytes.length) s' rest
  := by
  induction h generalizing offset with
  | nil => rfl
  | cons step _ ih =>
    rw [List.cons_append, recordsFrom, step]
    simp only [ih, List.length_cons]
    rw [Nat.add_assoc, Nat.add_comm 1]

/-- Bytes that are taken where the scan stands become part of the field. -/
theorem passes_of_take (h : ∀ b ∈ bytes, ∀ field,
      step ⟨place, field, fields⟩ b = (⟨place, b :: field, fields⟩, none)) :
  Passes ⟨place, field, fields⟩ bytes ⟨place, bytes.reverse ++ field, fields⟩
  := by
  induction bytes generalizing field with
  | nil => apply Passes.nil
  | cons b bytes ih =>
    rw [List.reverse_cons, List.append_assoc]
    apply Passes.cons (h b (by simp) field)
    apply ih
    intro b' hb'
    apply h b' (by simp [hb'])

/-! ### Fields -/

/-- A byte without a meaning of its own. -/
def IsOrdinary (b : UInt8) : Prop :=
  b ≠ comma ∧ isLineEnd b = false ∧ b ≠ quote

theorem isOrdinary_of_needsQuotes (hc : needsQuotes c = false)
    (hb : b ∈ String.utf8EncodeChar c) :
  IsOrdinary b
  := by
  simp only [needsQuotes, Bool.or_eq_false_iff, decide_eq_false_iff_not] at hc
  obtain ⟨⟨⟨hcomma, hquote⟩, hcr⟩, hlf⟩ := hc
  have hne {d : Char} (hd : d.toNat < 128) (hcd : c ≠ d) : b.toNat ≠ d.toNat := by
    intro h
    apply hcd
    apply Text.eq_of_mem_utf8EncodeChar hb h hd
  refine ⟨?_, ?_, ?_⟩
  · rintro rfl
    apply hne (by decide) hcomma rfl
  · simp only [isLineEnd, Bool.or_eq_false_iff, decide_eq_false_iff_not]
    constructor
    · rintro rfl
      apply hne (by decide) hlf rfl
    · rintro rfl
      apply hne (by decide) hcr rfl
  · rintro rfl
    apply hne (by decide) hquote rfl

theorem stepPlain_of_isOrdinary (hb : IsOrdinary b) :
  s.stepPlain b = (s.take b .plain, none)
  := by
  obtain ⟨hcomma, hline, -⟩ := hb
  rw [stepPlain, if_neg hcomma, hline, if_neg Bool.false_ne_true]

/-- Where a field can start: nothing of it has been read. -/
def AtStart (s : Scan) : Prop :=
  (s.place = .outside ∨ s.place = .fieldStart) ∧ s.field = []

theorem atStart_start :
  AtStart start
  := ⟨.inl rfl, rfl⟩

theorem atStart_endField (s : Scan) :
  AtStart s.endField
  := ⟨.inr rfl, rfl⟩

theorem step_ordinary (hs : AtStart s) (hb : IsOrdinary b) :
  s.step b = (⟨.plain, [b], s.fields⟩, none)
  := by
  obtain ⟨hplace, hfield⟩ := hs
  have hstep : s.step b = s.stepPlain b := by
    rcases hplace with hplace | hplace
    · simp only [step, hplace, hb.2.1, hb.2.2, if_false, Bool.false_eq_true]
    · simp only [step, hplace, hb.2.2, if_false]
  rw [hstep, stepPlain_of_isOrdinary hb, take, hfield]

theorem step_quote (hs : AtStart s) :
  s.step quote = (⟨.quoted, [], s.fields⟩, none)
  := by
  obtain ⟨hplace, hfield⟩ := hs
  have hline : isLineEnd quote = false := by decide
  rcases hplace with hplace | hplace
  · simp only [step, hplace, hline, hfield, if_true, if_false, Bool.false_eq_true]
  · simp only [step, hplace, hfield, if_true]

/-- Outside quotes a comma ends the field. -/
theorem step_comma (hs : s.place ≠ .quoted) :
  s.step comma = (s.endField, none)
  := by
  have hline : isLineEnd comma = false := by decide
  have hquote : comma ≠ quote := by decide
  have hplain : s.stepPlain comma = (s.endField, none) := by rw [stepPlain, if_pos rfl]
  cases hplace : s.place <;>
    simp_all only [step, if_false, Bool.false_eq_true, ne_eq, not_true_eq_false]

/-- Outside quotes a line feed ends the record, if it has started. -/
theorem step_lineFeed (hs : s.place ≠ .quoted) (houtside : s.place ≠ .outside) :
  s.step 0x0A = (start, some s.record)
  := by
  have hquote : (0x0A : UInt8) ≠ quote := by decide
  have hplain : s.stepPlain 0x0A = (start, some s.record) := by
    rw [stepPlain, if_neg (by decide), if_pos (by decide)]
  cases hplace : s.place <;>
    simp_all only [step, if_false, ne_eq, not_true_eq_false]

/-- The scan has read the text of a field, and the field can end. -/
structure Holds (s s' : Scan) (text : String) : Prop where
  not_quoted : s'.place ≠ .quoted
  outside : s'.place = .outside → s.place = .outside ∧ text = ""
  endField : s'.endField = ⟨.fieldStart, [], Text.encode text :: s.fields⟩

theorem Holds.of_empty (hs : AtStart s) :
  s.Holds s ""
  := by
  obtain ⟨hplace, hfield⟩ := hs
  constructor
  · rcases hplace with hplace | hplace <;> simp [hplace]
  · intro houtside
    use houtside
  · simp [Scan.endField, hfield, Text.encode]

theorem Holds.of_place (hquoted : place ≠ .quoted) (houtside : place ≠ .outside) :
  s.Holds ⟨place, (Text.encode text).reverse, s.fields⟩ text
  := by
  constructor
  · apply hquoted
  · intro h
    apply absurd h houtside
  · simp [Scan.endField]

/-- A field without special characters is taken as it is. -/
theorem exists_passes_plain (hs : AtStart s) (h : ∀ c ∈ text.toList, needsQuotes c = false) :
  ∃ s', Passes s (charBytes text.toList) s' ∧ s.Holds s' text
  := by
  have hordinary : ∀ b ∈ Text.encode text, IsOrdinary b := by
    intro b hb
    rw [Text.encode_eq_flatMap] at hb
    obtain ⟨c, hc, hb⟩ := List.mem_flatMap.mp hb
    apply isOrdinary_of_needsQuotes (h c hc) hb
  rw [charBytes, ← Text.encode_eq_flatMap]
  cases hbytes : Text.encode text with
  | nil =>
    have htext : text = "" := by
      have hdecode := Text.decode_encode text
      rw [hbytes] at hdecode
      exact (Except.ok.inj hdecode).symm
    subst htext
    exact ⟨s, .nil s, .of_empty hs⟩
  | cons b bytes =>
    rw [hbytes] at hordinary
    have hfirst := step_ordinary hs (hordinary b (by simp))
    have hrest : Passes ⟨.plain, [b], s.fields⟩ bytes ⟨.plain, bytes.reverse ++ [b], s.fields⟩ := by
      apply passes_of_take
      intro b' hb' field
      apply stepPlain_of_isOrdinary (hordinary b' (by simp [hb']))
    have hholds : s.Holds ⟨.plain, (Text.encode text).reverse, s.fields⟩ text :=
      .of_place (by decide) (by decide)
    rw [hbytes, List.reverse_cons] at hholds
    exact ⟨_, .cons hfirst hrest, hholds⟩

/-- Between quotes a character is taken, and a quote is written as two. -/
theorem passes_doubleQuote (c : Char) :
  Passes ⟨.quoted, field, fields⟩ (charBytes (doubleQuote c))
    ⟨.quoted, (String.utf8EncodeChar c).reverse ++ field, fields⟩
  := by
  by_cases hc : c = '"'
  · subst hc
    have hfirst : Passes ⟨.quoted, field, fields⟩ [quote] ⟨.afterQuote, field, fields⟩ :=
      .single rfl
    have hsecond : Passes ⟨.afterQuote, field, fields⟩ [quote]
        ⟨.quoted, quote :: field, fields⟩ := .single rfl
    apply hfirst.append hsecond
  · rw [doubleQuote, if_neg hc, charBytes, List.flatMap_singleton]
    apply passes_of_take
    intro b hb field
    have hquote : b ≠ quote := by
      rintro rfl
      apply hc
      apply Text.eq_of_mem_utf8EncodeChar hb rfl (by decide)
    simp only [step, hquote, if_false, take]

theorem passes_quoted (cs : List Char) :
  Passes ⟨.quoted, field, fields⟩ (charBytes (cs.flatMap doubleQuote))
    ⟨.quoted, (charBytes cs).reverse ++ field, fields⟩
  := by
  induction cs generalizing field with
  | nil => apply Passes.nil
  | cons c cs ih =>
    have hbytes : charBytes ((c :: cs).flatMap doubleQuote)
        = charBytes (doubleQuote c) ++ charBytes (cs.flatMap doubleQuote) := by
      simp [charBytes]
    have hfield : (charBytes (c :: cs)).reverse ++ field
        = (charBytes cs).reverse ++ ((String.utf8EncodeChar c).reverse ++ field) := by
      simp [charBytes]
    rw [hbytes, hfield]
    apply (passes_doubleQuote c).append ih

/-- After the bytes of a field the scan holds its text. -/
theorem exists_passes_fieldText (hs : AtStart s) (text : String) :
  ∃ s', Passes s (charBytes (fieldText text)) s' ∧ s.Holds s' text
  := by
  rw [fieldText]
  split
  · have hopen : Passes s [quote] ⟨.quoted, [], s.fields⟩ := .single (step_quote hs)
    have hinside : Passes ⟨.quoted, [], s.fields⟩ (charBytes (text.toList.flatMap doubleQuote))
        ⟨.quoted, (charBytes text.toList).reverse ++ [], s.fields⟩ := passes_quoted text.toList
    have hclose : Passes ⟨.quoted, (charBytes text.toList).reverse ++ [], s.fields⟩ [quote]
        ⟨.afterQuote, (Text.encode text).reverse, s.fields⟩ := by
      rw [List.append_nil, charBytes, ← Text.encode_eq_flatMap]
      apply Passes.single rfl
    have hbytes : charBytes ('"' :: text.toList.flatMap doubleQuote ++ ['"'])
        = [quote] ++ (charBytes (text.toList.flatMap doubleQuote) ++ [quote]) := by
      simp [charBytes]
      rfl
    rw [hbytes]
    exact ⟨_, hopen.append (hinside.append hclose), .of_place (by decide) (by decide)⟩
  · next hany =>
    apply exists_passes_plain hs
    simpa using hany

/-! ### Records -/

/-- After the fields of a record, with commas between them, the scan holds the record. -/
theorem exists_passes_joinFields (hs : AtStart s) {texts : List String} (htexts : texts ≠ []) :
  ∃ s', Passes s (charBytes (joinFields texts)) s' ∧ s'.place ≠ .quoted ∧
    (s'.place = .outside → s.place = .outside ∧ texts = [""]) ∧
    s'.record = s.fields.reverse ++ texts.map Text.encode
  := by
  induction texts generalizing s with
  | nil => exact absurd rfl htexts
  | cons text texts ih =>
    obtain ⟨s₁, hfield, hholds⟩ := exists_passes_fieldText hs text
    cases texts with
    | nil =>
      use s₁, hfield, hholds.not_quoted
      constructor
      · intro houtside
        obtain ⟨hplace, rfl⟩ := hholds.outside houtside
        exact ⟨hplace, rfl⟩
      · simp [record, hholds.endField]
    | cons next texts =>
      obtain ⟨s₂, hrest, hquoted, houtside, hrecord⟩ := ih (atStart_endField s₁) (by simp)
      have hcomma : Passes s₁ [comma] s₁.endField := .single (step_comma hholds.not_quoted)
      have hbytes : charBytes (joinFields (text :: next :: texts))
          = charBytes (fieldText text) ++ ([comma] ++ charBytes (joinFields (next :: texts))) := by
        simp [joinFields, charBytes]
        rfl
      rw [hbytes]
      use s₂, hfield.append (hcomma.append hrest), hquoted
      constructor
      · intro h
        cases (houtside h).1
      · rw [hrecord, hholds.endField]
        simp

/-- A line is read as one record. -/
theorem recordsFrom_lineText {texts : List String} (htexts : texts ≠ []) (start offset : Nat)
    (rest : List UInt8) :
  ∃ offset', recordsFrom start offset .start (charBytes (lineText texts) ++ rest)
    = ⟨start, texts.map Text.encode⟩ :: recordsFrom offset' offset' .start rest
  := by
  obtain ⟨s, hpasses, hquoted, houtside, hrecord⟩ := exists_passes_joinFields atStart_start htexts
  by_cases hplace : s.place = .outside
  · -- The line would be empty, and holds two quotes instead.
    obtain ⟨-, rfl⟩ := houtside hplace
    exact ⟨_, rfl⟩
  · have hjoin : joinFields texts ≠ [] := by
      intro hjoin
      rw [hjoin] at hpasses
      cases hpasses
      exact hplace rfl
    have hbytes : charBytes (lineText texts) = charBytes (joinFields texts) ++ [0x0A] := by
      simp [lineText, hjoin, charBytes]
      rfl
    rw [hbytes, List.append_assoc, recordsFrom_of_passes hpasses, List.singleton_append,
      recordsFrom, step_lineFeed hquoted hplace, hrecord]
    exact ⟨_, rfl⟩

/-- Lines are read as records with the texts of their fields. -/
theorem fields_recordsFrom (lines : List (List String)) (hlines : ∀ texts ∈ lines, texts ≠ [])
    (first offset : Nat) :
  (recordsFrom first offset .start (charBytes (lines.flatMap lineText))).map RawRecord.fields
    = lines.map (List.map Text.encode)
  := by
  induction lines generalizing first offset with
  | nil => rfl
  | cons texts lines ih =>
    have hbytes : charBytes ((texts :: lines).flatMap lineText)
        = charBytes (lineText texts) ++ charBytes (lines.flatMap lineText) := by
      simp [charBytes]
    obtain ⟨offset', hline⟩ := recordsFrom_lineText (hlines texts (by simp)) first offset
      (charBytes (lines.flatMap lineText))
    rw [hbytes, hline, List.map_cons, List.map_cons]
    rw [ih (fun texts h => hlines texts (by simp [h]))]

end Scan

/-! ### Texts -/

theorem decodeFields_encode (texts : List String) (field : Nat) :
  decodeFields (texts.map Text.encode) field = .ok texts
  := by
  induction texts generalizing field with
  | nil => rfl
  | cons text texts ih =>
    simp only [List.map_cons, decodeFields, Text.decode_encode, ih]
    rfl

theorem decodeRecord_encode {r : RawRecord} {texts : List String}
    (h : r.fields = texts.map Text.encode) (bytes : List UInt8) (record : Nat) :
  decodeRecord bytes record r = .ok texts
  := by
  rw [decodeRecord, h, decodeFields_encode]
  rfl

theorem decodeRecords_encode {records : List RawRecord} {lines : List (List String)}
    (h : records.map RawRecord.fields = lines.map (List.map Text.encode)) (bytes : List UInt8)
    (first : Nat) :
  decodeRecords bytes first records = .ok lines
  := by
  induction records generalizing lines first with
  | nil =>
    obtain rfl : lines = [] := by simpa using h.symm
    rfl
  | cons r records ih =>
    cases lines with
    | nil => simp at h
    | cons texts lines =>
      obtain ⟨hfields, hrest⟩ := List.cons.inj h
      simp only [decodeRecords, decodeRecord_encode hfields, ih hrest]
      rfl

/-! ### Tables -/

/-- The byte order mark is the bytes of a character. -/
theorem byteOrderMark_eq :
  byteOrderMark = String.utf8EncodeChar (Char.ofNat 0xFEFF)
  := by decide

theorem exists_joinFields_cons (text : String) (texts : List String) :
  ∃ rest, joinFields (text :: texts) = fieldText text ++ rest ∧
    (rest = [] ∨ ∃ more, rest = ',' :: more)
  := by
  cases texts with
  | nil => exact ⟨[], by simp [joinFields], .inl rfl⟩
  | cons next texts => exact ⟨_, rfl, .inr ⟨_, rfl⟩⟩

/-- A table starts with a quote, a comma or the first character of its first column name. -/
theorem head?_tableText (name : String) (names : List String) (rows : List Row) :
  (tableText (name :: names) rows).head? ∈ [some '"', some ',', name.toList.head?]
  := by
  obtain ⟨rest, hjoin, hrest⟩ := exists_joinFields_cons name names
  rw [tableText, List.flatMap_cons, lineText, hjoin, fieldText]
  by_cases hquoted : name.toList.any needsQuotes
  · simp [hquoted]
  · cases hname : name.toList with
    | cons c cs =>
      rw [hname] at hquoted
      simp [hquoted]
    | nil => rcases hrest with rfl | ⟨more, rfl⟩ <;> simp

theorem byteOrderMark_not_isPrefixOf {headers : List String} (hheaders : headers ≠ [])
    (hmark : ∀ name ∈ headers.head?, name.toList.head? ≠ some (Char.ofNat 0xFEFF))
    (rows : List Row) :
  byteOrderMark.isPrefixOf (charBytes (tableText headers rows)) = false
  := by
  obtain ⟨name, names, rfl⟩ := List.exists_cons_of_ne_nil hheaders
  rw [Bool.eq_false_iff]
  intro h
  rw [List.isPrefixOf_iff_prefix, byteOrderMark_eq] at h
  have hhead := head?_tableText name names rows
  rw [Text.head?_of_utf8EncodeChar_prefix h] at hhead
  simp only [List.mem_cons, List.not_mem_nil, or_false] at hhead
  rcases hhead with hhead | hhead | hhead
  · apply absurd hhead (by decide)
  · apply absurd hhead (by decide)
  · apply hmark name rfl hhead.symm

/-- The lines of a table that was written are read as records. -/
theorem fields_recordsFrom_write {headers : List String} (hheaders : headers ≠ [])
    (rows : List Row) (first offset : Nat) :
  (recordsFrom first offset .start (Text.encode (write headers rows))).map RawRecord.fields
    = (headers :: rows.map (cellTexts headers)).map (List.map Text.encode)
  := by
  rw [write, Text.encode_ofList]
  apply Scan.fields_recordsFrom
  intro texts htexts
  rcases List.mem_cons.mp htexts with rfl | htexts
  · apply hheaders
  · obtain ⟨row, -, rfl⟩ := List.mem_map.mp htexts
    simpa [cellTexts] using hheaders

/-- Records of the texts of cells are read as the table of these texts. -/
theorem read_of_fields {bytes : List UInt8} {headers : List String} {rows : List Row}
    (h : (records bytes).map RawRecord.fields
      = (headers :: rows.map (cellTexts headers)).map (List.map Text.encode)) :
  read bytes = .ok ⟨headers, rows.map fun row => rowOf headers (cellTexts headers row)⟩
  := by
  rw [read, decodeRecords_encode h]
  simp only [Except.map, List.map_map, Function.comp_def]

/-- A table that was written is read as the table of the texts of its cells. -/
theorem read_write {headers : List String} (hheaders : headers ≠ [])
    (hmark : ∀ name ∈ headers.head?, name.toList.head? ≠ some (Char.ofNat 0xFEFF))
    (rows : List Row) :
  read (Text.encode (write headers rows))
    = .ok ⟨headers, rows.map fun row => rowOf headers (cellTexts headers row)⟩
  := by
  have hprefix : byteOrderMark.isPrefixOf (Text.encode (write headers rows)) = false := by
    rw [write, Text.encode_ofList]
    apply byteOrderMark_not_isPrefixOf hheaders hmark
  apply read_of_fields
  rw [records, hprefix, if_neg Bool.false_ne_true]
  apply fields_recordsFrom_write hheaders

/-- Behind a byte order mark a table is read as it was written, whatever its columns are called. -/
theorem read_mark_write {headers : List String} (hheaders : headers ≠ []) (rows : List Row) :
  read (byteOrderMark ++ Text.encode (write headers rows))
    = .ok ⟨headers, rows.map fun row => rowOf headers (cellTexts headers row)⟩
  := by
  have hdrop : (byteOrderMark ++ Text.encode (write headers rows)).drop 3
      = Text.encode (write headers rows) := List.drop_left' rfl
  apply read_of_fields
  rw [records, if_pos (List.isPrefixOf_iff_prefix.mpr (List.prefix_append _ _)), hdrop]
  apply fields_recordsFrom_write hheaders

end TableQuery.Csv
