import TableMapper.Reconcile.Live
import TableMapper.Proofs.Attempt
import TableMapper.Proofs.QuotedReading
import TableMapper.Proofs.TextSearch

/-!
# Reading live columns

A row of `DESC` says everything about a column in texts, and its further particulars in one
text of no fixed form.  Any such row is read, whatever these texts hold: letters in any
case, characters of any size.

* `Row.IsDescription`, `Row.Describes` — the rows that are read, and the texts in them;
* `Field.IsReadFrom` — the column that is read from these texts;
* `Live.onUpdateByOffset?` — the clause for updates as it is found by offsets;
* `live_column_reading` — what is read, and from which rows.
-/

namespace TableMapper

/-- The text that a value gives where a text is expected: a text itself, and an integer in
decimal digits. -/
inductive Value.Spells : Value → String → Prop
  | text (s : String) : Spells (.text s) s
  | int (n : Int64) : Spells (.int n) (toString n.toInt)
  | unsigned (n : UInt64) : Spells (.unsigned n) (toString n.toNat)

/-- The kinds of value that give a text. -/
def textKinds : List ValueKind :=
  [.text, .int, .unsigned]

/-- The texts in a row that describes a column of a table. -/
structure Description where
  name : String
  sqlType : String
  null : String
  default : Option String
  extra : Option String

namespace Row

/-- There is a value of one of these kinds in a column. -/
def Holds (row : Row) (column : String) (kinds : List ValueKind) : Prop :=
  ∃ v, row.get? column = some v ∧ v.kind ∈ kinds

/-- A row with all columns of a description, some of which may be null. -/
def IsDescription (row : Row) : Prop :=
  (∀ column ∈ ["Field", "Type", "Null"], row.Holds column textKinds) ∧
    ∀ column ∈ ["Default", "Extra"], row.Holds column (.null :: textKinds)

/-- The text in a column. -/
def Shows (row : Row) (column text : String) : Prop :=
  ∃ v, row.get? column = some v ∧ v.Spells text

/-- The text in a column that may be null. -/
def MayShow (row : Row) (column : String) : Option String → Prop
  | none => row.get? column = some .null
  | some text => row.Shows column text

/-- A row describes a column of a table in these texts. -/
structure Describes (row : Row) (d : Description) : Prop where
  name : row.Shows "Field" d.name
  sqlType : row.Shows "Type" d.sqlType
  null : row.Shows "Null" d.null
  default : row.MayShow "Default" d.default
  extra : row.MayShow "Extra" d.extra

end Row

/-- The text of a value is what the reader takes it for. -/
theorem Value.spells_iff {v : Value} {text : String} :
    v.Spells text ↔ Scalar.text? v = some text := by
  constructor
  · intro h
    cases h <;> rfl
  · intro h
    cases v with
    | text s =>
        cases h
        exact .text _
    | int n =>
        cases h
        exact .int n
    | unsigned n =>
        cases h
        exact .unsigned n
    | null | float x | bool b | moment m | raw sql | list xs => cases h

/-- The values with a text are those of a few kinds. -/
theorem Value.exists_spells_iff {v : Value} : (∃ text, v.Spells text) ↔ v.kind ∈ textKinds := by
  cases v <;> simp [Value.spells_iff, Scalar.text?, Value.kind, textKinds]

namespace Row

variable {row : Row} {column text : String}

/-- A column is read if it holds something that is taken. -/
theorem readAs_eq_ok_iff {α : Type} {expected : Scalar} {take? : Value → Option α} {a : α} :
    row.readAs expected take? column = .ok a ↔
      ∃ v, row.get? column = some v ∧ take? v = some a := by
  rw [readAs]
  cases row.get? column with
  | none => simp
  | some v => cases htake : take? v <;> simp [htake]

/-- A text is read exactly if the row shows it. -/
theorem readText_eq_ok_iff : row.readText column = .ok text ↔ row.Shows column text := by
  rw [readText, readAs_eq_ok_iff, Shows]
  simp only [Value.spells_iff]

/-- A text that may be missing is read exactly if the row may show it. -/
theorem readText?_eq_ok_iff {text? : Option String} :
    row.readText? column = .ok text? ↔ row.MayShow column text? := by
  rw [readText?, readAs_eq_ok_iff]
  cases text? with
  | none =>
      rw [MayShow]
      constructor
      · rintro ⟨v, hv, htake⟩
        split_ifs at htake with hnull
        · rw [hv, hnull]
        · cases h : Scalar.text? v <;> simp [h] at htake
      · intro hv
        exact ⟨.null, hv, rfl⟩
  | some text =>
      rw [MayShow, Shows]
      refine exists_congr fun v => and_congr_right fun _ => ?_
      rw [Value.spells_iff]
      split_ifs with hnull
      · simp [hnull, Scalar.text?]
      · simp

/-- A row shows a text exactly if it holds a value of such a kind. -/
theorem exists_shows_iff : (∃ text, row.Shows column text) ↔ row.Holds column textKinds := by
  simp only [Shows, Holds, ← Value.exists_spells_iff]
  constructor
  · rintro ⟨text, v, hv, htext⟩
    exact ⟨v, hv, text, htext⟩
  · rintro ⟨v, hv, text, htext⟩
    exact ⟨text, v, hv, htext⟩

/-- It may show one exactly if it holds such a value or none. -/
theorem exists_mayShow_iff :
    (∃ text?, row.MayShow column text?) ↔ row.Holds column (.null :: textKinds) := by
  have hkinds {v : Value} : v.kind ∈ .null :: textKinds ↔ v = .null ∨ v.kind ∈ textKinds := by
    cases v <;> simp [Value.kind, textKinds]
  rw [Option.exists]
  simp only [MayShow, exists_shows_iff, Holds, hkinds, and_or_left, exists_or, exists_eq_right]

/-- The rows with texts in all columns are those with the right kinds of value. -/
theorem exists_describes_iff : (∃ d, row.Describes d) ↔ row.IsDescription := by
  simp only [IsDescription, List.forall_mem_cons, List.not_mem_nil, IsEmpty.forall_iff,
    implies_true, and_true, ← exists_shows_iff, ← exists_mayShow_iff]
  constructor
  · rintro ⟨d, h⟩
    exact ⟨⟨⟨_, h.name⟩, ⟨_, h.sqlType⟩, ⟨_, h.null⟩⟩, ⟨_, h.default⟩, ⟨_, h.extra⟩⟩
  · rintro ⟨⟨⟨name, hname⟩, ⟨sqlType, htype⟩, ⟨null, hnull⟩⟩, ⟨default, hdefault⟩, ⟨extra, hextra⟩⟩
    exact ⟨⟨name, sqlType, null, default, extra⟩, hname, htype, hnull, hdefault, hextra⟩

end Row

namespace Live

/-- The words in front of a clause for updates. -/
def onUpdateWords : List Char :=
  "on update ".toList

/-- The clause for updates, found by offsets; `none` if the particulars cannot be cut at the
offset that is found. -/
def onUpdateByOffset? (extra : String) : Option (Option String) :=
  (Text.afterOffset? Char.toLower onUpdateWords extra.toList).map fun behind? =>
    (behind?.map fun behind => String.ofList (Text.trimChars behind)).filter (!·.isEmpty)

/-- Searching by bytes never fails, and finds what searching by characters finds. -/
theorem onUpdateByOffset?_eq (extra : String) :
    onUpdateByOffset? extra = some (onUpdate? extra) := by
  rw [onUpdateByOffset?, Text.afterOffset?_eq Text.utf8Size_toLower (by decide)]
  rfl

/-- The clause for updates is what is left of the text behind the first `on update `, in
letters of either case, without its outer blanks; there is none if nothing is left. -/
theorem onUpdate?_eq_some_iff {extra clause : String} :
    onUpdate? extra = some clause ↔
      ∃ before b b', Text.Blanks b ∧ Text.Blanks b' ∧ Text.Compact clause.toList ∧ clause ≠ "" ∧
        Text.StandsFirst Char.toLower onUpdateWords extra.toList before
          (b ++ (clause.toList ++ b')) := by
  rw [onUpdate?, Option.filter_eq_some_iff, Option.map_eq_some_iff]
  constructor
  · rintro ⟨⟨behind, hafter, rfl⟩, hne⟩
    obtain ⟨before, hfirst⟩ := Text.after?_eq_some_iff.mp hafter
    obtain ⟨hcompact, b, b', hb, hb', hbehind⟩ := Text.exists_trimChars behind
    rw [String.toList_ofList]
    exact ⟨before, b, b', hb, hb', hcompact, by simpa using hne, hbehind ▸ hfirst⟩
  · rintro ⟨before, b, b', hb, hb', hcompact, hne, hfirst⟩
    refine ⟨⟨_, Text.after?_eq_some_iff.mpr ⟨before, hfirst⟩, ?_⟩, by simpa using hne⟩
    rw [Text.trimChars_of_compact hb hcompact hb', String.ofList_toList]

variable {row : Row} {d : Description}

/-- The column that is read from the texts in a row. -/
theorem field_of_describes (h : row.Describes d) :
    field row = .ok
      { name := d.name
        sqlType := d.sqlType
        nullable := Text.upper d.null = "YES" || Text.upper d.null = "TRUE"
        default := defaultText d.sqlType d.default
        autoIncrement := Text.occurs "auto_increment" (Text.lower (d.extra.getD ""))
        comment := ""
        onUpdate := onUpdate? (d.extra.getD "") } := by
  rw [field, Row.readText_eq_ok_iff.mpr h.name, Row.readText_eq_ok_iff.mpr h.sqlType,
    Row.readText_eq_ok_iff.mpr h.null, Row.readText?_eq_ok_iff.mpr h.default,
    Row.readText?_eq_ok_iff.mpr h.extra]
  rfl

/-- A row from which a column is read has texts in all columns. -/
theorem exists_describes_of_field {f : Field} (h : field row = .ok f) : ∃ d, row.Describes d := by
  rw [field] at h
  obtain ⟨name, hname, h⟩ := bind_eq_ok.mp h
  obtain ⟨sqlType, htype, h⟩ := bind_eq_ok.mp h
  obtain ⟨null, hnull, h⟩ := bind_eq_ok.mp h
  obtain ⟨default, hdefault, h⟩ := bind_eq_ok.mp h
  obtain ⟨extra, hextra, _⟩ := bind_eq_ok.mp h
  exact ⟨⟨name, sqlType, null, default, extra⟩, Row.readText_eq_ok_iff.mp hname,
    Row.readText_eq_ok_iff.mp htype, Row.readText_eq_ok_iff.mp hnull,
    Row.readText?_eq_ok_iff.mp hdefault, Row.readText?_eq_ok_iff.mp hextra⟩

end Live

/-- The type of a described column is one of texts. -/
def Description.IsText (d : Description) : Prop :=
  "char".toList <:+: d.sqlType.toList ∨ "text".toList <:+: d.sqlType.toList

/-- A column says what the texts of its description say. The default of a column of texts is
a literal that stands for the described one. -/
structure Field.IsReadFrom (f : Field) (d : Description) : Prop where
  name : f.name = d.name
  sqlType : f.sqlType = d.sqlType
  nullable : f.nullable = true ↔ Text.upper d.null = "YES" ∨ Text.upper d.null = "TRUE"
  comment : f.comment = ""
  noDefault : d.default = none → f.default = "NULL"
  textDefault : ∀ text, d.default = some text → d.IsText →
    readToken .text f.default = some (text, "")
  otherDefault : ∀ text, d.default = some text → ¬d.IsText → f.default = text
  autoIncrement : f.autoIncrement = true ↔ ∃ before behind,
    Text.Stands Char.toLower "auto_increment".toList (d.extra.getD "").toList before behind
  onUpdate : ∀ clause, f.onUpdate = some clause ↔ ∃ before b b',
    Text.Blanks b ∧ Text.Blanks b' ∧ Text.Compact clause.toList ∧ clause ≠ "" ∧
      Text.StandsFirst Char.toLower Live.onUpdateWords (d.extra.getD "").toList before
        (b ++ (clause.toList ++ b'))

/-- A column is one of text exactly if its type says so somewhere. -/
theorem Description.isText_iff {d : Description} :
    (Text.occurs "char" d.sqlType || Text.occurs "text" d.sqlType) = true ↔ d.IsText := by
  rw [Bool.or_eq_true, Text.occurs_iff, Text.occurs_iff, IsText]

/-- The field of a row is read from the description that the row has. -/
theorem Live.isReadFrom_of_field {row : Row} {d : Description} {f : Field} (h : row.Describes d)
    (hf : Live.field row = .ok f) : f.IsReadFrom d := by
  rw [field_of_describes h] at hf
  cases hf
  exact
    { name := rfl
      sqlType := rfl
      nullable := by simp
      comment := rfl
      noDefault := fun hnone => by simp [hnone, defaultText]
      textDefault := fun text hsome htext => by
        have hquote := (readToken_quote text "").mpr (by simp)
        rw [hsome, defaultText, if_pos (Description.isText_iff.mpr htext)]
        rwa [String.append_empty] at hquote
      otherDefault := fun text hsome htext => by
        rw [hsome, defaultText, if_neg (mt Description.isText_iff.mp htext)]
      autoIncrement := Text.occurs_lower_iff
      onUpdate := fun clause => onUpdate?_eq_some_iff }

/-- **Live columns are read whatever is said about them.**  A column is read from exactly the
rows that have its name, its type and whether it may be null as texts or integers, and its
default and its further particulars as such or as nulls.  It says what they say, and its
clause for updates is the one that is found by offsets: the particulars can be cut wherever
the search in their small letters ends. -/
theorem live_column_reading (row : Row) :
    ((∃ f, Live.field row = .ok f) ↔ row.IsDescription) ∧
    ∀ f, Live.field row = .ok f → ∃ d, row.Describes d ∧ f.IsReadFrom d ∧
      Live.onUpdateByOffset? (d.extra.getD "") = some f.onUpdate := by
  refine ⟨?_, ?_⟩
  · rw [← Row.exists_describes_iff]
    constructor
    · rintro ⟨f, hf⟩
      exact Live.exists_describes_of_field hf
    · rintro ⟨d, h⟩
      exact ⟨_, Live.field_of_describes h⟩
  · intro f hf
    obtain ⟨d, h⟩ := Live.exists_describes_of_field hf
    refine ⟨d, h, Live.isReadFrom_of_field h hf, ?_⟩
    rw [Live.field_of_describes h] at hf
    cases hf
    exact Live.onUpdateByOffset?_eq _

/-- A row that describes when a record was changed, with a capital in its particulars that
has no small letter of the same size. -/
def changedRow : Row where
  entries :=
    [("Field", .text "changed"), ("Type", .text "varchar(20)"), ("Null", .text "Yes"),
      ("Default", .text "it's"), ("Extra", .text "İ On Update NOW() on update ")]

/-- The clause keeps its capitals, and what stands in front of it does not shift it. -/
theorem live_column_reading_changed :
    ∃ f d, Live.field changedRow = .ok f ∧ changedRow.Describes d ∧ f.IsReadFrom d ∧
      f.onUpdate = some "NOW() on update" ∧
      Live.onUpdateByOffset? (d.extra.getD "") = some f.onUpdate := by
  obtain ⟨f, hf⟩ := (live_column_reading changedRow).1.mpr (by
    simp [Row.IsDescription, Row.Holds, Row.get?, changedRow, textKinds, Value.kind])
  obtain ⟨d, hd, hread, hoffset⟩ := (live_column_reading changedRow).2 f hf
  have hclause : (Live.field changedRow).map (·.onUpdate) = .ok (some "NOW() on update") := by
    decide +kernel
  rw [hf] at hclause
  exact ⟨f, d, hf, hd, hread, Except.ok.inj hclause, hoffset⟩

end TableMapper
