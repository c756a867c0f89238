import TableMapper.Proofs.Attempt
import TableMapper.Proofs.Rounding
import TableMapper.Row

/-!
# The content of a column

What a column holds has a type of its own: an integer of a width, a double of a
format, a truth value, a text or a moment, and nothing as well where the column is
optional.  Content becomes a value when a record is written and is taken from a value
when a row is read; one is the inverse of the other.

* `Scalar.Content`, `Storage.Content` — what a column can hold;
* `Storage.toValue`, `Storage.fromValue` — content as a value, and from a value;
* `Storage.decode_eq` — decoding takes content and gives it back as a value;
* `Storage.fromValue_toValue` — content is read as it was written.
-/

namespace TableMapper

/-- Both formats are within the bounds that rounding needs. -/
theorem Scalar.within_format (single : Bool) : (format single).Within := by
  cases single with
  | false => exact Format.within_double
  | true => exact Format.within_single

/-- What a column of a scalar holds. -/
def Scalar.Content : Scalar → Type
  | integer signed width => { n : Int // inRange signed width n = true }
  | float single => { x : Binary64 // (format single).Has x }
  | bool => Bool
  | text => String
  | moment => Moment

/-- What a column holds. -/
def Storage.Content : Storage → Type
  | ⟨s, false⟩ => s.Content
  | ⟨s, true⟩ => Option s.Content

/-- An option whose element is known to have a property. -/
def withProof {α : Type} {p : α → Prop} (o : Option α) (h : ∀ a, o = some a → p a) :
    Option { a // p a } :=
  o.pmap Subtype.mk h

section WithProof

variable {α β : Type} {p : α → Prop} {o : Option α} {h : ∀ a, o = some a → p a}

/-- A result that has the property is given with its proof. -/
theorem withProof_of_eq {a : α} (ha : p a) (heq : o = some a) : withProof o h = some ⟨a, ha⟩ := by
  subst heq
  rfl

/-- Without the proofs the results are the same. -/
theorem map_withProof (f : α → β) : (withProof o h).map (fun a => f a.1) = o.map f := by
  cases o <;> rfl

end WithProof

namespace Scalar

/-- The double that a column takes from a value is one of its format. -/
theorem has_float? {single : Bool} {v : Value} {x : Binary64} (h : float? single v = some x) :
    (format single).Has x := by
  have hf := within_format single
  cases v with
  | float y =>
      cases h
      exact Format.has_toFormat hf y
  | int n =>
      cases h
      exact Format.has_ofInt hf _
  | unsigned n =>
      cases h
      exact Format.has_ofInt hf _
  | text s => exact Format.has_read? hf h
  | null | bool b | moment m | raw sql | list xs => cases h

/-- An integer that passed the check is within its width. -/
theorem inRange_of_filter {signed : Bool} {width : Width} {o : Option Int} {n : Int}
    (h : o.filter (inRange signed width) = some n) : inRange signed width n = true :=
  (Option.filter_eq_some_iff.mp h).2

/-- Content as a value. -/
def toValue : (s : Scalar) → s.Content → Value
  | integer signed _, n => integerValue signed n.1
  | float _, x => .float x.1
  | bool, b => .bool b
  | text, s => .text s
  | moment, m => .moment m

/-- The content that a value stands for, if it stands for one. -/
def fromValue? : (s : Scalar) → Value → Option s.Content
  | integer signed width, v =>
    withProof ((integer? signed v).filter (inRange signed width)) fun _ => inRange_of_filter
  | float single, v => withProof (float? single v) fun _ => has_float?
  | bool, v => bool? v
  | text, v => text? v
  | moment, v => moment? v

/-- The content that a column takes from a value. -/
def fromValue (s : Scalar) (column : String) (v : Value) : Except Error s.Content :=
  match s.fromValue? v with
  | some c => .ok c
  | none => .error (.unexpected column s.name v.kind)

/-- What a scalar takes from a value is the content of the value. -/
theorem take?_eq (s : Scalar) (v : Value) : s.take? v = (s.fromValue? v).map s.toValue := by
  cases s with
  | integer signed width => exact (map_withProof (integerValue signed)).symm
  | float single => exact (map_withProof Value.float).symm
  | bool => rfl
  | text => rfl
  | moment => rfl

/-- What a column decodes is the value of the content that it reads. -/
theorem decode_eq (s : Scalar) (column : String) (v : Value) :
    s.decode column v = (s.fromValue column v).map s.toValue := by
  unfold decode fromValue
  rw [take?_eq]
  cases s.fromValue? v <;> rfl

/-- An integer within its width is kept. -/
theorem integer?_integerValue {signed : Bool} {width : Width} {n : Int}
    (h : inRange signed width n = true) : integer? signed (integerValue signed n) = some n := by
  cases signed with
  | false =>
      have hbounds : 0 ≤ n ∧ n < 2 ^ width.bits := by
        simpa [inRange, twoTo_eq] using h
      have hwidth : (2 : Int) ^ width.bits ≤ 2 ^ 64 := by cases width <;> decide
      have htoNat : (UInt64.ofNat n.toNat).toNat = n.toNat := by
        rw [UInt64.toNat_ofNat', Nat.mod_eq_of_lt]
        omega
      change some ((UInt64.ofNat n.toNat).toNat : Int) = some n
      rw [htoNat, Int.toNat_of_nonneg hbounds.1]
  | true =>
      have hbounds : -2 ^ (width.bits - 1) ≤ n ∧ n < 2 ^ (width.bits - 1) := by
        simpa [inRange, twoTo_eq] using h
      have hwidth : (2 : Int) ^ (width.bits - 1) ≤ 2 ^ 63 := by cases width <;> decide
      change some (Int64.ofInt n).toInt = some n
      rw [Int64.toInt_ofInt_of_le (by omega) (by omega)]

/-- Content is taken from a value as it was made one. -/
theorem fromValue?_toValue (s : Scalar) (c : s.Content) : s.fromValue? (s.toValue c) = some c := by
  cases s with
  | integer signed width =>
      obtain ⟨n, hn⟩ := c
      refine withProof_of_eq (p := fun n => inRange signed width n = true) hn ?_
      change (integer? signed (integerValue signed n)).filter (inRange signed width) = some n
      rw [integer?_integerValue hn, Option.filter_some, if_pos hn]
  | float single =>
      obtain ⟨x, hx⟩ := c
      refine withProof_of_eq (p := (format single).Has) hx ?_
      change some (x.toFormat (format single)) = some x
      rw [Binary64.toFormat_of_has (within_format single) hx]
  | bool => rfl
  | text => rfl
  | moment => rfl

/-- Content is never nothing. -/
theorem toValue_ne_null (s : Scalar) (c : s.Content) : s.toValue c ≠ .null := by
  cases s with
  | integer signed width => cases signed <;> exact nofun
  | float single => exact nofun
  | bool => exact nofun
  | text => exact nofun
  | moment => exact nofun

/-- Content that is made a value is read back. -/
theorem fromValue_toValue (s : Scalar) (column : String) (c : s.Content) :
    s.fromValue column (s.toValue c) = .ok c := by
  rw [fromValue, fromValue?_toValue]

end Scalar

namespace Storage

/-- The content of a column as a value; nothing is a null. -/
def toValue : (s : Storage) → s.Content → Value
  | ⟨s, false⟩, c => s.toValue c
  | ⟨s, true⟩, (c : Option s.Content) => c.elim .null s.toValue

/-- The content that a column takes from a value. -/
def fromValue : (s : Storage) → String → Value → Except Error s.Content
  | ⟨s, false⟩, column, v => s.fromValue column v
  | ⟨s, true⟩, column, v => if v = .null then .ok none else (s.fromValue column v).map some

/-- What a column decodes is the content that it takes, as a value. -/
theorem decode_eq (s : Storage) (column : String) (v : Value) :
    s.decode column v = (s.fromValue column v).map s.toValue := by
  obtain ⟨s, optional⟩ := s
  cases optional with
  | false => exact s.decode_eq column v
  | true =>
      by_cases hnull : v = .null
      · subst hnull
        rfl
      · have hnot : ¬(true && decide (v = .null)) = true := by simpa using hnull
        have hdecode : decode ⟨s, true⟩ column v = s.decode column v := if_neg hnot
        have hvalue : fromValue ⟨s, true⟩ column v = (s.fromValue column v).map some :=
          if_neg hnull
        rw [hdecode, hvalue, s.decode_eq column v]
        cases s.fromValue column v <;> rfl

/-- **What a column holds is read as it was written.** -/
theorem fromValue_toValue (s : Storage) (column : String) (c : s.Content) :
    s.fromValue column (s.toValue c) = .ok c := by
  obtain ⟨s, optional⟩ := s
  cases optional with
  | false => exact s.fromValue_toValue column c
  | true =>
      cases (c : Option s.Content) with
      | none => rfl
      | some c =>
          change (if s.toValue c = .null then .ok none
            else (s.fromValue column (s.toValue c)).map some) = Except.ok (some c)
          rw [if_neg (s.toValue_ne_null c), s.fromValue_toValue]
          rfl

end Storage

/-- The content of a column of a row. -/
def Row.content (row : Row) (storage : Storage) (column : String) :
    Except Error storage.Content :=
  match row.get? column with
  | some v => storage.fromValue column v
  | none => .error (.decode column "column not found in row")

/-- What is read from a row is the content of the column, as a value. -/
theorem Row.read_eq (row : Row) (storage : Storage) (column : String) :
    row.read storage column = (row.content storage column).map storage.toValue := by
  unfold read content
  cases row.get? column with
  | none => rfl
  | some v => exact storage.decode_eq column v

/-- A row that has the value of some content in a column gives that content. -/
theorem Row.content_of_get? {row : Row} {storage : Storage} {column : String}
    {c : storage.Content} (h : row.get? column = some (storage.toValue c)) :
    row.content storage column = .ok c := by
  unfold content
  rw [h]
  exact storage.fromValue_toValue column c

end TableMapper
