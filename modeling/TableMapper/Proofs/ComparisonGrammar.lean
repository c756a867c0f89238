import TableMapper.Proofs.BlankText
import TableMapper.Proofs.DictLaws
import TableMapper.Proofs.SchemaLookup
import TableMapper.Proofs.SetElements

/-!
# The grammar of comparisons

A comparison is written out if its column has a name, its operator is spelled in words
that are known and its value fits the operator; otherwise the first of the three that is
amiss is the error.  This file gives the spellings, the values that fit, their texts and
the errors in relations of their own and shows that comparisons are resolved by them.

* `Operator.SpelledBy` — the spellings, in letters of either case and with blanks of any
  width;
* `Value.WrittenAs`, `WrittenBehind` — the text of a value alone and behind an operator;
* `ValueFits`, `Misfit` — which values have such a text, and what is wrong with the others;
* `Criterion.resolve_iff` — how comparisons are resolved.
-/

namespace TableMapper

namespace Operator

/-- The words that spell an operator, in capitals. -/
def wordings : List (List String × Operator) :=
  [(["="], eq), (["=="], eq), (["!="], ne), (["<>"], diamond), (["<"], lt), ([">"], gt),
    (["<="], le), ([">="], ge), (["IS"], is), (["IS", "NOT"], isNot), (["NOT"], isNot),
    (["IN"], isIn), (["NOT", "IN"], notIn), (["LIKE"], like)]

/-- A text spells an operator: its words, between blanks of any width and in letters of
either case, are those of the operator. -/
def SpelledBy (op : Operator) (s : String) : Prop :=
  ∃ ws, Text.Spaced ws s.toList ∧
    (ws.map fun w => String.ofList (w.map Char.toUpper), op) ∈ wordings

/-- The wordings are the spellings cut into words. -/
theorem wordings_eq : wordings =
    spellings.map fun e => ((Text.words e.1.toList).map String.ofList, e.2) := by
  decide

/-- No spelling has blanks to be collapsed. -/
theorem collapse_spelling : ∀ e ∈ spellings, Text.collapse e.1 = e.1 := by
  decide

/-- A text spells an operator if its words in capitals do. -/
theorem spelledBy_iff {op : Operator} {s : String} :
    op.SpelledBy s ↔ (Text.upper (Text.collapse s), op) ∈ spellings := by
  rw [SpelledBy, wordings_eq]
  constructor
  · rintro ⟨ws, hws, hmem⟩
    obtain ⟨⟨t, op'⟩, hspelling, heq⟩ := List.mem_map.mp hmem
    obtain ⟨hlist, rfl⟩ := Prod.ext_iff.mp heq
    have hchars : (Text.words t.toList).map String.ofList =
        (ws.map (·.map Char.toUpper)).map String.ofList := by
      rw [List.map_map]
      exact hlist
    have hwords : (Text.words s.toList).map (·.map Char.toUpper) = Text.words t.toList := by
      rw [hws.words_eq]
      exact (List.map_injective_iff.mpr (fun _ _ h => String.ofList_injective h) hchars).symm
    rwa [(Text.upper_collapse_eq_iff (collapse_spelling _ hspelling)).mpr hwords]
  · intro hmem
    have hwords := (Text.upper_collapse_eq_iff (collapse_spelling _ hmem)).mp rfl
    refine ⟨Text.words s.toList, Text.spaced_words s.toList, List.mem_map.mpr ⟨_, hmem, ?_⟩⟩
    rw [← hwords, List.map_map]
    rfl

/-- The operator of a text is the one that it spells. -/
theorem ofText_eq_ok_iff {op : Operator} {s : String} : ofText s = .ok op ↔ op.SpelledBy s := by
  have hnodup : (spellings.map (·.1)).Nodup := by decide
  rw [spelledBy_iff, ← Dict.valueAt?_eq_some_iff hnodup, ofText, Dict.valueAt?]
  cases spellings.find? (·.1 == Text.upper (Text.collapse s)) with
  | none => simp
  | some e => simp

/-- A text that spells no operator is the error. -/
theorem ofText_eq_error_iff {s : String} {e : Error} :
    ofText s = .error e ↔ (∀ op : Operator, ¬op.SpelledBy s) ∧ e = .invalidOperator s := by
  constructor
  · intro h
    refine ⟨fun op hop => ?_, ?_⟩
    · rw [ofText_eq_ok_iff.mpr hop] at h
      cases h
    · unfold ofText at h
      split at h
      · cases h
      · exact (Except.error.inj h).symm
  · rintro ⟨hnone, rfl⟩
    unfold ofText
    split
    · rename_i op hfind
      have hop : ofText s = .ok op := by rw [ofText, hfind]
      exact absurd (ofText_eq_ok_iff.mp hop) (hnone op)
    · rfl

/-- The operator that stands in front of a value: nothing equals `NULL` or differs from
it. -/
def before : Operator → Value → Operator
  | eq, .null => is
  | ne, .null => isNot
  | op, _ => op

/-- Only equality and inequality are rewritten, and only with `NULL`. -/
theorem before_ne_self_iff {op : Operator} {v : Value} :
    op.before v ≠ op ↔ v = .null ∧ (op = eq ∨ op = ne) := by
  cases v with
  | null => cases op <;> simp [before]
  | _ => cases op <;> simp [before]

/-- An operator is settled as it stands in front of the value. -/
theorem settleOperator_eq (op : Operator) (v : Value) :
    Criterion.settleOperator op v = op.before v := by
  cases v with
  | null => cases op <;> rfl
  | _ => cases op <;> rfl

/-- An operator that has a set behind it. -/
def TakesSet (op : Operator) : Prop :=
  op = isIn ∨ op = notIn

/-- An operator that has a single value behind it. -/
def TakesValue (op : Operator) : Prop :=
  ¬op.TakesSet ∧ op ≠ like

/-- The operator of patterns takes no set. -/
theorem TakesSet.ne_like {op : Operator} (h : op.TakesSet) : op ≠ like := by
  rcases h with rfl | rfl <;> decide

/-- An operator takes a set, a pattern or a single value. -/
theorem takes_cases (op : Operator) : op.TakesSet ∨ op = like ∨ op.TakesValue := by
  by_cases hset : op.TakesSet
  · exact .inl hset
  · by_cases hlike : op = like
    · exact .inr (.inl hlike)
    · exact .inr (.inr ⟨hset, hlike⟩)

end Operator

section

variable (schema : Schema) (column : String)

/-- The text of a single value in a column. -/
inductive Value.WrittenAs : Value → String → Prop
  | null : WrittenAs .null "NULL"
  | int (n : Int64) : WrittenAs (.int n) (toString n.toInt)
  | unsigned (n : UInt64) : WrittenAs (.unsigned n) (toString n.toNat)
  | float {x : Binary64} (hx : x.isFinite = true) : WrittenAs (.float x) x.fixedSix
  | bool (b : Bool) : WrittenAs (.bool b) (truthText b)
  | text (s : String) : WrittenAs (.text s) (Text.quote s)
  | moment (m : Moment) {type : String} (htype : schema.sqlType? column = some type) :
      WrittenAs (.moment m) (m.literal type).text

/-- Why a single value has no text in a column. -/
inductive Value.Unwritten : Value → Error → Prop
  | raw (sql : String) : Unwritten (.raw sql) (.unsupportedValueType column (.ofKind .raw))
  | list (xs : ValueList) : Unwritten (.list xs) (.unsupportedValueType column (.ofKind .list))
  | float {x : Binary64} (hx : x.isFinite = false) :
      Unwritten (.float x) (.unsupportedValueType column .nonFinite)
  | moment (m : Moment) (hcolumn : column ∉ schema.names) :
      Unwritten (.moment m) (.unknownColumn column)

/-- The text of a value behind an operator. -/
inductive WrittenBehind : Operator → Value → String → Prop
  | value {op : Operator} {v : Value} {s : String} (hop : op.TakesValue)
      (hv : v.WrittenAs schema column s) : WrittenBehind op v s
  | set {op : Operator} {xs : ValueList} {ss : List String} (hop : op.TakesSet)
      (hne : xs.length ≠ 0) (hxs : List.Forall₂ (Value.WrittenAs schema column) xs.elements ss) :
      WrittenBehind op (.list xs) ("(" ++ ", ".intercalate ss ++ ")")
  | pattern (s : String) : WrittenBehind .like (.text s) (Text.quote s)
  | parts {ps : List String} (hne : ps ≠ []) :
      WrittenBehind .like (.list (.texts ps)) (Text.quotePattern ps)

/-- Why a value has no text behind an operator. -/
inductive Misfit : Operator → Value → Error → Prop
  | value {op : Operator} {v : Value} {e : Error} (hop : op.TakesValue)
      (hv : v.Unwritten schema column e) : Misfit op v e
  | notList {op : Operator} {v : Value} (hop : op.TakesSet) (hv : ∀ xs, v ≠ .list xs) :
      Misfit op v (.unsupportedValueType column (.ofKind v.kind))
  | emptyList {op : Operator} {xs : ValueList} (hop : op.TakesSet) (hxs : xs.length = 0) :
      Misfit op (.list xs) (.emptyInSet column)
  | element {op : Operator} {xs : ValueList} {v : Value} {e : Error} (hop : op.TakesSet)
      (hmem : v ∈ xs.elements) (hv : v.Unwritten schema column e) : Misfit op (.list xs) e
  | pattern {v : Value} (htext : ∀ s, v ≠ .text s)
      (hparts : ∀ ps, ps ≠ [] → v ≠ .list (.texts ps)) :
      Misfit .like v (.invalidLikeValue column)

/-- A value fits an operator.  In a set it is a list, not an empty one, of finite numbers
if it is one of floating point numbers, and for a known column if it is one of moments; a
pattern is a text or several; and anything else is a single value, no statement text,
finite, and for a known column if it is a moment. -/
structure ValueFits (op : Operator) (v : Value) : Prop where
  set : op.TakesSet → ∃ xs, v = .list xs ∧ xs.length ≠ 0 ∧
    (∀ fs, xs = .floats fs → ∀ x ∈ fs, x.isFinite = true) ∧
    ∀ ms, xs = .moments ms → column ∈ schema.names
  pattern : op = .like → (∃ s, v = .text s) ∨ ∃ ps, ps ≠ [] ∧ v = .list (.texts ps)
  value : op.TakesValue → (∀ sql, v ≠ .raw sql) ∧ (∀ xs, v ≠ .list xs) ∧
    (∀ x, v = .float x → x.isFinite = true) ∧ ∀ m, v = .moment m → column ∈ schema.names

end

section

variable {schema : Schema} {column : String}

/-- A value has a literal with a text, or there is a reason why it has none. -/
theorem Value.literal_cases (schema : Schema) (column : String) (v : Value) :
    (∃ l, v.literal column (schema.sqlType? column) = .ok l ∧
        v.WrittenAs schema column l.text) ∨
      ∃ e, v.literal column (schema.sqlType? column) = .error e ∧
        v.Unwritten schema column e := by
  cases v with
  | null => exact .inl ⟨_, rfl, .null⟩
  | int n => exact .inl ⟨_, rfl, .int n⟩
  | unsigned n => exact .inl ⟨_, rfl, .unsigned n⟩
  | float x =>
      cases hx : x.isFinite with
      | true => exact .inl ⟨.fixed x, if_pos hx, .float hx⟩
      | false => exact .inr ⟨_, if_neg (by simp [hx]), .float hx⟩
  | bool b => exact .inl ⟨_, rfl, .bool b⟩
  | text s => exact .inl ⟨_, rfl, .text s⟩
  | moment m =>
      cases htype : schema.sqlType? column with
      | some type => exact .inl ⟨_, rfl, .moment m htype⟩
      | none => exact .inr ⟨_, rfl, .moment m (Schema.sqlType?_eq_none_iff.mp htype)⟩
  | raw sql => exact .inr ⟨_, rfl, .raw sql⟩
  | list xs => exact .inr ⟨_, rfl, .list xs⟩

/-- A value that is written so has a literal with that text. -/
theorem Value.WrittenAs.literal {v : Value} {s : String} (h : v.WrittenAs schema column s) :
    ∃ l, v.literal column (schema.sqlType? column) = .ok l ∧ l.text = s := by
  cases h with
  | null => exact ⟨_, rfl, rfl⟩
  | int n => exact ⟨_, rfl, rfl⟩
  | unsigned n => exact ⟨_, rfl, rfl⟩
  | float hx => exact ⟨_, if_pos hx, rfl⟩
  | bool b => exact ⟨_, rfl, rfl⟩
  | text s => exact ⟨_, rfl, rfl⟩
  | @moment m type htype =>
      rw [htype]
      exact ⟨m.literal type, rfl, rfl⟩

/-- A value that is not written has no literal, for the same reason. -/
theorem Value.Unwritten.literal {v : Value} {e : Error} (h : v.Unwritten schema column e) :
    v.literal column (schema.sqlType? column) = .error e := by
  cases h with
  | raw sql => rfl
  | list xs => rfl
  | float hx => exact if_neg (by simp [hx])
  | moment m hcolumn =>
      rw [Schema.sqlType?_eq_none_iff.mpr hcolumn]
      rfl

/-- A value cannot be written exactly for the reasons given. -/
theorem Value.literal_eq_error_iff {v : Value} {e : Error} :
    v.literal column (schema.sqlType? column) = .error e ↔ v.Unwritten schema column e := by
  constructor
  · intro h
    rcases v.literal_cases schema column with ⟨l, hl, _⟩ | ⟨e', he, hunwritten⟩
    · rw [h] at hl
      cases hl
    · rw [h] at he
      cases he
      exact hunwritten
  · exact Value.Unwritten.literal

/-- The text of a literal is how its value is written. -/
theorem Value.writtenAs_of_literal {v : Value} {l : Literal}
    (h : v.literal column (schema.sqlType? column) = .ok l) :
    v.WrittenAs schema column l.text := by
  rcases v.literal_cases schema column with ⟨l', hl, hwritten⟩ | ⟨e, he, _⟩
  · rw [h] at hl
    cases hl
    exact hwritten
  · rw [h] at he
    cases he

/-- The texts of several values are those of their literals. -/
theorem exists_literals_iff {vs : List Value} {ss : List String} :
    List.Forall₂ (Value.WrittenAs schema column) vs ss ↔
      ∃ ls, vs.mapM (Value.literal column (schema.sqlType? column)) = .ok ls ∧
        ls.map Literal.text = ss := by
  simp only [mapM_eq_ok_iff]
  constructor
  · intro h
    induction h with
    | nil => exact ⟨[], .nil, rfl⟩
    | cons hfirst _ ih =>
        obtain ⟨l, hl, rfl⟩ := hfirst.literal
        obtain ⟨ls, hls, rfl⟩ := ih
        exact ⟨l :: ls, .cons hl hls, rfl⟩
  · rintro ⟨ls, hls, rfl⟩
    rw [List.forall₂_map_right_iff]
    exact hls.imp fun _ _ => Value.writtenAs_of_literal

/-- The error of several values is why one of them cannot be written. -/
theorem Value.exists_unwritten {vs : List Value} {e : Error}
    (h : vs.mapM (Value.literal column (schema.sqlType? column)) = .error e) :
    ∃ v ∈ vs, v.Unwritten schema column e := by
  obtain ⟨first, v, rest, rfl, _, hv⟩ := mapM_eq_error_iff.mp h
  exact ⟨v, List.mem_append_right first List.mem_cons_self, Value.literal_eq_error_iff.mp hv⟩

/-- Elements of one list that cannot be written cannot be for the same reason. -/
theorem Value.Unwritten.eq_of_mem {xs : ValueList} {v v' : Value} {e e' : Error}
    (hmem : v ∈ xs.elements) (hmem' : v' ∈ xs.elements) (h : v.Unwritten schema column e)
    (h' : v'.Unwritten schema column e') : e = e' := by
  cases xs with
  | ints ns | unsigneds ns | texts ns =>
      obtain ⟨n, _, rfl⟩ := List.mem_map.mp hmem
      cases h
  | floats xs =>
      obtain ⟨x, _, rfl⟩ := List.mem_map.mp hmem
      obtain ⟨x', _, rfl⟩ := List.mem_map.mp hmem'
      cases h
      cases h'
      rfl
  | moments ms =>
      obtain ⟨m, _, rfl⟩ := List.mem_map.mp hmem
      obtain ⟨m', _, rfl⟩ := List.mem_map.mp hmem'
      cases h
      cases h'
      rfl

/-- A list has as many elements as its length says. -/
theorem ValueList.length_elements (xs : ValueList) : xs.elements.length = xs.length := by
  cases xs <;> exact List.length_map _

namespace Criterion

/-- An operator that takes a set is followed by one. -/
theorem resolveOperand_of_takesSet {op : Operator} (hop : op.TakesSet) (v : Value) :
    resolveOperand schema column op v = resolveSet column (schema.sqlType? column) v := by
  rcases hop with rfl | rfl <;> rfl

/-- An operator that takes a single value is followed by its literal. -/
theorem resolveOperand_of_takesValue {op : Operator} (hop : op.TakesValue) (v : Value) :
    resolveOperand schema column op v =
      (v.literal column (schema.sqlType? column)).map .single := by
  cases op
  case isIn => exact absurd (.inl rfl) hop.1
  case notIn => exact absurd (.inr rfl) hop.1
  case like => exact absurd rfl hop.2
  all_goals rfl

/-- A value has an operand behind an operator, or there is a reason why it has none. -/
theorem resolveOperand_cases (schema : Schema) (column : String) (op : Operator) (v : Value) :
    (∃ operand, resolveOperand schema column op v = .ok operand ∧
        WrittenBehind schema column op v operand.text) ∨
      ∃ e, resolveOperand schema column op v = .error e ∧ Misfit schema column op v e := by
  rcases op.takes_cases with hop | rfl | hop
  · rw [resolveOperand_of_takesSet hop]
    cases v with
    | list xs =>
        by_cases hxs : xs.length = 0
        · exact .inr ⟨_, if_pos hxs, .emptyList hop hxs⟩
        · rw [resolveSet_list _ _ hxs]
          cases hread : xs.elements.mapM (Value.literal column (schema.sqlType? column)) with
          | ok ls =>
              exact .inl ⟨.set ls, rfl, .set hop hxs (exists_literals_iff.mpr ⟨ls, hread, rfl⟩)⟩
          | error e =>
              obtain ⟨v, hmem, hv⟩ := Value.exists_unwritten hread
              exact .inr ⟨e, rfl, .element hop hmem hv⟩
    | _ => exact .inr ⟨_, rfl, .notList hop (by simp)⟩
  · cases v with
    | text s => exact .inl ⟨_, rfl, .pattern s⟩
    | list xs =>
        cases xs with
        | texts ps =>
            cases ps with
            | nil => exact .inr ⟨_, rfl, .pattern (by simp) (by simp +contextual)⟩
            | cons p ps => exact .inl ⟨_, rfl, .parts (List.cons_ne_nil p ps)⟩
        | _ => exact .inr ⟨_, rfl, .pattern (by simp) (by simp)⟩
    | _ => exact .inr ⟨_, rfl, .pattern (by simp) (by simp)⟩
  · rw [resolveOperand_of_takesValue hop]
    rcases v.literal_cases schema column with ⟨l, hl, hwritten⟩ | ⟨e, he, hunwritten⟩
    · rw [hl]
      exact .inl ⟨_, rfl, .value hop hwritten⟩
    · rw [he]
      exact .inr ⟨_, rfl, .value hop hunwritten⟩

/-- What is written behind an operator is resolved to an operand with that text. -/
theorem resolveOperand_of_writtenBehind {op : Operator} {v : Value} {s : String}
    (h : WrittenBehind schema column op v s) :
    ∃ operand, resolveOperand schema column op v = .ok operand ∧ operand.text = s := by
  cases h with
  | value hop hv =>
      obtain ⟨l, hl, rfl⟩ := hv.literal
      rw [resolveOperand_of_takesValue hop, hl]
      exact ⟨_, rfl, rfl⟩
  | set hop hxs hwritten =>
      obtain ⟨ls, hls, rfl⟩ := exists_literals_iff.mp hwritten
      rw [resolveOperand_of_takesSet hop, resolveSet_list _ _ hxs, hls]
      exact ⟨_, rfl, rfl⟩
  | pattern s => exact ⟨_, rfl, rfl⟩
  | @parts ps hps =>
      cases ps with
      | nil => exact absurd rfl hps
      | cons p ps => exact ⟨_, rfl, rfl⟩

/-- A value that does not fit is refused with the error of the misfit. -/
theorem resolveOperand_of_misfit {op : Operator} {v : Value} {e : Error}
    (h : Misfit schema column op v e) : resolveOperand schema column op v = .error e := by
  cases h with
  | value hop hv => rw [resolveOperand_of_takesValue hop, hv.literal]; rfl
  | notList hop hv =>
      rw [resolveOperand_of_takesSet hop]
      cases v with
      | list xs => exact absurd rfl (hv xs)
      | _ => rfl
  | emptyList hop hxs => rw [resolveOperand_of_takesSet hop, resolveSet, if_pos hxs]
  | @element op xs v e hop hmem hv =>
      have hxs : xs.length ≠ 0 := by
        rw [← xs.length_elements]
        exact (List.length_pos_of_mem hmem).ne'
      rw [resolveOperand_of_takesSet hop, resolveSet_list _ _ hxs]
      cases hread : xs.elements.mapM (Value.literal column (schema.sqlType? column)) with
      | ok ls =>
          obtain ⟨l, hl⟩ := exists_mapM_iff.mp ⟨ls, hread⟩ v hmem
          rw [hv.literal] at hl
          cases hl
      | error e' =>
          -- some element without a text decides, and all of them fail alike
          obtain ⟨v', hmem', hv'⟩ := Value.exists_unwritten hread
          rw [hv.eq_of_mem hmem hmem' hv']
          rfl
  | pattern htext hparts =>
      cases v with
      | text s => exact absurd rfl (htext s)
      | list xs =>
          cases xs with
          | texts ps =>
              cases ps with
              | nil => rfl
              | cons p ps => exact absurd rfl (hparts (p :: ps) (List.cons_ne_nil p ps))
          | _ => rfl
      | _ => rfl

/-- An operand is refused exactly for a misfit. -/
theorem resolveOperand_eq_error_iff {op : Operator} {v : Value} {e : Error} :
    resolveOperand schema column op v = .error e ↔ Misfit schema column op v e := by
  constructor
  · intro h
    rcases resolveOperand_cases schema column op v with ⟨operand, ho, _⟩ | ⟨e', he, hmisfit⟩
    · rw [h] at ho
      cases ho
    · rw [h] at he
      cases he
      exact hmisfit
  · exact resolveOperand_of_misfit

/-- The text behind an operator is that of the operand. -/
theorem exists_resolveOperand_iff {op : Operator} {v : Value} {s : String} :
    (∃ operand, resolveOperand schema column op v = .ok operand ∧ operand.text = s) ↔
      WrittenBehind schema column op v s := by
  constructor
  · rintro ⟨operand, ho, rfl⟩
    rcases resolveOperand_cases schema column op v with ⟨operand', ho', hwritten⟩ | ⟨e, he, _⟩
    · rw [ho] at ho'
      cases ho'
      exact hwritten
    · rw [ho] at he
      cases he
  · exact resolveOperand_of_writtenBehind

end Criterion

/-- Values that are all written have a text each. -/
theorem Value.WrittenAs.exists_of_mem {vs : List Value} {ss : List String}
    (h : List.Forall₂ (Value.WrittenAs schema column) vs ss) :
    ∀ v ∈ vs, ∃ s, v.WrittenAs schema column s := by
  induction h with
  | nil => exact fun _ hv => absurd hv List.not_mem_nil
  | cons hfirst _ ih => exact List.forall_mem_cons.mpr ⟨⟨_, hfirst⟩, ih⟩

/-- A value that is written behind an operator fits it. -/
theorem WrittenBehind.valueFits {op : Operator} {v : Value} {s : String}
    (h : WrittenBehind schema column op v s) : ValueFits schema column op v := by
  cases h with
  | value hop hv =>
      refine ⟨fun hset => absurd hset hop.1, fun hlike => absurd hlike hop.2, fun _ => ?_⟩
      cases hv with
      | float hx => simp [hx]
      | moment m htype => simp [Schema.mem_names_iff, htype]
      | _ => simp
  | @set op xs ss hop hxs hwritten =>
      have hvs := Value.WrittenAs.exists_of_mem hwritten
      refine ⟨fun _ => ⟨xs, rfl, hxs, ?_, ?_⟩, fun hlike => absurd hlike hop.ne_like,
        fun hvalue => absurd hop hvalue.1⟩
      · rintro fs rfl x hx
        obtain ⟨s, hs⟩ := hvs (.float x) (List.mem_map_of_mem hx)
        cases hs
        assumption
      · rintro ms rfl
        obtain ⟨m, hm⟩ := List.exists_mem_of_length_pos (Nat.pos_of_ne_zero hxs)
        obtain ⟨s, hs⟩ := hvs (.moment m) (List.mem_map_of_mem hm)
        cases hs with
        | moment _ htype => exact Schema.mem_names_iff.mpr ⟨_, htype⟩
  | pattern s =>
      exact ⟨fun hset => absurd rfl hset.ne_like, fun _ => .inl ⟨s, rfl⟩,
        fun hvalue => absurd rfl hvalue.2⟩
  | @parts ps hne =>
      exact ⟨fun hset => absurd rfl hset.ne_like, fun _ => .inr ⟨ps, hne, rfl⟩,
        fun hvalue => absurd rfl hvalue.2⟩

/-- No value both fits an operator and does not. -/
theorem ValueFits.not_misfit {op : Operator} {v : Value} (h : ValueFits schema column op v)
    (e : Error) : ¬Misfit schema column op v e := by
  intro hmisfit
  cases hmisfit with
  | value hop hv =>
      obtain ⟨hraw, hlist, hfloat, hmoment⟩ := h.value hop
      cases hv with
      | raw sql => exact hraw sql rfl
      | list xs => exact hlist xs rfl
      | float hx =>
          rw [hfloat _ rfl] at hx
          cases hx
      | moment m hcolumn => exact hcolumn (hmoment m rfl)
  | notList hop hv =>
      obtain ⟨xs, hlist, _⟩ := h.set hop
      exact hv xs hlist
  | emptyList hop hxs =>
      obtain ⟨xs, hlist, hne, _⟩ := h.set hop
      cases hlist
      exact hne hxs
  | @element op xs v e hop hmem hv =>
      obtain ⟨xs', hlist, _, hfloats, hmoments⟩ := h.set hop
      obtain rfl : xs = xs' := Value.list.inj hlist
      cases xs with
      | ints ns | unsigneds ns | texts ns =>
          obtain ⟨n, _, rfl⟩ := List.mem_map.mp hmem
          cases hv
      | floats fs =>
          obtain ⟨x, hx, rfl⟩ := List.mem_map.mp hmem
          cases hv with
          | float hinfinite =>
              rw [hfloats fs rfl x hx] at hinfinite
              cases hinfinite
      | moments ms =>
          obtain ⟨m, hm, rfl⟩ := List.mem_map.mp hmem
          cases hv with
          | moment _ hcolumn => exact hcolumn (hmoments ms rfl)
  | pattern htext hparts =>
      rcases h.pattern rfl with ⟨s, rfl⟩ | ⟨ps, hps, rfl⟩
      · exact htext s rfl
      · exact hparts ps hps rfl

/-- A value fits an operator exactly if it has a text behind it. -/
theorem valueFits_iff {op : Operator} {v : Value} :
    ValueFits schema column op v ↔ ∃ s, WrittenBehind schema column op v s := by
  constructor
  · intro h
    rcases Criterion.resolveOperand_cases schema column op v with ⟨o, _, hwritten⟩ | ⟨e, _, hmisfit⟩
    · exact ⟨o.text, hwritten⟩
    · exact absurd hmisfit (h.not_misfit e)
  · rintro ⟨s, hs⟩
    exact hs.valueFits

end

namespace Criterion

variable {schema : Schema} {c : Criterion}

/-- A comparison is resolved in three steps, each of which may fail. -/
theorem resolve_eq (hcolumn : c.column ≠ "") : c.resolve schema =
    (Operator.ofText c.operator >>= fun op =>
      (resolveOperand schema c.column op c.value).map fun operand =>
        ⟨c.column, op.before c.value, operand⟩) := by
  have hname : c.column.isEmpty = false := by simpa using hcolumn
  rw [resolve, hname]
  cases Operator.ofText c.operator with
  | error e => rfl
  | ok op =>
      rw [ok_bind, ok_bind, ← Operator.settleOperator_eq]
      change (resolveOperand schema c.column op c.value >>= _) = Except.map _ _
      cases resolveOperand schema c.column op c.value <;> rfl

/-- A comparison without a column is refused for that, whatever its value is. -/
theorem resolve_of_empty (hcolumn : c.column = "") :
    c.resolve schema = .error .emptyColumnName := by
  rw [resolve, hcolumn]
  rfl

/-- The text of a comparison is put together of its column, its operator and its value. -/
theorem exists_resolve_iff {text : String} :
    (∃ comparison, c.resolve schema = .ok comparison ∧ comparison.text = text) ↔
      c.column ≠ "" ∧ ∃ (op : Operator) (s : String), op.SpelledBy c.operator ∧
        WrittenBehind schema c.column op c.value s ∧
        text = Text.quoteName c.column ++ " " ++ (op.before c.value).text ++ " " ++ s := by
  constructor
  · rintro ⟨comparison, hok, rfl⟩
    have hcolumn : c.column ≠ "" := by
      intro hempty
      rw [resolve_of_empty hempty] at hok
      cases hok
    rw [resolve_eq hcolumn] at hok
    obtain ⟨op, hop, hok⟩ := bind_eq_ok.mp hok
    obtain ⟨operand, hoperand, rfl⟩ := map_eq_ok.mp hok
    exact ⟨hcolumn, op, operand.text, Operator.ofText_eq_ok_iff.mp hop,
      exists_resolveOperand_iff.mp ⟨operand, hoperand, rfl⟩, rfl⟩
  · rintro ⟨hcolumn, op, s, hop, hs, rfl⟩
    obtain ⟨operand, hoperand, rfl⟩ := exists_resolveOperand_iff.mpr hs
    refine ⟨⟨c.column, op.before c.value, operand⟩, ?_, rfl⟩
    rw [resolve_eq hcolumn, Operator.ofText_eq_ok_iff.mpr hop, ok_bind, hoperand]
    rfl

/-- The first of the column, the operator and the value that is amiss is the error. -/
theorem resolve_eq_error_iff {e : Error} :
    c.resolve schema = .error e ↔
      c.column = "" ∧ e = .emptyColumnName ∨
      c.column ≠ "" ∧ (∀ op : Operator, ¬op.SpelledBy c.operator) ∧
        e = .invalidOperator c.operator ∨
      c.column ≠ "" ∧ ∃ op : Operator, op.SpelledBy c.operator ∧
        Misfit schema c.column op c.value e := by
  by_cases hcolumn : c.column = ""
  · rw [resolve_of_empty hcolumn]
    simp [hcolumn, eq_comm]
  · have hoperator : (∀ op : Operator, ¬op.SpelledBy c.operator) ∧
        e = .invalidOperator c.operator ↔ Operator.ofText c.operator = .error e :=
      Operator.ofText_eq_error_iff.symm
    rw [resolve_eq hcolumn, hoperator]
    simp only [hcolumn, ne_eq, not_false_eq_true, false_and, false_or, true_and,
      ← Operator.ofText_eq_ok_iff, ← resolveOperand_eq_error_iff]
    cases Operator.ofText c.operator with
    | error e' => simp
    | ok op => simp [map_eq_error]

/-- **Comparisons are resolved by their grammar.**  There is a comparison exactly if the
column has a name, the operator is spelled and the value fits it.  Its text is the column,
the operator and the value with single spaces between them, and the operator is another
one than the spelled one only for equality and inequality with `NULL`.  The error is the
first of the three that is amiss. -/
theorem resolve_iff (schema : Schema) (c : Criterion) :
    ((∃ comparison, c.resolve schema = .ok comparison) ↔
      c.column ≠ "" ∧ ∃ op : Operator, op.SpelledBy c.operator ∧
        ValueFits schema c.column op c.value) ∧
    (∀ text, (∃ comparison, c.resolve schema = .ok comparison ∧ comparison.text = text) ↔
      c.column ≠ "" ∧ ∃ (op : Operator) (s : String), op.SpelledBy c.operator ∧
        WrittenBehind schema c.column op c.value s ∧
        text = Text.quoteName c.column ++ " " ++ (op.before c.value).text ++ " " ++ s) ∧
    (∀ (op : Operator) (v : Value), op.before v ≠ op ↔ v = .null ∧ (op = .eq ∨ op = .ne)) ∧
    ∀ e, c.resolve schema = .error e ↔
      c.column = "" ∧ e = .emptyColumnName ∨
      c.column ≠ "" ∧ (∀ op : Operator, ¬op.SpelledBy c.operator) ∧
        e = .invalidOperator c.operator ∨
      c.column ≠ "" ∧ ∃ op : Operator, op.SpelledBy c.operator ∧
        Misfit schema c.column op c.value e := by
  refine ⟨?_, fun text => exists_resolve_iff, fun op v => Operator.before_ne_self_iff,
    fun e => resolve_eq_error_iff⟩
  constructor
  · rintro ⟨comparison, hok⟩
    obtain ⟨hcolumn, op, s, hop, hs, _⟩ := exists_resolve_iff.mp ⟨comparison, hok, rfl⟩
    exact ⟨hcolumn, op, hop, hs.valueFits⟩
  · rintro ⟨hcolumn, op, hop, hfits⟩
    obtain ⟨s, hs⟩ := valueFits_iff.mp hfits
    obtain ⟨comparison, hok, _⟩ := exists_resolve_iff.mpr ⟨hcolumn, op, s, hop, hs, rfl⟩
    exact ⟨comparison, hok⟩

end Criterion

end TableMapper
