import TableMapper.Proofs.LiteralToken
import TableMapper.Proofs.Payload

/-!
# The shape of a statement

The shape of a statement is its list of tokens without what stands between
their marks.  This file proves that the shape does not depend on the payloads:
two calls of one builder that differ only in their payloads make statements of
one shape, so no text, however it is chosen, can end its token early and go on
as statement text.

Every text that is put together from literals, quoted names and fixed words is
closed, and `SameShape` follows the way it is put together.  An order direction
is passed on as it is given and need not be closed; it stands behind every
payload, so what it does to the tokens it does in both statements.

* `Literal.sameShape`, `Predicate.sameShape`, … — the parts of a statement;
* `Statement.shape_text_blank` — a statement and its blanked form;
* `shape_text_of_blank_eq` — the law about two calls.
-/

namespace TableMapper

/-- Two closed texts whose tokens agree outside of marks. -/
structure SameShape (s t : String) : Prop where
  left : Closed s
  right : Closed t
  shape : shape s = shape t

namespace SameShape

variable {s t s' t' p : String}

/-- A closed text has the shape that it has. -/
theorem refl (hs : Closed s) : SameShape s s :=
  ⟨hs, hs, rfl⟩

/-- Two quoted texts of one kind have one shape. -/
theorem of_quoted {kind : QuoteKind} (hs : IsQuoted kind s) (ht : IsQuoted kind t) :
    SameShape s t :=
  ⟨hs.closed, ht.closed, hs.shape_eq.trans ht.shape_eq.symm⟩

/-- The same words in front of both. -/
theorem behind (hp : Unmarked p) (h : SameShape s t) : SameShape (p ++ s) (p ++ t) := by
  refine ⟨h.left.behind hp, h.right.behind hp, ?_⟩
  have hshape := h.shape
  unfold TableMapper.shape at hshape ⊢
  rw [hp.tokens_append, hp.tokens_append, List.map_append, List.map_append, hshape]

/-- The same words between two pairs. -/
theorem glue (h : SameShape s t) (hp : Separator p) (h' : SameShape s' t') :
    SameShape (s ++ p ++ s') (t ++ p ++ t') := by
  refine ⟨h.left.glue hp h'.left, h.right.glue hp h'.right, ?_⟩
  have hshape := h.shape
  have hshape' := h'.shape
  unfold TableMapper.shape at hshape hshape' ⊢
  rw [h.left.tokens_glue hp, h.right.tokens_glue hp]
  simp only [List.map_append]
  rw [hshape, hshape']

/-- The same words behind both. -/
theorem before (h : SameShape s t) (hp : Separator p) : SameShape (s ++ p) (t ++ p) := by
  have hempty : Closed "" := Unmarked.closed (by decide)
  have hglue := h.glue hp (refl hempty)
  rwa [String.append_empty, String.append_empty] at hglue

/-- Lists of texts with the same words between them. -/
theorem intercalate {α : Type} {f g : α → String} (hp : Separator p) {l : List α}
    (h : ∀ a ∈ l, SameShape (f a) (g a)) :
    SameShape (p.intercalate (l.map f)) (p.intercalate (l.map g)) := by
  induction l with
  | nil =>
      have hempty : Unmarked "" := by decide
      exact refl hempty.closed
  | cons a l ih =>
      have ha := h a List.mem_cons_self
      have hl := ih fun b hb => h b (List.mem_cons_of_mem _ hb)
      cases l with
      | nil => simpa using ha
      | cons b l =>
          simp only [List.map_cons, String.intercalate_cons_cons]
          exact ha.glue hp hl

/-- Whatever follows both, as long as it does not go on with their last
token. -/
theorem shape_append (h : SameShape s t) {u : String} (hu : PlainStart u.toList) :
    TableMapper.shape (s ++ u) = TableMapper.shape (t ++ u) := by
  have hshape := h.shape
  unfold TableMapper.shape at hshape ⊢
  rw [h.left.tokens_append hu, h.right.tokens_append hu, List.map_append, List.map_append,
    hshape]

end SameShape

/-- The characters of numerals begin no quoted token. -/
theorem isPlain_of_isNumeralChar {c : Char} (hc : isNumeralChar c = true) :
    isPlain c = true := by
  rw [isPlain, Option.isNone_iff_eq_none, QuoteKind.opened?]
  split
  · rename_i hmark
    subst hmark
    revert hc
    decide
  · split
    · rename_i hmark
      subst hmark
      revert hc
      decide
    · rfl

/-- What is written without quotes has no marks. -/
theorem Bare.unmarked {s : String} (hs : Bare s) : Unmarked s := by
  rcases hs with ⟨_, hnumeral⟩ | hword
  · exact hnumeral.mono fun c => isPlain_of_isNumeralChar
  · have hwords : ∀ w ∈ literalWords, Unmarked w := by decide
    exact hwords s hword

/-- A literal is whole tokens. -/
theorem Literal.closed (l : Literal) : Closed l.text := by
  rcases l.quoted_or_bare with hquoted | hbare
  · exact hquoted.closed
  · exact hbare.unmarked.closed

/-- A literal has the shape of the blanked one. -/
theorem Literal.sameShape (l : Literal) : SameShape l.text l.blank.text := by
  cases l with
  | quoted s => exact SameShape.of_quoted (isQuoted_quote s) (isQuoted_quote "")
  | _ => exact SameShape.refl (Literal.closed _)

/-- A quoted name is whole tokens. -/
theorem closed_quoteName (name : String) : Closed (Text.quoteName name) :=
  (isQuoted_quoteName name).closed

/-- All quoted names have one shape. -/
theorem sameShape_quoteName (name other : String) :
    SameShape (Text.quoteName name) (Text.quoteName other) :=
  SameShape.of_quoted (isQuoted_quoteName name) (isQuoted_quoteName other)

/-- A list of quoted names is whole tokens. -/
theorem sameShape_quoteNames (names : List String) :
    SameShape (Text.quoteNames names) (Text.quoteNames names) :=
  SameShape.intercalate (by decide) fun name _ => SameShape.refl (closed_quoteName name)

/-- A list of literals and the list of the blanked ones. -/
theorem sameShape_literals (ls : List Literal) :
    SameShape (", ".intercalate (ls.map Literal.text))
      (", ".intercalate ((ls.map Literal.blank).map Literal.text)) := by
  rw [List.map_map]
  exact SameShape.intercalate (by decide) fun l _ => l.sameShape

/-- An operand has the shape of the blanked one. -/
theorem Operand.sameShape (o : Operand) : SameShape o.text o.blank.text := by
  cases o with
  | single l => exact l.sameShape
  | set ls => exact ((sameShape_literals ls).behind (by decide)).before (by decide)
  | pattern parts =>
      exact SameShape.of_quoted (isQuoted_quotePattern parts) (isQuoted_quotePattern _)

/-- Operators are written without marks. -/
theorem Operator.unmarked_text (op : Operator) : Unmarked op.text := by
  cases op <;> decide

/-- A comparison has the shape of the blanked one. -/
theorem Comparison.sameShape (c : Comparison) : SameShape c.text c.blank.text := by
  have hspace : Separator " " := by decide
  have hname := SameShape.refl (closed_quoteName c.column)
  have hoperator := SameShape.refl c.operator.unmarked_text.closed
  exact (hname.glue hspace hoperator).glue hspace c.operand.sameShape

/-- The texts of a list of predicates are those of each of them. -/
theorem Predicate.texts_eq_map (ps : List Predicate) :
    Predicate.texts ps = ps.map Predicate.text := by
  induction ps with
  | nil => rfl
  | cons p ps ih => rw [Predicate.texts, ih, List.map_cons]

/-- A group of predicates with a connective between them, and the group of the
blanked ones. -/
theorem sameShape_group {connective : String} (hconnective : Separator connective)
    {ps : List Predicate} (h : ∀ p ∈ ps, SameShape p.text p.blank.text) :
    SameShape ("(" ++ connective.intercalate (Predicate.texts ps) ++ ")")
      ("(" ++ connective.intercalate (Predicate.texts (Predicate.blankAll ps)) ++ ")") := by
  rw [Predicate.texts_eq_map, Predicate.texts_eq_map, Predicate.blankAll_eq_map, List.map_map]
  exact ((SameShape.intercalate hconnective h).behind (by decide)).before (by decide)

mutual

/-- The payloads of a predicate do not decide its shape, however deep they
stand. -/
theorem Predicate.sameShape : ∀ p : Predicate, SameShape p.text p.blank.text
  | .leaf c => c.sameShape
  | .all ps => sameShape_group (by decide) (Predicate.sameShape_each ps)
  | .any ps => sameShape_group (by decide) (Predicate.sameShape_each ps)

/-- Every predicate of a list has the shape of its blanked one. -/
theorem Predicate.sameShape_each :
    ∀ ps : List Predicate, ∀ p ∈ ps, SameShape p.text p.blank.text
  | [], _, hp => absurd hp List.not_mem_nil
  | q :: ps, p, hp => by
      have hq := Predicate.sameShape q
      have hps := Predicate.sameShape_each ps
      rcases List.mem_cons.mp hp with heq | hmem
      · rw [heq]
        exact hq
      · exact hps p hmem

end

/-- So has a predicate on its own, in brackets. -/
theorem Predicate.sameShape_clause (p : Predicate) : SameShape p.clause p.blank.clause := by
  cases p with
  | leaf c => exact (c.sameShape.behind (by decide)).before (by decide)
  | all ps => exact Predicate.sameShape (.all ps)
  | any ps => exact Predicate.sameShape (.any ps)

/-- The conditions of a statement. -/
theorem sameShape_clauses (ps : List Predicate) :
    SameShape (" AND ".intercalate (ps.map Predicate.clause))
      (" AND ".intercalate ((ps.map Predicate.blank).map Predicate.clause)) := by
  rw [List.map_map]
  exact SameShape.intercalate (by decide) fun p _ => p.sameShape_clause

/-- Clauses behind the first one, each with its space. -/
def clauseTail (clauses : List (Option String)) : String :=
  String.join ((clauses.filterMap id).map (" " ++ ·))

/-- Words with a space between any two: the first, and a space in front of each other one.
-/
theorem intercalate_space_cons (clause : String) (clauses : List String) :
    " ".intercalate (clause :: clauses) = clause ++ String.join (clauses.map (" " ++ ·)) := by
  induction clauses generalizing clause with
  | nil => simp
  | cons d clauses ih =>
      rw [String.intercalate_cons_cons, ih d, List.map_cons, String.join_cons]
      simp only [String.append_assoc]

/-- A statement of clauses is the first clause and the others behind it. -/
theorem joinClauses_cons (clause : String) (clauses : List (Option String)) :
    joinClauses (some clause :: clauses) = clause ++ clauseTail clauses :=
  intercalate_space_cons clause (clauses.filterMap id)

/-- The clauses behind the first one are written one by one. -/
theorem clauseTail_cons (clause : Option String) (clauses : List (Option String)) :
    clauseTail (clause :: clauses) = clauseTail [clause] ++ clauseTail clauses := by
  cases clause with
  | none => simp [clauseTail]
  | some c => simp [clauseTail]

/-- What stands behind a clause does not continue its last token. -/
theorem plainStart_clauseTail (clauses : List (Option String)) :
    PlainStart (clauseTail clauses).toList := by
  unfold clauseTail
  cases clauses.filterMap id with
  | nil => exact PlainStart.nil
  | cons c cs =>
      have hspace : Separator " " := by decide
      rw [List.map_cons, String.join_cons, String.append_assoc, String.toList_append]
      exact hspace.plainStart _

/-- The clause of the conditions, with its space, behind a closed text. -/
theorem Arguments.sameShape_whereClause {s t : String} (h : SameShape s t) (a : Arguments) :
    SameShape (s ++ clauseTail [a.whereClause?]) (t ++ clauseTail [a.blank.whereClause?]) := by
  have hconditions : a.blank.conditions = a.conditions.map Predicate.blank := rfl
  unfold whereClause? predicateText
  rw [hconditions, List.isEmpty_map]
  split
  · simpa [clauseTail] using h
  · have hclauses := (sameShape_clauses a.conditions).behind (show Unmarked "WHERE " by decide)
    have hglue := h.glue (show Separator " " by decide) hclauses
    simpa [clauseTail, String.append_assoc] using hglue

/-- A statement of clauses: the head and the conditions are closed, and what
comes behind them is the same in both statements. -/
theorem shape_joinClauses {s t : String} (h : SameShape s t) (a : Arguments)
    (clauses : List (Option String)) :
    shape (joinClauses (some s :: a.whereClause? :: clauses)) =
      shape (joinClauses (some t :: a.blank.whereClause? :: clauses)) := by
  rw [joinClauses_cons, joinClauses_cons, clauseTail_cons, clauseTail_cons a.blank.whereClause?,
    ← String.append_assoc, ← String.append_assoc]
  exact (a.sameShape_whereClause h).shape_append (plainStart_clauseTail clauses)

/-- An insert has the shape of the insert of the blanked batch, whatever the table. -/
theorem Batch.sameShape_text (b : Batch) (table : String) :
    SameShape (b.text table) (b.blank.text (blankName table)) := by
  have hrow (row : List Literal) :
      SameShape (tupleText row) (tupleText (row.map Literal.blank)) :=
    ((sameShape_literals row).behind (by decide)).before (by decide)
  have hrows : SameShape (", ".intercalate (b.rows.map tupleText))
      (", ".intercalate (b.blank.rows.map tupleText)) := by
    have hblank : b.blank.rows = b.rows.map fun row => row.map Literal.blank := rfl
    rw [hblank, List.map_map]
    exact SameShape.intercalate (by decide) fun row _ => hrow row
  have hinto := (sameShape_quoteName table (blankName table)).behind
    (show Unmarked "INSERT INTO " by decide)
  exact (hinto.glue (by decide) (sameShape_quoteNames b.columns)).glue (by decide) hrows

/-- The literals that a guarded insert selects have the shape of the blanked ones. -/
theorem sameShape_projection (ps : List Placed) :
    SameShape (projectionText ps) (projectionText (ps.map Placed.blank)) := by
  unfold projectionText
  rw [List.map_map]
  refine SameShape.intercalate (by decide) fun p _ => ?_
  exact p.literal.sameShape.glue (by decide) (SameShape.refl (closed_quoteName p.field.name))

/-- An update that sets a value; the text of another one is not looked at. -/
def Update.IsSet : Update → Prop
  | .set _ _ => True
  | .raw _ _ => False

/-- An update that sets a value has the shape of the blanked one. -/
theorem Update.sameShape_text {u : Update} (hu : u.IsSet) : SameShape u.text u.blank.text := by
  cases u with
  | set column l => exact (SameShape.refl (closed_quoteName column)).glue (by decide) l.sameShape
  | raw column sql => exact hu.elim

/-- A list of updates that set values has the shape of the blanked ones. -/
theorem Update.sameShape_textAll {us : List Update} (hus : ∀ u ∈ us, u.IsSet) :
    SameShape (Update.textAll us) (Update.textAll (us.map Update.blank)) := by
  unfold textAll
  rw [List.map_map]
  exact SameShape.intercalate (by decide) fun u hu => Update.sameShape_text (hus u hu)

/-- A guarded insert names its table twice, and its columns on both sides of the
query that holds the record. -/
theorem shape_guardedInsert (table increment : String) (placed : List Placed)
    (conditions : List Predicate) :
    shape (Statement.guardedInsert table increment placed conditions).text =
      shape (Statement.guardedInsert table increment placed conditions).blank.text := by
  have htable := sameShape_quoteName table (blankName table)
  have hinto := htable.behind (show Unmarked "INSERT INTO " by decide)
  have hnames : SameShape (Text.quoteNames (placed.map (·.field.name)))
      (Text.quoteNames ((placed.map Placed.blank).map (·.field.name))) := by
    rw [Batch.names_blank]
    exact sameShape_quoteNames _
  have hcolumns := hinto.glue (show Separator " (" by decide) hnames
  have hrecord := hcolumns.glue (show Separator ") SELECT * FROM (SELECT " by decide)
    (sameShape_projection placed)
  have hguard := hrecord.glue (show Separator ") AS tmp WHERE NOT EXISTS (SELECT " by decide)
    (SameShape.refl (closed_quoteName increment))
  have hfrom := hguard.glue (show Separator " FROM " by decide) htable
  have hwhere := hfrom.glue (show Separator " WHERE " by decide) (sameShape_clauses conditions)
  exact (hwhere.before (show Separator ") LIMIT 1" by decide)).shape

/-- The assignments of a statement. -/
def Statement.updates : Statement → List Update
  | .upsert _ _ updates | .update updates _ => updates
  | _ => []

/-- A statement and its blanked form have one shape. -/
theorem Statement.shape_text_blank {st : Statement} (hset : ∀ u ∈ st.updates, u.IsSet) :
    shape st.text = shape st.blank.text := by
  cases st with
  | select columns args =>
      have hhead := ((sameShape_quoteNames columns).behind
        (show Unmarked "SELECT " by decide)).glue (show Separator " FROM " by decide)
        (sameShape_quoteName args.table args.blank.table)
      exact shape_joinClauses hhead args _
  | selectById columns table increment id =>
      have hid : SameShape (toString id.toNat) (toString id.toNat) := by
        have hbare : Bare (toString id.toNat) :=
          Numeral.bare (toString_nat_ne_empty _) (numeral_toString _)
        exact SameShape.refl hbare.unmarked.closed
      have hhead := ((sameShape_quoteNames columns).behind
        (show Unmarked "SELECT " by decide)).glue (show Separator " FROM " by decide)
        (sameShape_quoteName table (blankName table))
      exact ((hhead.glue (by decide) (SameShape.refl (closed_quoteName increment))).glue
        (by decide) hid).shape
  | insert table batch => exact (batch.sameShape_text table).shape
  | guardedInsert table increment placed conditions =>
      exact shape_guardedInsert table increment placed conditions
  | upsert table batch updates =>
      exact ((batch.sameShape_text table).glue (by decide)
        (Update.sameShape_textAll hset)).shape
  | update updates args =>
      have hhead := ((sameShape_quoteName args.table args.blank.table).behind
        (show Unmarked "UPDATE " by decide)).glue (show Separator " SET " by decide)
        (Update.sameShape_textAll hset)
      exact shape_joinClauses hhead args _
  | delete args =>
      have hhead := (sameShape_quoteName args.table args.blank.table).behind
        (show Unmarked "DELETE FROM " by decide)
      exact shape_joinClauses hhead args _

/-- Only an assignment of statement text makes an update that is no set. -/
theorem Assignment.isSet_of_resolve {schema : Schema} {a : Assignment} {u : Update}
    (hraw : a.value.kind ≠ .raw) (hu : a.resolve schema = .ok u) : u.IsSet := by
  unfold resolve at hu
  cases hfield : schema.field? a.column with
  | none => simp [hfield] at hu
  | some f =>
      rw [hfield] at hu
      cases hvalue : a.value with
      | raw sql => exact absurd (by rw [hvalue]; rfl) hraw
      | _ =>
          rw [hvalue] at hu
          obtain ⟨l, _, rfl⟩ := map_eq_ok.mp hu
          exact trivial

/-- Assignments without statement text resolve to updates that set values. -/
theorem Assignment.isSet_of_resolveAll {schema : Schema} {as : List Assignment}
    {us : List Update} (hraw : ∀ a ∈ as, a.value.kind ≠ .raw)
    (hus : resolveAll schema as = .ok us) : ∀ u ∈ us, u.IsSet := by
  obtain ⟨updates, hupdates, hus⟩ := bind_eq_ok.mp hus
  have heq : updates = us := by
    cases updates with
    | nil => cases hus
    | cons u updates => exact Except.ok.inj hus
  subst heq
  intro u hu
  obtain ⟨a, ha, hresolve⟩ := exists_of_mem_mapM hupdates u hu
  exact isSet_of_resolve (hraw a (List.mem_of_mem_filter ha)) hresolve

/-- A guarded insert is made of a condition, a counting field and a column. -/
theorem Statement.ofGuardedInsert_eq_ok {schema : Schema} {args : Arguments}
    {record : List Value} {st : Statement} (h : ofGuardedInsert schema args record = .ok st) :
    ∃ increment, schema.increment args.table = .ok increment ∧ args.conditions ≠ [] ∧
      Batch.placed schema record ≠ [] ∧
      st = guardedInsert args.table increment.name (Batch.placed schema record)
        args.conditions := by
  unfold ofGuardedInsert at h
  cases hconditions : args.conditions with
  | nil =>
      rw [hconditions] at h
      cases h
  | cons p ps =>
      rw [hconditions] at h
      obtain ⟨increment, hincrement, h⟩ := bind_eq_ok.mp h
      cases hplaced : Batch.placed schema record with
      | nil =>
          rw [hplaced] at h
          cases h
      | cons q qs =>
          rw [hplaced] at h
          exact ⟨increment, hincrement, by simp, by simp, (Except.ok.inj h).symm⟩

/-- The statement of a call without statement text among its assignments sets
values only. -/
theorem BuilderCall.isSet_of_statement {schema : Schema} {c : BuilderCall} {st : Statement}
    (hraw : ∀ a ∈ c.assignments, a.value.kind ≠ .raw) (hst : c.statement schema = .ok st) :
    ∀ u ∈ st.updates, u.IsSet := by
  cases c with
  | update r as =>
      obtain ⟨args, _, hst⟩ := bind_eq_ok.mp hst
      obtain ⟨us, hus, hst⟩ := bind_eq_ok.mp hst
      cases hst
      exact Assignment.isSet_of_resolveAll hraw hus
  | upsert table records as =>
      obtain ⟨batch, _, hst⟩ := bind_eq_ok.mp hst
      obtain ⟨us, hus, hst⟩ := bind_eq_ok.mp hst
      cases hst
      exact Assignment.isSet_of_resolveAll hraw hus
  | select r =>
      obtain ⟨args, _, hst⟩ := bind_eq_ok.mp hst
      cases hst
      exact fun u hu => absurd hu List.not_mem_nil
  | delete r =>
      obtain ⟨args, _, hst⟩ := bind_eq_ok.mp hst
      cases hst
      exact fun u hu => absurd hu List.not_mem_nil
  | insert table record =>
      cases hst
      exact fun u hu => absurd hu List.not_mem_nil
  | insertMany table records =>
      obtain ⟨batch, _, hst⟩ := bind_eq_ok.mp hst
      cases hst
      exact fun u hu => absurd hu List.not_mem_nil
  | guardedInsert r record =>
      obtain ⟨args, _, hst⟩ := bind_eq_ok.mp hst
      obtain ⟨_, _, _, _, rfl⟩ := Statement.ofGuardedInsert_eq_ok hst
      exact fun u hu => absurd hu List.not_mem_nil

/-- The assignments of a blanked call are the blanked assignments of the call. -/
theorem BuilderCall.assignments_blank (c : BuilderCall) :
    c.blank.assignments = c.assignments.map Assignment.blank := by
  cases c <;> rfl

/-- Blanking keeps statement text apart from values, so calls that are equal
once blanked have the same amount of it. -/
theorem BuilderCall.noRaw_of_blank_eq {c d : BuilderCall} (hblank : c.blank = d.blank)
    (hraw : ∀ a ∈ c.assignments, a.value.kind ≠ .raw) :
    ∀ a ∈ d.assignments, a.value.kind ≠ .raw := by
  intro a ha
  have hmem : a.blank ∈ c.assignments.map Assignment.blank := by
    rw [← BuilderCall.assignments_blank, hblank, BuilderCall.assignments_blank]
    exact List.mem_map_of_mem ha
  obtain ⟨b, hb, heq⟩ := List.mem_map.mp hmem
  have hkind : b.value.kind = a.value.kind := by
    rw [← b.value.kind_blank, ← a.value.kind_blank]
    exact congrArg (fun x : Assignment => x.value.kind) heq
  rw [← hkind]
  exact hraw b hb

/-- The shape of a call's statement is that of the blanked call's. -/
theorem BuilderCall.toOption_shape_blank (schema : Schema) {c : BuilderCall}
    (hraw : ∀ a ∈ c.assignments, a.value.kind ≠ .raw) :
    (c.blank.statement schema).toOption.map (shape ·.text) =
      (c.statement schema).toOption.map (shape ·.text) := by
  rw [BuilderCall.toOption_statement_blank]
  cases hst : c.statement schema with
  | error e => rfl
  | ok st =>
      have hshape := Statement.shape_text_blank (BuilderCall.isSet_of_statement hraw hst)
      exact congrArg some hshape.symm

/-- **Payloads cannot change a statement.**  Of two calls of one builder that
differ only in their payloads, either neither makes a statement, or both do,
and the two statements have the same tokens up to what stands between marks. -/
theorem shape_text_of_blank_eq (schema : Schema) {c d : BuilderCall}
    (hraw : ∀ a ∈ c.assignments, a.value.kind ≠ .raw) (hblank : c.blank = d.blank) :
    (∃ e e', c.statement schema = .error e ∧ d.statement schema = .error e') ∨
      ∃ s t, c.statement schema = .ok s ∧ d.statement schema = .ok t ∧
        (tokens s.text).map Token.shape = (tokens t.text).map Token.shape := by
  have hraw' := BuilderCall.noRaw_of_blank_eq hblank hraw
  have hc := BuilderCall.toOption_shape_blank schema hraw
  have hd := BuilderCall.toOption_shape_blank schema hraw'
  rw [← hblank, hc] at hd
  cases hs : c.statement schema with
  | error e =>
      cases ht : d.statement schema with
      | error e' => exact .inl ⟨e, e', rfl, rfl⟩
      | ok t => simp [hs, ht, Except.toOption] at hd
  | ok s =>
      cases ht : d.statement schema with
      | error e' => simp [hs, ht, Except.toOption] at hd
      | ok t =>
          rw [hs, ht] at hd
          exact .inr ⟨s, t, rfl, rfl, Option.some.inj hd⟩

/-- A record type with a counting field and a text. -/
def accounts : Schema where
  fields :=
    [⟨"id", "bigint unsigned", false, "0", true, "", none⟩,
      ⟨"name", "varchar(32)", false, "''", false, "", none⟩]
  increment_le_one := by decide

/-- An update of the accounts whose name has a part or is an element of a
set. -/
def renameWhere (table part element name : String) : BuilderCall :=
  .update
    ⟨.update, { tableName := table },
      [.condition (.any [.leaf ⟨"name", "like", .list (.texts [part, ""])⟩,
        .all [.leaf ⟨"name", "IN", .list (.texts [element])⟩]]),
        .order ⟨"name", "DESC"⟩, .limit 3]⟩
    [⟨"name", .text name⟩]

/-- The update with harmless payloads. -/
def harmlessRename : BuilderCall :=
  renameWhere "accounts" "o" "Bob" "Ann"

/-- The update with payloads that try to end their tokens. -/
def hostileRename : BuilderCall :=
  renameWhere "a\x60; DROP TABLE b; -- " "%' OR 1=1 -- " "\\'), ('" "'', id = '1"

/-- The law at the two updates. -/
theorem shape_text_of_blank_eq_rename :
    (∀ a ∈ harmlessRename.assignments, a.value.kind ≠ .raw) ∧
      harmlessRename.blank = hostileRename.blank ∧
      ∃ s t, harmlessRename.statement accounts = .ok s ∧
        hostileRename.statement accounts = .ok t ∧
        (tokens s.text).map Token.shape = (tokens t.text).map Token.shape := by
  have hraw : ∀ a ∈ harmlessRename.assignments, a.value.kind ≠ .raw := by decide
  have hblank : harmlessRename.blank = hostileRename.blank := rfl
  refine ⟨hraw, hblank, (shape_text_of_blank_eq accounts hraw hblank).resolve_left ?_⟩
  rintro ⟨e, _, he, _⟩
  have hok : (harmlessRename.statement accounts).toBool = true := by decide +kernel
  rw [he] at hok
  cases hok

end TableMapper
