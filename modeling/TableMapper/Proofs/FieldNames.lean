import TableMapper.Proofs.FieldSettings
import TableMapper.Proofs.ShapeRest
import TableMapper.Proofs.WellNamed

/-!
# The names of fields

The fields of a declared type are named by tokens of its text, so the name of each is an
identifier.  A column is declared and read under one name, which is the last one that the
attributes give, or else the identifier as it stands, with its raw marker.

* `Declaration.name_mem_of_ofTokens?` — where the names of fields come from;
* `Declaration.isIdentifier_of_read?` — the names of fields are identifiers;
* `columns_named_as_fields` — the names of the columns that are generated for a text;
* `marked_column` — a column that has the raw marker in its name.
-/

namespace TableMapper.Derive

/-- A visibility is taken from the front. -/
theorem takesFront_visibility : Shape.TakesFront visibility := by
  intro ts
  unfold visibility
  split
  · split
    · exact .ite (.cons (.some (List.suffix_cons _ _))) (.some (List.drop_suffix _ _))
    · exact LeavesEnd.map_const ((List.suffix_cons _ _).trans (List.suffix_cons _ _)) _
    · exact .some (List.drop_suffix _ _)
  · exact .some (List.suffix_cons _ _)
  · exact .some List.suffix_rfl

/-- The word that is asked for stands in front. -/
theorem wordAnd?_eq_some {ts rest : List Token} {w : String} (h : wordAnd? ts = some (w, rest)) :
    ts = .ident w :: rest := by
  unfold wordAnd? at h
  split at h
  · cases h
    rfl
  · cases h

/-- A field is named by a token. -/
theorem field?_eq_some {ts rest : List Token} {f : DeclaredField} (h : field? ts = some (f, rest)) :
    .ident f.name ∈ ts ∧ rest <:+ ts := by
  obtain ⟨r, hr, h⟩ := Option.bind_eq_some_iff.mp h
  obtain ⟨r', hr', h⟩ := Option.bind_eq_some_iff.mp h
  obtain ⟨behindName, hbehind, h⟩ := Option.bind_eq_some_iff.mp h
  obtain ⟨⟨name, _⟩, hname, h⟩ := Option.bind_eq_some_iff.mp h
  obtain ⟨r'', hr'', h⟩ := Option.bind_eq_some_iff.mp h
  obtain ⟨rest', hrest, h⟩ := Option.bind_eq_some_iff.mp h
  cases h
  have hfront : r' <:+ ts :=
    (takesFront_visibility _ _ hr').trans (Shape.takesFront_outerAttributes _ _ hr)
  constructor
  · rw [wordAnd?_eq_some hname] at hfront
    exact hfront.subset List.mem_cons_self
  · have hchoose := Shape.takesFront_anyWord.choose Shape.takesFront_name (.word "_")
    exact (Shape.takesFront_type _ _ hrest).trans <| (Shape.takesFront_mark _ _ _ hr'').trans <|
      (hchoose _ _ hbehind).trans hfront

/-- The names of fields are identifiers among the tokens. -/
theorem name_mem_of_fieldsUpTo {n : Nat} {ts : List Token} {fs : List DeclaredField}
    (h : fieldsUpTo n ts = some fs) : ∀ f ∈ fs, .ident f.name ∈ ts := by
  induction n generalizing ts fs with
  | zero => cases h
  | succ n ih =>
      rw [fieldsUpTo] at h
      split at h
      · cases h
        exact fun f hf => absurd hf List.not_mem_nil
      · obtain ⟨⟨f, r⟩, hf, h⟩ := Option.bind_eq_some_iff.mp h
        obtain ⟨hname, hr⟩ := field?_eq_some hf
        dsimp only at h
        split at h
        · cases h
          exact List.forall_mem_singleton.mpr hname
        · obtain ⟨fs', hfs, h⟩ := Option.bind_eq_some_iff.mp h
          obtain ⟨r', hr', hfs⟩ := Option.bind_eq_some_iff.mp hfs
          cases h
          refine List.forall_mem_cons.mpr ⟨hname, fun g hg => ?_⟩
          exact ((Shape.takesFront_mark _ _ _ hr').trans hr).subset (ih hfs g hg)

/-- What is read behind an equals sign, where there is one. -/
theorem suffix_of_assigned {α : Type} {value : Shape} (hvalue : value.TakesFront)
    {declared rest : List Token} {made a : α}
    (h : (match Shape.mark '=' declared with
      | some r => (value r).bind fun rest => some (made, rest)
      | none => (some declared).bind fun rest => some (made, rest)) = some (a, rest)) :
    rest <:+ declared := by
  cases hr : Shape.mark '=' declared with
  | none =>
      rw [hr] at h
      cases h
      exact List.suffix_rfl
  | some r =>
      rw [hr] at h
      obtain ⟨rest', hrest, h⟩ := Option.bind_eq_some_iff.mp h
      cases h
      exact (hvalue _ _ hrest).trans (Shape.takesFront_mark _ _ _ hr)

/-- A parameter is taken from the front. -/
theorem suffix_of_param? {ts rest : List Token} {p : TypeParam}
    (h : param? ts = some (p, rest)) : rest <:+ ts := by
  obtain ⟨r, hr, h⟩ := Option.bind_eq_some_iff.mp h
  refine List.IsSuffix.trans ?_ (Shape.takesFront_outerAttributes _ _ hr)
  dsimp only at h
  split at h
  · obtain ⟨rest', hrest, h⟩ := Option.bind_eq_some_iff.mp h
    cases h
    exact Shape.takesFront_lifetimeParam _ _ hrest
  · obtain ⟨_, _, h⟩ := Option.bind_eq_some_iff.mp h
    obtain ⟨declared, hdeclared, h⟩ := Option.bind_eq_some_iff.mp h
    have hshape := Shape.takesFront_name.andThen
      ((Shape.takesFront_mark ':').andThen Shape.takesFront_type)
    have hvalue := Shape.takesFront_constant.choose
      (Shape.takesFront_name.choose Shape.takesFront_anyCurly .name) .constant
    exact (suffix_of_assigned hvalue h).trans ((hshape _ _ hdeclared).trans (List.suffix_cons _ _))
  · cases h
    exact List.suffix_cons _ _
  · obtain ⟨r', hr', h⟩ := Option.bind_eq_some_iff.mp h
    refine List.IsSuffix.trans ?_ (Shape.takesFront_name _ _ hr')
    cases hcolon : Shape.mark ':' r' with
    | none =>
        rw [hcolon] at h
        obtain ⟨declared, hdeclared, h⟩ := Option.bind_eq_some_iff.mp h
        cases hdeclared
        exact suffix_of_assigned Shape.takesFront_type h
    | some bounds =>
        rw [hcolon] at h
        obtain ⟨declared, hdeclared, h⟩ := Option.bind_eq_some_iff.mp h
        exact (suffix_of_assigned Shape.takesFront_type h).trans <|
          (Shape.takesFront_bound.list '+' endsParam _ _ hdeclared).trans <|
            Shape.takesFront_mark _ _ _ hcolon
  · cases h

/-- Parameters are taken from the front. -/
theorem suffix_of_paramsUpTo {n : Nat} {ts rest : List Token} {ps : List TypeParam}
    (h : paramsUpTo n ts = some (ps, rest)) : rest <:+ ts := by
  induction n generalizing ts ps with
  | zero => cases h
  | succ n ih =>
      rw [paramsUpTo] at h
      cases hend : Shape.mark '>' ts with
      | some rest' =>
          rw [hend] at h
          cases h
          exact Shape.takesFront_mark _ _ _ hend
      | none =>
          rw [hend] at h
          obtain ⟨⟨p, r⟩, hp, h⟩ := Option.bind_eq_some_iff.mp h
          refine List.IsSuffix.trans ?_ (suffix_of_param? hp)
          dsimp only at h
          cases hlast : Shape.mark '>' r with
          | some rest' =>
              rw [hlast] at h
              cases h
              exact Shape.takesFront_mark _ _ _ hlast
          | none =>
              rw [hlast] at h
              obtain ⟨⟨ps', rest'⟩, hps, h⟩ := Option.bind_eq_some_iff.mp h
              obtain ⟨r', hr', hps⟩ := Option.bind_eq_some_iff.mp hps
              cases h
              exact (ih hps).trans (Shape.takesFront_mark _ _ _ hr')

/-- A list of parameters is taken from the front. -/
theorem suffix_of_params? {ts rest : List Token} {ps : List TypeParam}
    (h : params? ts = some (ps, rest)) : rest <:+ ts := by
  unfold params? at h
  cases hopen : Shape.mark '<' ts with
  | none =>
      rw [hopen] at h
      cases h
      exact List.suffix_rfl
  | some r =>
      rw [hopen] at h
      exact (suffix_of_paramsUpTo h).trans (Shape.takesFront_mark _ _ _ hopen)

/-- A predicate is taken from the front. -/
theorem takesFront_predicate : Shape.TakesFront predicate := by
  intro ts
  have hlifetimes := Shape.takesFront_lifetime.andThen <| (Shape.takesFront_mark ':').andThen <|
    Shape.takesFront_lifetime.list '+' endsPredicates
  have htypes := (Shape.takesFront_binder.choose Shape.takesFront_empty
    (.word "for")).andThen <| Shape.takesFront_type.andThen <|
      (Shape.takesFront_mark ':').andThen <| Shape.takesFront_bound.list '+' endsPredicates
  exact .ite (hlifetimes ts) (htypes ts)

/-- Predicates are taken from the front. -/
theorem suffix_of_predicates? {ts rest predicates : List Token}
    (h : predicates? ts = some (predicates, rest)) : rest <:+ ts := by
  unfold predicates? at h
  cases hwhere : Shape.word "where" ts with
  | none =>
      rw [hwhere] at h
      cases h
      exact List.suffix_rfl
  | some r =>
      rw [hwhere] at h
      obtain ⟨rest', hrest, h⟩ := Option.map_eq_some_iff.mp h
      cases h
      exact (takesFront_predicate.list _ _ _ _ hrest).trans (Shape.takesFront_word _ _ _ hwhere)

/-- The fields of a type with named ones are named in the curly brackets at its end. -/
theorem name_mem_of_structBody? {ts predicates : List Token} {fields : List DeclaredField}
    (h : structBody? ts = some (predicates, .named fields)) :
    ∃ inner, .group .curly inner ∈ ts ∧ ∀ f ∈ fields, .ident f.name ∈ inner := by
  unfold structBody? at h
  split at h
  · obtain ⟨_, _, h⟩ := Option.bind_eq_some_iff.mp h
    obtain ⟨⟨_, _⟩, _, h⟩ := Option.bind_eq_some_iff.mp h
    obtain ⟨_, _, h⟩ := Option.bind_eq_some_iff.mp h
    cases h
  · obtain ⟨⟨predicates', rest⟩, hpredicates, h⟩ := Option.bind_eq_some_iff.mp h
    dsimp only at h
    split at h
    · next inner =>
      obtain ⟨fields', hfields, h⟩ := Option.bind_eq_some_iff.mp h
      cases h
      exact ⟨inner, (suffix_of_predicates? hpredicates).subset (List.mem_singleton.mpr rfl),
        name_mem_of_fieldsUpTo hfields⟩
    · cases h
    · cases h

/-- A choice has no named fields. -/
theorem choiceBody?_ne_named {inner? : List Token → Bool} {ts predicates : List Token}
    {fields : List DeclaredField} :
    choiceBody? inner? ts ≠ some (predicates, .named fields) := by
  intro h
  obtain ⟨⟨_, rest⟩, _, h⟩ := Option.bind_eq_some_iff.mp h
  dsimp only at h
  split at h
  · split at h <;> cases h
  · cases h

namespace Declaration

/-- The fields of a declaration with named ones are named in curly brackets of its own. -/
theorem name_mem_of_ofTokens? {ts : List Token} {d : Declaration} (h : ofTokens? ts = some d)
    {fields : List DeclaredField} (hbody : d.body = .named fields) :
    ∃ inner, .group .curly inner ∈ ts ∧ ∀ f ∈ fields, .ident f.name ∈ inner := by
  obtain ⟨r, hr, h⟩ := Option.bind_eq_some_iff.mp h
  obtain ⟨r', hr', h⟩ := Option.bind_eq_some_iff.mp h
  obtain ⟨⟨kind, behindKind⟩, hkind, h⟩ := Option.bind_eq_some_iff.mp h
  obtain ⟨behindName, hbehind, h⟩ := Option.bind_eq_some_iff.mp h
  obtain ⟨⟨name, _⟩, _, h⟩ := Option.bind_eq_some_iff.mp h
  obtain ⟨⟨params, behindParams⟩, hparams, h⟩ := Option.bind_eq_some_iff.mp h
  dsimp only at hbehind hparams h
  have hstruct : ∃ predicates, structBody? behindParams = some (predicates, .named fields) := by
    split at h
    · obtain ⟨⟨predicates, body⟩, hstruct, h⟩ := Option.bind_eq_some_iff.mp h
      cases h
      cases hbody
      exact ⟨predicates, hstruct⟩
    · split at h
      · obtain ⟨⟨_, body⟩, hchoice, h⟩ := Option.bind_eq_some_iff.mp h
        cases h
        cases hbody
        exact absurd hchoice choiceBody?_ne_named
      · split at h
        · obtain ⟨⟨_, body⟩, hchoice, h⟩ := Option.bind_eq_some_iff.mp h
          cases h
          cases hbody
          exact absurd hchoice choiceBody?_ne_named
        · cases h
  obtain ⟨predicates, hstruct⟩ := hstruct
  obtain ⟨inner, hinner, hnames⟩ := name_mem_of_structBody? hstruct
  have hkind' : behindKind <:+ r' := wordAnd?_eq_some hkind ▸ List.suffix_cons _ _
  have hrest : behindParams <:+ ts := (suffix_of_params? hparams).trans <|
    (Shape.takesFront_name _ _ hbehind).trans <| hkind'.trans <|
      (takesFront_visibility _ _ hr').trans (Shape.takesFront_outerAttributes _ _ hr)
  exact ⟨inner, hrest.subset hinner, hnames⟩

/-- The name of a field of a declaration in a text is an identifier. -/
theorem isIdentifier_of_read? {s : String} {d : Declaration} (h : read? s = some d)
    {fields : List DeclaredField} (hbody : d.body = .named fields) :
    ∀ f ∈ fields, ∃ word, IsIdentifier f.name word := by
  obtain ⟨ts, hts, h⟩ := Option.bind_eq_some_iff.mp h
  obtain ⟨inner, hinner, hnames⟩ := name_mem_of_ofTokens? h hbody
  exact fun f hf => wellNamed_readAll? hts f.name (.inside hinner (.here (hnames f hf)))

end Declaration

/-- The code for fields stands beside them, each with what its attributes say. -/
theorem forall₂_of_expandFields {fields : List DeclaredField} {codes : List FieldCode}
    (h : expandFields fields = .ok codes) :
    List.Forall₂ (fun f code => ∃ items, FieldItem.readAll f.attributes = .ok items ∧
      code = FieldCode.of f (.ofItems items)) fields codes := by
  induction fields generalizing codes with
  | nil =>
      cases h
      exact .nil
  | cons f fs ih =>
      obtain ⟨s, hs, h⟩ := bind_eq_ok.mp h
      obtain ⟨rest, hrest, h⟩ := bind_eq_ok.mp h
      cases h
      obtain ⟨items, hitems, _⟩ := bind_eq_ok.mp hs
      obtain ⟨rfl, _⟩ := (FieldSettings.read_eq_ok_iff hitems).mp hs
      exact .cons ⟨items, hitems, rfl⟩ (ih hrest)

/-- A field that is neither left out nor taken apart is the column that its items name. -/
theorem FieldCode.of_column (f : DeclaredField) {items : List FieldItem} (hskip : .skip ∉ items)
    (hembed : .embed ∉ items) :
    let name := (lastGiven FieldItem.column? items).getD f.name
    FieldCode.of f (.ofItems items) = ⟨.column f.type name (FieldSettings.ofItems items).chain,
      .value f.name, .column f.name f.type name⟩ := by
  have hnoskip : (FieldSettings.ofItems items).skip = false := by
    rw [FieldSettings.ofItems_eq]
    exact decide_eq_false hskip
  have hnoembed : (FieldSettings.ofItems items).embed = false := by
    rw [FieldSettings.ofItems_eq]
    exact decide_eq_false hembed
  have hname : columnName f (.ofItems items) = (lastGiven FieldItem.column? items).getD f.name := by
    rw [columnName, FieldSettings.ofItems_eq]
  rw [of, hnoskip, hnoembed, hname]
  rfl

/-- The names of the columns that the code for a field declares and reads. -/
def FieldCode.columnNames (code : FieldCode) : Option String × Option String :=
  (match code.member with
    | .column _ name _ => some name
    | _ => none,
   match code.read with
    | .column _ _ name => some name
    | _ => none)

/-- The fields of a declaration, each with the items of its attributes. -/
def Declaration.fieldItems (d : Declaration) : List (String × Option (List FieldItem)) :=
  match d.body with
  | .named fields => fields.map fun f => (f.name, (FieldItem.readAll f.attributes).toOption)
  | _ => []

/-- **The names of columns.**  In what is generated for a text every field that is neither
left out nor taken apart has a column, declared and read under one name: the last one that
is given, or else the identifier of the field.  Without a given name, it is the word that
the field is named by exactly if the identifier has no raw marker. -/
theorem columns_named_as_fields {text out : String} (h : expand text = .ok out) :
    ∃ (d : Declaration) (fields : List DeclaredField) (settings : TypeSettings)
      (codes : List FieldCode),
      Declaration.read? text = some d ∧ d.body = .named fields ∧
      out = (Expansion.mk d settings codes).text ∧
      List.Forall₂ (fun f code => ∃ items word,
        FieldItem.readAll f.attributes = .ok items ∧ IsIdentifier f.name word ∧
        (.skip ∉ items → .embed ∉ items → ∃ name chain,
          code = ⟨.column f.type name chain, .value f.name, .column f.name f.type name⟩ ∧
          name = (lastGiven FieldItem.column? items).getD f.name ∧
          (name = (lastGiven FieldItem.column? items).getD word ↔
            lastGiven FieldItem.column? items ≠ none ∨ f.name ≠ "r#" ++ word))) fields codes := by
  unfold expand at h
  cases hread : Declaration.read? text with
  | none =>
      rw [hread] at h
      cases h
  | some d =>
      rw [hread] at h
      obtain ⟨e, he, rfl⟩ := map_eq_ok.mp h
      unfold Declaration.expand at he
      split at he
      · cases he
      · cases he
      · next fields hbody =>
        obtain ⟨settings, _, he⟩ := bind_eq_ok.mp he
        obtain ⟨codes, hcodes, he⟩ := bind_eq_ok.mp he
        cases he
        refine ⟨d, fields, settings, codes, rfl, hbody, rfl, ?_⟩
        have hnamed := (List.forall₂_and_left _ _).mpr
          ⟨Declaration.isIdentifier_of_read? hread hbody, forall₂_of_expandFields hcodes⟩
        refine hnamed.imp fun f code ⟨⟨word, hword⟩, items, hitems, hcode⟩ => ?_
        refine ⟨items, word, hitems, hword, fun hskip hembed => ?_⟩
        refine ⟨_, _, hcode.trans (FieldCode.of_column f hskip hembed), rfl, ?_⟩
        rw [ne_eq (f.name), hword.raw_iff, not_not]
        cases lastGiven FieldItem.column? items with
        | none => simp
        | some given => simp

/-- A post, of which the first column is given a name. -/
def postText : String :=
  "struct Post \x7b #[orm(column = \"kind\")] r#type : u8 , id : u64 \x7d"

/-- A post has a column of the name that is given and one of its field's own name. -/
theorem columns_named_as_fields_post :
    ∃ d settings first second,
      expand postText = .ok (Expansion.mk d settings [first, second]).text ∧
      first.columnNames = (some "kind", some "kind") ∧
      second.columnNames = (some "id", some "id") := by
  -- Tokens are not compared, so what is read is told by the names and the items alone.
  have hitems : (Declaration.read? postText).map Declaration.fieldItems =
      some [("r#type", some [.column "kind"]), ("id", some [])] := by decide +kernel
  have hexpand : ∃ out, expand postText = .ok out := by
    have hsome : (expand postText).toOption.isSome = true := by decide +kernel
    cases h : expand postText with
    | error e =>
        rw [h] at hsome
        cases hsome
    | ok out => exact ⟨out, rfl⟩
  obtain ⟨out, hout⟩ := hexpand
  obtain ⟨d, fields, settings, codes, hread, hbody, rfl, hcodes⟩ := columns_named_as_fields hout
  rw [hread, Option.map_some, Declaration.fieldItems, hbody] at hitems
  obtain ⟨f, _, rfl, hf, hrest⟩ := List.map_eq_cons_iff.mp (Option.some.inj hitems)
  obtain ⟨g, _, rfl, hg, hrest⟩ := List.map_eq_cons_iff.mp hrest
  obtain rfl := List.map_eq_nil_iff.mp hrest
  obtain ⟨first, _, ⟨items, _, hread, _, hfirst⟩, hbehind, rfl⟩ :=
    List.forall₂_cons_left_iff.mp hcodes
  obtain ⟨second, _, ⟨items', _, hread', _, hsecond⟩, hend, rfl⟩ :=
    List.forall₂_cons_left_iff.mp hbehind
  cases hend
  rw [hread, Prod.mk.injEq] at hf
  rw [hread', Prod.mk.injEq] at hg
  obtain ⟨_, hf⟩ := hf
  obtain ⟨hname, hg⟩ := hg
  cases hf
  cases hg
  obtain ⟨_, _, rfl, rfl, _⟩ := hfirst (by decide) (by decide)
  obtain ⟨_, _, rfl, rfl, _⟩ := hsecond (by decide) (by decide)
  refine ⟨d, settings, _, _, hout, rfl, ?_⟩
  rw [hname]
  rfl

/-- A field with a raw name, without attributes, gives its column the raw marker. -/
theorem marked_column :
    IsIdentifier "r#type" "type" ∧
      ((Declaration.read? "struct Post \x7b r#type : u32 \x7d").bind fun d =>
        d.expand.toOption.map fun e => e.fields.map FieldCode.columnNames) =
        some [(some "r#type", some "r#type")] := by
  have hword : IsWord "type" := ⟨'t', ['y', 'p', 'e'], by decide, by decide, by decide⟩
  exact ⟨⟨hword, .inr ⟨by decide, by decide⟩⟩, by decide +kernel⟩

end TableMapper.Derive
