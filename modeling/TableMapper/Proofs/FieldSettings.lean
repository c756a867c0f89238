import Mathlib.Data.List.Induction
import TableMapper.Derive.Expansion
import TableMapper.Proofs.Attempt

/-!
# What the attributes of a field say

The items of a field's attributes are read one after another, but each sets a part of the
settings that no other kind of item touches.  So of every kind only the last item counts,
in whatever order the kinds are mixed and however the items are spread over attributes.
The column is then described by a tag first and by everything else behind it, so that what
is said outside the tag wins, wherever in the attributes the tag stands.

* `lastGiven`, `SaySame` — the last item of a kind, and items of which the same ones count;
* `FieldSettings.ofItems_eq`, `FieldSettings.ofItems_eq_iff` — settings kind by kind;
* `FieldSettings.ofSettings_chain` — the annotations of the column that is described;
* `FieldItem.readAll_written` — items that are written are read, however they are spread
  over attributes;
* `fieldCode_in_any_order` — the code for fields whose attributes say the same.
-/

namespace TableMapper.Derive

namespace FieldItem

/-- The name that an item gives to the column, if it gives one. -/
@[simp] def column? : FieldItem → Option String
  | .column name => some name
  | _ => none

/-- The tag that an item gives, if it gives one. -/
@[simp] def tag? : FieldItem → Option String
  | .tag text => some text
  | _ => none

/-- The type that an item gives, if it gives one. -/
@[simp] def sqlType? : FieldItem → Option String
  | .sqlType text => some text
  | _ => none

/-- What an item says about nulls, if it says something. -/
@[simp] def nullable? : FieldItem → Option Bool
  | .nullable b => some b
  | _ => none

/-- The default that an item gives, if it gives one. -/
@[simp] def default? : FieldItem → Option String
  | .default text => some text
  | _ => none

/-- What an item says about updates, if it says something. -/
@[simp] def onUpdate? : FieldItem → Option String
  | .onUpdate text => some text
  | _ => none

/-- The comment that an item gives, if it gives one. -/
@[simp] def comment? : FieldItem → Option String
  | .comment text => some text
  | _ => none

end FieldItem

/-- The last of the values that items give. -/
def lastGiven {α : Type} (value? : FieldItem → Option α) (items : List FieldItem) : Option α :=
  (items.filterMap value?).getLast?

/-- What is given last wins. -/
theorem lastGiven_append_singleton {α : Type} (value? : FieldItem → Option α)
    (items : List FieldItem) (item : FieldItem) :
    lastGiven value? (items ++ [item]) = (value? item).or (lastGiven value? items) := by
  rw [lastGiven, List.filterMap_append, lastGiven]
  cases h : value? item with
  | none => simp [h]
  | some a => simp [h]

/-- Items of which the same ones count: the last of every kind that has a value, and all
marks. -/
structure SaySame (items items' : List FieldItem) : Prop where
  column : lastGiven FieldItem.column? items = lastGiven FieldItem.column? items'
  tag : lastGiven FieldItem.tag? items = lastGiven FieldItem.tag? items'
  sqlType : lastGiven FieldItem.sqlType? items = lastGiven FieldItem.sqlType? items'
  nullable : lastGiven FieldItem.nullable? items = lastGiven FieldItem.nullable? items'
  default : lastGiven FieldItem.default? items = lastGiven FieldItem.default? items'
  onUpdate : lastGiven FieldItem.onUpdate? items = lastGiven FieldItem.onUpdate? items'
  comment : lastGiven FieldItem.comment? items = lastGiven FieldItem.comment? items'
  increment : .increment ∈ items ↔ .increment ∈ items'
  embed : .embed ∈ items ↔ .embed ∈ items'
  skip : .skip ∈ items ↔ .skip ∈ items'

namespace FieldSettings

/-- What items say together, kind by kind. -/
theorem ofItems_eq (items : List FieldItem) :
    ofItems items =
      { column := lastGiven FieldItem.column? items
        tag := lastGiven FieldItem.tag? items
        sqlType := lastGiven FieldItem.sqlType? items
        nullable := lastGiven FieldItem.nullable? items
        default := lastGiven FieldItem.default? items
        increment := decide (.increment ∈ items)
        onUpdate := lastGiven FieldItem.onUpdate? items
        comment := lastGiven FieldItem.comment? items
        embed := decide (.embed ∈ items)
        skip := decide (.skip ∈ items) } := by
  induction items using List.reverseRecOn with
  | nil => rfl
  | append_singleton items item ih =>
      rw [ofItems, List.foldl_append, ← ofItems, ih, List.foldl_cons, List.foldl_nil]
      cases item <;> simp [add, lastGiven_append_singleton]

/-- Items say the same together exactly if the same ones of them count. -/
theorem ofItems_eq_iff {items items' : List FieldItem} :
    ofItems items = ofItems items' ↔ SaySame items items' := by
  rw [ofItems_eq, ofItems_eq, FieldSettings.mk.injEq]
  constructor
  · rintro ⟨hcolumn, htag, htype, hnull, hdefault, hincrement, hupdate, hcomment, hembed, hskip⟩
    exact ⟨hcolumn, htag, htype, hnull, hdefault, hupdate, hcomment, decide_eq_decide.mp hincrement,
      decide_eq_decide.mp hembed, decide_eq_decide.mp hskip⟩
  · intro h
    exact ⟨h.column, h.tag, h.sqlType, h.nullable, h.default, decide_eq_decide.mpr h.increment,
      h.onUpdate, h.comment, decide_eq_decide.mpr h.embed, decide_eq_decide.mpr h.skip⟩

end FieldSettings

end TableMapper.Derive

namespace TableMapper.Annotations

/-- No part of a tag is a comment. -/
theorem comment_addPart (a : Annotations) (part : List Char) :
    (a.addPart part).comment = a.comment := by
  unfold addPart
  cases keyValue? part with
  | none => rfl
  | some kv =>
      dsimp only
      split_ifs <;> rfl

/-- A tag says nothing of a comment. -/
theorem comment_ofTag (tag : String) : (ofTag tag).comment = none := by
  have hfold (parts : List (List Char)) (a : Annotations) :
      (parts.foldl addPart a).comment = a.comment := by
    induction parts generalizing a with
    | nil => rfl
    | cons part parts ih => rw [List.foldl_cons, ih, comment_addPart]
  exact hfold _ _

end TableMapper.Annotations

namespace TableMapper.Derive

namespace FieldSettings

/-- The annotations that a tag gives, and none without a tag. -/
def tagged (s : FieldSettings) : Annotations :=
  (s.tag.map Annotations.ofTag).getD {}

/-- What is said outside the tag, in the order in which the column is described. -/
def explicit (s : FieldSettings) : List Annotations.Setting :=
  (s.sqlType.map .sqlType).toList ++ (s.nullable.map .nullable).toList ++
    (s.default.map .default).toList ++ (if s.increment then [.increment] else []) ++
    (s.onUpdate.map .onUpdate).toList ++ (s.comment.map .comment).toList

/-- The tag is the first thing that is said of a column. -/
theorem chain_eq (s : FieldSettings) : s.chain = (s.tag.map .tag).toList ++ s.explicit := by
  simp [chain, explicit]

/-- What is said outside the tag is no tag. -/
theorem tag_not_mem_explicit (s : FieldSettings) (text : String) : .tag text ∉ s.explicit := by
  simp [explicit]

/-- What is said outside the tag is laid over what the tag says. -/
theorem foldl_set_explicit (s : FieldSettings) (a : Annotations) :
    s.explicit.foldl Annotations.set a =
      { sqlType := s.sqlType.or a.sqlType
        nullable := s.nullable.or a.nullable
        default := s.default.or a.default
        increment := s.increment || a.increment
        onUpdate := s.onUpdate.or a.onUpdate
        comment := s.comment.or a.comment } := by
  have htype (o : Option String) (a : Annotations) :
      (o.map .sqlType).toList.foldl Annotations.set a = { a with sqlType := o.or a.sqlType } := by
    cases o <;> rfl
  have hnullable (o : Option Bool) (a : Annotations) :
      (o.map .nullable).toList.foldl Annotations.set a =
        { a with nullable := o.or a.nullable } := by
    cases o <;> rfl
  have hdefault (o : Option String) (a : Annotations) :
      (o.map .default).toList.foldl Annotations.set a = { a with default := o.or a.default } := by
    cases o <;> rfl
  have hincrement (b : Bool) (a : Annotations) :
      (if b then [.increment] else []).foldl Annotations.set a =
        { a with increment := b || a.increment } := by
    cases b <;> rfl
  have hupdate (o : Option String) (a : Annotations) :
      (o.map .onUpdate).toList.foldl Annotations.set a =
        { a with onUpdate := o.or a.onUpdate } := by
    cases o <;> rfl
  have hcomment (o : Option String) (a : Annotations) :
      (o.map .comment).toList.foldl Annotations.set a = { a with comment := o.or a.comment } := by
    cases o <;> rfl
  simp only [explicit, List.foldl_append, htype, hnullable, hdefault, hincrement, hupdate,
    hcomment]

/-- What is said outside the tag wins, part by part. -/
theorem ofSettings_chain (s : FieldSettings) :
    Annotations.ofSettings s.chain =
      { sqlType := s.sqlType.or s.tagged.sqlType
        nullable := s.nullable.or s.tagged.nullable
        default := s.default.or s.tagged.default
        increment := s.increment || s.tagged.increment
        onUpdate := s.onUpdate.or s.tagged.onUpdate
        comment := s.comment } := by
  have hcomment : s.comment.or s.tagged.comment = s.comment := by
    rw [tagged]
    cases s.tag with
    | none => simp
    | some tag => simp [Annotations.comment_ofTag]
  have hfront : (s.tag.map Annotations.Setting.tag).toList.foldl Annotations.set {} = s.tagged := by
    rw [tagged]
    cases s.tag <;> rfl
  rw [Annotations.ofSettings, chain_eq, List.foldl_append, hfront, foldl_set_explicit, hcomment]

end FieldSettings

namespace FieldItem

/-- The key of an item. -/
def key : FieldItem → String
  | .column _ => "column"
  | .tag _ => "tag"
  | .sqlType _ => "sql_type"
  | .nullable b => if b then "nullable" else "not_null"
  | .default _ => "default"
  | .increment => "increment"
  | .onUpdate _ => "on_update"
  | .comment _ => "comment"
  | .embed => "embed"
  | .skip => "skip"

/-- The text of an item that is not its key alone. -/
def text? : FieldItem → Option String
  | .column text | .tag text | .sqlType text | .default text | .onUpdate text | .comment text =>
    some text
  | _ => none

/-- What an item is written with behind its key. -/
def textTokens (item : FieldItem) : List Token :=
  match item.text? with
  | some text => [.mark '=' false, .string text (stringText text)]
  | none => []

/-- What is written behind an item, up to a comma in front of more. -/
def behind (more : List Token) : List Token :=
  if more.isEmpty then [] else .mark ',' false :: more

/-- Items as they are written in an attribute. -/
def tokensAll : List FieldItem → List Token
  | [] => []
  | item :: items => .ident item.key :: (item.textTokens ++ behind (tokensAll items))

/-- The attribute in which items are written. -/
def written (items : List FieldItem) : OrmAttribute :=
  .list (tokensAll items)

/-- Behind the key of an item no longer path follows. -/
theorem pair_textTokens (item : FieldItem) (more : List Token) :
    Shape.pair ':' ':' (item.textTokens ++ behind more) = none := by
  have hbehind : Shape.pair ':' ':' (behind more) = none := by
    unfold behind
    split_ifs <;> rfl
  rw [textTokens]
  cases item.text? with
  | none => exact hbehind
  | some text => rfl

/-- An identifier with no path behind it is a key. -/
theorem readKey_ident {w : String} {ts : List Token} (h : Shape.pair ':' ':' ts = none) :
    readKey (.ident w :: ts) = .ok (some w, ts) := by
  have hnone : furtherSegments ts.length ts = .ok (0, ts) := by
    cases ts with
    | nil => rfl
    | cons t ts => rw [List.length_cons, furtherSegments, h]
  simp only [readKey, Shape.pair, wordAnd?, hnone]
  rfl

/-- What stands behind the key of an item is read up to what is written behind the item. -/
theorem read_key (item : FieldItem) (rest : List Token) :
    read (some item.key) (item.textTokens ++ rest) = .ok (item, rest) := by
  cases item with
  | nullable b => cases b <;> rfl
  | _ => rfl

/-- Items that are written with commas are read in their order. -/
theorem readItemsUpTo_tokensAll (items : List FieldItem) {n : Nat}
    (hn : (tokensAll items).length < n) : readItemsUpTo read n (tokensAll items) = .ok items := by
  induction items generalizing n with
  | nil =>
      obtain ⟨n, rfl⟩ := Nat.exists_eq_succ_of_ne_zero (Nat.ne_zero_of_lt hn)
      rfl
  | cons item items ih =>
      obtain ⟨n, rfl⟩ := Nat.exists_eq_succ_of_ne_zero (Nat.ne_zero_of_lt hn)
      rw [tokensAll, readItemsUpTo, if_neg (by simp), readKey_ident (pair_textTokens item _),
        ok_bind]
      dsimp only
      rw [read_key, ok_bind]
      cases items with
      | nil => rfl
      | cons next items =>
          have hbehind : behind (tokensAll (next :: items)) =
              .mark ',' false :: tokensAll (next :: items) := rfl
          -- The item and its comma take tokens of their own, so the number still suffices.
          have hlength : (tokensAll (next :: items)).length < n := by
            rw [tokensAll, hbehind] at hn
            simp only [List.length_cons, List.length_append] at hn
            omega
          rw [hbehind, List.isEmpty_cons, if_neg Bool.false_ne_true]
          dsimp only [Shape.mark]
          rw [if_pos rfl]
          dsimp only
          rw [ih hlength]
          rfl

/-- Items that are written are read, however they are spread over attributes. -/
theorem readAll_written (groups : List (List FieldItem)) :
    readAll (groups.map written) = .ok groups.flatten := by
  induction groups with
  | nil => rfl
  | cons items groups ih =>
      rw [readAll] at ih ⊢
      rw [List.map_cons, readAllItems, written, readItems,
        readItemsUpTo_tokensAll items (Nat.lt_succ_self _), ok_bind, ih]
      rfl

end FieldItem

namespace FieldSettings

variable {attributes attributes' : List OrmAttribute} {items items' : List FieldItem}

/-- Settings are those of the items, unless these contradict each other. -/
theorem read_eq (h : FieldItem.readAll attributes = .ok items) :
    read attributes = if (ofItems items).skip && (ofItems items).embed then
      .error .skippedAndEmbedded else .ok (ofItems items) := by
  rw [read, h]
  rfl

/-- Items that are read are accepted but for those that both leave the field out and take
it apart. -/
theorem read_eq_ok_iff (h : FieldItem.readAll attributes = .ok items) {s : FieldSettings} :
    read attributes = .ok s ↔ s = ofItems items ∧ ¬(.skip ∈ items ∧ .embed ∈ items) := by
  have hboth : ((ofItems items).skip && (ofItems items).embed) = true ↔
      .skip ∈ items ∧ .embed ∈ items := by
    rw [ofItems_eq, Bool.and_eq_true, decide_eq_true_iff, decide_eq_true_iff]
  rw [read_eq h]
  split_ifs with hif
  · simp [hboth.mp hif]
  · rw [← hboth]
    simp [hif, eq_comm]

/-- Attributes whose items say the same give the same settings. -/
theorem read_congr (h : FieldItem.readAll attributes = .ok items)
    (h' : FieldItem.readAll attributes' = .ok items') (hsame : SaySame items items') :
    read attributes = read attributes' := by
  rw [read_eq h, read_eq h', ofItems_eq_iff.mpr hsame]

end FieldSettings

/-- The first field is expanded, and then the others. -/
theorem expandFields_cons (f : DeclaredField) (fs : List DeclaredField) :
    expandFields (f :: fs) = ((FieldSettings.read f.attributes).map (FieldCode.of f)).bind
      fun code => (expandFields fs).map (code :: ·) := by
  rw [expandFields]
  cases FieldSettings.read f.attributes with
  | error e => rfl
  | ok s => rfl

/-- Where two fields get the same code or are refused alike, so do all fields with the one in
the place of the other. -/
theorem expandFields_replace (before after : List DeclaredField) {f g : DeclaredField}
    (h : (FieldSettings.read f.attributes).map (FieldCode.of f) =
      (FieldSettings.read g.attributes).map (FieldCode.of g)) :
    expandFields (before ++ f :: after) = expandFields (before ++ g :: after) := by
  induction before with
  | nil => rw [List.nil_append, List.nil_append, expandFields_cons, expandFields_cons, h]
  | cons first before ih => rw [List.cons_append, List.cons_append, expandFields_cons, ih,
      ← expandFields_cons]

/-- A declaration is written out as its fields' code says. -/
theorem text_expand_congr (d : Declaration) {fields fields' : List DeclaredField}
    (h : expandFields fields = expandFields fields') :
    ({ d with body := .named fields } : Declaration).expand.map Expansion.text =
      ({ d with body := .named fields' } : Declaration).expand.map Expansion.text := by
  simp only [Declaration.expand, h]
  cases TypeSettings.read d.attributes with
  | error e => rfl
  | ok settings =>
      cases expandFields fields' with
      | error e => rfl
      | ok codes => rfl

/-- **Attributes in any order.**  Two fields of one name and one type get the same code, and
are refused alike, if the items of their attributes say the same; so does every declaration
that has the one in the place of the other.  They are accepted unless they are both left out
and taken apart.  What is said of a column begins with the last tag, and goes on without
one: what is said outside the tag wins. -/
theorem fieldCode_in_any_order {f g : DeclaredField} {items items' : List FieldItem}
    (hname : f.name = g.name) (htype : f.type = g.type)
    (hitems : FieldItem.readAll f.attributes = .ok items)
    (hitems' : FieldItem.readAll g.attributes = .ok items') (hsame : SaySame items items') :
    (FieldSettings.read f.attributes).map (FieldCode.of f) =
        (FieldSettings.read g.attributes).map (FieldCode.of g) ∧
      (∀ (d : Declaration) (before after : List DeclaredField),
        ({ d with body := .named (before ++ f :: after) } : Declaration).expand.map Expansion.text =
          ({ d with body := .named (before ++ g :: after) } : Declaration).expand.map
            Expansion.text) ∧
      ((∃ code, (FieldSettings.read f.attributes).map (FieldCode.of f) = .ok code) ↔
        ¬(.skip ∈ items ∧ .embed ∈ items)) ∧
      ∀ code type name settings,
        (FieldSettings.read f.attributes).map (FieldCode.of f) = .ok code →
        code.member = .column type name settings →
        (∃ others, settings = ((lastGiven FieldItem.tag? items).map .tag).toList ++ others ∧
          ∀ text, .tag text ∉ others) ∧
        let tagged := ((lastGiven FieldItem.tag? items).map Annotations.ofTag).getD {}
        Annotations.ofSettings settings =
          { sqlType := (lastGiven FieldItem.sqlType? items).or tagged.sqlType
            nullable := (lastGiven FieldItem.nullable? items).or tagged.nullable
            default := (lastGiven FieldItem.default? items).or tagged.default
            increment := decide (.increment ∈ items) || tagged.increment
            onUpdate := (lastGiven FieldItem.onUpdate? items).or tagged.onUpdate
            comment := lastGiven FieldItem.comment? items } := by
  have hcode : (FieldSettings.read f.attributes).map (FieldCode.of f) =
      (FieldSettings.read g.attributes).map (FieldCode.of g) := by
    have hof : FieldCode.of f = FieldCode.of g := by
      funext s
      rw [FieldCode.of, FieldCode.of, columnName, columnName, hname, htype]
    rw [FieldSettings.read_congr hitems hitems' hsame, hof]
  refine ⟨hcode, ?_, ?_, ?_⟩
  · intro d before after
    exact text_expand_congr d (expandFields_replace before after hcode)
  · constructor
    · rintro ⟨code, h⟩
      obtain ⟨s, hs, _⟩ := map_eq_ok.mp h
      exact ((FieldSettings.read_eq_ok_iff hitems).mp hs).2
    · intro h
      exact ⟨_, map_eq_ok.mpr ⟨_, (FieldSettings.read_eq_ok_iff hitems).mpr ⟨rfl, h⟩, rfl⟩⟩
  · intro code type name settings h hmember
    obtain ⟨s, hs, rfl⟩ := map_eq_ok.mp h
    obtain ⟨rfl, _⟩ := (FieldSettings.read_eq_ok_iff hitems).mp hs
    have hsettings : settings = (FieldSettings.ofItems items).chain := by
      unfold FieldCode.of at hmember
      split_ifs at hmember
      cases hmember
      rfl
    subst hsettings
    refine ⟨⟨(FieldSettings.ofItems items).explicit, ?_, ?_⟩, ?_⟩
    · rw [FieldSettings.chain_eq, FieldSettings.ofItems_eq]
    · exact FieldSettings.tag_not_mem_explicit _
    · rw [FieldSettings.ofSettings_chain, FieldSettings.tagged, FieldSettings.ofItems_eq]

/-- What is said of a number, in one attribute. -/
def numberItems : List FieldItem :=
  [.sqlType "int", .tag "type:int null:true", .nullable false, .increment,
    .sqlType "bigint unsigned"]

/-- The same in three attributes, the tag last. -/
def numberGroups : List (List FieldItem) :=
  [[.increment, .sqlType "bigint unsigned"], [.increment, .nullable true],
    [.nullable false, .tag "type:int null:true"]]

/-- The field of a number with some attributes. -/
def numberField (attributes : List OrmAttribute) : DeclaredField :=
  ⟨attributes, "no", [.ident "u64"]⟩

/-- Both ways to write the attributes of a number make it one that counts up and is not
null. -/
theorem fieldCode_in_any_order_number :
    let f := numberField [FieldItem.written numberItems]
    let g := numberField (numberGroups.map FieldItem.written)
    SaySame numberItems numberGroups.flatten ∧
      (FieldSettings.read f.attributes).map (FieldCode.of f) =
        (FieldSettings.read g.attributes).map (FieldCode.of g) ∧
      ∃ code settings, (FieldSettings.read f.attributes).map (FieldCode.of f) = .ok code ∧
        code.member = .column [.ident "u64"] "no" settings ∧
        Annotations.ofSettings settings =
          { sqlType := some "bigint unsigned", nullable := some false, increment := true } := by
  intro f g
  have hsame : SaySame numberItems numberGroups.flatten :=
    ⟨rfl, rfl, rfl, rfl, rfl, rfl, rfl, by decide, by decide, by decide⟩
  have hitems : FieldItem.readAll f.attributes = .ok numberItems :=
    FieldItem.readAll_written [numberItems]
  have hgroups : FieldItem.readAll g.attributes = .ok numberGroups.flatten :=
    FieldItem.readAll_written numberGroups
  obtain ⟨hcode, _, haccepted, hmember⟩ :=
    fieldCode_in_any_order (f := f) (g := g) rfl rfl hitems hgroups hsame
  obtain ⟨_, hok⟩ := haccepted.mpr (by decide)
  obtain ⟨s, hs, rfl⟩ := map_eq_ok.mp hok
  obtain ⟨rfl, _⟩ := (FieldSettings.read_eq_ok_iff hitems).mp hs
  have hcolumn : (FieldCode.of f (.ofItems numberItems)).member =
      .column [.ident "u64"] "no" (FieldSettings.ofItems numberItems).chain := rfl
  refine ⟨hsame, hcode, _, _, hok, hcolumn, ?_⟩
  rw [(hmember _ _ _ _ hok hcolumn).2]
  decide

end TableMapper.Derive
