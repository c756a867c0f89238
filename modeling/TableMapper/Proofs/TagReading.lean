import TableMapper.Proofs.BlankText
import TableMapper.Proofs.FieldSettings

/-!
# Reading tags

A tag says several things about a column in one text: parts with spaces between them, each
a key and a value around its first colon.  Everything else in it is passed over.  What a
tag says of one key is what its last part with that key says, so annotations can be written
in a tag in any order and with anything in between, and are read back.

* `Tag.Item`, `Tag.Lists` — what one part of a tag says, and the tags that list items;
* `Lists.foldl_eq`, `foldl_say_eq` — a tag says what the last of its items says, key by key;
* `Annotations.IsTaggable` — the annotations that can be written in a tag;
* `tag_roundTrip` — they are read back from every tag that lists them.
-/

namespace TableMapper

namespace Tag

/-- What one part of a tag says. -/
inductive Item
  | sqlType (text : String)
  | nullable (b : Bool)
  | default (text : String)
  | increment (b : Bool)
  | onUpdate (text : String)
  deriving DecidableEq, Repr

/-- The keys of a tag whose values are texts. -/
def textKeys : List String :=
  ["type", "default", "onupdate"]

/-- The keys of a tag. -/
def keys : List String :=
  "null" :: "increment" :: textKeys

namespace Item

/-- The key of an item. -/
def key : Item → String
  | sqlType _ => "type"
  | nullable _ => "null"
  | default _ => "default"
  | increment _ => "increment"
  | onUpdate _ => "onupdate"

/-- The values that an item can be written with: its text, or one of two for a flag. -/
def values : Item → List String
  | sqlType text | default text | onUpdate text => [text]
  | nullable b | increment b => if b then ["true", "1"] else ["false", "0"]

/-- The type that an item gives, if it gives one. -/
@[simp] def sqlType? : Item → Option String
  | sqlType text => some text
  | _ => none

/-- What an item says about nulls, if it says something. -/
@[simp] def nullable? : Item → Option Bool
  | nullable b => some b
  | _ => none

/-- The default that an item gives, if it gives one. -/
@[simp] def default? : Item → Option String
  | default text => some text
  | _ => none

/-- Whether an item makes the column count up, if it says something about that. -/
@[simp] def increment? : Item → Option Bool
  | increment b => some b
  | _ => none

/-- The clause for updates that an item gives, if it gives one. -/
@[simp] def onUpdate? : Item → Option String
  | onUpdate text => some text
  | _ => none

end Item

/-- A text that a tag keeps whole: not empty, without spaces, and without a tab at either
end. -/
structure IsText (text : String) : Prop where
  nonempty : text ≠ ""
  spaceless : ' ' ∉ text.toList
  head : text.toList.head? ≠ some '\t'
  last : text.toList.getLast? ≠ some '\t'

/-- A text with perhaps tabs around it. -/
def Tabbed (text cs : List Char) : Prop :=
  ∃ b b', (∀ c ∈ b, c = '\t') ∧ (∀ c ∈ b', c = '\t') ∧ cs = b ++ (text ++ b')

/-- A part that says nothing: it has no colon, or an unknown key, or nothing where there
should be a text. -/
inductive SaysNothing : List Char → Prop
  | bare {part : List Char} (h : ':' ∉ part) : SaysNothing part
  | unknown {key : List Char} (hcolon : ':' ∉ key)
      (hkey : ∀ k ∈ keys, ¬Tabbed k.toList key) (value : List Char) :
      SaysNothing (key ++ ':' :: value)
  | empty {k : String} {key value : List Char} (hk : k ∈ textKeys)
      (hkey : Tabbed k.toList key) (hvalue : Tabbed [] value) : SaysNothing (key ++ ':' :: value)

/-- A part that says an item. -/
inductive Says : Item → List Char → Prop
  | part {item : Item} {text : String} {key value : List Char} (htext : text ∈ item.values)
      (hwhole : IsText text) (hkey : Tabbed item.key.toList key)
      (hvalue : Tabbed text.toList value) : Says item (key ++ ':' :: value)

/-- A tag that lists these items, in this order. There is at least one space between any two
parts, and any number of parts say nothing. -/
inductive Lists : List Item → List Char → Prop
  | nil : Lists [] []
  | space {items : List Item} {rest : List Char} (tail : Lists items rest) :
      Lists items (' ' :: rest)
  | nothing {items : List Item} {part rest : List Char} (hspace : ' ' ∉ part)
      (h : SaysNothing part) (hrest : ∀ c ∈ rest.head?, c = ' ') (tail : Lists items rest) :
      Lists items (part ++ rest)
  | item {item : Item} {items : List Item} {part rest : List Char} (h : Says item part)
      (hrest : ∀ c ∈ rest.head?, c = ' ') (tail : Lists items rest) :
      Lists (item :: items) (part ++ rest)

variable {text : String} {cs key value part rest : List Char}

/-- Spaces and tabs are what is trimmed. -/
theorem isSpaceOrTab_iff {c : Char} : Annotations.isSpaceOrTab c = true ↔ c = ' ' ∨ c = '\t' := by
  simp [Annotations.isSpaceOrTab]

/-- Tabs are trimmed. -/
theorem isSpaceOrTab_of_tabs (h : ∀ c ∈ cs, c = '\t') :
    ∀ c ∈ cs, Annotations.isSpaceOrTab c = true :=
  fun c hc => isSpaceOrTab_iff.mpr (.inr (h c hc))

/-- Tabs around a text bring in no other character. -/
theorem Tabbed.not_mem {c : Char} {text : List Char} (h : Tabbed text cs) (htab : c ≠ '\t')
    (hc : c ∉ text) : c ∉ cs := by
  obtain ⟨b, b', hb, hb', rfl⟩ := h
  simp only [List.mem_append, not_or]
  exact ⟨fun hmem => htab (hb c hmem), hc, fun hmem => htab (hb' c hmem)⟩

/-- A text that a tag keeps whole comes out of its tabs. -/
theorem IsText.strip (h : IsText text) (hcs : Tabbed text.toList cs) :
    Text.stripBoth Annotations.isSpaceOrTab cs = text.toList := by
  obtain ⟨b, b', hb, hb', rfl⟩ := hcs
  have hinner {c : Char} (hmem : c ∈ text.toList) (htab : c ≠ '\t') :
      Annotations.isSpaceOrTab c = false :=
    Bool.eq_false_iff.mpr fun hc => (isSpaceOrTab_iff.mp hc).elim
      (fun heq => h.spaceless (heq ▸ hmem)) htab
  refine Text.stripBoth_of_outer (isSpaceOrTab_of_tabs hb) ?_ ?_ (isSpaceOrTab_of_tabs hb')
  · intro c hc
    exact hinner (List.mem_of_mem_head? hc) fun heq => h.head (heq ▸ hc)
  · intro c hc
    exact hinner (List.mem_of_mem_getLast? hc) fun heq => h.last (heq ▸ hc)

/-- Tabs alone are nothing. -/
theorem strip_tabs (hcs : Tabbed [] cs) : Text.stripBoth Annotations.isSpaceOrTab cs = [] := by
  obtain ⟨b, b', hb, hb', rfl⟩ := hcs
  exact Text.stripBoth_of_outer (isSpaceOrTab_of_tabs hb) (by simp) (by simp)
    (isSpaceOrTab_of_tabs hb')

/-- Without spaces it is only tabs that are left out. -/
theorem tabbed_strip (hspace : ' ' ∉ cs) :
    Tabbed (Text.stripBoth Annotations.isSpaceOrTab cs) cs := by
  obtain ⟨_, _, b, b', hb, hb', hcs⟩ := Text.exists_stripBoth Annotations.isSpaceOrTab cs
  have htabs {l : List Char} (hl : ∀ c ∈ l, Annotations.isSpaceOrTab c = true)
      (hsub : ∀ c ∈ l, c ∈ cs) : ∀ c ∈ l, c = '\t' := by
    intro c hc
    exact (isSpaceOrTab_iff.mp (hl c hc)).resolve_left fun heq => hspace (heq ▸ hsub c hc)
  refine ⟨b, b', htabs hb ?_, htabs hb' ?_, hcs⟩
  · intro c hc
    exact hcs ▸ List.mem_append_left _ hc
  · intro c hc
    exact hcs ▸ List.mem_append_right _ (List.mem_append_right _ hc)

/-- What is left without spaces and tabs is a text that a tag keeps whole. -/
theorem isText_strip (hspace : ' ' ∉ cs)
    (hne : String.ofList (Text.stripBoth Annotations.isSpaceOrTab cs) ≠ "") :
    IsText (.ofList (Text.stripBoth Annotations.isSpaceOrTab cs)) := by
  obtain ⟨hhead, hlast, b, b', _, _, hsplit⟩ := Text.exists_stripBoth Annotations.isSpaceOrTab cs
  have htab : Annotations.isSpaceOrTab '\t' = true := by decide
  refine ⟨hne, ?_, ?_, ?_⟩
  · rw [String.toList_ofList]
    intro hmem
    exact hspace (hsplit ▸ List.mem_append_right _ (List.mem_append_left _ hmem))
  · rw [String.toList_ofList]
    intro heq
    exact Bool.false_ne_true ((hhead _ heq).symm.trans htab)
  · rw [String.toList_ofList]
    intro heq
    exact Bool.false_ne_true ((hlast _ heq).symm.trans htab)

/-- The keys are texts that a tag keeps whole, and have no colon. -/
theorem plain_keys : ∀ k ∈ keys, (k ≠ "" ∧ ' ' ∉ k.toList) ∧
    (k.toList.head? ≠ some '\t' ∧ k.toList.getLast? ≠ some '\t') ∧ ':' ∉ k.toList := by
  decide

/-- A key is a text that a tag keeps whole. -/
theorem isText_of_mem_keys {k : String} (hk : k ∈ keys) : IsText k := by
  obtain ⟨⟨hne, hspace⟩, ⟨hhead, hlast⟩, _⟩ := plain_keys k hk
  exact ⟨hne, hspace, hhead, hlast⟩

/-- Every item has one of the keys. -/
theorem Item.key_mem_keys (item : Item) : item.key ∈ keys := by
  cases item <;> simp [key, keys, textKeys]

/-- A key is read with its value, without the tabs around them. -/
theorem keyValue?_eq (hcolon : ':' ∉ key) (value : List Char) :
    Annotations.keyValue? (key ++ ':' :: value) =
      some (.ofList (Text.stripBoth Annotations.isSpaceOrTab key),
        .ofList (Text.stripBoth Annotations.isSpaceOrTab value)) := by
  have hpart : (key ++ ':' :: value).contains ':' = true := by simp
  have hfront : ∀ c ∈ key, (c != ':') = true :=
    fun c hc => bne_iff_ne.mpr fun heq => hcolon (heq ▸ hc)
  have hkey : (key ++ ':' :: value).takeWhile (· != ':') = key := by
    rw [List.takeWhile_append_of_pos hfront, List.takeWhile_cons_of_neg (by simp),
      List.append_nil]
  have hvalue : (key ++ ':' :: value).drop (key.length + 1) = value := by
    rw [← List.drop_drop, List.drop_left, List.drop_one, List.tail_cons]
  rw [Annotations.keyValue?, if_pos hpart]
  dsimp only
  rw [hkey, hvalue]

/-- One of the keys, with tabs around it, is read as this key. -/
theorem keyValue?_of_tabbed {k : String} (hk : k ∈ keys) (hkey : Tabbed k.toList key)
    (value : List Char) :
    Annotations.keyValue? (key ++ ':' :: value) =
      some (k, .ofList (Text.stripBoth Annotations.isSpaceOrTab value)) := by
  have hcolon := hkey.not_mem (by decide) (plain_keys k hk).2.2
  rw [keyValue?_eq hcolon, (isText_of_mem_keys hk).strip hkey, String.ofList_toList]

/-- A part that says nothing changes nothing. -/
theorem SaysNothing.addPart_eq (h : SaysNothing part) (hspace : ' ' ∉ part) (a : Annotations) :
    a.addPart part = a := by
  cases h with
  | bare h =>
      have hnone : Annotations.keyValue? part = none := by
        rw [Annotations.keyValue?, if_neg (by simpa using h)]
      rw [Annotations.addPart, hnone]
  | @unknown key hcolon hkey value =>
      have hother {k : String} (hk : k ∈ keys) :
          String.ofList (Text.stripBoth Annotations.isSpaceOrTab key) ≠ k := by
        rintro rfl
        refine hkey _ hk ?_
        rw [String.toList_ofList]
        exact tabbed_strip fun hmem => hspace (List.mem_append_left _ hmem)
      rw [Annotations.addPart, keyValue?_eq hcolon]
      dsimp only
      rw [if_neg (hother (by decide)), if_neg (hother (by decide)), if_neg (hother (by decide)),
        if_neg (hother (by decide)), if_neg (hother (by decide))]
  | @empty k key value hk hkey hvalue =>
      have hmem : k ∈ keys := List.mem_cons_of_mem _ (List.mem_cons_of_mem _ hk)
      rw [Annotations.addPart, keyValue?_of_tabbed hmem hkey, strip_tabs hvalue]
      simp only [textKeys, List.mem_cons, List.not_mem_nil, or_false] at hk
      rcases hk with rfl | rfl | rfl <;> rfl

/-- Each way to write a flag is read as the flag. -/
theorem flag?_of_mem {b : Bool} (h : text ∈ if b then ["true", "1"] else ["false", "0"]) :
    Annotations.flag? text = some b := by
  cases b with
  | true =>
      rcases List.mem_pair.mp h with rfl | rfl <;> rfl
  | false =>
      rcases List.mem_pair.mp h with rfl | rfl <;> rfl

/-- The annotations after an item. -/
def say (a : Annotations) : Item → Annotations
  | .sqlType text => { a with sqlType := some text }
  | .nullable b => { a with nullable := some b }
  | .default text => { a with default := some text }
  | .increment b => { a with increment := b }
  | .onUpdate text => { a with onUpdate := some text }

/-- A part that says an item is read as that item. -/
theorem Says.addPart_eq {item : Item} (h : Says item part) (a : Annotations) :
    a.addPart part = say a item := by
  obtain @⟨text, key, value, htext, hwhole, hkey, hvalue⟩ := h
  have hempty : ¬text.isEmpty = true := by simpa using hwhole.nonempty
  rw [Annotations.addPart, keyValue?_of_tabbed item.key_mem_keys hkey, hwhole.strip hvalue,
    String.ofList_toList]
  cases item with
  | sqlType written =>
      obtain rfl := List.mem_singleton.mp htext
      exact if_neg hempty
  | nullable b => simp [Item.key, flag?_of_mem htext, say]
  | default written =>
      obtain rfl := List.mem_singleton.mp htext
      exact if_neg hempty
  | increment b => simp [Item.key, flag?_of_mem htext, say]
  | onUpdate written =>
      obtain rfl := List.mem_singleton.mp htext
      exact if_neg hempty

/-- A part that says an item has no space. -/
theorem Says.spaceless {item : Item} (h : Says item part) : ' ' ∉ part := by
  obtain @⟨text, key, value, htext, hwhole, hkey, hvalue⟩ := h
  have hkey := hkey.not_mem (by decide) (isText_of_mem_keys item.key_mem_keys).spaceless
  have hvalue := hvalue.not_mem (by decide) hwhole.spaceless
  simp [hkey, hvalue]

/-- The empty part says nothing. -/
theorem addPart_nil (a : Annotations) : a.addPart [] = a := rfl

/-- The parts of a tag are read one by one, whatever the number of spaces between them. -/
theorem foldl_cut_append (hspace : ' ' ∉ part) (hrest : ∀ c ∈ rest.head?, c = ' ')
    (a : Annotations) :
    (Text.cut ' ' (part ++ rest)).foldl Annotations.addPart a =
      (Text.cut ' ' rest).foldl Annotations.addPart (a.addPart part) := by
  cases rest with
  | nil =>
      rw [List.append_nil, Text.cut_of_not_mem hspace, Text.cut_of_not_mem List.not_mem_nil]
      simp only [List.foldl_cons, List.foldl_nil, addPart_nil]
  | cons c rest =>
      obtain rfl : c = ' ' := hrest c rfl
      rw [Text.cut_append hspace, Text.cut_self, List.foldl_cons, List.foldl_cons, addPart_nil]

/-- A tag is read as the items that it lists. -/
theorem Lists.foldl_eq {items : List Item} (h : Lists items cs) (a : Annotations) :
    (Text.cut ' ' cs).foldl Annotations.addPart a = items.foldl say a := by
  -- Each part changes what the rest of the tag is added to.
  induction h generalizing a with
  | nil => rfl
  | space _ ih => rw [Text.cut_self, List.foldl_cons, addPart_nil, ih]
  | nothing hspace h hrest _ ih => rw [foldl_cut_append hspace hrest, h.addPart_eq hspace, ih]
  | item h hrest _ ih =>
      rw [foldl_cut_append h.spaceless hrest, h.addPart_eq, ih, List.foldl_cons]

/-- What items say together: key by key what the last of them says. -/
theorem foldl_say (items : List Item) :
    items.foldl say {} =
      { sqlType := (items.filterMap Item.sqlType?).getLast?
        nullable := (items.filterMap Item.nullable?).getLast?
        default := (items.filterMap Item.default?).getLast?
        increment := (items.filterMap Item.increment?).getLast?.getD false
        onUpdate := (items.filterMap Item.onUpdate?).getLast?
        comment := none } := by
  -- From the end of the items, since each key is decided by what is said of it last.
  induction items using List.reverseRecOn with
  | nil => rfl
  | append_singleton items item ih =>
      rw [List.foldl_append, ih, List.foldl_cons, List.foldl_nil]
      cases item <;> simp [say, List.filterMap_append]

/-- What an item says is so in the annotations. -/
def Item.HoldsIn (a : Annotations) : Item → Prop
  | .sqlType text => a.sqlType = some text
  | .nullable b => a.nullable = some b
  | .default text => a.default = some text
  | .increment b => a.increment = b
  | .onUpdate text => a.onUpdate = some text

/-- Items say what annotations say, in any order and perhaps more than once. They may only
leave out that the column does not count up. -/
structure Agree (items : List Item) (a : Annotations) : Prop where
  holds : ∀ item ∈ items, item.HoldsIn a
  whole : ∀ item : Item, item.HoldsIn a → item = .increment false ∨ item ∈ items

namespace Agree

variable {items : List Item} {a : Annotations}

/-- The last value that the items give is the one of the annotations. -/
theorem getLast?_eq {α : Type} {value? : Item → Option α} {o : Option α} (h : Agree items a)
    (make : α → Item) (hvalue : ∀ item v, value? item = some v ↔ item = make v)
    (hholds : ∀ v, (make v).HoldsIn a ↔ o = some v) (hne : ∀ v, make v ≠ .increment false) :
    (items.filterMap value?).getLast? = o := by
  have hgiven {v : α} : v ∈ items.filterMap value? ↔ o = some v := by
    rw [List.mem_filterMap, ← hholds]
    constructor
    · rintro ⟨item, hmem, hitem⟩
      rw [← (hvalue item v).mp hitem]
      exact h.holds item hmem
    · intro hv
      exact ⟨make v, (h.whole _ hv).resolve_left (hne v), (hvalue _ v).mpr rfl⟩
  cases hlast : (items.filterMap value?).getLast? with
  | some v => exact (hgiven.mp (List.mem_of_getLast? hlast)).symm
  | none =>
      rw [List.getLast?_eq_none_iff.mp hlast] at hgiven
      cases o with
      | none => rfl
      | some v => exact absurd (hgiven.mpr rfl) List.not_mem_nil

/-- The column counts up exactly if the items last say so. -/
theorem increment_eq (h : Agree items a) :
    (items.filterMap Item.increment?).getLast?.getD false = a.increment := by
  have hgiven {b : Bool} (hb : b ∈ items.filterMap Item.increment?) : a.increment = b := by
    obtain ⟨item, hmem, hitem⟩ := List.mem_filterMap.mp hb
    obtain rfl : item = .increment b := by cases item <;> simp_all
    exact h.holds _ hmem
  cases hlast : (items.filterMap Item.increment?).getLast? with
  | some b => exact (hgiven (List.mem_of_getLast? hlast)).symm
  | none =>
      cases hcounts : a.increment with
      | false => rfl
      | true =>
          have hmem : .increment true ∈ items :=
            (h.whole (.increment true) hcounts).resolve_left nofun
          have htrue : true ∈ items.filterMap Item.increment? :=
            List.mem_filterMap.mpr ⟨_, hmem, rfl⟩
          rw [List.getLast?_eq_none_iff.mp hlast] at htrue
          exact absurd htrue List.not_mem_nil

/-- Items say together what the annotations say that they agree with. -/
theorem foldl_say_eq (h : Agree items a) (hcomment : a.comment = none) :
    items.foldl say {} = a := by
  have htype : (items.filterMap Item.sqlType?).getLast? = a.sqlType :=
    h.getLast?_eq .sqlType (fun item v => by cases item <;> simp) (fun _ => .rfl) nofun
  have hnullable : (items.filterMap Item.nullable?).getLast? = a.nullable :=
    h.getLast?_eq .nullable (fun item v => by cases item <;> simp) (fun _ => .rfl) nofun
  have hdefault : (items.filterMap Item.default?).getLast? = a.default :=
    h.getLast?_eq .default (fun item v => by cases item <;> simp) (fun _ => .rfl) nofun
  have hupdate : (items.filterMap Item.onUpdate?).getLast? = a.onUpdate :=
    h.getLast?_eq .onUpdate (fun item v => by cases item <;> simp) (fun _ => .rfl) nofun
  rw [foldl_say, htype, hnullable, hdefault, h.increment_eq, hupdate, ← hcomment]

end Agree

/-- The items that annotations are written in. -/
def itemsOf (a : Annotations) : List Item :=
  (a.sqlType.map .sqlType).toList ++ (a.nullable.map .nullable).toList ++
    (a.default.map .default).toList ++ (a.onUpdate.map .onUpdate).toList ++
    [.increment a.increment]

/-- Annotations are written in the items that hold in them. -/
theorem mem_itemsOf_iff {a : Annotations} {item : Item} :
    item ∈ itemsOf a ↔ item.HoldsIn a := by
  cases item <;> simp [itemsOf, Item.HoldsIn, eq_comm]

/-- So these items agree with the annotations. -/
theorem agree_itemsOf (a : Annotations) : Agree (itemsOf a) a :=
  ⟨fun _ => mem_itemsOf_iff.mp, fun _ h => .inr (mem_itemsOf_iff.mpr h)⟩

/-- Items that have values are listed by a tag. -/
theorem exists_lists {items : List Item} (h : ∀ item ∈ items, ∃ text ∈ item.values, IsText text) :
    ∃ cs, Lists items cs := by
  induction items with
  | nil => exact ⟨[], .nil⟩
  | cons item items ih =>
      obtain ⟨⟨text, htext, hwhole⟩, hitems⟩ := List.forall_mem_cons.mp h
      obtain ⟨cs, hcs⟩ := ih hitems
      have hbare (cs : List Char) : Tabbed cs cs := ⟨[], [], nofun, nofun, by simp⟩
      have hpart : Says item (item.key.toList ++ ':' :: text.toList) :=
        .part htext hwhole (hbare _) (hbare _)
      have hspace : ∀ c ∈ (' ' :: cs).head?, c = ' ' := by simp
      exact ⟨_, .item hpart hspace (.space hcs)⟩

end Tag

namespace Annotations

/-- Annotations that can be written in a tag: without a comment, and with texts that a tag
keeps whole. -/
structure IsTaggable (a : Annotations) : Prop where
  comment : a.comment = none
  sqlType : ∀ text, a.sqlType = some text → Tag.IsText text
  default : ∀ text, a.default = some text → Tag.IsText text
  onUpdate : ∀ text, a.onUpdate = some text → Tag.IsText text

/-- Annotations that can be written are written by some tag. -/
theorem IsTaggable.exists_lists {a : Annotations} (h : a.IsTaggable) :
    ∃ cs, Tag.Lists (Tag.itemsOf a) cs := by
  have hflag (b : Bool) :
      ∃ text ∈ (if b then ["true", "1"] else ["false", "0"]), Tag.IsText text := by
    cases b with
    | true => exact ⟨"true", by decide, by decide, by decide, by decide, by decide⟩
    | false => exact ⟨"false", by decide, by decide, by decide, by decide, by decide⟩
  refine Tag.exists_lists fun item hitem => ?_
  have hholds := Tag.mem_itemsOf_iff.mp hitem
  cases item with
  | sqlType text => exact ⟨text, List.mem_singleton_self text, h.sqlType text hholds⟩
  | nullable b => exact hflag b
  | default text => exact ⟨text, List.mem_singleton_self text, h.default text hholds⟩
  | increment b => exact hflag b
  | onUpdate text => exact ⟨text, List.mem_singleton_self text, h.onUpdate text hholds⟩

/-- A value that is not empty is a text that a tag keeps whole. -/
theorem isText_of_keyValue? {part : List Char} {key value : String} (hspace : ' ' ∉ part)
    (h : keyValue? part = some (key, value)) (hne : ¬value.isEmpty = true) :
    Tag.IsText value := by
  rw [keyValue?] at h
  split_ifs at h with hcolon
  cases h
  exact Tag.isText_strip (fun hmem => hspace (List.mem_of_mem_drop hmem)) (by simpa using hne)

/-- Reading a part keeps annotations such that they can be written. -/
theorem IsTaggable.addPart {a : Annotations} {part : List Char} (h : a.IsTaggable)
    (hspace : ' ' ∉ part) : (a.addPart part).IsTaggable := by
  unfold Annotations.addPart
  cases hpart : keyValue? part with
  | none => exact h
  | some kv =>
      obtain ⟨key, value⟩ := kv
      have hvalue (hne : ¬value.isEmpty = true) :
          ∀ text, some value = some text → Tag.IsText text := by
        rintro text ⟨⟩
        exact isText_of_keyValue? hspace hpart hne
      dsimp only
      split_ifs with htype hempty hnull hdefault hempty hincrement hupdate hempty
      · exact h
      · exact { h with sqlType := hvalue hempty }
      · exact ⟨h.comment, h.sqlType, h.default, h.onUpdate⟩
      · exact h
      · exact { h with default := hvalue hempty }
      · exact ⟨h.comment, h.sqlType, h.default, h.onUpdate⟩
      · exact h
      · exact { h with onUpdate := hvalue hempty }
      · exact h

/-- A tag gives nothing that cannot be written in one. -/
theorem isTaggable_ofTag (tag : String) : (ofTag tag).IsTaggable := by
  have hfold (parts : List (List Char)) (hparts : ∀ part ∈ parts, ' ' ∉ part) (a : Annotations)
      (h : a.IsTaggable) : (parts.foldl addPart a).IsTaggable := by
    induction parts generalizing a with
    | nil => exact h
    | cons part parts ih =>
        obtain ⟨hpart, hparts⟩ := List.forall_mem_cons.mp hparts
        exact ih hparts _ (h.addPart hpart)
  exact hfold _ (fun part => Text.not_mem_of_mem_cut) _ ⟨rfl, nofun, nofun, nofun⟩

end Annotations

/-- **Tags are read back.**  A tag that lists items says, key by key, what the last of them
says, whatever stands between them.  So annotations are read back from every tag whose
items agree with them, in any order and however often; and there is a tag for exactly those
that have no comment and only texts that a tag keeps whole. -/
theorem tag_roundTrip :
    (∀ {items : List Tag.Item} {tag : String}, Tag.Lists items tag.toList →
      Annotations.ofTag tag =
        { sqlType := (items.filterMap Tag.Item.sqlType?).getLast?
          nullable := (items.filterMap Tag.Item.nullable?).getLast?
          default := (items.filterMap Tag.Item.default?).getLast?
          increment := (items.filterMap Tag.Item.increment?).getLast?.getD false
          onUpdate := (items.filterMap Tag.Item.onUpdate?).getLast?
          comment := none }) ∧
    (∀ {a : Annotations} {items : List Tag.Item} {tag : String}, a.comment = none →
      Tag.Agree items a → Tag.Lists items tag.toList → Annotations.ofTag tag = a) ∧
    ∀ a : Annotations, (∃ tag, Annotations.ofTag tag = a) ↔ a.IsTaggable := by
  have hread {items : List Tag.Item} {tag : String} (h : Tag.Lists items tag.toList) :
      Annotations.ofTag tag = items.foldl Tag.say {} := h.foldl_eq {}
  refine ⟨?_, ?_, ?_⟩
  · intro items tag h
    rw [hread h, Tag.foldl_say]
  · intro a items tag hcomment hagree h
    rw [hread h, hagree.foldl_say_eq hcomment]
  · intro a
    constructor
    · rintro ⟨tag, rfl⟩
      exact Annotations.isTaggable_ofTag tag
    · intro h
      obtain ⟨cs, hcs⟩ := h.exists_lists
      rw [← String.toList_ofList (l := cs)] at hcs
      exact ⟨.ofList cs, by rw [hread hcs, (Tag.agree_itemsOf a).foldl_say_eq h.comment]⟩

/-- What is said of a colour. -/
def colourAnnotations : Annotations where
  sqlType := some "varchar(20)"
  nullable := some true
  default := some "red:light"

/-- The same in a tag, with parts that say nothing. -/
def colourTag : String :=
  " null:1 optional  default:red:light type: hue:red type:varchar(20)"

/-- Its parts are read past an unknown key and a key without a value. -/
theorem tag_roundTrip_colour :
    let items : List Tag.Item := [.nullable true, .default "red:light", .sqlType "varchar(20)"]
    colourAnnotations.comment = none ∧ Tag.Agree items colourAnnotations ∧
      Tag.Lists items colourTag.toList ∧ Annotations.ofTag colourTag = colourAnnotations := by
  intro items
  have hagree : Tag.Agree items colourAnnotations := by
    refine ⟨by simp [items, Tag.Item.HoldsIn, colourAnnotations], ?_⟩
    intro item h
    cases item <;> simp_all [items, Tag.Item.HoldsIn, colourAnnotations]
  have hlists : Tag.Lists items colourTag.toList := by
    have hbare (cs : List Char) : Tag.Tabbed cs cs := ⟨[], [], nofun, nofun, by simp⟩
    have hnull : Tag.Says (.nullable true) ("null".toList ++ ':' :: "1".toList) :=
      .part (by decide) ⟨by decide, by decide, by decide, by decide⟩
        (hbare _) (hbare _)
    have hdefault :
        Tag.Says (.default "red:light") ("default".toList ++ ':' :: "red:light".toList) :=
      .part (by decide) ⟨by decide, by decide, by decide, by decide⟩
        (hbare _) (hbare _)
    have htype :
        Tag.Says (.sqlType "varchar(20)") ("type".toList ++ ':' :: "varchar(20)".toList) :=
      .part (by decide) ⟨by decide, by decide, by decide, by decide⟩
        (hbare _) (hbare _)
    have hempty : Tag.SaysNothing ("type".toList ++ ':' :: []) :=
      .empty (k := "type") (by decide) (hbare _) (hbare _)
    have hunknown : Tag.SaysNothing ("hue".toList ++ ':' :: "red".toList) := by
      refine .unknown (by decide) ?_ _
      intro k hk hkey
      have hname := (Tag.isText_of_mem_keys hk).strip hkey
      have hhue : Text.stripBoth Annotations.isSpaceOrTab "hue".toList = "hue".toList := by decide
      obtain rfl : "hue" = k := String.toList_injective (hhue.symm.trans hname)
      exact absurd hk (by decide)
    have hparts : colourTag.toList =
        ' ' :: (("null".toList ++ ':' :: "1".toList) ++
        ' ' :: ("optional".toList ++
        ' ' :: ' ' :: (("default".toList ++ ':' :: "red:light".toList) ++
        ' ' :: (("type".toList ++ ':' :: []) ++
        ' ' :: (("hue".toList ++ ':' :: "red".toList) ++
        ' ' :: (("type".toList ++ ':' :: "varchar(20)".toList) ++ [])))))) := by decide
    rw [hparts]
    refine .space (.item hnull (by simp) ?_)
    refine .space (.nothing (by decide) (.bare (by decide)) (by simp) ?_)
    refine .space (.space (.item hdefault (by simp) ?_))
    refine .space (.nothing (by decide) hempty (by simp) ?_)
    refine .space (.nothing (by decide) hunknown (by simp) ?_)
    exact .space (.item htype (by simp) .nil)
  exact ⟨rfl, hagree, hlists, tag_roundTrip.2.1 rfl hagree hlists⟩

end TableMapper
