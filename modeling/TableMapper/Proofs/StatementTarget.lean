import TableMapper.Proofs.StatementShape
import TableMapper.Proofs.TableExecution

/-!
# Which table a statement is about

The text of a statement says whether it creates or alters a table, or asks for
the columns or keys of one, and which table that is: the name stands between
backticks right behind the first words.  No statement on records does any of
this.

* `changesTable`, `inspectsTable` — what a text says about a table;
* `quoteName_cancel` — a quoted name ends where it says;
* `changesTable_change_iff` — a change of a table is one of no other table;
* `changesTable_statement`, `inspectsTable_statement` — records are not tables.
-/

namespace TableMapper

/-- Whether a text creates or alters a table. -/
def changesTable (table sql : String) : Bool :=
  Text.startsWith sql ("CREATE TABLE IF NOT EXISTS " ++ Text.quoteName table ++ " ") ||
    Text.startsWith sql ("ALTER TABLE " ++ Text.quoteName table ++ " ")

/-- Whether a text asks for the columns or the keys of a table. -/
def inspectsTable (table sql : String) : Bool :=
  sql = Live.describeText table || sql = Live.showIndexText table

/-- The first character of a name between backticks is not the backtick that ends
it, unless another one follows. -/
theorem escapeName_cons_ne {c : Char} {cs r r' : List Char} (hr : r.head? ≠ some '\x60') :
    (c :: cs).flatMap Text.escapeNameChar ++ '\x60' :: r' ≠ '\x60' :: r := by
  intro h
  by_cases hc : c = '\x60'
  · subst hc
    have hrest : '\x60' :: (cs.flatMap Text.escapeNameChar ++ '\x60' :: r') = r := by
      simpa [Text.escapeNameChar] using h
    exact hr (by rw [← hrest]; rfl)
  · have hfirst : c = '\x60' := by simpa [Text.escapeNameChar, hc] using congrArg List.head? h
    exact hc hfirst

/-- Behind the backtick that ends a name there is no other backtick, so the ends
of two names in one text are the same place. -/
theorem escapeName_cancel {a b r r' : List Char} (hr : r.head? ≠ some '\x60')
    (hr' : r'.head? ≠ some '\x60')
    (h : a.flatMap Text.escapeNameChar ++ '\x60' :: r =
      b.flatMap Text.escapeNameChar ++ '\x60' :: r') : a = b := by
  induction a generalizing b with
  | nil =>
      cases b with
      | nil => rfl
      | cons d b => exact absurd h.symm (escapeName_cons_ne hr)
  | cons c a ih =>
      cases b with
      | nil => exact absurd h (escapeName_cons_ne hr')
      | cons d b =>
          rw [List.flatMap_cons, List.flatMap_cons, List.append_assoc, List.append_assoc] at h
          by_cases hc : c = '\x60'
          · by_cases hd : d = '\x60'
            · subst hc hd
              rw [ih (List.append_cancel_left h)]
            · simp only [Text.escapeNameChar, hc, hd, if_true, if_false] at h
              exact absurd (List.cons.inj h).1.symm hd
          · by_cases hd : d = '\x60'
            · simp only [Text.escapeNameChar, hc, hd, if_true, if_false] at h
              exact absurd (List.cons.inj h).1 hc
            · simp only [Text.escapeNameChar, hc, hd, if_false, List.singleton_append] at h
              obtain ⟨hcd, htail⟩ := List.cons.inj h
              rw [hcd, ih htail]

/-- A quoted name can be read off a text that does not go on with a backtick. -/
theorem quoteName_cancel {a b : String} {r r' : List Char} (hr : r.head? ≠ some '\x60')
    (hr' : r'.head? ≠ some '\x60')
    (h : (Text.quoteName a).toList ++ r = (Text.quoteName b).toList ++ r') : a = b := by
  have hchars : a.toList.flatMap Text.escapeNameChar ++ '\x60' :: r =
      b.toList.flatMap Text.escapeNameChar ++ '\x60' :: r' := by
    simpa [Text.quoteName] using h
  exact String.ext (escapeName_cancel hr hr' hchars)

/-- Different names are different when they are quoted. -/
theorem quoteName_injective {a b : String} (h : Text.quoteName a = Text.quoteName b) :
    a = b := by
  have hend : ([] : List Char).head? ≠ some '\x60' := by simp
  exact quoteName_cancel hend hend (by rw [h])

/-- A text starts with another if the other is a front of it. -/
theorem startsWith_iff {s start : String} :
    Text.startsWith s start = true ↔ ∃ rest, s.toList = start.toList ++ rest := by
  rw [Text.startsWith, List.isPrefixOf_iff_prefix]
  constructor
  · rintro ⟨rest, h⟩
    exact ⟨rest, h.symm⟩
  · rintro ⟨rest, h⟩
    exact ⟨rest, h.symm⟩

/-- The letters that tell the kinds of statements apart. -/
def firstLetters (sql : String) : List Char :=
  sql.toList.take 3

/-- Three letters are enough to tell the words in front. -/
theorem firstLetters_append {p : String} (hp : 3 ≤ p.toList.length) (s : String) :
    firstLetters (p ++ s) = firstLetters p := by
  rw [firstLetters, String.toList_append, List.take_append_of_le_length hp]
  rfl

/-- The first words of statements on records. -/
def recordWords : List String :=
  ["SELECT ", "INSERT INTO ", "UPDATE ", "DELETE FROM "]

/-- A text of clauses begins as its first clause does. -/
theorem exists_joinClauses {words s : String} (hs : ∃ rest, s = words ++ rest)
    (clauses : List (Option String)) : ∃ rest, joinClauses (some s :: clauses) = words ++ rest := by
  obtain ⟨rest, rfl⟩ := hs
  exact ⟨rest ++ clauseTail clauses, by rw [joinClauses_cons, String.append_assoc]⟩

/-- An insert begins with its words. -/
theorem Batch.exists_text (b : Batch) (table : String) :
    ∃ rest, b.text table = "INSERT INTO " ++ rest := by
  unfold text
  simp only [String.append_assoc]
  exact ⟨_, rfl⟩

/-- Every statement on records begins with one of the words. -/
theorem Statement.exists_text (st : Statement) :
    ∃ words ∈ recordWords, ∃ rest, st.text = words ++ rest := by
  cases st with
  | select columns args =>
      refine ⟨"SELECT ", by decide, exists_joinClauses
        ⟨Text.quoteNames columns ++ (" FROM " ++ Text.quoteName args.table), ?_⟩ _⟩
      rw [String.append_assoc, String.append_assoc]
  | selectById columns table increment id =>
      refine ⟨"SELECT ", by decide, ?_⟩
      unfold text
      simp only [String.append_assoc]
      exact ⟨_, rfl⟩
  | insert table batch => exact ⟨"INSERT INTO ", by decide, batch.exists_text table⟩
  | guardedInsert table increment placed conditions =>
      refine ⟨"INSERT INTO ", by decide, ?_⟩
      unfold text
      simp only [String.append_assoc]
      exact ⟨_, rfl⟩
  | upsert table batch updates =>
      obtain ⟨rest, hrest⟩ := batch.exists_text table
      refine ⟨"INSERT INTO ", by decide,
        rest ++ (" ON DUPLICATE KEY UPDATE " ++ Update.textAll updates), ?_⟩
      change batch.text table ++ " ON DUPLICATE KEY UPDATE " ++ Update.textAll updates = _
      rw [hrest, String.append_assoc, String.append_assoc]
  | update updates args =>
      refine ⟨"UPDATE ", by decide, exists_joinClauses
        ⟨Text.quoteName args.table ++ (" SET " ++ Update.textAll updates), ?_⟩ _⟩
      rw [String.append_assoc, String.append_assoc]
  | delete args =>
      exact ⟨"DELETE FROM ", by decide, exists_joinClauses
        ⟨Text.quoteName args.table, rfl⟩ _⟩

/-- A statement on records begins neither as a change of a table nor as a question
about one. -/
theorem firstLetters_statement (st : Statement) :
    firstLetters st.text ∈ recordWords.map firstLetters := by
  obtain ⟨words, hwords, rest, htext⟩ := st.exists_text
  have hlong : ∀ words ∈ recordWords, 3 ≤ words.toList.length := by decide
  rw [htext, firstLetters_append (hlong words hwords)]
  exact List.mem_map_of_mem hwords

/-- The two questions as texts; the equations that unfolding finds by itself are slow to
find. -/
theorem describeText_eq (table : String) :
    Live.describeText table = "DESC " ++ Text.quoteName table :=
  rfl

/-- The question for the keys of a table. -/
theorem showIndexText_eq (table : String) :
    Live.showIndexText table = "SHOW INDEX FROM " ++ Text.quoteName table :=
  rfl

/-- The question for the columns begins with letters of its own. -/
theorem firstLetters_describe (table : String) :
    firstLetters (Live.describeText table) = "DES".toList := by
  rw [describeText_eq, firstLetters_append (by decide)]
  decide

/-- So does the question for the keys. -/
theorem firstLetters_showIndex (table : String) :
    firstLetters (Live.showIndexText table) = "SHO".toList := by
  rw [showIndexText_eq, firstLetters_append (by decide)]
  decide

/-- A text that creates or alters a table begins so. -/
theorem firstLetters_of_changesTable {table sql : String} (h : changesTable table sql = true) :
    firstLetters sql = "CRE".toList ∨ firstLetters sql = "ALT".toList := by
  rcases Bool.or_eq_true_iff.mp h with h | h
  · obtain ⟨rest, hrest⟩ := startsWith_iff.mp h
    left
    rw [firstLetters, hrest, String.append_assoc]
    simp
  · obtain ⟨rest, hrest⟩ := startsWith_iff.mp h
    right
    rw [firstLetters, hrest, String.append_assoc]
    simp

/-- A text that asks for columns or keys begins so. -/
theorem firstLetters_of_inspectsTable {table sql : String} (h : inspectsTable table sql = true) :
    firstLetters sql = "DES".toList ∨ firstLetters sql = "SHO".toList := by
  rw [inspectsTable, Bool.or_eq_true, decide_eq_true_iff, decide_eq_true_iff] at h
  rcases h with rfl | rfl
  · exact .inl (firstLetters_describe table)
  · exact .inr (firstLetters_showIndex table)

/-- A change names its table right behind its first words. -/
theorem TableChange.exists_text (c : TableChange) :
    ∃ words rest, (words = "CREATE TABLE IF NOT EXISTS " ∨ words = "ALTER TABLE ") ∧
      c.text = words ++ (Text.quoteName c.table ++ (" " ++ rest)) := by
  cases c with
  | create c =>
      have hspace : " (\n" = " " ++ "(\n" := by decide
      have htext (params : String) : ∃ rest,
          "CREATE TABLE IF NOT EXISTS " ++ Text.quoteName c.table ++ " (\n" ++
            ",\n".intercalate c.clauses ++ "\n)" ++ params ++ " COMMENT " ++
            Text.quote c.description =
          "CREATE TABLE IF NOT EXISTS " ++ (Text.quoteName c.table ++ (" " ++ rest)) := by
        simp only [hspace, String.append_assoc]
        exact ⟨_, rfl⟩
      obtain ⟨rest, hrest⟩ := htext _
      exact ⟨_, rest, .inl rfl, hrest⟩
  | addColumn table f predecessor =>
      have hspace : " ADD COLUMN " = " " ++ "ADD COLUMN " := by decide
      have htext (definition place : String) : ∃ rest,
          "ALTER TABLE " ++ Text.quoteName table ++ " ADD COLUMN " ++ definition ++ place =
          "ALTER TABLE " ++ (Text.quoteName table ++ (" " ++ rest)) := by
        simp only [hspace, String.append_assoc]
        exact ⟨_, rfl⟩
      obtain ⟨rest, hrest⟩ := htext _ _
      exact ⟨_, rest, .inr rfl, hrest⟩
  | addKey table kind key =>
      have hspace : " ADD " = " " ++ "ADD " := by decide
      have htext (addition text : String) : ∃ rest,
          "ALTER TABLE " ++ Text.quoteName table ++ " ADD " ++ addition ++ text =
          "ALTER TABLE " ++ (Text.quoteName table ++ (" " ++ rest)) := by
        simp only [hspace, String.append_assoc]
        exact ⟨_, rfl⟩
      obtain ⟨rest, hrest⟩ := htext _ _
      exact ⟨_, rest, .inr rfl, hrest⟩

/-- The words of a change decide how it begins. -/
theorem firstLetters_change (c : TableChange) :
    firstLetters c.text = "CRE".toList ∨ firstLetters c.text = "ALT".toList := by
  obtain ⟨words, rest, hwords | hwords, htext⟩ := c.exists_text
  · left
    rw [htext, hwords, firstLetters_append (by decide)]
    decide
  · right
    rw [htext, hwords, firstLetters_append (by decide)]
    decide

/-- A change of a table is one of no other table. -/
theorem changesTable_change_iff {table : String} {c : TableChange} :
    changesTable table c.text = true ↔ c.table = table := by
  obtain ⟨words, rest, hwords, htext⟩ := c.exists_text
  constructor
  · intro h
    -- Both names stand behind the same words, since these begin differently.
    have hsame : ∃ behind, (words ++ (Text.quoteName c.table ++ (" " ++ rest))).toList =
        words.toList ++ ((Text.quoteName table).toList ++ ' ' :: behind) := by
      rw [htext] at h
      rcases Bool.or_eq_true_iff.mp h with h | h
      · obtain ⟨behind, hbehind⟩ := startsWith_iff.mp h
        rcases hwords with rfl | rfl
        · exact ⟨behind, by simpa using hbehind⟩
        · simp at hbehind
      · obtain ⟨behind, hbehind⟩ := startsWith_iff.mp h
        rcases hwords with rfl | rfl
        · simp at hbehind
        · exact ⟨behind, by simpa using hbehind⟩
    obtain ⟨behind, hbehind⟩ := hsame
    rw [String.toList_append, List.append_right_inj, String.toList_append] at hbehind
    exact quoteName_cancel (by simp) (by simp) hbehind
  · rintro rfl
    rw [htext, changesTable, Bool.or_eq_true, startsWith_iff, startsWith_iff]
    rcases hwords with rfl | rfl
    · exact .inl ⟨rest.toList, by simp⟩
    · exact .inr ⟨rest.toList, by simp⟩

/-- No statement on records creates or alters a table. -/
theorem changesTable_statement (table : String) (st : Statement) :
    changesTable table st.text = false := by
  rw [Bool.eq_false_iff]
  intro h
  have hst := firstLetters_statement st
  rcases firstLetters_of_changesTable h with hletters | hletters
  · rw [hletters] at hst
    exact absurd hst (by decide)
  · rw [hletters] at hst
    exact absurd hst (by decide)

/-- No question about a table creates or alters one. -/
theorem changesTable_of_inspectsTable {table other sql : String}
    (h : inspectsTable other sql = true) : changesTable table sql = false := by
  rw [Bool.eq_false_iff]
  intro hchanges
  rcases firstLetters_of_inspectsTable h with hasks | hasks <;>
    rcases firstLetters_of_changesTable hchanges with hletters | hletters <;>
    exact absurd (hasks.symm.trans hletters) (by decide)

/-- No statement on records asks for the columns or the keys of a table. -/
theorem inspectsTable_statement (table : String) (st : Statement) :
    inspectsTable table st.text = false := by
  rw [Bool.eq_false_iff]
  intro h
  have hst := firstLetters_statement st
  rcases firstLetters_of_inspectsTable h with hletters | hletters
  · rw [hletters] at hst
    exact absurd hst (by decide)
  · rw [hletters] at hst
    exact absurd hst (by decide)

/-- No change asks for the columns or the keys of a table. -/
theorem inspectsTable_change (table : String) (c : TableChange) :
    inspectsTable table c.text = false := by
  rw [Bool.eq_false_iff]
  intro h
  rcases firstLetters_of_inspectsTable h with hasks | hasks <;>
    rcases firstLetters_change c with hletters | hletters <;>
    exact absurd (hasks.symm.trans hletters) (by decide)

/-- A question about a table is one about no other table. -/
theorem inspectsTable_describe_iff {table other : String} :
    inspectsTable table (Live.describeText other) = true ↔ other = table := by
  rw [inspectsTable, Bool.or_eq_true, decide_eq_true_iff, decide_eq_true_iff]
  constructor
  · rintro (h | h)
    · refine quoteName_injective (String.ext ?_)
      simpa [describeText_eq] using congrArg String.toList h
    · have hletters := congrArg firstLetters h
      rw [firstLetters_describe, firstLetters_showIndex] at hletters
      exact absurd hletters (by decide)
  · rintro rfl
    exact .inl rfl

/-- The question for the keys of a table inspects this table. -/
theorem inspectsTable_showIndex_iff {table other : String} :
    inspectsTable table (Live.showIndexText other) = true ↔ other = table := by
  rw [inspectsTable, Bool.or_eq_true, decide_eq_true_iff, decide_eq_true_iff]
  constructor
  · rintro (h | h)
    · have hletters := congrArg firstLetters h
      rw [firstLetters_describe, firstLetters_showIndex] at hletters
      exact absurd hletters (by decide)
    · refine quoteName_injective (String.ext ?_)
      simpa [showIndexText_eq] using congrArg String.toList h
  · rintro rfl
    exact .inr rfl

end TableMapper
