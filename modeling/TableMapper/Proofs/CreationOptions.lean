import TableMapper.Proofs.BlankText
import TableMapper.Proofs.DictLaws
import TableMapper.Reconcile.Change

/-!
# Options of a new table

Behind the columns and keys of a new table stand its options: engine, charset, comment,
the first number of a counting column, and whatever else is given.  Which option a keyword
means does not depend on its case, and `CHARSET` may be written with `DEFAULT` in front of
it.  This file says what is set to what, for options that were put together from
parameters and laid over each other.

* `Creation.text_eq` — where the options stand in the statement;
* `TableOptions.Assembled` — how options come about;
* `Dict.filter_entries`, `Creation.filter_remaining` — what is given under a keyword;
* `creation_sets_options` — each option with its value, and how often it is set;
* `charset_set_twice` — the two spellings of the charset beside each other.
-/

namespace TableMapper

/-- The option that a keyword means. -/
def optionName (keyword : String) : String :=
  let k := Text.upper (Text.trim keyword)
  if k = "DEFAULT CHARSET" then "CHARSET" else k

namespace Text

/-- Capital letters stay. -/
theorem toUpper_toUpper (c : Char) : c.toUpper.toUpper = c.toUpper := by
  apply Char.toNat_inj.mp
  rw [toNat_toUpper, toNat_toUpper]
  split_ifs <;> omega

/-- A compact text is compact in capitals. -/
theorem Compact.map_toUpper {cs : List Char} (h : Compact cs) : Compact (cs.map Char.toUpper) := by
  refine ⟨?_, ?_⟩
  · intro c hc
    rw [List.head?_map, Option.mem_def, Option.map_eq_some_iff] at hc
    obtain ⟨d, hd, rfl⟩ := hc
    rw [isBlank_toUpper]
    exact h.1 d hd
  · intro c hc
    rw [List.getLast?_map, Option.mem_def, Option.map_eq_some_iff] at hc
    obtain ⟨d, hd, rfl⟩ := hc
    rw [isBlank_toUpper]
    exact h.2 d hd

/-- A folded keyword is the trimmed one in capitals. -/
theorem toList_upper_trim (s : String) :
    (upper (trim s)).toList = (trimChars s.toList).map Char.toUpper := by
  rw [upper, String.toList_map, trim, String.toList_ofList]

/-- A keyword that has been folded stays what it is. -/
theorem upper_trim_upper_trim (s : String) : upper (trim (upper (trim s))) = upper (trim s) := by
  apply String.toList_injective
  rw [toList_upper_trim, toList_upper_trim, (exists_trimChars _).1.map_toUpper.trimChars_eq,
    List.map_map]
  exact List.map_congr_left fun c _ => toUpper_toUpper c

end Text

namespace TableOptions

/-- Options that are put together: those without parameters, with one parameter more, with
options laid over them, and with anything else changed. -/
inductive Assembled : TableOptions → Prop
  | bare {o : TableOptions} (h : o.params = .empty) : Assembled o
  | param {o : TableOptions} (h : Assembled o) (key value : String) : Assembled (o.param key value)
  | merge {o p : TableOptions} (ho : Assembled o) (hp : Assembled p) : Assembled (o.merge p)
  | changed {o p : TableOptions} (h : Assembled o) (hp : p.params = o.params) : Assembled p

/-- The keywords of options that were put together are folded. -/
theorem Assembled.folded {o : TableOptions} (h : o.Assembled) {k v : String}
    (hk : o.params.find? k = some v) : Text.upper (Text.trim k) = k := by
  induction h generalizing v with
  | bare h =>
      rw [h] at hk
      cases hk
  | @param o h key value ih =>
      have hfind : (o.params.insert (Text.upper (Text.trim key)) value).find? k = some v := hk
      rw [Dict.find?_insert] at hfind
      split_ifs at hfind with heq
      · rw [heq, Text.upper_trim_upper_trim]
      · exact ih hfind
  | @merge o p ho hp iho ihp =>
      have hfind : (o.params.overlay p.params).find? k = some v := hk
      rw [Dict.find?_overlay, Option.or_eq_some_iff] at hfind
      rcases hfind with hfind | ⟨_, hfind⟩
      · exact ihp hfind
      · exact iho hfind
  | changed h hp ih =>
      rw [hp] at hk
      exact ih hk

end TableOptions

/-- The keywords that a new table looks up by name. -/
def reservedKeywords : List String :=
  ["ENGINE", "AUTO_INCREMENT", "DEFAULT CHARSET", "CHARSET", "COMMENT"]

namespace Creation

/-- The options behind the closing bracket, in order: each keyword with what is written
behind it. -/
def optionList (c : Creation) : List (String × String) :=
  c.params.map (fun p => (p.1, "=" ++ p.2)) ++ [("COMMENT", " " ++ Text.quote c.description)]

/-- The options of a new table that mean the given one. -/
def settings (c : Creation) (name : String) : List (String × String) :=
  c.optionList.filter fun p => optionName p.1 = name

/-- The options are all that stands behind the closing bracket. -/
theorem text_eq (c : Creation) :
    c.text = "CREATE TABLE IF NOT EXISTS " ++ Text.quoteName c.table ++ " (\n" ++
      ",\n".intercalate c.clauses ++ "\n)" ++
      String.join (c.optionList.map fun p => " " ++ p.1 ++ p.2) := by
  have hparams : c.params.map (fun p => " " ++ p.1 ++ "=" ++ p.2) =
      (c.params.map fun p => (p.1, "=" ++ p.2)).map fun p => " " ++ p.1 ++ p.2 := by
    rw [List.map_map]
    refine List.map_congr_left fun p _ => ?_
    simp only [Function.comp_apply, String.append_assoc]
  have hcomment : " COMMENT " = " " ++ "COMMENT" ++ " " := by decide
  have hlast : String.join [" " ++ "COMMENT" ++ (" " ++ Text.quote c.description)] =
      " COMMENT " ++ Text.quote c.description := by
    rw [String.join_cons, String.join_nil, String.append_empty, hcomment]
    simp only [String.append_assoc]
  rw [optionList, List.map_append, String.join_append, ← hparams, List.map_singleton, hlast,
    ← String.append_assoc, ← String.append_assoc]
  rfl

/-- The parameters that stand behind those that are looked up by name. -/
def remaining (options : TableOptions) : Dict String :=
  let others := (((options.params.erase "ENGINE").erase "AUTO_INCREMENT").erase
    "DEFAULT CHARSET").erase "COMMENT"
  if options.params.contains "DEFAULT CHARSET" then others else others.erase "CHARSET"

section Remaining

variable {o : TableOptions}

/-- Other keywords keep their values. -/
theorem find?_remaining_of_not_mem {k : String} (hk : k ∉ reservedKeywords) :
    (remaining o).find? k = o.params.find? k := by
  simp only [reservedKeywords, List.mem_cons, List.not_mem_nil, or_false, not_or] at hk
  obtain ⟨hengine, hincrement, hdefault, hcharset, hcomment⟩ := hk
  rw [remaining]
  split_ifs
  · simp only [Dict.find?_erase, hengine, hincrement, hdefault, hcomment, if_false]
  · simp only [Dict.find?_erase, hengine, hincrement, hdefault, hcharset, hcomment, if_false]

/-- Of the keywords that are looked up only the short one for the charset may be left. -/
theorem find?_remaining_of_mem {k : String} (hk : k ∈ reservedKeywords) (hne : k ≠ "CHARSET") :
    (remaining o).find? k = none := by
  simp only [reservedKeywords, List.mem_cons, List.not_mem_nil, or_false] at hk
  rw [remaining]
  split_ifs
  · simp only [Dict.find?_erase]
    grind
  · simp only [Dict.find?_erase]
    grind

/-- It is left if the long one is given too. -/
theorem find?_remaining_charset :
    (remaining o).find? "CHARSET" =
      if o.params.contains "DEFAULT CHARSET" then o.params.find? "CHARSET" else none := by
  rw [remaining]
  split_ifs
  · simp only [Dict.find?_erase]
    simp
  · simp only [Dict.find?_erase, if_true]

/-- What is left has been given. -/
theorem find?_of_remaining {k v : String} (h : (remaining o).find? k = some v) :
    o.params.find? k = some v ∧ k ≠ "DEFAULT CHARSET" := by
  by_cases hk : k ∈ reservedKeywords
  · by_cases hcharset : k = "CHARSET"
    · subst hcharset
      rw [find?_remaining_charset] at h
      split_ifs at h
      exact ⟨h, by decide⟩
    · rw [find?_remaining_of_mem hk hcharset] at h
      cases h
  · rw [find?_remaining_of_not_mem hk] at h
    refine ⟨h, ?_⟩
    rintro rfl
    exact hk (by decide)

/-- What is left means different options. -/
theorem filter_remaining (ho : o.Assembled) (name : String) :
    (remaining o).entries.filter (fun e => optionName e.1 = name) =
      ((remaining o).find? name).toList.map (name, ·) := by
  rw [← Dict.filter_entries]
  refine List.filter_congr fun e he => ?_
  obtain ⟨hgiven, hlong⟩ := find?_of_remaining (Dict.find?_eq_some_iff.mpr he)
  rw [optionName, ho.folded hgiven, if_neg hlong]

end Remaining

/-- The options of a new table that mean `name`, one place in the list after another. -/
theorem settings_ofSchema {o : TableOptions} (ho : o.Assembled) (schema : Schema)
    (defaults : TableDefaults) (name : String) :
    (ofSchema schema o defaults).settings name =
      (if "ENGINE" = name then
        [("ENGINE", "=" ++ (o.params.find? "ENGINE").getD defaults.engine)] else []) ++
      (if schema.increment?.isSome ∧ "AUTO_INCREMENT" = name then
        [("AUTO_INCREMENT", "=" ++ (o.params.find? "AUTO_INCREMENT").getD "1")] else []) ++
      (if "CHARSET" = name then
        [("DEFAULT CHARSET", "=" ++ ((o.params.find? "DEFAULT CHARSET").or
          (o.params.find? "CHARSET")).getD defaults.charset)] else []) ++
      ((remaining o).find? name).toList.map (fun v => (name, "=" ++ v)) ++
      (if "COMMENT" = name then [("COMMENT", " " ++ Text.quote o.description)] else []) := by
  have hone (k v : String) : [(k, v)].filter (fun p => decide (optionName p.1 = name)) =
      if optionName k = name then [(k, v)] else [] := by
    rw [List.filter_singleton]
    split_ifs <;> simp_all
  have hengine : optionName "ENGINE" = "ENGINE" := by decide +kernel
  have hincrement : optionName "AUTO_INCREMENT" = "AUTO_INCREMENT" := by decide +kernel
  have hcharset : optionName "DEFAULT CHARSET" = "CHARSET" := by decide +kernel
  have hcomment : optionName "COMMENT" = "COMMENT" := by decide +kernel
  have hremaining : ((remaining o).entries.map fun p => (p.1, "=" ++ p.2)).filter
      (fun p => decide (optionName p.1 = name)) =
        ((remaining o).find? name).toList.map fun v => (name, "=" ++ v) := by
    rw [List.filter_map]
    exact (congrArg _ (filter_remaining ho name)).trans List.map_map
  have hparams : (ofSchema schema o defaults).params =
      [("ENGINE", (o.params.find? "ENGINE").getD defaults.engine)] ++
        (if schema.increment?.isSome then
          [("AUTO_INCREMENT", (o.params.find? "AUTO_INCREMENT").getD "1")] else []) ++
        [("DEFAULT CHARSET", ((o.params.find? "DEFAULT CHARSET").or
          (o.params.find? "CHARSET")).getD defaults.charset)] ++ (remaining o).entries := rfl
  have hdescription : (ofSchema schema o defaults).description = o.description := rfl
  rw [settings, optionList, hparams, hdescription]
  simp only [List.map_append, List.filter_append, List.map_singleton, hone, hremaining, hengine,
    hcharset, hcomment]
  cases schema.increment? with
  | none => simp
  | some f => simp [hone, hincrement]

end Creation

/-- **A new table sets each option once, but for the charset.**  Behind its columns and
keys stand engine and comment once each, the first number exactly if a column counts up,
and every other parameter with its value.  The charset that is given, in either spelling,
takes the place of the default one; but if it is given in both, the short spelling stands
in the list a second time. -/
theorem creation_sets_options {o : TableOptions} (ho : o.Assembled) (schema : Schema)
    (defaults : TableDefaults) :
    let c := Creation.ofSchema schema o defaults
    c.text = "CREATE TABLE IF NOT EXISTS " ++ Text.quoteName o.tableName ++ " (\n" ++
        ",\n".intercalate c.clauses ++ "\n)" ++
        String.join (c.optionList.map fun p => " " ++ p.1 ++ p.2) ∧
    c.settings "ENGINE" = [("ENGINE", "=" ++ (o.params.find? "ENGINE").getD defaults.engine)] ∧
    c.settings "COMMENT" = [("COMMENT", " " ++ Text.quote o.description)] ∧
    c.settings "AUTO_INCREMENT" = (if schema.increment?.isSome then
      [("AUTO_INCREMENT", "=" ++ (o.params.find? "AUTO_INCREMENT").getD "1")] else []) ∧
    (∀ name, name ∉ reservedKeywords → c.settings name =
      (o.params.find? name).toList.map fun v => (name, "=" ++ v)) ∧
    c.settings "CHARSET" =
      ("DEFAULT CHARSET", "=" ++ ((o.params.find? "DEFAULT CHARSET").or
        (o.params.find? "CHARSET")).getD defaults.charset) ::
      (if o.params.contains "DEFAULT CHARSET" then
        (o.params.find? "CHARSET").toList.map fun v => ("CHARSET", "=" ++ v) else []) ∧
    ((c.settings "CHARSET").length = 1 ↔
      ¬(o.params.contains "DEFAULT CHARSET" = true ∧ o.params.contains "CHARSET" = true)) := by
  intro c
  have hlooked {k : String} (hk : k ∈ reservedKeywords) (hne : k ≠ "CHARSET") :
      (Creation.remaining o).find? k = none := Creation.find?_remaining_of_mem hk hne
  have hcharset : c.settings "CHARSET" =
      ("DEFAULT CHARSET", "=" ++ ((o.params.find? "DEFAULT CHARSET").or
        (o.params.find? "CHARSET")).getD defaults.charset) ::
      (if o.params.contains "DEFAULT CHARSET" then
        (o.params.find? "CHARSET").toList.map fun v => ("CHARSET", "=" ++ v) else []) := by
    rw [Creation.settings_ofSchema ho, Creation.find?_remaining_charset]
    split_ifs <;> simp_all
  refine ⟨c.text_eq, ?_, ?_, ?_, ?_, hcharset, ?_⟩
  · rw [Creation.settings_ofSchema ho, hlooked (by decide) (by decide)]
    simp
  · rw [Creation.settings_ofSchema ho, hlooked (by decide) (by decide)]
    simp
  · rw [Creation.settings_ofSchema ho, hlooked (by decide) (by decide)]
    simp
  · intro name hname
    rw [Creation.settings_ofSchema ho, Creation.find?_remaining_of_not_mem hname]
    simp only [reservedKeywords, List.mem_cons, List.not_mem_nil, or_false, not_or] at hname
    obtain ⟨hengine, hincrement, _, hshort, hcomment⟩ := hname
    simp [Ne.symm hengine, Ne.symm hincrement, Ne.symm hshort, Ne.symm hcomment]
  · rw [hcharset, Dict.contains, Dict.contains]
    cases o.params.find? "DEFAULT CHARSET" with
    | none => simp
    | some long => cases o.params.find? "CHARSET" <;> simp

/-- The schema of a table of counters. -/
def counterSchema : Schema where
  fields := [⟨"n", "int", false, "0", false, "", none⟩]
  increment_le_one := by decide

/-- What the record type of counters says about its table. -/
def counterOptions : TableOptions :=
  ({ tableName := "counters", description := "hits" } : TableOptions).param " default charset "
    "utf8mb4"

/-- What a call says about the table. -/
def archiveOptions : TableOptions :=
  (({} : TableOptions).param "Engine" "ARCHIVE").param "collate" "utf8mb4_bin"

theorem assembled_counterOptions : counterOptions.Assembled :=
  .param (.bare rfl) _ _

/-- A table of archived counters has engine, charset and collation once each. -/
theorem creation_sets_options_counters :
    (counterOptions.merge archiveOptions).Assembled ∧
    let c := Creation.ofSchema counterSchema (counterOptions.merge archiveOptions) {}
    c.settings "ENGINE" = [("ENGINE", "=ARCHIVE")] ∧
    c.settings "AUTO_INCREMENT" = [] ∧
    c.settings "COLLATE" = [("COLLATE", "=utf8mb4_bin")] ∧
    (c.settings "CHARSET").length = 1 := by
  have hassembled : (counterOptions.merge archiveOptions).Assembled :=
    assembled_counterOptions.merge (.param (.param (.bare rfl) _ _) _ _)
  obtain ⟨_, hengine, _, hincrement, hothers, _, hcharset⟩ :=
    creation_sets_options hassembled counterSchema {}
  refine ⟨hassembled, ?_, ?_, ?_, ?_⟩
  · rw [hengine]
    decide +kernel
  · rw [hincrement]
    decide +kernel
  · rw [hothers "COLLATE" (by decide)]
    decide +kernel
  · rw [hcharset]
    decide +kernel

/-- A call that names the charset in the short spelling does not replace the one of the
record type: the statement sets it a second time. -/
theorem charset_set_twice :
    (counterOptions.merge (({} : TableOptions).param "charset" "latin1")).Assembled ∧
    let c := Creation.ofSchema counterSchema
      (counterOptions.merge (({} : TableOptions).param "charset" "latin1")) {}
    c.settings "CHARSET" = [("DEFAULT CHARSET", "=utf8mb4"), ("CHARSET", "=latin1")] ∧
    c.text = "CREATE TABLE IF NOT EXISTS \x60counters\x60 (\n" ++
      "\x60n\x60 int NOT NULL DEFAULT 0 COMMENT ''\n) ENGINE=InnoDB DEFAULT CHARSET=utf8mb4" ++
      " CHARSET=latin1 COMMENT 'hits'" := by
  refine ⟨assembled_counterOptions.merge (.param (.bare rfl) _ _), ?_, ?_⟩
  · decide +kernel
  · decide +kernel

end TableMapper
