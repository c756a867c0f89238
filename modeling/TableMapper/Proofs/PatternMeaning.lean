import Mathlib.Data.List.Forall2
import Mathlib.Data.List.Infix
import TableMapper.Condition
import TableMapper.Proofs.Attempt
import TableMapper.Proofs.QuotedReading

/-!
# What a pattern of parts matches

A condition can compare a column with parts that may have anything between them.  The
parts are escaped and written into one string literal.  The database first reads the
literal as a text, and then the text as a pattern: a percent sign is any text, an
underscore any one character, and a backslash makes the character behind it stand for
itself.  A part is escaped for the first reader, and of what means something to the
second one only the percent signs are.

* `patternPieces`, `covers` — the reader of patterns, and what a pattern matches;
* `readToken_quotePattern` — the pattern that is read from the literal;
* `covers_partsPattern_iff` — what it matches where no backslash of the parts meets
  another character;
* `count_shortestMatch_le` — the shortest text that a pattern matches has few characters
  with a meaning, too few for parts with other backslashes or with underscores;
* `likeParts_reading` — both together: which parts are meant as they are.
-/

namespace TableMapper

/-- A piece of a pattern: any text, any one character, or one character itself. -/
inductive PatternPiece
  | anything
  | anyone
  | exactly (c : Char)
  deriving DecidableEq, Repr

/-- The piece that a character is with no backslash in front of it. -/
def PatternPiece.ofChar (c : Char) : PatternPiece :=
  if c = '%' then anything else if c = '_' then anyone else exactly c

/-- The pieces of a pattern. A backslash at its end stands for itself. -/
def patternPieces : List Char → List PatternPiece
  | [] => []
  | [c] => [.ofChar c]
  | c :: d :: cs =>
    if c = '\\' then .exactly d :: patternPieces cs else .ofChar c :: patternPieces (d :: cs)

/-- Whether pieces cover a text from its beginning to its end. -/
def covers : List PatternPiece → List Char → Bool
  | [], t => t.isEmpty
  | .anything :: ps, t => t.tails.any fun v => covers ps v
  | .anyone :: _, [] => false
  | .anyone :: ps, _ :: t => covers ps t
  | .exactly _ :: _, [] => false
  | .exactly c :: ps, d :: t => d = c && covers ps t

/-- Whether a pattern matches a text, upper and lower case being told apart. -/
def matchesPattern (pattern text : String) : Bool :=
  covers (patternPieces pattern.toList) text.toList

/-- The wildcard for anything covers any beginning of the text. -/
theorem covers_anything_iff {ps : List PatternPiece} {t : List Char} :
    covers (.anything :: ps) t = true ↔ ∃ u v, t = u ++ v ∧ covers ps v = true := by
  rw [covers, List.any_eq_true]
  constructor
  · rintro ⟨v, hv, hcovers⟩
    obtain ⟨u, hu⟩ := (List.mem_tails v t).mp hv
    exact ⟨u, v, hu.symm, hcovers⟩
  · rintro ⟨u, v, rfl, hcovers⟩
    exact ⟨v, (List.mem_tails v _).mpr ⟨u, rfl⟩, hcovers⟩

/-- Pieces one behind the other cover two texts one behind the other. -/
theorem covers_append_iff {ps qs : List PatternPiece} {t : List Char} :
    covers (ps ++ qs) t = true ↔
      ∃ u v, t = u ++ v ∧ covers ps u = true ∧ covers qs v = true := by
  induction ps generalizing t with
  | nil =>
      constructor
      · intro h
        exact ⟨[], t, rfl, rfl, h⟩
      · rintro ⟨u, v, rfl, hu, hv⟩
        have hempty : u = [] := by simpa [covers] using hu
        rw [hempty]
        exact hv
  | cons p ps ih =>
      cases p with
      | anything =>
          rw [List.cons_append, covers_anything_iff]
          constructor
          · rintro ⟨w, t', rfl, h⟩
            obtain ⟨u, v, rfl, hu, hv⟩ := ih.mp h
            exact ⟨w ++ u, v, (List.append_assoc w u v).symm,
              covers_anything_iff.mpr ⟨w, u, rfl, hu⟩, hv⟩
          · rintro ⟨u, v, rfl, hu, hv⟩
            obtain ⟨w, u', rfl, hu'⟩ := covers_anything_iff.mp hu
            exact ⟨w, u' ++ v, List.append_assoc w u' v, ih.mpr ⟨u', v, rfl, hu', hv⟩⟩
      | anyone =>
          constructor
          · intro h
            cases t with
            | nil => cases h
            | cons d t =>
                obtain ⟨u, v, rfl, hu, hv⟩ := ih.mp h
                exact ⟨d :: u, v, rfl, hu, hv⟩
          · rintro ⟨u, v, rfl, hu, hv⟩
            cases u with
            | nil => cases hu
            | cons d u => exact ih.mpr ⟨u, v, rfl, hu, hv⟩
      | exactly c =>
          constructor
          · intro h
            cases t with
            | nil => cases h
            | cons d t =>
                obtain ⟨hd, htail⟩ := Bool.and_eq_true_iff.mp h
                obtain ⟨u, v, rfl, hu, hv⟩ := ih.mp htail
                exact ⟨d :: u, v, rfl, Bool.and_eq_true_iff.mpr ⟨hd, hu⟩, hv⟩
          · rintro ⟨u, v, rfl, hu, hv⟩
            cases u with
            | nil => cases hu
            | cons d u =>
                obtain ⟨hd, htail⟩ := Bool.and_eq_true_iff.mp hu
                exact Bool.and_eq_true_iff.mpr ⟨hd, ih.mpr ⟨u, v, rfl, htail, hv⟩⟩

/-- A text is made of these texts in their order, with a gap between each two. -/
inductive Woven : List (List Char) → List (List Char) → List Char → Prop
  | last (t : List Char) : Woven [t] [] t
  | more {ts gaps : List (List Char)} {s : List Char} (t gap : List Char)
      (h : Woven ts gaps s) : Woven (t :: ts) (gap :: gaps) (t ++ gap ++ s)

/-- Each character of a text occurs in the whole at least as often as in the pieces. -/
theorem Woven.count_le {ts gaps : List (List Char)} {s : List Char} (h : Woven ts gaps s)
    (c : Char) : ts.flatten.count c ≤ s.count c := by
  induction h with
  | last t => simp
  | more t gap _ ih =>
      simp only [List.flatten_cons, List.count_append]
      omega

/-- A relation that is equality on the elements of a list relates the list to itself
only. -/
theorem forall₂_iff_eq {α : Type} {R : α → α → Prop} {l l' : List α}
    (h : ∀ a ∈ l, ∀ b, R a b ↔ b = a) : List.Forall₂ R l l' ↔ l' = l := by
  have hequal : ∀ a ∈ l, ∀ b, R a b ↔ a = b := fun a ha b => (h a ha b).trans eq_comm
  rw [forall₂_congr_left hequal, List.forall₂_eq_eq_eq, eq_comm]

/-- A text agrees with a part if it is the part but for the underscores, in the place of
which it may have any characters. -/
def Agrees (part text : List Char) : Prop :=
  List.Forall₂ (fun c d => c = '_' ∨ d = c) part text

/-- A part without wildcards agrees with itself only. -/
theorem agrees_iff_eq {part text : List Char} (h : '_' ∉ part) :
    Agrees part text ↔ text = part := by
  apply forall₂_iff_eq
  intro c hc d
  have hne : c ≠ '_' := fun heq => h (heq ▸ hc)
  simp [hne]

/-- The piece of a pattern that a character of a part is meant to be. -/
def partPiece (c : Char) : PatternPiece :=
  if c = '_' then .anyone else .exactly c

/-- The pieces of a part cover what the part agrees with. -/
theorem covers_part_iff {part text : List Char} :
    covers (part.map partPiece) text = true ↔ Agrees part text := by
  induction part generalizing text with
  | nil =>
      rw [Agrees, List.forall₂_nil_left_iff]
      simp [covers]
  | cons c part ih =>
      cases text with
      | nil =>
          rw [Agrees, List.forall₂_nil_right_iff]
          by_cases hc : c = '_' <;> simp [partPiece, hc, covers]
      | cons d text =>
          rw [Agrees, List.forall₂_cons, ← Agrees, ← ih]
          by_cases hc : c = '_' <;> simp [partPiece, hc, covers]

/-- The pieces of a pattern of parts with anything between each two. -/
def partsPieces (parts : List (List Char)) : List PatternPiece :=
  [.anything].intercalate (parts.map (·.map partPiece))

theorem partsPieces_singleton (part : List Char) :
    partsPieces [part] = part.map partPiece := by
  simp [partsPieces]

/-- Behind a part that is not the last anything may stand. -/
theorem partsPieces_cons (part next : List Char) (parts : List (List Char)) :
    partsPieces (part :: next :: parts) =
      part.map partPiece ++ .anything :: partsPieces (next :: parts) := by
  simp [partsPieces]

/-- The pattern that is meant matches the texts that are woven of texts like the parts. -/
theorem covers_partsPieces_iff {parts : List (List Char)} {text : List Char}
    (hparts : parts ≠ []) :
    covers (partsPieces parts) text = true ↔
      ∃ ts gaps, List.Forall₂ Agrees parts ts ∧ Woven ts gaps text := by
  induction parts generalizing text with
  | nil => exact absurd rfl hparts
  | cons part parts ih =>
      cases parts with
      | nil =>
          rw [partsPieces_singleton, covers_part_iff]
          constructor
          · intro h
            exact ⟨[text], [], .cons h .nil, .last text⟩
          · rintro ⟨ts, gaps, hagrees, hwoven⟩
            obtain ⟨t, _, h, hnil, rfl⟩ := List.forall₂_cons_left_iff.mp hagrees
            rw [List.forall₂_nil_left_iff.mp hnil] at hwoven
            cases hwoven with
            | last => exact h
            | more _ _ hnone => cases hnone
      | cons next parts =>
          rw [partsPieces_cons, covers_append_iff]
          have hnext : next :: parts ≠ [] := by simp
          constructor
          · rintro ⟨u, rest, rfl, hu, hrest⟩
            obtain ⟨gap, v, rfl, hv⟩ := covers_anything_iff.mp hrest
            obtain ⟨ts, gaps, hagrees, hwoven⟩ := (ih hnext).mp hv
            refine ⟨u :: ts, gap :: gaps, .cons (covers_part_iff.mp hu) hagrees, ?_⟩
            rw [← List.append_assoc]
            exact .more u gap hwoven
          · rintro ⟨ts, gaps, hagrees, hwoven⟩
            cases hwoven with
            | last t => cases hagrees with | cons _ hnone => cases hnone
            | more u gap hwoven =>
                obtain ⟨hu, hagrees⟩ := List.forall₂_cons.mp hagrees
                rw [List.append_assoc]
                refine ⟨u, _, rfl, covers_part_iff.mpr hu, ?_⟩
                exact covers_anything_iff.mpr
                  ⟨gap, _, rfl, (ih hnext).mpr ⟨_, _, hagrees, hwoven⟩⟩

/-- A character of a part in the pattern that is read from its literal. -/
def maskedChar (c : Char) : List Char :=
  if c = '%' then ['\\', '%'] else [c]

/-- The pattern that is read from the literal of parts. -/
def partsPattern (parts : List (List Char)) : List Char :=
  ['%'].intercalate (parts.map (·.flatMap maskedChar))

theorem partsPattern_singleton (part : List Char) :
    partsPattern [part] = part.flatMap maskedChar := by
  simp [partsPattern]

/-- A percent sign stands behind a part that is not the last. -/
theorem partsPattern_cons (part next : List Char) (parts : List (List Char)) :
    partsPattern (part :: next :: parts) =
      part.flatMap maskedChar ++ '%' :: partsPattern (next :: parts) := by
  simp [partsPattern]

/-- What is written for a character of a part stands for its masked form. -/
theorem denotes_escapePatternChar (c : Char) :
    Denotes .text (Text.escapePatternChar c) (maskedChar c) := by
  unfold Text.escapePatternChar maskedChar
  split_ifs with hpercent
  · exact Denotes.escape '%'
  · exact denotes_escapeChar c

/-- What is written for a part stands for its masked form. -/
theorem denotes_part (p : String) :
    Denotes .text (Text.escapePattern p).toList (p.toList.flatMap maskedChar) := by
  rw [Text.escapePattern, String.toList_ofList]
  exact Denotes.flatMap denotes_escapePatternChar p.toList

/-- What is written with a separator is read with what the separator stands for. -/
theorem Denotes.intercalate {kind : QuoteKind} {α : Type} {sep sep' : List Char}
    {f g : α → List Char} (hsep : Denotes kind sep sep') (hfg : ∀ a, Denotes kind (f a) (g a))
    (l : List α) :
    Denotes kind (sep.intercalate (l.map f)) (sep'.intercalate (l.map g)) := by
  induction l with
  | nil => exact Denotes.nil
  | cons a l ih =>
      cases l with
      | nil => simpa using hfg a
      | cons b l =>
          simp only [List.map_cons, List.intercalate_cons_cons]
          exact ((hfg a).append hsep).append ih

/-- The literal of parts is read as their pattern. -/
theorem readToken_quotePattern (parts : List String) :
    readToken .text (Text.quotePattern parts) =
      some (.ofList (partsPattern (parts.map String.toList)), "") := by
  have hpercent : Denotes .text ['%'] ['%'] := Denotes.literal (by decide) (by decide)
  have hparts := hpercent.intercalate denotes_part parts
  have hliteral : (Text.quotePattern parts).toList = QuoteKind.text.mark ::
      (['%'].intercalate (parts.map fun p => (Text.escapePattern p).toList) ++
        [QuoteKind.text.mark]) := by
    simp [Text.quotePattern, QuoteKind.mark, String.toList_intercalate, Function.comp_def]
  have hread := (hparts.readToken_iff hliteral "").mpr (by simp)
  rw [String.append_empty] at hread
  rw [hread, partsPattern, List.map_map]
  rfl

/-- A character that is no backslash is a piece of its own. -/
theorem patternPieces_cons {c : Char} (hc : c ≠ '\\') (rest : List Char) :
    patternPieces (c :: rest) = .ofChar c :: patternPieces rest := by
  cases rest with
  | nil => rfl
  | cons d rest => rw [patternPieces, if_neg hc]

/-- Any character but the percent sign is read as in a part. -/
theorem ofChar_eq_partPiece {c : Char} (hc : c ≠ '%') : PatternPiece.ofChar c = partPiece c := by
  rw [PatternPiece.ofChar, if_neg hc, partPiece]

/-- A character that is no backslash is the piece that it is meant to be. -/
theorem patternPieces_maskedChar {c : Char} (hc : c ≠ '\\') (rest : List Char) :
    patternPieces (maskedChar c ++ rest) = partPiece c :: patternPieces rest := by
  by_cases hpercent : c = '%'
  · rw [hpercent]
    rfl
  · rw [maskedChar, if_neg hpercent, List.singleton_append, patternPieces_cons hc,
      ofChar_eq_partPiece hpercent]

/-- At the end of a pattern a backslash is too. -/
theorem patternPieces_maskedChar_end (c : Char) : patternPieces (maskedChar c) = [partPiece c] := by
  by_cases hpercent : c = '%'
  · rw [hpercent]
    rfl
  · rw [maskedChar, if_neg hpercent, patternPieces, ofChar_eq_partPiece hpercent]

/-- A masked part without backslashes is read as its pieces, whatever is behind it. -/
theorem patternPieces_part {part : List Char} (h : '\\' ∉ part) (rest : List Char) :
    patternPieces (part.flatMap maskedChar ++ rest) =
      part.map partPiece ++ patternPieces rest := by
  induction part with
  | nil => rfl
  | cons c part ih =>
      have hc : c ≠ '\\' := fun hc => h (by simp [hc])
      have hpart : '\\' ∉ part := fun hmem => h (List.mem_cons_of_mem c hmem)
      rw [List.flatMap_cons, List.append_assoc, patternPieces_maskedChar hc, ih hpart]
      rfl

/-- At the end a masked part may end with a backslash. -/
theorem patternPieces_part_end {part : List Char} (h : '\\' ∉ part.dropLast) :
    patternPieces (part.flatMap maskedChar) = part.map partPiece := by
  rcases List.eq_nil_or_concat' part with rfl | ⟨front, c, rfl⟩
  · rfl
  · rw [List.dropLast_concat] at h
    rw [List.flatMap_append, List.flatMap_singleton, patternPieces_part h,
      patternPieces_maskedChar_end, List.map_append, List.map_singleton]

/-- The parts as they are, with a percent sign between each two. -/
def joinedParts (parts : List (List Char)) : List Char :=
  ['%'].intercalate parts

theorem joinedParts_singleton (part : List Char) : joinedParts [part] = part := by
  simp [joinedParts]

/-- Joined parts have a percent sign between them. -/
theorem joinedParts_cons (part next : List Char) (parts : List (List Char)) :
    joinedParts (part :: next :: parts) = part ++ '%' :: joinedParts (next :: parts) := by
  simp [joinedParts]

/-- The pieces of the pattern are what they are meant to be where no backslash stands in
front of another character. -/
theorem patternPieces_partsPattern {parts : List (List Char)}
    (h : '\\' ∉ (joinedParts parts).dropLast) :
    patternPieces (partsPattern parts) = partsPieces parts := by
  induction parts with
  | nil => rfl
  | cons part parts ih =>
      cases parts with
      | nil =>
          rw [joinedParts_singleton] at h
          rw [partsPattern_singleton, partsPieces_singleton, patternPieces_part_end h]
      | cons next parts =>
          rw [joinedParts_cons, List.dropLast_append_cons, List.mem_append, not_or] at h
          obtain ⟨hpart, hrest⟩ := h
          have hnext : '\\' ∉ (joinedParts (next :: parts)).dropLast := by
            intro hmem
            apply hrest
            rw [List.dropLast_cons_of_ne_nil (List.ne_nil_of_mem (List.mem_of_mem_dropLast hmem))]
            exact List.mem_cons_of_mem _ hmem
          rw [partsPattern_cons, partsPieces_cons, patternPieces_part hpart,
            patternPieces_cons (by decide), ih hnext]
          rfl

/-- The shortest text that a piece stands for. -/
def PatternPiece.shortest : PatternPiece → List Char
  | anything => []
  | anyone => ['a']
  | exactly c => [c]

/-- The shortest text that a pattern matches. -/
def shortestMatch (ps : List PatternPiece) : List Char :=
  ps.flatMap PatternPiece.shortest

/-- A pattern covers its shortest match. -/
theorem covers_shortestMatch (ps : List PatternPiece) : covers ps (shortestMatch ps) = true := by
  induction ps with
  | nil => rfl
  | cons p ps ih =>
      cases p with
      | anything => exact covers_anything_iff.mpr ⟨[], _, rfl, ih⟩
      | anyone => exact ih
      | exactly c => simpa [shortestMatch, PatternPiece.shortest, covers] using ih

theorem shortestMatch_cons (p : PatternPiece) (ps : List PatternPiece) :
    shortestMatch (p :: ps) = p.shortest ++ shortestMatch ps := rfl

/-- A character that means something in a pattern is in the shortest match only behind a
backslash. -/
theorem count_shortest_ofChar {c x : Char} (hc : c ≠ '\\')
    (hx : x = '\\' ∨ x = '%' ∨ x = '_') : (PatternPiece.ofChar c).shortest.count x = 0 := by
  rw [List.count_eq_zero]
  intro hmem
  by_cases hpercent : c = '%'
  · rw [PatternPiece.ofChar, if_pos hpercent] at hmem
    cases hmem
  · by_cases hunder : c = '_'
    · rw [PatternPiece.ofChar, if_neg hpercent, if_pos hunder] at hmem
      rw [List.mem_singleton.mp hmem] at hx
      revert hx
      decide
    · rw [PatternPiece.ofChar, if_neg hpercent, if_neg hunder] at hmem
      rw [List.mem_singleton.mp hmem] at hx
      simp [hc, hpercent, hunder] at hx

/-- One if a text ends in a backslash. -/
def lastBackslash (cs : List Char) : Nat :=
  if cs.getLast? = some '\\' then 1 else 0

/-- A character in front moves no backslash further to the front. -/
theorem lastBackslash_le_cons (c : Char) (cs : List Char) :
    lastBackslash cs ≤ lastBackslash (c :: cs) := by
  unfold lastBackslash
  by_cases h : cs.getLast? = some '\\'
  · rw [if_pos h, List.getLast?_cons, h]
    simp
  · rw [if_neg h]
    omega

/-- Each character with a meaning that is in the shortest match costs a backslash of the
pattern, and a backslash costs two unless it is the end of the pattern. -/
theorem count_shortestMatch_le (cs : List Char) :
    (shortestMatch (patternPieces cs)).count '\\' + (shortestMatch (patternPieces cs)).count '%' +
        (shortestMatch (patternPieces cs)).count '_' ≤ cs.count '\\' ∧
      2 * (shortestMatch (patternPieces cs)).count '\\' +
        (shortestMatch (patternPieces cs)).count '%' ≤ cs.count '\\' + lastBackslash cs := by
  induction cs using patternPieces.induct with
  | case1 => simp [patternPieces, shortestMatch]
  | case2 c =>
      by_cases hc : c = '\\'
      · rw [hc]
        decide
      · have hslash := count_shortest_ofChar hc (.inl rfl)
        have hpercent := count_shortest_ofChar hc (.inr (.inl rfl))
        have hunder := count_shortest_ofChar hc (.inr (.inr rfl))
        rw [patternPieces, shortestMatch_cons]
        simp only [shortestMatch, List.flatMap_nil, List.append_nil]
        omega
  | case3 d cs ih =>
      have hlast := lastBackslash_le_cons d cs
      have hlast' := lastBackslash_le_cons '\\' (d :: cs)
      have hd : ([d].count '\\' + [d].count '%' + [d].count '_' ≤ 1) := by
        by_cases hslash : d = '\\'
        · rw [hslash]
          decide
        · by_cases hpercent : d = '%'
          · rw [hpercent]
            decide
          · by_cases hunder : d = '_'
            · rw [hunder]
              decide
            · simp [hslash, hpercent, hunder]
      have hcs : (d :: cs).count '\\' = [d].count '\\' + cs.count '\\' := by
        rw [← List.count_append, List.singleton_append]
      rw [patternPieces, if_pos rfl, shortestMatch_cons]
      simp only [PatternPiece.shortest, List.count_append, List.count_cons_self]
      omega
  | case4 c d cs hc ih =>
      have hslash := count_shortest_ofChar hc (.inl rfl)
      have hpercent := count_shortest_ofChar hc (.inr (.inl rfl))
      have hunder := count_shortest_ofChar hc (.inr (.inr rfl))
      have hlast := lastBackslash_le_cons c (d :: cs)
      rw [patternPieces, if_neg hc, shortestMatch_cons, List.count_cons_of_ne hc]
      simp only [List.count_append]
      omega

/-- Masking adds a backslash for each percent sign. -/
theorem count_masked (part : List Char) :
    (part.flatMap maskedChar).count '\\' = part.count '\\' + part.count '%' := by
  induction part with
  | nil => rfl
  | cons c part ih =>
      rw [List.flatMap_cons, List.count_append, ih]
      by_cases hpercent : c = '%'
      · rw [hpercent]
        have hmask : (maskedChar '%').count '\\' = 1 := by decide
        rw [hmask, List.count_cons_self, List.count_cons_of_ne (by decide)]
        omega
      · rw [maskedChar, if_neg hpercent, List.count_cons_of_ne hpercent]
        rw [← List.singleton_append (l := part), List.count_append]
        omega

/-- A character is counted part by part. -/
theorem count_flatten_cons (c : Char) (part : List Char) (parts : List (List Char)) :
    (part :: parts).flatten.count c = part.count c + parts.flatten.count c := by
  rw [List.flatten_cons, List.count_append]

/-- The pattern has the backslashes of the parts, and one for each percent sign in them. -/
theorem count_partsPattern (parts : List (List Char)) :
    (partsPattern parts).count '\\' = parts.flatten.count '\\' + parts.flatten.count '%' := by
  induction parts with
  | nil => rfl
  | cons part parts ih =>
      rw [count_flatten_cons, count_flatten_cons]
      cases parts with
      | nil =>
          rw [partsPattern_singleton, count_masked]
          simp
      | cons next parts =>
          rw [partsPattern_cons, List.count_append, List.count_cons_of_ne (by decide), ih,
            count_masked]
          omega

/-- Joining adds no backslash. -/
theorem count_joinedParts (parts : List (List Char)) :
    (joinedParts parts).count '\\' = parts.flatten.count '\\' := by
  induction parts with
  | nil => rfl
  | cons part parts ih =>
      rw [count_flatten_cons]
      cases parts with
      | nil => simp [joinedParts_singleton]
      | cons next parts =>
          rw [joinedParts_cons, List.count_append, List.count_cons_of_ne (by decide), ih]

/-- Masking keeps the last character. -/
theorem getLast?_masked (part : List Char) :
    (part.flatMap maskedChar).getLast? = part.getLast? := by
  rcases List.eq_nil_or_concat' part with rfl | ⟨front, c, rfl⟩
  · rfl
  · have hlast : (maskedChar c).getLast? = some c := by
      by_cases hpercent : c = '%'
      · rw [hpercent]
        rfl
      · rw [maskedChar, if_neg hpercent]
        rfl
    rw [List.flatMap_append, List.flatMap_singleton, List.getLast?_append, hlast,
      List.getLast?_append]
    rfl

/-- A pattern ends as the joined parts do. -/
theorem getLast?_partsPattern (parts : List (List Char)) :
    (partsPattern parts).getLast? = (joinedParts parts).getLast? := by
  induction parts with
  | nil => rfl
  | cons part parts ih =>
      cases parts with
      | nil => rw [partsPattern_singleton, joinedParts_singleton, getLast?_masked]
      | cons next parts =>
          rw [partsPattern_cons, joinedParts_cons, List.getLast?_append, List.getLast?_append,
            List.getLast?_cons, List.getLast?_cons, ih]
          rfl

/-- If the shortest match of the pattern is woven of the parts, they are literal. -/
theorem literally_of_woven {parts gaps : List (List Char)}
    (h : Woven parts gaps (shortestMatch (patternPieces (partsPattern parts)))) :
    (∀ part ∈ parts, '_' ∉ part) ∧ '\\' ∉ (joinedParts parts).dropLast := by
  obtain ⟨hcost, htwice⟩ := count_shortestMatch_le (partsPattern parts)
  have hslash := h.count_le '\\'
  have hpercent := h.count_le '%'
  have hunder := h.count_le '_'
  have hpattern := count_partsPattern parts
  have hjoined := count_joinedParts parts
  have hlast : lastBackslash (partsPattern parts) = lastBackslash (joinedParts parts) := by
    rw [lastBackslash, getLast?_partsPattern, lastBackslash]
  constructor
  · have hnone : parts.flatten.count '_' = 0 := by omega
    intro part hpart hmem
    exact List.count_eq_zero.mp hnone (List.mem_flatten.mpr ⟨part, hpart, hmem⟩)
  · have hfew : (joinedParts parts).count '\\' ≤ lastBackslash (joinedParts parts) := by omega
    apply List.count_eq_zero.mp
    by_cases hend : (joinedParts parts).getLast? = some '\\'
    · rw [lastBackslash, if_pos hend, ← List.dropLast_append_getLast? _ hend, List.count_append,
        List.count_singleton_self] at hfew
      omega
    · rw [lastBackslash, if_neg hend] at hfew
      have hsub := (List.dropLast_sublist (joinedParts parts)).count_le '\\'
      omega

/-- The comparison of a column with parts that may have anything between them. -/
def Criterion.likeParts (column : String) (parts : List String) : Criterion :=
  ⟨column, "LIKE", .list (.texts parts)⟩

/-- A comparison with parts is resolved to one with their pattern. -/
theorem Criterion.resolve_likeParts (schema : Schema) {column : String} {parts : List String}
    (hcolumn : column ≠ "") (hparts : parts ≠ []) :
    (likeParts column parts).resolve schema = .ok ⟨column, .like, .pattern parts⟩ := by
  have hnonempty : column.isEmpty = false := by simpa using hcolumn
  have hoperator : Operator.ofText "LIKE" = .ok .like := by decide +kernel
  cases parts with
  | nil => exact absurd rfl hparts
  | cons part parts =>
      unfold resolve likeParts
      rw [hnonempty, hoperator]
      rfl

/-- The joined parts as characters. -/
theorem toList_intercalate_parts (parts : List String) :
    ("%".intercalate parts).toList = joinedParts (parts.map String.toList) := by
  rw [String.toList_intercalate]
  rfl

/-- The text of a comparison with a pattern. -/
theorem Comparison.text_like (column : String) (o : Operand) :
    (Comparison.mk column .like o).text = Text.quoteName column ++ " LIKE " ++ o.text := by
  have hwords : " LIKE " = " " ++ "LIKE" ++ " " := by decide
  rw [hwords]
  simp only [text, Operator.text, String.append_assoc]

/-- The pattern of parts without a backslash in front of another character matches the
texts that are woven of texts like the parts. -/
theorem covers_partsPattern_iff {parts : List (List Char)} {text : List Char}
    (hparts : parts ≠ []) (hslash : '\\' ∉ (joinedParts parts).dropLast) :
    covers (patternPieces (partsPattern parts)) text = true ↔
      ∃ ts gaps, List.Forall₂ Agrees parts ts ∧ Woven ts gaps text := by
  rw [patternPieces_partsPattern hslash, covers_partsPieces_iff hparts]

/-- The pattern of parts matches the texts that are woven of them exactly if they have no
underscore and no backslash in front of another character. -/
theorem covers_woven_iff {parts : List (List Char)} (hparts : parts ≠ []) :
    (∀ text, covers (patternPieces (partsPattern parts)) text = true ↔
        ∃ gaps, Woven parts gaps text) ↔
      (∀ part ∈ parts, '_' ∉ part) ∧ '\\' ∉ (joinedParts parts).dropLast := by
  constructor
  · intro h
    obtain ⟨gaps, hwoven⟩ := (h _).mp (covers_shortestMatch _)
    exact literally_of_woven hwoven
  · rintro ⟨hunder, hslash⟩ text
    have hequal {ts : List (List Char)} : List.Forall₂ Agrees parts ts ↔ ts = parts :=
      forall₂_iff_eq fun part hpart _ => agrees_iff_eq (hunder part hpart)
    rw [covers_partsPattern_iff hparts hslash]
    constructor
    · rintro ⟨ts, gaps, hagrees, hwoven⟩
      rw [hequal.mp hagrees] at hwoven
      exact ⟨gaps, hwoven⟩
    · rintro ⟨gaps, hwoven⟩
      exact ⟨parts, gaps, hequal.mpr rfl, hwoven⟩

/-- **Parts are literal as far as they are escaped.**  A comparison with parts is written
with one string literal, and the literal is read as a pattern.  Where no backslash of the
parts stands in front of another character, the pattern matches the texts made of the
parts with anything between each two, and an underscore in a part stands for any
character.  So the parts are meant as they are exactly if they have neither an underscore
nor such a backslash. -/
theorem likeParts_reading (schema : Schema) {column : String} {parts : List String}
    (hcolumn : column ≠ "") (hparts : parts ≠ []) :
    ∃ comparison pattern,
      (Criterion.likeParts column parts).resolve schema = .ok comparison ∧
      comparison.text = Text.quoteName column ++ " LIKE " ++ comparison.operand.text ∧
      readToken .text comparison.operand.text = some (pattern, "") ∧
      ('\\' ∉ ("%".intercalate parts).toList.dropLast →
        ∀ text, matchesPattern pattern text = true ↔
          ∃ ts gaps, List.Forall₂ Agrees (parts.map String.toList) ts ∧
            Woven ts gaps text.toList) ∧
      ((∀ text, matchesPattern pattern text = true ↔
          ∃ gaps, Woven (parts.map String.toList) gaps text.toList) ↔
        (∀ part ∈ parts, '_' ∉ part.toList) ∧
          '\\' ∉ ("%".intercalate parts).toList.dropLast) := by
  have hchars : parts.map String.toList ≠ [] := by simpa using hparts
  refine ⟨⟨column, .like, .pattern parts⟩, .ofList (partsPattern (parts.map String.toList)),
    Criterion.resolve_likeParts schema hcolumn hparts, Comparison.text_like _ _,
    readToken_quotePattern parts, ?_, ?_⟩
  · intro hslash text
    rw [toList_intercalate_parts] at hslash
    rw [matchesPattern, String.toList_ofList]
    exact covers_partsPattern_iff hchars hslash
  · have hwoven := covers_woven_iff hchars
    rw [List.forall_mem_map] at hwoven
    rw [toList_intercalate_parts, ← hwoven]
    constructor
    · intro h text
      simpa [matchesPattern] using h (.ofList text)
    · intro h text
      rw [matchesPattern, String.toList_ofList]
      exact h text.toList

/-- Paths as a table of their own. -/
def paths : Schema where
  fields := [⟨"path", "varchar(255)", false, "''", false, "", none⟩]
  increment_le_one := by decide

/-- A percent sign and a backslash at the very end are literal. -/
theorem likeParts_reading_discount :
    ∃ comparison pattern,
      (Criterion.likeParts "path" ["50%", "", "it's\\"]).resolve paths = .ok comparison ∧
      readToken .text comparison.operand.text = some (pattern, "") ∧
      matchesPattern pattern "50% off, it's\\" = true := by
  obtain ⟨comparison, pattern, hresolve, _, hread, _, hliteral⟩ :=
    @likeParts_reading paths "path" ["50%", "", "it's\\"] (by decide) (by decide)
  refine ⟨comparison, pattern, hresolve, hread, (hliteral.mpr ?_ _).mpr ?_⟩
  · decide +kernel
  · exact ⟨[" off, ".toList, []], .more "50%".toList " off, ".toList
      (.more [] [] (.last "it's\\".toList))⟩

/-- A part that ends in a backslash takes the wildcard behind it for a percent sign, and an
underscore in a part stands for any character. -/
theorem likeParts_not_literal :
    (∃ comparison,
      (Criterion.likeParts "path" ["C:\\", ""]).resolve paths = .ok comparison ∧
      readToken .text comparison.operand.text = some ("C:\\%", "") ∧
      matchesPattern "C:\\%" "C:\\temp" = false ∧
      ∃ gaps, Woven (["C:\\", ""].map String.toList) gaps "C:\\temp".toList) ∧
    ∃ comparison,
      (Criterion.likeParts "path" ["a_b"]).resolve paths = .ok comparison ∧
      readToken .text comparison.operand.text = some ("a_b", "") ∧
      matchesPattern "a_b" "axb" = true ∧
      ¬∃ gaps, Woven (["a_b"].map String.toList) gaps "axb".toList := by
  have hcolumn : "path" ≠ "" := by decide
  constructor
  · refine ⟨_, Criterion.resolve_likeParts paths hcolumn (by decide), ?_, ?_, ?_⟩
    · decide +kernel
    · decide +kernel
    · exact ⟨["temp".toList], .more "C:\\".toList "temp".toList (.last [])⟩
  · refine ⟨_, Criterion.resolve_likeParts paths hcolumn (by decide), ?_, ?_, ?_⟩
    · decide +kernel
    · decide +kernel
    · rintro ⟨gaps, hwoven⟩
      cases hwoven

end TableMapper
