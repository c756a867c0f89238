import Mathlib.Data.Nat.Digits.Defs
import Mathlib.Tactic.SplitIfs
import TableMapper.Derive.Expansion

/-!
# Generated code as text

The code for a field is built as data and then written out: the name of its column stands
in a string literal, and what is said about the column stands behind it as calls, one
after another.  This file says what the text has of the two, and that both can be got from
it: a literal is read back as its text, so that no two names and no two lists of calls
are written alike.

* `stringValue?_literalChars` — what a literal stands for;
* `string?_stringText` — a literal is read back by the lexer of declarations;
* `MemberCode.text_column`, `FieldCode.text_of_column` — name and calls in the text;
* `MemberCode.text_column_inj` — name and calls from the text.
-/

namespace TableMapper.Derive

/-- A hexadecimal digit has its value, and is neither of the marks between digits. -/
theorem hexValue?_digitChar {d : Nat} (hd : d < 16) :
    Text.hexValue? d.digitChar = some d ∧ d.digitChar ≠ '_' ∧ d.digitChar ≠ '}' := by
  have hall : ∀ d < 16, Text.hexValue? d.digitChar = some d ∧ d.digitChar ≠ '_' ∧
      d.digitChar ≠ '}' := by
    decide
  exact hall d hd

/-- One more digit of a character's number. -/
theorem number?_digit {d count : Nat} (hd : d < 16) (hcount : count < 6) (value : Nat)
    (tail : List Char) :
    number? count value (d.digitChar :: tail) = number? (count + 1) (16 * value + d) tail := by
  obtain ⟨hvalue, hgap, hend⟩ := hexValue?_digitChar hd
  rw [number?]
  simp [hvalue, hgap, hend, Nat.ne_of_lt hcount]

/-- All digits of a number. -/
theorem number?_toDigits (n : Nat) {count : Nat} (value : Nat) (tail : List Char)
    (hcount : count + (Nat.toDigits 16 n).length ≤ 6) :
    number? count value (Nat.toDigits 16 n ++ tail) =
      number? (count + (Nat.toDigits 16 n).length)
        (value * 16 ^ (Nat.toDigits 16 n).length + n) tail := by
  induction n using Nat.strong_induction_on generalizing tail with
  | _ n ih =>
      by_cases hn : n < 16
      · rw [Nat.toDigits_of_lt_base hn] at hcount ⊢
        rw [List.singleton_append, number?_digit hn hcount, List.length_singleton, pow_one,
          Nat.mul_comm]
      · have hsmaller : n / 16 < n := Nat.div_lt_self (by omega) (by decide)
        have hlast : n % 16 < 16 := Nat.mod_lt n (by decide)
        rw [Nat.toDigits_of_base_le (by decide) (Nat.le_of_not_lt hn)] at hcount ⊢
        rw [List.length_append, List.length_singleton] at hcount ⊢
        have hvalue (v : Nat) : 16 * (v + n / 16) + n % 16 = v * 16 + n := by omega
        rw [List.append_assoc, ih _ hsmaller _ (by omega), List.singleton_append,
          number?_digit hlast (by omega), hvalue, pow_succ, Nat.mul_assoc, Nat.add_assoc]

/-- A character that is written by its number is read back. -/
theorem escape?_number (c : Char) (tail : List Char) :
    escape? false ('u' :: '{' :: (Nat.toDigits 16 c.toNat ++ '}' :: tail)) = some (c, tail) := by
  have hvalid : c.toNat.isValidChar := c.valid
  have hbound : c.toNat < 16 ^ 6 := by
    rcases hvalid with hlow | ⟨_, hhigh⟩ <;> omega
  have hlength := Nat.toDigits_length 16 c.toNat 6 (by decide) hbound
  have hpos : 0 < (Nat.toDigits 16 c.toNat).length :=
    List.length_pos_iff.mpr Nat.toDigits_ne_nil
  change number? 0 0 _ = _
  rw [number?_toDigits _ _ _ (by omega), number?]
  simp [hpos, hvalid]

/-- A backslash and what is behind it are read as one character. -/
theorem stringValue?_escape {c d : Char} {cs tail : List Char}
    (hd : d ≠ '\n' ∧ d ≠ '\r') (hescape : escape? false (d :: cs) = some (c, tail)) (n : Nat) :
    stringValue? false (n + 1) ('\\' :: d :: cs) =
      (stringValue? false n tail).map fun r => (c :: r.1, r.2) := by
  rw [stringValue?]
  · rw [hescape, Option.bind_eq_bind, Option.bind_some]
    dsimp only
    cases stringValue? false n tail <;> rfl
  · intro r heq
    cases heq
    exact hd.1 rfl
  · intro r heq
    cases heq
    exact hd.2 rfl

/-- One character of a literal is read as the character that it was written for. -/
theorem stringValue?_literalChar (c : Char) (next : Option Char) (n : Nat) (tail : List Char) :
    stringValue? false (n + 1) (literalChar c next ++ tail) =
      (stringValue? false n tail).map fun r => (c :: r.1, r.2) := by
  unfold literalChar
  split_ifs with hzero hdigit htab hreturn hline hquote hslash hhidden
  · rw [hzero]
    exact stringValue?_escape (by decide) rfl n
  · rw [hzero]
    exact stringValue?_escape (by decide) rfl n
  · rw [htab]
    exact stringValue?_escape (by decide) rfl n
  · rw [hreturn]
    exact stringValue?_escape (by decide) rfl n
  · rw [hline]
    exact stringValue?_escape (by decide) rfl n
  · rw [hquote]
    exact stringValue?_escape (by decide) rfl n
  · rw [hslash]
    exact stringValue?_escape (by decide) rfl n
  · have htext : numberEscape c ++ tail =
        '\\' :: 'u' :: '{' :: (Nat.toDigits 16 c.toNat ++ '}' :: tail) := by
      simp [numberEscape]
    rw [htext]
    exact stringValue?_escape (by decide) (escape?_number c tail) n
  · rw [List.singleton_append, stringValue?]
    · rw [Bool.false_and, if_neg Bool.false_ne_true]
    · exact hquote
    · exact fun _ h _ => hreturn h
    · exact hreturn
    · exact fun _ h _ => hslash h
    · exact fun _ h _ => hslash h
    · exact hslash

/-- A literal is read, up to the quote that ends it, as what it was written for. -/
theorem stringValue?_literalChars (cs : List Char) {n : Nat} (hn : cs.length < n)
    (rest : List Char) :
    stringValue? false n (literalChars cs ++ '\x22' :: rest) = some (cs, rest) := by
  induction cs generalizing n with
  | nil =>
      obtain ⟨n, rfl⟩ := Nat.exists_eq_succ_of_ne_zero (Nat.ne_zero_of_lt hn)
      rfl
  | cons c cs ih =>
      obtain ⟨n, rfl⟩ := Nat.exists_eq_succ_of_ne_zero (Nat.ne_zero_of_lt hn)
      rw [literalChars, List.append_assoc, stringValue?_literalChar,
        ih (Nat.lt_of_succ_lt_succ hn)]
      rfl

/-- A literal and what follows it, as characters. -/
theorem toList_stringText_append (s : String) (rest : List Char) :
    (stringText s).toList ++ rest = '\x22' :: (literalChars s.toList ++ '\x22' :: rest) := by
  simp [stringText]

/-- Literals are different, whatever follows them, if what they were written for is. -/
theorem stringText_append_inj {s t : String} {rest rest' : List Char}
    (h : (stringText s).toList ++ rest = (stringText t).toList ++ rest') :
    s = t ∧ rest = rest' := by
  have hread := stringValue?_literalChars s.toList
    (Nat.lt_succ_of_le (Nat.le_add_right s.toList.length t.toList.length)) rest
  have hread' := stringValue?_literalChars t.toList
    (Nat.lt_succ_of_le (Nat.le_add_left t.toList.length s.toList.length)) rest'
  rw [toList_stringText_append, toList_stringText_append, List.cons_inj_right] at h
  rw [h, hread'] at hread
  obtain ⟨hvalue, hrest⟩ := Prod.mk.inj (Option.some.inj hread)
  exact ⟨(String.toList_injective hvalue).symm, hrest.symm⟩

/-- No character of a literal is written as nothing. -/
theorem length_le_literalChars (cs : List Char) : cs.length ≤ (literalChars cs).length := by
  induction cs with
  | nil => exact Nat.le_refl 0
  | cons c cs ih =>
      have hpos : 0 < (literalChar c cs.head?).length := by
        unfold literalChar
        split_ifs <;> simp [numberEscape]
      rw [literalChars, List.length_append, List.length_cons]
      omega

/-- A literal is a token with the value that it was written for. -/
theorem string?_stringText (s : String) {rest : List Char} (hrest : word? rest = none) :
    string? ((stringText s).toList ++ rest) = some (.string s (stringText s), rest) := by
  have hlength := length_le_literalChars s.toList
  have hfuel : s.toList.length < (literalChars s.toList ++ '\x22' :: rest).length + 1 := by
    rw [List.length_append]
    omega
  have hskip : skipSuffix rest = rest := by
    rw [skipSuffix, hrest]
  have hspelling : spelling ((stringText s).toList ++ rest) rest = stringText s := by
    rw [spelling, List.length_append, Nat.add_sub_cancel, List.take_left, String.ofList_toList]
  have hopened (r : List Char) : string? ('\x22' :: r) =
      (stringValue? false (r.length + 1) r).map fun v =>
        (.string (.ofList v.1) (spelling ('\x22' :: r) (skipSuffix v.2)), skipSuffix v.2) := by
    simp only [string?]
    cases stringValue? false (r.length + 1) r <;> rfl
  rw [toList_stringText_append, hopened, stringValue?_literalChars s.toList hfuel,
    Option.map_some, hskip, ← toList_stringText_append, hspelling, String.ofList_toList]

/-- The method that says a thing about a column. -/
def settingMethod : Annotations.Setting → String
  | .tag _ => "annotations"
  | .sqlType _ => "sql_type"
  | .nullable _ => "nullable"
  | .default _ => "default_value"
  | .increment => "increment"
  | .onUpdate _ => "on_update"
  | .comment _ => "comment"

/-- The methods of calls. -/
def settingMethods : List String :=
  ["annotations", "sql_type", "nullable", "default_value", "increment", "on_update", "comment"]

/-- The calls behind a member, each with a space in front. -/
def chainText (settings : List Annotations.Setting) : String :=
  String.join (settings.map fun setting => " " ++ settingText setting)

/-- A call begins with its method. -/
theorem exists_settingText (setting : Annotations.Setting) :
    ∃ rest, (settingText setting).toList = '.' :: ' ' ::
      ((settingMethod setting).toList ++ ' ' :: rest) := by
  have hcall (method argument : String) : ∃ rest, (call method argument).toList =
      '.' :: ' ' :: (method.toList ++ ' ' :: rest) :=
    ⟨'(' :: (argument.toList ++ [')']), by simp [call]⟩
  cases setting <;> exact hcall _ _

/-- No call is written as nothing. -/
theorem settingText_ne_empty (setting : Annotations.Setting) : settingText setting ≠ "" := by
  obtain ⟨rest, hrest⟩ := exists_settingText setting
  intro hempty
  rw [hempty] at hrest
  cases hrest

/-- Parts stand behind each other with a space in front of each but the first. -/
theorem spaced_cons {first : String} {parts : List String} (hfirst : first ≠ "")
    (hparts : ∀ s ∈ parts, s ≠ "") :
    spaced (first :: parts) = first ++ String.join (parts.map (" " ++ ·)) := by
  have hall : (first :: parts).filter (fun p => !p.isEmpty) = first :: parts := by
    refine List.filter_eq_self.mpr (List.forall_mem_cons.mpr ⟨by simpa using hfirst, ?_⟩)
    intro s hs
    simpa using hparts s hs
  rw [spaced, hall]
  clear hall hfirst hparts
  induction parts generalizing first with
  | nil => simp
  | cons s parts ih =>
      rw [String.intercalate_cons_cons, ih, List.map_cons, String.join_cons, String.append_assoc,
        String.append_assoc]

/-- The text of a column: its name as a literal, and the calls in their order. -/
theorem MemberCode.text_column (type : List Token) (name : String)
    (settings : List Annotations.Setting) :
    (column type name settings).text =
      "myorm :: Member :: Column (" ++ ("myorm :: ColumnMember :: of :: < " ++
        Token.textAll type ++ " > (" ++ stringText name ++ ")" ++ chainText settings) ++ ")" := by
  have hfirst : "myorm :: ColumnMember :: of :: < " ++ Token.textAll type ++ " > (" ++
      stringText name ++ ")" ≠ "" := by
    simp
  have hcalls : ∀ s ∈ settings.map settingText, s ≠ "" :=
    List.forall_mem_map.mpr fun setting _ => settingText_ne_empty setting
  change "myorm :: Member :: Column (" ++ spaced (_ :: settings.map settingText) ++ ")" = _
  rw [spaced_cons hfirst hcalls, chainText, List.map_map]
  simp only [Function.comp_def]

example : (MemberCode.column [.ident "u32"] "r#type" [.tag "comment:kind", .increment]).text =
    "myorm :: Member :: Column (myorm :: ColumnMember :: of :: < u32 > (\x22r#type\x22)" ++
      " . annotations (myorm :: Annotations :: parse (\x22comment:kind\x22)) . increment ())" := by
  decide +kernel

/-- What begins alike begins with the same method. -/
theorem settingMethod_eq_of_append {x y : Annotations.Setting} {rest rest' : List Char}
    (h : (settingText x).toList ++ rest = (settingText y).toList ++ rest') :
    settingMethod x = settingMethod y := by
  have hcut (z : Annotations.Setting) (more : List Char) :
      ((settingMethod z).toList ++ ' ' :: more).takeWhile (· ≠ ' ') =
        (settingMethod z).toList := by
    have hspaceless : ∀ w ∈ settingMethods, ' ' ∉ w.toList := by decide
    have hmem : settingMethod z ∈ settingMethods := by
      cases z <;> simp [settingMethod, settingMethods]
    have hword : ∀ c ∈ (settingMethod z).toList, decide (c ≠ ' ') = true :=
      fun c hc => decide_eq_true fun heq => hspaceless _ hmem (heq ▸ hc)
    rw [List.takeWhile_append_of_pos hword, List.takeWhile_cons_of_neg (by decide),
      List.append_nil]
  obtain ⟨more, hx⟩ := exists_settingText x
  obtain ⟨more', hy⟩ := exists_settingText y
  rw [hx, hy] at h
  simp only [List.cons_append, List.append_assoc, List.cons.injEq, true_and] at h
  apply String.toList_injective
  rw [← hcut x (more ++ rest), ← hcut y (more' ++ rest'), h]

/-- Calls of one method that begin alike go on alike behind it. -/
theorem call_append_cancel {method s t : String} {rest rest' : List Char}
    (h : (call method s).toList ++ rest = (call method t).toList ++ rest') :
    s.toList ++ ')' :: rest = t.toList ++ ')' :: rest' := by
  simpa [call] using h

/-- A literal as the argument of a call is what the call says. -/
theorem call_stringText_append_inj {method s t : String} {rest rest' : List Char}
    (h : (call method (stringText s)).toList ++ rest =
      (call method (stringText t)).toList ++ rest') : s = t ∧ rest = rest' := by
  obtain ⟨hvalue, hrest⟩ := stringText_append_inj (call_append_cancel h)
  exact ⟨hvalue, List.tail_eq_of_cons_eq hrest⟩

/-- Calls are different, whatever follows them, if what they say is. -/
theorem settingText_append_inj {x y : Annotations.Setting} {rest rest' : List Char}
    (h : (settingText x).toList ++ rest = (settingText y).toList ++ rest') :
    x = y ∧ rest = rest' := by
  have hmethod := settingMethod_eq_of_append h
  cases x with
  | tag text =>
      cases y with
      | tag text' =>
          have hparsed := call_append_cancel h
          simp only [String.toList_append, List.append_assoc, List.append_cancel_left_eq]
            at hparsed
          obtain ⟨rfl, hrest⟩ := stringText_append_inj hparsed
          exact ⟨rfl, List.tail_eq_of_cons_eq (List.append_cancel_left hrest)⟩
      | _ => simp [settingMethod] at hmethod
  | sqlType text =>
      cases y with
      | sqlType text' =>
          obtain ⟨rfl, hrest⟩ := call_stringText_append_inj h
          exact ⟨rfl, hrest⟩
      | _ => simp [settingMethod] at hmethod
  | nullable b =>
      cases y with
      | nullable b' =>
          have hwords := call_append_cancel h
          cases b <;> cases b' <;> simp at hwords <;> exact ⟨rfl, hwords⟩
      | _ => simp [settingMethod] at hmethod
  | default text =>
      cases y with
      | default text' =>
          obtain ⟨rfl, hrest⟩ := call_stringText_append_inj h
          exact ⟨rfl, hrest⟩
      | _ => simp [settingMethod] at hmethod
  | increment =>
      cases y with
      | increment => exact ⟨rfl, List.append_cancel_left h⟩
      | _ => simp [settingMethod] at hmethod
  | onUpdate text =>
      cases y with
      | onUpdate text' =>
          obtain ⟨rfl, hrest⟩ := call_stringText_append_inj h
          exact ⟨rfl, hrest⟩
      | _ => simp [settingMethod] at hmethod
  | comment text =>
      cases y with
      | comment text' =>
          obtain ⟨rfl, hrest⟩ := call_stringText_append_inj h
          exact ⟨rfl, hrest⟩
      | _ => simp [settingMethod] at hmethod

/-- Lists of calls are different if what they say is. -/
theorem chainText_inj {xs ys : List Annotations.Setting}
    (h : (chainText xs).toList ++ [')'] = (chainText ys).toList ++ [')']) : xs = ys := by
  have hcons (z : Annotations.Setting) (zs : List Annotations.Setting) :
      (chainText (z :: zs)).toList ++ [')'] =
        ' ' :: ((settingText z).toList ++ ((chainText zs).toList ++ [')'])) := by
    simp [chainText]
  have hnil : (chainText []).toList ++ [')'] = [')'] := rfl
  induction xs generalizing ys with
  | nil =>
      cases ys with
      | nil => rfl
      | cons y ys =>
          rw [hnil, hcons] at h
          cases h
  | cons x xs ih =>
      cases ys with
      | nil =>
          rw [hnil, hcons] at h
          cases h
      | cons y ys =>
          rw [hcons, hcons] at h
          obtain ⟨rfl, hrest⟩ := settingText_append_inj (List.tail_eq_of_cons_eq h)
          rw [ih hrest]

/-- **Name and calls from the text.**  Columns of one type are written alike only if they
have one name and the same is said about them, in the same order. -/
theorem MemberCode.text_column_inj {type : List Token} {name name' : String}
    {settings settings' : List Annotations.Setting} :
    (column type name settings).text = (column type name' settings').text ↔
      name = name' ∧ settings = settings' := by
  constructor
  · intro h
    rw [text_column, text_column] at h
    have hlists := congrArg String.toList h
    simp only [String.toList_append, List.append_assoc, List.append_cancel_left_eq] at hlists
    obtain ⟨rfl, hrest⟩ := stringText_append_inj hlists
    exact ⟨rfl, chainText_inj (List.append_cancel_left hrest)⟩
  · rintro ⟨rfl, rfl⟩
    rfl

/-- **The code for a column as text.**  A field that is neither left out nor taken apart is
written with the name of its column, both as a member and where it is got from a row, and
with what is said about it in the order of its chain. -/
theorem FieldCode.text_of_column (f : DeclaredField) {s : FieldSettings} (hskip : s.skip = false)
    (hembed : s.embed = false) :
    (FieldCode.of f s).member.text = "myorm :: Member :: Column (" ++
        ("myorm :: ColumnMember :: of :: < " ++ Token.textAll f.type ++ " > (" ++
          stringText (columnName f s) ++ ")" ++ chainText s.chain) ++ ")" ∧
      (FieldCode.of f s).read.text = f.name ++ " : row . try_get :: < " ++
        Token.textAll f.type ++ " > (" ++ stringText (columnName f s) ++ ") ?" := by
  have hof : FieldCode.of f s = ⟨.column f.type (columnName f s) s.chain, .value f.name,
      .column f.name f.type (columnName f s)⟩ := by
    rw [FieldCode.of, hskip, hembed]
    rfl
  rw [hof]
  exact ⟨MemberCode.text_column _ _ _, rfl⟩

end TableMapper.Derive
