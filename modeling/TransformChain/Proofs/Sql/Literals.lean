import TransformChain.Decimal.Reading
import TransformChain.Literal
import TransformChain.Proofs.Text.Splicing

/-!
# Reading literals back

A row of SQL literals is read from the left: a string ends with the first quote that is not doubled,
and a word or number with the comma behind it.  What is written for a value reads back as the
constants in it, so that no text, whatever quotes and commas it holds, reaches out of its literal.
-/

namespace TransformChain
namespace Literal

/-!
## Constants
-/

inductive Constant where
  | null
  | bool (b : Bool)
  | integer (n : Int)
  | text (s : String)
deriving Repr, DecidableEq

mutual

/-- The constants in a value, from left to right.  Floats and mappings are not made of them. -/
def constants : Value → List Constant
  | .null => [.null]
  | .bool b => [.bool b]
  | .int i => [.integer i.toInt]
  | .str s => [.text s]
  | .list items => constantsAll items
  | .float _ => []
  | .map _ => []

def constantsAll : List Value → List Constant
  | [] => []
  | item :: rest => constants item ++ constantsAll rest

end

/-- Constants, and lists of them at any depth that are not empty. -/
inductive Filled : Value → Prop where
  | null : Filled .null
  | bool (b : Bool) : Filled (.bool b)
  | int (i : Int64) : Filled (.int i)
  | str (s : String) : Filled (.str s)
  | list {items : List Value} : items ≠ [] → (∀ item ∈ items, Filled item) → Filled (.list items)

/-- What can be written as a row of literals.  Only the outermost list may be empty. -/
inductive Quotable : Value → Prop where
  | filled {v : Value} : Filled v → Quotable v
  | empty : Quotable (.list [])

/-!
## Reading
-/

/-- The content of a string behind its opening quote, and what follows the quote that ends it. -/
def readQuoted : List Char → Option (List Char × List Char)
  | [] => none
  | [c] => if c = '\'' then some ([], []) else none
  | c :: d :: rest =>
      if c ≠ '\'' then (readQuoted (d :: rest)).map fun found => (c :: found.1, found.2)
      else if d = '\'' then (readQuoted rest).map fun found => ('\'' :: found.1, found.2)
      else some ([], d :: rest)

def natural? (digits : List Char) : Option Nat :=
  if digits ≠ [] ∧ digits.all Char.isDigit then some (Decimal.natOfDigits digits) else none

def integer? : List Char → Option Int
  | [] => none
  | c :: rest =>
      if c = '-' then (natural? rest).map fun n => -(n : Int)
      else (natural? (c :: rest)).map fun n => (n : Int)

def bare? (word : List Char) : Option Constant :=
  if word = "NULL".toList then some .null
  else if word = "TRUE".toList then some (.bool true)
  else if word = "FALSE".toList then some (.bool false)
  else (integer? word).map .integer

def readOne : List Char → Option (Constant × List Char)
  | [] => none
  | c :: rest =>
      if c = '\'' then (readQuoted rest).map fun found => (.text (String.ofList found.1), found.2)
      else
        (bare? ((c :: rest).takeWhile (fun d => d != ','))).map fun constant =>
          (constant, (c :: rest).dropWhile (fun d => d != ','))

theorem length_of_readQuoted {cs content rest : List Char}
    (h : readQuoted cs = some (content, rest)) : rest.length ≤ cs.length := by
  fun_induction readQuoted cs generalizing content rest with
  | case1 => cases h
  | case2 =>
      cases h
      exact Nat.zero_le _
  | case3 => cases h
  | case4 c d more hc ih =>
      rcases Option.map_eq_some_iff.mp h with ⟨⟨inside, after⟩, hfound, heq⟩
      cases heq
      exact Nat.le_succ_of_le (ih hfound)
  | case5 c more hc ih =>
      rcases Option.map_eq_some_iff.mp h with ⟨⟨inside, after⟩, hfound, heq⟩
      cases heq
      exact Nat.le_succ_of_le (Nat.le_succ_of_le (ih hfound))
  | case6 =>
      cases h
      exact Nat.le_succ _

theorem length_of_readOne {cs rest : List Char} {constant : Constant}
    (h : readOne cs = some (constant, rest)) : rest.length ≤ cs.length := by
  cases cs with
  | nil => cases h
  | cons c cs =>
      rw [readOne] at h
      by_cases hc : c = '\''
      · rw [if_pos hc] at h
        rcases Option.map_eq_some_iff.mp h with ⟨⟨inside, after⟩, hfound, heq⟩
        cases heq
        exact Nat.le_succ_of_le (length_of_readQuoted hfound)
      · rw [if_neg hc] at h
        rcases Option.map_eq_some_iff.mp h with ⟨word, -, heq⟩
        cases heq
        exact (List.dropWhile_sublist _).length_le

def readMany (cs : List Char) : Option (List Constant) :=
  match _hread : readOne cs with
  | none => none
  | some (constant, []) => some [constant]
  | some (_, [_]) => none
  | some (constant, c :: d :: rest) =>
      if c = ',' ∧ d = ' ' then (readMany rest).map (constant :: ·) else none
termination_by cs.length
decreasing_by
  have hlength := length_of_readOne _hread
  simp only [List.length_cons] at hlength
  omega

def readRow (row : String) : Option (List Constant) :=
  if row = "" then some [] else readMany row.toList

/-!
## Single literals
-/

def Constant.literal : Constant → String
  | null => "NULL"
  | bool true => "TRUE"
  | bool false => "FALSE"
  | integer (.ofNat n) => Decimal.digitText n
  | integer (.negSucc n) => "-" ++ Decimal.digitText (n + 1)
  | text s => quoteString s

/-- Nothing that could continue a literal stands in front of the text. -/
def Ends (rest : List Char) : Prop :=
  rest.head?.all (fun c => c == ',') = true

section Single

variable {rest : List Char}

theorem ne_quote_of_ends {c : Char} (h : Ends (c :: rest)) : c ≠ '\'' := by
  rintro rfl
  cases h

/-- A string ends with its closing quote, whatever quotes stand in it. -/
theorem readQuoted_escape (h : Ends rest) (content : List Char) :
    readQuoted (escape content ++ '\'' :: rest) = some (content, rest) := by
  induction content with
  | nil =>
      cases rest with
      | nil => rfl
      | cons d rest =>
          rw [escape, List.nil_append, readQuoted, if_neg (not_not.mpr rfl),
            if_neg (ne_quote_of_ends h)]
  | cons c content ih =>
      by_cases hc : c = '\''
      · rw [hc, escape, if_pos rfl, List.cons_append, List.cons_append, readQuoted,
          if_neg (not_not.mpr rfl), if_pos rfl, ih]
        rfl
      · rw [escape, if_neg hc, List.cons_append]
        cases hmid : escape content ++ '\'' :: rest with
        | nil => simp at hmid
        | cons d mid =>
            rw [readQuoted, if_pos hc, ← hmid, ih]
            rfl

theorem natural?_toDigits (n : Nat) : natural? (Nat.toDigits 10 n) = some n := by
  have hdigits : (Nat.toDigits 10 n).all Char.isDigit = true :=
    List.all_eq_true.mpr fun c hc => Nat.isDigit_of_mem_toDigits (by decide) (by decide) hc
  have hread : Decimal.natOfDigits (Nat.toDigits 10 n) = n := Nat.ofDigitChars_ten_toDigits
  unfold natural?
  rw [if_pos ⟨Nat.toDigits_ne_nil, hdigits⟩, hread]

theorem toList_digitText (n : Nat) : (Decimal.digitText n).toList = Nat.toDigits 10 n :=
  String.toList_ofList

theorem exists_toDigits (n : Nat) :
    ∃ c rest, Nat.toDigits 10 n = c :: rest ∧ c.isDigit = true := by
  cases hdigits : Nat.toDigits 10 n with
  | nil => exact absurd hdigits Nat.toDigits_ne_nil
  | cons c rest =>
      have hmem : c ∈ Nat.toDigits 10 n := by
        rw [hdigits]
        exact List.mem_cons_self
      exact ⟨c, rest, rfl, Nat.isDigit_of_mem_toDigits (by decide) (by decide) hmem⟩

theorem mem_integer {n : Int} {c : Char} (h : c ∈ (Constant.integer n).literal.toList) :
    c = '-' ∨ c.isDigit = true := by
  have hdigit : ∀ {m : Nat}, c ∈ Nat.toDigits 10 m → c.isDigit = true :=
    fun hmem => Nat.isDigit_of_mem_toDigits (by decide) (by decide) hmem
  cases n with
  | ofNat n =>
      rw [Constant.literal, toList_digitText] at h
      exact Or.inr (hdigit h)
  | negSucc n =>
      rw [Constant.literal, String.toList_append, toList_digitText] at h
      rcases List.mem_cons.mp h with hsign | hmem
      · exact Or.inl hsign
      · exact Or.inr (hdigit hmem)

theorem integer?_literal (n : Int) : integer? (Constant.integer n).literal.toList = some n := by
  cases n with
  | ofNat n =>
      rcases exists_toDigits n with ⟨c, rest, hdigits, hc⟩
      have hsign : c ≠ '-' := by
        rintro rfl
        cases hc
      rw [Constant.literal, toList_digitText, hdigits, integer?, if_neg hsign, ← hdigits,
        natural?_toDigits]
      rfl
  | negSucc n =>
      have htext : (Constant.integer (.negSucc n)).literal.toList =
          '-' :: Nat.toDigits 10 (n + 1) := by
        rw [Constant.literal, String.toList_append, toList_digitText]
        rfl
      rw [htext, integer?, if_pos rfl, natural?_toDigits]
      rfl

theorem bare?_of_integer? {word : List Char} {n : Int} (h : integer? word = some n) :
    bare? word = some (.integer n) := by
  have hne : ∀ {keyword : List Char}, integer? keyword = none → word ≠ keyword := by
    rintro keyword hnone rfl
    rw [hnone] at h
    cases h
  unfold bare?
  rw [if_neg (hne (by decide)), if_neg (hne (by decide)), if_neg (hne (by decide)), h]
  rfl

/-- A word that stands without quotes: it begins with none, and holds no comma. -/
structure Bare (word : List Char) (constant : Constant) : Prop where
  read : bare? word = some constant
  first : ∃ c rest, word = c :: rest ∧ c ≠ '\''
  comma : ∀ c ∈ word, (c != ',') = true

theorem bare_integer (n : Int) : Bare (Constant.integer n).literal.toList (.integer n) := by
  have hread := integer?_literal n
  have hchars : ∀ c ∈ (Constant.integer n).literal.toList, c ≠ '\'' ∧ c ≠ ',' := by
    intro c hc
    rcases mem_integer hc with rfl | hdigit
    · decide
    · constructor <;> rintro rfl <;> cases hdigit
  refine ⟨bare?_of_integer? hread, ?_, fun c hc => bne_iff_ne.mpr (hchars c hc).right⟩
  cases hword : (Constant.integer n).literal.toList with
  | nil =>
      rw [hword] at hread
      cases hread
  | cons c rest =>
      rw [hword] at hchars
      exact ⟨c, rest, rfl, (hchars c List.mem_cons_self).left⟩

theorem Bare.readOne_eq {word : List Char} {constant : Constant} (h : Bare word constant)
    (hrest : Ends rest) : readOne (word ++ rest) = some (constant, rest) := by
  have htake : (word ++ rest).takeWhile (fun c => c != ',') = word := by
    rw [List.takeWhile_append_of_pos h.comma]
    cases rest with
    | nil => simp
    | cons c rest => simp_all [Ends]
  have hdrop : (word ++ rest).dropWhile (fun c => c != ',') = rest := by
    rw [List.dropWhile_append_of_pos h.comma]
    cases rest with
    | nil => simp
    | cons c rest => simp_all [Ends]
  rcases h.first with ⟨c, more, hword, hc⟩
  have hcons : word ++ rest = c :: (more ++ rest) := by rw [hword, List.cons_append]
  rw [hcons] at htake hdrop ⊢
  rw [readOne, if_neg hc, htake, hdrop, h.read]
  rfl

theorem readOne_literal (constant : Constant) (h : Ends rest) :
    readOne (constant.literal.toList ++ rest) = some (constant, rest) := by
  have hkeyword : ∀ {keyword : String} {c : Constant}, bare? keyword.toList = some c →
      (keyword.toList.head?.any (fun c => c != '\'') &&
        keyword.toList.all (fun c => c != ',')) = true → Bare keyword.toList c := by
    intro keyword c hread hchars
    rw [Bool.and_eq_true, List.all_eq_true, Option.any_eq_true] at hchars
    rcases hchars with ⟨⟨first, hfirst, hquote⟩, hcomma⟩
    refine ⟨hread, ?_, hcomma⟩
    cases hword : keyword.toList with
    | nil =>
        rw [hword] at hfirst
        cases hfirst
    | cons d more =>
        rw [hword] at hfirst
        cases hfirst
        exact ⟨first, more, rfl, bne_iff_ne.mp hquote⟩
  cases constant with
  | null => exact (hkeyword (by decide) (by decide)).readOne_eq h
  | bool b =>
      cases b with
      | true => exact (hkeyword (by decide) (by decide)).readOne_eq h
      | false => exact (hkeyword (by decide) (by decide)).readOne_eq h
  | integer n => exact (bare_integer n).readOne_eq h
  | text s =>
      have htext : (Constant.text s).literal.toList ++ rest =
          '\'' :: (escape s.toList ++ '\'' :: rest) := by
        simp [Constant.literal, quoteString]
      rw [htext, readOne, if_pos rfl, readQuoted_escape h]
      simp

end Single

/-!
## Rows
-/

def laterLiterals (constants : List Constant) : List Char :=
  constants.flatMap fun constant => (", " ++ constant.literal).toList

theorem ends_laterLiterals (constants : List Constant) : Ends (laterLiterals constants) := by
  cases constants with
  | nil => rfl
  | cons constant rest => simp [Ends, laterLiterals]

section Rows

variable {cs rest : List Char} {constant : Constant}

theorem readMany_last (h : readOne cs = some (constant, [])) : readMany cs = some [constant] := by
  rw [readMany]
  split <;> simp_all

theorem readMany_more (h : readOne cs = some (constant, ',' :: ' ' :: rest)) :
    readMany cs = (readMany rest).map (constant :: ·) := by
  rw [readMany]
  split <;> simp_all

theorem readMany_literals (first : Constant) (constants : List Constant) :
    readMany (first.literal.toList ++ laterLiterals constants) = some (first :: constants) := by
  have hfirst := readOne_literal first (ends_laterLiterals constants)
  induction constants generalizing first with
  | nil => exact readMany_last hfirst
  | cons second rest ih =>
      have hlater : laterLiterals (second :: rest) =
          ',' :: ' ' :: (second.literal.toList ++ laterLiterals rest) := by
        simp [laterLiterals]
      rw [hlater] at hfirst
      have hsecond := readOne_literal second (ends_laterLiterals rest)
      rw [hlater, readMany_more hfirst, ih second hsecond]
      rfl

end Rows

/-!
## Values
-/

def IsRow (text : String) (constants : List Constant) : Prop :=
  text = Text.join ", " (constants.map Constant.literal)

theorem isRow_quoteAll {items : List Value} (hne : items ≠ [])
    (h : ∀ item ∈ items, constants item ≠ [] ∧ IsRow (quote item) (constants item)) :
    constantsAll items ≠ [] ∧ IsRow (Text.join ", " (quoteAll items)) (constantsAll items) := by
  induction items with
  | nil => exact absurd rfl hne
  | cons item rest ih =>
      obtain ⟨⟨hitem, hrow⟩, hrest⟩ := List.forall_mem_cons.mp h
      refine ⟨List.append_ne_nil_of_left_ne_nil hitem _, ?_⟩
      unfold IsRow at hrow ⊢
      cases rest with
      | nil =>
          rw [constantsAll, constantsAll, List.append_nil, ← hrow]
          rfl
      | cons next others =>
          obtain ⟨hothers, htext⟩ := ih (List.cons_ne_nil _ _) hrest
          have hall : quoteAll (next :: others) ≠ [] := List.cons_ne_nil _ _
          have hsplit : constantsAll (item :: next :: others) =
              constants item ++ constantsAll (next :: others) := rfl
          rw [quoteAll, Text.join_cons_of_ne_nil _ _ hall, htext, hrow, hsplit, List.map_append,
            Text.join_append _ (mt List.map_eq_nil_iff.mp hitem)
              (mt List.map_eq_nil_iff.mp hothers)]

theorem Filled.isRow {v : Value} (h : Filled v) :
    constants v ≠ [] ∧ IsRow (quote v) (constants v) := by
  induction h with
  | null => exact ⟨List.cons_ne_nil _ _, rfl⟩
  | bool b => exact ⟨List.cons_ne_nil _ _, by cases b <;> rfl⟩
  | int i =>
      refine ⟨List.cons_ne_nil _ _, ?_⟩
      change Value.intText i = Constant.literal (.integer i.toInt)
      unfold Value.intText
      cases i.toInt <;> rfl
  | str s => exact ⟨List.cons_ne_nil _ _, rfl⟩
  | list hne _ ih => exact isRow_quoteAll hne ih

theorem Quotable.isRow {v : Value} (h : Quotable v) : IsRow (quote v) (constants v) := by
  cases h with
  | filled h => exact h.isRow.right
  | empty => rfl

theorem toList_row (before : List Constant) (constant : Constant) (after : List Constant) :
    (Text.join ", " ((before ++ constant :: after).map Constant.literal)).toList =
      before.flatMap (fun earlier => (earlier.literal ++ ", ").toList) ++
        (constant.literal.toList ++ laterLiterals after) := by
  induction before with
  | nil =>
      rw [List.nil_append, List.map_cons, Text.toList_join_cons, List.flatMap_map]
      rfl
  | cons first before ih =>
      have hne : (before ++ constant :: after).map Constant.literal ≠ [] := by simp
      rw [List.cons_append, List.map_cons, Text.join_cons_of_ne_nil _ _ hne,
        String.toList_append, ih]
      simp

theorem readRow_row (constants : List Constant) :
    readRow (Text.join ", " (constants.map Constant.literal)) = some constants := by
  cases constants with
  | nil => rfl
  | cons first rest =>
      have htext := toList_row [] first rest
      have hread := readMany_literals first rest
      rw [List.nil_append, List.flatMap_nil, List.nil_append] at htext
      rw [← htext] at hread
      have hne : Text.join ", " ((first :: rest).map Constant.literal) ≠ "" := by
        intro hempty
        rw [hempty, String.toList_empty, readMany] at hread
        cases hread
      unfold readRow
      rw [if_neg hne, hread]

/-- What is written for a value is read from the left as the constants in it, in order and with a
comma and a space between neighbours.  A text among them stands in quotes behind the literals
before it, and the quote that ends it is the one that was written behind it, so that all of it stays
inside.  Values of different constants are written differently. -/
theorem quote_reads_constants {v : Value} (h : Quotable v) :
    readRow (quote v) = some (constants v) ∧
      (∀ before s after, constants v = before ++ .text s :: after →
        ∃ rest, (quote v).toList =
            before.flatMap (fun earlier => (earlier.literal ++ ", ").toList) ++
              '\'' :: (escape s.toList ++ '\'' :: rest) ∧
          readQuoted (escape s.toList ++ '\'' :: rest) = some (s.toList, rest)) ∧
      ∀ w, Quotable w → quote w = quote v → constants w = constants v := by
  have hreads : ∀ {u : Value}, Quotable u → readRow (quote u) = some (constants u) := by
    intro u hu
    rw [hu.isRow, readRow_row]
  refine ⟨hreads h, ?_, ?_⟩
  · intro before s after hconstants
    refine ⟨laterLiterals after, ?_, readQuoted_escape (ends_laterLiterals after) s.toList⟩
    rw [h.isRow, hconstants, toList_row]
    simp [Constant.literal, quoteString]
  · intro w hw hsame
    have hread := hreads hw
    rw [hsame, hreads h] at hread
    exact (Option.some.inj hread).symm

/-- A text that looks like the end of its literal with another one behind it stays in its own. -/
theorem quote_reads_quotedSeparators :
    Quotable (.list [.str "a', 'b", .list [.int (-7), .str "'"], .bool true, .null]) ∧
      quote (.list [.str "a', 'b", .list [.int (-7), .str "'"], .bool true, .null]) =
        "'a'', ''b', -7, '''', TRUE, NULL" ∧
      readRow "'a'', ''b', -7, '''', TRUE, NULL" =
        some [.text "a', 'b", .integer (-7), .text "'", .bool true, .null] := by
  have hfilled :
      Filled (.list [.str "a', 'b", .list [.int (-7), .str "'"], .bool true, .null]) := by
    refine .list (List.cons_ne_nil _ _) ?_
    simp only [List.forall_mem_cons]
    refine ⟨.str _, .list (List.cons_ne_nil _ _) ?_, .bool _, .null, nofun⟩
    simp only [List.forall_mem_cons]
    exact ⟨.int _, .str _, nofun⟩
  have htext : quote (.list [.str "a', 'b", .list [.int (-7), .str "'"], .bool true, .null]) =
      "'a'', ''b', -7, '''', TRUE, NULL" := by decide +kernel
  have hread := (quote_reads_constants (.filled hfilled)).left
  rw [htext] at hread
  exact ⟨.filled hfilled, htext, hread⟩

end Literal
end TransformChain
