import TransformChain.Proofs.Parser.Reading
import TransformChain.Proofs.Text.Identifiers
import TransformChain.Template.Grammar

/-!
# Lexemes

The smallest parts of an expression's text.  White space may stand in front of a lexeme but not
inside it, and the parsers of words, numbers and strings read back the lexemes written for them.
-/

namespace TransformChain
namespace Template

open Text TransformChain.Parser

/-- A part of a text that no white space may cut. -/
inductive Lexeme where
  | word (name : String)
  | number (value : Nat)
  /-- A string between single quotes. -/
  | text (content : String)
  | symbol (name : String)
  /-- A name after a dot. -/
  | dotted (name : String)
  /-- A name with an opening parenthesis after it. -/
  | opening (name : String)
deriving Repr, DecidableEq

namespace Lexeme

def escape (c : Char) : List Char :=
  if c = '\\' ∨ c = '\'' then ['\\', c] else [c]

def chars : Lexeme → List Char
  | word name => name.toList
  | number value => Nat.toDigits 10 value
  | text content => '\'' :: (content.toList.flatMap escape ++ ['\''])
  | symbol name => name.toList
  | dotted name => '.' :: name.toList
  | opening name => name.toList ++ ['(']

/-- The lexeme is not longer than written if the text goes on like this. -/
def endsBefore : Lexeme → List Char → Bool
  | word _, rest | dotted _, rest => !rest.head?.any Grammar.isWordPart
  | number _, rest =>
      !rest.head?.any Char.isDigit && !(rest.head? == some '.' && rest.tail.head?.any Char.isDigit)
  | _, _ => true

def isSolid (l : Lexeme) : Bool :=
  l.chars.head?.any (fun c => !isGap c)

end Lexeme

/-- The text begins with the lexemes, with any white space in front of each of them. -/
inductive Spells : List Lexeme → List Char → List Char → Prop where
  | nil {rest : List Char} : Spells [] rest rest
  | cons {l : Lexeme} {ls : List Lexeme} {space mid rest : List Char} :
      (∀ c ∈ space, isGap c = true) → l.endsBefore mid = true → Spells ls mid rest →
      Spells (l :: ls) (space ++ (l.chars ++ mid)) rest

/-- As `Spells`, with white space in front of every closing brace. -/
inductive SpellsApart : List Lexeme → List Char → List Char → Prop where
  | nil {rest : List Char} : SpellsApart [] rest rest
  | cons {l : Lexeme} {ls : List Lexeme} {space mid rest : List Char} :
      (∀ c ∈ space, isGap c = true) → (l = .symbol "\x7d" → space ≠ []) →
      l.endsBefore mid = true → SpellsApart ls mid rest →
      SpellsApart (l :: ls) (space ++ (l.chars ++ mid)) rest

section Spelling

variable {l : Lexeme} {ls ls' : List Lexeme} {cs mid rest : List Char}

theorem SpellsApart.spells (h : SpellsApart ls cs rest) : Spells ls cs rest := by
  induction h with
  | nil => exact .nil
  | cons hspace _ hends _ ih => exact .cons hspace hends ih

theorem Spells.suffix (h : Spells ls cs rest) : rest <:+ cs := by
  induction h with
  | nil => exact List.suffix_rfl
  | cons _ _ _ ih =>
      exact (ih.trans (List.suffix_append _ _)).trans (List.suffix_append _ _)

theorem Spells.append (h : Spells ls cs mid) (h' : Spells ls' mid rest) :
    Spells (ls ++ ls') cs rest := by
  induction h with
  | nil => exact h'
  | cons hspace hends _ ih => exact .cons hspace hends (ih h')

theorem spells_append :
    Spells (ls ++ ls') cs rest ↔ ∃ mid, Spells ls cs mid ∧ Spells ls' mid rest := by
  constructor
  · induction ls generalizing cs with
    | nil => exact fun h => ⟨cs, .nil, h⟩
    | cons l ls ih =>
        intro h
        cases h with
        | cons hspace hends hrest =>
            rcases ih hrest with ⟨mid, hleft, hright⟩
            exact ⟨mid, .cons hspace hends hleft, hright⟩
  · rintro ⟨mid, hleft, hright⟩
    exact hleft.append hright

theorem Spells.ahead_le (h : Spells ls cs rest) : ahead rest ≤ ahead cs := by
  rcases h.suffix with ⟨front, rfl⟩
  have hrest := ahead_le_length rest
  unfold ahead dropGap at hrest ⊢
  rw [List.dropWhile_append]
  split
  · exact Nat.le_refl _
  · rw [List.length_append]
    omega

theorem Spells.first (h : Spells (l :: ls) cs rest) (hsolid : l.isSolid = true) :
    ∃ mid, dropGap cs = l.chars ++ mid ∧ l.endsBefore mid = true ∧
      ahead mid < ahead cs ∧ Spells ls mid rest := by
  cases h with
  | @cons _ _ space mid _ hspace hends hrest =>
      have hstart : dropGap (space ++ (l.chars ++ mid)) = l.chars ++ mid := by
        rw [dropGap_append hspace]
        unfold Lexeme.isSolid at hsolid
        cases hchars : l.chars with
        | nil => simp [hchars] at hsolid
        | cons c cs =>
            simp only [hchars, List.head?_cons, Option.any_some, Bool.not_eq_true'] at hsolid
            exact dropGap_cons hsolid
      refine ⟨mid, hstart, hends, ?_, hrest⟩
      have hnonempty : 0 < l.chars.length := by
        apply List.length_pos_of_ne_nil
        intro hnil
        simp [Lexeme.isSolid, hnil] at hsolid
      have hmid := ahead_le_length mid
      unfold ahead at hmid ⊢
      rw [hstart, List.length_append]
      omega

theorem spells_of_dropGap (hcs : dropGap cs = l.chars ++ mid)
    (hends : l.endsBefore mid = true) (h : Spells ls mid rest) : Spells (l :: ls) cs rest := by
  have htext : cs = cs.takeWhile isGap ++ (l.chars ++ mid) := by
    rw [← hcs]
    exact List.takeWhile_append_dropWhile.symm
  rw [htext]
  exact .cons (fun c hc => List.mem_takeWhile_imp hc) hends h

theorem spells_nil (h : Spells [] cs rest) : cs = rest := by
  cases h
  rfl

theorem Spells.character {symbol : String} {c : Char} (h : Spells (.symbol symbol :: ls) cs rest)
    (hsymbol : symbol.toList = [c]) (hc : isGap c = false) :
    ∃ mid, dropGap cs = c :: mid ∧ ahead mid < ahead cs ∧ Spells ls mid rest := by
  have hsolid : (Lexeme.symbol symbol).isSolid = true := by
    simp [Lexeme.isSolid, Lexeme.chars, hsymbol, hc]
  rcases h.first hsolid with ⟨mid, hstart, _, hshorter, hmid⟩
  refine ⟨mid, ?_, hshorter, hmid⟩
  rw [hstart, Lexeme.chars, hsymbol, List.singleton_append]

end Spelling

/-!
## Words
-/

namespace Grammar

theorem isWordPart_of_isWordStart {c : Char} (h : isWordStart c = true) : isWordPart c = true := by
  unfold isWordStart at h
  unfold isWordPart Char.isAlphanum
  rw [Bool.or_eq_true] at h ⊢
  exact h.imp_left fun halpha => by rw [halpha, Bool.true_or]

theorem isGap_eq_false_of_isWordPart {c : Char} (h : isWordPart c = true) : isGap c = false := by
  rw [Bool.eq_false_iff]
  intro hgap
  simp only [isGap, Bool.or_eq_true, beq_iff_eq] at hgap
  rcases hgap with ((rfl | rfl) | rfl) | rfl <;> exact absurd h (by decide)

theorem takeWhile_eq_nil {p : Char → Bool} {cs : List Char} (h : (!cs.head?.any p) = true) :
    cs.takeWhile p = [] := by
  cases cs with
  | nil => rfl
  | cons c cs =>
      rw [List.head?_cons, Option.any_some, Bool.not_eq_true'] at h
      rw [List.takeWhile_cons_of_neg]
      simp [h]

theorem dropWhile_eq_self {p : Char → Bool} {cs : List Char} (h : (!cs.head?.any p) = true) :
    cs.dropWhile p = cs := by
  cases cs with
  | nil => rfl
  | cons c cs =>
      rw [List.head?_cons, Option.any_some, Bool.not_eq_true'] at h
      rw [List.dropWhile_cons_of_neg]
      simp [h]

theorem word_cons (c : Char) (rest : List Char) :
    word (c :: rest) =
      if isWordStart c then
        .accepted (String.ofList (c :: rest.takeWhile isWordPart)) (rest.dropWhile isWordPart)
      else .rejected (c :: rest) := rfl

theorem word_append {name : String} {rest : List Char} (hname : isIdentifier name = true)
    (hends : (!rest.head?.any isWordPart) = true) :
    word (name.toList ++ rest) = .accepted name rest := by
  rcases (isIdentifier_iff name).mp hname with ⟨c, cs, hchars, hstart, hrest⟩
  have hparts : ∀ d ∈ cs, isWordPart d = true := hrest
  have htaken : (cs ++ rest).takeWhile isWordPart = cs := by
    rw [List.takeWhile_append_of_pos hparts, takeWhile_eq_nil hends, List.append_nil]
  have hleft : (cs ++ rest).dropWhile isWordPart = rest := by
    rw [List.dropWhile_append_of_pos hparts, dropWhile_eq_self hends]
  rw [hchars, List.cons_append, word_cons, htaken, hleft, ← hchars, String.ofList_toList]
  exact if_pos hstart

theorem word_accepted {cs rest : List Char} {name : String} (h : word cs = .accepted name rest) :
    isIdentifier name = true ∧ cs = name.toList ++ rest ∧
      (!rest.head?.any isWordPart) = true := by
  cases cs with
  | nil => cases h
  | cons c cs =>
      rw [word_cons] at h
      split at h
      case isFalse => cases h
      case isTrue hstart =>
        cases h
        refine ⟨?_, ?_, ?_⟩
        · rw [isIdentifier_iff, String.toList_ofList]
          exact ⟨c, _, rfl, hstart, fun d hd => List.mem_takeWhile_imp hd⟩
        · rw [String.toList_ofList, List.cons_append, List.takeWhile_append_dropWhile]
        · cases hrest : cs.dropWhile isWordPart with
          | nil => rfl
          | cons d ds =>
              have hd := List.head?_dropWhile_not isWordPart cs
              rw [hrest] at hd
              simpa using hd

theorem length_pos_of_isIdentifier {name : String} (hname : isIdentifier name = true) :
    0 < name.toList.length := by
  rcases (isIdentifier_iff name).mp hname with ⟨c, cs, hchars, _, _⟩
  rw [hchars]
  exact Nat.succ_pos _

theorem isSolid_of_isIdentifier {name : String} (hname : isIdentifier name = true) :
    (Lexeme.word name).isSolid = true := by
  rcases (isIdentifier_iff name).mp hname with ⟨c, cs, hchars, hstart, _⟩
  simp [Lexeme.isSolid, Lexeme.chars, hchars,
    isGap_eq_false_of_isWordPart (isWordPart_of_isWordStart hstart)]

end Grammar

theorem Spells.word {name : String} {ls : List Lexeme} {cs rest : List Char}
    (h : Spells (.word name :: ls) cs rest) (hname : isIdentifier name = true) :
    ∃ mid, Grammar.word (dropGap cs) = .accepted name mid ∧ ahead mid < ahead cs ∧
      Spells ls mid rest := by
  rcases h.first (Grammar.isSolid_of_isIdentifier hname) with ⟨mid, hstart, hends, hshorter, hmid⟩
  refine ⟨mid, ?_, hshorter, hmid⟩
  rw [hstart]
  exact Grammar.word_append hname hends

namespace Grammar

/-!
## Strings and numbers
-/

theorem stringBody_cons {quote c : Char} {rest : List Char} (hescape : c ≠ '\\')
    (hquote : c ≠ quote) (hrest : rest ≠ []) :
    stringBody quote (c :: rest) =
      match stringBody quote rest with
      | some (content, after) => some (c :: content, after)
      | none => none := by
  cases rest with
  | nil => exact absurd rfl hrest
  | cons d rest =>
      refine (if_neg hescape).trans ((if_neg hquote).trans ?_)
      cases stringBody quote (d :: rest) <;> rfl

theorem stringBody_escape (content rest : List Char) :
    stringBody '\'' (content.flatMap Lexeme.escape ++ '\'' :: rest) = some (content, rest) := by
  induction content with
  | nil => cases rest <;> rfl
  | cons c content ih =>
      rw [List.flatMap_cons, List.append_assoc]
      unfold Lexeme.escape
      split
      case isTrue hspecial =>
        have hplain : unescape c = c := by rcases hspecial with rfl | rfl <;> rfl
        rw [List.cons_append, List.cons_append, List.nil_append, stringBody, if_pos rfl]
        unfold Lexeme.escape at ih
        rw [ih, hplain]
      case isFalse hplain =>
        rw [not_or] at hplain
        rw [List.cons_append, List.nil_append,
          stringBody_cons hplain.left hplain.right (by simp)]
        unfold Lexeme.escape at ih
        rw [ih]

theorem takeWhile1_append {p : Char → Bool} {taken rest : List Char} (hne : taken ≠ [])
    (htaken : ∀ c ∈ taken, p c = true) (hends : (!rest.head?.any p) = true) :
    takeWhile1 p (taken ++ rest) = .accepted taken rest := by
  unfold takeWhile1
  rw [List.takeWhile_append_of_pos htaken, List.dropWhile_append_of_pos htaken,
    takeWhile_eq_nil hends, dropWhile_eq_self hends, List.append_nil]
  cases taken with
  | nil => exact absurd rfl hne
  | cons c cs => rfl

theorem refuses_fractionDigits {rest : List Char}
    (h : (!(rest.head? == some '.' && rest.tail.head?.any Char.isDigit)) = true) :
    RefusesHere fractionDigits rest := by
  cases rest with
  | nil => exact ⟨[], rfl⟩
  | cons c rest =>
      by_cases hdot : c = '.'
      · subst hdot
        refine ⟨rest, ?_⟩
        have hnone : rest.takeWhile Char.isDigit = [] := takeWhile_eq_nil (by simpa using h)
        change takeWhile1 Char.isDigit rest = _
        unfold takeWhile1
        rw [hnone]
      · refine ⟨c :: rest, bind_rejected ?_⟩
        unfold char satisfy
        simp [hdot]

theorem number_toDigits {n : Nat} {rest : List Char} (hn : (n : Int) ≤ Decimal.greatestInt)
    (hends : (Lexeme.number n).endsBefore rest = true) :
    number (Nat.toDigits 10 n ++ rest) =
      .accepted (.lit (.int (Int64.ofInt n))) rest := by
  have hdigits : ∀ c ∈ Nat.toDigits 10 n, c.isDigit = true :=
    fun c hc => Nat.isDigit_of_mem_toDigits (by decide) (by decide) hc
  simp only [Lexeme.endsBefore, Bool.and_eq_true] at hends
  have hwhole : takeWhile1 Char.isDigit (Nat.toDigits 10 n ++ rest)
      = .accepted (Nat.toDigits 10 n) rest :=
    takeWhile1_append Nat.toDigits_ne_nil hdigits hends.left
  have hfraction : Parser.optional fractionDigits rest = .accepted none rest :=
    (refuses_fractionDigits hends.right).optional_eq
  have hvalue : numberValue? (Nat.toDigits 10 n) none = some (.int (Int64.ofInt n)) := by
    have hread : Decimal.natOfDigits (Nat.toDigits 10 n) = n := Nat.ofDigitChars_ten_toDigits
    have hfits : Decimal.toInt64? n = some (Int64.ofInt n) := by
      have hleast : Decimal.smallestInt ≤ n :=
        Int.le_trans (by decide) (Int.natCast_nonneg n)
      unfold Decimal.toInt64?
      rw [if_pos (by simp [hleast, hn])]
    unfold numberValue?
    simp only [hread, hfits, Option.map_some]
  refine mapSome_accepted (a := (Nat.toDigits 10 n, none)) ?_ ?_
  · rw [bind_accepted hwhole, bind_accepted hfraction]
    rfl
  · rw [hvalue]
    rfl

end Grammar

end Template
end TransformChain
