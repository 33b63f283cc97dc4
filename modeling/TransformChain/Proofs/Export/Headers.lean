import TransformChain.Proofs.Export.Tags
import TransformChain.Proofs.Template.ExprReading
import TransformChain.Proofs.Template.Operands

/-!
# Headers of exported models

The header is meant as a call with the settings for its arguments by name.  Read with the grammar of
templates, the first tag of a model is this call exactly if no value holds a backslash: quotes in a
value are escaped, but the character that escapes them is not.
-/

namespace TransformChain
namespace Template

open Text

/-!
## The first tag of a text
-/

def firstTag? (cs : List Char) : Option (List Char × Tag × List Char) :=
  match breakAtTag cs with
  | (before, _ :: d :: body) =>
      match TagKind.ofOpener? d with
      | some kind => (readTag kind body).map fun found => (before, found)
      | none => none
  | _ => none

section FirstTag

variable {cs after : List Char} {tag : Tag} {tokens : List Token}

theorem tokens_of_firstTag (h : firstTag? cs = some ([], tag, after)) (hkind : tag.kind = .output)
    (htokens : tokenize cs = .ok tokens) : ∃ rest, tokens = .output tag.content :: rest := by
  unfold firstTag? at h
  split at h
  case h_2 => cases h
  case h_1 before c d body hbreak =>
    cases hopener : TagKind.ofOpener? d with
    | none =>
        rw [hopener] at h
        cases h
    | some kind =>
        simp only [hopener, Option.map_eq_some_iff] at h
        rcases h with ⟨found, hread, hfound⟩
        cases hfound
        have hlength : ∃ budget, cs.length = budget + 1 := by
          cases cs with
          | nil => cases hbreak
          | cons first rest => exact ⟨rest.length, rfl⟩
        obtain ⟨budget, hbudget⟩ := hlength
        unfold tokenize Scan.ofChars at htokens
        simp only [hbreak, hbudget, readTags, hopener, hread] at htokens
        cases hrest : readTags budget (breakAtTag after).2 with
        | error fault =>
            rw [hrest] at htokens
            cases htokens
        | ok rest =>
            rw [hrest] at htokens
            cases htokens
            refine ⟨Scan.tokensFrom (trimAfterTag tag (breakAtTag after).1) rest, ?_⟩
            have hempty : trimBeforeTag tag [] = [] := by
              unfold trimBeforeTag
              split <;> rfl
            simp [Scan.tokens, Scan.tokensFrom, hempty, textTokens, Tag.tokens, hkind]

end FirstTag
end Template

open Template Template.Grammar Text TransformChain.Parser

namespace ModelHeader

/-!
## The header as a call
-/

def call (header : ModelHeader) : Expr :=
  .call (.var "config") [] (header.map fun field => (field.1, .lit (.str field.2)))

/-- A model begins with a tag of this content, which reads as the call of the header; behind an
empty line follows the body without the white space at its end.  If the model is a template at all,
the tag is its first token. -/
structure BeginsWithCall (header : ModelHeader) (body : String) (content : List Char) : Prop where
  firstTag_eq : firstTag? (header.modelText body).toList =
    some ([], ⟨.output, content, false, false⟩, ("\n\n" ++ trimmedEnd body ++ "\n").toList)
  parse_eq : ∀ template, Expr.parse template content = .ok header.call
  first : ∀ tokens, tokenize (header.modelText body).toList = .ok tokens →
    ∃ rest, tokens = .output content :: rest

def callText (header : ModelHeader) : String :=
  "config(" ++ Text.join ", " (header.map entry) ++ ")"

section Reading

variable {header : ModelHeader} {body : String}

theorem tags_of_ne_nil (h : header ≠ []) : header.tags = [header.callText] := by
  unfold tags
  rw [if_neg]
  · rfl
  · rwa [List.isEmpty_iff]

theorem toList_modelText_of_ne_nil (h : header ≠ []) (body : String) :
    (header.modelText body).toList =
      '\x7b' :: '\x7b' :: (tagContent header.callText ++
        '\x7d' :: '\x7d' :: ("\n\n" ++ trimmedEnd body ++ "\n").toList) := by
  unfold modelText
  rw [if_neg (by rwa [List.isEmpty_iff])]
  simp [tag, callText, tagContent]

theorem isPlainField_of_isVariableName {field : String × String}
    (hname : isVariableName field.1 = true) (hvalue : '\\' ∉ field.2.toList) :
    IsPlainField field := by
  rw [isVariableName, Bool.and_eq_true] at hname
  exact ⟨isHarmless_of_isIdentifier hname.left, hvalue⟩

theorem isWritable_call (hnames : ∀ field ∈ header, isVariableName field.1 = true) :
    header.call.isWritable = true := by
  have hfields :
      namedAreWritable (header.map fun field => (field.1, .lit (.str field.2))) = true := by
    induction header with
    | nil => rfl
    | cons field rest ih =>
        obtain ⟨hname, hrest⟩ := List.forall_mem_cons.mp hnames
        simp [namedAreWritable, hname, Expr.isWritable, isLiteral, ih hrest]
  have hconfig : isVariableName "config" = true := by decide
  simp [call, Expr.isWritable, areWritable, hconfig, hfields]

theorem spells_behind_gap {ls : List Lexeme} {cs rest : List Char} (h : Spells ls cs rest)
    (hls : ls ≠ []) : Spells ls (' ' :: cs) rest := by
  cases h with
  | nil => exact absurd rfl hls
  | @cons l ls space mid rest hspace hends hrest =>
      have hgap : ∀ c ∈ ' ' :: space, isGap c = true := List.forall_mem_cons.mpr ⟨rfl, hspace⟩
      exact .cons hgap hends hrest

theorem spells_entry {field : String × String} (hvalue : '\\' ∉ field.2.toList)
    (rest : List Char) :
    Spells [.word field.1, .symbol "=", .text field.2] ((entry field).toList ++ rest) rest := by
  have htext : (entry field).toList ++ rest =
      [] ++ ((Lexeme.word field.1).chars ++
        ([] ++ ((Lexeme.symbol "=").chars ++ ([] ++ ((Lexeme.text field.2).chars ++ rest))))) := by
    rw [toList_entry hvalue]
    simp [Lexeme.chars]
  have hnone : ∀ c ∈ ([] : List Char), isGap c = true := fun _ hc => absurd hc List.not_mem_nil
  rw [htext]
  exact .cons hnone rfl (.cons hnone rfl (.cons hnone rfl .nil))

theorem spells_fields (hvalues : ∀ field ∈ header, '\\' ∉ field.2.toList) (rest : List Char) :
    Spells
      (commaJoined (namedLexemes (header.map fun field => (field.1, .lit (.str field.2)))))
      ((Text.join ", " (header.map entry)).toList ++ rest) rest := by
  induction header with
  | nil => exact .nil
  | cons field others ih =>
      obtain ⟨hvalue, hothers⟩ := List.forall_mem_cons.mp hvalues
      cases others with
      | nil => exact spells_entry hvalue rest
      | cons second others =>
          have hnext := spells_behind_gap (ih hothers) (by simp [namedLexemes, commaJoined_cons])
          have hnone : ∀ c ∈ ([] : List Char), isGap c = true :=
            fun _ hc => absurd hc List.not_mem_nil
          have hcomma : Spells (.symbol "," :: commaJoined (namedLexemes
                ((second :: others).map fun field => (field.1, .lit (.str field.2)))))
              ([] ++ ((Lexeme.symbol ",").chars ++
                (' ' :: ((Text.join ", " ((second :: others).map entry)).toList ++ rest)))) rest :=
            .cons hnone rfl hnext
          have hall := (spells_entry hvalue _).append hcomma
          simp only [List.map_cons, namedLexemes, Expr.bare, literalLexemes, commaJoined_cons,
            Text.join, String.toList_append] at hall ⊢
          simpa [Lexeme.chars] using hall

theorem spells_callText (hvalues : ∀ field ∈ header, '\\' ∉ field.2.toList) :
    Spells header.call.bare (tagContent header.callText) [' '] := by
  have hnone : ∀ c ∈ ([] : List Char), isGap c = true := fun _ hc => absurd hc List.not_mem_nil
  have hspace : ∀ c ∈ [' '], isGap c = true := List.forall_mem_singleton.mpr rfl
  have hclose : Spells [.symbol ")"] ([] ++ ((Lexeme.symbol ")").chars ++ [' '])) [' '] :=
    .cons hnone rfl .nil
  have hfields := (spells_fields hvalues _).append hclose
  have hcall := Spells.cons (l := .word "config") hspace (by rfl)
    (Spells.cons (l := .symbol "(") hnone rfl hfields)
  have htext : tagContent header.callText =
      [' '] ++ ((Lexeme.word "config").chars ++ ([] ++ ((Lexeme.symbol "(").chars ++
        ((Text.join ", " (header.map entry)).toList ++
          ([] ++ ((Lexeme.symbol ")").chars ++ [' '])))))) := by
    simp [tagContent, callText, Lexeme.chars]
  rw [htext]
  exact hcall

theorem beginsWithCall_of_plain (hheader : header ≠ [])
    (hnames : ∀ field ∈ header, isVariableName field.1 = true)
    (hvalues : ∀ field ∈ header, '\\' ∉ field.2.toList) (body : String) :
    header.BeginsWithCall body (tagContent header.callText) := by
  have hplain : ∀ field ∈ header, IsPlainField field := fun field hmem =>
    isPlainField_of_isVariableName (hnames field hmem) (hvalues field hmem)
  have hback : ReadsBack header.callText := by
    apply readsBack_tags hplain
    rw [tags_of_ne_nil hheader]
    exact List.mem_singleton.mpr rfl
  have hfirst : firstTag? (header.modelText body).toList =
      some ([], ⟨.output, tagContent header.callText, false, false⟩,
        ("\n\n" ++ trimmedEnd body ++ "\n").toList) := by
    rw [toList_modelText_of_ne_nil hheader]
    change (readTag .output _).map _ = _
    rw [hback.closes.readTag_eq]
    rfl
  refine ⟨hfirst, fun template => ?_, fun tokens => tokens_of_firstTag hfirst rfl⟩
  exact Expr.parse_of_spells template (isWritable_call hnames) (spells_callText hvalues)
    (List.forall_mem_singleton.mpr rfl)

end Reading

/-!
## Values with backslashes

A string that is read back as the value it was written from has used up more of the text than was
written for it as soon as there is a backslash, which has to be read from two.  From there on every
character has to be a backslash, and there are never enough of them.
-/

section Values

variable {value content after more : List Char} {c : Char}

theorem stringBody_quote (rest : List Char) : stringBody '\'' ('\'' :: rest) = some ([], rest) := by
  cases rest <;> rfl

theorem exists_of_stringBody_cons {rest : List Char} (hescape : c ≠ '\\') (hquote : c ≠ '\'')
    (h : stringBody '\'' (c :: rest) = some (content, after)) :
    ∃ others, content = c :: others ∧ stringBody '\'' rest = some (others, after) := by
  cases rest with
  | nil =>
      rw [stringBody, if_neg hquote] at h
      cases h
  | cons d rest =>
      rw [stringBody_cons hescape hquote (List.cons_ne_nil _ _)] at h
      split at h
      case h_1 others left hothers =>
        cases h
        exact ⟨others, rfl, hothers⟩
      case h_2 => cases h

theorem exists_of_stringBody_escape {rest : List Char}
    (h : stringBody '\'' ('\\' :: c :: rest) = some (content, after)) :
    ∃ others, content = unescape c :: others ∧ stringBody '\'' rest = some (others, after) := by
  rw [stringBody, if_pos rfl] at h
  split at h
  case h_1 others left hothers =>
    cases h
    exact ⟨others, rfl, hothers⟩
  case h_2 => cases h

theorem eq_backslash_of_unescape (h : unescape c = '\\') : c = '\\' := by
  unfold unescape at h
  split at h
  · cases h
  · split at h
    · cases h
    · exact h

theorem backslash_of_stringBody
    (h : stringBody '\'' ('\\' :: (value.flatMap escapeChar ++ '\'' :: more)) =
      some ('\\' :: content, after)) :
    content = [] ∨ ∃ rest, value = '\\' :: rest ∧
      stringBody '\'' (rest.flatMap escapeChar ++ '\'' :: more) = some (content, after) := by
  cases value with
  | nil =>
      rcases exists_of_stringBody_escape h with ⟨others, hcontent, -⟩
      cases hcontent
  | cons c value =>
      by_cases hquote : c = '\''
      · subst hquote
        rcases exists_of_stringBody_escape h with ⟨others, hcontent, hrest⟩
        cases hcontent
        left
        cases (stringBody_quote _).symm.trans hrest
        rfl
      · have hplain : escapeChar c = [c] := by simp [escapeChar, hquote]
        rw [List.flatMap_cons, hplain] at h
        rcases exists_of_stringBody_escape h with ⟨others, hcontent, hrest⟩
        injection hcontent with hhead hothers
        subst hothers
        exact Or.inr ⟨value, by rw [eq_backslash_of_unescape hhead.symm], hrest⟩

/-- What is left to read is not enough once the reading is backslashes ahead of the value. -/
theorem stringBody_ne_ahead (value : List Char) (n : Nat) :
    stringBody '\'' (value.flatMap escapeChar ++ '\'' :: more) ≠
      some (List.replicate (n + 1) '\\' ++ value, after) := by
  induction hlength : value.length using Nat.strong_induction_on generalizing value n with
  | _ length ih =>
      intro h
      rw [List.replicate_succ, List.cons_append] at h
      cases value with
      | nil => cases (stringBody_quote _).symm.trans h
      | cons c value =>
          by_cases hquote : c = '\''
          · subst hquote
            rcases exists_of_stringBody_escape h with ⟨others, hcontent, -⟩
            cases hcontent
          have hplain : escapeChar c = [c] := by simp [escapeChar, hquote]
          rw [List.flatMap_cons, hplain, List.singleton_append, List.cons_append] at h
          by_cases hbackslash : c = '\\'
          · subst hbackslash
            rcases backslash_of_stringBody h with hnil | ⟨rest, rfl, hrest⟩
            · simp at hnil
            · have hshorter : rest.length < length := by
                rw [← hlength, List.length_cons, List.length_cons]
                omega
              refine ih rest.length hshorter rest (n + 1) rfl ?_
              rw [hrest]
              simp [List.replicate_succ', List.append_assoc]
          · rcases exists_of_stringBody_cons hbackslash hquote h with ⟨others, hcontent, -⟩
            cases hcontent
            exact hbackslash rfl

theorem plain_of_stringBody
    (h : stringBody '\'' (value.flatMap escapeChar ++ '\'' :: more) = some (value, after)) :
    '\\' ∉ value ∧ after = more := by
  induction value with
  | nil =>
      cases (stringBody_quote _).symm.trans h
      exact ⟨List.not_mem_nil, rfl⟩
  | cons c value ih =>
      by_cases hquote : c = '\''
      · subst hquote
        rcases exists_of_stringBody_escape h with ⟨others, hcontent, hrest⟩
        cases hcontent
        obtain ⟨hvalue, hafter⟩ := ih hrest
        exact ⟨by simp [hvalue], hafter⟩
      have hplain : escapeChar c = [c] := by simp [escapeChar, hquote]
      rw [List.flatMap_cons, hplain, List.singleton_append, List.cons_append] at h
      by_cases hbackslash : c = '\\'
      · subst hbackslash
        exfalso
        rcases backslash_of_stringBody h with rfl | ⟨rest, rfl, hrest⟩
        · rcases exists_of_stringBody_escape h with ⟨others, hcontent, -⟩
          cases hcontent
        · exact stringBody_ne_ahead rest 0 hrest
      · rcases exists_of_stringBody_cons hbackslash hquote h with ⟨others, hcontent, hrest⟩
        cases hcontent
        obtain ⟨hvalue, hafter⟩ := ih hrest
        exact ⟨by simp [hvalue, Ne.symm hbackslash], hafter⟩

theorem stringBody_append {quoted : List Char} (h : stringBody '\'' quoted = some (content, after))
    (more : List Char) : stringBody '\'' (quoted ++ more) = some (content, after ++ more) := by
  induction hlength : quoted.length using Nat.strong_induction_on generalizing quoted content with
  | _ length ih =>
      cases quoted with
      | nil => cases h
      | cons c quoted =>
          by_cases hquote : c = '\''
          · subst hquote
            cases (stringBody_quote _).symm.trans h
            exact stringBody_quote _
          by_cases hbackslash : c = '\\'
          · subst hbackslash
            cases quoted with
            | nil => cases h
            | cons d quoted =>
                rcases exists_of_stringBody_escape h with ⟨others, rfl, hrest⟩
                have hshorter : quoted.length < length := by
                  rw [← hlength, List.length_cons, List.length_cons]
                  omega
                have hmore := ih quoted.length hshorter hrest rfl
                rw [List.cons_append, List.cons_append, stringBody, if_pos rfl, hmore]
          · rcases exists_of_stringBody_cons hbackslash hquote h with ⟨others, rfl, hrest⟩
            have hne : quoted ≠ [] := by
              rintro rfl
              cases hrest
            have hmore := ih quoted.length (by rw [← hlength]; simp) hrest rfl
            rw [List.cons_append, stringBody_cons hbackslash hquote (by simp [hne]), hmore]

end Values

/-!
## Headers that read back

The content of a tag is only the front of what the model begins with, and where it ends is not
known before it is read.  So each part that is read is compared with the front of what was written.
-/

section Backwards

variable {header fields : ModelHeader} {cs hidden behind start rest : List Char} {c d : Char}

theorem eq_cons_of_front (htext : cs ++ hidden = c :: behind) (hc : isGap c = false)
    (hstart : dropGap cs = d :: start) : cs = c :: start ∧ start ++ hidden = behind := by
  cases cs with
  | nil => cases hstart
  | cons first cs =>
      injection htext with hfirst hrest
      subst hfirst
      rw [dropGap_cons hc] at hstart
      cases hstart
      exact ⟨rfl, hrest⟩

theorem dropGap_identifier {name : String} (hname : isIdentifier name = true) (more : List Char) :
    dropGap (name.toList ++ more) = name.toList ++ more := by
  rcases (isIdentifier_iff name).mp hname with ⟨first, others, hchars, hstart, _⟩
  rw [hchars, List.cons_append]
  exact dropGap_cons (isGap_eq_false_of_isWordPart (isWordPart_of_isWordStart hstart))

theorem append_of_word {name : String} {space mid : List Char} (hname : isIdentifier name = true)
    (hspace : ∀ c ∈ space, isGap c = true) (htext : cs ++ hidden = space ++ (name.toList ++ behind))
    (hword : word (dropGap cs) = .accepted name mid) : mid ++ hidden = behind := by
  obtain ⟨-, hstart, -⟩ := word_accepted hword
  have hcs : cs ++ hidden = cs.takeWhile isGap ++ (name.toList ++ (mid ++ hidden)) := by
    rw [← List.append_assoc name.toList, ← hstart, ← List.append_assoc]
    exact congrArg (· ++ hidden) List.takeWhile_append_dropWhile.symm
  have hboth := congrArg dropGap (hcs.symm.trans htext)
  rw [dropGap_append fun c hc => List.mem_takeWhile_imp hc, dropGap_append hspace,
    dropGap_identifier hname, dropGap_identifier hname] at hboth
  exact List.append_cancel_left hboth

theorem plain_of_expression {budget : Nat} {value : String} {left : List Char}
    (htext : start ++ hidden = '\'' :: (value.toList.flatMap escapeChar ++ '\'' :: behind))
    (h : expressionWithin budget (dropGap start) = .accepted (.lit (.str value)) left) :
    '\\' ∉ value.toList ∧ left ++ hidden = behind := by
  cases budget with
  | zero => cases h
  | succ budget =>
      have hprimary := primary_of_postfixed_lit (postfixed_of_conditional rfl h)
      rw [dropGap_idem] at hprimary
      cases start with
      | nil =>
          rcases refusesHere_primary_nil (expressionWithin budget) with ⟨place, hplace⟩
          cases hplace.symm.trans hprimary
      | cons first quoted =>
          injection htext with hfirst hquoted
          subst hfirst
          rw [dropGap_cons (by decide)] at hprimary
          rcases stringBody_of_primary hprimary with ⟨content, hbody, hvalue⟩
          injection hvalue with hvalue
          injection hvalue with hvalue
          rw [hvalue, String.toList_ofList] at hquoted ⊢
          have hall := stringBody_append hbody hidden
          change quoted ++ hidden = _ at hquoted
          rw [hquoted] at hall
          exact plain_of_stringBody hall

theorem plain_of_named {budget : Nat} {field : String × String} {space : List Char}
    (hname : isIdentifier field.1 = true) (hspace : ∀ c ∈ space, isGap c = true)
    (htext : cs ++ hidden = space ++ ((entry field).toList ++ behind))
    (h : Parser.orElse (namedArgument (expressionWithin budget))
      (plainArgument (expressionWithin budget)) cs =
        .accepted (some field.1, .lit (.str field.2)) rest) :
    '\\' ∉ field.2.toList ∧ ∃ left, rest = dropGap left ∧ left ++ hidden = behind := by
  rcases exists_of_named h with ⟨mid, start, left, hword, hequals, hvalue, rfl⟩
  have hentry : (entry field).toList ++ behind = field.1.toList ++
      '=' :: '\'' :: (field.2.toList.flatMap escapeChar ++ '\'' :: behind) := by
    simp [entry]
  rw [hentry] at htext
  have hmid := append_of_word hname hspace htext hword
  obtain ⟨-, hstart⟩ := eq_cons_of_front hmid (by decide) hequals
  obtain ⟨hplain, hleft⟩ := plain_of_expression hstart hvalue
  exact ⟨hplain, left, rfl, hleft⟩

def laterEntries (fields : ModelHeader) : List Char :=
  fields.flatMap fun field => (", " ++ entry field).toList

theorem toList_join_entries (field : String × String) (fields : ModelHeader) :
    (Text.join ", " ((field :: fields).map entry)).toList =
      (entry field).toList ++ laterEntries fields := by
  rw [List.map_cons, Text.toList_join_cons, List.flatMap_map]
  rfl

def asArgument (field : String × String) : CallArgument :=
  (some field.1, .lit (.str field.2))

theorem plain_of_runsMany {budget : Nat} (hnames : ∀ field ∈ fields, isIdentifier field.1 = true)
    (htext : cs ++ hidden = laterEntries fields ++ behind)
    (h : Parser.RunsMany (Parser.char ',' >>= fun _ => Parser.orElse
        (namedArgument (expressionWithin budget)) (plainArgument (expressionWithin budget)))
      (dropGap cs) (fields.map asArgument) rest) : ∀ field ∈ fields, '\\' ∉ field.2.toList := by
  induction fields generalizing cs with
  | nil => exact fun _ hmem => absurd hmem List.not_mem_nil
  | cons field fields ih =>
      obtain ⟨hname, hothers⟩ := List.forall_mem_cons.mp hnames
      rcases h with _ | ⟨hfirst, hmore⟩
      rcases bind_eq_accepted_iff.mp hfirst with ⟨comma, start, hcomma, hitem⟩
      have hlater : laterEntries (field :: fields) ++ behind =
          ',' :: ([' '] ++ ((entry field).toList ++ (laterEntries fields ++ behind))) := by
        simp [laterEntries]
      rw [hlater] at htext
      obtain ⟨-, hstart⟩ := eq_cons_of_front htext (by decide) (eq_cons_of_char hcomma)
      obtain ⟨hplain, left, rfl, hleft⟩ :=
        plain_of_named hname (List.forall_mem_singleton.mpr rfl) hstart hitem
      exact List.forall_mem_cons.mpr ⟨hplain, ih hothers hleft hmore⟩

theorem eq_map_of_named {args : List CallArgument} (hpositional : positional args = [])
    (hnamed : named args = header.map fun field => (field.1, .lit (.str field.2))) :
    args = header.map asArgument := by
  induction args generalizing header with
  | nil =>
      cases header with
      | nil => rfl
      | cons field fields => cases hnamed
  | cons arg args ih =>
      rcases arg with ⟨_ | name, value⟩
      · cases hpositional
      · cases header with
        | nil => cases hnamed
        | cons field fields =>
            injection hnamed with hfirst hothers
            injection hfirst with hname hvalue
            rw [List.map_cons, ← ih hpositional hothers, hname, hvalue]
            rfl

theorem nil_or_word {function : String} (hname : isIdentifier function = true)
    (htext : cs ++ hidden = ' ' :: (function.toList ++ behind)) :
    dropGap cs = [] ∨ ∃ name mid, word (dropGap cs) = .accepted name mid := by
  rcases (isIdentifier_iff function).mp hname with ⟨first, others, hchars, hstart, _⟩
  have hfirst : isGap first = false :=
    isGap_eq_false_of_isWordPart (isWordPart_of_isWordStart hstart)
  rw [hchars] at htext
  match cs with
  | [] => exact Or.inl rfl
  | [c] =>
      cases htext
      exact Or.inl rfl
  | c :: d :: more =>
      injection htext with hspace hrest
      injection hrest with hd
      subst hspace hd
      have hspace : ∀ c ∈ [' '], isGap c = true := List.forall_mem_singleton.mpr (by decide)
      have hdrop : dropGap (' ' :: d :: more) = d :: more :=
        (dropGap_append hspace).trans (dropGap_cons hfirst)
      rw [hdrop]
      exact Or.inr ⟨_, _, (word_cons d more).trans (if_pos hstart)⟩

theorem call_of_parse {template function : String} {keywords : List (String × Expr)}
    (hname : isIdentifier function = true)
    (htext : cs ++ hidden = ' ' :: (function.toList ++ '(' :: behind))
    (h : Expr.parse template cs = .ok (.call (.var function) [] keywords)) :
    ∃ budget start args left, start ++ hidden = behind ∧
      arguments (expressionWithin budget) ('(' :: start) = .accepted args left ∧
      positional args = [] ∧ named args = keywords := by
  unfold Expr.parse readWhole at h
  split at h
  case h_2 | h_3 => cases h
  case h_1 result left hwhole =>
    cases h
    rcases exists_of_spaced (accepted_of_whole hwhole) with ⟨left, hexpression, -⟩
    have hpostfixed := postfixed_of_conditional rfl hexpression
    rw [dropGap_idem] at hpostfixed
    have hread : ∀ e mid, primary (expressionWithin (dropGap cs).length) (dropGap cs) =
        .accepted e mid →
        (∃ value, e = .lit value) ∨
          ∃ name, e = .var name ∧ word (dropGap cs) = .accepted name mid := by
      intro e mid hprimary
      rcases nil_or_word hname htext with hnil | ⟨name, behindName, hword⟩
      · rcases refusesHere_primary_nil (expressionWithin (dropGap cs).length) with
          ⟨place, hplace⟩
        rw [hnil] at hprimary
        cases hplace.symm.trans hprimary
      · rcases word_of_primary hword hprimary with hlit | ⟨hvar, rfl⟩
        · exact Or.inl hlit
        · exact Or.inr ⟨name, hvar, hword⟩
    have hnocall : ∀ callee args named mid,
        primary (expressionWithin (dropGap cs).length) (dropGap cs) ≠
          .accepted (.call callee args named) mid := by
      intro callee args named mid hprimary
      rcases hread _ _ hprimary with ⟨_, hlit⟩ | ⟨_, hvar, _⟩
      · cases hlit
      · cases hvar
    rcases arguments_of_postfixed_call hpostfixed hnocall with
      ⟨mid, args, hprimary, hargs, hpositional, hnamed⟩
    rcases hread _ _ hprimary with ⟨_, hlit⟩ | ⟨name, hvar, hword⟩
    · cases hlit
    cases hvar
    have hspace : ∀ c ∈ [' '], isGap c = true := List.forall_mem_singleton.mpr (by decide)
    have hmid := append_of_word hname hspace htext hword
    rcases bind_eq_accepted_iff.mp hargs with ⟨opening, start, hopening, -⟩
    have hstart := eq_cons_of_char hopening
    rw [hstart] at hargs
    exact ⟨_, start, args, left, (eq_cons_of_front hmid (by decide) hstart).right, hargs,
      hpositional, hnamed⟩

theorem plain_of_parse {template : String}
    (hnames : ∀ field ∈ header, isVariableName field.1 = true)
    (htext : cs ++ hidden = tagContent header.callText ++ behind)
    (h : Expr.parse template cs = .ok header.call) : ∀ field ∈ header, '\\' ∉ field.2.toList := by
  have hidentifiers : ∀ field ∈ header, isIdentifier field.1 = true := by
    intro field hmem
    have hname := hnames field hmem
    rw [isVariableName, Bool.and_eq_true] at hname
    exact hname.left
  cases header with
  | nil => exact fun _ hmem => absurd hmem List.not_mem_nil
  | cons field fields =>
      have hcall : tagContent (callText (field :: fields)) ++ behind =
          ' ' :: ("config".toList ++ '(' :: ([] ++ ((entry field).toList ++
            (laterEntries fields ++ (") ".toList ++ behind))))) := by
        have hjoin := toList_join_entries field fields
        simp only [tagContent, callText, String.toList_append, hjoin]
        simp
      rw [hcall] at htext
      rcases call_of_parse (by decide) htext h with ⟨budget, start, args, left, hstart, hargs,
        hpositional, hnamed⟩
      rw [eq_map_of_named hpositional hnamed, List.map_cons] at hargs
      rcases exists_of_arguments hargs with ⟨first, mid, last, hopening, hfirst, hothers⟩
      injection hopening with _ hfirstText
      subst hfirstText
      obtain ⟨hname, hothersNames⟩ := List.forall_mem_cons.mp hidentifiers
      obtain ⟨hplain, behindFirst, rfl, hrest⟩ :=
        plain_of_named hname (fun _ hc => absurd hc List.not_mem_nil) hstart hfirst
      exact List.forall_mem_cons.mpr ⟨hplain, plain_of_runsMany hothersNames hrest hothers⟩

theorem exists_hidden_of_firstTag {body : String} {before after : List Char} {tag : Tag}
    (hheader : header ≠ [])
    (h : firstTag? (header.modelText body).toList = some (before, tag, after)) :
    ∃ hidden behind, tag.content ++ hidden = tagContent header.callText ++ behind := by
  rw [toList_modelText_of_ne_nil hheader] at h
  rcases Option.map_eq_some_iff.mp h with ⟨found, hread, hfound⟩
  cases hfound
  rw [readTag_tagContent, Option.map_eq_some_iff] at hread
  rcases hread with ⟨⟨raw, later⟩, hclose, hfound⟩
  cases hfound
  have htext := eq_of_closeTag hclose
  unfold Tag.ofRaw
  split
  case isTrue hdash =>
    change raw.getLast? = some '-' at hdash
    rw [← List.dropLast_append_getLast? '-' hdash, List.append_assoc] at htext
    exact ⟨_, _, htext.symm⟩
  case isFalse => exact ⟨_, _, htext.symm⟩

theorem plain_of_beginsWithCall {body : String} {content : List Char} (hheader : header ≠ [])
    (hnames : ∀ field ∈ header, isVariableName field.1 = true)
    (h : header.BeginsWithCall body content) : ∀ field ∈ header, '\\' ∉ field.2.toList := by
  rcases exists_hidden_of_firstTag hheader h.firstTag_eq with ⟨hidden, behind, htext⟩
  exact plain_of_parse hnames htext (h.parse_eq "")

end Backwards

/-!
## Which headers are read back
-/

/-- The first tag of a model is the call of its header, with the text as it should be behind it,
exactly if no value holds a backslash. -/
theorem beginsWithCall_iff_plain {header : ModelHeader} (hheader : header ≠ [])
    (hnames : ∀ field ∈ header, isVariableName field.1 = true) (body : String) :
    (∃ content, header.BeginsWithCall body content) ↔ ∀ field ∈ header, '\\' ∉ field.2.toList := by
  constructor
  · rintro ⟨content, h⟩
    exact plain_of_beginsWithCall hheader hnames h
  · intro hvalues
    exact ⟨_, beginsWithCall_of_plain hheader hnames hvalues body⟩

def quotingHeader : ModelHeader :=
  [("materialized", "view"), ("note", "it's \"\x7d\x7d\"\n")]

theorem quotingHeader_begins :
    quotingHeader ≠ [] ∧ (∀ field ∈ quotingHeader, isVariableName field.1 = true) ∧
      (∀ field ∈ quotingHeader, '\\' ∉ field.2.toList) ∧
      ∃ content, quotingHeader.BeginsWithCall "SELECT \x7b\x7b x \x7d\x7d \n" content := by
  have hheader : quotingHeader ≠ [] := List.cons_ne_nil _ _
  have hnames : ∀ field ∈ quotingHeader, isVariableName field.1 = true := by decide
  have hvalues : ∀ field ∈ quotingHeader, '\\' ∉ field.2.toList := by decide
  exact ⟨hheader, hnames, hvalues, (beginsWithCall_iff_plain hheader hnames _).mpr hvalues⟩

/-- A backslash at the end of a value takes the closing quote along, and the tag of the header has
no end; a backslash in front of a letter is read as another character. -/
theorem backslashes_lost :
    isVariableName "note" = true ∧
      firstTag? (modelText [("note", "\\")] "SELECT 1").toList = none ∧
      (¬∃ content, BeginsWithCall [("note", "\\")] "SELECT 1" content) ∧
      (firstTag? (modelText [("note", "a\\nb")] "SELECT 1").toList).any (fun found =>
        (Expr.parse "" found.2.1.content).toOption.any fun
          | .call (.var "config") [] [("note", .lit (.str value))] => value == "a\nb"
          | _ => false) = true := by
  have hnone : firstTag? (modelText [("note", "\\")] "SELECT 1").toList = none := by decide
  refine ⟨by decide, hnone, ?_, by decide +kernel⟩
  rintro ⟨content, h⟩
  cases hnone.symm.trans h.firstTag_eq

end ModelHeader
end TransformChain
