import TransformChain.Proofs.Template.Bracketing

/-!
# Reading printed expressions

A text that spells the lexemes of an expression, with any white space between them, is read back
as that expression.  The expression is read at its own level, the levels up to the place where it
stands follow, and parentheses lead back to the parser of nested expressions, whose budget bounds
the texts that it reads.
-/

namespace TransformChain
namespace Template
namespace Grammar

open Text TransformChain.Parser

variable {inner : Parser Expr} {n : Nat} {cs mid rest : List Char} {e : Expr}
  {ls : List Lexeme} {name : String}

/-!
## Operands
-/

theorem readsAt_operand
    (h : ∀ {cs mid : List Char}, ahead cs ≤ n → Spells ls cs mid →
      ReadsHere (primary inner) (dropGap cs) e mid) : ReadsAt inner n 10 ls e :=
  fun _ _ _ _ hcs hspells _ hmore => Folds.reads (reads_afterGap (h hcs hspells)) hmore

theorem primary_constant {value : Value} (h : Spells [.word name] cs mid)
    (hname : isIdentifier name = true) (hvalue : constantValue? name = some value) :
    primary inner (dropGap cs) = .accepted (.lit value) mid := by
  rcases h.word hname with ⟨left, hword, _, hleft⟩
  rw [spells_nil hleft] at hword
  rw [primary_eq_of_word hword]
  exact oneOf_accepted (mapSome_accepted hword (by rw [hvalue]; rfl))

theorem constantValue?_eq_none (h : reserved.contains name = false) :
    constantValue? name = none := by
  simp only [reserved, List.contains_cons, List.contains_nil, Bool.or_eq_false_iff,
    beq_eq_false_iff_ne] at h
  simp [constantValue?, h]

theorem primary_variable (h : Spells [.word name] cs mid) (hname : isVariableName name = true) :
    primary inner (dropGap cs) = .accepted (.var name) mid := by
  simp only [isVariableName, Bool.and_eq_true, Bool.not_eq_true'] at hname
  rcases h.word hname.left with ⟨left, hword, _, hleft⟩
  rw [spells_nil hleft] at hword
  have hconstant : RefusesHere constant (dropGap cs) :=
    mapSome_none hword (by rw [constantValue?_eq_none hname.right]; rfl)
  rw [primary_eq_of_word hword, hconstant.oneOf_eq]
  exact bind_accepted (verify_accepted hword (by rw [hname.right]; rfl))

theorem isSolid_number (value : Nat) : (Lexeme.number value).isSolid = true := by
  cases hchars : Nat.toDigits 10 value with
  | nil => exact absurd hchars Nat.toDigits_ne_nil
  | cons c cs =>
      have hc : c.isDigit = true :=
        Nat.isDigit_of_mem_toDigits (by decide) (by decide) (hchars ▸ List.mem_cons_self)
      have hpart : isWordPart c = true := by
        unfold isWordPart Char.isAlphanum
        rw [hc, Bool.or_true, Bool.true_or]
      simp [Lexeme.isSolid, Lexeme.chars, hchars, isGap_eq_false_of_isWordPart hpart]

theorem primary_number {value : Nat} (h : Spells [.number value] cs mid)
    (hvalue : (value : Int) ≤ Decimal.greatestInt) :
    primary inner (dropGap cs) = .accepted (.lit (.int (Int64.ofInt value))) mid := by
  rcases h.first (isSolid_number value) with ⟨left, hstart, hends, _, hleft⟩
  rw [spells_nil hleft] at hstart hends
  have hread := number_toDigits hvalue hends
  rw [hstart, Lexeme.chars]
  cases hchars : Nat.toDigits 10 value with
  | nil => exact absurd hchars Nat.toDigits_ne_nil
  | cons c cs =>
      have hc : c.isDigit = true :=
        Nat.isDigit_of_mem_toDigits (by decide) (by decide) (hchars ▸ List.mem_cons_self)
      have hne : ∀ d : Char, d.isDigit = false → c ≠ d := by
        rintro d hd rfl
        rw [hc] at hd
        cases hd
      rw [hchars, List.cons_append] at hread
      rw [List.cons_append]
      unfold primary
      rw [(refuses_parenthesized (hne _ rfl)).oneOf_eq, (refuses_listLiteral (hne _ rfl)).oneOf_eq,
        (refuses_dictLiteral (hne _ rfl)).oneOf_eq,
        (refuses_stringLiteral (hne _ rfl) (hne _ rfl)).oneOf_eq]
      exact oneOf_accepted hread

theorem primary_string {content : String} (h : Spells [.text content] cs mid) :
    primary inner (dropGap cs) = .accepted (.lit (.str content)) mid := by
  rcases h.first rfl with ⟨left, hstart, _, _, hleft⟩
  rw [spells_nil hleft] at hstart
  have hchars : dropGap cs = '\'' :: (content.toList.flatMap Lexeme.escape ++ '\'' :: mid) := by
    simp [hstart, Lexeme.chars]
  rw [hchars]
  unfold primary
  rw [(refuses_parenthesized (by decide)).oneOf_eq, (refuses_listLiteral (by decide)).oneOf_eq,
    (refuses_dictLiteral (by decide)).oneOf_eq]
  apply oneOf_accepted
  have hread : stringText ('\'' :: (content.toList.flatMap Lexeme.escape ++ '\'' :: mid))
      = .accepted content mid := by
    unfold stringText
    simp only [decide_true, Bool.true_or, if_true, stringBody_escape, String.ofList_toList]
  exact bind_accepted hread

theorem readsAt_literal {value : Value} (h : isLiteral value = true) :
    ReadsAt inner n 10 (literalLexemes value) (.lit value) := by
  refine readsAt_operand fun _ hspells => readsHere_of_eq ?_
  cases value with
  | null => exact primary_constant hspells rfl rfl
  | bool b => cases b <;> exact primary_constant hspells rfl rfl
  | int i =>
      have hsign : 0 ≤ i.toInt := of_decide_eq_true h
      have hfits : (i.toInt.toNat : Int) ≤ Decimal.greatestInt := by
        have hlt := Int64.toInt_lt i
        unfold Decimal.greatestInt
        omega
      have hread : primary inner _ = _ := primary_number hspells hfits
      rw [Int.toNat_of_nonneg hsign, Int64.ofInt_toInt] at hread
      exact hread
  | str s => exact primary_string hspells
  | float x => cases h
  | list items => cases h
  | map entries => cases h

theorem readsAt_var (hname : isVariableName name = true) :
    ReadsAt inner n 10 [.word name] (.var name) :=
  readsAt_operand fun _ hspells => readsHere_of_eq (primary_variable hspells hname)

theorem readsAt_list (hinner : ReadsBelow inner n) {items : List Expr}
    (hitems : areWritable items = true) :
    ReadsAt inner n 10 (.symbol "[" :: (commaJoined (itemsLexemes items) ++ [.symbol "]"]))
      (.list items) := by
  refine readsAt_operand fun hcs hspells => readsHere_of_eq ?_
  rcases hspells.character (c := '[') rfl rfl with ⟨left, hstart, hshorter, hleft⟩
  have hread := bracketed_eq '[' (readsItems hinner items hitems)
    (fun hcs h => (hinner.refuses hcs h).spaced) rfl rfl (by omega) hleft
  rw [hstart]
  unfold primary
  rw [(refuses_parenthesized (by decide)).oneOf_eq]
  exact oneOf_accepted (bind_accepted hread)

theorem readsAt_dict (hinner : ReadsBelow inner n) {entries : List (Expr × Expr)}
    (hentries : entriesAreWritable entries = true) :
    ReadsAt inner n 10
      (.symbol "\x7b" :: (commaJoined (entriesLexemes entries) ++ [.symbol "\x7d"]))
      (.dict entries) := by
  refine readsAt_operand fun hcs hspells => readsHere_of_eq ?_
  rcases hspells.character (c := '\x7b') rfl rfl with ⟨left, hstart, hshorter, hleft⟩
  have hread := bracketed_eq '\x7b' (readsEntries hinner entries hentries)
    (fun hcs h => Refuses.bind (hinner.refuses hcs h).spaced) rfl rfl (by omega) hleft
  rw [hstart]
  unfold primary
  rw [(refuses_parenthesized (by decide)).oneOf_eq, (refuses_listLiteral (by decide)).oneOf_eq]
  exact oneOf_accepted (bind_accepted hread)

theorem readsAt_parenthesized (hinner : ReadsBelow inner n) (he : e.isWritable = true) :
    ReadsAt inner n 10 (.symbol "(" :: (e.bare ++ [.symbol ")"])) e := by
  refine readsAt_operand fun hcs hspells => readsHere_of_eq ?_
  rcases hspells.character (c := '(') rfl rfl with ⟨start, hstart, hshorter, hrest⟩
  rcases spells_append.mp hrest with ⟨after, hexpr, hclosing⟩
  rcases hclosing.character (c := ')') rfl rfl with ⟨left, hafter, _, hleft⟩
  rw [spells_nil hleft] at hafter
  have hread := (hinner.reads he (by omega) hexpr (stops_of_start hafter rfl 0)).spaced start rfl
  rw [hstart]
  apply oneOf_accepted
  unfold parenthesized
  rw [bind_accepted (char_cons '(' start), bind_accepted hread, hafter,
    bind_accepted (char_cons ')' _)]
  rfl

/-- Where an expression is read at its own level, it is read wherever it may stand. -/
theorem readsAt_enclosed (hinner : ReadsBelow inner n) (he : e.isWritable = true)
    (hown : ReadsAt inner n e.level e.bare e) (need : Nat) (hneed : need ≤ 10) :
    ReadsAt inner n need (enclosed need e.level e.bare) e := by
  unfold enclosed
  split
  · exact ReadsAt.looser (readsAt_parenthesized hinner he) (Nat.le_refl _) hneed
  · exact hown.looser e.level_le (by omega)

/-!
## Attributes, indices, calls and filters
-/

theorem stops_tightest (cs : List Char) : Stops 11 cs := by
  intro l hl
  unfold operationLevel symbolLevel wordLevel at hl
  split at hl
  · cases hl
  · split at hl
    · repeat' split at hl
      all_goals cases hl
      all_goals decide
    · repeat' split at hl
      all_goals cases hl
      all_goals decide

theorem readsAt_suffix {base : Expr} {ls' : List Lexeme} (part : Suffix)
    (hbase : ReadsAt inner n 10 ls base)
    (hpart : ∀ {cs mid : List Char}, ahead cs ≤ n → Spells ls' cs mid →
      Reads (suffix inner) cs part mid ∧ ahead mid < ahead cs) :
    ReadsAt inner n 10 (ls ++ ls') (part.apply base) := by
  intro cs mid rest final hcs hspells _ hmore
  rcases spells_append.mp hspells with ⟨next, hfirst, hsecond⟩
  have hle := hfirst.ahead_le
  obtain ⟨hread, hshorter⟩ := hpart (by omega) hsecond
  exact hbase hcs hfirst (stops_tightest next) (Folds.step hread hshorter hmore)

theorem readsAt_attr {base : Expr} (hbase : ReadsAt inner n 10 ls base)
    (hname : isIdentifier name = true) :
    ReadsAt inner n 10 (ls ++ [.dotted name]) (.attr base name) := by
  refine readsAt_suffix (.attr name) hbase fun {cs mid} _ hspells => ?_
  rcases hspells.first rfl with ⟨left, hstart, hends, hshorter, hleft⟩
  rw [spells_nil hleft] at hstart hends hshorter
  refine ⟨Reads.orElse (reads_gap (readsHere_of_eq ?_)), hshorter⟩
  rw [hstart, Lexeme.chars, List.cons_append, bind_accepted (char_cons '.' _),
    bind_accepted (word_append hname hends)]
  rfl

theorem readsAt_index (hinner : ReadsBelow inner n) {base key : Expr}
    (hbase : ReadsAt inner n 10 ls base) (hkey : key.isWritable = true) :
    ReadsAt inner n 10 (ls ++ .symbol "[" :: (key.bare ++ [.symbol "]"])) (.index base key) := by
  refine readsAt_suffix (.index key) hbase fun {cs mid} hcs hspells => ?_
  rcases hspells.character (c := '[') rfl rfl with ⟨start, hstart, hshorter, hrest⟩
  rcases spells_append.mp hrest with ⟨after, hexpr, hclosing⟩
  rcases hclosing.character (c := ']') rfl rfl with ⟨left, hafter, hless, hleft⟩
  rw [spells_nil hleft] at hafter hless
  have hle := hexpr.ahead_le
  have hread := (hinner.reads hkey (by omega) hexpr (stops_of_start hafter rfl 0)).spaced start rfl
  refine ⟨Refuses.reads_orElse ?_ (Reads.orElse (reads_gap (readsHere_of_eq ?_))), by omega⟩
  · refine refuses_gap (RefusesHere.bind ?_)
    rw [hstart]
    exact refuses_char_of_ne (by decide)
  · rw [hstart, bind_accepted (char_cons '[' start), bind_accepted hread, hafter,
      bind_accepted (char_cons ']' _)]
    rfl

theorem readsAt_call (hinner : ReadsBelow inner n) {callee : Expr} {args : List Expr}
    {keywords : List (String × Expr)} (hcallee : ReadsAt inner n 10 ls callee)
    (hargs : areWritable args = true) (hkeywords : namedAreWritable keywords = true) :
    ReadsAt inner n 10
      (ls ++ .symbol "(" ::
        (commaJoined (itemsLexemes args ++ namedLexemes keywords) ++ [.symbol ")"]))
      (.call callee args keywords) := by
  have happly : (Suffix.call (callArguments args keywords)).apply callee
      = .call callee args keywords := by
    simp [Suffix.apply, positional_callArguments, named_callArguments]
  rw [← happly]
  refine readsAt_suffix _ hcallee fun {cs mid} hcs hspells => ?_
  rcases hspells.character (c := '(') rfl rfl with ⟨start, hstart, hshorter, hrest⟩
  have hread := arguments_eq hinner hargs hkeywords (by omega) hrest
  have hle := hrest.ahead_le
  have hother : ∀ d : Char, '(' ≠ d → RefusesHere (char d) (dropGap cs) := by
    intro d hd
    rw [hstart]
    exact refuses_char_of_ne hd
  refine ⟨?_, by omega⟩
  refine (refuses_gap (hother '.' (by decide)).bind).reads_orElse <|
    (refuses_gap (hother '[' (by decide)).bind).reads_orElse <|
    reads_gap (readsHere_of_eq ?_)
  rw [hstart, bind_accepted hread]
  rfl

theorem stops_of_level {k l : Nat} (h : operationLevel (dropGap cs) = some k) (hk : k < l) :
    Stops l cs := by
  intro k' hk'
  rw [h] at hk'
  cases hk'
  exact hk

def filterBody (inner : Parser Expr) : Parser (String × List Expr) := do
  let name ← word
  let args ← Parser.optional (arguments inner)
  return (name, positional (args.getD []))

theorem readsAt_filter {value : Expr} {args : List Expr} {ls' : List Lexeme}
    (hvalue : ReadsAt inner n 9 ls value)
    (hpart : ∀ {cs mid : List Char}, ahead cs < n → Spells ls' cs mid → Stops 10 mid →
      filterBody inner (dropGap cs) = .accepted (name, args) mid) :
    ReadsAt inner n 9 (ls ++ .symbol "|" :: ls') (.filter value name args) := by
  intro cs mid rest final hcs hspells hstops hmore
  rcases spells_append.mp hspells with ⟨bar, hfirst, hsecond⟩
  rcases hsecond.character (c := '|') rfl rfl with ⟨start, hbar, hshorter, hrest⟩
  have hle := hfirst.ahead_le
  have hrestLe := hrest.ahead_le
  have hsign : ReadsUpTo (spaced (char '|')) bar '|' start := by
    refine readsUpTo_spaced (readsHere_of_eq ?_)
    rw [hbar]
    exact char_cons '|' start
  have hread : Reads (filterCall inner) bar (name, args) mid :=
    hsign.bind (readsHere_of_eq (hpart (by omega) hrest hstops))
  have hstop : Stops 10 bar := stops_of_level (by rw [hbar]; rfl) (Nat.lt_succ_self 9)
  exact hvalue hcs hfirst hstop (Folds.step hread (by omega) hmore)

theorem readsAt_plainFilter {value : Expr} (hvalue : ReadsAt inner n 9 ls value)
    (hname : isIdentifier name = true) :
    ReadsAt inner n 9 (ls ++ [.symbol "|", .word name]) (.filter value name []) := by
  refine readsAt_filter hvalue fun {cs mid} _ hspells hstops => ?_
  rcases hspells.word hname with ⟨left, hword, _, hleft⟩
  rw [spells_nil hleft] at hword
  have hnone : RefusesHere (arguments inner) mid := by
    refine RefusesHere.bind (refuses_char fun rest heq => ?_)
    have hstart : dropGap mid = '(' :: rest := by
      rw [heq]
      rfl
    exact ne_cons_of_stops hstops rfl (Nat.le_refl _) hstart
  unfold filterBody
  rw [bind_accepted hword, bind_accepted hnone.optional_eq]
  rfl

theorem isSolid_opening (hname : isIdentifier name = true) :
    (Lexeme.opening name).isSolid = true := by
  have hword := isSolid_of_isIdentifier hname
  have hpos := length_pos_of_isIdentifier hname
  unfold Lexeme.isSolid Lexeme.chars at hword ⊢
  cases hchars : name.toList with
  | nil => rw [hchars] at hpos; exact absurd hpos (Nat.lt_irrefl 0)
  | cons c cs => simpa [hchars] using hword

theorem readsAt_callFilter (hinner : ReadsBelow inner n) {value : Expr} {args : List Expr}
    (hvalue : ReadsAt inner n 9 ls value) (hname : isIdentifier name = true)
    (hargs : areWritable args = true) :
    ReadsAt inner n 9
      (ls ++ .symbol "|" :: .opening name :: (commaJoined (itemsLexemes args) ++ [.symbol ")"]))
      (.filter value name args) := by
  refine readsAt_filter hvalue fun {cs mid} hcs hspells _ => ?_
  rcases hspells.first (isSolid_opening hname) with ⟨start, hstart, _, hshorter, hrest⟩
  have hchars : dropGap cs = name.toList ++ '(' :: start := by
    rw [hstart, Lexeme.chars, List.append_assoc, List.singleton_append]
  have hread : arguments inner ('(' :: start) = .accepted (callArguments args []) mid := by
    refine arguments_eq hinner hargs rfl (by omega) ?_
    rw [namedLexemes, List.append_nil]
    exact hrest
  have hsome : Parser.optional (arguments inner) ('(' :: start)
      = .accepted (some (callArguments args [])) mid := by
    unfold Parser.optional
    rw [hread]
  unfold filterBody
  rw [hchars, bind_accepted (word_append hname rfl), bind_accepted hsome]
  change Parsed.accepted (name, positional (callArguments args [])) mid = _
  rw [positional_callArguments]

/-!
## Operators that group to the left
-/

theorem wordOp_of_spells {op : BinaryOp} (h : Spells (.word op.symbol :: ls) cs rest)
    (hname : isIdentifier op.symbol = true) :
    ∃ next, Reads (wordOp op) cs op next ∧ ahead next < ahead cs ∧ Spells ls next rest ∧
      operationLevel (dropGap cs) = wordLevel op.symbol := by
  rcases h.word hname with ⟨next, hword, hshorter, hnext⟩
  exact ⟨next, (reads_keyword hword).reads.bind (reads_pure op), hshorter, hnext,
    operationLevel_of_word hword⟩

theorem symbolOp_of_spells {op : BinaryOp} {p : Parser BinaryOp} (c : Char)
    (h : Spells (.symbol op.symbol :: ls) cs rest) (hsymbol : op.symbol.toList = [c])
    (hgap : isGap c = false) (hp : ∀ rest, p (c :: rest) = .accepted op rest)
    (hlevel : ∀ rest, operationLevel (c :: rest) = some op.level) :
    ∃ next, Reads (spaced p) cs op next ∧ ahead next < ahead cs ∧ Spells ls next rest ∧
      operationLevel (dropGap cs) = some op.level := by
  rcases h.character hsymbol hgap with ⟨next, hstart, hshorter, hnext⟩
  rw [hstart]
  refine ⟨next, (readsUpTo_spaced (readsHere_of_eq ?_)).reads, hshorter, hnext, hlevel next⟩
  rw [hstart]
  exact hp next

theorem operatorAt_of_spells {op : BinaryOp} (hop : op.level ≠ 4)
    (h : Spells (op.lexemes ++ ls) cs rest) :
    ∃ next, Reads (operatorAt op.level) cs op next ∧ ahead next < ahead cs ∧
      Spells ls next rest ∧ operationLevel (dropGap cs) = some op.level := by
  cases op with
  | eq | ne | lt | le | gt | ge | mem | notMem => exact absurd rfl hop
  | and => exact wordOp_of_spells h rfl
  | or => exact wordOp_of_spells h rfl
  | concat => exact symbolOp_of_spells '~' h rfl rfl (by intro; rfl) (by intro; rfl)
  | add => exact symbolOp_of_spells '+' h rfl rfl (by intro; rfl) (by intro; rfl)
  | sub => exact symbolOp_of_spells '-' h rfl rfl (by intro; rfl) (by intro; rfl)
  | mul => exact symbolOp_of_spells '*' h rfl rfl (by intro; rfl) (by intro; rfl)
  | div => exact symbolOp_of_spells '/' h rfl rfl (by intro; rfl) (by intro; rfl)
  | mod => exact symbolOp_of_spells '%' h rfl rfl (by intro; rfl) (by intro; rfl)

theorem more_grouped {op : BinaryOp} (hop : op.level ≠ 4) :
    More inner op.level =
      Folds (operation (operatorAt op.level) (levelAt inner (op.level + 1))) applyOperation := by
  cases op with
  | eq | ne | lt | le | gt | ge | mem | notMem => exact absurd rfl hop
  | and | or | concat | add | sub | mul | div | mod => rfl

theorem readsAt_grouped {op : BinaryOp} (hop : op.level ≠ 4) {left right : Expr}
    {ls' : List Lexeme} (hleft : ReadsAt inner n op.level ls left)
    (hright : ReadsAt inner n (op.level + 1) ls' right) :
    ReadsAt inner n op.level (ls ++ (op.lexemes ++ ls')) (.binary op left right) := by
  intro cs mid rest final hcs hspells hstops hmore
  rcases spells_append.mp hspells with ⟨sign, hfirst, hsecond⟩
  rcases operatorAt_of_spells hop hsecond with ⟨start, hsign, hshorter, hrest, hlevel⟩
  have hle := hfirst.ahead_le
  have hrestLe := hrest.ahead_le
  have hlevelLe := op.level_le
  have hoperand := hright.alone (by omega) (by omega) hrest hstops
  have hread : Reads (operation (operatorAt op.level) (levelAt inner (op.level + 1))) sign
      (op, right) mid := hsign.bind (hoperand.bind (reads_pure _))
  apply hleft hcs hfirst (stops_of_level hlevel (Nat.lt_succ_self _))
  rw [more_grouped hop] at hmore ⊢
  exact Folds.step hread (by omega) hmore

/-!
## Comparisons and tests
-/

theorem refuses_symbolOp_of_start {op : BinaryOp} (h : afterStart? op.symbol.toList cs = none) :
    RefusesHere (symbolOp op) cs := by
  refine RefusesHere.bind ⟨cs, ?_⟩
  unfold exactly
  rw [h]

/-- The operators of two characters are tried before those of one, so nothing that continues a
comparison sign may follow it. -/
theorem comparisonOp_append {op : BinaryOp} {rest : List Char} (hop : op.level = 4)
    (hmem : op ≠ .mem) (hnotMem : op ≠ .notMem) (hrest : ∀ more, rest ≠ '=' :: more) :
    oneOf [symbolOp .eq, symbolOp .ne, symbolOp .le, symbolOp .ge, symbolOp .lt, symbolOp .gt]
      (op.symbol.toList ++ rest) = .accepted op rest := by
  have hequals : afterStart? ['='] rest = none := by
    cases rest with
    | nil => rfl
    | cons c more => exact if_neg fun heq => hrest more (by rw [heq])
  cases op with
  | and | or | concat | add | sub | mul | div | mod => cases hop
  | mem => exact absurd rfl hmem
  | notMem => exact absurd rfl hnotMem
  | eq | ne | le | ge => rfl
  | lt =>
      have hle : RefusesHere (symbolOp .le) ('<' :: rest) := refuses_symbolOp_of_start hequals
      change oneOf _ ('<' :: rest) = _
      rw [(refuses_symbolOp_of_start rfl).oneOf_eq, (refuses_symbolOp_of_start rfl).oneOf_eq,
        hle.oneOf_eq, (refuses_symbolOp_of_start rfl).oneOf_eq]
      rfl
  | gt =>
      have hge : RefusesHere (symbolOp .ge) ('>' :: rest) := refuses_symbolOp_of_start hequals
      change oneOf _ ('>' :: rest) = _
      rw [(refuses_symbolOp_of_start rfl).oneOf_eq, (refuses_symbolOp_of_start rfl).oneOf_eq,
        (refuses_symbolOp_of_start rfl).oneOf_eq, hge.oneOf_eq,
        (refuses_symbolOp_of_start rfl).oneOf_eq]
      rfl

theorem refuses_comparisonOp_of_word (h : word (dropGap cs) = .accepted name rest) :
    Refuses comparisonOp cs := by
  obtain ⟨hname, hstart, _⟩ := word_accepted h
  rcases (isIdentifier_iff name).mp hname with ⟨c, tail, hchars, hc, _⟩
  rw [hchars, List.cons_append] at hstart
  have hne : ∀ d : Char, isWordStart d = false → d ≠ c := fun d hd heq =>
    ne_of_isWordStart hc hd heq.symm
  refine refuses_spaced (refuses_oneOf ?_)
  rw [hstart]
  intro p hp
  simp only [List.mem_cons, List.not_mem_nil, or_false] at hp
  rcases hp with rfl | rfl | rfl | rfl | rfl | rfl <;>
    exact refuses_symbolOp_of_start (if_neg (hne _ rfl))

theorem operationLevel_comparison {op : BinaryOp} {rest : List Char} (hop : op.level = 4)
    (hmem : op ≠ .mem) (hnotMem : op ≠ .notMem) :
    operationLevel (op.symbol.toList ++ rest) = some 4 := by
  cases op with
  | and | or | concat | add | sub | mul | div | mod => cases hop
  | mem => exact absurd rfl hmem
  | notMem => exact absurd rfl hnotMem
  | eq | ne | le | ge | lt | gt => rfl

theorem reads_comparand {op : BinaryOp} (hop : op.level = 4) {right : Expr}
    (hright : ReadsAt inner n 5 ls right) (hcs : ahead cs ≤ n)
    (h : Spells (op.lexemes ++ ls) cs mid) (hstops : Stops 5 mid) :
    Reads (comparand inner) cs (.binary op right) mid ∧ Stops 5 cs := by
  by_cases hmem : op = .mem
  · subst hmem
    rcases h.word rfl with ⟨next, hword, hshorter, hrest⟩
    have hoperand := hright.alone (by decide) (by omega) hrest hstops
    refine ⟨?_, stops_of_level (operationLevel_of_word hword) (by decide)⟩
    exact (refuses_comparisonOp_of_word hword).bind.reads_orElse <|
      (refuses_keyword_of_word hword (by decide)).bind.reads_orElse <|
      Reads.orElse ((reads_keyword hword).reads.bind (hoperand.bind (reads_pure _)))
  by_cases hnotMem : op = .notMem
  · subst hnotMem
    rcases h.word rfl with ⟨next, hnot, hshorter, hrest⟩
    rcases hrest.word rfl with ⟨start, hin, hless, hoperand⟩
    have hoperand := hright.alone (by decide) (by omega) hoperand hstops
    refine ⟨?_, stops_of_level (operationLevel_of_word hnot) (by decide)⟩
    exact (refuses_comparisonOp_of_word hnot).bind.reads_orElse <|
      Reads.orElse ((reads_keyword hnot).reads.bind
        ((reads_keyword hin).reads.bind (hoperand.bind (reads_pure _))))
  · have hlexemes : op.lexemes = [.symbol op.symbol] := by
      cases op with
      | and | or | concat | add | sub | mul | div | mod => cases hop
      | mem => exact absurd rfl hmem
      | notMem => exact absurd rfl hnotMem
      | eq | ne | le | ge | lt | gt => rfl
    have hsolid : (Lexeme.symbol op.symbol).isSolid = true := by cases op <;> rfl
    rw [hlexemes] at h
    rcases h.first hsolid with ⟨next, hstart, _, hshorter, hrest⟩
    have hoperand := hright.alone (by decide) (by omega) hrest hstops
    have hnext : ∀ more, next ≠ '=' :: more := by
      rintro more rfl
      exact (Unopened.refuses ⟨'=', more, rfl, rfl, by decide⟩ (by decide)).not_reads hoperand
    have hsign : ReadsUpTo comparisonOp cs op next := by
      refine readsUpTo_spaced (readsHere_of_eq ?_)
      rw [hstart]
      exact comparisonOp_append hop hmem hnotMem hnext
    refine ⟨Reads.orElse (hsign.reads.bind (hoperand.bind (reads_pure _))), ?_⟩
    apply stops_of_level _ (Nat.lt_succ_self 4)
    rw [hstart]
    exact operationLevel_comparison hop hmem hnotMem

theorem readsAt_comparison {op : BinaryOp} (hop : op.level = 4) {left right : Expr}
    {ls' : List Lexeme} (hleft : ReadsAt inner n 5 ls left)
    (hright : ReadsAt inner n 5 ls' right) :
    ReadsAt inner n 4 (ls ++ (op.lexemes ++ ls')) (.binary op left right) := by
  intro cs mid rest final hcs hspells hstops hmore
  obtain ⟨_, rfl, rfl⟩ := hmore
  rcases spells_append.mp hspells with ⟨sign, hfirst, hsecond⟩
  have hle := hfirst.ahead_le
  obtain ⟨hcomparand, hsign⟩ := reads_comparand hop hright (by omega) hsecond hstops
  exact (hleft.alone (by decide) hcs hfirst hsign).bind
    (hcomparand.optional.bind (reads_pure _))

theorem readsAt_test {value : Expr} {negated : Bool} (hvalue : ReadsAt inner n 5 ls value)
    (hname : isIdentifier name = true) (hnot : name ≠ "not") :
    ReadsAt inner n 4
      (ls ++ .word "is" :: ((if negated then [.word "not"] else []) ++ [.word name]))
      (.test value name negated) := by
  intro cs mid rest final hcs hspells hstops hmore
  obtain ⟨_, rfl, rfl⟩ := hmore
  rcases spells_append.mp hspells with ⟨sign, hfirst, hsecond⟩
  rcases hsecond.word rfl with ⟨start, his, _, hrest⟩
  have hsign : Stops 5 sign := stops_of_level (operationLevel_of_word his) (by decide)
  have hname : ∃ middle, Reads (Parser.optional (keyword "not")) start
      (if negated then some "not" else none) middle ∧ Reads (spaced word) middle name rest := by
    have hlast : ∀ {middle}, Spells [.word name] middle rest →
        ReadsUpTo (spaced word) middle name rest ∧
          word (dropGap middle) = .accepted name rest := by
      intro middle h
      rcases h.word hname with ⟨left, hword, _, hleft⟩
      rw [spells_nil hleft] at hword
      exact ⟨readsUpTo_spaced (readsHere_of_eq hword), hword⟩
    cases negated with
    | true =>
        rcases hrest.word rfl with ⟨middle, hword, _, hlast'⟩
        exact ⟨middle, (reads_keyword hword).reads.optional, (hlast hlast').left.reads⟩
    | false =>
        obtain ⟨hread, hword⟩ := hlast hrest
        exact ⟨start, (refuses_keyword_of_word hword hnot).optional, hread.reads⟩
  rcases hname with ⟨middle, hnegation, hname⟩
  have hcomparand : Reads (comparand inner) sign (.test negated name) rest := by
    refine (refuses_comparisonOp_of_word his).bind.reads_orElse <|
      (refuses_keyword_of_word his (by decide)).bind.reads_orElse <|
      (refuses_keyword_of_word his (by decide)).bind.reads_orElse <|
      (reads_keyword his).reads.bind (hnegation.bind ?_)
    cases negated <;> exact hname.bind (reads_pure _)
  exact (hvalue.alone (by decide) hcs hfirst hsign).bind
    (hcomparand.optional.bind (reads_pure _))

/-!
## Signs and conditionals
-/

theorem readsAt_not {operand : Expr} (hoperand : ReadsAt inner n 3 ls operand) :
    ReadsAt inner n 3 (.word "not" :: ls) (.not operand) := by
  intro cs mid rest final hcs hspells hstops hmore
  obtain ⟨hmid, rfl, rfl⟩ := hmore
  rcases hspells.word rfl with ⟨start, hword, hshorter, hrest⟩
  have hread := hoperand.alone (by decide) (by omega) hrest hmid
  change Reads (negation inner) cs _ _
  change Reads (negation inner) start operand rest at hread
  rw [negation_eq] at hread ⊢
  exact reads_signed_sign (consumes_keyword "not") (reads_keyword hword).reads hread

theorem readsAt_neg {operand : Expr} (hoperand : ReadsAt inner n 8 ls operand) :
    ReadsAt inner n 8 (.symbol "-" :: ls) (.neg operand) := by
  intro cs mid rest final hcs hspells hstops hmore
  obtain ⟨hmid, rfl, rfl⟩ := hmore
  rcases hspells.character (c := '-') rfl rfl with ⟨start, hstart, hshorter, hrest⟩
  have hread := hoperand.alone (by decide) (by omega) hrest hmid
  have hsign : Reads (afterGap (char '-')) cs '-' start := by
    refine reads_afterGap (readsHere_of_eq ?_)
    rw [hstart]
    exact char_cons '-' start
  change Reads (unary inner) cs _ _
  change Reads (unary inner) start operand rest at hread
  rw [unary_eq] at hread ⊢
  exact reads_signed_sign (consumes_char '-') hsign hread

theorem readsAt_conditional {condition yes : Expr} {no : Option Expr} {ls' ls'' : List Lexeme}
    (hyes : ReadsAt inner n 1 ls yes) (hcondition : ReadsAt inner n 1 ls' condition)
    (hno : ∀ {cs mid : List Char}, ahead cs < n → Spells ls'' cs mid → Stops 0 mid →
      Reads (Parser.optional (elsePart inner)) cs no mid ∧ Stops 1 cs) :
    ReadsAt inner n 0 (ls ++ .word "if" :: (ls' ++ ls'')) (.cond condition yes no) := by
  intro cs mid rest final hcs hspells hstops hmore
  obtain ⟨hmid, rfl, rfl⟩ := hmore
  rcases spells_append.mp hspells with ⟨sign, hfirst, hsecond⟩
  rcases hsecond.word rfl with ⟨start, hif, hshorter, hrest⟩
  rcases spells_append.mp hrest with ⟨after, hthird, hfourth⟩
  have hle := hfirst.ahead_le
  have hthirdLe := hthird.ahead_le
  obtain ⟨helse, hafter⟩ := hno (by omega) hfourth hmid
  have hsign : Stops 1 sign := stops_of_level (operationLevel_of_word hif) (by decide)
  have htail : Reads (conditionPart inner) sign (condition, no) rest :=
    (reads_keyword hif).reads.bind
      ((hcondition.alone (by decide) (by omega) hthird hafter).bind
        (helse.bind (reads_pure _)))
  exact (hyes.alone (by decide) hcs hfirst hsign).bind (htail.optional.bind (reads_pure _))

/-!
## Whole expressions
-/

/-- Every expression is read at its own level.  The operands outside brackets are read by this
theorem, those inside brackets and after `else` by the parser of nested expressions. -/
theorem readsAt_level (hinner : ReadsBelow inner n) :
    ∀ e : Expr, e.isWritable = true → ReadsAt inner n e.level e.bare e
  | .lit value, he => readsAt_literal he
  | .var name, he => readsAt_var he
  | .list items, he => readsAt_list hinner he
  | .dict entries, he => readsAt_dict hinner he
  | .attr base name, he => by
      simp only [Expr.isWritable, Bool.and_eq_true] at he
      have hbase := readsAt_level hinner base he.left
      exact readsAt_attr (readsAt_enclosed hinner he.left hbase 10 (by decide)) he.right
  | .index base key, he => by
      simp only [Expr.isWritable, Bool.and_eq_true] at he
      have hbase := readsAt_level hinner base he.left
      exact readsAt_index hinner (readsAt_enclosed hinner he.left hbase 10 (by decide)) he.right
  | .call callee args keywords, he => by
      simp only [Expr.isWritable, Bool.and_eq_true] at he
      obtain ⟨⟨hcallee, hargs⟩, hkeywords⟩ := he
      have hread := readsAt_level hinner callee hcallee
      exact readsAt_call hinner (readsAt_enclosed hinner hcallee hread 10 (by decide)) hargs
        hkeywords
  | .filter value name args, he => by
      simp only [Expr.isWritable, Bool.and_eq_true] at he
      obtain ⟨⟨hvalue, hname⟩, hargs⟩ := he
      have hown := readsAt_level hinner value hvalue
      have hread := readsAt_enclosed hinner hvalue hown 9 (by decide)
      cases args with
      | nil => exact readsAt_plainFilter hread hname
      | cons arg args => exact readsAt_callFilter hinner hread hname hargs
  | .test value name negated, he => by
      simp only [Expr.isWritable, Bool.and_eq_true, bne_iff_ne] at he
      obtain ⟨⟨hvalue, hname⟩, hnot⟩ := he
      have hread := readsAt_level hinner value hvalue
      exact readsAt_test (readsAt_enclosed hinner hvalue hread 5 (by decide)) hname hnot
  | .not operand, he => by
      have hoperand : operand.isWritable = true := he
      have hread := readsAt_level hinner operand hoperand
      exact readsAt_not (readsAt_enclosed hinner hoperand hread 3 (by decide))
  | .neg operand, he => by
      have hoperand : operand.isWritable = true := he
      have hread := readsAt_level hinner operand hoperand
      exact readsAt_neg (readsAt_enclosed hinner hoperand hread 8 (by decide))
  | .binary op left right, he => by
      simp only [Expr.isWritable, Bool.and_eq_true] at he
      have hleft := readsAt_enclosed hinner he.left (readsAt_level hinner left he.left)
      have hright := readsAt_enclosed hinner he.right (readsAt_level hinner right he.right)
      have hle := op.level_le
      change ReadsAt inner n op.level (enclosed op.leftLevel left.level left.bare ++
        (op.lexemes ++ enclosed (op.level + 1) right.level right.bare)) _
      unfold BinaryOp.leftLevel
      split
      case isTrue hop =>
        rw [hop]
        exact readsAt_comparison hop (hleft 5 (by decide)) (hright 5 (by decide))
      case isFalse hop =>
        exact readsAt_grouped hop (hleft op.level (by omega)) (hright (op.level + 1) (by omega))
  | .cond condition yes none, he => by
      simp only [Expr.isWritable, Bool.and_eq_true] at he
      have hcondition := readsAt_enclosed hinner he.left
        (readsAt_level hinner condition he.left) 1 (by decide)
      have hyes := readsAt_enclosed hinner he.right
        (readsAt_level hinner yes he.right) 1 (by decide)
      have hno : ∀ {cs mid : List Char}, ahead cs < n → Spells [] cs mid → Stops 0 mid →
          Reads (Parser.optional (elsePart inner)) cs none mid ∧ Stops 1 cs := by
        intro cs mid _ hspells hmid
        rw [spells_nil hspells]
        exact ⟨(refuses_elsePart hmid).optional, hmid.mono (Nat.zero_le 1)⟩
      have hread := readsAt_conditional hyes hcondition hno
      rw [List.append_nil] at hread
      exact hread
  | .cond condition yes (some no), he => by
      simp only [Expr.isWritable, Bool.and_eq_true] at he
      obtain ⟨⟨hcondition, hyes⟩, hno⟩ := he
      have hconditionRead := readsAt_enclosed hinner hcondition
        (readsAt_level hinner condition hcondition) 1 (by decide)
      have hyesRead := readsAt_enclosed hinner hyes (readsAt_level hinner yes hyes) 1 (by decide)
      refine readsAt_conditional hyesRead hconditionRead fun {cs mid} hcs hspells hmid => ?_
      rcases hspells.word rfl with ⟨start, helse, hshorter, hrest⟩
      have hread := hinner.reads hno (by omega) hrest hmid
      exact ⟨((reads_keyword helse).reads.bind hread).optional,
        stops_of_level (operationLevel_of_word helse) (by decide)⟩

theorem readsBelow_conditional (hinner : ReadsBelow inner n) :
    ReadsBelow (conditional inner) (n + 1) where
  reads := fun {e _ _} he hcs hspells hstops =>
    ((readsAt_level hinner e he).looser e.level_le (Nat.zero_le _)).alone (Nat.zero_le _)
      (Nat.le_of_lt_succ hcs) hspells hstops
  refuses := fun _ h => h.refuses (Nat.zero_le _)

theorem readsBelow_expressionWithin (n : Nat) : ReadsBelow (expressionWithin n) n := by
  induction n with
  | zero => exact ⟨fun _ h => absurd h (Nat.not_lt_zero _), fun h => absurd h (Nat.not_lt_zero _)⟩
  | succ n ih => exact readsBelow_conditional ih

theorem reads_expression (he : e.isWritable = true) (h : Spells e.bare cs rest)
    (hrest : Stops 0 rest) : Reads expression cs e rest := by
  intro ds hds
  have hlength := ahead_le_length ds
  rw [hds.ahead_eq] at hlength
  exact (readsBelow_expressionWithin (ds.length + 1)).reads he (Nat.lt_succ_of_le hlength) h hrest
    ds hds

end Grammar

open Grammar Text

theorem stops_of_gap {space : List Char} (hspace : ∀ c ∈ space, isGap c = true) (l : Nat) :
    Stops l space := by
  have hnil : dropGap space = [] := List.dropWhile_eq_nil_iff.mpr hspace
  intro k hk
  rw [hnil] at hk
  cases hk

theorem Expr.parse_of_spells (template : String) {e : Expr} {cs space : List Char}
    (he : e.isWritable = true) (h : Spells e.bare cs space)
    (hspace : ∀ c ∈ space, isGap c = true) : Expr.parse template cs = .ok e := by
  have hnil : dropGap space = [] := List.dropWhile_eq_nil_iff.mpr hspace
  have hread := (reads_expression he h (stops_of_gap hspace 0)).spaced cs rfl
  rw [hnil] at hread
  unfold Expr.parse readWhole TransformChain.Parser.whole
  rw [hread]

/-- A written expression is read back from its printed text, and from every text that has other
white space between its lexemes and at its end. -/
theorem parse_print (template : String) (e : Expr) (he : e.isWritable = true) :
    Expr.parse template e.print.toList = .ok e ∧
      ∀ cs space, Spells e.bare cs space → (∀ c ∈ space, isGap c = true) →
        Expr.parse template cs = .ok e := by
  have hspelled : ∀ cs space, Spells e.bare cs space → (∀ c ∈ space, isGap c = true) →
      Expr.parse template cs = .ok e :=
    fun cs space h hspace => Expr.parse_of_spells template he h hspace
  refine ⟨hspelled _ [] ?_ (fun c hc => absurd hc List.not_mem_nil), hspelled⟩
  have hprint : e.print.toList = spread e.bare ++ [] := by
    rw [List.append_nil]
    exact String.toList_ofList
  rw [hprint]
  exact (spellsApart_spread e.bare (fun c hc => by cases hc)).spells

def quotedMembership : Expr :=
  .binary .and (.not (.binary .mem (.var "a") (.list [.lit (.int 1)])))
    (.filter (.neg (.var "b")) "f" [.lit (.str "it's")])

theorem parse_print_quotedMembership :
    quotedMembership.isWritable = true ∧
      Expr.parse "t" quotedMembership.print.toList = .ok quotedMembership ∧
      Spells quotedMembership.bare "not a\tin[1 ]and(-b)|\nf( 'it\\'s')\r\n".toList "\r\n".toList ∧
      Expr.parse "t" "not a\tin[1 ]and(-b)|\nf( 'it\\'s')\r\n".toList = .ok quotedMembership := by
  have hspells : Spells quotedMembership.bare
      "not a\tin[1 ]and(-b)|\nf( 'it\\'s')\r\n".toList "\r\n".toList := by
    iterate 15 refine spells_of_dropGap rfl rfl ?_
    exact .nil
  exact ⟨by decide, (parse_print "t" quotedMembership (by decide)).left, hspells,
    (parse_print "t" quotedMembership (by decide)).right _ _ hspells (List.all_eq_true.mp rfl)⟩

end Template
end TransformChain
