import Mathlib.Data.List.Forall2
import TransformChain.Proofs.Template.Levels

/-!
# Expressions inside brackets

Items between brackets are read back one by one: each item's own parser stops at the comma or the
closing bracket behind it.  An argument given by place is never taken for one given by name.
-/

namespace TransformChain
namespace Template
namespace Grammar

open Text TransformChain.Parser

/-- The parser of nested expressions reads every written expression from texts of fewer than `n`
characters, and refuses the texts that no expression begins. -/
structure ReadsBelow (inner : Parser Expr) (n : Nat) : Prop where
  reads : ∀ {e : Expr} {cs rest : List Char}, e.isWritable = true → ahead cs < n →
    Spells e.bare cs rest → Stops 0 rest → Reads inner cs e rest
  refuses : ∀ {cs : List Char}, ahead cs < n → Unopened cs → Refuses inner cs

def isClosing (c : Char) : Bool :=
  c == ')' || c == ']' || c == '\x7d'

def Closes (cs : List Char) : Prop :=
  ∃ c rest, dropGap cs = c :: rest ∧ (c = ',' ∨ isClosing c = true)

def ReadsItem (item : Parser α) (n : Nat) (ls : List Lexeme) (result : α) : Prop :=
  ∀ ⦃cs mid : List Char⦄, ahead cs < n → Spells ls cs mid → Closes mid →
    ReadsUpTo item cs result mid

variable {inner : Parser Expr} {n : Nat} {c : Char} {cs mid rest : List Char} {e : Expr}

theorem isClosing_cases (h : isClosing c = true) : c = ')' ∨ c = ']' ∨ c = '\x7d' := by
  simpa [isClosing, or_assoc] using h

theorem unopened_of_isClosing (h : isClosing c = true) (hcs : dropGap cs = c :: rest) :
    Unopened cs := by
  refine ⟨c, rest, hcs, ?_⟩
  rcases isClosing_cases h with rfl | rfl | rfl <;> decide

theorem stops_of_start (hcs : dropGap cs = c :: rest) (hlevel : operationLevel (c :: rest) = none)
    (l : Nat) : Stops l cs := by
  intro k hk
  rw [hcs, hlevel] at hk
  cases hk

theorem Closes.stops (h : Closes cs) (l : Nat) : Stops l cs := by
  rcases h with ⟨c, rest, hcs, hc⟩
  apply stops_of_start hcs
  rcases hc with rfl | hc
  · rfl
  · rcases isClosing_cases hc with rfl | rfl | rfl <;> rfl

/-!
## Items with commas between them
-/

theorem commaJoined_cons (ls : List Lexeme) (others : List (List Lexeme)) :
    commaJoined (ls :: others) = ls ++ others.flatMap fun ls => .symbol "," :: ls := by
  unfold commaJoined
  induction others generalizing ls with
  | nil => simp
  | cons next others ih => simp [List.intercalate_cons_cons, ih]

theorem closes_of_others {others : List (List Lexeme)}
    (h : Spells (others.flatMap fun ls => .symbol "," :: ls) cs mid) (hmid : Closes mid) :
    Closes cs := by
  cases others with
  | nil =>
      rw [spells_nil h]
      exact hmid
  | cons ls others =>
      rw [List.flatMap_cons, List.cons_append] at h
      rcases h.character (c := ',') rfl rfl with ⟨next, hnext, _⟩
      exact ⟨',', next, hnext, Or.inl rfl⟩

theorem runsMany_items {item : Parser α} {lists : List (List Lexeme)} {results : List α}
    (hitems : List.Forall₂ (ReadsItem item n) lists results) (hc : isClosing c = true)
    (hmid : dropGap mid = c :: rest) (hcs : ahead cs ≤ n)
    (h : Spells (lists.flatMap fun ls => .symbol "," :: ls) cs mid) :
    RunsMany (andThen (char ',') fun _ => item) (dropGap cs) results (dropGap mid) ∧
      results.length ≤ ahead cs := by
  induction hitems generalizing cs with
  | nil =>
      rw [spells_nil h, hmid]
      refine ⟨.nil (RefusesHere.bind (refuses_char_of_ne ?_)), Nat.zero_le _⟩
      rintro rfl
      cases hc
  | @cons ls result lists results hfirst _ ih =>
      rw [List.flatMap_cons, List.cons_append] at h
      rcases h.character (c := ',') rfl rfl with ⟨start, hstart, hshorter, hrest⟩
      rcases spells_append.mp hrest with ⟨next, hitem, hothers⟩
      have hnext : Closes next := closes_of_others hothers ⟨c, rest, hmid, Or.inr hc⟩
      have hread := hfirst (Nat.lt_of_lt_of_le hshorter hcs) hitem hnext start rfl
      have hle := hitem.ahead_le
      rcases ih (by omega) hothers with ⟨hmany, hlength⟩
      constructor
      · refine .cons ?_ hmany
        rw [hstart]
        exact (bind_accepted (char_cons ',' start)).trans hread
      · rw [List.length_cons]
        omega

theorem separated_eq {item : Parser α} {lists : List (List Lexeme)} {results : List α}
    {symbol : String} (hitems : List.Forall₂ (ReadsItem item n) lists results)
    (hempty : ∀ {cs : List Char}, ahead cs < n → Unopened cs → Refuses item cs)
    (hsymbol : symbol.toList = [c]) (hc : isClosing c = true) (hcs : ahead cs < n)
    (h : Spells (commaJoined lists ++ [.symbol symbol]) cs rest) :
    ∃ left, separated (char ',') item cs = .accepted results left ∧ dropGap left = c :: rest := by
  have hgap : isGap c = false := by rcases isClosing_cases hc with rfl | rfl | rfl <;> rfl
  rcases spells_append.mp h with ⟨mid, hlists, hclosing⟩
  rcases hclosing.character hsymbol hgap with ⟨left, hmid, _, hleft⟩
  rw [spells_nil hleft] at hmid
  cases hitems with
  | nil =>
      have hsame : cs = mid := spells_nil hlists
      subst hsame
      rcases (hempty hcs (unopened_of_isClosing hc hmid)) cs rfl with ⟨place, hplace⟩
      refine ⟨cs, ?_, hmid⟩
      unfold separated
      rw [hplace]
  | cons hfirst hothers =>
      rw [commaJoined_cons] at hlists
      rcases spells_append.mp hlists with ⟨next, hitem, hrest⟩
      have hnext : Closes next := closes_of_others hrest ⟨c, rest, hmid, Or.inr hc⟩
      have hle := hitem.ahead_le
      rcases runsMany_items hothers hc hmid (by omega) hrest with ⟨hmany, hlength⟩
      refine ⟨dropGap mid, ?_, by rw [dropGap_idem, hmid]⟩
      unfold separated
      rw [hfirst hcs hitem hnext cs rfl]
      simp only [hmany.many_eq hlength]

theorem bracketed_eq {item : Parser α} {lists : List (List Lexeme)} {results : List α}
    {symbol : String} (opening : Char) (hitems : List.Forall₂ (ReadsItem item n) lists results)
    (hempty : ∀ {cs : List Char}, ahead cs < n → Unopened cs → Refuses item cs)
    (hsymbol : symbol.toList = [c]) (hc : isClosing c = true) (hcs : ahead cs < n)
    (h : Spells (commaJoined lists ++ [.symbol symbol]) cs rest) :
    bracketed opening c item (opening :: cs) = .accepted results rest := by
  rcases separated_eq hitems hempty hsymbol hc hcs h with ⟨left, hread, hleft⟩
  have hcomma : Refuses (spaced (char ',')) left := by
    apply refuses_spaced
    rw [hleft]
    apply refuses_char_of_ne
    rintro rfl
    cases hc
  unfold bracketed
  rw [bind_accepted (char_cons opening cs), bind_accepted hread,
    bind_accepted (hcomma left rfl).optional_eq, gap_bind, afterGap, hleft,
    bind_accepted (char_cons c rest)]
  rfl

/-!
## Elements and entries
-/

theorem readsItem_spaced (hinner : ReadsBelow inner n) (he : e.isWritable = true) :
    ReadsItem (spaced inner) n e.bare e :=
  fun _ _ hcs hspells hmid => (hinner.reads he hcs hspells (hmid.stops 0)).spaced

theorem readsItems (hinner : ReadsBelow inner n) (items : List Expr)
    (hitems : areWritable items = true) :
    List.Forall₂ (ReadsItem (spaced inner) n) (itemsLexemes items) items := by
  induction items with
  | nil => exact .nil
  | cons item items ih =>
      simp only [areWritable, Bool.and_eq_true] at hitems
      exact .cons (readsItem_spaced hinner hitems.left) (ih hitems.right)

theorem readsItem_entry (hinner : ReadsBelow inner n) {key value : Expr}
    (hkey : key.isWritable = true) (hvalue : value.isWritable = true) :
    ReadsItem (entry inner) n (key.bare ++ .symbol ":" :: value.bare) (key, value) := by
  intro cs mid hcs hspells hmid ds hds
  rcases spells_append.mp hspells with ⟨colon, hfirst, hrest⟩
  rcases hrest.character (c := ':') rfl rfl with ⟨next, hcolon, hshorter, hsecond⟩
  have hle := hfirst.ahead_le
  have hfirst : ReadsUpTo (spaced inner) cs key colon :=
    (hinner.reads hkey hcs hfirst (stops_of_start hcolon rfl 0)).spaced
  have hsecond : ReadsUpTo (spaced inner) next value mid :=
    (hinner.reads hvalue (by omega) hsecond (hmid.stops 0)).spaced
  unfold entry
  rw [bind_accepted (hfirst ds hds), hcolon, bind_accepted (char_cons ':' next),
    bind_accepted (hsecond next rfl)]
  rfl

theorem readsEntries (hinner : ReadsBelow inner n) (entries : List (Expr × Expr))
    (hentries : entriesAreWritable entries = true) :
    List.Forall₂ (ReadsItem (entry inner) n) (entriesLexemes entries) entries := by
  induction entries with
  | nil => exact .nil
  | cons entry entries ih =>
      rcases entry with ⟨key, value⟩
      simp only [entriesAreWritable, Bool.and_eq_true] at hentries
      exact .cons (readsItem_entry hinner hentries.left.left hentries.left.right)
        (ih hentries.right)

/-!
## Arguments
-/

/-- A name in front of a single equals sign is an expression that ends there. -/
theorem reads_name_before_equals (hinner : ReadsBelow inner n) (hcs : ahead cs < n)
    {name : String} {after : List Char} (hword : word (dropGap cs) = .accepted name mid)
    (hreserved : reserved.contains name = false) (hmid : dropGap mid = '=' :: after)
    (hafter : ¬∃ more, after = '=' :: more) : Reads inner cs (.var name) mid := by
  obtain ⟨hname, hstart, hends⟩ := word_accepted hword
  have hnone : operationLevel ('=' :: after) = none := by
    cases after with
    | nil => rfl
    | cons d more =>
        have hd : d ≠ '=' := fun heq => hafter ⟨more, by rw [heq]⟩
        simp [operationLevel, symbolLevel, hd, show isWordStart '=' = false from rfl]
  refine hinner.reads ?_ hcs (spells_of_dropGap hstart hends .nil) (stops_of_start hmid hnone 0)
  simp only [Expr.isWritable, isVariableName, hname, hreserved, Bool.not_false, Bool.and_self]

/-- An argument given by place is not taken for one given by name: had it a name and an equals
sign in front, the name alone would have been read. -/
theorem refuses_namedArgument (hinner : ReadsBelow inner n) (hcs : ahead cs < n)
    (h : Reads inner cs e mid) (hmid : Closes mid) : Refuses (namedArgument inner) cs := by
  unfold namedArgument
  rcases word_or_refuses cs with ⟨name, left, hword⟩ | ⟨hrefuses, _⟩
  case inr => exact (refuses_spaced hrefuses.verify).bind
  cases hreserved : reserved.contains name with
  | true => exact (refuses_spaced (verify_failed hword (by rw [hreserved]; rfl))).bind
  | false =>
      have hread : ReadsUpTo (spaced identifier) cs name left :=
        readsUpTo_spaced (readsHere_of_eq (verify_accepted hword (by rw [hreserved]; rfl)))
      intro ds hds
      unfold RefusesHere
      rw [bind_accepted (hread ds hds)]
      by_cases hequals : ∃ after, dropGap left = '=' :: after
      case neg => exact (refuses_char fun after heq => hequals ⟨after, heq⟩).bind
      obtain ⟨after, hafter⟩ := hequals
      rw [hafter, bind_accepted (char_cons '=' after)]
      by_cases htwice : ∃ more, after = '=' :: more
      case pos =>
        obtain ⟨more, rfl⟩ := htwice
        exact RefusesHere.bind ⟨'=' :: more, by unfold notAhead; rw [char_cons]⟩
      exfalso
      have hvariable := reads_name_before_equals hinner hcs hword hreserved hafter htwice
      rcases h.here with ⟨l₁, hl₁, hsame₁⟩
      rcases hvariable.here with ⟨l₂, hl₂, hsame₂⟩
      rw [hl₁] at hl₂
      cases hl₂
      rcases hmid with ⟨c, more, hmid, hc⟩
      rw [← hsame₁, hsame₂, hafter] at hmid
      cases hmid
      rcases hc with hc | hc <;> exact absurd hc (by decide)

theorem readsItem_plain (hinner : ReadsBelow inner n) (he : e.isWritable = true) :
    ReadsItem (orElse (namedArgument inner) (plainArgument inner)) n e.bare (none, e) := by
  intro cs mid hcs hspells hmid
  have hread := hinner.reads he hcs hspells (hmid.stops 0)
  exact (refuses_namedArgument hinner hcs hread hmid).readsUpTo_orElse hread.spaced.map

theorem readsItem_named (hinner : ReadsBelow inner n) {name : String}
    (hname : isVariableName name = true) (he : e.isWritable = true) :
    ReadsItem (orElse (namedArgument inner) (plainArgument inner)) n
      (.word name :: .symbol "=" :: e.bare) (some name, e) := by
  intro cs mid hcs hspells hmid
  simp only [isVariableName, Bool.and_eq_true] at hname
  rcases hspells.word hname.left with ⟨equals, hword, hless, hrest⟩
  rcases hrest.character (c := '=') rfl rfl with ⟨start, hstart, hshorter, hvalue⟩
  have hvalue := hinner.reads he (by omega) hvalue (hmid.stops 0)
  have hname : ReadsUpTo (spaced identifier) cs name equals :=
    readsUpTo_spaced (readsHere_of_eq (verify_accepted hword hname.right))
  have hahead : notAhead (char '=') start = .accepted () start := by
    have hrefuses : RefusesHere (char '=') start := by
      refine refuses_char fun left heq => ?_
      have hunopened : Unopened start := ⟨'=', left, by rw [heq]; rfl, rfl, by decide⟩
      exact (hinner.refuses (by omega) hunopened).not_reads hvalue
    rcases hrefuses with ⟨place, hplace⟩
    unfold notAhead
    rw [hplace]
  refine ReadsUpTo.orElse fun ds hds => ?_
  unfold namedArgument
  rw [bind_accepted (hname ds hds), hstart, bind_accepted (char_cons '=' start),
    bind_accepted hahead, bind_accepted (hvalue.spaced start rfl)]
  rfl

def callArguments (args : List Expr) (keywords : List (String × Expr)) : List CallArgument :=
  args.map (fun e => (none, e)) ++ keywords.map (fun k => (some k.1, k.2))

theorem readsArguments (hinner : ReadsBelow inner n) (args : List Expr)
    (keywords : List (String × Expr)) (hargs : areWritable args = true)
    (hkeywords : namedAreWritable keywords = true) :
    List.Forall₂ (ReadsItem (orElse (namedArgument inner) (plainArgument inner)) n)
      (itemsLexemes args ++ namedLexemes keywords) (callArguments args keywords) := by
  apply List.rel_append
  · induction args with
    | nil => exact .nil
    | cons e args ih =>
        simp only [areWritable, Bool.and_eq_true] at hargs
        exact .cons (readsItem_plain hinner hargs.left) (ih hargs.right)
  · induction keywords with
    | nil => exact .nil
    | cons keyword keywords ih =>
        rcases keyword with ⟨name, e⟩
        simp only [namedAreWritable, Bool.and_eq_true] at hkeywords
        exact .cons (readsItem_named hinner hkeywords.left.left hkeywords.left.right)
          (ih hkeywords.right)

theorem positional_callArguments (args : List Expr) (keywords : List (String × Expr)) :
    positional (callArguments args keywords) = args := by
  simp [positional, callArguments, List.filterMap_map]

theorem named_callArguments (args : List Expr) (keywords : List (String × Expr)) :
    named (callArguments args keywords) = keywords := by
  simp [named, callArguments, List.filterMap_map]

theorem refuses_argument (hinner : ReadsBelow inner n) (hcs : ahead cs < n) (h : Unopened cs) :
    Refuses (orElse (namedArgument inner) (plainArgument inner)) cs :=
  (refuses_spaced h.refuses_word.verify).bind.orElse (hinner.refuses hcs h).spaced.bind

theorem arguments_eq (hinner : ReadsBelow inner n) {args : List Expr}
    {keywords : List (String × Expr)} (hargs : areWritable args = true)
    (hkeywords : namedAreWritable keywords = true) (hcs : ahead cs < n)
    (h : Spells (commaJoined (itemsLexemes args ++ namedLexemes keywords) ++ [.symbol ")"]) cs
      rest) :
    arguments inner ('(' :: cs) = .accepted (callArguments args keywords) rest :=
  bracketed_eq '(' (readsArguments hinner args keywords hargs hkeywords)
    (refuses_argument hinner) rfl rfl hcs h

end Grammar
end Template
end TransformChain
