import TransformChain.Proofs.Template.EmbeddedTags

/-!
# Cutting templates at their tags

A template is cut at each opener that is found from the left.  The tag ends at the first closing
delimiter that does not stand in a string, and an opener without one is where the cutting fails.
-/

namespace TransformChain
namespace Template

/-!
## Strings inside tags
-/

/-- What follows the opening quote of a string, with the closing quote at its end.  A backslash
hides the character behind it. -/
inductive Quotation (quote : Char) : List Char → Prop where
  | close : Quotation quote [quote]
  | hidden {c : Char} {cs : List Char} : Quotation quote cs → Quotation quote ('\\' :: c :: cs)
  | char {c : Char} {cs : List Char} :
      c ≠ '\\' → c ≠ quote → Quotation quote cs → Quotation quote (c :: cs)

/-- A row of whole strings and of characters outside of strings. -/
inductive WholeStrings (kind : TagKind) : List Char → Prop where
  | nil : WholeStrings kind []
  | char {c : Char} {cs : List Char} :
      ¬kind.Opens c → WholeStrings kind cs → WholeStrings kind (c :: cs)
  | string {quote : Char} {inside cs : List Char} :
      kind.Opens quote → Quotation quote inside → WholeStrings kind cs →
      WholeStrings kind (quote :: (inside ++ cs))

def WholeFrom (kind : TagKind) : Option Char → List Char → Prop
  | none, cs => WholeStrings kind cs
  | some quote, cs =>
      ∃ inside rest, cs = inside ++ rest ∧ Quotation quote inside ∧ WholeStrings kind rest

section Strings

variable {kind : TagKind} {quote c : Char} {cs : List Char}

theorem wholeFrom_opening (hc : kind.Opens c) :
    WholeFrom kind none (c :: cs) ↔ WholeFrom kind (some c) cs := by
  constructor
  · intro h
    cases h with
    | char hplain _ => exact absurd hc hplain
    | string _ hinside hrest => exact ⟨_, _, rfl, hinside, hrest⟩
  · rintro ⟨inside, rest, rfl, hinside, hrest⟩
    exact .string hc hinside hrest

theorem wholeFrom_plain (hc : ¬kind.Opens c) :
    WholeFrom kind none (c :: cs) ↔ WholeFrom kind none cs := by
  constructor
  · intro h
    cases h with
    | char _ hrest => exact hrest
    | string hquote _ _ => exact absurd hquote hc
  · exact WholeStrings.char hc

theorem not_wholeFrom_nil : ¬WholeFrom kind (some quote) [] := by
  rintro ⟨inside, rest, hcs, hinside, -⟩
  rw [(List.append_eq_nil_iff.mp hcs.symm).left] at hinside
  cases hinside

theorem wholeFrom_hidden (hquote : quote ≠ '\\') :
    WholeFrom kind (some quote) ('\\' :: c :: cs) ↔ WholeFrom kind (some quote) cs := by
  constructor
  · rintro ⟨inside, rest, hcs, hinside, hrest⟩
    cases hinside with
    | close => exact absurd (List.cons.inj hcs).left.symm hquote
    | hidden hinside =>
        cases hcs
        exact ⟨_, rest, rfl, hinside, hrest⟩
    | char hplain _ _ => exact absurd (List.cons.inj hcs).left.symm hplain
  · rintro ⟨inside, rest, rfl, hinside, hrest⟩
    exact ⟨_, rest, rfl, .hidden hinside, hrest⟩

theorem not_wholeFrom_backslash (hquote : quote ≠ '\\') :
    ¬WholeFrom kind (some quote) ['\\'] := by
  rintro ⟨inside, rest, hcs, hinside, -⟩
  cases hinside with
  | close => exact hquote (List.cons.inj hcs).left.symm
  | hidden hinside => cases hcs
  | char hplain _ _ => exact hplain (List.cons.inj hcs).left.symm

theorem wholeFrom_inside (hc : c ≠ '\\') :
    WholeFrom kind (some quote) (c :: cs) ↔
      WholeFrom kind (if c = quote then none else some quote) cs := by
  by_cases hend : c = quote
  · rw [if_pos hend, hend]
    constructor
    · rintro ⟨inside, rest, hcs, hinside, hrest⟩
      cases hinside with
      | close =>
          cases hcs
          exact hrest
      | hidden _ => exact absurd (hend.trans (List.cons.inj hcs).left) hc
      | char _ hne _ => exact absurd (List.cons.inj hcs).left.symm hne
    · exact fun hrest => ⟨[quote], cs, rfl, .close, hrest⟩
  · rw [if_neg hend]
    constructor
    · rintro ⟨inside, rest, hcs, hinside, hrest⟩
      cases hinside with
      | close => exact absurd (List.cons.inj hcs).left hend
      | hidden _ => exact absurd (List.cons.inj hcs).left hc
      | char _ _ hinside =>
          cases hcs
          exact ⟨_, rest, rfl, hinside, hrest⟩
    · rintro ⟨inside, rest, rfl, hinside, hrest⟩
      exact ⟨c :: inside, rest, rfl, .char hc hend hinside, hrest⟩

end Strings

/-!
## Closing delimiters
-/

structure ClosesAt (kind : TagKind) (cs body after : List Char) : Prop where
  text : cs = body ++ kind.closer :: '\x7d' :: after
  whole : WholeStrings kind body

section Closing

variable {kind : TagKind} {quote : Option Char} {cs body after : List Char}

theorem TagKind.Opens.ne_backslash {c : Char} (h : kind.Opens c) : some c ≠ some '\\' := by
  rintro ⟨rfl⟩
  exact absurd h.right (by decide)

theorem ne_backslash_behind {quote : Char} (h : some quote ≠ some '\\') (c : Char) :
    (if c = quote then none else some quote) ≠ some '\\' := by
  split
  · exact (Option.some_ne_none _).symm
  · exact h

theorem wholeFrom_of_closeTag (hquote : quote ≠ some '\\')
    (h : closeTag kind quote cs = some (body, after)) : WholeFrom kind quote body := by
  fun_induction closeTag kind quote cs generalizing body after with
  | case1 | case2 | case4 | case6 | case8 | case11 => cases h
  | case3 quote d rest inside later hfound ih =>
      cases h
      exact (wholeFrom_hidden (mt (congrArg some) hquote)).mpr (ih hquote hfound)
  | case5 quote c d rest hescape inside later hfound ih =>
      cases h
      exact (wholeFrom_inside hescape).mpr (ih (ne_backslash_behind hquote c) hfound)
  | case7 c d rest hopens inside later hfound ih =>
      cases h
      have hc : kind.Opens c := hopens
      exact (wholeFrom_opening hc).mpr (ih hc.ne_backslash hfound)
  | case9 c d rest hopens hend =>
      cases h
      exact .nil
  | case10 c d rest hopens hend inside later hfound ih =>
      cases h
      exact (wholeFrom_plain hopens).mpr (ih (Option.some_ne_none _).symm hfound)

def EndsWithin (kind : TagKind) (quote : Option Char) (cs : List Char) (length : Nat) : Prop :=
  ∃ found later, closeTag kind quote cs = some (found, later) ∧ found.length ≤ length

theorem EndsWithin.behind {next : Option Char} {front rest : List Char} {length : Nat}
    (h : EndsWithin kind next rest length)
    (hstep : closeTag kind quote cs = (closeTag kind next rest).map (prepend front)) :
    EndsWithin kind quote cs (length + front.length) := by
  rcases h with ⟨found, later, hfound, hle⟩
  refine ⟨front ++ found, later, ?_, ?_⟩
  · rw [hstep, hfound]
    rfl
  · rw [List.length_append]
    omega

theorem WholeFrom.endsWithin {quote : Option Char} {body : List Char}
    (h : WholeFrom kind quote body) (hquote : quote ≠ some '\\') (after : List Char) :
    EndsWithin kind quote (body ++ kind.closer :: '\x7d' :: after) body.length := by
  have hne : ∀ front : List Char, front ++ kind.closer :: '\x7d' :: after ≠ [] := fun front =>
    List.append_ne_nil_of_right_ne_nil front (List.cons_ne_nil _ _)
  -- By recursion on the body, of which a backslash in a string takes two characters at once.
  match quote, body with
  | none, [] => exact ⟨[], after, closeTag_closer kind after, Nat.le_refl 0⟩
  | none, c :: body =>
      by_cases hc : kind.Opens c
      · have hrest := WholeFrom.endsWithin ((wholeFrom_opening hc).mp h) hc.ne_backslash after
        exact hrest.behind (closeTag_opening hc (hne body))
      · by_cases hend : c = kind.closer ∧
            (body ++ kind.closer :: '\x7d' :: after).head? = some '\x7d'
        · rcases List.head?_eq_some_iff.mp hend.right with ⟨later, hlater⟩
          refine ⟨[], later, ?_, Nat.zero_le _⟩
          rw [List.cons_append, hlater, hend.left]
          exact closeTag_closer kind later
        · have hrest := WholeFrom.endsWithin ((wholeFrom_plain hc).mp h) hquote after
          exact hrest.behind (closeTag_plain hc hend (hne body))
  | some quote, [] => exact absurd h not_wholeFrom_nil
  | some quote, c :: body =>
      by_cases hc : c = '\\'
      · subst hc
        have hplain : quote ≠ '\\' := mt (congrArg some) hquote
        cases body with
        | nil => exact absurd h (not_wholeFrom_backslash hplain)
        | cons d body =>
            have hrest := WholeFrom.endsWithin ((wholeFrom_hidden hplain).mp h) hquote after
            exact hrest.behind (closeTag_hidden kind quote d _)
      · have hnext := ne_backslash_behind hquote c
        have hrest := WholeFrom.endsWithin ((wholeFrom_inside hc).mp h) hnext after
        exact hrest.behind (closeTag_inside hc (hne body))

theorem closesAt_of_closeTag (h : closeTag kind none cs = some (body, after)) :
    ClosesAt kind cs body after :=
  ⟨eq_of_closeTag h, wholeFrom_of_closeTag (Option.some_ne_none _).symm h⟩

theorem ClosesAt.endsWithin (h : ClosesAt kind cs body after) :
    EndsWithin kind none cs body.length := by
  have hwhole : WholeFrom kind none body := h.whole
  rw [h.text]
  exact hwhole.endsWithin (Option.some_ne_none _).symm after

theorem closeTag_eq_none_iff :
    closeTag kind none cs = none ↔ ∀ body after, ¬ClosesAt kind cs body after := by
  constructor
  · intro hnone body after hcloses
    obtain ⟨found, later, hfound, -⟩ := hcloses.endsWithin
    rw [hnone] at hfound
    cases hfound
  · intro h
    cases hfound : closeTag kind none cs with
    | none => rfl
    | some found => exact absurd (closesAt_of_closeTag hfound) (h found.1 found.2)

theorem closeTag_eq_some_iff :
    closeTag kind none cs = some (body, after) ↔ ClosesAt kind cs body after ∧
      ∀ later rest, ClosesAt kind cs later rest → body.length ≤ later.length := by
  have hfirst : ∀ {found rest}, closeTag kind none cs = some (found, rest) →
      ∀ later more, ClosesAt kind cs later more → found.length ≤ later.length := by
    intro found rest hfound later more hcloses
    obtain ⟨other, _, hother, hle⟩ := hcloses.endsWithin
    rw [hfound, Option.some.injEq, Prod.mk.injEq] at hother
    rw [hother.left]
    exact hle
  constructor
  · exact fun h => ⟨closesAt_of_closeTag h, hfirst h⟩
  · rintro ⟨hcloses, hleast⟩
    cases hfound : closeTag kind none cs with
    | none => exact absurd hcloses (closeTag_eq_none_iff.mp hfound body after)
    | some found =>
        have hends := closesAt_of_closeTag hfound
        have hlength : found.1.length = body.length :=
          Nat.le_antisymm (hfirst hfound body after hcloses) (hleast found.1 found.2 hends)
        obtain ⟨hbody, hrest⟩ :=
          List.append_inj (hends.text.symm.trans hcloses.text) hlength
        injection hrest with _ hrest
        injection hrest with _ hrest
        rw [← hbody, ← hrest]

end Closing

/-!
## Tags
-/

def dashes (dash : Bool) : List Char :=
  if dash then ['-'] else []

def Tag.body (tag : Tag) : List Char :=
  dashes tag.trimBefore ++ tag.content ++ dashes tag.trimAfter

def Tag.chars (tag : Tag) : List Char :=
  tag.kind.tagText tag.body

/-- The text begins with the tag, which ends at its first closing delimiter outside of strings.  A
dash next to a delimiter is never part of the content. -/
structure Tag.Begins (tag : Tag) (cs after : List Char) : Prop where
  text : cs = tag.chars ++ after
  whole : WholeStrings tag.kind tag.body
  first : ∀ body rest,
    ClosesAt tag.kind (tag.body ++ tag.kind.closer :: '\x7d' :: after) body rest →
    tag.body.length ≤ body.length
  dashBefore : tag.trimBefore = false → tag.body.head? ≠ some '-'
  dashAfter : tag.trimAfter = false → tag.content.getLast? ≠ some '-'

def Tag.ofBody (kind : TagKind) (body : List Char) : Tag :=
  Tag.ofRaw kind (takeDash body).1 (takeDash body).2

section Tags

variable {kind : TagKind} {tag : Tag} {cs body after : List Char}

theorem takeDash_of_head? (h : cs.head? ≠ some '-') : takeDash cs = (false, cs) := by
  unfold takeDash
  split
  case h_1 => exact absurd rfl h
  case h_2 => rfl

theorem dashes_takeDash (cs : List Char) : dashes (takeDash cs).1 ++ (takeDash cs).2 = cs := by
  unfold takeDash
  split <;> rfl

theorem head?_of_takeDash (h : (takeDash cs).1 = false) : cs.head? ≠ some '-' := by
  intro hhead
  rcases List.head?_eq_some_iff.mp hhead with ⟨rest, rfl⟩
  cases h

theorem body_ofRaw (kind : TagKind) (dash : Bool) (raw : List Char) :
    (Tag.ofRaw kind dash raw).body = dashes dash ++ raw := by
  unfold Tag.ofRaw Tag.body
  split
  case isTrue hdash =>
    simp only [List.append_assoc]
    exact congrArg _ (List.dropLast_append_getLast? '-' hdash)
  case isFalse => simp [dashes]

theorem dashAfter_ofRaw (kind : TagKind) (dash : Bool) (raw : List Char)
    (h : (Tag.ofRaw kind dash raw).trimAfter = false) :
    (Tag.ofRaw kind dash raw).content.getLast? ≠ some '-' := by
  unfold Tag.ofRaw at h ⊢
  split
  case isTrue hdash =>
    rw [if_pos hdash] at h
    cases h
  case isFalse hdash => exact hdash

theorem kind_ofRaw (kind : TagKind) (dash : Bool) (raw : List Char) :
    (Tag.ofRaw kind dash raw).kind = kind := by
  unfold Tag.ofRaw
  split <;> rfl

theorem trimBefore_ofRaw (kind : TagKind) (dash : Bool) (raw : List Char) :
    (Tag.ofRaw kind dash raw).trimBefore = dash := by
  unfold Tag.ofRaw
  split <;> rfl

theorem ofBody_eq_iff : Tag.ofBody kind body = tag ↔ tag.kind = kind ∧ tag.body = body ∧
    (tag.trimBefore = false → tag.body.head? ≠ some '-') ∧
    (tag.trimAfter = false → tag.content.getLast? ≠ some '-') := by
  constructor
  · rintro rfl
    have hbody : (Tag.ofBody kind body).body = body :=
      (body_ofRaw _ _ _).trans (dashes_takeDash body)
    refine ⟨kind_ofRaw _ _ _, hbody, fun h => ?_, dashAfter_ofRaw _ _ _⟩
    rw [hbody]
    exact head?_of_takeDash ((trimBefore_ofRaw _ _ _).symm.trans h)
  · rintro ⟨rfl, rfl, hbefore, hafter⟩
    have htake : takeDash tag.body = (tag.trimBefore, tag.content ++ dashes tag.trimAfter) := by
      cases hdash : tag.trimBefore with
      | true => simp [Tag.body, hdash, dashes, takeDash]
      | false =>
          rw [takeDash_of_head? (hbefore hdash)]
          simp [Tag.body, hdash, dashes]
    unfold Tag.ofBody
    rw [htake]
    rcases tag with ⟨kind, content, before, after⟩
    cases after with
    | true => simp [Tag.ofRaw, dashes]
    | false =>
        have hlast : content.getLast? ≠ some '-' := hafter rfl
        simp [Tag.ofRaw, dashes, hlast]

/-- A dash behind the opening delimiter is no end and begins no string. -/
theorem closeTag_dash (kind : TagKind) (cs : List Char) :
    closeTag kind none ('-' :: cs) = (closeTag kind none cs).map (prepend ['-']) := by
  cases cs with
  | nil => rfl
  | cons c cs =>
      apply closeTag_plain
      · exact fun h => absurd h.right (by decide)
      · rintro ⟨hcloser, -⟩
        revert hcloser
        cases kind <;> decide
      · exact List.cons_ne_nil c cs

theorem readTag_eq_map (kind : TagKind) (cs : List Char) :
    readTag kind cs = (closeTag kind none cs).map fun found =>
      (Tag.ofBody kind found.1, found.2) := by
  by_cases hdash : cs.head? = some '-'
  · rcases List.head?_eq_some_iff.mp hdash with ⟨rest, rfl⟩
    rw [closeTag_dash]
    simp only [readTag, takeDash]
    cases closeTag kind none rest <;> rfl
  · simp only [readTag, takeDash_of_head? hdash]
    cases hfound : closeTag kind none cs with
    | none => rfl
    | some found =>
        have hbody : found.1.head? ≠ some '-' := by
          intro hhead
          apply hdash
          rw [eq_of_closeTag hfound, List.head?_append, hhead]
          rfl
        simp only [Option.map_some, Tag.ofBody, takeDash_of_head? hbody]

theorem readTag_eq_none_iff :
    readTag kind cs = none ↔ ∀ body after, ¬ClosesAt kind cs body after := by
  rw [readTag_eq_map, Option.map_eq_none_iff, closeTag_eq_none_iff]

theorem readTag_eq_some_iff :
    readTag kind cs = some (tag, after) ↔ tag.Begins ('\x7b' :: kind.opener :: cs) after := by
  have hread : readTag kind cs = some (tag, after) ↔
      ∃ body, closeTag kind none cs = some (body, after) ∧ Tag.ofBody kind body = tag := by
    rw [readTag_eq_map, Option.map_eq_some_iff]
    constructor
    · rintro ⟨⟨body, _⟩, hfound, heq⟩
      cases heq
      exact ⟨body, hfound, rfl⟩
    · rintro ⟨body, hfound, rfl⟩
      exact ⟨_, hfound, rfl⟩
  rw [hread]
  constructor
  · rintro ⟨body, hfound, htag⟩
    obtain ⟨rfl, rfl, hbefore, hafter⟩ := ofBody_eq_iff.mp htag
    obtain ⟨⟨rfl, hwhole⟩, hfirst⟩ := closeTag_eq_some_iff.mp hfound
    refine ⟨?_, hwhole, hfirst, hbefore, hafter⟩
    simp [Tag.chars, TagKind.tagText]
  · rintro ⟨htext, hwhole, hfirst, hbefore, hafter⟩
    have hchars : tag.chars ++ after = '\x7b' :: tag.kind.opener ::
        (tag.body ++ tag.kind.closer :: '\x7d' :: after) := by
      simp [Tag.chars, TagKind.tagText]
    rw [hchars] at htext
    injection htext with _ htext
    injection htext with hopener htext
    have hkind : tag.kind = kind := by
      have hof := congrArg TagKind.ofOpener? hopener
      rw [kind.ofOpener?_opener, tag.kind.ofOpener?_opener, Option.some.injEq] at hof
      exact hof.symm
    subst hkind
    rw [← htext] at hfirst
    exact ⟨tag.body, closeTag_eq_some_iff.mpr ⟨⟨htext, hwhole⟩, hfirst⟩,
      ofBody_eq_iff.mpr ⟨rfl, rfl, hbefore, hafter⟩⟩

end Tags

/-!
## Templates
-/

inductive Segment where
  | text (raw : List Char)
  | tag (tag : Tag)
deriving Repr, DecidableEq

def Segment.chars : Segment → List Char
  | .text raw => raw
  | .tag found => found.chars

def textSegments (raw : List Char) : List Segment :=
  if raw.isEmpty then [] else [.text raw]

/-- From the left, tags begin at the first openers that are found, and the template ends with a text
that holds none. -/
inductive Cuts : List Char → List Segment → Prop where
  | last {cs : List Char} : HoldsNoOpener cs → Cuts cs (textSegments cs)
  | tag {front cs after : List Char} {tag : Tag} {segments : List Segment} :
      Plain front → tag.Begins cs after → Cuts after segments →
      Cuts (front ++ cs) (textSegments front ++ .tag tag :: segments)

/-- Behind tags that end, the first opener that is found begins no tag, since there is no closing
delimiter for it. -/
inductive Unclosed : List Char → List Char → Prop where
  | here {front cs : List Char} {kind : TagKind} :
      Plain front → (∀ body after, ¬ClosesAt kind cs body after) →
      Unclosed (front ++ '\x7b' :: kind.opener :: cs) ('\x7b' :: kind.opener :: cs)
  | later {front cs after rest : List Char} {tag : Tag} :
      Plain front → tag.Begins cs after → Unclosed after rest → Unclosed (front ++ cs) rest

namespace Scan

def segments (scan : Scan) : List Segment :=
  textSegments scan.head ++ scan.tail.flatMap fun part => .tag part.1 :: textSegments part.2

def read (budget : Nat) (cs : List Char) : Except SyntaxFault Scan :=
  match readTags budget (breakAtTag cs).2 with
  | .ok tail => .ok ⟨(breakAtTag cs).1, tail⟩
  | .error fault => .error fault

theorem ofChars_eq_read (cs : List Char) : ofChars cs = read cs.length cs :=
  rfl

end Scan

section Cutting

variable {kind : TagKind} {tag : Tag} {front cs after rest : List Char} {segments : List Segment}

theorem Plain.breakAtTag_eq (hfront : Plain front) (kind : TagKind) (cs : List Char) :
    breakAtTag (front ++ '\x7b' :: kind.opener :: cs) = (front, '\x7b' :: kind.opener :: cs) := by
  rw [breakAtTag_of_holdsNoOpener hfront.opener hfront.last, breakAtTag_opener, List.append_nil]

theorem holdsNoOpener_or_opener (cs : List Char) :
    HoldsNoOpener cs ∨ ∃ front kind rest, cs = front ++ '\x7b' :: TagKind.opener kind :: rest ∧
      Plain front := by
  induction cs with
  | nil => exact Or.inl plain_nil.opener
  | cons c cs ih =>
      by_cases hopener : ∃ kind : TagKind, ['\x7b', kind.opener] <+: c :: cs
      · obtain ⟨kind, rest, hrest⟩ := hopener
        exact Or.inr ⟨[], kind, rest, hrest.symm, plain_nil⟩
      · rcases ih with hplain | ⟨front, kind, rest, rfl, hplain⟩
        · left
          intro kind hinfix
          rcases List.infix_cons_iff.mp hinfix with hprefix | hinside
          · exact hopener ⟨kind, hprefix⟩
          · exact hplain kind hinside
        · refine Or.inr ⟨c :: front, kind, rest, rfl, ?_, ?_⟩
          · intro other hinfix
            rcases List.infix_cons_iff.mp hinfix with hprefix | hinside
            · exact hopener ⟨other, hprefix.trans (List.prefix_append (c :: front) _)⟩
            · exact hplain.opener other hinside
          · cases front with
            | nil =>
                rintro ⟨rfl⟩
                exact hopener ⟨.output, _, rfl⟩
            | cons d front => exact hplain.last

theorem Tag.Begins.exists_readTag (h : tag.Begins cs after) :
    ∃ kind rest, cs = '\x7b' :: TagKind.opener kind :: rest ∧
      readTag kind rest = some (tag, after) := by
  have hcs : cs = '\x7b' :: tag.kind.opener ::
      (tag.body ++ [tag.kind.closer, '\x7d'] ++ after) := by
    rw [h.text]
    rfl
  exact ⟨tag.kind, _, hcs, readTag_eq_some_iff.mpr (hcs ▸ h)⟩

theorem Tag.Begins.length_lt (h : tag.Begins cs after) : after.length < cs.length := by
  rw [h.text, List.length_append]
  exact Nat.lt_add_of_pos_left (Nat.succ_pos _)

namespace Scan

theorem read_text (h : HoldsNoOpener cs) (budget : Nat) : read budget cs = .ok ⟨cs, []⟩ := by
  unfold read
  rw [breakAtTag_eq_self h]
  cases budget <;> rfl

theorem read_tag (hfront : Plain front) (h : readTag kind cs = some (tag, after)) (budget : Nat) :
    read (budget + 1) (front ++ '\x7b' :: kind.opener :: cs) =
      (read budget after).map fun scan => ⟨front, (tag, scan.head) :: scan.tail⟩ := by
  unfold read
  rw [hfront.breakAtTag_eq]
  simp only [readTags, kind.ofOpener?_opener, h]
  cases readTags budget (breakAtTag after).2 <;> rfl

theorem read_unclosed (hfront : Plain front) (h : readTag kind cs = none) (budget : Nat) :
    read (budget + 1) (front ++ '\x7b' :: kind.opener :: cs) =
      .error (.unclosedTag (Text.snippet ('\x7b' :: kind.opener :: cs))) := by
  unfold read
  rw [hfront.breakAtTag_eq]
  simp only [readTags, kind.ofOpener?_opener, h]

theorem read_eq_ofChars {budget : Nat} (hbudget : cs.length ≤ budget) :
    read budget cs = ofChars cs := by
  have hsame : ∀ {cs : List Char} {more : Nat}, cs.length ≤ budget → cs.length ≤ more →
      read budget cs = read more cs := by
    clear hbudget
    induction budget with
    | zero =>
        intro cs more hcs _
        have hnil : HoldsNoOpener cs := by
          rw [List.eq_nil_of_length_eq_zero (Nat.le_zero.mp hcs)]
          exact plain_nil.opener
        rw [read_text hnil, read_text hnil]
    | succ budget ih =>
        intro cs more hcs hmore
        rcases holdsNoOpener_or_opener cs with hplain | ⟨front, kind, rest, rfl, hfront⟩
        · rw [read_text hplain, read_text hplain]
        · rw [List.length_append, List.length_cons] at hcs hmore
          obtain ⟨more, rfl⟩ := Nat.exists_eq_add_one.mpr (show 0 < more by omega)
          cases hread : readTag kind rest with
          | none => rw [read_unclosed hfront hread, read_unclosed hfront hread]
          | some found =>
              have hshorter := (readTag_eq_some_iff.mp hread).length_lt
              rw [List.length_cons] at hshorter
              have hrest : read budget found.2 = read more found.2 := ih (by omega) (by omega)
              rw [read_tag hfront hread, read_tag hfront hread, hrest]
  exact hsame hbudget (Nat.le_refl _)

end Scan

theorem Cuts.exists_read (h : Cuts cs segments) (budget : Nat) (hbudget : cs.length ≤ budget) :
    ∃ scan, Scan.read budget cs = .ok scan ∧ scan.segments = segments := by
  induction h generalizing budget with
  | @last cs hcs =>
      refine ⟨⟨cs, []⟩, Scan.read_text hcs budget, ?_⟩
      simp [Scan.segments]
  | @tag front cs after tag segments hfront htag _ ih =>
      have hshorter := htag.length_lt
      obtain ⟨kind, rest, rfl, hread⟩ := htag.exists_readTag
      rw [List.length_append] at hbudget
      obtain ⟨budget, rfl⟩ := Nat.exists_eq_add_one.mpr (show 0 < budget by omega)
      obtain ⟨scan, hscan, rfl⟩ := ih budget (by omega)
      refine ⟨⟨front, (tag, scan.head) :: scan.tail⟩, ?_, ?_⟩
      · rw [Scan.read_tag hfront hread, hscan]
        rfl
      · simp [Scan.segments]

theorem Unclosed.read_eq (h : Unclosed cs rest) (budget : Nat) (hbudget : cs.length ≤ budget) :
    Scan.read budget cs = .error (.unclosedTag (Text.snippet rest)) := by
  induction h generalizing budget with
  | @here front cs kind hfront hcs =>
      rw [List.length_append, List.length_cons] at hbudget
      obtain ⟨budget, rfl⟩ := Nat.exists_eq_add_one.mpr (show 0 < budget by omega)
      exact Scan.read_unclosed hfront (readTag_eq_none_iff.mpr hcs) budget
  | @later front cs after opener tag hfront htag _ ih =>
      have hshorter := htag.length_lt
      obtain ⟨kind, rest, rfl, hread⟩ := htag.exists_readTag
      rw [List.length_append] at hbudget
      obtain ⟨budget, rfl⟩ := Nat.exists_eq_add_one.mpr (show 0 < budget by omega)
      rw [Scan.read_tag hfront hread, ih budget (by omega)]
      rfl

theorem cuts_or_unclosed (cs : List Char) :
    (∃ segments, Cuts cs segments) ∨ ∃ rest, Unclosed cs rest := by
  induction hlength : cs.length using Nat.strong_induction_on generalizing cs with
  | _ length ih =>
      rcases holdsNoOpener_or_opener cs with hplain | ⟨front, kind, rest, rfl, hfront⟩
      · exact Or.inl ⟨_, .last hplain⟩
      · cases hread : readTag kind rest with
        | none => exact Or.inr ⟨_, .here hfront (readTag_eq_none_iff.mp hread)⟩
        | some found =>
            have htag := readTag_eq_some_iff.mp hread
            have hshorter := htag.length_lt
            have hlt : found.2.length < length := by
              rw [← hlength, List.length_append]
              exact Nat.lt_add_left _ hshorter
            rcases ih _ hlt found.2 rfl with ⟨segments, hcuts⟩ | ⟨opener, hopener⟩
            · exact Or.inl ⟨_, .tag hfront htag hcuts⟩
            · exact Or.inr ⟨_, .later hfront htag hopener⟩

theorem Scan.ofChars_eq_error_iff {fault : SyntaxFault} :
    Scan.ofChars cs = .error fault ↔
      ∃ rest, Unclosed cs rest ∧ fault = .unclosedTag (Text.snippet rest) := by
  rw [Scan.ofChars_eq_read]
  constructor
  · intro herror
    rcases cuts_or_unclosed cs with ⟨segments, hcuts⟩ | ⟨rest, hrest⟩
    · obtain ⟨scan, hscan, -⟩ := hcuts.exists_read cs.length (Nat.le_refl _)
      rw [herror] at hscan
      cases hscan
    · have hread := hrest.read_eq cs.length (Nat.le_refl _)
      rw [herror, Except.error.injEq] at hread
      exact ⟨rest, hrest, hread⟩
  · rintro ⟨rest, hrest, rfl⟩
    exact hrest.read_eq cs.length (Nat.le_refl _)

theorem cuts_iff :
    Cuts cs segments ↔ ∃ scan, Scan.ofChars cs = .ok scan ∧ scan.segments = segments := by
  rw [Scan.ofChars_eq_read]
  constructor
  · exact fun h => h.exists_read cs.length (Nat.le_refl _)
  · rintro ⟨scan, hscan, rfl⟩
    rcases cuts_or_unclosed cs with ⟨segments, hcuts⟩ | ⟨rest, hrest⟩
    · obtain ⟨other, hother, rfl⟩ := hcuts.exists_read cs.length (Nat.le_refl _)
      rw [hscan, Except.ok.injEq] at hother
      rw [hother]
      exact hcuts
    · have hread := hrest.read_eq cs.length (Nat.le_refl _)
      rw [hscan] at hread
      cases hread

theorem Cuts.unique (h : Cuts cs segments) {others : List Segment} (hothers : Cuts cs others) :
    others = segments := by
  obtain ⟨scan, hscan, rfl⟩ := cuts_iff.mp h
  obtain ⟨other, hother, rfl⟩ := cuts_iff.mp hothers
  rw [hscan, Except.ok.injEq] at hother
  rw [hother]

theorem flatMap_chars_textSegments (raw : List Char) :
    (textSegments raw).flatMap Segment.chars = raw := by
  cases raw with
  | nil => rfl
  | cons c raw => simp [textSegments, Segment.chars]

theorem Cuts.flatMap_chars (h : Cuts cs segments) : segments.flatMap Segment.chars = cs := by
  induction h with
  | last _ => exact flatMap_chars_textSegments _
  | tag _ htag _ ih =>
      rw [List.flatMap_append, List.flatMap_cons, flatMap_chars_textSegments, ih, htag.text]
      rfl

theorem mem_textSegments {raw other : List Char} :
    Segment.text other ∈ textSegments raw ↔ raw ≠ [] ∧ other = raw := by
  cases raw <;> simp [textSegments]

theorem Cuts.holdsNoOpener (h : Cuts cs segments) {raw : List Char}
    (hraw : Segment.text raw ∈ segments) : raw ≠ [] ∧ HoldsNoOpener raw := by
  induction h with
  | last hcs =>
      obtain ⟨hne, rfl⟩ := mem_textSegments.mp hraw
      exact ⟨hne, hcs⟩
  | tag hfront _ _ ih =>
      rcases List.mem_append.mp hraw with hmem | hmem
      · obtain ⟨hne, rfl⟩ := mem_textSegments.mp hmem
        exact ⟨hne, hfront.opener⟩
      · rcases List.mem_cons.mp hmem with heq | hmem
        · cases heq
        · exact ih hmem

end Cutting
end Template
end TransformChain
