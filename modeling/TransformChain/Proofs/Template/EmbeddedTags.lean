import TransformChain.Export.Models
import TransformChain.Proofs.Template.TagScanning
import TransformChain.Proofs.Text.Splicing

/-!
# Tags put into texts

A tag that reads back by itself also reads back inside a text, whatever follows it, since the search
for its end does not look any further.  So a text with such tags put in has no tags but these, as
long as its own parts hold no opener and do not make one with the brace of a tag behind them.
-/

namespace TransformChain
namespace Template

open Text

/-!
## Openers
-/

section Parts

variable {part cs : List Char}

theorem startsWith_iff : startsWith part cs = true ↔ part <+: cs := by
  unfold startsWith
  induction part generalizing cs with
  | nil => simp [afterStart?]
  | cons a part ih =>
      cases cs with
      | nil => simp [afterStart?]
      | cons b cs =>
          rw [List.cons_prefix_cons, ← ih]
          by_cases hab : a = b
          · simp [afterStart?, hab]
          · simp [afterStart?, hab]

theorem containsPart_iff : containsPart part cs = true ↔ part <:+: cs := by
  induction cs with
  | nil => simp [containsPart]
  | cons c cs ih => simp [containsPart, startsWith_iff, ih, List.infix_cons_iff]

end Parts

def HoldsNoOpener (cs : List Char) : Prop :=
  ∀ kind : TagKind, ¬['\x7b', kind.opener] <:+: cs

section Openers

variable {cs ds : List Char}

theorem holdsNoOpener_iff : HoldsNoOpener cs ↔
    ([TagKind.output, .block, .comment].all fun kind =>
      !containsPart ['\x7b', kind.opener] cs) = true := by
  simp only [List.all_cons, List.all_nil, Bool.and_true, Bool.and_eq_true, Bool.not_eq_true',
    Bool.eq_false_iff, ne_eq, containsPart_iff]
  constructor
  · exact fun h => ⟨h .output, h .block, h .comment⟩
  · rintro ⟨houtput, hblock, hcomment⟩ kind
    cases kind with
    | output => exact houtput
    | block => exact hblock
    | comment => exact hcomment

instance : DecidablePred HoldsNoOpener :=
  fun _ => decidable_of_iff _ holdsNoOpener_iff.symm

theorem HoldsNoOpener.of_infix (h : HoldsNoOpener ds) (hwithin : cs <:+: ds) : HoldsNoOpener cs :=
  fun kind hopener => h kind (hopener.trans hwithin)

theorem HoldsNoOpener.append (h : HoldsNoOpener cs) {front : List Char} (hfront : '\x7b' ∉ front) :
    HoldsNoOpener (front ++ cs) := by
  induction front with
  | nil => exact h
  | cons c front ih =>
      rw [List.mem_cons, not_or] at hfront
      intro kind hopener
      rcases List.infix_cons_iff.mp hopener with hprefix | hinside
      · exact hfront.left (List.cons_prefix_cons.mp hprefix).left
      · exact ih hfront.right kind hinside

theorem HoldsNoOpener.concat (h : HoldsNoOpener cs) {c : Char}
    (hc : ∀ kind : TagKind, kind.opener ≠ c) : HoldsNoOpener (cs ++ [c]) := by
  intro kind hopener
  rcases List.infix_concat_iff.mp hopener with ⟨before, hsuffix⟩ | hinside
  · have hlast := congrArg List.getLast? hsuffix
    simp [List.getLast?_append] at hlast
    exact hc kind hlast
  · exact h kind hinside

theorem breakAtTag_of_holdsNoOpener (h : HoldsNoOpener cs) (hlast : cs.getLast? ≠ some '\x7b')
    (rest : List Char) :
    breakAtTag (cs ++ rest) = (cs ++ (breakAtTag rest).1, (breakAtTag rest).2) := by
  refine breakAtTag_append (fun kind => ?_) hlast
  rw [Bool.eq_false_iff, ne_eq, containsPart_iff]
  exact h kind

theorem breakAtTag_eq_self (h : HoldsNoOpener cs) : breakAtTag cs = (cs, []) := by
  by_cases hlast : cs.getLast? = some '\x7b'
  · have hcs := List.dropLast_append_getLast? '\x7b' hlast
    have hfront : cs.dropLast.getLast? ≠ some '\x7b' := by
      intro hbrace
      have hfront := List.dropLast_append_getLast? '\x7b' hbrace
      apply h .output
      rw [← hcs, ← hfront, List.append_assoc]
      exact List.infix_append' _ ['\x7b', '\x7b'] []
    have hclean := h.of_infix (List.dropLast_prefix cs).isInfix
    rw [← hcs, breakAtTag_of_holdsNoOpener hclean hfront]
    rfl
  · have hbreak := breakAtTag_of_holdsNoOpener h hlast []
    rw [List.append_nil] at hbreak
    rw [hbreak]
    simp only [breakAtTag, List.append_nil]

end Openers

/-!
## The end of a tag
-/

section Closing

variable {kind : TagKind} {quote : Option Char} {cs content after : List Char}

theorem eq_of_closeTag (h : closeTag kind quote cs = some (content, after)) :
    cs = content ++ kind.closer :: '\x7d' :: after := by
  fun_induction closeTag kind quote cs generalizing content after with
  | case1 | case2 | case4 | case6 | case8 | case11 => cases h
  | case3 quote d rest inside later hfound ih =>
      cases h
      rw [ih hfound]
      rfl
  | case5 quote c d rest hescape inside later hfound ih =>
      cases h
      rw [ih hfound]
      rfl
  | case7 c d rest hquote inside later hfound ih =>
      cases h
      rw [ih hfound]
      rfl
  | case9 c d rest hquote hend =>
      cases h
      rw [hend.left, hend.right]
      rfl
  | case10 c d rest hquote hend inside later hfound ih =>
      cases h
      rw [ih hfound]
      rfl

theorem closeTag_append (h : closeTag kind quote cs = some (content, after)) (more : List Char) :
    closeTag kind quote (cs ++ more) = some (content, after ++ more) := by
  fun_induction closeTag kind quote cs generalizing content after with
  | case1 | case2 | case4 | case6 | case8 | case11 => cases h
  | case3 quote d rest inside later hfound ih =>
      cases h
      simp [closeTag, ih hfound]
  | case5 quote c d rest hescape inside later hfound ih =>
      cases h
      have hrest := ih hfound
      rw [List.cons_append] at hrest
      simp [closeTag, hescape, hrest]
  | case7 c d rest hquote inside later hfound ih =>
      cases h
      have hrest := ih hfound
      rw [List.cons_append] at hrest
      rw [List.cons_append, List.cons_append, closeTag, if_pos hquote, hrest]
  | case9 c d rest hquote hend =>
      cases h
      rw [List.cons_append, List.cons_append, closeTag, if_neg hquote, if_pos hend]
  | case10 c d rest hquote hend inside later hfound ih =>
      cases h
      have hrest := ih hfound
      rw [List.cons_append] at hrest
      rw [List.cons_append, List.cons_append, closeTag, if_neg hquote, if_neg hend, hrest]

end Closing

/-!
## Tags that read back
-/

def tagContent (text : String) : List Char :=
  (" " ++ text ++ " ").toList

/-- The tag around the text, read by itself, is one tag with the text in it. -/
def ReadsBack (text : String) : Prop :=
  tokenize (tag text).toList = .ok [.output (tagContent text)]

section Tags

variable {text : String}

theorem toList_tag (text : String) :
    (tag text).toList = TagKind.output.tagText (tagContent text) := by
  simp [tag, TagKind.tagText, TagKind.opener, TagKind.closer, tagContent]

theorem readTag_tagContent (text : String) (rest : List Char) :
    readTag .output (tagContent text ++ rest) =
      (closeTag .output none (tagContent text ++ rest)).map fun found =>
        (Tag.ofRaw .output false found.1, found.2) := by
  have hdash : takeDash (tagContent text ++ rest) = (false, tagContent text ++ rest) := by
    have hspace : tagContent text = ' ' :: (text ++ " ").toList := by simp [tagContent]
    rw [hspace]
    rfl
  unfold readTag
  simp only [hdash]
  cases closeTag .output none (tagContent text ++ rest) <;> rfl

theorem ofRaw_tagContent (text : String) :
    Tag.ofRaw .output false (tagContent text) = ⟨.output, tagContent text, false, false⟩ := by
  have hspace : tagContent text = (" " ++ text).toList ++ [' '] := by simp [tagContent]
  unfold Tag.ofRaw
  rw [if_neg]
  rw [hspace, List.getLast?_concat]
  decide

theorem tokensFrom_ofRaw (raw text : List Char) (rest : List (Tag × List Char)) :
    Scan.tokensFrom [] ((Tag.ofRaw .output false raw, text) :: rest) =
      .output (Tag.ofRaw .output false raw).content ::
        Scan.tokensFrom (trimAfterTag (Tag.ofRaw .output false raw) text) rest := by
  unfold Tag.ofRaw
  split <;> rfl

theorem raw_of_ofRaw {raw content after : List Char}
    (hcontent : (Tag.ofRaw .output false raw).content = content)
    (h : content ++ ['\x7d', '\x7d'] = raw ++ '\x7d' :: '\x7d' :: after) :
    raw = content ∧ after = [] := by
  unfold Tag.ofRaw at hcontent
  split at hcontent
  case isTrue hdash =>
    have hraw : raw = content ++ ['-'] := by
      rw [← hcontent, List.dropLast_append_getLast? '-' hdash]
    rw [hraw, List.append_assoc] at h
    cases List.append_cancel_left h
  case isFalse =>
    change raw = content at hcontent
    rw [hcontent] at h
    cases List.append_cancel_left h
    exact ⟨hcontent, rfl⟩

theorem exists_readTag_of_tokenize {content : List Char} {tokens : List Token}
    (h : tokenize (TagKind.output.tagText content) = .ok tokens) :
    ∃ found after text rest,
      readTag .output (content ++ ['\x7d', '\x7d']) = some (found, after) ∧
      tokens = Scan.tokensFrom [] ((found, text) :: rest) := by
  have hbreak : breakAtTag (TagKind.output.tagText content) =
      ([], TagKind.output.tagText content) := by
    simpa using breakAtTag_tagText .output content []
  unfold tokenize Scan.ofChars at h
  simp only [hbreak] at h
  simp only [TagKind.tagText, TagKind.opener, TagKind.closer, List.length_cons, readTags,
    TagKind.ofOpener?, if_true] at h
  cases hread : readTag .output (content ++ ['\x7d', '\x7d']) with
  | none =>
      rw [hread] at h
      cases h
  | some found =>
      simp only [hread] at h
      cases hrest : readTags ((content ++ ['\x7d', '\x7d']).length + 1)
          (breakAtTag found.2).2 with
      | error fault =>
          rw [hrest] at h
          cases h
      | ok rest =>
          rw [hrest] at h
          cases h
          exact ⟨found.1, found.2, _, rest, rfl, rfl⟩

def Closes (text : String) : Prop :=
  closeTag .output none (tagContent text ++ ['\x7d', '\x7d']) = some (tagContent text, [])

theorem ReadsBack.closes (h : ReadsBack text) : Closes text := by
  unfold ReadsBack at h
  rw [toList_tag] at h
  rcases exists_readTag_of_tokenize h with ⟨found, after, next, rest, hread, htokens⟩
  rw [readTag_tagContent, Option.map_eq_some_iff] at hread
  rcases hread with ⟨⟨raw, after⟩, hclose, hfound⟩
  cases hfound
  rw [tokensFrom_ofRaw] at htokens
  injection htokens with hfirst _
  injection hfirst with hcontent
  obtain ⟨rfl, rfl⟩ := raw_of_ofRaw hcontent.symm (eq_of_closeTag hclose)
  exact hclose

theorem Closes.readTag_eq (h : Closes text) (after : List Char) :
    readTag .output (tagContent text ++ '\x7d' :: '\x7d' :: after) =
      some (⟨.output, tagContent text, false, false⟩, after) := by
  have hclose := closeTag_append h after
  rw [List.append_assoc] at hclose
  change closeTag .output none (tagContent text ++ '\x7d' :: '\x7d' :: after) = _ at hclose
  rw [readTag_tagContent, hclose, Option.map_some, ofRaw_tagContent, List.nil_append]

end Tags

/-!
## Texts with tags put in
-/

def tagged (parts : List (String × List Char)) : List Char :=
  parts.flatMap fun part => (tag part.1).toList ++ part.2

def taggedTokens (parts : List (String × List Char)) : List Token :=
  parts.flatMap fun part => .output (tagContent part.1) :: textTokens part.2

structure Plain (cs : List Char) : Prop where
  opener : HoldsNoOpener cs
  last : cs.getLast? ≠ some '\x7b'

/-- The tags end where they were written and are the only ones: no other begins in the texts around
them.  Behind the last tag a brace at the end begins nothing either. -/
def CleanAround : List Char → List (String × List Char) → Prop
  | head, [] => HoldsNoOpener head
  | head, part :: parts => Plain head ∧ Closes part.1 ∧ CleanAround part.2 parts

section Tagged

variable {head : List Char} {parts : List (String × List Char)}

theorem cleanAround_of_plain (hhead : Plain head)
    (h : ∀ part ∈ parts, Closes part.1 ∧ Plain part.2) : CleanAround head parts := by
  induction parts generalizing head with
  | nil => exact hhead.opener
  | cons part parts ih =>
      obtain ⟨⟨hclose, hplain⟩, hparts⟩ := List.forall_mem_cons.mp h
      exact ⟨hhead, hclose, ih hplain hparts⟩

theorem breakAtTag_tagged (parts : List (String × List Char)) :
    breakAtTag (tagged parts) = ([], tagged parts) := by
  cases parts with
  | nil => rfl
  | cons part parts =>
      unfold tagged
      rw [List.flatMap_cons, List.append_assoc, toList_tag]
      exact breakAtTag_tagText .output _ _

theorem CleanAround.breakAtTag_eq (h : CleanAround head parts) :
    breakAtTag (head ++ tagged parts) = (head, tagged parts) := by
  cases parts with
  | nil =>
      change breakAtTag (head ++ []) = (head, [])
      rw [List.append_nil]
      exact breakAtTag_eq_self h
  | cons part parts =>
      rw [breakAtTag_of_holdsNoOpener h.left.opener h.left.last, breakAtTag_tagged, List.append_nil]

theorem CleanAround.readTags_eq (h : CleanAround head parts) (budget : Nat)
    (hbudget : (tagged parts).length ≤ budget) :
    readTags budget (tagged parts) =
      .ok (parts.map fun part => (⟨.output, tagContent part.1, false, false⟩, part.2)) := by
  induction parts generalizing head budget with
  | nil => cases budget <;> rfl
  | cons part parts ih =>
      obtain ⟨_, hclose, hparts⟩ := h
      have htext : tagged (part :: parts) = '\x7b' :: '\x7b' ::
          (tagContent part.1 ++ '\x7d' :: '\x7d' :: (part.2 ++ tagged parts)) := by
        simp [tagged, toList_tag, TagKind.tagText, TagKind.opener, TagKind.closer]
      rw [htext] at hbudget ⊢
      simp only [List.length_cons, List.length_append] at hbudget
      obtain ⟨budget, rfl⟩ : ∃ n, budget = n + 1 := ⟨budget - 1, by omega⟩
      have hrest := ih hparts budget (by omega)
      simp only [readTags, TagKind.ofOpener?, if_true, hclose.readTag_eq, hparts.breakAtTag_eq,
        hrest, List.map_cons]

theorem tokensFrom_tagged (head : List Char) (parts : List (String × List Char)) :
    Scan.tokensFrom head
        (parts.map fun part => (⟨.output, tagContent part.1, false, false⟩, part.2)) =
      textTokens head ++ taggedTokens parts := by
  induction parts generalizing head with
  | nil => simp [Scan.tokensFrom, taggedTokens]
  | cons part parts ih =>
      simp only [List.map_cons, Scan.tokensFrom, trimBeforeTag, trimAfterTag, Tag.tokens,
        Bool.false_eq_true, if_false, if_true, ih, taggedTokens, List.flatMap_cons]
      simp

theorem CleanAround.tokenize_eq (h : CleanAround head parts) :
    tokenize (head ++ tagged parts) = .ok (textTokens head ++ taggedTokens parts) := by
  have hlength : (tagged parts).length ≤ (head ++ tagged parts).length := by
    rw [List.length_append]
    exact Nat.le_add_left _ _
  unfold tokenize Scan.ofChars
  simp only [h.breakAtTag_eq, h.readTags_eq _ hlength, Scan.tokens, tokensFrom_tagged]

theorem tokenize_tagged (hhead : Plain head)
    (h : ∀ part ∈ parts, Closes part.1 ∧ Plain part.2) :
    tokenize (head ++ tagged parts) = .ok (textTokens head ++ taggedTokens parts) :=
  (cleanAround_of_plain hhead h).tokenize_eq

theorem plain_nil : Plain [] :=
  ⟨fun _ hopener => List.cons_ne_nil _ _ (List.infix_nil.mp hopener), by simp⟩

theorem tokenize_tag_append {text : String} (htext : Closes text)
    (hhead : Plain head) (h : ∀ part ∈ parts, Closes part.1 ∧ Plain part.2) :
    tokenize ((tag text).toList ++ (head ++ tagged parts)) =
      .ok (.output (tagContent text) :: (textTokens head ++ taggedTokens parts)) := by
  have hparts : ∀ part ∈ (text, head) :: parts, Closes part.1 ∧ Plain part.2 :=
    List.forall_mem_cons.mpr ⟨⟨htext, hhead⟩, h⟩
  have htokens := tokenize_tagged plain_nil hparts
  have hcs : [] ++ tagged ((text, head) :: parts) =
      (tag text).toList ++ (head ++ tagged parts) := by
    simp only [tagged, List.flatMap_cons, List.nil_append, List.append_assoc]
  rw [hcs] at htokens
  rw [htokens]
  simp only [taggedTokens, List.flatMap_cons, List.cons_append]
  rfl

theorem readsBack_iff (text : String) : ReadsBack text ↔ Closes text := by
  constructor
  · exact ReadsBack.closes
  · intro h
    have htokens := tokenize_tag_append h plain_nil fun _ hpart => absurd hpart List.not_mem_nil
    have hcs : (tag text).toList ++ ([] ++ tagged []) = (tag text).toList := by
      simp only [tagged, List.flatMap_nil, List.append_nil]
    rw [hcs] at htokens
    exact htokens

end Tagged

/-!
## Texts joined by a tag
-/

def Token.resolved (relation : String) : Token → List Char
  | .text content => content
  | .output _ => relation.toList
  | .block _ => []

theorem flatMap_resolved_textTokens (relation : String) (cs : List Char) :
    (textTokens cs).flatMap (Token.resolved relation) = cs := by
  cases cs with
  | nil => rfl
  | cons c cs => simp [textTokens, Token.resolved]

section Joined

variable {separator text : String} {c : Char} {segments : List String}

theorem infix_join {segment : String} (h : segment ∈ segments) :
    segment.toList <:+: (join separator segments).toList := by
  induction segments with
  | nil => cases h
  | cons first rest ih =>
      cases rest with
      | nil =>
          rw [List.mem_singleton.mp h]
          exact List.infix_rfl
      | cons second rest =>
          simp only [join, String.toList_append]
          rcases List.mem_cons.mp h with rfl | hmem
          · rw [List.append_assoc]
            exact (List.prefix_append _ _).isInfix
          · exact (ih hmem).trans (List.suffix_append _ _).isInfix

theorem getLast?_ne_of_join (hbefore : ¬c :: separator.toList <:+: (join separator segments).toList)
    (hlast : (join separator segments).toList.getLast? ≠ some c) :
    ∀ segment ∈ segments, segment.toList.getLast? ≠ some c := by
  induction segments with
  | nil => exact fun _ h => absurd h List.not_mem_nil
  | cons first rest ih =>
      cases rest with
      | nil => exact List.forall_mem_singleton.mpr hlast
      | cons second rest =>
          simp only [join, String.toList_append] at hbefore hlast
          refine List.forall_mem_cons.mpr ⟨?_, ih ?_ ?_⟩
          · intro hfirst
            apply hbefore
            rw [← List.dropLast_append_getLast? c hfirst, List.append_assoc, List.append_assoc]
            exact List.infix_append' _ (c :: separator.toList) _
          · exact fun hwithin => hbefore (hwithin.trans (List.suffix_append _ _).isInfix)
          · intro hrest
            apply hlast
            rw [List.getLast?_append, hrest]
            rfl

theorem toList_join_tag (text first : String) (rest : List String) :
    (join (tag text) (first :: rest)).toList =
      first.toList ++ tagged (rest.map fun segment => (text, segment.toList)) := by
  rw [toList_join_cons, tagged, List.flatMap_map]
  simp only [String.toList_append]

theorem flatMap_resolved_tagged (relation text first : String) (rest : List String) :
    (textTokens first.toList ++
        taggedTokens (rest.map fun segment => (text, segment.toList))).flatMap
          (Token.resolved relation) =
      (join relation (first :: rest)).toList := by
  induction rest generalizing first with
  | nil => simp [join, taggedTokens, flatMap_resolved_textTokens]
  | cons second rest ih =>
      have hrest := ih second
      rw [List.flatMap_append] at hrest ⊢
      simp only [join, String.toList_append, ← hrest]
      simp [taggedTokens, flatMap_resolved_textTokens, Token.resolved]

end Joined

/-!
## Calls with quoted arguments
-/

section Calls

variable {text function : String} {cs ds arguments : List Char}

/-- The search for the end of a tag goes past the text, whatever follows. -/
def Passed (cs : List Char) : Prop :=
  ∀ mid : List Char, mid ≠ [] → Skips .output cs mid

theorem passed_nil : Passed [] :=
  fun _ _ => skips_nil

theorem Passed.append (hcs : Passed cs) (hds : Passed ds) : Passed (cs ++ ds) :=
  fun mid hmid => (hcs (ds ++ mid) (List.append_ne_nil_of_right_ne_nil ds hmid)).append (hds mid hmid)

theorem passed_harmless (h : ∀ c ∈ cs, isHarmless c = true) : Passed cs := by
  induction cs with
  | nil => exact passed_nil
  | cons c cs ih =>
      obtain ⟨hc, hcs⟩ := List.forall_mem_cons.mp h
      simp only [isHarmless, Bool.and_eq_true, bne_iff_ne] at hc
      have hfirst : Passed [c] := fun mid hmid =>
        skips_singleton hc.left hmid (Or.inl hc.right)
      exact hfirst.append (ih hcs)

theorem passed_string (content : String) : Passed (Lexeme.text content).chars :=
  fun _ hmid => skips_string content (by decide) hmid

theorem passed_join {separator : String} {segments : List String}
    (hseparator : Passed separator.toList) (h : ∀ segment ∈ segments, Passed segment.toList) :
    Passed (join separator segments).toList := by
  induction segments with
  | nil => exact passed_nil
  | cons first rest ih =>
      obtain ⟨hfirst, hrest⟩ := List.forall_mem_cons.mp h
      cases rest with
      | nil => exact hfirst
      | cons second rest =>
          simp only [join, String.toList_append]
          exact (hfirst.append hseparator).append (ih hrest)

theorem passed_quoted (h : ∀ c ∈ cs, c ≠ '\\' ∧ c ≠ '\'') : Passed ('\'' :: (cs ++ ['\''])) := by
  have hescape : cs.flatMap Lexeme.escape = cs := by
    have hsame : ∀ c ∈ cs, Lexeme.escape c = [c] := by
      intro c hc
      unfold Lexeme.escape
      rw [if_neg (not_or.mpr (h c hc))]
    rw [List.flatMap_congr hsame, List.flatMap_singleton']
  have hstring := passed_string (String.ofList cs)
  rw [Lexeme.chars, String.toList_ofList, hescape] at hstring
  exact hstring

theorem readsBack_call (htext : text.toList = function.toList ++ '(' :: (arguments ++ [')']))
    (hfunction : ∀ c ∈ function.toList, isHarmless c = true) (harguments : Passed arguments) :
    ReadsBack text := by
  have hblank : Passed [' '] := passed_harmless (List.forall_mem_singleton.mpr (by decide))
  have hopen : Passed ['('] := passed_harmless (List.forall_mem_singleton.mpr (by decide))
  have hclose : Passed [')'] := passed_harmless (List.forall_mem_singleton.mpr (by decide))
  have hcontent : tagContent text =
      [' '] ++ (function.toList ++ (['('] ++ (arguments ++ ([')'] ++ [' '])))) := by
    simp [tagContent, htext]
  have hpassed : Passed (tagContent text) := by
    rw [hcontent]
    exact hblank.append ((passed_harmless hfunction).append
      (hopen.append (harguments.append (hclose.append hblank))))
  have hskips := hpassed ['\x7d', '\x7d'] (List.cons_ne_nil _ _)
  rw [readsBack_iff]
  unfold Closes
  rw [hskips]
  simp [closeTag, prepend, TagKind.closer]

end Calls
end Template
end TransformChain
