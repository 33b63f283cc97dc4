import TransformChain.Proofs.Template.Cutting

/-!
# White space around tags

Each tag takes white space from the texts next to it.  What remains of a text is settled by the text
and the tags on its two sides, in whatever order the tags take their turns, since what is taken from
the start of a text and what is taken from its end do not depend on each other.
-/

namespace TransformChain
namespace Template

/-!
## Both ends of a text
-/

section Ends

variable {c : Char} {cs : List Char}

theorem trimEnd_cons_of_ne_nil (h : Text.trimEnd cs ≠ []) :
    Text.trimEnd (c :: cs) = c :: Text.trimEnd cs := by
  unfold Text.trimEnd at h ⊢
  rw [List.reverse_cons, List.dropWhile_append]
  split
  case isTrue hnil =>
    rw [List.isEmpty_iff] at hnil
    exact absurd (congrArg List.reverse hnil) h
  case isFalse => simp

theorem trimEnd_cons_of_nil (hc : Text.isBlank c = true) (h : Text.trimEnd cs = []) :
    Text.trimEnd (c :: cs) = [] := by
  unfold Text.trimEnd at h ⊢
  rw [List.reverse_eq_nil_iff] at h ⊢
  rw [List.reverse_cons, List.dropWhile_append, h]
  simp [hc]

theorem dropLineEnd_trimEnd (cs : List Char) :
    dropLineEnd (Text.trimEnd cs) = Text.trimEnd (dropLineEnd cs) := by
  fun_cases dropLineEnd cs with
  | case1 rest =>
      by_cases hrest : Text.trimEnd rest = []
      · rw [trimEnd_cons_of_nil (by decide) hrest, hrest]
        rfl
      · rw [trimEnd_cons_of_ne_nil hrest]
        rfl
  | case2 rest =>
      by_cases hrest : Text.trimEnd rest = []
      · have hline : Text.trimEnd ('\n' :: rest) = [] := trimEnd_cons_of_nil (by decide) hrest
        rw [trimEnd_cons_of_nil (by decide) hline, hrest]
        rfl
      · have hline : Text.trimEnd ('\n' :: rest) = '\n' :: Text.trimEnd rest :=
          trimEnd_cons_of_ne_nil hrest
        have hne : Text.trimEnd ('\n' :: rest) ≠ [] := by
          rw [hline]
          exact List.cons_ne_nil _ _
        rw [trimEnd_cons_of_ne_nil hne, hline]
        rfl
  | case3 cs hline hreturn =>
      -- A line end at the start of what is left would be one at the start of the whole.
      have hprefix : Text.trimEnd cs <+: cs := List.rdropWhile_prefix Text.isBlank cs
      conv_lhs => unfold dropLineEnd
      split
      case h_1 rest heq =>
        obtain ⟨more, hmore⟩ := heq ▸ hprefix
        exact absurd hmore.symm (hline _)
      case h_2 rest heq =>
        obtain ⟨more, hmore⟩ := heq ▸ hprefix
        exact absurd hmore.symm (hreturn _)
      case h_3 => rfl

end Ends

/-!
## What remains
-/

/-- What remains of a text between two tags.  At its end all white space goes if the tag behind it
has a dash there; at its start all white space if the tag in front has one, and otherwise one line
end if that tag is a block or a comment. -/
def remaining (before after : Option Tag) (raw : List Char) : List Char :=
  let ended := if after.any Tag.trimBefore then Text.trimEnd raw else raw
  if before.any Tag.trimAfter then Text.trimStart ended
  else if before.any (fun tag => tag.kind != .output) then dropLineEnd ended
  else ended

theorem remaining_nil (before after : Option Tag) : remaining before after [] = [] := by
  have hended : (if after.any Tag.trimBefore then Text.trimEnd [] else []) = ([] : List Char) :=
    ite_self _
  unfold remaining
  simp only [hended]
  split
  · rfl
  · exact ite_self _

theorem remaining_none (raw : List Char) : remaining none none raw = raw := rfl

theorem remaining_after_tag (tag : Tag) (after : Option Tag) (raw : List Char) :
    remaining (some tag) after raw = trimAfterTag tag (remaining none after raw) := by
  rcases tag with ⟨kind, content, dash, dashAfter⟩
  unfold remaining trimAfterTag
  cases dashAfter <;> cases kind <;> simp

theorem remaining_before_tag (before : Option Tag) (tag : Tag) (raw : List Char) :
    remaining before (some tag) raw = trimBeforeTag tag (remaining before none raw) := by
  unfold remaining trimBeforeTag
  cases htrim : tag.trimBefore with
  | false => simp [htrim]
  | true =>
      simp only [Option.any_some, htrim, if_true, Option.any_none]
      split
      · exact Text.trimStart_trimEnd raw
      · split
        · exact dropLineEnd_trimEnd raw
        · rfl

/-!
## Neighbours
-/

def tagAt? (segments : List Segment) (k : Nat) : Option Tag :=
  match segments[k]? with
  | some (.tag found) => some found
  | _ => none

def tagBefore? (first : Option Tag) (tags : Nat → Option Tag) : Nat → Option Tag
  | 0 => first
  | k + 1 => tags k

def Segment.mapText (f : List Char → List Char) : Segment → Segment
  | .text raw => .text (f raw)
  | .tag found => .tag found

def trimmedBy (first : Option Tag) (tags : Nat → Option Tag) (segments : List Segment) :
    List Segment :=
  segments.mapIdx fun k segment =>
    segment.mapText (remaining (tagBefore? first tags k) (tags (k + 1)))

def settled (segments : List Segment) : List Segment :=
  trimmedBy none (tagAt? segments) segments

/-- The parts after the tag at a place, if there is one, has taken white space from the texts on its
two sides. -/
def trimAround (segments : List Segment) (k : Nat) : List Segment :=
  match tagAt? segments k with
  | none => segments
  | some tag =>
      let ended :=
        match k with
        | 0 => segments
        | before + 1 => segments.modify before (Segment.mapText (trimBeforeTag tag))
      ended.modify (k + 1) (Segment.mapText (trimAfterTag tag))

section Neighbours

variable {first : Option Tag} {tags : Nat → Option Tag} {segments : List Segment} {tag : Tag}
variable {k : Nat}

theorem trimmedBy_cons (first : Option Tag) (tags : Nat → Option Tag) (segment : Segment)
    (segments : List Segment) :
    trimmedBy first tags (segment :: segments) =
      segment.mapText (remaining first (tags 1)) ::
        trimmedBy (tags 0) (fun k => tags (k + 1)) segments := by
  unfold trimmedBy
  rw [List.mapIdx_cons]
  congr 2
  funext k
  cases k <;> rfl

theorem getElem?_trimmedBy (first : Option Tag) (tags : Nat → Option Tag)
    (segments : List Segment) (k : Nat) :
    (trimmedBy first tags segments)[k]? = segments[k]?.map fun segment =>
      segment.mapText (remaining (tagBefore? first tags k) (tags (k + 1))) :=
  List.getElem?_mapIdx

theorem tagAt?_trimmedBy : tagAt? (trimmedBy first tags segments) k = tagAt? segments k := by
  unfold tagAt?
  rw [getElem?_trimmedBy]
  cases segments[k]? with
  | none => rfl
  | some segment => cases segment <;> rfl

theorem mapText_self (segment : Segment) : segment.mapText (fun raw => raw) = segment := by
  cases segment <;> rfl

theorem getElem?_modify_mapText (f : List Char → List Char) (segments : List Segment)
    (j i : Nat) :
    (segments.modify j (Segment.mapText f))[i]? =
      segments[i]?.map (Segment.mapText fun raw => if j = i then f raw else raw) := by
  rw [List.getElem?_modify]
  change segments[i]?.map _ = _
  congr 1
  funext segment
  split
  · rfl
  · exact (mapText_self segment).symm

theorem getElem?_trimAround (h : tagAt? segments k = some tag) (i : Nat) :
    (trimAround segments k)[i]? = segments[i]?.map (Segment.mapText fun raw =>
      if i = k + 1 then trimAfterTag tag raw
      else if i + 1 = k then trimBeforeTag tag raw
      else raw) := by
  unfold trimAround
  rw [h]
  cases k with
  | zero =>
      have hfirst : i + 1 ≠ 0 := Nat.succ_ne_zero i
      simp only [getElem?_modify_mapText, hfirst, if_false, eq_comm]
  | succ before =>
      simp only
      rw [getElem?_modify_mapText, getElem?_modify_mapText, Option.map_map]
      congr 1
      funext segment
      cases segment with
      | tag found => rfl
      | text raw =>
          simp only [Function.comp_apply, Segment.mapText, Nat.add_right_cancel_iff]
          by_cases hafter : i = before + 1 + 1
          · have hother : before ≠ i := by omega
            rw [if_neg hother, if_pos hafter, if_pos hafter.symm]
          · rw [if_neg hafter, if_neg (Ne.symm hafter)]
            simp only [eq_comm]

theorem trimAround_trimmedBy (h : tags k = none) :
    trimAround (trimmedBy none tags segments) k =
      trimmedBy none (Function.update tags k (tagAt? segments k)) segments := by
  cases htag : tagAt? segments k with
  | none =>
      have hsame : Function.update tags k none = tags := by
        rw [← h, Function.update_eq_self]
      unfold trimAround
      rw [tagAt?_trimmedBy, htag, hsame]
  | some tag =>
      apply List.ext_getElem?
      intro i
      rw [getElem?_trimAround (tagAt?_trimmedBy.trans htag), getElem?_trimmedBy,
        getElem?_trimmedBy, Option.map_map]
      congr 1
      funext segment
      cases segment with
      | tag found => rfl
      | text raw =>
          by_cases hafter : i = k + 1
          · have hother : k + 1 + 1 ≠ k := by omega
            subst hafter
            simp only [Function.comp_apply, Segment.mapText, if_true, tagBefore?,
              Function.update_self, Function.update_of_ne hother, h, remaining_after_tag tag]
          · have hlast : tagBefore? none (Function.update tags k (some tag)) i =
                tagBefore? none tags i := by
              cases i with
              | zero => rfl
              | succ before => exact Function.update_of_ne (by omega) _ _
            simp only [Function.comp_apply, Segment.mapText, if_neg hafter, hlast]
            by_cases hbefore : i + 1 = k
            · rw [if_pos hbefore, hbefore, Function.update_self, h, remaining_before_tag]
            · rw [if_neg hbefore, Function.update_of_ne hbefore]

/-- Whatever the order in which tags take their turns, each text is left with what remains between
them. -/
theorem foldl_trimAround {order : List Nat} (hnodup : order.Nodup)
    (htags : ∀ k ∈ order, tags k = none) :
    order.foldl trimAround (trimmedBy none tags segments) =
      trimmedBy none (fun k => if k ∈ order then tagAt? segments k else tags k) segments := by
  induction order generalizing tags with
  | nil => simp
  | cons k order ih =>
      obtain ⟨hk, hnodup⟩ := List.nodup_cons.mp hnodup
      obtain ⟨hfirst, hrest⟩ := List.forall_mem_cons.mp htags
      have hupdated : ∀ j ∈ order, Function.update tags k (tagAt? segments k) j = none := by
        intro j hj
        have hne : j ≠ k := fun heq => hk (heq ▸ hj)
        rw [Function.update_of_ne hne]
        exact hrest j hj
      rw [List.foldl_cons, trimAround_trimmedBy hfirst, ih hnodup hupdated]
      congr 1
      funext j
      by_cases hj : j = k
      · subst hj
        rw [if_neg hk, Function.update_self, if_pos List.mem_cons_self]
      · rw [Function.update_of_ne hj]
        simp only [List.mem_cons, hj, false_or]

theorem trimmedBy_none (segments : List Segment) :
    trimmedBy none (fun _ => none) segments = segments := by
  induction segments with
  | nil => rfl
  | cons segment segments ih =>
      rw [trimmedBy_cons, ih]
      cases segment <;> rfl

theorem foldl_trimAround_of_perm {order : List Nat} (h : order.Perm (List.range segments.length)) :
    order.foldl trimAround segments = settled segments := by
  have hnodup : order.Nodup := h.nodup_iff.mpr List.nodup_range
  have htags : (fun k => if k ∈ order then tagAt? segments k else none) = tagAt? segments := by
    funext k
    split
    case isTrue => rfl
    case isFalse hk =>
      have hlength : segments.length ≤ k := by
        rw [h.mem_iff, List.mem_range] at hk
        exact Nat.le_of_not_lt hk
      unfold tagAt?
      rw [List.getElem?_eq_none hlength]
  have hfold : order.foldl trimAround (trimmedBy none (fun _ => none) segments) = _ :=
    foldl_trimAround hnodup fun _ _ => rfl
  rw [trimmedBy_none, htags] at hfold
  exact hfold

end Neighbours

/-!
## Tokens
-/

def Segment.tokens : Segment → List Token
  | .text raw => textTokens raw
  | .tag found => found.tokens

theorem trimmedBy_tag (first : Option Tag) (tag : Tag) (segments : List Segment) :
    trimmedBy first (tagAt? (.tag tag :: segments)) (.tag tag :: segments) =
      .tag tag :: trimmedBy (some tag) (tagAt? segments) segments :=
  trimmedBy_cons _ _ _ _

theorem trimmedBy_text (first : Option Tag) (raw : List Char) (segments : List Segment) :
    trimmedBy first (tagAt? (.text raw :: segments)) (.text raw :: segments) =
      .text (remaining first (tagAt? segments 0) raw) ::
        trimmedBy none (tagAt? segments) segments :=
  trimmedBy_cons _ _ _ _

theorem tokensFrom_eq (first : Option Tag) (raw : List Char) (tail : List (Tag × List Char)) :
    Scan.tokensFrom (remaining first none raw) tail =
      (trimmedBy first (tagAt? (Scan.segments ⟨raw, tail⟩)) (Scan.segments ⟨raw, tail⟩)).flatMap
        Segment.tokens := by
  induction tail generalizing first raw with
  | nil =>
      cases raw with
      | nil =>
          rw [remaining_nil]
          rfl
      | cons c raw =>
          have hsegments : Scan.segments ⟨c :: raw, []⟩ = [.text (c :: raw)] := rfl
          rw [hsegments, trimmedBy_text]
          exact (List.append_nil _).symm
  | cons part rest ih =>
      obtain ⟨tag, next⟩ := part
      have hsegments : Scan.segments ⟨raw, (tag, next) :: rest⟩ =
          textSegments raw ++ .tag tag :: Scan.segments ⟨next, rest⟩ := by
        simp [Scan.segments]
      have hnext : trimAfterTag tag next = remaining (some tag) none next := by
        rw [remaining_after_tag, remaining_none]
      have hrest := ih (some tag) next
      rw [Scan.tokensFrom, ← remaining_before_tag, hnext, hrest, hsegments]
      cases raw with
      | nil =>
          rw [remaining_nil]
          change _ = (trimmedBy first (tagAt? (.tag tag :: _)) (.tag tag :: _)).flatMap _
          rw [trimmedBy_tag]
          rfl
      | cons c raw =>
          change _ = (trimmedBy first (tagAt? (.text (c :: raw) :: .tag tag :: _))
            (.text (c :: raw) :: .tag tag :: _)).flatMap _
          rw [trimmedBy_text, trimmedBy_tag, List.flatMap_cons, List.flatMap_cons,
            ← List.append_assoc]
          rfl

theorem tokens_eq (scan : Scan) : scan.tokens = (settled scan.segments).flatMap Segment.tokens :=
  tokensFrom_eq none scan.head scan.tail

theorem tokenize_eq_error_iff {source : List Char} {fault : SyntaxFault} :
    tokenize source = .error fault ↔
      ∃ rest, Unclosed source rest ∧ fault = .unclosedTag (Text.snippet rest) := by
  rw [← Scan.ofChars_eq_error_iff]
  unfold tokenize
  cases Scan.ofChars source with
  | ok scan => simp
  | error reason => simp

theorem tokenize_eq_ok_iff {source : List Char} {tokens : List Token} :
    tokenize source = .ok tokens ↔
      ∃ segments, Cuts source segments ∧ tokens = (settled segments).flatMap Segment.tokens := by
  have hscan : tokenize source = .ok tokens ↔
      ∃ scan, Scan.ofChars source = .ok scan ∧ tokens = scan.tokens := by
    unfold tokenize
    cases Scan.ofChars source with
    | ok scan => simp [eq_comm]
    | error reason => simp
  rw [hscan]
  constructor
  · rintro ⟨scan, hread, rfl⟩
    exact ⟨scan.segments, cuts_iff.mpr ⟨scan, hread, rfl⟩, tokens_eq scan⟩
  · rintro ⟨segments, hcuts, rfl⟩
    obtain ⟨scan, hread, rfl⟩ := cuts_iff.mp hcuts
    exact ⟨scan, hread, (tokens_eq scan).symm⟩

/-- Nothing of a template is lost but the white space that its tags take.  It fails exactly if, from
the left, some opener has no closing delimiter outside of strings, and the error shows the template
from there.  Otherwise its tokens are those of the only parts it can be cut into, which put together
are the template and hold no opener in their texts: each text with what remains of it between the
tags on its two sides, which is the same in whatever order the tags take their white space. -/
theorem tokenize_lossless :
    (∀ source fault, tokenize source = .error fault ↔
      ∃ rest, Unclosed source rest ∧ fault = .unclosedTag (Text.snippet rest)) ∧
    (∀ source tokens, tokenize source = .ok tokens ↔
      ∃ segments, Cuts source segments ∧ tokens = (settled segments).flatMap Segment.tokens) ∧
    (∀ source segments, Cuts source segments →
      segments.flatMap Segment.chars = source ∧
      (∀ raw, Segment.text raw ∈ segments → raw ≠ [] ∧ HoldsNoOpener raw) ∧
      ∀ others, Cuts source others → others = segments) ∧
    ∀ (segments : List Segment) (order : List Nat), order.Perm (List.range segments.length) →
      order.foldl trimAround segments = settled segments := by
  refine ⟨fun source fault => tokenize_eq_error_iff, fun source tokens => tokenize_eq_ok_iff,
    fun source segments hcuts => ?_, fun segments order => foldl_trimAround_of_perm⟩
  exact ⟨hcuts.flatMap_chars, fun raw => hcuts.holdsNoOpener, fun others => hcuts.unique⟩

def conditionSource : List Char :=
  "a   \x7b%- if x -%\x7d   b   \x7b%- endif %\x7d\nc".toList

theorem condition_tokenized :
    ∃ segments, Cuts conditionSource segments ∧
      segments.flatMap Segment.chars = conditionSource ∧
      ((List.range segments.length).reverse.foldl trimAround segments).flatMap Segment.tokens =
        [.text ['a'], .block " if x ".toList, .text ['b'], .block " endif ".toList,
          .text ['c']] := by
  have htokens : tokenize conditionSource =
      .ok [.text ['a'], .block " if x ".toList, .text ['b'], .block " endif ".toList,
        .text ['c']] := by
    decide +kernel
  obtain ⟨-, hok, hcut, horder⟩ := tokenize_lossless
  obtain ⟨segments, hcuts, hsettled⟩ := (hok _ _).mp htokens
  refine ⟨segments, hcuts, (hcut _ _ hcuts).left, ?_⟩
  rw [horder segments _ (List.reverse_perm _), hsettled]

end Template
end TransformChain
