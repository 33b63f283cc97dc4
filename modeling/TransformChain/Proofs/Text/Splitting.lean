import TransformChain.Proofs.Text.Splicing

/-!
# Texts cut at a character

The parts between separators hold none of them, and joining them with separators in between gives
the text back.  What stands behind the last separator is the last of the parts.
-/

namespace TransformChain
namespace Text

variable {separator : Char} {front rest text : List Char}

/-!
## Parts
-/

theorem exists_splitChar (separator : Char) (text : List Char) :
    ∃ part parts, splitChar separator text = part :: parts := by
  cases text with
  | nil => exact ⟨[], [], rfl⟩
  | cons c text =>
      unfold splitChar
      split
      · exact ⟨_, _, rfl⟩
      · split <;> exact ⟨_, _, rfl⟩

theorem splitChar_append (front rest : List Char) :
    splitChar separator (front ++ separator :: rest) =
      splitChar separator front ++ splitChar separator rest := by
  induction front with
  | nil =>
      rcases exists_splitChar separator rest with ⟨part, parts, hrest⟩
      rw [List.nil_append, splitChar]
      simp [splitChar, hrest]
  | cons c front ih =>
      rcases exists_splitChar separator front with ⟨part, parts, hfront⟩
      rw [List.cons_append, splitChar, ih, splitChar, hfront]
      simp only [List.cons_append]
      split <;> rfl

theorem splitChar_of_notMem (h : separator ∉ text) : splitChar separator text = [text] := by
  induction text with
  | nil => rfl
  | cons c text ih =>
      rw [List.mem_cons, not_or] at h
      rw [splitChar, ih h.right]
      exact if_neg (Ne.symm h.left)

theorem notMem_of_mem_splitChar {part : List Char} (h : part ∈ splitChar separator text) :
    separator ∉ part := by
  induction text generalizing part with
  | nil =>
      rw [List.mem_singleton.mp h]
      exact List.not_mem_nil
  | cons c text ih =>
      rcases exists_splitChar separator text with ⟨first, parts, htext⟩
      rw [htext] at ih
      have hfirst : separator ∉ first := ih List.mem_cons_self
      rw [splitChar, htext] at h
      simp only at h
      split at h
      case isTrue =>
        rcases List.mem_cons.mp h with rfl | hmem
        · exact List.not_mem_nil
        · exact ih hmem
      case isFalse hc =>
        rcases List.mem_cons.mp h with rfl | hmem
        · rw [List.mem_cons, not_or]
          exact ⟨Ne.symm hc, hfirst⟩
        · exact ih (List.mem_cons_of_mem first hmem)

theorem split_firstSeparator {first second : List Char} (hfirst : separator ∉ first)
    (hsecond : separator ∉ second)
    (h : first ++ separator :: front = second ++ separator :: rest) :
    first = second ∧ front = rest := by
  have hsplit := congrArg (splitChar separator) h
  rw [splitChar_append, splitChar_append, splitChar_of_notMem hfirst,
    splitChar_of_notMem hsecond] at hsplit
  injection hsplit with hsame
  rw [hsame] at h
  injection List.append_cancel_left h with _ hrest
  exact ⟨hsame, hrest⟩

theorem join_splitChar (separator : Char) (text : List Char) :
    (join (String.singleton separator) ((splitChar separator text).map String.ofList)).toList =
      text := by
  induction text with
  | nil => rfl
  | cons c text ih =>
      rcases exists_splitChar separator text with ⟨part, parts, htext⟩
      rw [htext, List.map_cons, toList_join_cons, String.toList_ofList] at ih
      rw [splitChar, htext]
      simp only
      split
      case isTrue hc =>
        rw [List.map_cons, List.map_cons, toList_join_cons, List.flatMap_cons, ← ih, hc]
        simp
      case isFalse =>
        rw [List.map_cons, toList_join_cons, String.toList_ofList, List.cons_append, ih]

theorem splitChar_join {parts : List String} (hne : parts ≠ [])
    (h : ∀ part ∈ parts, separator ∉ part.toList) :
    splitChar separator (join (String.singleton separator) parts).toList =
      parts.map String.toList := by
  induction parts with
  | nil => exact absurd rfl hne
  | cons first rest ih =>
      obtain ⟨hfirst, hrest⟩ := List.forall_mem_cons.mp h
      cases rest with
      | nil => exact splitChar_of_notMem hfirst
      | cons second others =>
          have hmore : second :: others ≠ [] := List.cons_ne_nil _ _
          have hjoin : (join (String.singleton separator) (first :: second :: others)).toList =
              first.toList ++
                separator :: (join (String.singleton separator) (second :: others)).toList := by
            rw [join_cons_of_ne_nil _ _ hmore]
            simp
          rw [hjoin, splitChar_append, splitChar_of_notMem hfirst, ih hmore hrest]
          rfl

/-!
## The last part
-/

theorem takeWhile_of_notMem (h : separator ∉ text) (rest : List Char) :
    (text.reverse ++ rest).takeWhile (fun c => c != separator) =
      text.reverse ++ rest.takeWhile (fun c => c != separator) := by
  apply List.takeWhile_append_of_pos
  intro c hc
  rw [bne_iff_ne]
  rintro rfl
  exact h (List.mem_reverse.mp hc)

theorem afterLast_of_notMem (h : separator ∉ text) : afterLast separator text = text := by
  have htake := takeWhile_of_notMem h []
  rw [List.append_nil] at htake
  rw [afterLast, htake]
  simp

theorem afterLast_append (front : List Char) (h : separator ∉ rest) :
    afterLast separator (front ++ separator :: rest) = rest := by
  rw [afterLast, List.reverse_append, List.reverse_cons, List.append_assoc, takeWhile_of_notMem h]
  simp

end Text
end TransformChain
