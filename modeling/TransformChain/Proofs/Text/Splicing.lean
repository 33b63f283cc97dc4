import Mathlib.Data.List.DropRight
import Mathlib.Data.List.TakeWhile
import TransformChain.Text.Blank
import TransformChain.Text.Join

/-!
# Texts with a part left open

A text that is written around another one is that other one joined between segments.  Two such texts
with the same segments differ in what stands between the segments only.
-/

namespace TransformChain
namespace Text

/-!
## Joined segments
-/

theorem join_cons_of_ne_nil (separator first : String) {rest : List String} (h : rest ≠ []) :
    join separator (first :: rest) = first ++ separator ++ join separator rest := by
  cases rest with
  | nil => exact absurd rfl h
  | cons second rest => rfl

theorem toList_join_cons (separator first : String) (rest : List String) :
    (join separator (first :: rest)).toList =
      first.toList ++ rest.flatMap fun text => (separator ++ text).toList := by
  induction rest generalizing first with
  | nil => simp [join]
  | cons second rest ih => simp [join, ih]

theorem join_append (separator : String) {before after : List String} (hbefore : before ≠ [])
    (hafter : after ≠ []) :
    join separator (before ++ after) =
      join separator before ++ separator ++ join separator after := by
  induction before with
  | nil => exact absurd rfl hbefore
  | cons first rest ih =>
      cases rest with
      | nil => exact join_cons_of_ne_nil separator first hafter
      | cons second rest =>
          have hne : second :: rest ≠ [] := List.cons_ne_nil _ _
          rw [List.cons_append,
            join_cons_of_ne_nil _ _ (List.append_ne_nil_of_left_ne_nil hne after), ih hne,
            join_cons_of_ne_nil _ _ hne]
          simp only [String.append_assoc]

theorem join_eq_empty_iff {separator : String} (hseparator : separator ≠ "")
    (texts : List String) : join separator texts = "" ↔ texts = [] ∨ texts = [""] := by
  cases texts with
  | nil => simp [join]
  | cons first rest =>
      cases rest with
      | nil => simp [join]
      | cons second rest => simp [join, String.append_eq_empty_iff, hseparator]

/-- Two lists of segments as one: the last segment of the first list and the first segment of the
second become one. -/
def splice : List String → List String → List String
  | [], after => after
  | [last], [] => [last]
  | [last], first :: rest => (last ++ first) :: rest
  | segment :: next :: rest, after => segment :: splice (next :: rest) after

theorem splice_ne_nil {before : List String} (h : before ≠ []) (after : List String) :
    splice before after ≠ [] := by
  cases before with
  | nil => exact absurd rfl h
  | cons segment rest =>
      cases rest with
      | nil => cases after <;> exact List.cons_ne_nil _ _
      | cons next rest => exact List.cons_ne_nil _ _

theorem join_splice (separator : String) {before after : List String} (hbefore : before ≠ [])
    (hafter : after ≠ []) :
    join separator (splice before after) = join separator before ++ join separator after := by
  induction before with
  | nil => exact absurd rfl hbefore
  | cons segment rest ih =>
      cases rest with
      | nil =>
          cases after with
          | nil => exact absurd rfl hafter
          | cons first more =>
              cases more with
              | nil => rfl
              | cons second more =>
                  unfold splice
                  simp only [join, String.append_assoc]
      | cons next rest =>
          have hne : next :: rest ≠ [] := List.cons_ne_nil _ _
          unfold splice
          rw [join_cons_of_ne_nil _ _ (splice_ne_nil hne _), ih hne,
            join_cons_of_ne_nil _ _ hne]
          simp only [String.append_assoc]

/-!
## Blank texts
-/

theorem trim_eq_empty_iff (s : String) : trim s = "" ↔ ∀ c ∈ s.toList, isBlank c = true := by
  have hempty : trim s = "" ↔ trimChars s.toList = [] := by
    unfold trim
    rw [← String.toList_inj, String.toList_ofList]
    rfl
  rw [hempty]
  unfold trimChars trimEnd trimStart
  rw [List.reverse_eq_nil_iff, List.dropWhile_eq_nil_iff]
  constructor
  · intro h
    apply List.dropWhile_eq_nil_iff.mp
    cases hrest : s.toList.dropWhile isBlank with
    | nil => rfl
    | cons c rest =>
        have hc : isBlank c = true := h c (by simp [hrest])
        have hnot : isBlank c = false := by
          have hhead := List.head?_dropWhile_not isBlank s.toList
          rw [hrest] at hhead
          exact hhead
        rw [hc] at hnot
        cases hnot
  · intro h c hc
    exact h c ((List.dropWhile_sublist _).subset (List.mem_reverse.mp hc))

theorem trim_ne_empty_of_mem {s : String} (c : Char) (hmem : c ∈ s.toList)
    (hc : isBlank c = false) : trim s ≠ "" := by
  intro hempty
  have hblank := (trim_eq_empty_iff s).mp hempty c hmem
  rw [hc] at hblank
  cases hblank

theorem trim_append_eq_empty_iff (s t : String) :
    trim (s ++ t) = "" ↔ trim s = "" ∧ trim t = "" := by
  simp only [trim_eq_empty_iff, String.toList_append, List.forall_mem_append]

theorem trim_join_eq_empty_iff {separator : String} (h : trim separator ≠ "")
    (segments : List String) :
    trim (join separator segments) = "" ↔ ∀ first rest, segments = first :: rest →
      trim first = "" ∧ rest = [] := by
  cases segments with
  | nil =>
      constructor
      · intro _ first rest hnil
        cases hnil
      · intro _
        rfl
  | cons first rest =>
      cases rest with
      | nil =>
          constructor
          · intro hblank first rest heq
            cases heq
            exact ⟨hblank, rfl⟩
          · intro hall
            exact (hall first [] rfl).left
      | cons second rest =>
          rw [join_cons_of_ne_nil _ _ (List.cons_ne_nil _ _), trim_append_eq_empty_iff,
            trim_append_eq_empty_iff]
          constructor
          · intro hblank
            exact absurd hblank.left.right h
          · intro hall
            cases (hall first (second :: rest) rfl).right

/-!
## Trimmed texts
-/

def isSolid (s : String) : Bool :=
  s.toList.head?.any (fun c => !isBlank c) && s.toList.getLast?.any (fun c => !isBlank c)

section Trimming

variable {cs ds : List Char}

theorem trimStart_append (h : ∀ c, ds.head? = some c → isBlank c = false) :
    trimStart (cs ++ ds) = trimStart cs ++ ds := by
  unfold trimStart
  rw [List.dropWhile_append]
  split
  case isFalse => rfl
  case isTrue hempty =>
    rw [List.isEmpty_iff.mp hempty, List.nil_append]
    cases ds with
    | nil => rfl
    | cons c ds => simp [h c rfl]

theorem trimEnd_append (h : ∀ c, ds.getLast? = some c → isBlank c = false) :
    trimEnd (ds ++ cs) = ds ++ trimEnd cs := by
  have hreverse : trimStart (cs.reverse ++ ds.reverse) = trimStart cs.reverse ++ ds.reverse := by
    apply trimStart_append
    intro c hc
    rw [List.head?_reverse] at hc
    exact h c hc
  unfold trimStart at hreverse
  unfold trimEnd
  rw [List.reverse_append, hreverse, List.reverse_append, List.reverse_reverse]

theorem trimEnd_append_blank (h : ∀ c ∈ ds, isBlank c = true) :
    trimEnd (cs ++ ds) = trimEnd cs := by
  unfold trimEnd
  rw [List.reverse_append, List.dropWhile_append_of_pos]
  exact fun c hc => h c (List.mem_reverse.mp hc)

theorem blank_or_first (cs : List Char) :
    (∀ c ∈ cs, isBlank c = true) ∨
      ∃ front c rest, cs = front ++ c :: rest ∧ (∀ d ∈ front, isBlank d = true) ∧
        isBlank c = false := by
  induction cs with
  | nil => exact Or.inl fun _ h => absurd h List.not_mem_nil
  | cons c cs ih =>
      cases hc : isBlank c with
      | false => exact Or.inr ⟨[], c, cs, rfl, fun _ h => absurd h List.not_mem_nil, hc⟩
      | true =>
          rcases ih with hblank | ⟨front, d, rest, hcs, hfront, hd⟩
          · exact Or.inl (List.forall_mem_cons.mpr ⟨hc, hblank⟩)
          · refine Or.inr ⟨c :: front, d, rest, ?_, List.forall_mem_cons.mpr ⟨hc, hfront⟩, hd⟩
            rw [hcs, List.cons_append]

theorem trimStart_of_first {front rest : List Char} {c : Char}
    (hfront : ∀ d ∈ front, isBlank d = true) (hc : isBlank c = false) :
    trimStart (front ++ c :: rest) = c :: rest := by
  unfold trimStart
  rw [List.dropWhile_append_of_pos hfront, List.dropWhile_cons_of_neg (by simp [hc])]

theorem trimStart_trimEnd (cs : List Char) : trimStart (trimEnd cs) = trimEnd (trimStart cs) := by
  rcases blank_or_first cs with hblank | ⟨front, c, rest, rfl, hfront, hc⟩
  · have hstart : trimStart cs = [] := List.dropWhile_eq_nil_iff.mpr hblank
    have hend : trimEnd ([] ++ cs) = trimEnd [] := trimEnd_append_blank hblank
    rw [List.nil_append] at hend
    rw [hstart, hend]
    rfl
  · have hlast : ∀ d, (front ++ [c]).getLast? = some d → isBlank d = false := by
      intro d hd
      rw [List.getLast?_concat] at hd
      rw [← Option.some.inj hd]
      exact hc
    have hend : trimEnd (front ++ c :: rest) = front ++ c :: trimEnd rest := by
      have happend : front ++ c :: rest = (front ++ [c]) ++ rest := by simp
      rw [happend, trimEnd_append hlast, List.append_assoc]
      rfl
    have hrest : trimEnd (c :: rest) = c :: trimEnd rest := by
      have hsingle : ∀ d, [c].getLast? = some d → isBlank d = false :=
        fun d hd => hlast d (by rw [List.getLast?_concat]; exact hd)
      exact trimEnd_append hsingle
    rw [hend, trimStart_of_first hfront hc, trimStart_of_first hfront hc, hrest]

theorem trimEnd_trimEnd (cs : List Char) : trimEnd (trimEnd cs) = trimEnd cs := by
  unfold trimEnd
  rw [List.reverse_reverse, List.dropWhile_idempotent]

theorem trim_trim (s : String) : trim (trim s) = trim s := by
  have hstart : ∀ cs, trimStart (trimStart cs) = trimStart cs := fun cs =>
    List.dropWhile_idempotent isBlank cs
  unfold trim trimChars
  rw [String.toList_ofList, trimStart_trimEnd, hstart, trimEnd_trimEnd]

theorem trim_append_trim {front : String} (hne : front ≠ "")
    (hfront : ∀ c ∈ front.toList, isBlank c = false) (s : String) :
    trim (front ++ trim s) = front ++ trim s := by
  have hlast : ∀ c, front.toList.getLast? = some c → isBlank c = false :=
    fun c hc => hfront c (List.mem_of_getLast? hc)
  have hhead : ∀ c, (front ++ trim s).toList.head? = some c → isBlank c = false := by
    intro c hc
    rw [String.toList_append, List.head?_append_of_ne_nil _ (mt String.toList_eq_nil_iff.mp hne)]
      at hc
    exact hfront c (List.mem_of_head? hc)
  have hstart : trimStart ([] ++ (front ++ trim s).toList) = [] ++ (front ++ trim s).toList :=
    trimStart_append hhead
  have hend : trimEnd (front ++ trim s).toList = (front ++ trim s).toList := by
    unfold trim trimChars
    rw [String.toList_append, String.toList_ofList, trimEnd_append hlast, trimEnd_trimEnd]
  rw [List.nil_append] at hstart
  rw [trim, trimChars, hstart, hend, String.ofList_toList]

theorem trim_append_blank {t : String} (h : ∀ c ∈ t.toList, isBlank c = true) (s : String) :
    trim (s ++ t) = trim s := by
  unfold trim trimChars trimStart
  rw [String.toList_append, List.dropWhile_append]
  split
  case isTrue hempty =>
    rw [List.isEmpty_iff.mp hempty, List.dropWhile_eq_nil_iff.mpr h]
  case isFalse =>
    rw [trimEnd_append_blank h]

theorem trimStart_join {separator : String} (h : isSolid separator = true) (first : String)
    (rest : List String) :
    trimStart (join separator (first :: rest)).toList =
      (join separator (String.ofList (trimStart first.toList) :: rest)).toList := by
  cases rest with
  | nil => exact (String.toList_ofList).symm
  | cons second rest =>
      simp only [isSolid, Bool.and_eq_true] at h
      have hhead : ∀ c, (separator.toList ++ (join separator (second :: rest)).toList).head? =
          some c → isBlank c = false := by
        intro c hc
        cases hseparator : separator.toList with
        | nil => simp [hseparator] at h
        | cons d ds => simp_all
      simp only [join, String.toList_append, String.toList_ofList, List.append_assoc]
      exact trimStart_append hhead

theorem exists_trimEnd_join {segments : List String} (hne : segments ≠ []) :
    ∃ trimmed, trimmed ≠ [] ∧ ∀ separator, isSolid separator = true →
      trimEnd (join separator segments).toList = (join separator trimmed).toList := by
  induction segments with
  | nil => exact absurd rfl hne
  | cons first rest ih =>
      cases rest with
      | nil =>
          exact ⟨[String.ofList (trimEnd first.toList)], List.cons_ne_nil _ _,
            fun _ _ => (String.toList_ofList).symm⟩
      | cons second rest =>
          rcases ih (List.cons_ne_nil _ _) with ⟨trimmed, htrimmed, hrest⟩
          refine ⟨first :: trimmed, List.cons_ne_nil _ _, ?_⟩
          intro separator h
          have hlast : ∀ c, (first.toList ++ separator.toList).getLast? = some c →
              isBlank c = false := by
            intro c hc
            simp only [isSolid, Bool.and_eq_true] at h
            cases hseparator : separator.toList.getLast? with
            | none => simp [hseparator] at h
            | some d => simp_all [List.getLast?_append]
          rw [join_cons_of_ne_nil _ _ (List.cons_ne_nil _ _), join_cons_of_ne_nil _ _ htrimmed]
          simp only [String.toList_append]
          rw [trimEnd_append hlast, hrest separator h]

/-- Around every solid text the same segments remain when the whole is trimmed. -/
theorem exists_trim_join (segments : List String) :
    ∃ trimmed, trimmed ≠ [] ∧ ∀ separator, isSolid separator = true →
      trim (join separator segments) = join separator trimmed := by
  cases segments with
  | nil => exact ⟨[""], List.cons_ne_nil _ _, fun _ _ => rfl⟩
  | cons first rest =>
      rcases exists_trimEnd_join (List.cons_ne_nil (String.ofList (trimStart first.toList)) rest)
        with ⟨trimmed, htrimmed, hend⟩
      refine ⟨trimmed, htrimmed, ?_⟩
      intro separator h
      unfold trim trimChars
      rw [trimStart_join h, hend separator h, String.ofList_toList]

theorem trim_ne_empty_of_isSolid {s : String} (h : isSolid s = true) : trim s ≠ "" := by
  simp only [isSolid, Bool.and_eq_true] at h
  cases hhead : s.toList.head? with
  | none => simp [hhead] at h
  | some c =>
      rw [hhead] at h
      have hc : isBlank c = false := by simpa using h.left
      exact trim_ne_empty_of_mem c (List.mem_of_head? hhead) hc

theorem trim_of_isSolid {s : String} (h : isSolid s = true) : trim s = s := by
  simp only [isSolid, Bool.and_eq_true, Option.any_eq_true] at h
  rcases h with ⟨⟨first, hfirst, hstart⟩, last, hlast, hend⟩
  have hhead : ∀ c, s.toList.head? = some c → isBlank c = false := by
    intro c hc
    rw [hfirst, Option.some.injEq] at hc
    simpa [hc] using hstart
  have htail : ∀ c, s.toList.getLast? = some c → isBlank c = false := by
    intro c hc
    rw [hlast, Option.some.injEq] at hc
    simpa [hc] using hend
  have hleft : trimStart ([] ++ s.toList) = [] ++ s.toList := trimStart_append hhead
  have hright : trimEnd (s.toList ++ []) = s.toList ++ [] := trimEnd_append htail
  rw [List.nil_append] at hleft
  rw [List.append_nil] at hright
  rw [trim, trimChars, hleft, hright, String.ofList_toList]

theorem isSolid_of_forall {s : String} (hne : s ≠ "") (h : ∀ c ∈ s.toList, isBlank c = false) :
    isSolid s = true := by
  have hlist : s.toList ≠ [] := fun heq => hne (String.toList_eq_nil_iff.mp heq)
  unfold isSolid
  rw [List.head?_eq_some_head hlist, List.getLast?_eq_some_getLast hlist]
  simp [h _ (List.head_mem hlist), h _ (List.getLast_mem hlist)]

theorem isSolid_bracketed {s : String} {first last : Char} {inside : List Char}
    (htext : s.toList = first :: (inside ++ [last])) (hfirst : isBlank first = false)
    (hlast : isBlank last = false) : isSolid s = true := by
  unfold isSolid
  rw [htext, ← List.cons_append, List.getLast?_concat]
  simp [hfirst, hlast]

end Trimming

end Text
end TransformChain
