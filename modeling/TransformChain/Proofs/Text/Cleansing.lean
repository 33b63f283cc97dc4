import TransformChain.Proofs.Chain.Naming
import TransformChain.Proofs.Text.Splicing

/-!
# Cleansed names

Cleansing makes a name of any text.  The names are the texts that it leaves as they are, and two
texts that differ in nothing that a name tells apart give the same name.  Of the mapping to upper
case only the ASCII part matters for this: whatever other letters are mapped to, no character is
kept that is not of a name.
-/

namespace TransformChain
namespace Text

/-- ASCII characters have their usual upper case; others may be mapped to anything. -/
def UsualOnAscii (upper : Char → List Char) : Prop :=
  ∀ c : Char, c.toNat < 128 → upper c = [c.toUpper]

theorem usualOnAscii_upperChar : UsualOnAscii upperChar := by
  intro c hc
  unfold upperChar
  rw [if_pos hc]

/-!
## Cleansing by any upper case
-/

def withNameStart : List Char → List Char
  | [] => ['_']
  | c :: cs => if c.isDigit then '_' :: c :: cs else c :: cs

theorem withNameStart_cons (c : Char) (cs : List Char) :
    withNameStart (c :: cs) = if c.isDigit then '_' :: c :: cs else c :: cs := rfl

def keptBy (upper : Char → List Char) (cs : List Char) : List Char :=
  (((trimChars cs).map underscored).flatMap upper).filter isCleansed

def cleanseBy (upper : Char → List Char) (s : String) : String :=
  String.ofList (withNameStart (keptBy upper s.toList))

theorem cleanse_eq_cleanseBy (s : String) : cleanse s = cleanseBy upperChar s := by
  unfold cleanse cleanseBy cleanseChars
  change String.ofList (match keptBy upperChar s.toList with
    | [] => ['_']
    | c :: _ => if c.isDigit then '_' :: keptBy upperChar s.toList else keptBy upperChar s.toList)
    = _
  cases keptBy upperChar s.toList <;> rfl

/-!
## Names
-/

/-- Upper-case ASCII letters, digits and underscores, at least one of them, and no digit first. -/
structure IsCleansedName (s : String) : Prop where
  ne_empty : s ≠ ""
  cleansed : ∀ c ∈ s.toList, isCleansed c = true
  start : ∀ c, s.toList.head? = some c → c.isDigit = false

section Names

variable {s : String} {c d : Char}

theorem isCleansed_of_mem_withNameStart {cs : List Char} (h : ∀ c ∈ cs, isCleansed c = true)
    (hc : c ∈ withNameStart cs) : isCleansed c = true := by
  cases cs with
  | nil =>
      rw [List.mem_singleton.mp hc]
      rfl
  | cons first cs =>
      rw [withNameStart_cons] at hc
      split at hc
      · rcases List.mem_cons.mp hc with rfl | hmem
        · rfl
        · exact h c hmem
      · exact h c hc

theorem isDigit_of_head?_withNameStart {cs : List Char}
    (hc : (withNameStart cs).head? = some c) : c.isDigit = false := by
  cases cs with
  | nil =>
      cases hc
      rfl
  | cons first cs =>
      rw [withNameStart_cons] at hc
      split at hc
      case isTrue =>
        cases hc
        rfl
      case isFalse hdigit =>
        cases hc
        exact Bool.eq_false_iff.mpr hdigit

theorem withNameStart_ne_nil (cs : List Char) : withNameStart cs ≠ [] := by
  cases cs with
  | nil => exact List.cons_ne_nil _ _
  | cons c cs =>
      rw [withNameStart_cons]
      split <;> exact List.cons_ne_nil _ _

theorem isCleansedName_cleanseBy (upper : Char → List Char) (s : String) :
    IsCleansedName (cleanseBy upper s) := by
  have hlist : (cleanseBy upper s).toList = withNameStart (keptBy upper s.toList) :=
    String.toList_ofList
  constructor
  · intro hempty
    rw [hempty] at hlist
    exact withNameStart_ne_nil _ hlist.symm
  · intro c hc
    rw [hlist] at hc
    exact isCleansed_of_mem_withNameStart (fun d hd => (List.mem_filter.mp hd).right) hc
  · intro c hc
    rw [hlist] at hc
    exact isDigit_of_head?_withNameStart hc

theorem IsCleansedName.isIdentifier (h : IsCleansedName s) : isIdentifier s = true := by
  rw [isIdentifier_iff]
  cases hlist : s.toList with
  | nil => exact absurd (String.toList_eq_nil_iff.mp hlist) h.ne_empty
  | cons c rest =>
      have hcleansed := h.cleansed
      have hdigit := h.start c (by rw [hlist]; rfl)
      rw [hlist] at hcleansed
      exact ⟨c, rest, rfl, isIdentifierStart_of_isCleansed (hcleansed c List.mem_cons_self) hdigit,
        fun d hd => isIdentifierChar_of_isCleansed (hcleansed d (List.mem_cons_of_mem c hd))⟩

/-!
## White space around a text
-/

structure HasCore (cs core : List Char) : Prop where
  around : ∃ before after, cs = before ++ core ++ after ∧ (∀ c ∈ before, isBlank c = true) ∧
    ∀ c ∈ after, isBlank c = true
  first : ∀ c, core.head? = some c → isBlank c = false
  last : ∀ c, core.getLast? = some c → isBlank c = false

theorem HasCore.trimChars_eq {cs core : List Char} (h : HasCore cs core) : trimChars cs = core := by
  rcases h.around with ⟨before, after, rfl, hbefore, hafter⟩
  have hstart : trimStart (before ++ core) = core := by
    rw [trimStart_append h.first, trimStart, List.dropWhile_eq_nil_iff.mpr hbefore,
      List.nil_append]
  have hend : trimEnd (core ++ []) = core ++ trimEnd [] := trimEnd_append h.last
  unfold trimChars
  rw [← trimStart_trimEnd, trimEnd_append_blank hafter, trimStart_trimEnd, hstart,
    ← List.append_nil core, hend]
  rfl

theorem hasCore_trimChars (cs : List Char) : HasCore cs (trimChars cs) := by
  have hnot : ∀ {ds : List Char} {c : Char}, (ds.dropWhile isBlank).head? = some c →
      isBlank c = false := by
    intro ds c hc
    have hhead := List.head?_dropWhile_not isBlank ds
    rw [hc] at hhead
    exact hhead
  constructor
  · refine ⟨cs.takeWhile isBlank, ((trimStart cs).reverse.takeWhile isBlank).reverse, ?_, ?_, ?_⟩
    · have hend : trimChars cs ++ ((trimStart cs).reverse.takeWhile isBlank).reverse
          = trimStart cs := by
        unfold trimChars trimEnd
        rw [← List.reverse_append, List.takeWhile_append_dropWhile, List.reverse_reverse]
      rw [List.append_assoc, hend]
      exact List.takeWhile_append_dropWhile.symm
    · exact fun c hc => List.mem_takeWhile_imp hc
    · exact fun c hc => List.mem_takeWhile_imp (List.mem_reverse.mp hc)
  · intro c hc
    unfold trimChars at hc
    rw [← trimStart_trimEnd] at hc
    exact hnot hc
  · intro c hc
    unfold trimChars trimEnd at hc
    rw [List.getLast?_reverse] at hc
    exact hnot hc

theorem trimChars_of_solid {cs : List Char} (h : ∀ c ∈ cs, isBlank c = false) :
    trimChars cs = cs :=
  HasCore.trimChars_eq ⟨⟨[], [], by simp, by simp, by simp⟩,
    fun c hc => h c (List.mem_of_head? hc), fun c hc => h c (List.mem_of_getLast? hc)⟩

/-!
## Names stay as they are
-/

theorem underscored_of_class {test : Char → Bool} (h : test c = true)
    (hspace : test ' ' = false) (hdash : test '-' = false) : underscored c = c := by
  have hne : ∀ d, test d = false → c ≠ d := by
    rintro d hd rfl
    rw [h] at hd
    cases hd
  simp [underscored, hne ' ' hspace, hne '-' hdash]

theorem underscored_of_isCleansed (h : isCleansed c = true) : underscored c = c :=
  underscored_of_class h rfl rfl

theorem toNat_of_isCleansed (h : isCleansed c = true) : c.toNat < 97 := by
  simp only [isCleansed, Bool.or_eq_true, beq_iff_eq] at h
  rcases h with (hupper | hdigit) | hscore
  · unfold Char.isUpper at hupper
    rw [decide_eq_true_eq] at hupper
    have hle : c.toNat ≤ 90 := UInt32.le_iff_toNat_le.mp hupper.right
    omega
  · have hle : c.toNat ≤ 57 := (Char.isDigit_iff_toNat.mp hdigit).right
    omega
  · rw [hscore]
    decide

theorem isLower_iff : c.isLower = true ↔ 'a'.val ≤ c.val ∧ c.val ≤ 'z'.val := by
  unfold Char.isLower
  rw [Bool.and_eq_true, decide_eq_true_eq, decide_eq_true_eq]

theorem toUpper_of_not_isLower (h : c.isLower = false) : c.toUpper = c := by
  have hrange : ¬('a'.val ≤ c.val ∧ c.val ≤ 'z'.val) := mt isLower_iff.mpr (by simp [h])
  unfold Char.toUpper
  rw [dif_neg hrange]

theorem toUpper_of_isCleansed (h : isCleansed c = true) : c.toUpper = c := by
  apply toUpper_of_not_isLower
  rw [Bool.eq_false_iff]
  intro hlower
  have hge : 97 ≤ c.toNat := UInt32.le_iff_toNat_le.mp (isLower_iff.mp hlower).left
  have hlt := toNat_of_isCleansed h
  omega

theorem keptBy_of_cleansed {upper : Char → List Char} (hupper : UsualOnAscii upper)
    {cs : List Char} (h : ∀ c ∈ cs, isCleansed c = true) : keptBy upper cs = cs := by
  have htrim : trimChars cs = cs := trimChars_of_solid fun c hc =>
    isBlank_of_isIdentifierChar (isIdentifierChar_of_isCleansed (h c hc))
  have hscore : cs.map underscored = cs := by
    rw [List.map_congr_left fun c hc => underscored_of_isCleansed (h c hc), List.map_id']
  have hflat : cs.flatMap upper = cs := by
    have hsingle : ∀ c ∈ cs, upper c = [c] := by
      intro c hc
      have hlt := toNat_of_isCleansed (h c hc)
      rw [hupper c (by omega), toUpper_of_isCleansed (h c hc)]
    rw [List.flatMap_congr hsingle, List.flatMap_singleton']
  unfold keptBy
  rw [htrim, hscore, hflat, List.filter_eq_self.mpr h]

theorem IsCleansedName.cleanseBy_eq {upper : Char → List Char} (hupper : UsualOnAscii upper)
    (h : IsCleansedName s) : cleanseBy upper s = s := by
  unfold cleanseBy
  rw [keptBy_of_cleansed hupper h.cleansed]
  have hstart := h.start
  cases hlist : s.toList with
  | nil => exact absurd (String.toList_eq_nil_iff.mp hlist) h.ne_empty
  | cons c rest =>
      rw [hlist] at hstart
      rw [withNameStart_cons, if_neg (by simp [hstart c rfl]), ← hlist, String.ofList_toList]

end Names

/-!
## Texts that give the same name
-/

def IsSeparator (c : Char) : Prop :=
  c = ' ' ∨ c = '-' ∨ c = '_'

/-- The characters differ at most in ASCII letter case, or both are separators. -/
def SameInName (c d : Char) : Prop :=
  c.toUpper = d.toUpper ∨ (IsSeparator c ∧ IsSeparator d)

/-- The texts differ at most in the white space around them and, inside, in ASCII letter case and
in which separators they have. -/
def SpellSameName (s t : String) : Prop :=
  ∃ core other, HasCore s.toList core ∧ HasCore t.toList other ∧ List.Forall₂ SameInName core other

instance : DecidablePred IsSeparator :=
  fun c => inferInstanceAs (Decidable (c = ' ' ∨ c = '-' ∨ c = '_'))

instance : DecidableRel SameInName :=
  fun c d => inferInstanceAs (Decidable (c.toUpper = d.toUpper ∨ (IsSeparator c ∧ IsSeparator d)))

section Sameness

variable {upper : Char → List Char} {c d : Char}

theorem underscored_of_isSeparator (h : IsSeparator c) : underscored c = '_' := by
  rcases h with rfl | rfl | rfl <;> rfl

theorem isUpper_toUpper (h : c.isLower = true) : c.toUpper.isUpper = true := by
  have hrange := isLower_iff.mp h
  have hge : 97 ≤ c.val.toNat := UInt32.le_iff_toNat_le.mp hrange.left
  have hle : c.val.toNat ≤ 122 := UInt32.le_iff_toNat_le.mp hrange.right
  have hshift : (c.val + ('A'.val - 'a'.val)).toNat = c.val.toNat - 32 := by
    have hdistance : ('A'.val - 'a'.val).toNat = 4294967264 := rfl
    rw [UInt32.toNat_add, hdistance]
    omega
  unfold Char.toUpper
  rw [dif_pos hrange]
  unfold Char.isUpper
  rw [decide_eq_true_eq, ge_iff_le, UInt32.le_iff_toNat_le, UInt32.le_iff_toNat_le, hshift]
  change 65 ≤ _ ∧ _ ≤ 90
  omega

theorem eq_or_isAlpha_of_toUpper_eq (h : c.toUpper = d.toUpper) :
    c = d ∨ (c.isAlpha = true ∧ d.isAlpha = true) := by
  unfold Char.isAlpha
  simp only [Bool.or_eq_true]
  cases hc : c.isLower with
  | false =>
      rw [toUpper_of_not_isLower hc] at h
      cases hd : d.isLower with
      | false =>
          rw [toUpper_of_not_isLower hd] at h
          exact Or.inl h
      | true =>
          rw [h]
          exact Or.inr ⟨Or.inl (isUpper_toUpper hd), Or.inr rfl⟩
  | true =>
      cases hd : d.isLower with
      | false =>
          rw [toUpper_of_not_isLower hd] at h
          rw [← h]
          exact Or.inr ⟨Or.inr rfl, Or.inl (isUpper_toUpper hc)⟩
      | true => exact Or.inr ⟨Or.inr rfl, Or.inr rfl⟩

theorem upper_underscored_of_isAlpha (hupper : UsualOnAscii upper) (h : c.isAlpha = true) :
    upper (underscored c) = [c.toUpper] := by
  rw [underscored_of_class h rfl rfl]
  apply hupper
  unfold Char.isAlpha Char.isUpper Char.isLower at h
  simp only [Bool.or_eq_true, Bool.and_eq_true, decide_eq_true_eq] at h
  rcases h with ⟨_, hle⟩ | ⟨_, hle⟩
  · exact Nat.lt_of_le_of_lt (UInt32.le_iff_toNat_le.mp hle) (by decide)
  · exact Nat.lt_of_le_of_lt (UInt32.le_iff_toNat_le.mp hle) (by decide)

theorem SameInName.upper_eq (hupper : UsualOnAscii upper) (h : SameInName c d) :
    upper (underscored c) = upper (underscored d) := by
  rcases h with hcase | ⟨hc, hd⟩
  · rcases eq_or_isAlpha_of_toUpper_eq hcase with rfl | ⟨hc, hd⟩
    · rfl
    · rw [upper_underscored_of_isAlpha hupper hc, upper_underscored_of_isAlpha hupper hd, hcase]
  · rw [underscored_of_isSeparator hc, underscored_of_isSeparator hd]

theorem flatMap_upper_eq (hupper : UsualOnAscii upper) {cs ds : List Char}
    (h : List.Forall₂ SameInName cs ds) :
    (cs.map underscored).flatMap upper = (ds.map underscored).flatMap upper := by
  induction h with
  | nil => rfl
  | cons hfirst _ ih =>
      rw [List.map_cons, List.map_cons, List.flatMap_cons, List.flatMap_cons,
        hfirst.upper_eq hupper, ih]

theorem spellSameName_iff {s t : String} : SpellSameName s t ↔
    List.Forall₂ SameInName (trimChars s.toList) (trimChars t.toList) := by
  constructor
  · rintro ⟨core, other, hcore, hother, hsame⟩
    rw [hcore.trimChars_eq, hother.trimChars_eq]
    exact hsame
  · exact fun h => ⟨_, _, hasCore_trimChars s.toList, hasCore_trimChars t.toList, h⟩

theorem SpellSameName.cleanseBy_eq (hupper : UsualOnAscii upper) {s t : String}
    (h : SpellSameName s t) : cleanseBy upper s = cleanseBy upper t := by
  unfold cleanseBy keptBy
  rw [flatMap_upper_eq hupper (spellSameName_iff.mp h)]

end Sameness

/-- Whatever upper case letters outside ASCII have, cleansing gives a name, also to be numbered,
leaves exactly the names as they are, and gives one name for all spellings of it. -/
theorem cleansed_names_stable {upper : Char → List Char} (hupper : UsualOnAscii upper) :
    (∀ s, IsCleansedName (cleanseBy upper s)) ∧
    (∀ s, isIdentifier (cleanseBy upper s) = true ∧
      ∀ n, isIdentifier (Chain.numbered (cleanseBy upper s) n) = true) ∧
    (∀ s, cleanseBy upper s = s ↔ IsCleansedName s) ∧
    (∀ s, cleanseBy upper (cleanseBy upper s) = cleanseBy upper s) ∧
    (∀ s t, SpellSameName s t → cleanseBy upper s = cleanseBy upper t) ∧
    (UsualOnAscii upperChar ∧ ∀ s, cleanse s = cleanseBy upperChar s) := by
  have hname := isCleansedName_cleanseBy upper
  refine ⟨hname, ?_, ?_, ?_, fun s t h => h.cleanseBy_eq hupper, usualOnAscii_upperChar,
    cleanse_eq_cleanseBy⟩
  · intro s
    have hidentifier := (hname s).isIdentifier
    exact ⟨hidentifier, Chain.isIdentifier_numbered hidentifier⟩
  · intro s
    constructor
    · intro heq
      rw [← heq]
      exact hname s
    · exact fun h => h.cleanseBy_eq hupper
  · exact fun s => (hname s).cleanseBy_eq hupper

theorem spellSameName_street : SpellSameName "\u00a02nd-stra\u00dfe \n" "2ND_Stra\u00dfe" := by
  rw [spellSameName_iff]
  decide

/-- The sharp s becomes two letters, and the digit at the start gets an underscore. -/
theorem street_cleansed :
    UsualOnAscii upperChar ∧ SpellSameName "\u00a02nd-stra\u00dfe \n" "2ND_Stra\u00dfe" ∧
    cleanseBy upperChar "\u00a02nd-stra\u00dfe \n" = "_2ND_STRASSE" ∧
    cleanseBy upperChar "\u00a02nd-stra\u00dfe \n" = cleanseBy upperChar "2ND_Stra\u00dfe" ∧
    cleanseBy upperChar "_2ND_STRASSE" = "_2ND_STRASSE" ∧
    isIdentifier (Chain.numbered (cleanseBy upperChar "\u00a02nd-stra\u00dfe \n") 2) = true := by
  have hvalue : cleanseBy upperChar "\u00a02nd-stra\u00dfe \n" = "_2ND_STRASSE" := rfl
  obtain ⟨-, hidentifiers, -, hstable, hspellings, -⟩ :=
    cleansed_names_stable usualOnAscii_upperChar
  refine ⟨usualOnAscii_upperChar, spellSameName_street, hvalue,
    hspellings _ _ spellSameName_street, ?_, (hidentifiers _).right 2⟩
  rw [← hvalue]
  exact hstable _

end Text
end TransformChain
