import Mathlib.Data.List.DropRight
import Mathlib.Tactic.Common
import TransformChain.Parser

/-!
# Reading up to white space

What a parser accepts at the start of a text, and what it leaves, when the white space in front of
both does not matter.  Statements of this kind compose: where one parser leaves off, the next one
goes on.
-/

namespace TransformChain
namespace Text

/-- The texts are the same after the white space in front of them. -/
def SameStart (cs ds : List Char) : Prop :=
  dropGap cs = dropGap ds

@[simp] theorem dropGap_idem (cs : List Char) : dropGap (dropGap cs) = dropGap cs :=
  List.dropWhile_idempotent isGap cs

theorem sameStart_dropGap (cs : List Char) : SameStart (dropGap cs) cs :=
  dropGap_idem cs

theorem dropGap_append {space cs : List Char} (h : ∀ c ∈ space, isGap c = true) :
    dropGap (space ++ cs) = dropGap cs :=
  List.dropWhile_append_of_pos h

theorem dropGap_cons {c : Char} {cs : List Char} (h : isGap c = false) :
    dropGap (c :: cs) = c :: cs := by
  unfold dropGap
  rw [List.dropWhile_cons_of_neg]
  simp [h]

def ahead (cs : List Char) : Nat :=
  (dropGap cs).length

theorem ahead_le_length (cs : List Char) : ahead cs ≤ cs.length :=
  (List.dropWhile_suffix isGap).length_le

theorem SameStart.ahead_eq {cs ds : List Char} (h : SameStart cs ds) : ahead cs = ahead ds :=
  congrArg List.length h

end Text

namespace Parser

open Text

/-- The parser accepts this text with the result, and leaves the rest up to white space. -/
def ReadsHere (p : Parser α) (cs : List Char) (result : α) (rest : List Char) : Prop :=
  ∃ left, p cs = .accepted result left ∧ SameStart left rest

def RefusesHere (p : Parser α) (cs : List Char) : Prop :=
  ∃ place, p cs = .rejected place

/-- The same with any white space in front of the text. -/
def Reads (p : Parser α) (cs : List Char) (result : α) (rest : List Char) : Prop :=
  ∀ ds, SameStart ds cs → ReadsHere p ds result rest

def Refuses (p : Parser α) (cs : List Char) : Prop :=
  ∀ ds, SameStart ds cs → RefusesHere p ds

def ReadsUpTo (p : Parser α) (cs : List Char) (result : α) (rest : List Char) : Prop :=
  ∀ ds, SameStart ds cs → p ds = .accepted result (dropGap rest)

def afterGap (p : Parser α) : Parser α :=
  fun cs => p (dropGap cs)

section Rules

variable {cs mid rest : List Char}

theorem readsHere_of_eq {p : Parser α} {result : α} (h : p cs = .accepted result rest) :
    ReadsHere p cs result rest :=
  ⟨rest, h, rfl⟩

theorem Reads.here {p : Parser α} {result : α} (h : Reads p cs result rest) :
    ReadsHere p cs result rest :=
  h cs rfl

theorem ReadsUpTo.reads {p : Parser α} {result : α} (h : ReadsUpTo p cs result rest) :
    Reads p cs result rest :=
  fun ds hds => ⟨dropGap rest, h ds hds, sameStart_dropGap rest⟩

theorem Refuses.not_reads {p : Parser α} {result : α} (h : Refuses p cs) :
    ¬Reads p cs result rest := by
  intro hreads
  rcases h cs rfl with ⟨place, hplace⟩
  rcases hreads.here with ⟨left, hleft, _⟩
  rw [hplace] at hleft
  cases hleft

theorem reads_afterGap {p : Parser α} {result : α}
    (h : ReadsHere p (dropGap cs) result rest) : Reads (afterGap p) cs result rest := by
  intro ds hds
  unfold ReadsHere afterGap
  rw [hds]
  exact h

theorem refuses_afterGap {p : Parser α} (h : RefusesHere p (dropGap cs)) :
    Refuses (afterGap p) cs := by
  intro ds hds
  unfold RefusesHere afterGap
  rw [hds]
  exact h

theorem reads_pure (value : α) : Reads (pure value) cs value cs :=
  fun ds hds => ⟨ds, rfl, hds⟩

/-!
## One after the other
-/

theorem bind_accepted {p : Parser α} {f : α → Parser β} {a : α}
    (h : p cs = .accepted a mid) : (p >>= f) cs = f a mid := by
  change andThen p f cs = f a mid
  unfold andThen
  rw [h]

theorem bind_rejected {p : Parser α} {f : α → Parser β} {place : List Char}
    (h : p cs = .rejected place) : (p >>= f) cs = .rejected place := by
  change andThen p f cs = .rejected place
  unfold andThen
  rw [h]

theorem bind_spent {p : Parser α} {f : α → Parser β} (h : p cs = .spent) :
    (p >>= f) cs = .spent := by
  change andThen p f cs = .spent
  unfold andThen
  rw [h]

theorem bind_eq_of_eq {p q : Parser α} {f : α → Parser β} (h : p cs = q cs) :
    (p >>= f) cs = (q >>= f) cs := by
  change andThen p f cs = andThen q f cs
  unfold andThen
  rw [h]

theorem ReadsHere.bind_of_eq {p : Parser α} {f : α → Parser β} {a : α} {b : β}
    (hp : p cs = .accepted a mid) (hf : ReadsHere (f a) mid b rest) :
    ReadsHere (p >>= f) cs b rest := by
  unfold ReadsHere
  rw [bind_accepted hp]
  exact hf

theorem ReadsHere.bind {p : Parser α} {f : α → Parser β} {a : α} {b : β}
    (hp : ReadsHere p cs a mid) (hf : Reads (f a) mid b rest) : ReadsHere (p >>= f) cs b rest := by
  rcases hp with ⟨left, hleft, hsame⟩
  exact .bind_of_eq hleft (hf left hsame)

theorem Reads.bind {p : Parser α} {f : α → Parser β} {a : α} {b : β}
    (hp : Reads p cs a mid) (hf : Reads (f a) mid b rest) : Reads (p >>= f) cs b rest :=
  fun ds hds => (hp ds hds).bind hf

theorem ReadsUpTo.bind {p : Parser α} {f : α → Parser β} {a : α} {b : β}
    (hp : ReadsUpTo p cs a mid) (hf : ReadsHere (f a) (dropGap mid) b rest) :
    Reads (p >>= f) cs b rest :=
  fun ds hds => .bind_of_eq (hp ds hds) hf

theorem ReadsUpTo.map {p : Parser α} {f : α → β} {a : α} (hp : ReadsUpTo p cs a rest) :
    ReadsUpTo (p >>= fun a => pure (f a)) cs (f a) rest :=
  fun ds hds => bind_accepted (hp ds hds)

theorem Reads.map {p : Parser α} {f : α → β} {a : α} (hp : Reads p cs a rest) :
    Reads (p >>= fun a => pure (f a)) cs (f a) rest :=
  hp.bind (reads_pure (f a))

theorem RefusesHere.bind {p : Parser α} {f : α → Parser β} (h : RefusesHere p cs) :
    RefusesHere (p >>= f) cs := by
  rcases h with ⟨place, hplace⟩
  exact ⟨place, bind_rejected hplace⟩

theorem Refuses.bind {p : Parser α} {f : α → Parser β} (h : Refuses p cs) :
    Refuses (p >>= f) cs :=
  fun ds hds => (h ds hds).bind

/-!
## White space
-/

theorem reads_gap {f : Unit → Parser α} {result : α}
    (h : ReadsHere (f ()) (dropGap cs) result rest) : Reads (gap >>= f) cs result rest :=
  reads_afterGap h

theorem refuses_gap {f : Unit → Parser α} (h : RefusesHere (f ()) (dropGap cs)) :
    Refuses (gap >>= f) cs :=
  refuses_afterGap h

theorem gap_bind (f : Unit → Parser α) : (gap >>= f) = afterGap (f ()) := rfl

theorem spaced_eq (p : Parser α) (ds : List Char) :
    spaced p ds =
      match p (dropGap ds) with
      | .accepted result left => .accepted result (dropGap left)
      | .rejected place => .rejected place
      | .spent => .spent := by
  change andThen p _ (dropGap ds) = _
  unfold andThen
  cases p (dropGap ds) <;> rfl

theorem readsUpTo_spaced {p : Parser α} {result : α}
    (h : ReadsHere p (dropGap cs) result rest) : ReadsUpTo (spaced p) cs result rest := by
  intro ds hds
  rcases h with ⟨left, hleft, hsame⟩
  rw [spaced_eq, hds, hleft]
  exact congrArg (Parsed.accepted result) hsame

theorem refuses_spaced {p : Parser α} (h : RefusesHere p (dropGap cs)) :
    Refuses (spaced p) cs := by
  intro ds hds
  rcases h with ⟨place, hplace⟩
  refine ⟨place, ?_⟩
  rw [spaced_eq, hds, hplace]

theorem Reads.spaced {p : Parser α} {result : α} (h : Reads p cs result rest) :
    ReadsUpTo (Parser.spaced p) cs result rest :=
  readsUpTo_spaced (h _ (sameStart_dropGap cs))

theorem Refuses.spaced {p : Parser α} (h : Refuses p cs) : Refuses (Parser.spaced p) cs :=
  refuses_spaced (h _ (sameStart_dropGap cs))

/-!
## Choice
-/

theorem orElse_congr {p p' q : Parser α} (h : p cs = p' cs) :
    orElse p q cs = orElse p' q cs := by
  unfold orElse
  rw [h]

theorem orElse_spent {p q : Parser α} (h : p cs = .spent) : orElse p q cs = .spent := by
  unfold orElse
  rw [h]

theorem RefusesHere.orElse_eq {p q : Parser α} (h : RefusesHere p cs) : orElse p q cs = q cs := by
  rcases h with ⟨place, hplace⟩
  unfold orElse
  rw [hplace]

theorem ReadsHere.orElse {p q : Parser α} {result : α} (h : ReadsHere p cs result rest) :
    ReadsHere (orElse p q) cs result rest := by
  rcases h with ⟨left, hleft, hsame⟩
  refine ⟨left, ?_, hsame⟩
  unfold Parser.orElse
  rw [hleft]

theorem Reads.orElse {p q : Parser α} {result : α} (h : Reads p cs result rest) :
    Reads (orElse p q) cs result rest :=
  fun ds hds => (h ds hds).orElse

theorem RefusesHere.reads_orElse {p q : Parser α} {result : α} (hp : RefusesHere p cs)
    (hq : ReadsHere q cs result rest) : ReadsHere (orElse p q) cs result rest := by
  unfold ReadsHere
  rw [hp.orElse_eq]
  exact hq

theorem Refuses.reads_orElse {p q : Parser α} {result : α} (hp : Refuses p cs)
    (hq : Reads q cs result rest) : Reads (orElse p q) cs result rest :=
  fun ds hds => (hp ds hds).reads_orElse (hq ds hds)

theorem ReadsUpTo.orElse {p q : Parser α} {result : α} (h : ReadsUpTo p cs result rest) :
    ReadsUpTo (orElse p q) cs result rest := by
  intro ds hds
  unfold Parser.orElse
  rw [h ds hds]

theorem Refuses.readsUpTo_orElse {p q : Parser α} {result : α} (hp : Refuses p cs)
    (hq : ReadsUpTo q cs result rest) : ReadsUpTo (orElse p q) cs result rest := by
  intro ds hds
  rw [(hp ds hds).orElse_eq]
  exact hq ds hds

theorem RefusesHere.orElse {p q : Parser α} (hp : RefusesHere p cs) (hq : RefusesHere q cs) :
    RefusesHere (orElse p q) cs := by
  unfold RefusesHere
  rw [hp.orElse_eq]
  exact hq

theorem Refuses.orElse {p q : Parser α} (hp : Refuses p cs) (hq : Refuses q cs) :
    Refuses (orElse p q) cs :=
  fun ds hds => (hp ds hds).orElse (hq ds hds)

theorem RefusesHere.oneOf_eq {p q : Parser α} {others : List (Parser α)}
    (h : RefusesHere p cs) : oneOf (p :: q :: others) cs = oneOf (q :: others) cs :=
  h.orElse_eq

theorem oneOf_accepted {p : Parser α} {others : List (Parser α)} {result : α}
    (h : p cs = .accepted result rest) : oneOf (p :: others) cs = .accepted result rest := by
  cases others with
  | nil => exact h
  | cons q others =>
      change orElse p _ cs = _
      unfold orElse
      rw [h]

theorem Reads.oneOf {p : Parser α} {others : List (Parser α)} {result : α}
    (h : Reads p cs result rest) : Reads (Parser.oneOf (p :: others)) cs result rest := by
  intro ds hds
  rcases h ds hds with ⟨left, hleft, hsame⟩
  exact ⟨left, oneOf_accepted hleft, hsame⟩

theorem Refuses.reads_oneOf {p q : Parser α} {others : List (Parser α)} {result : α}
    (hp : Refuses p cs) (h : Reads (Parser.oneOf (q :: others)) cs result rest) :
    Reads (Parser.oneOf (p :: q :: others)) cs result rest :=
  hp.reads_orElse h

theorem refuses_oneOf {alternatives : List (Parser α)}
    (h : ∀ p ∈ alternatives, RefusesHere p cs) : RefusesHere (oneOf alternatives) cs := by
  induction alternatives with
  | nil => exact ⟨cs, rfl⟩
  | cons p others ih =>
      have hp := h p List.mem_cons_self
      cases others with
      | nil => exact hp
      | cons q others =>
          unfold RefusesHere
          rw [hp.oneOf_eq]
          exact ih fun r hr => h r (List.mem_cons_of_mem p hr)

theorem Reads.optional {p : Parser α} {result : α} (h : Reads p cs result rest) :
    Reads (Parser.optional p) cs (some result) rest := by
  intro ds hds
  rcases h ds hds with ⟨left, hleft, hsame⟩
  refine ⟨left, ?_, hsame⟩
  unfold Parser.optional
  rw [hleft]

theorem RefusesHere.optional_eq {p : Parser α} (h : RefusesHere p cs) :
    Parser.optional p cs = .accepted none cs := by
  rcases h with ⟨place, hplace⟩
  unfold Parser.optional
  rw [hplace]

theorem Refuses.optional {p : Parser α} (h : Refuses p cs) :
    Reads (Parser.optional p) cs none cs :=
  fun ds hds => ⟨ds, (h ds hds).optional_eq, hds⟩

/-!
## Tests of results
-/

theorem mapSome_accepted {p : Parser α} {f : α → Option β} {a : α} {b : β}
    (hp : p cs = .accepted a rest) (hf : f a = some b) :
    mapSome p f cs = .accepted b rest := by
  unfold mapSome
  simp only [hp, hf]

theorem mapSome_none {p : Parser α} {f : α → Option β} {a : α}
    (hp : p cs = .accepted a rest) (hf : f a = none) : RefusesHere (mapSome p f) cs := by
  refine ⟨cs, ?_⟩
  unfold mapSome
  simp only [hp, hf]

theorem RefusesHere.mapSome {p : Parser α} {f : α → Option β} (h : RefusesHere p cs) :
    RefusesHere (Parser.mapSome p f) cs := by
  rcases h with ⟨place, hplace⟩
  refine ⟨place, ?_⟩
  unfold Parser.mapSome
  rw [hplace]

theorem verify_accepted {p : Parser α} {test : α → Bool} {a : α}
    (hp : p cs = .accepted a rest) (htest : test a = true) :
    verify p test cs = .accepted a rest := by
  unfold verify
  simp only [hp, htest, if_true]

theorem verify_failed {p : Parser α} {test : α → Bool} {a : α}
    (hp : p cs = .accepted a rest) (htest : test a = false) : RefusesHere (verify p test) cs := by
  refine ⟨cs, ?_⟩
  unfold verify
  simp [hp, htest]

theorem RefusesHere.verify {p : Parser α} {test : α → Bool} (h : RefusesHere p cs) :
    RefusesHere (Parser.verify p test) cs := by
  rcases h with ⟨place, hplace⟩
  refine ⟨place, ?_⟩
  unfold Parser.verify
  rw [hplace]

/-!
## Characters
-/

theorem char_cons (c : Char) (rest : List Char) : char c (c :: rest) = .accepted c rest := by
  unfold char satisfy
  simp

theorem char_accepted {c d : Char} (h : char c cs = .accepted d rest) : cs = d :: rest := by
  cases cs with
  | nil => cases h
  | cons e es =>
      by_cases he : (e == c) = true
      · change (if e == c then Parsed.accepted e es else .rejected (e :: es)) = _ at h
        rw [if_pos he] at h
        cases h
        rfl
      · change (if e == c then Parsed.accepted e es else .rejected (e :: es)) = _ at h
        rw [if_neg he] at h
        cases h

theorem refuses_char {c : Char} (h : ∀ rest, cs ≠ c :: rest) : RefusesHere (char c) cs := by
  refine ⟨cs, ?_⟩
  cases cs with
  | nil => rfl
  | cons d ds =>
      have hd : d ≠ c := fun heq => h ds (by rw [heq])
      unfold char satisfy
      simp [hd]

/-!
## Repetition
-/

/-- The parser takes the results one after the other from exactly this text on, and nothing
more. -/
inductive RunsMany (p : Parser α) : List Char → List α → List Char → Prop where
  | nil {cs : List Char} : RefusesHere p cs → RunsMany p cs [] cs
  | cons {cs mid rest : List Char} {first : α} {others : List α} :
      p cs = .accepted first mid → RunsMany p mid others rest →
      RunsMany p cs (first :: others) rest

theorem RunsMany.manyWithin_eq {p : Parser α} {results : List α}
    (h : RunsMany p cs results rest) :
    ∀ budget, results.length < budget → manyWithin p budget cs = .accepted results rest := by
  induction h with
  | nil hrefuses =>
      intro budget hbudget
      rcases hrefuses with ⟨place, hplace⟩
      cases budget with
      | zero => exact absurd hbudget (Nat.not_lt_zero _)
      | succ budget =>
          unfold manyWithin
          rw [hplace]
  | cons hfirst _ ih =>
      intro budget hbudget
      cases budget with
      | zero => exact absurd hbudget (Nat.not_lt_zero _)
      | succ budget =>
          unfold manyWithin
          simp only [hfirst, ih budget (Nat.lt_of_succ_lt_succ hbudget)]

theorem RunsMany.many_eq {p : Parser α} {results : List α} (h : RunsMany p cs results rest)
    (hlength : results.length ≤ cs.length) : many p cs = .accepted results rest :=
  h.manyWithin_eq _ (Nat.lt_succ_of_le hlength)

/-- The parser reads the results one after the other, whatever white space is in front, and
nothing more.  Each of them takes a character that is no white space. -/
inductive ReadsMany (p : Parser α) : List Char → List α → List Char → Prop where
  | nil {cs : List Char} : Refuses p cs → ReadsMany p cs [] cs
  | cons {cs mid rest : List Char} {first : α} {others : List α} : Reads p cs first mid →
      ahead mid < ahead cs → ReadsMany p mid others rest →
      ReadsMany p cs (first :: others) rest

theorem ReadsMany.length_le {p : Parser α} {results : List α}
    (h : ReadsMany p cs results rest) : results.length ≤ ahead cs := by
  induction h with
  | nil _ => exact Nat.zero_le _
  | cons _ hshorter _ ih =>
      rw [List.length_cons]
      omega

theorem ReadsMany.runs {p : Parser α} {results : List α} (h : ReadsMany p cs results rest) :
    ∀ ds, SameStart ds cs → ∃ left, RunsMany p ds results left ∧ SameStart left rest := by
  induction h with
  | nil hrefuses => exact fun ds hds => ⟨ds, .nil (hrefuses ds hds), hds⟩
  | cons hfirst _ _ ih =>
      intro ds hds
      rcases hfirst ds hds with ⟨mid, hmid, hsame⟩
      rcases ih mid hsame with ⟨left, hleft, hrest⟩
      exact ⟨left, .cons hmid hleft, hrest⟩

theorem ReadsMany.many {p : Parser α} {results : List α} (h : ReadsMany p cs results rest) :
    Reads (many p) cs results rest := by
  intro ds hds
  rcases h.runs ds hds with ⟨left, hleft, hrest⟩
  refine ⟨left, hleft.many_eq ?_, hrest⟩
  have hlength := h.length_le
  have hstart := ahead_le_length ds
  rw [hds.ahead_eq] at hstart
  omega

end Rules

end Parser
end TransformChain
