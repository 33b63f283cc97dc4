import TransformChain.Proofs.Parser.Accepting

/-!
# Parsers that get on

A parser gets on if it comes to an end on every text and takes at least one character of what it
accepts.  The combinators keep this, and they keep more: what a composed parser does depends on its
parts only on the texts that it hands to them.  Both are told at once, for two parsers that do the
same on some set of texts.  Behind a part that takes a character it is enough that they do the same
on the texts that are left then, which are shorter.
-/

namespace TransformChain

def Parsed.Leaves (cs : List Char) : Parsed α → Prop
  | .accepted _ rest => rest <:+ cs
  | .rejected _ => True
  | .spent => False

def Parsed.GetsOn (cs : List Char) : Parsed α → Prop
  | .accepted _ rest => rest <:+ cs ∧ rest.length < cs.length
  | .rejected _ => True
  | .spent => False

section Outcomes

variable {outcome : Parsed α} {cs mid : List Char}

theorem Parsed.GetsOn.leaves (h : outcome.GetsOn cs) : outcome.Leaves cs := by
  cases outcome with
  | accepted a rest => exact h.left
  | rejected place => trivial
  | spent => exact h

theorem Parsed.Leaves.behind (h : outcome.Leaves mid) (hmid : mid <:+ cs) :
    outcome.Leaves cs := by
  cases outcome with
  | accepted a rest => exact List.IsSuffix.trans h hmid
  | rejected place => trivial
  | spent => exact h

theorem Parsed.GetsOn.behind (h : outcome.GetsOn mid) (hmid : mid <:+ cs) :
    outcome.GetsOn cs := by
  cases outcome with
  | accepted a rest => exact ⟨h.left.trans hmid, Nat.lt_of_lt_of_le h.right hmid.length_le⟩
  | rejected place => trivial
  | spent => exact h

theorem Parsed.Leaves.getsOn (h : outcome.Leaves mid) (hmid : mid <:+ cs)
    (hshorter : mid.length < cs.length) : outcome.GetsOn cs := by
  cases outcome with
  | accepted a rest =>
      have hrest : rest <:+ mid := h
      exact ⟨hrest.trans hmid, Nat.lt_of_le_of_lt hrest.length_le hshorter⟩
  | rejected place => trivial
  | spent => exact h

theorem Parsed.Leaves.ne_spent (h : outcome.Leaves cs) : outcome ≠ .spent := by
  rintro rfl
  exact h

theorem Parsed.GetsOn.ne_spent (h : outcome.GetsOn cs) : outcome ≠ .spent :=
  h.leaves.ne_spent

end Outcomes

namespace Text

theorem eq_append_of_afterStart? {symbol cs rest : List Char}
    (h : afterStart? symbol cs = some rest) : cs = symbol ++ rest := by
  induction symbol generalizing cs with
  | nil => exact Option.some.inj h
  | cons c symbol ih =>
      cases cs with
      | nil => cases h
      | cons d cs =>
          unfold afterStart? at h
          split at h
          case isTrue heq => rw [heq, ih h, List.cons_append]
          case isFalse => cases h

end Text

namespace Parser

open Text

/-!
## Texts that are left
-/

/-- The texts that may be left of one of these texts once a character has been taken. -/
def Behind (texts : List Char → Prop) (cs : List Char) : Prop :=
  ∃ ds, texts ds ∧ cs <:+ ds ∧ cs.length < ds.length

def ClosedBehind (texts : List Char → Prop) : Prop :=
  ∀ cs ds, texts ds → cs <:+ ds → texts cs

section Texts

variable {texts : List Char → Prop} {cs : List Char}

theorem closedBehind_behind (texts : List Char → Prop) : ClosedBehind (Behind texts) := by
  rintro cs ds ⟨es, hes, hds, hshorter⟩ hcs
  exact ⟨es, hes, hcs.trans hds, Nat.lt_of_le_of_lt hcs.length_le hshorter⟩

theorem Behind.of_closed (h : Behind texts cs) (hclosed : ClosedBehind texts) : texts cs := by
  rcases h with ⟨ds, hds, hcs, -⟩
  exact hclosed cs ds hds hcs

theorem closedBehind_suffix (ds : List Char) : ClosedBehind (· <:+ ds) :=
  fun _ _ hes hcs => hcs.trans hes

theorem closedBehind_all : ClosedBehind fun _ => True :=
  fun _ _ _ _ => trivial

end Texts

/-!
## Parsers that do the same
-/

/-- On the texts both parsers do the same, come to an end, and leave an end of the text. -/
def LeaveAlike (texts : List Char → Prop) (p q : Parser α) : Prop :=
  ∀ cs, texts cs → p cs = q cs ∧ (p cs).Leaves cs

/-- The same, and they take at least a character of what they accept. -/
def GetOnAlike (texts : List Char → Prop) (p q : Parser α) : Prop :=
  ∀ cs, texts cs → p cs = q cs ∧ (p cs).GetsOn cs

def GetsOn (p : Parser α) : Prop :=
  ∀ cs, (p cs).GetsOn cs

section Alike

variable {texts fewer : List Char → Prop} {p p' q q' : Parser α}

theorem GetsOn.alike (h : GetsOn p) : GetOnAlike texts p p :=
  fun cs _ => ⟨rfl, h cs⟩

theorem GetsOn.taken (h : GetsOn p) {cs mid : List Char} {a : α}
    (ha : p cs = .accepted a mid) : mid <:+ cs ∧ mid.length < cs.length := by
  have hgets := h cs
  rw [ha] at hgets
  exact hgets

theorem getsOn_of_alike (h : GetOnAlike (fun _ => True) p p) : GetsOn p :=
  fun cs => (h cs trivial).right

theorem GetOnAlike.leaveAlike (h : GetOnAlike texts p q) : LeaveAlike texts p q :=
  fun cs hcs => ⟨(h cs hcs).left, (h cs hcs).right.leaves⟩

theorem LeaveAlike.mono (h : LeaveAlike texts p q) (hfewer : ∀ cs, fewer cs → texts cs) :
    LeaveAlike fewer p q :=
  fun cs hcs => h cs (hfewer cs hcs)

theorem GetOnAlike.mono (h : GetOnAlike texts p q) (hfewer : ∀ cs, fewer cs → texts cs) :
    GetOnAlike fewer p q :=
  fun cs hcs => h cs (hfewer cs hcs)

theorem GetOnAlike.behind (h : GetOnAlike texts p q) (hclosed : ClosedBehind texts) :
    GetOnAlike (Behind texts) p q :=
  h.mono fun _ hcs => hcs.of_closed hclosed

/-!
## One after the other
-/

theorem leaveAlike_pure (a : α) : LeaveAlike texts (pure a) (pure a) :=
  fun cs _ => ⟨rfl, List.suffix_refl cs⟩

theorem leaveAlike_gap : LeaveAlike texts gap gap :=
  fun _ _ => ⟨rfl, List.dropWhile_suffix _⟩

theorem bind_alike {f f' : α → Parser β} {cs : List Char} (hp : p cs = p' cs)
    (hf : ∀ a mid, p cs = .accepted a mid → f a mid = f' a mid) :
    (p >>= f) cs = (p' >>= f') cs := by
  cases h : p cs with
  | accepted a mid => rw [bind_accepted h, bind_accepted (hp ▸ h), hf a mid h]
  | rejected place => rw [bind_rejected h, bind_rejected (hp ▸ h)]
  | spent => rw [bind_spent h, bind_spent (hp ▸ h)]

/-- What holds of every rejection and of what comes of the second parser holds of both together. -/
theorem bind_ends {f : α → Parser β} {cs : List Char} {holds : Parsed β → Prop}
    (hends : p cs ≠ .spent) (hrejected : ∀ place, holds (.rejected place))
    (hf : ∀ a mid, p cs = .accepted a mid → holds (f a mid)) : holds ((p >>= f) cs) := by
  cases h : p cs with
  | accepted a mid =>
      rw [bind_accepted h]
      exact hf a mid h
  | rejected place =>
      rw [bind_rejected h]
      exact hrejected place
  | spent => exact absurd h hends

/-- Behind a character nothing more needs to be taken. -/
theorem GetOnAlike.bind {f f' : α → Parser β} (hp : GetOnAlike texts p p')
    (hf : ∀ a, LeaveAlike (Behind texts) (f a) (f' a)) :
    GetOnAlike texts (p >>= f) (p' >>= f') := by
  intro cs hcs
  obtain ⟨heq, hgets⟩ := hp cs hcs
  have htaken : ∀ a mid, p cs = .accepted a mid → mid <:+ cs ∧ mid.length < cs.length := by
    intro a mid h
    rw [h] at hgets
    exact hgets
  have hnext : ∀ a mid, p cs = .accepted a mid →
      f a mid = f' a mid ∧ (f a mid).Leaves mid :=
    fun a mid h => hf a mid ⟨cs, hcs, htaken a mid h⟩
  refine ⟨bind_alike heq fun a mid h => (hnext a mid h).left, ?_⟩
  refine bind_ends hgets.ne_spent (fun _ => trivial) fun a mid h => ?_
  exact (hnext a mid h).right.getsOn (htaken a mid h).left (htaken a mid h).right

theorem GetOnAlike.bind_leave {f f' : α → Parser β} (hp : GetOnAlike texts p p')
    (hclosed : ClosedBehind texts) (hf : ∀ a, LeaveAlike texts (f a) (f' a)) :
    GetOnAlike texts (p >>= f) (p' >>= f') :=
  hp.bind fun a => (hf a).mono fun _ hcs => hcs.of_closed hclosed

theorem LeaveAlike.suffix (hp : LeaveAlike texts p p') {cs mid : List Char} {a : α}
    (hcs : texts cs) (h : p cs = .accepted a mid) : mid <:+ cs := by
  have hleaves := (hp cs hcs).right
  rw [h] at hleaves
  exact hleaves

/-- Where nothing may have been taken, the next parser has to. -/
theorem LeaveAlike.bind_getOn {f f' : α → Parser β} (hp : LeaveAlike texts p p')
    (hclosed : ClosedBehind texts) (hf : ∀ a, GetOnAlike texts (f a) (f' a)) :
    GetOnAlike texts (p >>= f) (p' >>= f') := by
  intro cs hcs
  have hnext : ∀ a mid, p cs = .accepted a mid →
      f a mid = f' a mid ∧ (f a mid).GetsOn mid :=
    fun a mid h => hf a mid (hclosed mid cs hcs (hp.suffix hcs h))
  refine ⟨bind_alike (hp cs hcs).left fun a mid h => (hnext a mid h).left, ?_⟩
  refine bind_ends (hp cs hcs).right.ne_spent (fun _ => trivial) fun a mid h => ?_
  exact (hnext a mid h).right.behind (hp.suffix hcs h)

theorem LeaveAlike.bind {f f' : α → Parser β} (hp : LeaveAlike texts p p')
    (hclosed : ClosedBehind texts) (hf : ∀ a, LeaveAlike texts (f a) (f' a)) :
    LeaveAlike texts (p >>= f) (p' >>= f') := by
  intro cs hcs
  have hnext : ∀ a mid, p cs = .accepted a mid →
      f a mid = f' a mid ∧ (f a mid).Leaves mid :=
    fun a mid h => hf a mid (hclosed mid cs hcs (hp.suffix hcs h))
  refine ⟨bind_alike (hp cs hcs).left fun a mid h => (hnext a mid h).left, ?_⟩
  refine bind_ends (hp cs hcs).right.ne_spent (fun _ => trivial) fun a mid h => ?_
  exact (hnext a mid h).right.behind (hp.suffix hcs h)

theorem GetOnAlike.map {f : α → β} (hp : GetOnAlike texts p p') :
    GetOnAlike texts (p >>= fun a => pure (f a)) (p' >>= fun a => pure (f a)) :=
  hp.bind fun a => leaveAlike_pure (f a)

theorem GetOnAlike.spaced (hp : GetOnAlike texts p p') (hclosed : ClosedBehind texts) :
    GetOnAlike texts (spaced p) (spaced p') :=
  leaveAlike_gap.bind_getOn hclosed fun _ => hp.bind fun a =>
    leaveAlike_gap.bind (closedBehind_behind texts) fun _ => leaveAlike_pure a

/-!
## Choice
-/

theorem GetOnAlike.orElse (hp : GetOnAlike texts p p') (hq : GetOnAlike texts q q') :
    GetOnAlike texts (orElse p q) (orElse p' q') := by
  intro cs hcs
  obtain ⟨heq, hgets⟩ := hp cs hcs
  obtain ⟨hother, hothergets⟩ := hq cs hcs
  unfold Parser.orElse
  rw [← heq, ← hother]
  cases h : p cs with
  | accepted a rest =>
      rw [h] at hgets
      exact ⟨rfl, hgets⟩
  | rejected place => exact ⟨rfl, hothergets⟩
  | spent => exact absurd h hgets.ne_spent

theorem getOnAlike_oneOf {ps qs : List (Parser α)} (h : List.Forall₂ (GetOnAlike texts) ps qs) :
    GetOnAlike texts (oneOf ps) (oneOf qs) := by
  induction h with
  | nil => exact fun _ _ => ⟨rfl, trivial⟩
  | cons hfirst hrest ih =>
      cases hrest with
      | nil => exact hfirst
      | cons _ _ => exact hfirst.orElse ih

theorem GetOnAlike.optional (hp : GetOnAlike texts p p') :
    LeaveAlike texts (Parser.optional p) (Parser.optional p') := by
  intro cs hcs
  obtain ⟨heq, hgets⟩ := hp cs hcs
  unfold Parser.optional
  rw [← heq]
  cases h : p cs with
  | accepted a rest =>
      rw [h] at hgets
      exact ⟨rfl, hgets.left⟩
  | rejected place => exact ⟨rfl, List.suffix_refl cs⟩
  | spent => exact absurd h hgets.ne_spent

/-!
## Repetition
-/

/-- A round takes a character, so there are at most as many rounds as characters. -/
theorem GetOnAlike.many (hp : GetOnAlike texts p p') (hclosed : ClosedBehind texts) :
    LeaveAlike texts (many p) (many p') := by
  have hwithin : ∀ budget, ∀ cs, texts cs → cs.length < budget →
      manyWithin p budget cs = manyWithin p' budget cs ∧ (manyWithin p budget cs).Leaves cs := by
    intro budget
    induction budget with
    | zero => exact fun cs _ hbudget => absurd hbudget (Nat.not_lt_zero _)
    | succ budget ih =>
        intro cs hcs hbudget
        obtain ⟨heq, hgets⟩ := hp cs hcs
        unfold manyWithin
        rw [← heq]
        cases h : p cs with
        | accepted a mid =>
            rw [h] at hgets
            obtain ⟨hsame, hleaves⟩ := ih mid (hclosed mid cs hcs hgets.left)
              (Nat.lt_of_lt_of_le hgets.right (Nat.le_of_lt_succ hbudget))
            simp only [← hsame, true_and]
            cases hmany : manyWithin p budget mid with
            | accepted others rest =>
                rw [hmany] at hleaves
                exact List.IsSuffix.trans hleaves hgets.left
            | rejected place => trivial
            | spent =>
                rw [hmany] at hleaves
                exact hleaves.elim
        | rejected place => exact ⟨rfl, List.suffix_refl cs⟩
        | spent => exact absurd h hgets.ne_spent
  exact fun cs hcs => hwithin (cs.length + 1) cs hcs (Nat.lt_succ_self _)

theorem GetOnAlike.separated {separator separator' : Parser β}
    (hseparator : GetOnAlike texts separator separator') (hp : GetOnAlike texts p p')
    (hclosed : ClosedBehind texts) :
    LeaveAlike texts (separated separator p) (separated separator' p') := by
  have hrounds : LeaveAlike texts (Parser.many (andThen separator fun _ => p))
      (Parser.many (andThen separator' fun _ => p')) :=
    (hseparator.bind_leave hclosed fun _ => hp.leaveAlike).many hclosed
  intro cs hcs
  obtain ⟨heq, hgets⟩ := hp cs hcs
  unfold Parser.separated
  rw [← heq]
  cases h : p cs with
  | accepted first mid =>
      rw [h] at hgets
      obtain ⟨hsame, hleaves⟩ := hrounds mid (hclosed mid cs hcs hgets.left)
      simp only [← hsame, true_and]
      cases hmany : Parser.many (andThen separator fun _ => p) mid with
      | accepted others rest =>
          rw [hmany] at hleaves
          exact List.IsSuffix.trans hleaves hgets.left
      | rejected place => trivial
      | spent =>
          rw [hmany] at hleaves
          exact hleaves.elim
  | rejected place => exact ⟨rfl, List.suffix_refl cs⟩
  | spent => exact absurd h hgets.ne_spent

/-!
## Tests of results
-/

theorem GetOnAlike.verify (hp : GetOnAlike texts p p') (test : α → Bool) :
    GetOnAlike texts (verify p test) (verify p' test) := by
  intro cs hcs
  obtain ⟨heq, hgets⟩ := hp cs hcs
  unfold Parser.verify
  rw [← heq]
  refine ⟨rfl, ?_⟩
  cases h : p cs with
  | accepted a rest =>
      rw [h] at hgets
      by_cases htest : test a = true
      · simp only [htest, if_true]
        exact hgets
      · simp only [htest]
        trivial
  | rejected place => trivial
  | spent => exact absurd h hgets.ne_spent

theorem GetOnAlike.mapSome (hp : GetOnAlike texts p p') (f : α → Option β) :
    GetOnAlike texts (mapSome p f) (mapSome p' f) := by
  intro cs hcs
  obtain ⟨heq, hgets⟩ := hp cs hcs
  unfold Parser.mapSome
  rw [← heq]
  refine ⟨rfl, ?_⟩
  cases h : p cs with
  | accepted a rest =>
      rw [h] at hgets
      simp only
      cases f a with
      | none => trivial
      | some image => exact hgets
  | rejected place => trivial
  | spent => exact absurd h hgets.ne_spent

theorem GetOnAlike.notAhead (hp : GetOnAlike texts p p') :
    LeaveAlike texts (notAhead p) (notAhead p') := by
  intro cs hcs
  obtain ⟨heq, hgets⟩ := hp cs hcs
  unfold Parser.notAhead
  rw [← heq]
  refine ⟨rfl, ?_⟩
  cases h : p cs with
  | accepted a rest => trivial
  | rejected place => exact List.suffix_refl cs
  | spent => exact absurd h hgets.ne_spent

end Alike

/-!
## Characters and words
-/

theorem getsOn_satisfy (test : Char → Bool) : GetsOn (satisfy test) := by
  intro cs
  cases cs with
  | nil => trivial
  | cons c rest =>
      change Parsed.GetsOn (c :: rest) (if test c then .accepted c rest else .rejected (c :: rest))
      split
      · exact ⟨List.suffix_cons c rest, Nat.lt_succ_self _⟩
      · trivial

theorem getsOn_char (c : Char) : GetsOn (char c) :=
  getsOn_satisfy _

theorem getsOn_exactly {symbol : String} (hsymbol : symbol.toList ≠ []) :
    GetsOn (exactly symbol) := by
  intro cs
  unfold exactly
  cases h : afterStart? symbol.toList cs with
  | none => trivial
  | some rest =>
      rw [eq_append_of_afterStart? h]
      refine ⟨List.suffix_append _ _, ?_⟩
      rw [List.length_append]
      exact Nat.lt_add_of_pos_left (List.length_pos_of_ne_nil hsymbol)

theorem getsOn_takeWhile1 (test : Char → Bool) : GetsOn (takeWhile1 test) := by
  intro cs
  unfold takeWhile1
  cases h : cs.takeWhile test with
  | nil => trivial
  | cons c taken =>
      refine ⟨List.dropWhile_suffix test, ?_⟩
      have hlength := congrArg List.length (List.takeWhile_append_dropWhile (p := test) (l := cs))
      rw [h, List.length_append, List.length_cons] at hlength
      omega

end Parser
end TransformChain
