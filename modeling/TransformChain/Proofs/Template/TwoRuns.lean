import Mathlib.Data.List.Forall2
import TransformChain.Proofs.Template.Points

/-!
# Two runs from different sources

States, outcomes and actions of two runs that differ in the relation they read from.  The only
variable that may tell the runs apart is the one that holds the relation.
-/

namespace TransformChain
namespace Template

open Template.Action

def Scene.reading (scene : Scene) (source : String) : Scene :=
  ⟨scene.template, { scene.context with source := source }⟩

section TwoSources

variable {s t : String}

/-!
## Variables
-/

def SameVariable (s t : String) (a b : String × Value) : Prop :=
  a = b ∨ (a = ("source_table", .str s) ∧ b = ("source_table", .str t))

def SameFrame (s t : String) : Frame → Frame → Prop :=
  List.Forall₂ (SameVariable s t)

theorem SameVariable.key_eq {a b : String × Value} (h : SameVariable s t a b) : a.1 = b.1 := by
  rcases h with heq | ⟨ha, hb⟩
  · rw [heq]
  · rw [ha, hb]

theorem SameVariable.value_eq {a b : String × Value} (h : SameVariable s t a b) :
    a.2 = b.2 ∨ (a.1 = "source_table" ∧ a.2 = .str s ∧ b.2 = .str t) := by
  rcases h with heq | ⟨ha, hb⟩
  · rw [heq]
    exact Or.inl rfl
  · rw [ha, hb]
    exact Or.inr ⟨rfl, rfl, rfl⟩

theorem SameFrame.refl (frame : Frame) : SameFrame s t frame frame := by
  unfold SameFrame
  rw [List.forall₂_same]
  intro entry _
  exact Or.inl rfl

theorem SameFrame.put {a b : Frame} (h : SameFrame s t a b) (name : String) {v w : Value}
    (hvalue : SameVariable s t (name, v) (name, w)) :
    SameFrame s t (Keyed.put name v a) (Keyed.put name w b) := by
  unfold SameFrame at *
  induction h with
  | nil => exact .cons hvalue .nil
  | @cons first second rest others hentry hrest ih =>
      have hkey := hentry.key_eq
      unfold Keyed.put
      by_cases hname : first.1 = name
      · rw [if_pos hname, if_pos (hkey ▸ hname)]
        refine .cons ?_ hrest
        rw [← hkey, hname]
        exact hvalue
      · rw [if_neg hname, if_neg (hkey ▸ hname)]
        exact .cons hentry ih

/-- What a variable is in both runs: the same, or else each run's relation. -/
def SameLookup (s t name : String) (a b : Option Value) : Prop :=
  a = b ∨ (name = "source_table" ∧ a = some (.str s) ∧ b = some (.str t))

theorem SameFrame.get? {a b : Frame} (h : SameFrame s t a b) (name : String) :
    SameLookup s t name (Keyed.get? name a) (Keyed.get? name b) := by
  unfold SameFrame at h
  induction h with
  | nil => exact Or.inl rfl
  | @cons first second rest others hentry _ ih =>
      have hkey := hentry.key_eq
      unfold Keyed.get?
      by_cases hname : first.1 = name
      · rw [if_pos hname, if_pos (hkey ▸ hname)]
        rcases hentry.value_eq with hvalue | ⟨hsource, hleft, hright⟩
        · rw [hvalue]
          exact Or.inl rfl
        · rw [hleft, hright, ← hname]
          exact Or.inr ⟨hsource, rfl, rfl⟩
      · rw [if_neg hname, if_neg (hkey ▸ hname)]
        exact ih

theorem sameLookup_find? {as bs : List Frame} (h : List.Forall₂ (SameFrame s t) as bs)
    (name : String) : SameLookup s t name (find? name as) (find? name bs) := by
  induction h with
  | nil => exact Or.inl rfl
  | @cons first second outer others hframe _ ih =>
      unfold find?
      rcases hframe.get? name with heq | ⟨hname, hleft, hright⟩
      · rw [heq]
        cases Keyed.get? name second with
        | none => exact ih
        | some value => exact Or.inl rfl
      · rw [hleft, hright]
        exact Or.inr ⟨hname, rfl, rfl⟩

/-!
## States and outcomes
-/

structure SameState (s t : String) (a b : State) : Prop where
  frames : List.Forall₂ (SameFrame s t) a.frames b.frames
  declared : a.declared = b.declared
  depth : a.depth = b.depth

/-- Both runs end alike: with values that match, with the same error, or without budget. -/
inductive SameOutcome (R : α → β → Prop) : Outcome α → Outcome β → Prop where
  | done {v : α} {w : β} : R v w → SameOutcome R (.done v) (.done w)
  | failed (error : Error) : SameOutcome R (.failed error) (.failed error)
  | spent : SameOutcome R .spent .spent

def Agree (s t : String) (R : α → β → Prop) (a : Outcome α × State) (b : Outcome β × State) :
    Prop :=
  SameOutcome R a.1 b.1 ∧ SameState s t a.2 b.2

variable {x y : State}

theorem agree_pure {R : α → β → Prop} {v : α} {w : β} (hvalue : R v w) (h : SameState s t x y) :
    Agree s t R ((Pure.pure v : Action α) x) ((Pure.pure w : Action β) y) :=
  ⟨.done hvalue, h⟩

theorem agree_fail {R : α → β → Prop} (error : Error) (h : SameState s t x y) :
    Agree s t R (Action.fail error x) (Action.fail error y) :=
  ⟨.failed error, h⟩

theorem agree_spent {R : α → β → Prop} (h : SameState s t x y) :
    Agree s t R (Action.spent x) (Action.spent y) :=
  ⟨.spent, h⟩

theorem Agree.bind {R : α → β → Prop} {Q : γ → δ → Prop} {a : Action α} {b : Action β}
    {f : α → Action γ} {g : β → Action δ} (h : Agree s t R (a x) (b y))
    (hrest : ∀ v w x' y', Yields a x v x' → R v w → SameState s t x' y' →
      Agree s t Q (f v x') (g w y')) :
    Agree s t Q ((a >>= f) x) ((b >>= g) y) := by
  change Agree s t Q (andThen a f x) (andThen b g y)
  unfold andThen
  rcases ha : a x with ⟨outcome, next⟩
  rcases hb : b y with ⟨outcome', next'⟩
  rw [ha, hb] at h
  rcases h with ⟨houtcome, hstate⟩
  cases houtcome with
  | done hvalue => exact hrest _ _ _ _ ha hvalue hstate
  | failed error => exact ⟨.failed error, hstate⟩
  | spent => exact ⟨.spent, hstate⟩

theorem Agree.bind_eq {Q : γ → δ → Prop} {a b : Action α} {f : α → Action γ} {g : α → Action δ}
    (h : Agree s t Eq (a x) (b y))
    (hrest : ∀ v x' y', Yields a x v x' → SameState s t x' y' → Agree s t Q (f v x') (g v y')) :
    Agree s t Q ((a >>= f) x) ((b >>= g) y) := by
  apply h.bind
  intro v w x' y' hyields hvalue hstate
  rw [← hvalue]
  exact hrest v x' y' hyields hstate

theorem agree_ofExcept (result : Except Error α) (h : SameState s t x y) :
    Agree s t Eq (Action.ofExcept result x) (Action.ofExcept result y) := by
  cases result with
  | error e => exact agree_fail e h
  | ok value => exact agree_pure rfl h

theorem agree_succeeds {a b : Action α} (h : Agree s t Eq (a x) (b y)) :
    Agree s t Eq (Action.succeeds a x) (Action.succeeds b y) := by
  unfold Action.succeeds
  rcases ha : a x with ⟨outcome, next⟩
  rcases hb : b y with ⟨outcome', next'⟩
  rw [ha, hb] at h
  rcases h with ⟨houtcome, hstate⟩
  cases houtcome with
  | done hvalue => exact ⟨.done rfl, hstate⟩
  | failed error => exact ⟨.done rfl, hstate⟩
  | spent => exact ⟨.spent, hstate⟩

theorem agree_assign (name : String) (value : Value) (h : SameState s t x y) :
    Agree s t Eq (Action.assign name value x) (Action.assign name value y) := by
  unfold assign
  have hframes := h.frames
  cases hx : x.frames with
  | nil =>
      rw [hx] at hframes
      cases hy : y.frames with
      | nil => exact ⟨.done rfl, h⟩
      | cons frame outer =>
          rw [hy] at hframes
          cases hframes
  | cons frame outer =>
      rw [hx] at hframes
      cases hy : y.frames with
      | nil =>
          rw [hy] at hframes
          cases hframes
      | cons frame' outer' =>
          rw [hy] at hframes
          cases hframes with
          | cons hframe houter =>
              refine ⟨.done rfl, .cons (hframe.put name (Or.inl rfl)) houter, ?_, ?_⟩
              · exact h.declared
              · exact h.depth

theorem agree_declare (template : String) (column : Column) (h : SameState s t x y) :
    Agree s t Eq (Action.declare template column x) (Action.declare template column y) := by
  unfold declare
  rw [← h.declared]
  cases hnew : x.declared.has column.name with
  | true => exact ⟨.failed _, h⟩
  | false => exact ⟨.done rfl, h.frames, rfl, h.depth⟩

theorem agree_declareAll (template : String) (columns : List Column) (h : SameState s t x y) :
    Agree s t Eq (Action.declareAll template columns x)
      (Action.declareAll template columns y) := by
  induction columns generalizing x y with
  | nil => exact agree_pure rfl h
  | cons column rest ih =>
      apply (agree_declare template column h).bind_eq
      intro _ x' y' _ hstate
      exact ih hstate

theorem agree_inFrame {R : α → β → Prop} {frame : Frame} {a : Action α} {b : Action β}
    (h : Agree s t R (a { x with frames := frame :: x.frames })
      (b { y with frames := frame :: y.frames })) :
    Agree s t R (Action.inFrame frame a x) (Action.inFrame frame b y) := by
  unfold inFrame
  rcases ha : a { x with frames := frame :: x.frames } with ⟨outcome, next⟩
  rcases hb : b { y with frames := frame :: y.frames } with ⟨outcome', next'⟩
  rw [ha, hb] at h
  rcases h with ⟨houtcome, hstate⟩
  refine ⟨houtcome, ?_, hstate.declared, hstate.depth⟩
  exact List.forall₂_drop 1 hstate.frames

theorem sameFrame_globals {as bs : List Frame} (h : List.Forall₂ (SameFrame s t) as bs) :
    SameFrame s t (as.getLast?.getD []) (bs.getLast?.getD []) := by
  induction h with
  | nil => exact .nil
  | cons hframe houter ih =>
      cases houter with
      | nil => exact hframe
      | cons hnext hrest =>
          rw [List.getLast?_cons_cons, List.getLast?_cons_cons]
          exact ih

theorem agree_isolated {R : α → β → Prop} {frame : Frame} {a : Action α} {b : Action β}
    (hxy : SameState s t x y)
    (h : Agree s t R (a { x with frames := [frame, x.frames.getLast?.getD []] })
      (b { y with frames := [frame, y.frames.getLast?.getD []] })) :
    Agree s t R (Action.isolated frame a x) (Action.isolated frame b y) := by
  unfold isolated
  rcases ha : a { x with frames := [frame, x.frames.getLast?.getD []] } with ⟨outcome, next⟩
  rcases hb : b { y with frames := [frame, y.frames.getLast?.getD []] } with ⟨outcome', next'⟩
  rw [ha, hb] at h
  rcases h with ⟨houtcome, hstate⟩
  simp only [ha, hb]
  exact ⟨houtcome, hxy.frames, hstate.declared, hstate.depth⟩

theorem agree_nested {R : α → β → Prop} {template : String} {a : Action α} {b : Action β}
    (hxy : SameState s t x y)
    (h : x.depth < depthLimit →
      Agree s t R (a { x with depth := x.depth + 1 }) (b { y with depth := y.depth + 1 })) :
    Agree s t R (Action.nested template a x) (Action.nested template b y) := by
  unfold nested
  rw [← hxy.depth]
  by_cases hdeep : depthLimit ≤ x.depth
  · rw [if_pos hdeep, if_pos hdeep]
    exact ⟨.failed _, hxy⟩
  · rw [if_neg hdeep, if_neg hdeep]
    rw [← hxy.depth] at h
    rcases ha : a { x with depth := x.depth + 1 } with ⟨outcome, next⟩
    rcases hb : b { y with depth := x.depth + 1 } with ⟨outcome', next'⟩
    have hagree := h (Nat.lt_of_not_le hdeep)
    rw [ha, hb] at hagree
    rcases hagree with ⟨houtcome, hstate⟩
    exact ⟨houtcome, hstate.frames, hstate.declared, congrArg (· - 1) hstate.depth⟩

end TwoSources

end Template
end TransformChain
