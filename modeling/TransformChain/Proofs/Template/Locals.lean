import TransformChain.Proofs.Template.Steady

/-!
# What a macro sees of its caller

The body of a macro is evaluated in frames of its own, so whatever the variables of its caller are,
it does the same.  The defaults of its parameters are evaluated before that, in the frames of the
caller: they do the same wherever the variables that they read have the same values.
-/

namespace TransformChain
namespace Template

open Template.Action

/-!
## Two callers
-/

/-- The states of two callers with the same global variables, declared columns and depth.  Of the
other variables those that are shared have the same values. -/
structure SameView (shared : String → Bool) (x y : State) : Prop where
  globals : x.frames.getLast? = y.frames.getLast?
  declared : x.declared = y.declared
  depth : x.depth = y.depth
  found : ∀ name, shared name = true → find? name x.frames = find? name y.frames

/-- The action does the same for both callers, who cannot be told apart afterwards either. -/
def Blind (shared : String → Bool) (a : Action α) : Prop :=
  ∀ x y, SameView shared x y → (a x).1 = (a y).1 ∧ SameView shared (a x).2 (a y).2

section Rules

variable {shared : String → Bool}

theorem Blind.bind {a : Action α} {f : α → Action β} (ha : Blind shared a)
    (hf : ∀ value, Blind shared (f value)) : Blind shared (a >>= f) := by
  intro x y hview
  change (andThen a f x).1 = (andThen a f y).1 ∧ SameView shared (andThen a f x).2 (andThen a f y).2
  obtain ⟨houtcome, hafter⟩ := ha x y hview
  unfold andThen
  rcases hax : a x with ⟨outcome, next⟩
  rcases hay : a y with ⟨outcome', next'⟩
  rw [hax, hay] at houtcome hafter
  cases houtcome
  cases outcome with
  | done value => exact hf value next next' hafter
  | failed error => exact ⟨rfl, hafter⟩
  | spent => exact ⟨rfl, hafter⟩

theorem Blind.succeeds {a : Action α} (ha : Blind shared a) :
    Blind shared (Action.succeeds a) := by
  intro x y hview
  obtain ⟨houtcome, hafter⟩ := ha x y hview
  unfold Action.succeeds
  rcases hax : a x with ⟨outcome, next⟩
  rcases hay : a y with ⟨outcome', next'⟩
  rw [hax, hay] at houtcome hafter
  cases houtcome
  cases outcome <;> exact ⟨rfl, hafter⟩

theorem closed_blind : ClosedFor shared (Blind shared) where
  pure _ _ _ hview := ⟨rfl, hview⟩
  fail _ _ _ hview := ⟨rfl, hview⟩
  bind := Blind.bind
  lookup name hname _ _ hview := ⟨congrArg Outcome.done (hview.found name hname), hview⟩
  succeeds := Blind.succeeds

theorem blind_declare (template : String) (column : Column) :
    Blind shared (Action.declare template column) := by
  intro x y hview
  unfold declare
  have hdeclared := hview.declared
  rw [← hdeclared]
  cases x.declared.has column.name with
  | true => exact ⟨rfl, hview⟩
  | false => exact ⟨rfl, { hview with declared := rfl }⟩

theorem blind_nested (template : String) {a : Action α} (ha : Blind shared a) :
    Blind shared (Action.nested template a) := by
  intro x y hview
  unfold nested
  rw [← hview.depth]
  by_cases hdeep : depthLimit ≤ x.depth
  · rw [if_pos hdeep, if_pos hdeep]
    exact ⟨rfl, hview⟩
  · rw [if_neg hdeep, if_neg hdeep]
    obtain ⟨houtcome, hafter⟩ := ha { x with depth := x.depth + 1 } { y with depth := x.depth + 1 }
      { hview with depth := rfl }
    exact ⟨houtcome, { hafter with depth := congrArg (· - 1) hafter.depth }⟩

/-- In frames of its own an action starts in the very same state for both callers. -/
theorem blind_isolated (frame : Frame) (a : Action α) :
    Blind shared (Action.isolated frame a) := by
  intro x y hview
  have hstart : { x with frames := [frame, x.frames.getLast?.getD []] } =
      { y with frames := [frame, y.frames.getLast?.getD []] } := by
    rw [hview.globals, hview.declared, hview.depth]
  unfold isolated
  dsimp only
  rw [hstart]
  exact ⟨rfl, { hview with declared := rfl, depth := rfl }⟩

end Rules

/-!
## Defaults
-/

def MacroDef.defaults (target : MacroDef) : List Expr :=
  target.params.filterMap Prod.snd

/-- Only shared variables are read, only steady macros are called, and no text is rendered. -/
def sharedOnly (template : Template) (shared steady : String → Bool) : Check where
  reads := shared
  calls name _ _ :=
    match template.findMacro? name with
    | some _ => steady name
    | none => name != "render"

def steadyDefaults (template : Template) (shared steady : String → Bool) : Bool :=
  template.body.macros.all fun target =>
    !steady target.name || target.defaults.all (sharedOnly template shared steady).expr

section Defaults

variable {scene : Scene} {shared steady : String → Bool} {calls : Calls}

def BlindDefaults (scene : Scene) (shared steady : String → Bool) (calls : Calls) : Prop :=
  ∀ e, (sharedOnly scene.template shared steady).expr e = true → Blind shared (calls.value e)

/-- Whatever the body of a macro is, only the defaults that a call takes see the caller. -/
theorem callMacro_blind {target : MacroDef} {call : Function.Call}
    (htaken : ∀ e ∈ defaultsTaken target.params call.positional (Keyed.ofPairs call.named),
      Blind shared (calls.value e)) : Blind shared (callMacro scene calls target call) :=
  callMacro_closed closed_blind htaken fun frame => blind_nested _ (blind_isolated frame _)

theorem closedCalls_blind (hsteady : scene.template.steadyDefaults shared steady = true)
    (hcalls : BlindDefaults scene shared steady calls) :
    ClosedCalls (Blind shared) scene calls (sharedOnly scene.template shared steady) := by
  intro name args keywords hcheck call
  unfold callByName
  simp only [sharedOnly] at hcheck
  cases hfind : scene.template.findMacro? name with
  | some target =>
      rw [hfind] at hcheck
      obtain ⟨hmem, rfl⟩ := mem_of_findMacro? hfind
      change steady target.name = true at hcheck
      have hpass := List.all_eq_true.mp hsteady target hmem
      rw [hcheck, Bool.not_true, Bool.false_or, List.all_eq_true] at hpass
      apply callMacro_blind
      intro e htaken
      obtain ⟨p, hp, he⟩ := mem_params_of_taken htaken
      exact hcalls e (hpass e (List.mem_filterMap.mpr ⟨p, hp, he⟩))
  | none =>
      rw [hfind] at hcheck
      exact closed_blind.function blind_declare scene _ (bne_iff_ne.mp hcheck) call

/-- By induction on the budget: the defaults of the macros that a default calls are evaluated with
one level of calls less. -/
theorem blindDefaults_within (hsteady : scene.template.steadyDefaults shared steady = true)
    (budget : Nat) : BlindDefaults scene shared steady (.within scene budget) := by
  induction budget with
  | zero => exact fun _ _ _ _ hview => ⟨rfl, hview⟩
  | succ budget ih =>
      exact fun e hcheck => eval_closed closed_blind (closedCalls_blind hsteady ih) e hcheck

/-- A macro call gives the same text or the same error, and declares the same columns, whatever the
variables of the caller are, if the defaults that it takes read shared variables only, call macros
of which the same holds, and render no text.  Without a default nothing need be shared. -/
theorem macro_call_ignores_locals (hsteady : scene.template.steadyDefaults shared steady = true)
    {target : MacroDef} {call : Function.Call}
    (htaken : ∀ e ∈ defaultsTaken target.params call.positional (Keyed.ofPairs call.named),
      (sharedOnly scene.template shared steady).expr e = true)
    {x y : State} (hview : SameView shared x y) (budget : Nat) :
    (callMacro scene (.within scene budget) target call x).1 =
        (callMacro scene (.within scene budget) target call y).1 ∧
      (callMacro scene (.within scene budget) target call x).2.declared =
        (callMacro scene (.within scene budget) target call y).2.declared := by
  have hblind : Blind shared (callMacro scene (.within scene budget) target call) :=
    callMacro_blind fun e he => blindDefaults_within hsteady budget e (htaken e he)
  obtain ⟨houtcome, hafter⟩ := hblind x y hview
  exact ⟨houtcome, hafter.declared⟩

end Defaults

def printingDefault : MacroDef :=
  ⟨"f", [("x", some (.var "y"))], [.output (.var "x")]⟩

def printingScene : Scene :=
  ⟨⟨"t", "", [], [printingDefault]⟩, ⟨"T", "T", none, [], []⟩⟩

def localState (name : String) : State :=
  ⟨[[(name, .str "local")], [("y", .str "global")]], [], 0⟩

theorem printingDefault_ignores_locals :
    (callMacro printingScene (.within printingScene 1) printingDefault ⟨[], []⟩
        (localState "a")).1 =
      (callMacro printingScene (.within printingScene 1) printingDefault ⟨[], []⟩
        (localState "b")).1 ∧
    (callMacro printingScene (.within printingScene 1) printingDefault ⟨[], []⟩
        (localState "a")).1 = .done (.str "global") := by
  have hview : SameView (· == "y") (localState "a") (localState "b") := by
    refine ⟨rfl, rfl, rfl, ?_⟩
    intro name hname
    rw [eq_of_beq hname]
    rfl
  have hsteady : printingScene.template.steadyDefaults (· == "y") (fun _ => false) = true := by
    decide
  exact ⟨(macro_call_ignores_locals hsteady (by decide) hview 1).left, rfl⟩

/-- A caller's own variable is taken in the place of the global one. -/
theorem default_sees_local :
    (localState "y").frames.getLast? = (localState "a").frames.getLast? ∧
      (callMacro printingScene (.within printingScene 1) printingDefault ⟨[], []⟩
          (localState "y")).1 = .done (.str "local") ∧
      (callMacro printingScene (.within printingScene 1) printingDefault ⟨[], []⟩
          (localState "a")).1 = .done (.str "global") :=
  ⟨rfl, rfl, rfl⟩

end Template
end TransformChain
