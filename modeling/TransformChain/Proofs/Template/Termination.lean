import TransformChain.Proofs.Template.Closure

/-!
# Rendering ends

Macro calls and rendered texts nest no deeper than the limit, and everything else that evaluation
does is a recursion on the tree.  The exception are the defaults of macro parameters, which are
evaluated before the nesting is counted: they may call macros again without end.  Where the macros
can be ranked so that defaults call macros of lower rank only, every rendering ends.
-/

namespace TransformChain
namespace Template

open Template.Action

def EndsAt (depth : Nat) (a : Action α) : Prop :=
  ∀ x, x.depth = depth → (a x).1 ≠ .spent ∧ (a x).2.depth = depth

section Rules

variable {depth : Nat}

theorem EndsAt.bind {a : Action α} {f : α → Action β} (ha : EndsAt depth a)
    (hf : ∀ value, EndsAt depth (f value)) : EndsAt depth (a >>= f) := by
  intro x hx
  change (andThen a f x).1 ≠ .spent ∧ (andThen a f x).2.depth = depth
  have hfirst := ha x hx
  unfold andThen
  rcases hax : a x with ⟨outcome, next⟩
  rw [hax] at hfirst
  cases outcome with
  | done value => exact hf value next hfirst.right
  | failed error => exact ⟨nofun, hfirst.right⟩
  | spent => exact absurd rfl hfirst.left

theorem EndsAt.succeeds {a : Action α} (ha : EndsAt depth a) :
    EndsAt depth (Action.succeeds a) := by
  intro x hx
  have hends := ha x hx
  unfold Action.succeeds
  rcases hax : a x with ⟨outcome, next⟩
  rw [hax] at hends
  cases outcome with
  | done value => exact ⟨nofun, hends.right⟩
  | failed error => exact ⟨nofun, hends.right⟩
  | spent => exact absurd rfl hends.left

theorem closed_endsAt : Closed (EndsAt depth) where
  pure _ _ hx := ⟨nofun, hx⟩
  fail _ _ hx := ⟨nofun, hx⟩
  bind := EndsAt.bind
  lookup _ _ _ hx := ⟨nofun, hx⟩
  succeeds := EndsAt.succeeds

theorem endsAt_assign (name : String) (value : Value) :
    EndsAt depth (Action.assign name value) := by
  intro x hx
  unfold Action.assign
  cases x.frames <;> exact ⟨nofun, hx⟩

theorem endsAt_declare (template : String) (column : Column) :
    EndsAt depth (Action.declare template column) := by
  intro x hx
  unfold Action.declare
  cases x.declared.has column.name <;> exact ⟨nofun, hx⟩

theorem endsAt_inFrame (frame : Frame) {a : Action α} (ha : EndsAt depth a) :
    EndsAt depth (Action.inFrame frame a) :=
  fun x hx => ha { x with frames := frame :: x.frames } hx

theorem endsAt_isolated (frame : Frame) {a : Action α} (ha : EndsAt depth a) :
    EndsAt depth (Action.isolated frame a) :=
  fun _ hx => ha _ hx

theorem endsAt_nested (template : String) {a : Action α}
    (ha : depth < depthLimit → EndsAt (depth + 1) a) : EndsAt depth (Action.nested template a) := by
  intro x hx
  unfold Action.nested
  by_cases hdeep : depthLimit ≤ x.depth
  · rw [if_pos hdeep]
    exact ⟨nofun, hx⟩
  · rw [if_neg hdeep]
    have hless : depth < depthLimit := hx ▸ Nat.lt_of_not_le hdeep
    have hends := ha hless { x with depth := x.depth + 1 } (congrArg (· + 1) hx)
    refine ⟨hends.left, ?_⟩
    change (a { x with depth := x.depth + 1 }).2.depth - 1 = depth
    rw [hends.right]
    exact Nat.add_sub_cancel depth 1

end Rules

/-!
## Ranked macros
-/

def callsBelow (body : Body) (rank : String → Nat) (limit : Nat) : NodeCheck :=
  callCheck fun name _ _ => !body.macros.any (fun m => m.name == name) || rank name < limit

/-- The defaults of a macro's parameters call macros of lower rank than the macro itself. -/
def Body.defaultsDescend (body : Body) (rank : String → Nat) : Bool :=
  body.macros.all fun m =>
    m.params.all fun p =>
      match p.2 with
      | none => true
      | some e => (callsBelow body rank (rank m.name)).expr e

theorem callsBelow_allPass {body : Body} {rank : String → Nat} {limit : Nat}
    (hlimit : ∀ m ∈ body.macros, rank m.name < limit) :
    AllPass fun name _ _ => !body.macros.any (fun m => m.name == name) || rank name < limit := by
  intro name _ _
  change (!body.macros.any (fun m => m.name == name) || decide (rank name < limit)) = true
  cases hany : body.macros.any (fun m => m.name == name) with
  | false => rfl
  | true =>
      rw [Bool.not_true, Bool.false_or]
      rcases List.any_eq_true.mp hany with ⟨m, hm, hname⟩
      rw [← eq_of_beq hname]
      exact decide_eq_true (hlimit m hm)

theorem Body.defaultsDescend_iff {body : Body} {rank : String → Nat} :
    body.defaultsDescend rank = true ↔
      ∀ m ∈ body.macros, ∀ p ∈ m.params, ∀ e, p.2 = some e →
        (callsBelow body rank (rank m.name)).expr e = true := by
  unfold Body.defaultsDescend
  simp only [List.all_eq_true]
  constructor
  · intro h m hm p hp e he
    have hpasses := h m hm p hp
    rw [he] at hpasses
    exact hpasses
  · intro h m hm p hp
    cases he : p.2 with
    | none => rfl
    | some e => exact h m hm p hp e he

/-- The trees that calls lead to come to an end: defaults at this depth if they call macros below
the given rank, and bodies one level deeper. -/
structure CallsEnd (body : Body) (rank : String → Nat) (depth limit : Nat) (calls : Calls) :
    Prop where
  value : ∀ r e, r < limit → (callsBelow body rank r).expr e = true → EndsAt depth (calls.value e)
  body : ∀ ns, depth < depthLimit → EndsAt (depth + 1) (calls.body ns)

section Ranked

variable {scene : Scene} {rank : String → Nat} {depth limit : Nat} {calls : Calls}

theorem closedNodes_endsAt (hdescend : scene.template.body.defaultsDescend rank = true)
    (hcalls : CallsEnd scene.template.body rank depth limit calls) :
    ClosedNodes (EndsAt depth) scene calls (callsBelow scene.template.body rank limit) where
  closed := closed_endsAt
  functions := by
    intro name _ _ hcheck call
    apply callByName_closed closed_endsAt endsAt_declare
    · exact fun ns => endsAt_nested _ (hcalls.body ns)
    · intro target hfind call
      rcases mem_of_findMacro? hfind with ⟨hmem, rfl⟩
      have hany : scene.template.body.macros.any (fun m => m.name == target.name) = true :=
        List.any_eq_true.mpr ⟨target, hmem, beq_self_eq_true target.name⟩
      have hrank : rank target.name < limit := by
        simpa [callsBelow, callCheck, hany] using hcheck
      apply callMacro_closed closed_endsAt
      · intro e htaken
        obtain ⟨p, hp, he⟩ := mem_params_of_taken htaken
        exact hcalls.value _ e hrank (Body.defaultsDescend_iff.mp hdescend target hmem p hp e he)
      · exact fun frame => endsAt_nested _ fun hdeep =>
          endsAt_isolated frame (hcalls.body target.body hdeep)
  prints h := by cases h
  sets _ value := endsAt_assign _ value
  frame frame _ ha := endsAt_inFrame frame ha

/-- By induction on the budget.  A default costs a rank, a body or a rendered text costs a level of
nesting, after which the macros of every rank may be called again. -/
theorem ends_within (hdescend : scene.template.body.defaultsDescend rank = true) {top : Nat}
    (htop : ∀ m ∈ scene.template.body.macros, rank m.name < top) (budget : Nat) :
    ∀ depth limit, limit + (depthLimit - depth) * (top + 1) ≤ budget →
      ClosedNodes (EndsAt depth) scene (.within scene budget)
        (callsBelow scene.template.body rank limit) := by
  have hall := callsBelow_allPass htop
  induction budget with
  | zero =>
      intro depth limit hbudget
      apply closedNodes_endsAt hdescend
      have hproduct : (depthLimit - depth) * (top + 1) = 0 := by omega
      have hdepth : depthLimit - depth = 0 :=
        (Nat.mul_eq_zero.mp hproduct).resolve_right (Nat.succ_ne_zero top)
      constructor
      · intro r e hr _
        omega
      · intro ns hdeep
        omega
  | succ budget ih =>
      intro depth limit hbudget
      apply closedNodes_endsAt hdescend
      constructor
      · intro r e hr hcheck
        exact (ih depth r (by omega)).expr hcheck
      · intro ns hdeep
        have hlevel : (depthLimit - depth) * (top + 1) =
            (depthLimit - (depth + 1)) * (top + 1) + (top + 1) := by
          rw [← Nat.succ_mul]
          congr 1
          omega
        exact execAll_closed (ih (depth + 1) top (by omega)) ns (callCheck_nodes hall ns)

/-- Each level of nesting leaves room for calls of every rank. -/
theorem run_ends (hdescend : scene.template.body.defaultsDescend rank = true) {top budget : Nat}
    (htop : ∀ m ∈ scene.template.body.macros, rank m.name < top)
    (hbudget : top + depthLimit * (top + 1) ≤ budget) : (scene.run budget).1 ≠ .spent := by
  have hends := ends_within hdescend htop budget 0 top hbudget
  exact (execAll_closed hends scene.template.body.nodes
    (callCheck_nodes (callsBelow_allPass htop) scene.template.body.nodes) _ rfl).left

end Ranked

theorem exists_top (macros : List MacroDef) (rank : String → Nat) :
    ∃ top, ∀ m ∈ macros, rank m.name < top := by
  induction macros with
  | nil => exact ⟨0, nofun⟩
  | cons first rest ih =>
      rcases ih with ⟨top, htop⟩
      refine ⟨max (rank first.name + 1) top, ?_⟩
      intro m hm
      rcases List.mem_cons.mp hm with rfl | hm
      · omega
      · have := htop m hm
        omega

theorem callMacro_at_limit {scene : Scene} {calls : Calls} {target : MacroDef}
    {call : Function.Call} {frame : Frame} {x y : State}
    (hcount : call.positional.length ≤ target.params.length)
    (hbound : Yields (bindParameters calls target.params call.positional
      (Keyed.ofPairs call.named) []) x (frame, []) y)
    (hdeep : depthLimit ≤ y.depth) :
    callMacro scene calls target call x =
      (.failed (.templateEvaluation scene.template.name .nestingTooDeep), y) := by
  unfold callMacro
  rw [if_neg (Nat.not_lt.mpr hcount), hbound.bind_eq]
  change andThen (Action.nested _ _) _ y = _
  unfold andThen Action.nested
  rw [if_pos hdeep]

theorem renderText_at_limit {scene : Scene} {body : List Node → Action String}
    {call : Function.Call} {text : Value} {ns : List Node} {x : State}
    (hfirst : Function.first scene "render" call = .ok text)
    (hparse : Body.parse scene.template.name text.display = .ok ⟨ns, []⟩)
    (hdeep : depthLimit ≤ x.depth) :
    Function.renderText scene body call x =
      (.failed (.templateEvaluation scene.template.name .nestingTooDeep), x) := by
  have htext : Yields (Action.ofExcept (Function.first scene "render" call)) x text x :=
    yields_ofExcept.mpr ⟨hfirst, rfl⟩
  have hbody : Yields (Action.ofExcept (Body.parse scene.template.name text.display)) x
      ⟨ns, []⟩ x :=
    yields_ofExcept.mpr ⟨hparse, rfl⟩
  unfold Function.renderText
  rw [htext.bind_eq, hbody.bind_eq]
  change andThen (Action.nested _ _) _ x = _
  unfold andThen Action.nested
  rw [if_pos hdeep]

/-- If the macros can be ranked so that defaults call macros of lower rank only, every rendering
ends, whatever it renders.  A macro that is called at the nesting limit fails, and so does a text
that is rendered there. -/
theorem rendering_ends (template : Template) (rank : String → Nat)
    (hdescend : template.body.defaultsDescend rank = true) :
    (∃ enough, ∀ context budget, enough ≤ budget →
      (Scene.run ⟨template, context⟩ budget).1 ≠ .spent) ∧
    (∀ (context : Context) (calls : Calls) (target : MacroDef) (call : Function.Call)
        (frame : Frame) (x y : State),
      call.positional.length ≤ target.params.length →
      Yields (bindParameters calls target.params call.positional (Keyed.ofPairs call.named) []) x
        (frame, []) y →
      depthLimit ≤ y.depth →
      callMacro ⟨template, context⟩ calls target call x =
        (.failed (.templateEvaluation template.name .nestingTooDeep), y)) ∧
    (∀ (context : Context) (body : List Node → Action String) (call : Function.Call)
        (text : Value) (ns : List Node) (x : State),
      Function.first ⟨template, context⟩ "render" call = .ok text →
      Body.parse template.name text.display = .ok ⟨ns, []⟩ →
      depthLimit ≤ x.depth →
      Function.renderText ⟨template, context⟩ body call x =
        (.failed (.templateEvaluation template.name .nestingTooDeep), x)) := by
  refine ⟨?_, ?_, ?_⟩
  · rcases exists_top template.body.macros rank with ⟨top, htop⟩
    exact ⟨top + depthLimit * (top + 1), fun context budget hbudget =>
      @run_ends ⟨template, context⟩ rank hdescend top budget htop hbudget⟩
  · exact fun _ _ _ _ _ _ _ hcount hbound hdeep => callMacro_at_limit hcount hbound hdeep
  · exact fun _ _ _ _ _ _ hfirst hparse hdeep => renderText_at_limit hfirst hparse hdeep

def nestingMacros : Template :=
  ⟨"t", "", [.output (.call (.var "f") [] [])],
    [⟨"g", [], [.text "g"]⟩,
      ⟨"f", [("x", some (.call (.var "g") [] []))], [.output (.call (.var "f") [] [])]⟩]⟩

def nestingRank (name : String) : Nat :=
  if name = "f" then 1 else 0

theorem nestingMacros_end :
    nestingMacros.body.defaultsDescend nestingRank = true ∧
    ∃ enough, ∀ context budget, enough ≤ budget →
      (Scene.run ⟨nestingMacros, context⟩ budget).1 ≠ .spent :=
  ⟨by decide, (rendering_ends nestingMacros nestingRank (by decide)).left⟩

/-!
## Defaults that lead back
-/

def selfDefaulting : Template :=
  ⟨"t", "", [.output (.call (.var "f") [] [])],
    [⟨"f", [("x", some (.call (.var "f") [] []))], [.output (.var "x")]⟩]⟩

theorem bind_spent {a : Action α} {f : α → Action β} {x y : State} (h : a x = (.spent, y)) :
    (a >>= f) x = (.spent, y) := by
  change andThen a f x = (.spent, y)
  unfold andThen
  rw [h]

theorem selfDefaulting_spent (context : Context) (budget : Nat) (x : State) :
    eval ⟨selfDefaulting, context⟩ (.within ⟨selfDefaulting, context⟩ budget)
      (.call (.var "f") [] []) x = (.spent, x) := by
  induction budget with
  | zero => rfl
  | succ budget ih =>
      have hbound : bindParameters (.within ⟨selfDefaulting, context⟩ (budget + 1))
          [("x", some (.call (.var "f") [] []))] [] [] [] x = (.spent, x) := bind_spent ih
      have hcall : callMacro ⟨selfDefaulting, context⟩
          (.within ⟨selfDefaulting, context⟩ (budget + 1))
          ⟨"f", [("x", some (.call (.var "f") [] []))], [.output (.var "x")]⟩ ⟨[], []⟩ x =
            (.spent, x) := bind_spent hbound
      exact hcall

/-- A macro that calls itself through its default until a text has forty dots, of which each call
adds one. -/
def countingMacro : Template :=
  ⟨"t", "",
    [.assign "s" (.lit (.str "")), .output (.call (.var "f") [] [])],
    [⟨"f",
      [("x", some (.cond
        (.binary .or
          (.call (.var "render") [.lit (.str "\x7b% set s = s ~ '.' %\x7d")] [])
          (.binary .eq (.var "s") (.lit (.str (String.ofList (List.replicate 40 '.'))))))
        (.lit (.str "end"))
        (some (.call (.var "f") [] []))))],
      [.output (.var "x")]⟩]⟩

/-- Through defaults calls nest without a limit: forty of them succeed, and a default that calls its
macro in any case makes the rendering endless. -/
theorem defaults_nest_without_limit :
    (render countingMacro ⟨"T", "T", none, [], []⟩).toOption = some ⟨"end", none⟩ ∧
    ¬∃ context budget, (Scene.run ⟨selfDefaulting, context⟩ budget).1 ≠ .spent := by
  constructor
  · decide +kernel
  · rintro ⟨context, budget, hends⟩
    have hrun : Scene.run ⟨selfDefaulting, context⟩ budget =
        (.spent, Scene.start ⟨selfDefaulting, context⟩) :=
      bind_spent (bind_spent (selfDefaulting_spent context budget _))
    exact hends (congrArg Prod.fst hrun)

end Template
end TransformChain
