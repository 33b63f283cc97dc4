import TransformChain.Proofs.Template.Checks
import TransformChain.Proofs.Template.TwoRuns
import TransformChain.Proofs.Text.Splicing

/-!
# Rendering is parametric in the source

A template that only prints the relation it reads from, and never looks into it, writes the same
text around any two relations.  Two runs are followed side by side: values, declared columns and
errors agree everywhere, and texts agree up to the printed relation.
-/

namespace TransformChain
namespace Template

open Template.Action

/-!
## Templates that only print their source
-/

def isSource : Expr → Bool
  | .var name => name == "source_table"
  | _ => false

def quiet : NodeCheck where
  reads name := name != "source_table"
  calls name _ _ := name != "render"
  sets _ := true
  prints _ := false

def printing : NodeCheck :=
  { quiet with prints := isSource }

/-- The body mentions the source relation only where it prints it as a whole outside its macros, and
renders no text. -/
def Body.onlyPrintsSource (body : Body) : Bool :=
  printing.nodes body.nodes && body.macros.all quiet.macroDef

/-- No text that is passed as a dataset from this point on is one of the two relations. -/
def Clear (scene : Scene) (s t : String) (p : Point) : Prop :=
  ∀ text, Passes (scene.reading s) p text → text ≠ s ∧ text ≠ t

structure AnswersAlike (scene : Scene) (s t text : String) : Prop where
  schema : Function.schemaOf (scene.reading s) (some (.str text)) =
    Function.schemaOf (scene.reading t) (some (.str text))
  label : Function.labelOf (scene.reading s) (some (.str text)) =
    Function.labelOf (scene.reading t) (some (.str text))

/-- About every text that is passed as a dataset from this point on both relations are told the
same. -/
def AsksAlike (scene : Scene) (s t : String) (p : Point) : Prop :=
  ∀ text, Passes (scene.reading s) p text → AnswersAlike scene s t text

section TwoSources

variable {scene : Scene} {s t : String}

theorem AsksAlike.part {p q : Point} (h : AsksAlike scene s t p) (hpart : Part (scene.reading s) p q) :
    AsksAlike scene s t q := by
  intro text hpasses
  exact h text (hpasses.of_part hpart)

theorem AsksAlike.call {b : Nat} {name : String} {call : Function.Call} {x : State}
    (h : AsksAlike scene s t ⟨b, .call name call, x⟩)
    (hfree : scene.template.findMacro? name = none) (text : String)
    (hargument : datasetArgument name call = some (.str text)) : AnswersAlike scene s t text :=
  h text ⟨b, name, call, x, .refl, hfree, hargument⟩

/-!
## Functions
-/

section Functions

variable {value : Option Value}

theorem asked_agrees {text : String} (hs : text ≠ s) (ht : text ≠ t) :
    Function.asked (scene.reading s) (some (.str text)) =
      Function.asked (scene.reading t) (some (.str text)) := by
  change Except.ok (if text = s then Function.Asked.input else .side text) =
    Except.ok (if text = t then Function.Asked.input else .side text)
  rw [if_neg hs, if_neg ht]

theorem answersAlike_of_ne {text : String} (hs : text ≠ s) (ht : text ≠ t) :
    AnswersAlike scene s t text := by
  constructor
  case schema =>
    unfold Function.schemaOf
    rw [asked_agrees hs ht]
    rfl
  case label =>
    unfold Function.labelOf
    rw [asked_agrees hs ht]
    rfl

/-- The first relation is told apart from the input after the exchange, and nothing comes of that if
it belongs to a dataset with the same label and columns. -/
theorem answersAlike_of_partner (hne : s ≠ t)
    (hpartner : Keyed.get? s scene.context.datasets =
      some ⟨scene.context.sourceLabel, scene.context.input⟩) :
    AnswersAlike scene s t s := by
  have hinput : Function.asked (scene.reading s) (some (.str s)) = .ok .input := by
    change Except.ok (if s = s then Function.Asked.input else .side s) = _
    rw [if_pos rfl]
  have hside : Function.asked (scene.reading t) (some (.str s)) = .ok (.side s) := by
    change Except.ok (if s = t then Function.Asked.input else .side s) = _
    rw [if_neg hne]
  have hdataset : Function.sideDataset (scene.reading t) s =
      .ok ⟨scene.context.sourceLabel, scene.context.input⟩ := by
    have hget : Keyed.get? s (scene.reading t).context.datasets = _ := hpartner
    unfold Function.sideDataset
    rw [hget]
  constructor
  case schema =>
    unfold Function.schemaOf
    simp only [hinput, hside, hdataset]
    rfl
  case label =>
    unfold Function.labelOf
    simp only [hinput, hside, hdataset]
    rfl

theorem Clear.asksAlike {p : Point} (h : Clear scene s t p) : AsksAlike scene s t p :=
  fun text hpasses => answersAlike_of_ne (h text hpasses).left (h text hpasses).right

theorem schemaOf_agrees (h : ∀ text, value = some (.str text) → AnswersAlike scene s t text) :
    Function.schemaOf (scene.reading s) value = Function.schemaOf (scene.reading t) value := by
  cases value with
  | none => rfl
  | some v =>
      cases v with
      | str text => exact (h text rfl).schema
      | _ => rfl

theorem labelOf_agrees (h : ∀ text, value = some (.str text) → AnswersAlike scene s t text) :
    Function.labelOf (scene.reading s) value = Function.labelOf (scene.reading t) value := by
  cases value with
  | none => rfl
  | some v =>
      cases v with
      | str text => exact (h text rfl).label
      | _ => rfl

theorem pure_agrees (name : String) (call : Function.Call)
    (h : ∀ text, datasetArgument name call = some (.str text) → AnswersAlike scene s t text) :
    Function.pure (scene.reading s) name call = Function.pure (scene.reading t) name call := by
  unfold Function.pure
  split
  case h_5 =>
    have hschema : Function.schemaOf (scene.reading s) (call.argument 0 "dataset") =
        Function.schemaOf (scene.reading t) (call.argument 0 "dataset") := schemaOf_agrees h
    rw [hschema]
  case h_6 =>
    have hschema : Function.schemaOf (scene.reading s) (call.argument 0 "dataset") =
        Function.schemaOf (scene.reading t) (call.argument 0 "dataset") := schemaOf_agrees h
    rw [hschema]
  case h_7 =>
    have hschema : Function.schemaOf (scene.reading s) none =
        Function.schemaOf (scene.reading t) none := rfl
    rw [hschema]
    rfl
  case h_8 =>
    have hschema : Function.schemaOf (scene.reading s) (call.argument 1 "dataset") =
        Function.schemaOf (scene.reading t) (call.argument 1 "dataset") := schemaOf_agrees h
    unfold Function.checkColumns
    rw [hschema]
    rfl
  case h_9 =>
    have hlabel : Function.labelOf (scene.reading s) call.positional.head? =
        Function.labelOf (scene.reading t) call.positional.head? := labelOf_agrees h
    rw [hlabel]
  all_goals rfl

theorem call_agrees {name : String} (hname : name ≠ "render") {call : Function.Call}
    (h : ∀ text, datasetArgument name call = some (.str text) → AnswersAlike scene s t text)
    (first second : List Node → Action String) {x y : State} (hxy : SameState s t x y) :
    Agree s t Eq (Function.call (scene.reading s) first name call x)
      (Function.call (scene.reading t) second name call y) := by
  unfold Function.call
  split
  case h_1 =>
    apply (agree_ofExcept _ hxy).bind_eq
    intro value x' y' _ hstate
    apply (agree_declare _ _ hstate).bind_eq
    intro _ x'' y'' _ hstate
    exact agree_pure rfl hstate
  case h_2 =>
    apply (agree_ofExcept _ hxy).bind_eq
    intro value x' y' _ hstate
    apply (agree_ofExcept _ hstate).bind_eq
    intro columns x'' y'' _ hstate
    apply (agree_declareAll _ _ hstate).bind_eq
    intro _ _ _ _ hstate
    exact agree_pure rfl hstate
  case h_3 => exact absurd rfl hname
  case h_4 =>
    rw [pure_agrees _ _ h]
    exact agree_ofExcept _ hxy

end Functions

/-!
## Expressions
-/

def CallsAgree (scene : Scene) (s t : String) (b : Nat) : Prop :=
  ∀ {name : String} {call : Function.Call} {x y : State}, name ≠ "render" → SameState s t x y →
    AsksAlike scene s t ⟨b, .call name call, x⟩ →
    Agree s t Eq (callByName (scene.reading s) (.within (scene.reading s) b) name call x)
      (callByName (scene.reading t) (.within (scene.reading t) b) name call y)

theorem lookup_agrees {name : String} (hname : name ≠ "source_table") {x y : State}
    (hxy : SameState s t x y) :
    Agree s t Eq (Action.lookup name x) (Action.lookup name y) := by
  rcases sameLookup_find? hxy.frames name with heq | ⟨hsource, -, -⟩
  · exact ⟨.done heq, hxy⟩
  · exact absurd hsource hname

theorem evalVar_agrees {name : String} (hname : name ≠ "source_table") {x y : State}
    (hxy : SameState s t x y) :
    Agree s t Eq (evalVar (scene.reading s) name x) (evalVar (scene.reading t) name y) := by
  unfold evalVar
  apply (lookup_agrees hname hxy).bind_eq
  intro found x' y' _ hstate
  cases found with
  | none => exact agree_fail _ hstate
  | some value => exact agree_pure rfl hstate

theorem ne_source_of_quiet {name : String} (h : quiet.expr (.var name) = true) :
    name ≠ "source_table" := by
  simpa [Check.expr, quiet] using h

theorem operate_agrees (result : Operated Value) {x y : State} (hxy : SameState s t x y) :
    Agree s t Eq (operate (scene.reading s) result x) (operate (scene.reading t) result y) :=
  agree_ofExcept _ hxy

theorem filterOperand_agrees {calls calls' : Calls} {operand : Expr} (name : String)
    (hquiet : quiet.expr operand = true) {x y : State} (hxy : SameState s t x y)
    (heval : (∀ subject, operand ≠ .var subject) →
      Agree s t Eq (eval (scene.reading s) calls operand x)
        (eval (scene.reading t) calls' operand y)) :
    Agree s t Eq (filterOperand (scene.reading s) calls name operand x)
      (filterOperand (scene.reading t) calls' name operand y) := by
  cases operand with
  | var subject =>
      have hsubject := ne_source_of_quiet hquiet
      unfold filterOperand
      split
      · apply (lookup_agrees hsubject hxy).bind_eq
        intro found x' y' _ hstate
        exact agree_pure rfl hstate
      · exact evalVar_agrees hsubject hxy
  | _ => exact heval (by intro subject h; cases h)

theorem testOutcome_agrees {calls calls' : Calls} {operand : Expr} (name : String)
    (hquiet : quiet.expr operand = true) {x y : State} (hxy : SameState s t x y)
    (heval : (∀ subject, operand ≠ .var subject) →
      Agree s t Eq (eval (scene.reading s) calls operand x)
        (eval (scene.reading t) calls' operand y)) :
    Agree s t Eq (testOutcome (scene.reading s) calls name operand x)
      (testOutcome (scene.reading t) calls' name operand y) := by
  have htest : ∀ value {x' y' : State}, SameState s t x' y' →
      Agree s t Eq (testValue (scene.reading s) name value x')
        (testValue (scene.reading t) name value y') := by
    intro value x' y' hstate
    exact agree_ofExcept _ hstate
  cases operand with
  | var subject =>
      have hsubject := ne_source_of_quiet hquiet
      unfold testOutcome
      split
      · apply (lookup_agrees hsubject hxy).bind_eq
        intro found x' y' _ hstate
        exact agree_pure rfl hstate
      · apply (evalVar_agrees hsubject hxy).bind_eq
        intro value x' y' _ hstate
        exact htest value hstate
  | _ =>
      have hoperand := heval (by intro subject h; cases h)
      unfold testOutcome
      split
      · apply (agree_succeeds hoperand).bind_eq
        intro found x' y' _ hstate
        exact agree_pure rfl hstate
      · apply hoperand.bind_eq
        intro value x' y' _ hstate
        exact htest value hstate

mutual

theorem eval_agrees {b : Nat} (hcalls : CallsAgree scene s t b) :
    ∀ (e : Expr) {x y : State}, quiet.expr e = true → SameState s t x y →
      AsksAlike scene s t ⟨b, .expr e, x⟩ →
      Agree s t Eq (eval (scene.reading s) (.within (scene.reading s) b) e x)
        (eval (scene.reading t) (.within (scene.reading t) b) e y)
  | .lit value, x, y, _, hxy, _ => by
      simp only [eval]
      exact agree_pure rfl hxy
  | .var name, x, y, hquiet, hxy, _ => by
      simp only [eval]
      exact evalVar_agrees (ne_source_of_quiet hquiet) hxy
  | .list items, x, y, hquiet, hxy, halike => by
      simp only [eval]
      apply (evalAll_agrees hcalls items hquiet hxy (halike.part .list)).bind_eq
      intro values x' y' _ hstate
      exact agree_pure rfl hstate
  | .dict entries, x, y, hquiet, hxy, halike => by
      simp only [eval]
      apply (evalEntries_agrees hcalls entries hquiet hxy (halike.part .dict)).bind_eq
      intro pairs x' y' _ hstate
      exact agree_pure rfl hstate
  | .attr base name, x, y, hquiet, hxy, halike => by
      simp only [eval]
      apply (eval_agrees hcalls base hquiet hxy (halike.part .attr)).bind_eq
      intro value x' y' _ hstate
      exact operate_agrees _ hstate
  | .index base key, x, y, hquiet, hxy, halike => by
      simp only [Check.expr, Bool.and_eq_true] at hquiet
      simp only [eval]
      apply (eval_agrees hcalls base hquiet.left hxy (halike.part .indexBase)).bind_eq
      intro value x' y' hvalue hstate
      apply (eval_agrees hcalls key hquiet.right hstate (halike.part (.indexKey hvalue))).bind_eq
      intro place x'' y'' _ hstate
      exact operate_agrees _ hstate
  | .call callee args keywords, x, y, hquiet, hxy, halike => by
      obtain ⟨hquietArgs, hquietNamed⟩ := Check.of_call hquiet
      rw [eval_call, eval_call]
      apply (evalAll_agrees hcalls args hquietArgs hxy (halike.part .callArgs)).bind_eq
      intro positional x' y' hargs hstate
      apply (evalNamed_agrees hcalls keywords hquietNamed hstate
        (halike.part (.callNamed hargs))).bind_eq
      intro named x'' y'' hnamed hstate
      cases callee with
      | attr base name =>
          simp only [Check.expr, Bool.and_eq_true] at hquiet
          apply (eval_agrees hcalls base hquiet.left.left hstate
            (halike.part (.callReceiver hargs hnamed))).bind_eq
          intro receiver _ _ _ hstate
          exact operate_agrees _ hstate
      | var name =>
          simp only [Check.expr, Bool.and_eq_true] at hquiet
          exact hcalls (by simpa [quiet] using hquiet.left.left) hstate
            (halike.part (.callFunction hargs hnamed))
      | _ => exact agree_fail _ hstate
  | .filter operand name args, x, y, hquiet, hxy, halike => by
      simp only [Check.expr, Bool.and_eq_true] at hquiet
      rw [eval_filter, eval_filter]
      have hoperand := filterOperand_agrees name hquiet.left hxy fun hvar =>
        eval_agrees hcalls operand hquiet.left hxy (halike.part (.filterOperand hvar))
      apply hoperand.bind_eq
      intro value x' y' hvalue hstate
      apply (evalAll_agrees hcalls args hquiet.right hstate
        (halike.part (.filterArgs hvalue))).bind_eq
      intro values x'' y'' _ hstate
      exact operate_agrees _ hstate
  | .test operand name negated, x, y, hquiet, hxy, halike => by
      simp only [Check.expr] at hquiet
      rw [eval_test, eval_test]
      have houtcome := testOutcome_agrees name hquiet hxy fun hvar =>
        eval_agrees hcalls operand hquiet hxy (halike.part (.testOperand hvar))
      apply houtcome.bind_eq
      intro passed x' y' _ hstate
      exact agree_pure rfl hstate
  | .not operand, x, y, hquiet, hxy, halike => by
      simp only [eval]
      apply (eval_agrees hcalls operand hquiet hxy (halike.part .not)).bind_eq
      intro value x' y' _ hstate
      exact agree_pure rfl hstate
  | .neg operand, x, y, hquiet, hxy, halike => by
      simp only [eval]
      apply (eval_agrees hcalls operand hquiet hxy (halike.part .neg)).bind_eq
      intro value x' y' _ hstate
      exact operate_agrees _ hstate
  | .binary op left right, x, y, hquiet, hxy, halike => by
      simp only [Check.expr, Bool.and_eq_true] at hquiet
      rw [eval_binary, eval_binary]
      apply (eval_agrees hcalls left hquiet.left hxy (halike.part .binaryLeft)).bind_eq
      intro value x' y' hvalue hstate
      unfold binaryRest
      cases hgoes : op.goesOn value with
      | false => exact agree_pure rfl hstate
      | true =>
          apply (eval_agrees hcalls right hquiet.right hstate
            (halike.part (.binaryRight hvalue hgoes))).bind_eq
          intro w x'' y'' _ hstate
          split
          · exact agree_pure rfl hstate
          · exact operate_agrees _ hstate
  | .cond condition yes none, x, y, hquiet, hxy, halike => by
      simp only [Check.expr, Bool.and_eq_true] at hquiet
      simp only [eval]
      apply (eval_agrees hcalls condition hquiet.left hxy (halike.part .condition)).bind_eq
      intro value x' y' hvalue hstate
      cases hholds : value.holds with
      | true =>
          exact eval_agrees hcalls yes hquiet.right hstate
            (halike.part (.condYes hvalue hholds))
      | false => exact agree_pure rfl hstate
  | .cond condition yes (some no), x, y, hquiet, hxy, halike => by
      simp only [Check.expr, Bool.and_eq_true] at hquiet
      simp only [eval]
      apply (eval_agrees hcalls condition hquiet.left.left hxy
        (halike.part .condition)).bind_eq
      intro value x' y' hvalue hstate
      cases hholds : value.holds with
      | true =>
          exact eval_agrees hcalls yes hquiet.left.right hstate
            (halike.part (.condYes hvalue hholds))
      | false =>
          exact eval_agrees hcalls no hquiet.right hstate (halike.part (.condNo hvalue hholds))

theorem evalAll_agrees {b : Nat} (hcalls : CallsAgree scene s t b) :
    ∀ (es : List Expr) {x y : State}, quiet.exprs es = true → SameState s t x y →
      AsksAlike scene s t ⟨b, .exprs es, x⟩ →
      Agree s t Eq (evalAll (scene.reading s) (.within (scene.reading s) b) es x)
        (evalAll (scene.reading t) (.within (scene.reading t) b) es y)
  | [], x, y, _, hxy, _ => by
      simp only [evalAll]
      exact agree_pure rfl hxy
  | e :: rest, x, y, hquiet, hxy, halike => by
      simp only [Check.exprs, Bool.and_eq_true] at hquiet
      simp only [evalAll]
      apply (eval_agrees hcalls e hquiet.left hxy (halike.part .exprsFirst)).bind_eq
      intro value x' y' hvalue hstate
      apply (evalAll_agrees hcalls rest hquiet.right hstate
        (halike.part (.exprsRest hvalue))).bind_eq
      intro values x'' y'' _ hstate
      exact agree_pure rfl hstate

theorem evalEntries_agrees {b : Nat} (hcalls : CallsAgree scene s t b) :
    ∀ (es : List (Expr × Expr)) {x y : State}, quiet.entries es = true → SameState s t x y →
      AsksAlike scene s t ⟨b, .entries es, x⟩ →
      Agree s t Eq (evalEntries (scene.reading s) (.within (scene.reading s) b) es x)
        (evalEntries (scene.reading t) (.within (scene.reading t) b) es y)
  | [], x, y, _, hxy, _ => by
      simp only [evalEntries]
      exact agree_pure rfl hxy
  | (key, e) :: rest, x, y, hquiet, hxy, halike => by
      simp only [Check.entries, Bool.and_eq_true] at hquiet
      simp only [evalEntries]
      apply (eval_agrees hcalls key hquiet.left.left hxy (halike.part .entriesKey)).bind_eq
      intro name x' y' hname hstate
      apply (eval_agrees hcalls e hquiet.left.right hstate
        (halike.part (.entriesValue hname))).bind_eq
      intro value x'' y'' hvalue hstate
      apply (evalEntries_agrees hcalls rest hquiet.right hstate
        (halike.part (.entriesRest hname hvalue))).bind_eq
      intro pairs _ _ _ hstate
      exact agree_pure rfl hstate

theorem evalNamed_agrees {b : Nat} (hcalls : CallsAgree scene s t b) :
    ∀ (es : List (String × Expr)) {x y : State}, quiet.named es = true → SameState s t x y →
      AsksAlike scene s t ⟨b, .named es, x⟩ →
      Agree s t Eq (evalNamed (scene.reading s) (.within (scene.reading s) b) es x)
        (evalNamed (scene.reading t) (.within (scene.reading t) b) es y)
  | [], x, y, _, hxy, _ => by
      simp only [evalNamed]
      exact agree_pure rfl hxy
  | (name, e) :: rest, x, y, hquiet, hxy, halike => by
      simp only [Check.named, Bool.and_eq_true] at hquiet
      simp only [evalNamed]
      apply (eval_agrees hcalls e hquiet.left hxy (halike.part .namedFirst)).bind_eq
      intro value x' y' hvalue hstate
      apply (evalNamed_agrees hcalls rest hquiet.right hstate
        (halike.part (.namedRest hvalue))).bind_eq
      intro pairs x'' y'' _ hstate
      exact agree_pure rfl hstate

end

/-!
## Nodes
-/

/-- Both texts are joined from the same segments, each around its own relation. -/
def Spliced (s t a b : String) : Prop :=
  ∃ segments, segments ≠ [] ∧ a = Text.join s segments ∧ b = Text.join t segments

structure Carries (s t : String) (check : NodeCheck) (T : String → String → Prop) : Prop where
  toCheck_eq : check.toCheck = quiet.toCheck
  same : ∀ text, T text text
  append : ∀ {a b c d}, T a b → T c d → T (a ++ c) (b ++ d)
  printed : ∀ {e}, check.prints e = true → e = .var "source_table" ∧ T s t

theorem carries_quiet : Carries s t quiet Eq where
  toCheck_eq := rfl
  same _ := rfl
  append hfirst hsecond := by rw [hfirst, hsecond]
  printed h := by cases h

theorem carries_printing : Carries s t printing (Spliced s t) where
  toCheck_eq := rfl
  same text := ⟨[text], List.cons_ne_nil _ _, rfl, rfl⟩
  append := by
    rintro a b c d ⟨first, hfirst, rfl, rfl⟩ ⟨second, hsecond, rfl, rfl⟩
    refine ⟨Text.splice first second, Text.splice_ne_nil hfirst _, ?_, ?_⟩
    · rw [Text.join_splice _ hfirst hsecond]
    · rw [Text.join_splice _ hfirst hsecond]
  printed := by
    intro e h
    cases e with
    | var name =>
        have hname : name = "source_table" := by simpa [printing, isSource] using h
        rw [hname]
        refine ⟨rfl, ["", ""], List.cons_ne_nil _ _, ?_, ?_⟩
        · simp [Text.join]
        · simp [Text.join]
    | _ => cases h

section Nodes

variable {check : NodeCheck} {T : String → String → Prop}

theorem Carries.expr_eq (h : Carries s t check T) (e : Expr) : check.expr e = quiet.expr e := by
  rw [h.toCheck_eq]

theorem source_agrees (h : Carries s t check T) (hsource : T s t) {calls calls' : Calls}
    {x y : State} (hxy : SameState s t x y) :
    Agree s t T (exec (scene.reading s) calls (.output (.var "source_table")) x)
      (exec (scene.reading t) calls' (.output (.var "source_table")) y) := by
  have hvalue : Agree s t (fun v w => T v.display w.display)
      (evalVar (scene.reading s) "source_table" x)
      (evalVar (scene.reading t) "source_table" y) := by
    have hfound : Agree s t (SameLookup s t "source_table") (Action.lookup "source_table" x)
        (Action.lookup "source_table" y) :=
      ⟨.done (sameLookup_find? hxy.frames _), hxy⟩
    unfold evalVar
    apply hfound.bind
    intro v w x' y' _ hvalues hstate
    rcases hvalues with heq | ⟨-, hv, hw⟩
    · rw [heq]
      cases w with
      | none => exact agree_fail _ hstate
      | some value => exact agree_pure (h.same _) hstate
    · rw [hv, hw]
      exact agree_pure hsource hstate
  simp only [exec, eval]
  apply hvalue.bind
  intro v w x' y' _ htext hstate
  exact agree_pure htext hstate

theorem runLoop_agrees (h : Carries s t check T) {b : Nat} {target : LoopTarget}
    {body : List Node} {length : Nat}
    (hbody : ∀ {x y : State}, SameState s t x y → AsksAlike scene s t ⟨b, .nodes body, x⟩ →
      Agree s t T (execAll (scene.reading s) (.within (scene.reading s) b) body x)
        (execAll (scene.reading t) (.within (scene.reading t) b) body y)) :
    ∀ (items : List Value) (index : Nat) {x y : State}, SameState s t x y →
      AsksAlike scene s t ⟨b, .rounds target body length index items, x⟩ →
      Agree s t T
        (runLoop (scene.reading s) target
          (execAll (scene.reading s) (.within (scene.reading s) b) body) length index items x)
        (runLoop (scene.reading t) target
          (execAll (scene.reading t) (.within (scene.reading t) b) body) length index items y) := by
  intro items
  induction items with
  | nil =>
      intro index x y hxy _
      simp only [runLoop]
      exact agree_pure (h.same _) hxy
  | cons item rest ih =>
      intro index x y hxy halike
      simp only [runLoop]
      cases hbind : target.bind item with
      | error fault => exact agree_fail _ hxy
      | ok bindings =>
          have hround := agree_inFrame
            (hbody ⟨.cons (.refl _) hxy.frames, hxy.declared, hxy.depth⟩
              (halike.part (.round hbind)))
          apply hround.bind
          intro first first' x' y' hfirst htext hstate
          apply (ih (index + 1) hstate (halike.part (.roundsRest hbind hfirst))).bind
          intro more more' x'' y'' _ hmore hstate
          exact agree_pure (h.append htext hmore) hstate

mutual

theorem exec_agrees (h : Carries s t check T) {b : Nat} (hcalls : CallsAgree scene s t b) :
    ∀ (n : Node) {x y : State}, check.node n = true → SameState s t x y →
      AsksAlike scene s t ⟨b, .node n, x⟩ →
      Agree s t T (exec (scene.reading s) (.within (scene.reading s) b) n x)
        (exec (scene.reading t) (.within (scene.reading t) b) n y)
  | .text content, x, y, _, hxy, _ => by
      simp only [exec]
      exact agree_pure (h.same _) hxy
  | .output e, x, y, hcheck, hxy, halike => by
      simp only [NodeCheck.node, Bool.or_eq_true] at hcheck
      rcases hcheck with hprints | hexpr
      · rcases h.printed hprints with ⟨rfl, hsource⟩
        exact source_agrees h hsource hxy
      · rw [h.expr_eq] at hexpr
        simp only [exec]
        apply (eval_agrees hcalls e hexpr hxy (halike.part .output)).bind_eq
        intro value x' y' _ hstate
        exact agree_pure (h.same _) hstate
  | .branch branches otherwise, x, y, hcheck, hxy, halike => by
      simp only [NodeCheck.node, Bool.and_eq_true] at hcheck
      simp only [exec]
      exact execBranches_agrees h hcalls branches otherwise
        (fun hstate hotherwise => execAll_agrees h hcalls otherwise hcheck.right hstate hotherwise)
        hcheck.left hxy (halike.part .branch)
  | .loop target iterable body empty, x, y, hcheck, hxy, halike => by
      simp only [NodeCheck.node, Bool.and_eq_true, h.expr_eq] at hcheck
      simp only [exec]
      apply (eval_agrees hcalls iterable hcheck.left.left.right hxy
        (halike.part .loopItems)).bind_eq
      intro value x' y' hvalue hstate
      cases hitems : Operation.items value with
      | error fault => exact agree_fail _ hstate
      | ok items =>
          cases items with
          | nil =>
              exact execAll_agrees h hcalls empty hcheck.right hstate
                (halike.part (.loopEmpty hvalue hitems))
          | cons item rest =>
              exact runLoop_agrees h
                (fun hstate hbody =>
                  execAll_agrees h hcalls body hcheck.left.right hstate hbody)
                (item :: rest) 0 hstate
                (halike.part (.loopRounds hvalue hitems (List.cons_ne_nil _ _)))
  | .assign name e, x, y, hcheck, hxy, halike => by
      simp only [NodeCheck.node, Bool.and_eq_true, h.expr_eq] at hcheck
      simp only [exec]
      apply (eval_agrees hcalls e hcheck.right hxy (halike.part .assign)).bind_eq
      intro value x' y' _ hstate
      apply (agree_assign name value hstate).bind_eq
      intro _ x'' y'' _ hstate
      exact agree_pure (h.same _) hstate
  | .run e, x, y, hcheck, hxy, halike => by
      simp only [NodeCheck.node, h.expr_eq] at hcheck
      simp only [exec]
      apply (eval_agrees hcalls e hcheck hxy (halike.part .run)).bind_eq
      intro value x' y' _ hstate
      exact agree_pure (h.same _) hstate

theorem execAll_agrees (h : Carries s t check T) {b : Nat} (hcalls : CallsAgree scene s t b) :
    ∀ (ns : List Node) {x y : State}, check.nodes ns = true → SameState s t x y →
      AsksAlike scene s t ⟨b, .nodes ns, x⟩ →
      Agree s t T (execAll (scene.reading s) (.within (scene.reading s) b) ns x)
        (execAll (scene.reading t) (.within (scene.reading t) b) ns y)
  | [], x, y, _, hxy, _ => by
      simp only [execAll]
      exact agree_pure (h.same _) hxy
  | n :: rest, x, y, hcheck, hxy, halike => by
      simp only [NodeCheck.nodes, Bool.and_eq_true] at hcheck
      simp only [execAll]
      apply (exec_agrees h hcalls n hcheck.left hxy (halike.part .nodesFirst)).bind
      intro first first' x' y' hfirst htext hstate
      apply (execAll_agrees h hcalls rest hcheck.right hstate
        (halike.part (.nodesRest hfirst))).bind
      intro more more' x'' y'' _ hmore hstate
      exact agree_pure (h.append htext hmore) hstate

theorem execBranches_agrees (h : Carries s t check T) {b : Nat}
    (hcalls : CallsAgree scene s t b) :
    ∀ (branches : List (Expr × List Node)) (otherwise : List Node)
      (_ : ∀ {x y : State}, SameState s t x y → AsksAlike scene s t ⟨b, .nodes otherwise, x⟩ →
        Agree s t T (execAll (scene.reading s) (.within (scene.reading s) b) otherwise x)
          (execAll (scene.reading t) (.within (scene.reading t) b) otherwise y))
      {x y : State}, check.branches branches = true → SameState s t x y →
      AsksAlike scene s t ⟨b, .branches branches otherwise, x⟩ →
      Agree s t T
        (execBranches (scene.reading s) (.within (scene.reading s) b) branches
          (execAll (scene.reading s) (.within (scene.reading s) b) otherwise) x)
        (execBranches (scene.reading t) (.within (scene.reading t) b) branches
          (execAll (scene.reading t) (.within (scene.reading t) b) otherwise) y)
  | [], otherwise, hotherwise, x, y, _, hxy, halike => by
      simp only [execBranches]
      exact hotherwise hxy (halike.part .otherwise)
  | (condition, body) :: rest, otherwise, hotherwise, x, y, hcheck, hxy, halike => by
      simp only [NodeCheck.branches, Bool.and_eq_true, h.expr_eq] at hcheck
      simp only [execBranches]
      apply (eval_agrees hcalls condition hcheck.left.left hxy
        (halike.part .branchCondition)).bind_eq
      intro value x' y' hvalue hstate
      cases hholds : value.holds with
      | true =>
          exact execAll_agrees h hcalls body hcheck.left.right hstate
            (halike.part (.branchTaken hvalue hholds))
      | false =>
          exact execBranches_agrees h hcalls rest otherwise hotherwise hcheck.right hstate
            (halike.part (.branchSkipped hvalue hholds))

end

end Nodes

/-!
## Calls
-/

structure Deeper (scene : Scene) (s t : String) (b : Nat) : Prop where
  value : ∀ {e : Expr} {x y : State}, quiet.expr e = true → SameState s t x y →
    (∀ c, b = c + 1 → AsksAlike scene s t ⟨c, .expr e, x⟩) →
    Agree s t Eq ((Calls.within (scene.reading s) b).value e x)
      ((Calls.within (scene.reading t) b).value e y)
  body : ∀ {ns : List Node} {x y : State}, quiet.nodes ns = true → SameState s t x y →
    (∀ c, b = c + 1 → AsksAlike scene s t ⟨c, .nodes ns, x⟩) →
    Agree s t Eq ((Calls.within (scene.reading s) b).body ns x)
      ((Calls.within (scene.reading t) b).body ns y)

theorem bindParameters_agrees {b : Nat} (hdeeper : Deeper scene s t b) :
    ∀ (params : List MacroParameter) (args : List Value) (named : List (String × Value))
      (frame : Frame) {x y : State},
      (∀ p ∈ params, ∀ e, p.2 = some e → quiet.expr e = true) → SameState s t x y →
      AsksAlike scene s t ⟨b, .params params args named frame, x⟩ →
      Agree s t Eq (bindParameters (.within (scene.reading s) b) params args named frame x)
        (bindParameters (.within (scene.reading t) b) params args named frame y) := by
  intro params
  induction params with
  | nil =>
      intro args named frame x y _ hxy _
      simp only [bindParameters]
      exact agree_pure rfl hxy
  | cons p rest ih =>
      intro args named frame x y hquiet hxy halike
      obtain ⟨name, fallback⟩ := p
      have hrest : ∀ p ∈ rest, ∀ e, p.2 = some e → quiet.expr e = true :=
        fun p hp => hquiet p (List.mem_cons_of_mem _ hp)
      cases args with
      | cons value args =>
          simp only [bindParameters]
          exact ih args named _ hrest hxy (halike.part .paramsGiven)
      | nil =>
          simp only [bindParameters]
          cases hgiven : Keyed.get? name named with
          | some value => exact ih [] _ _ hrest hxy (halike.part (.paramsNamed hgiven))
          | none =>
              cases fallback with
              | none => exact ih [] named _ hrest hxy (halike.part (.paramsNull hgiven))
              | some e =>
                  have he : quiet.expr e = true := hquiet _ List.mem_cons_self e rfl
                  have hvalue := hdeeper.value he hxy (by
                    intro c hc
                    subst hc
                    exact halike.part (.paramsDefault hgiven))
                  apply hvalue.bind_eq
                  intro value x' y' hyields hstate
                  exact ih [] named _ hrest hstate (halike.part (.paramsDefaulted hgiven hyields))

theorem callMacro_agrees {b : Nat} (hdeeper : Deeper scene s t b) {name : String}
    {target : MacroDef} (htarget : (scene.reading s).template.findMacro? name = some target)
    (hquiet : quiet.macroDef target = true) {call : Function.Call} {x y : State}
    (hxy : SameState s t x y) (halike : AsksAlike scene s t ⟨b, .call name call, x⟩) :
    Agree s t Eq (callMacro (scene.reading s) (.within (scene.reading s) b) target call x)
      (callMacro (scene.reading t) (.within (scene.reading t) b) target call y) := by
  simp only [NodeCheck.macroDef, Bool.and_eq_true, List.all_eq_true] at hquiet
  have hparams : ∀ p ∈ target.params, ∀ e, p.2 = some e → quiet.expr e = true := by
    intro p hp e he
    have hdefault := hquiet.left p hp
    rw [he] at hdefault
    exact hdefault
  unfold callMacro
  by_cases hmany : target.params.length < call.positional.length
  · rw [if_pos hmany, if_pos hmany]
    exact agree_fail _ hxy
  · rw [if_neg hmany, if_neg hmany]
    have hfew := Nat.le_of_not_lt hmany
    apply (bindParameters_agrees hdeeper target.params call.positional _ [] hparams hxy
      (halike.part (.callParams htarget hfew))).bind_eq
    rintro ⟨frame, unused⟩ x' y' hbound hstate
    cases unused with
    | cons entry rest => exact agree_fail _ hstate
    | nil =>
        have hbody : Agree s t Eq
            (Action.nested (scene.reading s).template.name
              (Action.isolated frame ((Calls.within (scene.reading s) b).body target.body)) x')
            (Action.nested (scene.reading t).template.name
              (Action.isolated frame ((Calls.within (scene.reading t) b).body target.body))
              y') := by
          apply agree_nested hstate
          intro hdepth
          have hdeep : SameState s t { x' with depth := x'.depth + 1 }
              { y' with depth := y'.depth + 1 } :=
            ⟨hstate.frames, hstate.declared, congrArg (· + 1) hstate.depth⟩
          apply agree_isolated hdeep
          apply hdeeper.body hquiet.right
          · exact ⟨.cons (.refl _) (.cons (sameFrame_globals hstate.frames) .nil),
              hdeep.declared, hdeep.depth⟩
          · intro c hc
            subst hc
            exact halike.part (.callBody htarget hfew hbound hdepth)
        apply hbody.bind_eq
        intro text x'' y'' _ hstate
        exact agree_pure rfl hstate

theorem callsAgree_of_deeper {b : Nat} (hdeeper : Deeper scene s t b)
    (hmacros : scene.template.body.macros.all quiet.macroDef = true) :
    CallsAgree scene s t b := by
  intro name call x y hname hxy halike
  unfold callByName
  cases hfind : scene.template.findMacro? name with
  | some target =>
      have hfound : ∀ source, (scene.reading source).template.findMacro? name = some target :=
        fun _ => hfind
      rw [hfound s, hfound t]
      rw [List.all_eq_true] at hmacros
      exact callMacro_agrees hdeeper hfind (hmacros target (List.mem_of_find?_eq_some hfind)) hxy
        halike
  | none =>
      have hfound : ∀ source, (scene.reading source).template.findMacro? name = none :=
        fun _ => hfind
      rw [hfound s, hfound t]
      exact call_agrees hname (halike.call hfind) _ _ hxy

theorem deeper_agrees (hmacros : scene.template.body.macros.all quiet.macroDef = true) (b : Nat) :
    Deeper scene s t b := by
  induction b with
  | zero =>
      constructor
      · intro e x y _ hxy _
        exact agree_spent hxy
      · intro ns x y _ hxy _
        exact agree_spent hxy
  | succ b ih =>
      have hcalls : CallsAgree scene s t b := callsAgree_of_deeper ih hmacros
      constructor
      · intro e x y hquiet hxy halike
        exact eval_agrees hcalls e hquiet hxy (halike b rfl)
      · intro ns x y hquiet hxy halike
        exact execAll_agrees carries_quiet hcalls ns hquiet hxy (halike b rfl)

/-!
## Rendering
-/

theorem start_agrees : SameState s t (scene.reading s).start (scene.reading t).start := by
  refine ⟨.cons ?_ .nil, rfl, rfl⟩
  exact (SameFrame.refl scene.context.arguments).put "source_table" (Or.inr ⟨rfl, rfl⟩)

theorem run_agrees (h : scene.template.body.onlyPrintsSource = true) (b : Nat)
    (halike : AsksAlike scene s t ((scene.reading s).point b)) :
    Agree s t (Spliced s t) ((scene.reading s).run b) ((scene.reading t).run b) := by
  unfold Body.onlyPrintsSource at h
  rw [Bool.and_eq_true] at h
  exact execAll_agrees carries_printing (callsAgree_of_deeper (deeper_agrees h.right b) h.right)
    scene.template.body.nodes h.left start_agrees halike

end TwoSources

/-- What both renderings have in common: the error, or else the declared columns and the segments
around the relation. -/
def SameRendering (s t : String) (a b : Except Error Rendered) : Prop :=
  (∃ error, a = .error error ∧ b = .error error) ∨
  ∃ segments output,
    a = .ok ⟨Text.trim (Text.join s segments), output⟩ ∧
    b = .ok ⟨Text.trim (Text.join t segments), output⟩

theorem sameRendering_of_agree {template : Template} {context : Context} {s t : String}
    (hs : Text.trim s ≠ "") (ht : Text.trim t ≠ "")
    (hrun : Agree s t (Spliced s t) ((Scene.reading ⟨template, context⟩ s).run callBudget)
      ((Scene.reading ⟨template, context⟩ t).run callBudget)) :
    SameRendering s t (render template { context with source := s })
      (render template { context with source := t }) := by
  unfold render
  change Agree s t _ (Scene.run ⟨template, { context with source := s }⟩ callBudget)
    (Scene.run ⟨template, { context with source := t }⟩ callBudget) at hrun
  rcases hleft : Scene.run ⟨template, { context with source := s }⟩ callBudget
    with ⟨outcome, after⟩
  rcases hright : Scene.run ⟨template, { context with source := t }⟩ callBudget
    with ⟨outcome', after'⟩
  rw [hleft, hright] at hrun
  rcases hrun with ⟨houtcome, hstate⟩
  cases houtcome with
  | failed error => exact Or.inl ⟨error, rfl, rfl⟩
  | spent => exact Or.inl ⟨_, rfl, rfl⟩
  | done htexts =>
      rcases htexts with ⟨segments, hne, rfl, rfl⟩
      have hblank : Text.trim (Text.join s segments) = "" ↔
          Text.trim (Text.join t segments) = "" := by
        rw [Text.trim_join_eq_empty_iff hs, Text.trim_join_eq_empty_iff ht]
      by_cases hempty : Text.trim (Text.join s segments) = ""
      · simp only [hempty, hblank.mp hempty, if_true]
        exact Or.inl ⟨_, rfl, rfl⟩
      · simp only [hempty, mt hblank.mpr hempty, if_false]
        have hdeclared : after.declared = after'.declared := hstate.declared
        rw [hdeclared]
        exact Or.inr ⟨segments, _, rfl, rfl⟩

/-- A template that only prints its source is rendered alike from any two relations that are not
blank and from which what it asks about datasets is answered alike. -/
theorem render_alike {template : Template} {context : Context} {s t : String}
    (h : template.body.onlyPrintsSource = true) (hs : Text.trim s ≠ "") (ht : Text.trim t ≠ "")
    (halike : AsksAlike ⟨template, context⟩ s t
      ((Scene.reading ⟨template, context⟩ s).point callBudget)) :
    SameRendering s t (render template { context with source := s })
      (render template { context with source := t }) :=
  sameRendering_of_agree hs ht (run_agrees h callBudget halike)

/-- It is so for two relations that it does not happen to pass on as datasets. -/
theorem render_parametric {template : Template} {context : Context} {s t : String}
    (h : template.body.onlyPrintsSource = true) (hs : Text.trim s ≠ "") (ht : Text.trim t ≠ "")
    (hclear : Clear ⟨template, context⟩ s t
      ((Scene.reading ⟨template, context⟩ s).point callBudget)) :
    SameRendering s t (render template { context with source := s })
      (render template { context with source := t }) :=
  render_alike h hs ht hclear.asksAlike

end Template
end TransformChain
