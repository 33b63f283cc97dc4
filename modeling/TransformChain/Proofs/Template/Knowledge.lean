import TransformChain.Proofs.Template.Relating

/-!
# Rendering with more columns known

A schema that is not known matters only once a template asks for it.  What is rendered without it
is rendered just so when it is known, unless the template takes notice of failures.
-/

namespace TransformChain
namespace Template

open Template.Action

/-!
## Actions that succeed as others do
-/

def Refines (a b : Action α) : Prop :=
  ∀ before value after, Yields a before value after → Yields b before value after

theorem refines_ofExcept {a b : Except Error α} (h : ∀ value, a = .ok value → b = .ok value) :
    Refines (Action.ofExcept a) (Action.ofExcept b) := by
  intro before value after hyields
  rw [yields_ofExcept] at hyields ⊢
  exact ⟨h value hyields.left, hyields.right⟩

theorem refines_spent (a : Action α) : Refines Action.spent a := by
  intro before value after hyields
  cases hyields

/-- Success is handed on by everything but a test for success. -/
theorem kept_refines : KeptFor (fun _ => true) false Refines where
  pure _ _ _ _ hyields := hyields
  fail _ _ _ _ hyields := hyields
  bind := by
    intro α β a b f g hfirst hrest before value after hyields
    rw [yields_bind] at hyields ⊢
    rcases hyields with ⟨found, between, ha, hf⟩
    exact ⟨found, between, hfirst before found between ha, hrest found between value after hf⟩
  lookup _ _ _ _ _ hyields := hyields
  succeeds := nofun

theorem refines_inFrame (frame : Frame) {a b : Action α} (h : Refines a b) :
    Refines (Action.inFrame frame a) (Action.inFrame frame b) := by
  intro before value after hyields
  rw [yields_inFrame] at hyields ⊢
  rcases hyields with ⟨inner, hinner, rfl⟩
  exact ⟨inner, h _ value inner hinner, rfl⟩

theorem refines_isolated (frame : Frame) {a b : Action α} (h : Refines a b) :
    Refines (Action.isolated frame a) (Action.isolated frame b) := by
  intro before value after hyields
  rw [yields_isolated] at hyields ⊢
  rcases hyields with ⟨inner, hinner, rfl⟩
  exact ⟨inner, h _ value inner hinner, rfl⟩

theorem refines_nested (template : String) {a b : Action α} (h : Refines a b) :
    Refines (Action.nested template a) (Action.nested template b) := by
  intro before value after hyields
  rw [yields_nested] at hyields ⊢
  rcases hyields with ⟨hdepth, inner, hinner, rfl⟩
  exact ⟨hdepth, inner, h _ value inner hinner, rfl⟩

/-!
## Contexts
-/

def Learned (before after : Option Schema) : Prop :=
  before = none ∨ before = after

structure SideDataset.KnowsMore (one two : SideDataset) : Prop where
  label : one.label = two.label
  columns : Learned one.columns two.columns

structure Context.KnowsMore (one two : Context) : Prop where
  source : one.source = two.source
  label : one.sourceLabel = two.sourceLabel
  arguments : one.arguments = two.arguments
  input : Learned one.input two.input
  datasets : ∀ relation, Option.Rel SideDataset.KnowsMore (Keyed.get? relation one.datasets)
    (Keyed.get? relation two.datasets)

section Contexts

variable {template : Template} {one two : Context}

theorem asked_known (h : one.KnowsMore two) (value : Option Value) :
    Function.asked ⟨template, one⟩ value = Function.asked ⟨template, two⟩ value := by
  unfold Function.asked
  rw [h.source]
  rfl

theorem sideDataset_known (h : one.KnowsMore two) {relation : String} {side : SideDataset}
    (hside : Function.sideDataset ⟨template, one⟩ relation = .ok side) :
    ∃ other, Function.sideDataset ⟨template, two⟩ relation = .ok other ∧ side.KnowsMore other := by
  have hrel := h.datasets relation
  unfold Function.sideDataset at hside ⊢
  cases hget : Keyed.get? relation one.datasets with
  | none => simp [hget] at hside
  | some found =>
      simp only [hget, Except.ok.injEq] at hside
      subst hside
      rw [hget] at hrel
      cases hother : Keyed.get? relation two.datasets with
      | none =>
          rw [hother] at hrel
          cases hrel
      | some other =>
          rw [hother] at hrel
          cases hrel with
          | some hlearned => exact ⟨other, rfl, hlearned⟩

theorem schemaOf_known (h : one.KnowsMore two) {value : Option Value} {found : Schema × String}
    (hfound : Function.schemaOf ⟨template, one⟩ value = .ok found) :
    Function.schemaOf ⟨template, two⟩ value = .ok found := by
  unfold Function.schemaOf at hfound ⊢
  rw [← asked_known h]
  cases hasked : Function.asked ⟨template, one⟩ value with
  | error e => simp [hasked] at hfound
  | ok dataset =>
      rw [hasked] at hfound
      cases dataset with
      | input =>
          rcases h.input with hnone | hsame
          · simp [hnone] at hfound
          · simpa only [hsame, h.label] using hfound
      | side relation =>
          simp only at hfound ⊢
          cases hside : Function.sideDataset ⟨template, one⟩ relation with
          | error e => simp [hside] at hfound
          | ok side =>
              simp only [hside] at hfound
              rcases sideDataset_known h hside with ⟨other, hother, hlearned⟩
              rcases hlearned.columns with hnone | hsame
              · simp [hnone] at hfound
              · simpa only [hother, hsame, hlearned.label] using hfound

theorem labelOf_known (h : one.KnowsMore two) {value : Option Value} {label : String}
    (hlabel : Function.labelOf ⟨template, one⟩ value = .ok label) :
    Function.labelOf ⟨template, two⟩ value = .ok label := by
  unfold Function.labelOf at hlabel ⊢
  rw [← asked_known h]
  cases hasked : Function.asked ⟨template, one⟩ value with
  | error e => simp [hasked] at hlabel
  | ok dataset =>
      rw [hasked] at hlabel
      cases dataset with
      | input => simpa only [h.label] using hlabel
      | side relation =>
          simp only at hlabel ⊢
          cases hside : Function.sideDataset ⟨template, one⟩ relation with
          | error e => simp [hside] at hlabel
          | ok side =>
              simp only [hside] at hlabel
              rcases sideDataset_known h hside with ⟨other, hother, hlearned⟩
              simpa only [hother, hlearned.label] using hlabel

theorem except_bind_mono {a b : Except ε α} {f : α → Except ε β} {w : β}
    (h : ∀ value, a = .ok value → b = .ok value) (hw : (a >>= f) = .ok w) :
    (b >>= f) = .ok w := by
  rw [except_bind_eq_ok] at hw ⊢
  rcases hw with ⟨value, hvalue, hrest⟩
  exact ⟨value, h value hvalue, hrest⟩

theorem checkColumns_known (h : one.KnowsMore two) {call : Function.Call} {value : Value}
    (hvalue : Function.checkColumns ⟨template, one⟩ call = .ok value) :
    Function.checkColumns ⟨template, two⟩ call = .ok value := by
  unfold Function.checkColumns at hvalue ⊢
  rw [except_bind_eq_ok] at hvalue ⊢
  rcases hvalue with ⟨wanted, hwanted, hanswer⟩
  exact ⟨wanted, hwanted, except_bind_mono (fun _ => schemaOf_known h) hanswer⟩

theorem pure_known (h : one.KnowsMore two) {name : String} {call : Function.Call} {value : Value}
    (hvalue : Function.pure ⟨template, one⟩ name call = .ok value) :
    Function.pure ⟨template, two⟩ name call = .ok value := by
  unfold Function.pure at hvalue ⊢
  split at hvalue
  case h_4 =>
    simp only [Function.checkExclusive, Function.isSupplied, h.arguments] at hvalue ⊢
    exact hvalue
  case h_5 => exact except_bind_mono (fun _ => schemaOf_known h) hvalue
  case h_6 => exact except_bind_mono (fun _ => schemaOf_known h) hvalue
  case h_7 =>
    rw [except_bind_eq_ok] at hvalue
    rcases hvalue with ⟨excluded, hexcluded, hanswer⟩
    exact except_bind_eq_ok.mpr
      ⟨excluded, hexcluded, except_bind_mono (fun _ => schemaOf_known h) hanswer⟩
  case h_8 => exact checkColumns_known h hvalue
  case h_9 => exact except_bind_mono (fun _ => labelOf_known h) hvalue
  all_goals exact hvalue

/-!
## Evaluation
-/

def renderless : NodeCheck :=
  callCheck fun name _ _ => name != "render"

/-- No text is rendered and nothing but variables is tested for being defined, so that no failure
goes by unnoticed. -/
def Body.attemptsNothing (body : Body) : Bool :=
  renderless.nodes body.nodes && TestsVariables.nodes body.nodes &&
    body.macros.all fun target => renderless.macroDef target && TestsVariables.macroDef target

structure RefiningTrees (calls others : Calls) : Prop where
  value : ∀ e, renderless.expr e = true → TestsVariables.expr e = true →
    Refines (calls.value e) (others.value e)
  body : ∀ ns, renderless.nodes ns = true → TestsVariables.nodes ns = true →
    Refines (calls.body ns) (others.body ns)

variable {calls others : Calls}

theorem callMacro_refines (hcalls : RefiningTrees calls others) {target : MacroDef}
    (hrenderless : renderless.macroDef target = true)
    (htests : TestsVariables.macroDef target = true) (call : Function.Call) :
    Refines (callMacro ⟨template, one⟩ calls target call)
      (callMacro ⟨template, two⟩ others target call) := by
  simp only [NodeCheck.macroDef, Bool.and_eq_true, List.all_eq_true] at hrenderless
  simp only [TestsVariables.macroDef, Bool.and_eq_true, List.all_eq_true] at htests
  apply callMacro_kept kept_refines
  · intro e he
    rcases mem_params_of_taken he with ⟨p, hp, hdefault⟩
    have hpass := hrenderless.left p hp
    have htest := htests.left p hp
    rw [hdefault] at hpass htest
    exact hcalls.value e hpass htest
  · intro frame
    exact refines_nested _ (refines_isolated frame
      (hcalls.body target.body hrenderless.right htests.right))

theorem keptNodes_refines (h : one.KnowsMore two)
    (htemplate : template.body.attemptsNothing = true) (hcalls : RefiningTrees calls others) :
    KeptNodes false Refines template one two calls others renderless where
  kept := kept_refines
  functions := by
    intro name args keywords hname call
    simp only [Body.attemptsNothing, Bool.and_eq_true, List.all_eq_true] at htemplate
    apply callByName_kept kept_refines
    · exact fun _ _ _ _ _ hyields => hyields
    · exact fun _ _ => refines_ofExcept fun _ => pure_known h
    · exact fun heq => absurd heq (bne_iff_ne.mp hname)
    · intro target htarget call
      have hpass := htemplate.right target (mem_of_findMacro? htarget).left
      exact callMacro_refines hcalls hpass.left hpass.right call
  prints hprints := by cases hprints
  sets _ _ _ _ _ hyields := hyields
  frame := refines_inFrame

/-- By induction on the budget: what calls lead to is evaluated with one level of calls less. -/
theorem refiningTrees_within (h : one.KnowsMore two)
    (htemplate : template.body.attemptsNothing = true) (budget : Nat) :
    RefiningTrees (.within ⟨template, one⟩ budget) (.within ⟨template, two⟩ budget) := by
  induction budget with
  | zero => exact ⟨fun _ _ _ => refines_spent _, fun _ _ _ => refines_spent _⟩
  | succ budget ih =>
      have hnodes := keptNodes_refines h htemplate ih
      exact ⟨fun e hcheck htests => hnodes.expr hcheck fun _ => htests,
        fun ns hcheck htests => execAll_kept hnodes ns hcheck fun _ => htests⟩

/-!
## Rendering
-/

theorem start_known (h : one.KnowsMore two) :
    Scene.start ⟨template, one⟩ = Scene.start ⟨template, two⟩ := by
  unfold Scene.start Scene.globals
  rw [h.source, h.arguments]

/-- A template that renders no texts and tests only variables for being defined writes the same and
declares the same columns when more columns of its datasets are known. -/
theorem known_columns_keep_rendering {rendered : Rendered}
    (htemplate : template.body.attemptsNothing = true) (h : one.KnowsMore two)
    (hrender : render template one = .ok rendered) : render template two = .ok rendered := by
  rw [render_eq_ok_iff] at hrender ⊢
  rcases hrender with ⟨text, after, hrun, hrendered⟩
  have hbody : template.body.attemptsNothing = true := htemplate
  simp only [Body.attemptsNothing, Bool.and_eq_true] at hbody
  have hrefines := execAll_kept
    (keptNodes_refines h htemplate (refiningTrees_within h htemplate callBudget))
    template.body.nodes hbody.left.left fun _ => hbody.left.right
  refine ⟨text, after, ?_, hrendered⟩
  unfold Scene.run
  rw [← start_known h]
  exact hrefines _ text after hrun

end Contexts

def listed : Template :=
  ⟨"listed",
    "SELECT \x7b% if names is defined %\x7d\x7b\x7b names|join(', ') \x7d\x7d" ++
      "\x7b% else %\x7d\x7b\x7b columns()|join(', ') \x7d\x7d\x7b% endif %\x7d" ++
      " FROM \x7b\x7b source_table \x7d\x7d",
    ⟨[.text "SELECT ",
      .branch
        [(.test (.var "names") "defined" false,
          [.output (.filter (.var "names") "join" [.lit (.str ", ")])])]
        [.output (.filter (.call (.var "columns") [] []) "join" [.lit (.str ", ")])],
      .text " FROM ", .output (.var "source_table")], []⟩⟩

theorem listed_names_keep :
    ∃ rendered,
      render listed ⟨"T", "T", none, [], [("names", .list [.str "a"])]⟩ = .ok rendered ∧
      render listed ⟨"T", "T", some [⟨"a", none⟩, ⟨"b", none⟩], [],
        [("names", .list [.str "a"])]⟩ = .ok rendered := by
  have hrender : render listed ⟨"T", "T", none, [], [("names", .list [.str "a"])]⟩ =
      .ok ⟨"SELECT a FROM T", none⟩ := by rfl
  refine ⟨_, hrender, known_columns_keep_rendering (by decide) ?_ hrender⟩
  exact ⟨rfl, rfl, rfl, Or.inl rfl, fun _ => .none⟩

/-- A test of anything but a variable does take notice. -/
example :
    let template : Template :=
      ⟨"known", "", ⟨[.output (.test (.call (.var "columns") [] []) "defined" false)], []⟩⟩
    render template ⟨"T", "T", none, [], []⟩ = .ok ⟨"FALSE", none⟩ ∧
      render template ⟨"T", "T", some [], [], []⟩ = .ok ⟨"TRUE", none⟩ :=
  ⟨rfl, rfl⟩

end Template
end TransformChain
