import TransformChain.Proofs.Library.Phrases
import TransformChain.Proofs.Template.Declaring

/-!
# Applied texts

The template that renders what its caller hands in declares the columns that the caller states, and
behind them whatever the text declares by itself.  A text that calls no function for it declares
nothing.
-/

namespace TransformChain
namespace Template

open Template.Action

def undeclaring : NodeCheck :=
  callCheck fun name _ _ => name != "output" && name != "output_all" && name != "render"

def SameDeclared (before after : State) : Prop :=
  after.declared = before.declared

theorem lasting_sameDeclared : Lasting SameDeclared where
  refl _ := rfl
  trans hxy hyz := Eq.trans hyz hxy

section Undeclaring

variable {scene : Scene} {calls : Calls}

theorem closedCalls_undeclaring (hmacros : scene.template.body.macros = []) :
    ClosedCalls (Steady SameDeclared) scene calls undeclaring.toCheck := by
  intro name args keywords hcheck call
  simp only [undeclaring, callCheck, Bool.and_eq_true, bne_iff_ne] at hcheck
  rw [callByName_eq hmacros]
  unfold Function.call
  split
  case h_1 => exact absurd rfl hcheck.left.left
  case h_2 => exact absurd rfl hcheck.left.right
  case h_3 => exact absurd rfl hcheck.right
  case h_4 => exact lasting_sameDeclared.closed.ofExcept _

theorem closedNodes_undeclaring (hmacros : scene.template.body.macros = []) :
    ClosedNodes (Steady SameDeclared) scene calls undeclaring where
  closed := lasting_sameDeclared.closed
  functions := closedCalls_undeclaring hmacros
  prints h := by cases h
  sets := by
    intro name _ value x
    unfold assign
    cases x.frames <;> rfl
  frame frame _ ha x := ha { x with frames := frame :: x.frames }

theorem undeclaring_body (hmacros : scene.template.body.macros = []) (budget : Nat)
    {ns : List Node} (h : undeclaring.nodes ns = true) :
    Steady SameDeclared ((Calls.within scene budget).body ns) := by
  cases budget with
  | zero => exact lasting_sameDeclared.refl
  | succ budget => exact execAll_closed (closedNodes_undeclaring hmacros) ns h

end Undeclaring

def Fresh (declared columns : Schema) : Prop :=
  columns.names.Nodup ∧ ∀ name ∈ columns.names, name ∉ declared.names

theorem fresh_cons {declared rest : Schema} {column : Column} :
    Fresh declared (column :: rest) ↔
      declared.has column.name = false ∧ Fresh (declared ++ [column]) rest := by
  simp only [Fresh, Schema.has_eq_false_iff, Schema.names, List.map_cons, List.map_append,
    List.map_nil, List.nodup_cons, List.forall_mem_cons, List.mem_append, List.mem_singleton,
    not_or]
  constructor
  · rintro ⟨⟨hnotin, hdistinct⟩, hcolumn, hrest⟩
    exact ⟨hcolumn, hdistinct, fun name hname =>
      ⟨hrest name hname, fun heq => hnotin (heq ▸ hname)⟩⟩
  · rintro ⟨hcolumn, hdistinct, hrest⟩
    exact ⟨⟨fun hin => (hrest _ hin).right rfl, hdistinct⟩, hcolumn, fun name hname =>
      (hrest name hname).left⟩

theorem yields_declareAll {template : String} {columns : List Column} {before after : State}
    {w : Unit} :
    Yields (declareAll template columns) before w after ↔
      Fresh before.declared columns ∧
        after = { before with declared := before.declared ++ columns } := by
  induction columns generalizing before with
  | nil =>
      have hfresh : Fresh before.declared [] :=
        ⟨List.nodup_nil, fun _ h => absurd h List.not_mem_nil⟩
      rw [List.append_nil]
      constructor
      · intro h
        cases h
        exact ⟨hfresh, rfl⟩
      · rintro ⟨-, rfl⟩
        rfl
  | cons column rest ih =>
      change Yields (declare template column >>= fun _ => declareAll template rest) before w
        after ↔ _
      simp only [yields_bind, yields_declare, ih, fresh_cons]
      constructor
      · rintro ⟨_, _, ⟨hnew, rfl⟩, hrest, rfl⟩
        refine ⟨⟨hnew, hrest⟩, ?_⟩
        rw [List.append_assoc]
        rfl
      · rintro ⟨⟨hnew, hrest⟩, rfl⟩
        refine ⟨(), _, ⟨hnew, rfl⟩, hrest, ?_⟩
        rw [List.append_assoc]
        rfl

end Template

namespace Library

open Template
open Template.Action
open Template.Function (columnsIn)

def applyNodes : List Node :=
  [.branch [(.var "output_columns", [.run (ask "output_all" [.var "output_columns"])])] [],
    .output (ask "render" [.var "sql"]), .text "\n"]

theorem parse_applyBody : Body.parse applyListing.name applyBody = .ok ⟨applyNodes, []⟩ := by
  apply Body.parse_of_readsAs
  · simp only [applyBody, block, put]
    repeat'
      first
      | with_reducible apply toList_text_cons
      | with_reducible apply toList_text_nil
      | with_reducible apply toList_append
      | exact toList_literal rfl
  · decide +kernel

theorem create_apply :
    Transform.create applyListing applyBody =
      .ok (transformOf applyListing applyBody applyNodes) := by
  have hnames : Transform.nameFault? [] applyListing.parameters = none := by decide
  unfold Transform.create Template.parse
  rw [hnames, parse_applyBody]
  rfl

/-- The columns that a value states, as a list of names or a mapping from names to types. -/
def statedColumns (columns : Value) : Schema :=
  match columnsIn columns with
  | .ok stated => stated
  | .error _ => []

theorem statedColumns_of_not_holds {columns : Value} (h : columns.holds = false) :
    statedColumns columns = [] := by
  cases columns with
  | list items =>
      cases items with
      | nil => rfl
      | cons item rest => cases h
  | map entries =>
      cases entries with
      | nil => rfl
      | cons entry rest => cases h
  | _ => rfl

/-- The columns can be stated: there are none, or they are a list or a mapping of distinct names. -/
structure CanState (columns : Value) : Prop where
  listed : columns.holds = true → columnsIn columns = .ok (statedColumns columns)
  distinct : (statedColumns columns).names.Nodup

section Runs

variable {scene : Scene} {calls : Calls} {before after : State} {text subject : String}

theorem yields_outputAll (hmacros : scene.template.body.macros = []) :
    Yields (exec scene calls (.run (ask "output_all" [.var subject]))) before text after ↔
      ∃ v columns, find? subject before.frames = some v ∧ columnsIn v = .ok columns ∧
        Fresh before.declared columns ∧ "" = text ∧
        after = { before with declared := before.declared ++ columns } := by
  simp [exec, ask, eval, evalAll, evalNamed, callByName_eq hmacros, Function.call,
    Function.outputAll, Function.first, yields_declareAll]
  constructor
  · rintro ⟨⟨v, hfound, columns, hcolumns, hfresh, hafter⟩, htext⟩
    exact ⟨v, hfound, columns, hcolumns, hfresh, htext, hafter⟩
  · rintro ⟨v, hfound, columns, hcolumns, hfresh, htext, hafter⟩
    exact ⟨⟨v, hfound, columns, hcolumns, hfresh, hafter⟩, htext⟩

theorem yields_stated (hmacros : scene.template.body.macros = []) {columns : Value}
    (hfound : find? "output_columns" before.frames = some columns) (hnone : before.declared = []) :
    Yields (exec scene calls (.branch
        [(.var "output_columns", [.run (ask "output_all" [.var "output_columns"])])] []))
      before text after ↔
      CanState columns ∧ "" = text ∧ after = { before with declared := statedColumns columns } := by
  have hbody : Yields (execAll scene calls [.run (ask "output_all" [.var "output_columns"])])
      before text after ↔ ∃ stated, columnsIn columns = .ok stated ∧ stated.names.Nodup ∧
        "" = text ∧ after = { before with declared := stated } := by
    simp [yields_outputAll hmacros, hfound, hnone, Fresh, Schema.names]
    constructor
    · rintro ⟨stated, ⟨hstated, hdistinct⟩, hafter, htext⟩
      exact ⟨stated, hstated, hdistinct, htext, hafter.symm⟩
    · rintro ⟨stated, hstated, hdistinct, htext, hafter⟩
      exact ⟨stated, ⟨hstated, hdistinct⟩, hafter.symm, htext⟩
  have hbranch : Yields (exec scene calls (.branch
        [(.var "output_columns", [.run (ask "output_all" [.var "output_columns"])])] []))
      before text after ↔
      if columns.holds then
        Yields (execAll scene calls [.run (ask "output_all" [.var "output_columns"])]) before text
          after
      else "" = text ∧ before = after := by
    simp [hfound]
  rw [hbranch]
  cases hholds : columns.holds with
  | true =>
      rw [if_pos rfl, hbody]
      constructor
      · rintro ⟨stated, hstated, hdistinct, htext, hafter⟩
        have hsame : statedColumns columns = stated := by
          simp only [statedColumns, hstated]
        rw [← hsame] at hstated hdistinct hafter
        exact ⟨⟨fun _ => hstated, hdistinct⟩, htext, hafter⟩
      · rintro ⟨⟨hlisted, hdistinct⟩, htext, hafter⟩
        exact ⟨_, hlisted hholds, hdistinct, htext, hafter⟩
  | false =>
      have hnothing := statedColumns_of_not_holds hholds
      have hcan : CanState columns :=
        ⟨fun h => absurd h (by simp [hholds]), by rw [hnothing]; exact List.nodup_nil⟩
      have hsame : { before with declared := statedColumns columns } = before := by
        rw [hnothing, ← hnone]
      rw [if_neg Bool.false_ne_true, hsame]
      constructor
      · rintro ⟨htext, rfl⟩
        exact ⟨hcan, htext, rfl⟩
      · rintro ⟨-, htext, rfl⟩
        exact ⟨htext, rfl⟩

theorem render_yields (hmacros : scene.template.body.macros = []) {value : Value}
    (h : Yields (eval scene calls (ask "render" [.var subject])) before value after) :
    ∃ v nodes inner result, find? subject before.frames = some v ∧
      Body.parse scene.template.name v.display = .ok ⟨nodes, []⟩ ∧
      Yields (calls.body nodes) { before with depth := before.depth + 1 } result inner ∧
      after = { inner with depth := inner.depth - 1 } := by
  simp [ask, eval, evalAll, evalNamed, callByName_eq hmacros, Function.call,
    Function.renderText, Function.first] at h
  rcases h with ⟨v, hfound, ⟨nodes, macros⟩, hparse, rfl, result, hnested, -⟩
  rcases yields_nested.mp hnested with ⟨-, inner, hbody, hafter⟩
  exact ⟨v, nodes, inner, result, hfound, hparse, hbody, hafter⟩

theorem eval_render (hmacros : scene.template.body.macros = []) {sql : Value} {nodes : List Node}
    (hsql : find? subject before.frames = some sql)
    (hparse : Body.parse scene.template.name sql.display = .ok ⟨nodes, []⟩) :
    eval scene calls (ask "render" [.var subject]) before =
      (Action.nested scene.template.name (calls.body nodes) >>= fun text =>
        pure (.str text)) before := by
  have hargs : Yields (evalAll scene calls [.var subject]) before [sql] before := by
    simp [hsql]
  have hnamed : Yields (evalNamed scene calls []) before [] before := by
    simp [evalNamed]
  have htext : Yields (Action.ofExcept (Function.first scene "render" ⟨[sql], []⟩)) before sql
      before := by
    simp [Function.first]
  have hparsed : Yields (Action.ofExcept (Body.parse scene.template.name sql.display)) before
      ⟨nodes, []⟩ before := by
    simp [hparse]
  unfold ask
  simp only [eval]
  rw [hargs.bind_eq, hnamed.bind_eq, callByName_eq hmacros]
  unfold Function.call
  simp only [Function.renderText]
  rw [htext.bind_eq, hparsed.bind_eq]
  rfl

end Runs

theorem apply_declares {scene : Scene} {b : Nat} {text : String} {after : State}
    (hmacros : scene.template.body.macros = []) {sql columns : Value}
    (hargs : scene.context.arguments = [("sql", sql), ("output_columns", columns)])
    (h : Yields (execAll scene (.within scene b) applyNodes) scene.start text after) :
    ∃ nodes more, Body.parse scene.template.name sql.display = .ok ⟨nodes, []⟩ ∧
      after.declared = statedColumns columns ++ more ∧
      (undeclaring.nodes nodes = true → more = []) := by
  have hstart : scene.start = ⟨[[("sql", sql), ("output_columns", columns),
      ("source_table", .str scene.context.source)]], [], 0⟩ := by
    simp [Scene.start, Scene.globals, hargs, Keyed.put]
  rw [hstart, applyNodes, yields_execAll_cons] at h
  rcases h with ⟨_, between, hstated, _, hrest, -⟩
  have hbetween := ((yields_stated hmacros rfl rfl).mp hstated).right.right
  subst hbetween
  simp only [yields_execAll_cons, yields_output, yields_text, yields_execAll_nil] at hrest
  rcases hrest with ⟨_, _, ⟨value, hrender, -⟩, _, ⟨_, _, ⟨-, rfl⟩, _, ⟨-, rfl⟩, -⟩, -⟩
  rcases render_yields hmacros hrender with ⟨v, nodes, inner, result, hfound, hparse, hbody, rfl⟩
  cases hfound
  rcases ((enduring_growing.within scene b).body nodes).yields hbody with ⟨more, hmore⟩
  refine ⟨nodes, more, hparse, hmore.symm, ?_⟩
  intro hundeclared
  have hsame := (undeclaring_body hmacros b hundeclared).yields hbody
  unfold SameDeclared at hsame
  rw [← hmore] at hsame
  simpa using hsame

end Library
end TransformChain
