import TransformChain.Proofs.Library.Schemas
import TransformChain.Proofs.Template.Failing

/-!
# Column names that are checked

Nine templates of the library check the column names in their arguments before they write anything.
Each check demands names of one dataset, the input or the partner of a join.  A rendering that
succeeds has met all demands; where the guards before the checks pass, the first demand that is not
met is the failure of the rendering.
-/

namespace TransformChain
namespace Library

open Template
open Template.Action
open Template.Function (namesIn schemaOf)

/-!
## Demands
-/

/-- Names that must all be among the columns of a dataset, which may be unknown. -/
structure Demand where
  names : List String
  columns : Option Schema
  label : String

namespace Demand

def Met (demand : Demand) : Prop :=
  ∃ schema, demand.columns = some schema ∧ ∀ name ∈ demand.names, name ∈ schema.names

/-- How a template fails at the demand, unless it is met: the columns are not known, or there is a
first name that is not among them. -/
def error? (demand : Demand) (template : String) : Option Error :=
  match demand.columns with
  | none => some (.schemaUnavailable demand.label .unlisted)
  | some schema =>
      (demand.names.find? fun name => decide (name ∉ schema.names)).map fun name =>
        .invalidColumnReference template name demand.label

theorem error?_eq_none_iff {demand : Demand} {template : String} :
    demand.error? template = none ↔ demand.Met := by
  unfold error? Met
  cases demand.columns with
  | none => simp
  | some schema => simp

end Demand

def checkingTransforms : List String :=
  ["cast", "rename", "datetrunc", "order", "drop_columns", "dateadd", "aggregate", "pivot", "join"]

def demandsOf (transform : String) (context : Context) : List Demand :=
  let given := argument context
  let keysOf (name : String) := Keyed.keys (entriesOf (given name))
  let namesOf (name : String) := (itemsOf (given name)).map Value.display
  let ofInput (names : List String) : Demand := ⟨names, context.input, context.sourceLabel⟩
  match transform with
  | "cast" => [ofInput (keysOf "casts")]
  | "rename" => [ofInput (keysOf "renames")]
  | "datetrunc" => [ofInput (keysOf "dates")]
  | "order" => [ofInput (keysOf "order_by")]
  | "drop_columns" => [ofInput (namesOf "include_cols" ++ namesOf "exclude_cols")]
  | "dateadd" => [ofInput [(given "date").display]]
  | "aggregate" => [ofInput (namesOf "group_by"), ofInput (keysOf "aggregations")]
  | "pivot" =>
      [ofInput (namesOf "dimensions"),
        ofInput [(given "pivot_column").display, (given "value_column").display]]
  | "join" =>
      let relation := (given "join_table").display
      let partner := (Keyed.get? relation context.datasets).getD ⟨relation, none⟩
      [ofInput (keysOf "join_columns"),
        ⟨(Keyed.values (entriesOf (given "join_columns"))).map Value.display, partner.columns,
          partner.label⟩]
  | _ => []

/-- The guards that stand before the checks: something is given, not two arguments that exclude each
other, and a join is of a known type. -/
def guardsPass (transform : String) (context : Context) : Bool :=
  let given := argument context
  match transform with
  | "cast" => (given "casts").holds
  | "rename" => (given "renames").holds
  | "datetrunc" => (given "dates").holds
  | "order" => (given "order_by").holds
  | "drop_columns" =>
      !(Function.isSupplied context "include_cols" && Function.isSupplied context "exclude_cols") &&
        ((given "include_cols").holds || (given "exclude_cols").holds)
  | "dateadd" => true
  | "aggregate" => (given "aggregations").holds
  | "pivot" => (given "list_of_vals").holds
  | "join" =>
      (given "join_columns").holds &&
        joinTypes.contains (Text.upper (given "join_type").display)
  | _ => false

/-- A template fails at the first of its demands that is not met, and goes on only if all are. -/
structure Opening (scene : Scene) (calls : Calls) (nodes : List Node) (passes : Bool)
    (demands : List Demand) : Prop where
  met : ∀ text after, Yields (execAll scene calls nodes) scene.start text after →
    ∀ demand ∈ demands, demand.Met
  fails : passes = true → ∀ e,
    demands.findSome? (fun demand => demand.error? scene.template.name) = some e →
      Fails (execAll scene calls nodes) scene.start e

section Openings

variable {scene : Scene} {calls : Calls} {text : String} {after : State}

/-!
## Checks
-/

structure Checks (scene : Scene) (calls : Calls) (demand : Demand) (node : Node) : Prop where
  passes : demand.error? scene.template.name = none →
    Yields (exec scene calls node) scene.start "" scene.start
  fails : ∀ e, demand.error? scene.template.name = some e →
    Fails (exec scene calls node) scene.start e

theorem Checks.met {demand : Demand} {node : Node} (h : Checks scene calls demand node)
    (hrun : Yields (exec scene calls node) scene.start text after) :
    demand.Met ∧ after = scene.start := by
  cases herror : demand.error? scene.template.name with
  | some e => exact absurd (h.fails e herror) hrun.not_fails
  | none => exact ⟨Demand.error?_eq_none_iff.mp herror, hrun.after_eq (h.passes herror)⟩

/-- By induction on the checks: each is begun in the state that the template starts with. -/
theorem met_of_checks {demands : List Demand} {checks rest : List Node}
    (hchecks : List.Forall₂ (Checks scene calls) demands checks)
    (h : Yields (execAll scene calls (checks ++ rest)) scene.start text after) :
    ∀ demand ∈ demands, demand.Met := by
  induction hchecks generalizing text with
  | nil => nofun
  | cons hcheck _ ih =>
      rw [List.cons_append, yields_execAll_cons] at h
      rcases h with ⟨_, _, hfirst, _, hrest, -⟩
      rcases hcheck.met hfirst with ⟨hmet, rfl⟩
      exact List.forall_mem_cons.mpr ⟨hmet, ih hrest⟩

theorem fails_of_checks {demands : List Demand} {checks rest : List Node} {e : Error}
    (hchecks : List.Forall₂ (Checks scene calls) demands checks)
    (h : demands.findSome? (fun demand => demand.error? scene.template.name) = some e) :
    Fails (execAll scene calls (checks ++ rest)) scene.start e := by
  induction hchecks with
  | nil => cases h
  | @cons demand node _ _ hcheck _ ih =>
      rw [List.findSome?_cons] at h
      rw [List.cons_append, execAll]
      cases herror : demand.error? scene.template.name with
      | some found =>
          rw [herror, Option.some.injEq] at h
          subst h
          exact (hcheck.fails found herror).bind
      | none =>
          -- A check that passes hands on the state that it was begun in.
          rw [herror] at h
          exact (hcheck.passes herror).bind_fails (ih h).bind

/-!
## Guards
-/

theorem fails_execAll_append {first second : List Node} {before between : State} {e : Error}
    (hfirst : Yields (execAll scene calls first) before text between)
    (h : Fails (execAll scene calls second) between e) :
    Fails (execAll scene calls (first ++ second)) before e := by
  induction first generalizing before text with
  | nil =>
      rw [yields_execAll_nil] at hfirst
      rcases hfirst with ⟨-, rfl⟩
      exact h
  | cons node rest ih =>
      rw [yields_execAll_cons] at hfirst
      rcases hfirst with ⟨_, _, hhead, _, hrest, -⟩
      rw [List.cons_append, execAll]
      exact hhead.bind_fails (ih hrest).bind

theorem opening_of_guards (guards : List Node) {checks rest : List Node} {passes : Bool}
    {demands : List Demand}
    (hquiet : ∀ text after, Yields (execAll scene calls guards) scene.start text after →
      after = scene.start)
    (hpass : passes = true → Yields (execAll scene calls guards) scene.start "" scene.start)
    (hchecks : List.Forall₂ (Checks scene calls) demands checks) :
    Opening scene calls (guards ++ (checks ++ rest)) passes demands where
  met := by
    intro text after h
    rcases yields_execAll_append.mp h with ⟨_, _, hguards, _, hrest, -⟩
    rw [hquiet _ _ hguards] at hrest
    exact met_of_checks hchecks hrest
  fails := fun hpasses _ herror =>
    fails_execAll_append (hpass hpasses) (fails_of_checks hchecks herror)

theorem opening_of_guard (hmacros : scene.template.body.macros = []) {subject message : String}
    {value : Value} (hsubject : find? subject scene.start.frames = some value)
    {checks rest : List Node} {demands : List Demand}
    (hchecks : List.Forall₂ (Checks scene calls) demands checks) :
    Opening scene calls ([guard subject message] ++ (checks ++ rest)) value.holds demands := by
  refine opening_of_guards [guard subject message] ?_ ?_ hchecks
  · intro text after h
    simp only [yields_execAll_cons, yields_execAll_nil, yields_guard hmacros] at h
    rcases h with ⟨_, _, ⟨_, -, -, -, rfl⟩, _, ⟨-, rfl⟩, -⟩
    rfl
  · intro hholds
    simp only [yields_execAll_cons, yields_execAll_nil, yields_guard hmacros]
    exact ⟨_, _, ⟨value, hsubject, hholds, rfl, rfl⟩, _, ⟨rfl, rfl⟩, rfl⟩

/-!
## Checks of arguments
-/

theorem missing?_eq_find? (schema : Schema) (names : List String) :
    Function.missing? schema names = names.find? fun name => decide (name ∉ schema.names) := by
  unfold Function.missing?
  congr 1
  funext name
  rw [Bool.eq_iff_iff, Bool.not_eq_true', decide_eq_true_iff]
  exact Schema.has_eq_false_iff

def foundColumns (columns : Option Schema) (label : String) : Except Error (Schema × String) :=
  match columns with
  | some schema => .ok (schema, label)
  | none => .error (.schemaUnavailable label .unlisted)

theorem requireColumns_eq_error {wanted : Value} {rest : List Value} {columns : Option Schema}
    {label : String} {e : Error} (hcolumns : schemaOf scene rest.head? = foundColumns columns label)
    (herror : Demand.error? ⟨namesIn wanted, columns, label⟩ scene.template.name = some e) :
    Function.pure scene "require_columns" ⟨wanted :: rest, []⟩ = .error e := by
  have hargument : Function.Call.argument ⟨wanted :: rest, []⟩ 1 "dataset" = rest.head? := by
    cases rest <;> rfl
  simp only [Function.pure, Function.checkColumns, Function.first, hargument, hcolumns]
  cases columns with
  | none =>
      cases herror
      rfl
  | some schema =>
      unfold Demand.error? at herror
      simp only [← missing?_eq_find?] at herror
      simp only [foundColumns, bind, Except.bind]
      cases hmissing : Function.missing? schema (namesIn wanted) with
      | none =>
          rw [hmissing] at herror
          cases herror
      | some column =>
          rw [hmissing] at herror
          cases herror
          rfl

theorem checks_node (hmacros : scene.template.body.macros = []) {wanted : Expr} {rest : List Expr}
    {v : Value} {vs : List Value} {columns : Option Schema} {label : String}
    (hwanted : Yields (eval scene calls wanted) scene.start v scene.start)
    (hrest : Yields (evalAll scene calls rest) scene.start vs scene.start)
    (hcolumns : schemaOf scene vs.head? = foundColumns columns label) :
    Checks scene calls ⟨namesIn v, columns, label⟩ (check (wanted :: rest)) where
  passes := by
    intro hnone
    rcases Demand.error?_eq_none_iff.mp hnone with ⟨schema, hschema, hnames⟩
    cases hschema
    exact (yields_check hmacros).mpr ⟨v, _, hwanted, vs, hrest, schema, label, hcolumns,
      fun name hname => Schema.has_iff.mpr (hnames name hname), rfl⟩
  fails := by
    intro e herror
    have hargs : Yields (evalAll scene calls (wanted :: rest)) scene.start (v :: vs)
        scene.start := yields_evalAll_cons.mpr ⟨v, _, hwanted, vs, hrest, rfl⟩
    have hnamed : Yields (evalNamed scene calls []) scene.start [] scene.start := rfl
    have hcall : Fails (callByName scene calls "require_columns" ⟨v :: vs, []⟩) scene.start e := by
      rw [callByName_eq hmacros]
      change Fails (Action.ofExcept (Function.pure scene "require_columns" ⟨v :: vs, []⟩)) _ _
      rw [requireColumns_eq_error hcolumns herror]
      rfl
    unfold check exec ask eval
    exact (hargs.bind_fails (hnamed.bind_fails hcall)).bind

theorem checks_input (hmacros : scene.template.body.macros = []) {wanted : Expr} {v : Value}
    (hwanted : Yields (eval scene calls wanted) scene.start v scene.start) :
    Checks scene calls ⟨namesIn v, scene.context.input, scene.context.sourceLabel⟩
      (check [wanted]) := by
  have hcolumns : schemaOf scene ([] : List Value).head? =
      foundColumns scene.context.input scene.context.sourceLabel := by
    unfold schemaOf foundColumns
    cases scene.context.input <;> rfl
  exact checks_node hmacros hwanted rfl hcolumns

/-!
## Templates
-/

theorem start_variable (name : String) {value : Value} {values : List (String × Value)}
    (harguments : scene.context.arguments = values)
    (h : Keyed.get? name (Keyed.put "source_table" (.str scene.context.source) values) =
      some value) :
    find? name scene.start.frames = some value := by
  simp only [Scene.start, Scene.globals, harguments, find?, h]

theorem variable_yields (calls : Calls) {name : String} {value : Value}
    (h : find? name scene.start.frames = some value) :
    Yields (eval scene calls (.var name)) scene.start value scene.start :=
  yields_eval_var.mpr ⟨h, rfl⟩

theorem opening_of_mapping (hmacros : scene.template.body.macros = []) {subject message : String}
    {entries : List (String × Value)}
    (hsubject : find? subject scene.start.frames = some (.map entries)) {rest : List Node} :
    Opening scene calls (guard subject message :: check [.var subject] :: rest)
      (Value.map entries).holds
      [⟨Keyed.keys entries, scene.context.input, scene.context.sourceLabel⟩] :=
  opening_of_guard hmacros hsubject
    (.cons (checks_input hmacros (variable_yields calls hsubject)) .nil)

theorem aggregate_opening (hmacros : scene.template.body.macros = []) {groups : List Value}
    {aggregations : List (String × Value)}
    (hargs : scene.context.arguments =
      [("group_by", .list groups), ("aggregations", .map aggregations)]) :
    Opening scene calls aggregateNodes (Value.map aggregations).holds
      [⟨groups.map Value.display, scene.context.input, scene.context.sourceLabel⟩,
        ⟨Keyed.keys aggregations, scene.context.input, scene.context.sourceLabel⟩] := by
  have hgroups := start_variable "group_by" hargs rfl
  have haggregations := start_variable "aggregations" hargs rfl
  exact opening_of_guard hmacros haggregations
    (.cons (checks_input hmacros (variable_yields calls hgroups))
      (.cons (checks_input hmacros (variable_yields calls haggregations)) .nil))

theorem pivot_opening (hmacros : scene.template.body.macros = []) {dimensions wanted : List Value}
    {key value method : Value}
    (hargs : scene.context.arguments =
      [("dimensions", .list dimensions), ("pivot_column", key), ("value_column", value),
        ("agg_method", method), ("list_of_vals", .list wanted)]) :
    Opening scene calls pivotNodes (Value.list wanted).holds
      [⟨dimensions.map Value.display, scene.context.input, scene.context.sourceLabel⟩,
        ⟨[key.display, value.display], scene.context.input, scene.context.sourceLabel⟩] := by
  have hdimensions := start_variable "dimensions" hargs rfl
  have hkey := variable_yields calls (start_variable "pivot_column" hargs rfl)
  have hvalue := variable_yields calls (start_variable "value_column" hargs rfl)
  have hboth : Yields (eval scene calls (.list [.var "pivot_column", .var "value_column"]))
      scene.start (.list [key, value]) scene.start :=
    yields_list.mpr ⟨_, yields_evalAll_cons.mpr ⟨_, _, hkey, _,
      yields_evalAll_cons.mpr ⟨_, _, hvalue, _, yields_evalAll_nil.mpr ⟨rfl, rfl⟩, rfl⟩, rfl⟩, rfl⟩
  exact opening_of_guard hmacros (start_variable "list_of_vals" hargs rfl)
    (.cons (checks_input hmacros (variable_yields calls hdimensions))
      (.cons (checks_input hmacros hboth) .nil))

theorem dateadd_opening (hmacros : scene.template.body.macros = []) {date : Value}
    (hdate : find? "date" scene.start.frames = some date)
    (hnames : namesIn date = [date.display]) :
    Opening scene calls dateaddNodes true
      [⟨[date.display], scene.context.input, scene.context.sourceLabel⟩] := by
  have hcheck := checks_input hmacros (variable_yields calls hdate)
  rw [hnames] at hcheck
  refine opening_of_guards [] ?_ ?_ (.cons hcheck .nil)
  · intro text after h
    exact (yields_execAll_nil.mp h).right.symm
  · exact fun _ => yields_execAll_nil.mpr ⟨rfl, rfl⟩

theorem join_opening (hmacros : scene.template.body.macros = []) {relation : String}
    {kind given : Value} {pairs : List (String × Value)}
    (hargs : scene.context.arguments =
      [("join_table", .str relation), ("join_columns", .map pairs), ("join_type", kind),
        ("join_prefix", given)])
    (hapart : relation ≠ scene.context.source) {side : SideDataset}
    (hside : Keyed.get? relation scene.context.datasets = some side) :
    Opening scene calls joinNodes
      ((Value.map pairs).holds && joinTypes.contains (Text.upper kind.display))
      [⟨Keyed.keys pairs, scene.context.input, scene.context.sourceLabel⟩,
        ⟨(Keyed.values pairs).map Value.display, side.columns, side.label⟩] := by
  have hpairs := start_variable "join_columns" hargs rfl
  have hkind := start_variable "join_type" hargs rfl
  have htable := start_variable "join_table" hargs rfl
  have hvalues : Yields (eval scene calls (askItself (.var "join_columns") "values")) scene.start
      (.list (Keyed.values pairs)) scene.start :=
    yields_askItself.mpr ⟨_, variable_yields calls hpairs, method_values⟩
  have hrest : Yields (evalAll scene calls [.var "join_table"]) scene.start [.str relation]
      scene.start :=
    yields_evalAll_cons.mpr
      ⟨_, _, variable_yields calls htable, _, yields_evalAll_nil.mpr ⟨rfl, rfl⟩, rfl⟩
  have hcolumns : schemaOf scene [Value.str relation].head? =
      foundColumns side.columns side.label := by
    simp only [List.head?_cons, schemaOf, Function.asked, if_neg hapart, Function.sideDataset,
      hside]
    cases side.columns <;> rfl
  refine opening_of_guards [guard "join_columns" _, typeGuard] ?_ ?_
    (.cons (checks_input hmacros (variable_yields calls hpairs))
      (.cons (checks_node hmacros hvalues hrest hcolumns) .nil))
  · intro text after h
    simp only [yields_execAll_cons, yields_execAll_nil, yields_guard hmacros] at h
    rcases h with ⟨_, _, ⟨_, -, -, -, rfl⟩, _, ⟨_, _, htype, _, ⟨-, rfl⟩, -⟩, -⟩
    exact ((yields_typeGuard hmacros hkind).mp htype).right.right.symm
  · intro hpasses
    rw [Bool.and_eq_true] at hpasses
    simp only [yields_execAll_cons, yields_execAll_nil, yields_guard hmacros]
    exact ⟨_, _, ⟨_, hpairs, hpasses.left, rfl, rfl⟩, _,
      ⟨_, _, (yields_typeGuard hmacros hkind).mpr ⟨hpasses.right, rfl, rfl⟩, _, ⟨rfl, rfl⟩, rfl⟩,
      rfl⟩

/-!
## Choosing columns
-/

theorem branch_fails {condition : Expr} {value : Value} {body otherwise : List Node}
    {others : List (Expr × List Node)} {before : State} {e : Error}
    (hcondition : Yields (eval scene calls condition) before value before)
    (h : if value.holds then Fails (execAll scene calls body) before e
      else Fails (exec scene calls (.branch others otherwise)) before e) :
    Fails (exec scene calls (.branch ((condition, body) :: others) otherwise)) before e := by
  simp only [exec, execBranches] at h ⊢
  apply hcondition.bind_fails
  cases hholds : value.holds with
  | true =>
      rw [if_pos hholds] at h
      exact h
  | false =>
      rw [if_neg (by simp [hholds])] at h
      exact h

theorem names_of_one {included excluded : Value}
    (hincluded : included = .null ∨ ∃ names, included = .list names)
    (hexcluded : excluded = .null ∨ ∃ names, excluded = .list names)
    (hone : (!included.isNull && !excluded.isNull) = false) :
    (itemsOf included).map Value.display ++ (itemsOf excluded).map Value.display =
      namesIn (if included.holds then included else excluded) := by
  rcases hincluded with rfl | ⟨names, rfl⟩
  · rcases hexcluded with rfl | ⟨others, rfl⟩ <;> rfl
  · rcases hexcluded with rfl | ⟨others, rfl⟩
    · cases names <;> simp [itemsOf, namesIn, Value.holds]
    · cases hone

/-- The one check stands inside a branch that goes on to set a variable, so that it is no check that
others could follow. -/
theorem dropColumns_opening (hmacros : scene.template.body.macros = []) {included excluded : Value}
    (hincluded : included = .null ∨ ∃ names, included = .list names)
    (hexcluded : excluded = .null ∨ ∃ names, excluded = .list names)
    (hargs : scene.context.arguments = [("include_cols", included), ("exclude_cols", excluded)]) :
    Opening scene calls dropColumnsNodes
      (!(!included.isNull && !excluded.isNull) && (included.holds || excluded.holds))
      [⟨(itemsOf included).map Value.display ++ (itemsOf excluded).map Value.display,
        scene.context.input, scene.context.sourceLabel⟩] := by
  have hsupplied : (Function.isSupplied scene.context "include_cols" &&
      Function.isSupplied scene.context "exclude_cols") =
        (!included.isNull && !excluded.isNull) := by
    simp [Function.isSupplied, hargs, Keyed.get?]
  constructor
  · intro text after h
    have hone : (!included.isNull && !excluded.isNull) = false := by
      rw [dropColumnsNodes, List.cons_append, yields_execAll_cons] at h
      rcases h with ⟨_, _, hexclusive, -⟩
      rw [← hsupplied]
      exact ((yields_exclusive hmacros).mp hexclusive).left
    rcases dropColumns_selects hmacros hincluded hargs h with ⟨schema, hinput, hhas, -⟩
    refine List.forall_mem_singleton.mpr ⟨schema, hinput, fun name hname => ?_⟩
    simp only [names_of_one hincluded hexcluded hone] at hname
    exact Schema.has_iff.mp (hhas name hname)
  · intro hpasses e herror
    rw [Bool.and_eq_true, Bool.not_eq_true'] at hpasses
    rcases hpasses with ⟨hone, hgiven⟩
    rw [List.findSome?_singleton, names_of_one hincluded hexcluded hone] at herror
    have hinclude := start_variable "include_cols" hargs rfl
    have hexclude := start_variable "exclude_cols" hargs rfl
    rw [dropColumnsNodes, List.cons_append, execAll]
    apply ((yields_exclusive hmacros).mpr ⟨hsupplied.trans hone, rfl, rfl⟩).bind_fails
    apply Fails.bind
    rw [List.cons_append, execAll]
    apply Fails.bind
    apply branch_fails (variable_yields calls hinclude)
    cases hholds : included.holds with
    | true =>
        rw [if_pos hholds] at herror
        rw [if_pos rfl, execAll]
        exact ((checks_input hmacros (variable_yields calls hinclude)).fails e herror).bind
    | false =>
        rw [hholds, Bool.false_or] at hgiven
        rw [if_neg (by simp [hholds])] at herror
        rw [if_neg Bool.false_ne_true]
        apply branch_fails (variable_yields calls hexclude)
        rw [if_pos hgiven, execAll]
        exact ((checks_input hmacros (variable_yields calls hexclude)).fails e herror).bind

/-!
## All transforms
-/

/-- Each dataset that is bound has another relation text than the input, and the template can ask
about it. -/
def PartnersKnown (bound : Bound) (context : Context) : Prop :=
  ∀ entry ∈ bound.datasets, entry.2.relation ≠ context.source ∧
    ∃ side, Keyed.get? entry.2.relation context.datasets = some side

theorem Opening.described {nodes : List Node} {passes : Bool} {demands : List Demand}
    {name : String} (h : Opening scene calls nodes passes demands)
    (hpasses : guardsPass name scene.context = passes)
    (hdemands : demandsOf name scene.context = demands) :
    Opening scene calls nodes (guardsPass name scene.context) (demandsOf name scene.context) := by
  rw [hpasses, hdemands]
  exact h

theorem opening_of_mem_trees {listing : Listing} {body : String} {nodes : List Node}
    (hmem : (listing, body, nodes) ∈ trees) (hname : listing.name ∈ checkingTransforms)
    {args : Keyed Argument} {ns : Option Namespace} {bound : Bound}
    (hbind : (transformOf listing body nodes).bind args ns = .ok bound)
    (hmacros : scene.template.body.macros = [])
    (harguments : scene.context.arguments = bound.values)
    (hpartners : PartnersKnown bound scene.context) :
    Opening scene calls nodes (guardsPass listing.name scene.context)
      (demandsOf listing.name scene.context) := by
  simp only [trees, List.mem_cons, List.not_mem_nil, or_false, Prod.mk.injEq] at hmem
  rcases hmem with hmem | hmem | hmem | hmem | hmem | hmem | hmem | hmem | hmem | hmem | hmem
  all_goals rcases hmem with ⟨rfl, rfl, rfl⟩
  · rcases cast_values rfl hbind with ⟨casts, overwrite, hvalues⟩
    have hargs := harguments.trans hvalues
    refine (opening_of_mapping hmacros (start_variable "casts" hargs rfl)).described ?_ ?_
    · simp only [castListing, guardsPass, argument, hargs]
      rfl
    · simp only [castListing, demandsOf, argument, hargs]
      rfl
  · exact absurd hname (by decide)
  · rcases dropColumns_lists rfl hbind with ⟨included, excluded, hincluded, hexcluded, hvalues⟩
    have hargs := harguments.trans hvalues
    refine (dropColumns_opening hmacros hincluded hexcluded hargs).described ?_ ?_
    · simp only [dropColumnsListing, guardsPass, argument, Function.isSupplied, hargs]
      rfl
    · simp only [dropColumnsListing, demandsOf, argument, hargs]
      rfl
  · rcases rename_values rfl hbind with ⟨renames, hvalues⟩
    have hargs := harguments.trans hvalues
    refine (opening_of_mapping hmacros (start_variable "renames" hargs rfl)).described ?_ ?_
    · simp only [renameListing, guardsPass, argument, hargs]
      rfl
    · simp only [renameListing, demandsOf, argument, hargs]
      rfl
  · exact absurd hname (by decide)
  · rcases datetrunc_values rfl hbind with ⟨dates, overwrite, hvalues⟩
    have hargs := harguments.trans hvalues
    refine (opening_of_mapping hmacros (start_variable "dates" hargs rfl)).described ?_ ?_
    · simp only [datetruncListing, guardsPass, argument, hargs]
      rfl
    · simp only [datetruncListing, demandsOf, argument, hargs]
      rfl
  · rcases dateadd_named rfl hbind with ⟨date, offset, unit, given, overwrite, hnames, hvalues⟩
    have hargs := harguments.trans hvalues
    refine (dateadd_opening hmacros (start_variable "date" hargs rfl) hnames).described rfl ?_
    simp only [dateaddListing, demandsOf, argument, hargs]
    rfl
  · rcases aggregate_values rfl hbind with ⟨groups, aggregations, hvalues⟩
    have hargs := harguments.trans hvalues
    refine (aggregate_opening hmacros hargs).described ?_ ?_
    · simp only [aggregateListing, guardsPass, argument, hargs]
      rfl
    · simp only [aggregateListing, demandsOf, argument, hargs]
      rfl
  · rcases pivot_values rfl hbind with ⟨dimensions, key, value, method, wanted, hvalues⟩
    have hargs := harguments.trans hvalues
    refine (pivot_opening hmacros hargs).described ?_ ?_
    · simp only [pivotListing, guardsPass, argument, hargs]
      rfl
    · simp only [pivotListing, demandsOf, argument, hargs]
      rfl
  · rcases join_values rfl hbind with ⟨table, pairs, kind, given, hvalues⟩
    have hargs := harguments.trans hvalues
    have hparameters : ∀ p ∈ joinListing.parameters, p.name = "join_table" →
        p.shape = .dataset ∧ p.required = true := by decide
    rcases Transform.exists_dataset_of_get? hparameters (Transform.bindParameters_of_bind hbind)
      (congrArg (Keyed.get? "join_table") hvalues) with ⟨d, hmem, rfl⟩
    rcases hpartners ("join_table", d) (List.mem_filterMap.mpr ⟨_, hmem, rfl⟩)
      with ⟨hapart, side, hside⟩
    have htable : argument scene.context "join_table" = .str d.relation :=
      argument_eq hargs "join_table"
    refine (join_opening hmacros hargs hapart hside).described ?_ ?_
    · simp only [joinListing, guardsPass, argument, hargs]
      rfl
    · simp only [joinListing, demandsOf, htable, Value.display_str, hside, Option.getD_some]
      simp only [argument, hargs]
      rfl
  · rcases order_values rfl hbind with ⟨directions, hvalues⟩
    have hargs := harguments.trans hvalues
    refine (opening_of_mapping hmacros (start_variable "order_by" hargs rfl)).described ?_ ?_
    · simp only [orderListing, guardsPass, argument, hargs]
      rfl
    · simp only [orderListing, demandsOf, argument, hargs]
      rfl

end Openings

def firstFailure? (transform : String) (context : Context) : Option Error :=
  (demandsOf transform context).findSome? fun demand => demand.error? transform

/-- Where a transform that checks its column names renders, all of them are among the columns of the
input or, for a join, of the partner.  Where its guards pass and a name is missing or a dataset has
no known columns, the rendering fails at the first of the checks that finds this out. -/
theorem references_checked {listing : Listing} {body : String}
    (hentry : (listing, body) ∈ entries) (hname : listing.name ∈ checkingTransforms)
    {transform : Transform} (hcreate : Transform.create listing body = .ok transform)
    {args : Keyed Argument} {ns : Option Namespace} {bound : Bound}
    (hbind : transform.bind args ns = .ok bound) {context : Context}
    (harguments : context.arguments = bound.values) (hpartners : PartnersKnown bound context) :
    (∀ rendered, render transform.template context = .ok rendered →
      ∀ demand ∈ demandsOf listing.name context, demand.Met) ∧
    (guardsPass listing.name context = true →
      (∃ demand ∈ demandsOf listing.name context, ¬demand.Met) →
        ∃ e, firstFailure? listing.name context = some e ∧
          render transform.template context = .error e) := by
  have hother : listing.name ≠ "apply" := by
    intro heq
    rw [heq] at hname
    exact absurd hname (by decide)
  rcases exists_mem_trees hentry hother with ⟨nodes, hmem⟩
  rw [create_of_mem_trees hmem, Except.ok.injEq] at hcreate
  subst hcreate
  have hopening : Opening ⟨(transformOf listing body nodes).template, context⟩
      (.within ⟨(transformOf listing body nodes).template, context⟩ callBudget) nodes
      (guardsPass listing.name context) (demandsOf listing.name context) :=
    opening_of_mem_trees hmem hname hbind rfl harguments hpartners
  constructor
  · intro rendered hrender
    rcases render_eq_ok_iff.mp hrender with ⟨text, after, hrun, -, -⟩
    exact hopening.met text after hrun
  · rintro hpasses ⟨demand, hdemand, hmissing⟩
    cases hfirst : firstFailure? listing.name context with
    | none =>
        have hnone := List.findSome?_eq_none_iff.mp hfirst demand hdemand
        exact absurd (Demand.error?_eq_none_iff.mp hnone) hmissing
    | some e => exact ⟨e, rfl, render_of_fails (hopening.fails hpasses e hfirst)⟩

def mislabelledArguments : Keyed Argument :=
  [("join_table", .str "A.B.LABELS"), ("join_columns", .mapping [("N", .str "M")])]

def mislabelledBound : Bound :=
  ⟨[("join_table", .dataset (.table ⟨"A", "B", "LABELS"⟩ none)),
    ("join_columns", .mapping [("N", .str "M")]), ("join_type", .str "LEFT"),
    ("join_prefix", .null)]⟩

theorem mislabelled_refused :
    (transformOf joinListing joinBody joinNodes).bind mislabelledArguments none =
      .ok mislabelledBound ∧
    render (transformOf joinListing joinBody joinNodes).template
        { labelContext with arguments := mislabelledBound.values } =
      .error (.invalidColumnReference "join" "M" "A.B.LABELS") := by
  have hcreate : Transform.create joinListing joinBody =
      .ok (transformOf joinListing joinBody joinNodes) := create_of_mem_trees (by simp [trees])
  have hbind : (transformOf joinListing joinBody joinNodes).bind mislabelledArguments none =
      .ok mislabelledBound := by rfl
  have hpartners : PartnersKnown mislabelledBound
      { labelContext with arguments := mislabelledBound.values } := by
    intro entry hentry
    cases List.mem_singleton.mp hentry
    exact ⟨by decide, _, rfl⟩
  have hmissing : ∃ demand ∈ demandsOf "join"
      { labelContext with arguments := mislabelledBound.values }, ¬demand.Met := by
    refine ⟨_, List.mem_cons_of_mem _ List.mem_cons_self, ?_⟩
    rintro ⟨schema, hschema, hnames⟩
    cases hschema
    exact absurd (hnames "M" List.mem_cons_self) (by decide)
  rcases (references_checked (by simp [entries]) (by decide) hcreate hbind rfl hpartners).right
    (by decide) hmissing with ⟨e, hfirst, hrender⟩
  cases hfirst
  exact ⟨hbind, hrender⟩

end Library
end TransformChain
