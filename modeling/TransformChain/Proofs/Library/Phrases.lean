import TransformChain.Proofs.Keyed.Entries
import TransformChain.Proofs.Library.Trees
import TransformChain.Proofs.Template.Yields

/-!
# What the phrases do

Each phrase of the library's templates succeeds exactly if its variables have suitable values, and
then writes a known text.  With these rules the templates are run backwards without opening the
evaluator.
-/

namespace TransformChain

@[simp] theorem Value.display_str (s : String) : (Value.str s).display = s := by
  simp [display]

@[simp] theorem Value.holds_bool (b : Bool) : (Value.bool b).holds = b := rfl

@[simp] theorem Value.looselyEquals_str (s t : String) :
    (Value.str s).looselyEquals (.str t) = (s == t) := by
  simp [looselyEquals, same]

theorem Value.ne_nil_of_holds_list {items : List Value} (h : (Value.list items).holds = true) :
    items ≠ [] := by
  rintro rfl
  cases h

theorem Value.ne_nil_of_holds_map {entries : List (String × Value)}
    (h : (Value.map entries).holds = true) : entries ≠ [] := by
  rintro rfl
  cases h

/-!
## Functions
-/

namespace Template

open Template.Action (Yields yields_bind yields_pure yields_ofExcept yields_declare)

namespace Function

def typedNames (schema : Schema) : List (String × Value) :=
  Keyed.ofPairs (schema.map fun column =>
    (column.name,
      match column.type with
      | some type => .str type
      | none => .null))

theorem typedNames_ne_nil {schema : Schema} (h : schema ≠ []) : typedNames schema ≠ [] := by
  cases schema with
  | nil => exact absurd rfl h
  | cons column rest => exact Keyed.putAll_ne_nil (Keyed.put_ne_nil _ _ _) _

theorem columnMap_eq (schema : Schema) : columnMap schema = .map (typedNames schema) := rfl

section Calls

attribute [local simp] Function.pure

variable {scene : Scene} {value : Value}

theorem schemaOf_none {schema : Schema} {label : String} :
    schemaOf scene none = .ok (schema, label) ↔
      scene.context.input = some schema ∧ scene.context.sourceLabel = label := by
  simp only [schemaOf, asked]
  cases scene.context.input <;> simp

theorem labelOf_of_schemaOf {wanted : Option Value} {schema : Schema} {label : String}
    (h : schemaOf scene wanted = .ok (schema, label)) : labelOf scene wanted = .ok label := by
  unfold schemaOf at h
  unfold labelOf
  cases hasked : asked scene wanted with
  | error e => simp [hasked] at h
  | ok which =>
      cases which with
      | input =>
          simp only [hasked] at h
          cases hinput : scene.context.input with
          | none => simp [hinput] at h
          | some found =>
              simp only [hinput, Except.ok.injEq, Prod.mk.injEq] at h
              simp only [h.right]
      | side relation =>
          simp only [hasked] at h
          cases hside : sideDataset scene relation with
          | error e => simp [hside] at h
          | ok side =>
              cases hcolumns : side.columns with
              | none => simp [hside, hcolumns] at h
              | some found =>
                  simp only [hside, hcolumns, Except.ok.injEq, Prod.mk.injEq] at h
                  simp only [hside, h.right]

theorem missing?_eq_none {schema : Schema} {names : List String} :
    missing? schema names = none ↔ ∀ name ∈ names, schema.has name = true := by
  simp [missing?]

theorem requireColumns_eq_ok {wanted : Value} {rest : List Value} :
    Function.pure scene "require_columns" ⟨wanted :: rest, []⟩ = .ok value ↔
      ∃ schema label, schemaOf scene rest.head? = .ok (schema, label) ∧
        (∀ name ∈ namesIn wanted, schema.has name = true) ∧ .null = value := by
  have hargument : Call.argument ⟨wanted :: rest, []⟩ 1 "dataset" = rest.head? := by
    cases rest <;> rfl
  simp only [Function.pure, checkColumns, first, hargument, except_bind_eq_ok,
    ← missing?_eq_none, Except.ok.injEq, exists_eq_left', Prod.exists]
  constructor
  · rintro ⟨schema, label, hschema, h⟩
    cases hmissing : missing? schema (namesIn wanted) with
    | none =>
        rw [hmissing] at h
        cases h
        exact ⟨schema, label, hschema, hmissing, rfl⟩
    | some column =>
        rw [hmissing] at h
        cases h
  · rintro ⟨schema, label, hschema, hmissing, rfl⟩
    refine ⟨schema, label, hschema, ?_⟩
    rw [hmissing]

theorem getColumns_eq_ok {args : List Value} :
    Function.pure scene "get_columns" ⟨args, []⟩ = .ok value ↔
      ∃ schema label, schemaOf scene args.head? = .ok (schema, label) ∧
        .map (typedNames schema) = value := by
  have hargument : Call.argument ⟨args, []⟩ 0 "dataset" = args.head? := by
    cases args <;> rfl
  simp [hargument, except_bind_eq_ok, ← columnMap_eq, Pure.pure, Except.pure]

theorem cleanseName_eq_ok {subject : Value} {rest : List Value} :
    Function.pure scene "cleanse_name" ⟨subject :: rest, []⟩ = .ok value ↔
      .str (Text.cleanse subject.display) = value := by
  simp [first, except_bind_eq_ok, Pure.pure, Except.pure]

theorem quote_eq_ok {subject : Value} {rest : List Value} :
    Function.pure scene "quote" ⟨subject :: rest, []⟩ = .ok value ↔
      .str (Literal.quote subject) = value := by
  simp [first, except_bind_eq_ok, Pure.pure, Except.pure]

theorem columnsExcept_eq_ok {excluded : Value} {rest : List Value} :
    Function.pure scene "columns_except" ⟨excluded :: rest, []⟩ = .ok value ↔
      ∃ schema, scene.context.input = some schema ∧
        columnList (exceptNames schema (namesIn excluded)) = value := by
  simp [first, except_bind_eq_ok, schemaOf_none, Pure.pure, Except.pure]

theorem datasetName_eq_ok {subject : Value} {rest : List Value} :
    Function.pure scene "dataset_name" ⟨subject :: rest, []⟩ = .ok value ↔
      ∃ label, labelOf scene (some subject) = .ok label ∧
        .str (String.ofList (Text.afterLast '.' label.toList)) = value := by
  simp [except_bind_eq_ok, Pure.pure, Except.pure]

theorem exclusive_eq_ok {a b : String} :
    Function.pure scene "mutually_exclusive" ⟨[.str a, .str b], []⟩ = .ok value ↔
      (isSupplied scene.context a && isSupplied scene.context b) = false ∧ .null = value := by
  simp only [Function.pure, checkExclusive]
  cases isSupplied scene.context a && isSupplied scene.context b <;> simp

theorem yields_output {subject : Value} {rest : List Value} {before after : State} :
    Yields (output scene ⟨subject :: rest, []⟩) before value after ↔
      before.declared.has subject.display = false ∧ .null = value ∧
      after = { before with
        declared := before.declared ++ [⟨subject.display, typeIn rest.head?⟩] } := by
  have hargument : Call.argument ⟨subject :: rest, []⟩ 1 "type" = rest.head? := by
    cases rest <;> rfl
  simp only [output, first, hargument, yields_bind, yields_ofExcept, yields_declare, yields_pure,
    Except.ok.injEq]
  constructor
  · rintro ⟨_, _, ⟨rfl, rfl⟩, _, _, ⟨hnew, rfl⟩, hvalue, rfl⟩
    exact ⟨hnew, hvalue, rfl⟩
  · rintro ⟨hnew, hvalue, rfl⟩
    exact ⟨_, _, ⟨rfl, rfl⟩, (), _, ⟨hnew, rfl⟩, hvalue, rfl⟩

end Calls

end Function
end Template

namespace Library

open Template
open Template.Action
open Template.Function (namesIn typeIn typedNames schemaOf)

section Phrases

variable {scene : Scene} {calls : Calls} {before after : State} {text : String} {value : Value}

/-!
## Expressions
-/

section Constructors

attribute [local simp] eval evalAll evalNamed

@[simp] theorem yields_eval_var {name : String} :
    Yields (eval scene calls (.var name)) before value after ↔
      find? name before.frames = some value ∧ before = after := by
  simp

@[simp] theorem yields_eval_lit {literal : Value} :
    Yields (eval scene calls (.lit literal)) before value after ↔
      literal = value ∧ before = after := by
  simp

@[simp] theorem yields_evalAll_nil {values : List Value} :
    Yields (evalAll scene calls []) before values after ↔ [] = values ∧ before = after := by
  simp

@[simp] theorem yields_evalAll_cons {first : Expr} {rest : List Expr} {values : List Value} :
    Yields (evalAll scene calls (first :: rest)) before values after ↔
      ∃ v between, Yields (eval scene calls first) before v between ∧
        ∃ vs, Yields (evalAll scene calls rest) between vs after ∧ v :: vs = values := by
  simp

@[simp] theorem yields_attr {base : Expr} {field : String} :
    Yields (eval scene calls (.attr base field)) before value after ↔
      ∃ v, Yields (eval scene calls base) before v after ∧ Operation.attr field v = .ok value := by
  simp

@[simp] theorem yields_index {base key : Expr} :
    Yields (eval scene calls (.index base key)) before value after ↔
      ∃ v between, Yields (eval scene calls base) before v between ∧
        ∃ w, Yields (eval scene calls key) between w after ∧ Operation.index v w = .ok value := by
  simp

@[simp] theorem yields_not {operand : Expr} :
    Yields (eval scene calls (.not operand)) before value after ↔
      ∃ v, Yields (eval scene calls operand) before v after ∧ .bool (!v.holds) = value := by
  simp

@[simp] theorem yields_mem {left right : Expr} :
    Yields (eval scene calls (.binary .mem left right)) before value after ↔
      ∃ v between, Yields (eval scene calls left) before v between ∧
        ∃ w, Yields (eval scene calls right) between w after ∧
          Operation.asValue (Operation.contains w v) = .ok value := by
  simp [Operation.binary]

@[simp] theorem yields_notMem {left right : Expr} :
    Yields (eval scene calls (.binary .notMem left right)) before value after ↔
      ∃ v between, Yields (eval scene calls left) before v between ∧
        ∃ w, Yields (eval scene calls right) between w after ∧
          Operation.negatedValue (Operation.contains w v) = .ok value := by
  simp [Operation.binary]

@[simp] theorem yields_eq {left right : Expr} :
    Yields (eval scene calls (.binary .eq left right)) before value after ↔
      ∃ v between, Yields (eval scene calls left) before v between ∧
        ∃ w, Yields (eval scene calls right) between w after ∧
          .bool (v.looselyEquals w) = value := by
  simp [Operation.binary]

@[simp] theorem yields_and {left right : Expr} :
    Yields (eval scene calls (.binary .and left right)) before value after ↔
      ∃ v between, Yields (eval scene calls left) before v between ∧
        if v.holds then Yields (eval scene calls right) between value after
        else v = value ∧ between = after := by
  simp

@[simp] theorem yields_cond {condition yes no : Expr} :
    Yields (eval scene calls (.cond condition yes (some no))) before value after ↔
      ∃ v between, Yields (eval scene calls condition) before v between ∧
        if v.holds then Yields (eval scene calls yes) between value after
        else Yields (eval scene calls no) between value after := by
  simp

@[simp] theorem yields_list {items : List Expr} :
    Yields (eval scene calls (.list items)) before value after ↔
      ∃ values, Yields (evalAll scene calls items) before values after ∧ .list values = value := by
  simp

end Constructors

theorem yields_test {subject name : String} {passes : Value → Bool}
    (hname : isDefinedTest name = false)
    (htest : ∀ v, Operation.test name v = .ok (passes v)) :
    Yields (eval scene calls (.test (.var subject) name false)) before value after ↔
      ∃ v, find? subject before.frames = some v ∧ before = after ∧ .bool (passes v) = value := by
  simp only [eval, hname, Bool.false_eq_true, if_false, yields_bind, yields_evalVar, testValue,
    yields_ofExcept, operated_eq_ok, yields_pure, htest, Except.ok.injEq, Bool.bne_false]
  constructor
  · rintro ⟨v, _, ⟨hv, rfl⟩, _, _, ⟨rfl, rfl⟩, h, rfl⟩
    exact ⟨v, hv, rfl, h⟩
  · rintro ⟨v, hv, rfl, h⟩
    exact ⟨v, _, ⟨hv, rfl⟩, _, _, ⟨rfl, rfl⟩, h, rfl⟩

@[simp] theorem yields_isMapping {subject : String} :
    Yields (eval scene calls (.test (.var subject) "mapping" false)) before value after ↔
      ∃ v, find? subject before.frames = some v ∧ before = after ∧
        .bool (v.kind == .mapping) = value :=
  yields_test rfl (fun _ => rfl)

@[simp] theorem yields_isString {subject : String} :
    Yields (eval scene calls (.test (.var subject) "string" false)) before value after ↔
      ∃ v, find? subject before.frames = some v ∧ before = after ∧
        .bool (v.kind == .string) = value :=
  yields_test rfl (fun _ => rfl)

theorem yields_filter_var {subject name : String} (hname : name ≠ "default") {args : List Expr} :
    Yields (eval scene calls (.filter (.var subject) name args)) before value after ↔
      ∃ v, find? subject before.frames = some v ∧
        ∃ vs, Yields (evalAll scene calls args) before vs after ∧
          Operation.filter name v vs = .ok value := by
  simp only [eval, hname, if_false, yields_bind, yields_evalVar, yields_operate]
  constructor
  · rintro ⟨v, _, ⟨hv, rfl⟩, vs, _, hvs, hvalue, rfl⟩
    exact ⟨v, hv, vs, hvs, hvalue⟩
  · rintro ⟨v, hv, vs, hvs, hvalue⟩
    exact ⟨v, _, ⟨hv, rfl⟩, vs, _, hvs, hvalue, rfl⟩

@[simp] theorem attr_map {field : String} {entries : List (String × Value)} :
    Operation.attr field (.map entries) = .ok ((Keyed.get? field entries).getD .null) := rfl

@[simp] theorem yields_default {base : Expr} {field : String} {instead : Value} :
    Yields (eval scene calls (.filter (.attr base field) "default" [.lit instead])) before value
      after ↔
      ∃ v, Yields (eval scene calls (.attr base field)) before v after ∧
        (if v.isNull then instead else v) = value := by
  have heval : eval scene calls (.filter (.attr base field) "default" [.lit instead]) =
      (do
        let v ← eval scene calls (.attr base field)
        let values ← evalAll scene calls [.lit instead]
        operate scene (Operation.filter "default" v values)) := by
    simp only [eval]
  rw [heval]
  simp only [yields_bind, yields_evalAll_cons, yields_evalAll_nil, yields_eval_lit,
    yields_operate, Operation.filter]
  constructor
  · rintro ⟨v, _, hv, _, _, ⟨_, _, ⟨rfl, rfl⟩, _, ⟨rfl, rfl⟩, rfl⟩, h, rfl⟩
    refine ⟨v, hv, ?_⟩
    cases hnull : v.isNull with
    | true => simpa [hnull] using h
    | false => simpa [hnull] using h
  · rintro ⟨v, hv, rfl⟩
    refine ⟨v, _, hv, _, _, ⟨_, _, ⟨rfl, rfl⟩, _, ⟨rfl, rfl⟩, rfl⟩, ?_, rfl⟩
    cases v.isNull with
    | true => rfl
    | false => rfl

@[simp] theorem yields_upper {subject : String} :
    Yields (eval scene calls (.filter (.var subject) "upper" [])) before value after ↔
      ∃ v, find? subject before.frames = some v ∧ .str (Text.upper v.display) = value ∧
        before = after := by
  simp [yields_filter_var, Operation.filter, and_comm]

@[simp] theorem yields_join {subject separator : String} :
    Yields (eval scene calls (.filter (.var subject) "join" [.lit (.str separator)])) before value
      after ↔
      ∃ v, find? subject before.frames = some v ∧
        .str (Text.join separator ((Operation.joined v).map Value.display)) = value ∧
        before = after := by
  simp [yields_filter_var, Operation.filter, Operation.firstText, and_comm]

theorem yields_ask (hmacros : scene.template.body.macros = []) {function : String}
    (hfunction : ∀ call, Function.call scene calls.body function call =
      Action.ofExcept (Function.pure scene function call)) {args : List Expr} :
    Yields (eval scene calls (ask function args)) before value after ↔
      ∃ values, Yields (evalAll scene calls args) before values after ∧
        Function.pure scene function ⟨values, []⟩ = .ok value := by
  simp [ask, eval, evalNamed, callByName_eq hmacros, hfunction]

@[simp] theorem yields_askItself {receiver : Expr} {method : String} :
    Yields (eval scene calls (askItself receiver method)) before value after ↔
      ∃ v, Yields (eval scene calls receiver) before v after ∧
        Operation.method v method [] = .ok value := by
  simp only [askItself, eval, evalAll, evalNamed, yields_bind, yields_pure, yields_operate]
  constructor
  · rintro ⟨_, _, ⟨rfl, rfl⟩, _, _, ⟨rfl, rfl⟩, v, _, hv, h, rfl⟩
    exact ⟨v, hv, h⟩
  · rintro ⟨v, hv, h⟩
    exact ⟨_, _, ⟨rfl, rfl⟩, _, _, ⟨rfl, rfl⟩, v, _, hv, h, rfl⟩

@[simp] theorem method_items {entries : List (String × Value)} :
    Operation.method (.map entries) "items" [] = .ok (.list (Operation.pairValues entries)) := rfl

@[simp] theorem method_values {entries : List (String × Value)} :
    Operation.method (.map entries) "values" [] = .ok (.list (entries.map Prod.snd)) := rfl

theorem yields_getColumns (hmacros : scene.template.body.macros = []) :
    Yields (eval scene calls (ask "get_columns" [])) before value after ↔
      ∃ schema, scene.context.input = some schema ∧ .map (typedNames schema) = value ∧
        before = after := by
  rw [yields_ask hmacros (fun _ => rfl)]
  simp [Function.getColumns_eq_ok, Function.schemaOf_none, and_comm, and_left_comm]

theorem yields_getColumnsOf (hmacros : scene.template.body.macros = []) {subject : String} :
    Yields (eval scene calls (ask "get_columns" [.var subject])) before value after ↔
      ∃ v, find? subject before.frames = some v ∧
        ∃ schema label, schemaOf scene (some v) = .ok (schema, label) ∧
          .map (typedNames schema) = value ∧ before = after := by
  rw [yields_ask hmacros (fun _ => rfl)]
  simp only [yields_evalAll_cons, yields_evalAll_nil, yields_eval_var, Function.getColumns_eq_ok]
  constructor
  · rintro ⟨_, ⟨v, _, ⟨hv, rfl⟩, _, ⟨rfl, rfl⟩, rfl⟩, schema, label, hschema, h⟩
    exact ⟨v, hv, schema, label, hschema, h, rfl⟩
  · rintro ⟨v, hv, schema, label, hschema, h, rfl⟩
    exact ⟨_, ⟨v, _, ⟨hv, rfl⟩, _, ⟨rfl, rfl⟩, rfl⟩, schema, label, hschema, h⟩

theorem yields_datasetName (hmacros : scene.template.body.macros = []) {subject : String} :
    Yields (eval scene calls (ask "dataset_name" [.var subject])) before value after ↔
      ∃ v, find? subject before.frames = some v ∧
        ∃ label, Function.labelOf scene (some v) = .ok label ∧
          .str (String.ofList (Text.afterLast '.' label.toList)) = value ∧ before = after := by
  rw [yields_ask hmacros (fun _ => rfl)]
  simp only [yields_evalAll_cons, yields_evalAll_nil, yields_eval_var]
  constructor
  · rintro ⟨_, ⟨v, _, ⟨hv, rfl⟩, _, ⟨rfl, rfl⟩, rfl⟩, h⟩
    rcases Function.datasetName_eq_ok.mp h with ⟨label, hlabel, hvalue⟩
    exact ⟨v, hv, label, hlabel, hvalue, rfl⟩
  · rintro ⟨v, hv, label, hlabel, hvalue, rfl⟩
    exact ⟨_, ⟨v, _, ⟨hv, rfl⟩, _, ⟨rfl, rfl⟩, rfl⟩,
      Function.datasetName_eq_ok.mpr ⟨label, hlabel, hvalue⟩⟩

theorem yields_inputColumns (hmacros : scene.template.body.macros = []) :
    Yields (eval scene calls inputColumns) before value after ↔
      ∃ schema, scene.context.input = some schema ∧
        .list (Operation.pairValues (typedNames schema)) = value ∧ before = after := by
  simp only [inputColumns, yields_askItself, yields_getColumns hmacros]
  constructor
  · rintro ⟨v, ⟨schema, hinput, rfl, rfl⟩, h⟩
    simp at h
    exact ⟨schema, hinput, h, rfl⟩
  · rintro ⟨schema, hinput, rfl, rfl⟩
    exact ⟨_, ⟨schema, hinput, rfl, rfl⟩, rfl⟩

theorem yields_cleanse (hmacros : scene.template.body.macros = []) {subject : Expr} :
    Yields (eval scene calls (ask "cleanse_name" [subject])) before value after ↔
      ∃ v, Yields (eval scene calls subject) before v after ∧
        .str (Text.cleanse v.display) = value := by
  rw [yields_ask hmacros (fun _ => rfl)]
  simp [Function.cleanseName_eq_ok]

theorem yields_quote (hmacros : scene.template.body.macros = []) {subject : Expr} :
    Yields (eval scene calls (ask "quote" [subject])) before value after ↔
      ∃ v, Yields (eval scene calls subject) before v after ∧
        .str (Literal.quote v) = value := by
  rw [yields_ask hmacros (fun _ => rfl)]
  simp [Function.quote_eq_ok]

theorem yields_columnsExcept (hmacros : scene.template.body.macros = []) {excluded : Expr} :
    Yields (eval scene calls (ask "columns_except" [excluded])) before value after ↔
      ∃ v, Yields (eval scene calls excluded) before v after ∧
        ∃ schema, scene.context.input = some schema ∧
          Function.columnList (Function.exceptNames schema (namesIn v)) = value := by
  rw [yields_ask hmacros (fun _ => rfl)]
  simp [Function.columnsExcept_eq_ok]

@[simp] theorem yields_concat {left right : Expr} :
    Yields (eval scene calls (.binary .concat left right)) before value after ↔
      ∃ v between, Yields (eval scene calls left) before v between ∧
        ∃ w, Yields (eval scene calls right) between w after ∧
          .str (v.display ++ w.display) = value := by
  simp [eval, Operation.binary]

theorem yields_joinedName (hmacros : scene.template.body.macros = []) {left right : String} :
    Yields (eval scene calls (joinedName left right)) before value after ↔
      ∃ v w, find? left before.frames = some v ∧ find? right before.frames = some w ∧
        .str (Text.cleanse (v.display ++ "_" ++ w.display)) = value ∧ before = after := by
  simp only [joinedName, yields_cleanse hmacros, yields_concat, yields_eval_var, yields_eval_lit]
  constructor
  · rintro ⟨_, ⟨_, _, ⟨v, _, ⟨hv, rfl⟩, _, ⟨rfl, rfl⟩, rfl⟩, w, ⟨hw, rfl⟩, rfl⟩, h⟩
    exact ⟨v, w, hv, hw, h, rfl⟩
  · rintro ⟨v, w, hv, hw, h, rfl⟩
    exact ⟨_, ⟨_, _, ⟨v, _, ⟨hv, rfl⟩, _, ⟨rfl, rfl⟩, rfl⟩, w, ⟨hw, rfl⟩, rfl⟩, h⟩

/-!
## Nodes
-/

@[simp] theorem yields_text {content : String} :
    Yields (exec scene calls (.text content)) before text after ↔
      content = text ∧ before = after := by
  simp [exec]

@[simp] theorem yields_output {expr : Expr} :
    Yields (exec scene calls (.output expr)) before text after ↔
      ∃ v, Yields (eval scene calls expr) before v after ∧ v.display = text := by
  simp [exec]

@[simp] theorem yields_branch {condition : Expr} {body otherwise : List Node} :
    Yields (exec scene calls (.branch [(condition, body)] otherwise)) before text after ↔
      ∃ v between, Yields (eval scene calls condition) before v between ∧
        if v.holds then Yields (execAll scene calls body) between text after
        else Yields (execAll scene calls otherwise) between text after := by
  simp [exec, execBranches]

@[simp] theorem yields_branch_elif {condition second : Expr} {body other otherwise : List Node} :
    Yields (exec scene calls (.branch [(condition, body), (second, other)] otherwise)) before text
      after ↔
      ∃ v between, Yields (eval scene calls condition) before v between ∧
        if v.holds then Yields (execAll scene calls body) between text after
        else
          Yields (exec scene calls (.branch [(second, other)] otherwise)) between text after := by
  simp [exec, execBranches]

@[simp] theorem yields_execAll_nil :
    Yields (execAll scene calls []) before text after ↔ "" = text ∧ before = after := by
  simp [execAll]

@[simp] theorem yields_execAll_cons {node : Node} {rest : List Node} :
    Yields (execAll scene calls (node :: rest)) before text after ↔
      ∃ first between, Yields (exec scene calls node) before first between ∧
        ∃ more, Yields (execAll scene calls rest) between more after ∧ first ++ more = text := by
  simp [execAll]

theorem yields_execAll_append {first second : List Node} {before : State} :
    Yields (execAll scene calls (first ++ second)) before text after ↔
      ∃ lead between, Yields (execAll scene calls first) before lead between ∧
        ∃ more, Yields (execAll scene calls second) between more after ∧ lead ++ more = text := by
  induction first generalizing before text with
  | nil => simp
  | cons node rest ih =>
      simp only [List.cons_append, yields_execAll_cons, ih]
      constructor
      · rintro ⟨head, between, hhead, _, ⟨lead, middle, hlead, more, hmore, rfl⟩, rfl⟩
        exact ⟨_, middle, ⟨head, between, hhead, lead, hlead, rfl⟩, more, hmore,
          String.append_assoc⟩
      · rintro ⟨_, middle, ⟨head, between, hhead, lead, hlead, rfl⟩, more, hmore, rfl⟩
        exact ⟨head, between, hhead, _, ⟨lead, middle, hlead, more, hmore, rfl⟩,
          String.append_assoc.symm⟩

theorem yields_abort (hmacros : scene.template.body.macros = []) {message : Expr} :
    ¬ Yields (execAll scene calls (abort message)) before text after := by
  intro h
  simp only [abort, yields_execAll_cons, yields_output,
    yields_ask hmacros (show ∀ call, Function.call scene calls.body "raise_exception" call =
      Action.ofExcept (Function.pure scene "raise_exception" call) from fun _ => rfl)] at h
  rcases h with ⟨_, _, ⟨_, ⟨_, _, hraise⟩, _⟩, _⟩
  cases hraise

theorem yields_guard (hmacros : scene.template.body.macros = []) {subject message : String} :
    Yields (exec scene calls (guard subject message)) before text after ↔
      ∃ v, find? subject before.frames = some v ∧ v.holds = true ∧ "" = text ∧
        before = after := by
  simp only [guard, exec, execBranches, eval, yields_bind, yields_evalVar, yields_pure, yields_ite,
    yields_abort hmacros, yields_execAll_nil]
  constructor
  · rintro ⟨_, _, ⟨v, _, ⟨hv, rfl⟩, rfl, rfl⟩, h⟩
    cases hholds : v.holds with
    | true =>
        rw [hholds] at h
        exact ⟨v, hv, hholds, h⟩
    | false =>
        rw [hholds] at h
        exact False.elim h
  · rintro ⟨v, hv, hholds, htext, rfl⟩
    refine ⟨_, _, ⟨v, _, ⟨hv, rfl⟩, rfl, rfl⟩, ?_⟩
    rw [hholds]
    exact ⟨htext, rfl⟩

theorem yields_check (hmacros : scene.template.body.macros = []) {wanted : Expr}
    {rest : List Expr} :
    Yields (exec scene calls (check (wanted :: rest))) before text after ↔
      ∃ v between, Yields (eval scene calls wanted) before v between ∧
        ∃ vs, Yields (evalAll scene calls rest) between vs after ∧
          ∃ schema label, schemaOf scene vs.head? = .ok (schema, label) ∧
            (∀ name ∈ namesIn v, schema.has name = true) ∧ "" = text := by
  simp only [check, exec, yields_bind, yields_pure, yields_evalAll_cons,
    yields_ask hmacros (show ∀ call, Function.call scene calls.body "require_columns" call =
      Action.ofExcept (Function.pure scene "require_columns" call) from fun _ => rfl)]
  constructor
  · rintro ⟨_, _, ⟨_, ⟨v, between, hv, vs, hvs, rfl⟩, h⟩, htext, rfl⟩
    rcases Function.requireColumns_eq_ok.mp h with ⟨schema, label, hschema, hhas, -⟩
    exact ⟨v, between, hv, vs, hvs, schema, label, hschema, hhas, htext⟩
  · rintro ⟨v, between, hv, vs, hvs, schema, label, hschema, hhas, htext⟩
    exact ⟨_, _, ⟨_, ⟨v, between, hv, vs, hvs, rfl⟩,
      Function.requireColumns_eq_ok.mpr ⟨schema, label, hschema, hhas, rfl⟩⟩, htext, rfl⟩

theorem yields_check_input (hmacros : scene.template.body.macros = []) {wanted : Expr} :
    Yields (exec scene calls (check [wanted])) before text after ↔
      ∃ v, Yields (eval scene calls wanted) before v after ∧
        ∃ schema, scene.context.input = some schema ∧
          (∀ name ∈ namesIn v, schema.has name = true) ∧ "" = text := by
  simp only [yields_check hmacros, yields_evalAll_nil]
  constructor
  · rintro ⟨v, _, hv, _, ⟨rfl, rfl⟩, schema, label, hschema, h⟩
    exact ⟨v, hv, schema, (Function.schemaOf_none.mp hschema).left, h⟩
  · rintro ⟨v, hv, schema, hinput, h⟩
    exact ⟨v, _, hv, [], ⟨rfl, rfl⟩, schema, _, Function.schemaOf_none.mpr ⟨hinput, rfl⟩, h⟩

theorem yields_declare (hmacros : scene.template.body.macros = []) {subject : Expr}
    {rest : List Expr} :
    Yields (exec scene calls (declare (subject :: rest))) before text after ↔
      ∃ v between, Yields (eval scene calls subject) before v between ∧
        ∃ vs last, Yields (evalAll scene calls rest) between vs last ∧
          last.declared.has v.display = false ∧ "" = text ∧
          after = { last with declared := last.declared ++ [⟨v.display, typeIn vs.head?⟩] } := by
  have hcall : ∀ call, Function.call scene calls.body "output" call =
      Function.output scene call := fun _ => rfl
  simp only [declare, exec, ask, eval, evalNamed, callByName_eq hmacros, hcall, yields_bind,
    yields_pure, yields_evalAll_cons]
  constructor
  · rintro ⟨_, _, ⟨_, _, ⟨v, between, hv, vs, hvs, rfl⟩, _, _, ⟨rfl, rfl⟩, h⟩, htext, rfl⟩
    rcases Function.yields_output.mp h with ⟨hnew, -, rfl⟩
    exact ⟨v, between, hv, vs, _, hvs, hnew, htext, rfl⟩
  · rintro ⟨v, between, hv, vs, last, hvs, hnew, htext, rfl⟩
    exact ⟨_, _, ⟨_, _, ⟨v, between, hv, vs, hvs, rfl⟩, _, _, ⟨rfl, rfl⟩,
      Function.yields_output.mpr ⟨hnew, rfl, rfl⟩⟩, htext, rfl⟩

theorem yields_exclusive (hmacros : scene.template.body.macros = []) {a b : String} :
    Yields (exec scene calls
      (.run (ask "mutually_exclusive" [.lit (.str a), .lit (.str b)]))) before text after ↔
      (Function.isSupplied scene.context a && Function.isSupplied scene.context b) = false ∧
        "" = text ∧ before = after := by
  simp only [exec, yields_bind, yields_pure, yields_evalAll_cons, yields_evalAll_nil,
    yields_eval_lit,
    yields_ask hmacros (show ∀ call, Function.call scene calls.body "mutually_exclusive" call =
      Action.ofExcept (Function.pure scene "mutually_exclusive" call) from fun _ => rfl)]
  constructor
  · rintro ⟨_, _, ⟨_, ⟨_, _, ⟨rfl, rfl⟩, _, ⟨_, _, ⟨rfl, rfl⟩, _, ⟨rfl, rfl⟩, rfl⟩, rfl⟩, h⟩, htext,
      rfl⟩
    exact ⟨(Function.exclusive_eq_ok.mp h).left, htext, rfl⟩
  · rintro ⟨h, htext, rfl⟩
    exact ⟨_, _, ⟨_, ⟨_, _, ⟨rfl, rfl⟩, _, ⟨_, _, ⟨rfl, rfl⟩, _, ⟨rfl, rfl⟩, rfl⟩, rfl⟩,
      Function.exclusive_eq_ok.mpr ⟨h, rfl⟩⟩, htext, rfl⟩

@[simp] theorem yields_print {subject : String} :
    Yields (exec scene calls (print subject)) before text after ↔
      ∃ v, find? subject before.frames = some v ∧ v.display = text ∧ before = after := by
  simp only [print, yields_output, yields_eval_var]
  constructor
  · rintro ⟨v, ⟨hv, rfl⟩, htext⟩
    exact ⟨v, hv, htext, rfl⟩
  · rintro ⟨v, hv, htext, rfl⟩
    exact ⟨v, ⟨hv, rfl⟩, htext⟩

@[simp] theorem yields_printUnless {condition : Expr} {content : String} :
    Yields (exec scene calls (printUnless condition content)) before text after ↔
      ∃ v, Yields (eval scene calls condition) before v after ∧
        (if v.holds then "" else content) = text := by
  simp only [printUnless, yields_output, eval, yields_bind, yields_pure, yields_ite]
  constructor
  · rintro ⟨w, ⟨_, _, ⟨v, _, hv, rfl, rfl⟩, h⟩, rfl⟩
    refine ⟨v, ?_⟩
    cases hholds : v.holds with
    | true =>
        rw [hholds] at h
        rcases h with ⟨rfl, rfl⟩
        exact ⟨hv, rfl⟩
    | false =>
        rw [hholds] at h
        rcases h with ⟨rfl, rfl⟩
        exact ⟨hv, rfl⟩
  · rintro ⟨v, hv, rfl⟩
    refine ⟨if v.holds then .null else .str content, ⟨_, _, ⟨v, _, hv, rfl, rfl⟩, ?_⟩, ?_⟩
    all_goals
      cases v.holds with
      | true => first | exact ⟨rfl, rfl⟩ | rfl
      | false => first | exact ⟨rfl, rfl⟩ | rfl

@[simp] theorem yields_assignment {name : String} {expr : Expr} :
    Yields (exec scene calls (.assign name expr)) before text after ↔
      ∃ v between, Yields (eval scene calls expr) before v between ∧ "" = text ∧
        Yields (Action.assign name v) between () after := by
  simp only [exec, yields_bind, yields_pure]
  constructor
  · rintro ⟨v, between, hv, _, _, hassign, htext, rfl⟩
    exact ⟨v, between, hv, htext, hassign⟩
  · rintro ⟨v, between, hv, htext, hassign⟩
    exact ⟨v, between, hv, (), after, hassign, htext, rfl⟩

/-!
## Loops
-/

theorem forEntries_yields (P : String × Value → Prop) (piece : Nat → String × Value → String)
    (columns : String × Value → Schema) {key name : String} (hkey : key ≠ name)
    (hkeyLoop : key ≠ "loop") (hnameLoop : name ≠ "loop") {iterable : Expr} {body : List Node}
    {depth : Nat} {outer : List Frame} {declared : Schema} {entries : List (String × Value)}
    (h : Yields (exec scene calls (forEntries key name iterable body)) ⟨outer, declared, depth⟩
      text after)
    (hiterable : ∀ v between, Yields (eval scene calls iterable) ⟨outer, declared, depth⟩
      v between → v = .list (Operation.pairValues entries) ∧
        between = ⟨outer, declared, depth⟩)
    (hround : ∀ i entry declared text after,
      Yields (execAll scene calls body)
        ⟨[(key, .str entry.1), (name, entry.2), ("loop", loopInfo i entries.length)] :: outer,
          declared, depth⟩ text after →
      P entry ∧ text = piece i entry ∧
        ∃ inner, after = ⟨inner :: outer, declared ++ columns entry, depth⟩) :
    (∀ entry ∈ entries, P entry) ∧ text = pieces piece 0 entries ∧
      after = ⟨outer, declared ++ entries.flatMap columns, depth⟩ := by
  have hframe : ∀ (i : Nat) (entry : String × Value),
      Keyed.put "loop" (loopInfo i entries.length) [(key, .str entry.1), (name, entry.2)] =
        [(key, .str entry.1), (name, entry.2), ("loop", loopInfo i entries.length)] := by
    intro i entry
    simp [Keyed.put, hkeyLoop, hnameLoop]
  apply exec_loop_yields (fun entry => .list [.str entry.1, entry.2])
    (fun entry => [(key, .str entry.1), (name, entry.2)]) h hiterable
  · rfl
  · intro entry
    simp [LoopTarget.bind, Keyed.put, hkey]
  · intro i entry declared text after hbody
    rw [hframe] at hbody
    exact hround i entry declared text after hbody

theorem forItems_yields (P : Value → Prop) (piece : Nat → Value → String)
    (columns : Value → Schema) {name : String} (hname : name ≠ "loop") {iterable : Expr}
    {body : List Node} {depth : Nat} {outer : List Frame} {declared : Schema} {subject : Value}
    {items : List Value}
    (h : Yields (exec scene calls (forItems name iterable body)) ⟨outer, declared, depth⟩
      text after)
    (hiterable : ∀ v between, Yields (eval scene calls iterable) ⟨outer, declared, depth⟩
      v between → v = subject ∧ between = ⟨outer, declared, depth⟩)
    (hitems : Operation.items subject = .ok items)
    (hround : ∀ i item declared text after,
      Yields (execAll scene calls body)
        ⟨[(name, item), ("loop", loopInfo i items.length)] :: outer, declared, depth⟩
        text after →
      P item ∧ text = piece i item ∧
        ∃ inner, after = ⟨inner :: outer, declared ++ columns item, depth⟩) :
    (∀ item ∈ items, P item) ∧ text = pieces piece 0 items ∧
      after = ⟨outer, declared ++ items.flatMap columns, depth⟩ := by
  have hframe : ∀ (i : Nat) (item : Value),
      Keyed.put "loop" (loopInfo i items.length) [(name, item)] =
        [(name, item), ("loop", loopInfo i items.length)] := by
    intro i item
    simp [Keyed.put, hname]
  apply exec_loop_yields id (fun item => [(name, item)]) h hiterable
  · rw [List.map_id]
    exact hitems
  · intro item
    rfl
  · intro i item declared text after hbody
    rw [hframe] at hbody
    exact hround i item declared text after hbody

end Phrases
end Library
end TransformChain
