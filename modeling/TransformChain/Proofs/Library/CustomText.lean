import TransformChain.Proofs.Library.Applying
import TransformChain.Proofs.Library.Arguments
import TransformChain.Proofs.Template.EmbeddedTags
import TransformChain.Proofs.Template.TemplateReading

/-!
# Custom texts

A text with the tag of the source between its segments is written out with the source between them.
Reading it finds the tags that were put in and nothing else, so whatever else stands in the segments
is kept: quotes, single braces, closing delimiters, and line ends behind a tag.
-/

namespace TransformChain
namespace Library

open Template
open Template.Action
open Template.Function (columnsIn)

def customText (segments : List String) : String :=
  Text.join (tag "source_table") segments

/-- No tag begins in the segments, nor with the brace at the end of one and the tag behind it. -/
structure IsCustom (segments : List String) : Prop where
  nonempty : segments ≠ []
  opener : ∀ segment ∈ segments, HoldsNoOpener segment.toList
  last : ∀ segment ∈ segments.dropLast, segment.toList.getLast? ≠ some '\x7b'

theorem isCustom_iff {segments : List String} :
    IsCustom segments ↔ segments ≠ [] ∧ (∀ segment ∈ segments, HoldsNoOpener segment.toList) ∧
      ∀ segment ∈ segments.dropLast, segment.toList.getLast? ≠ some '\x7b' :=
  ⟨fun h => ⟨h.nonempty, h.opener, h.last⟩, fun h => ⟨h.left, h.right.left, h.right.right⟩⟩

instance : DecidablePred IsCustom :=
  fun _ => decidable_of_iff _ isCustom_iff.symm

/-!
## Reading
-/

def segmentNodes (segment : String) : List Node :=
  if segment.toList.isEmpty then [] else [.text segment]

def sourceNodes (rest : List String) : List Node :=
  rest.flatMap fun segment => .output (.var "source_table") :: segmentNodes segment

def sourceTags (rest : List String) : List (String × List Char) :=
  rest.map fun segment => ("source_table", segment.toList)

section Reading

variable {first : String} {rest : List String}

theorem closes_source : Closes "source_table" := by
  rfl

theorem cleanAround_custom (h : IsCustom (first :: rest)) :
    CleanAround first.toList (sourceTags rest) := by
  obtain ⟨-, hopener, hlast⟩ := h
  induction rest generalizing first with
  | nil => exact hopener first List.mem_cons_self
  | cons second rest ih =>
      rw [List.dropLast_cons_cons] at hlast
      obtain ⟨hfirst, hrest⟩ := List.forall_mem_cons.mp hlast
      obtain ⟨hclean, hothers⟩ := List.forall_mem_cons.mp hopener
      exact ⟨⟨hclean, hfirst⟩, closes_source, ih hothers hrest⟩

theorem parse_source (name : String) :
    Expr.parse name (tagContent "source_table") = .ok (.var "source_table") := by
  have hwrites : WritesTag (Expr.var "source_table").bare (tagContent "source_table") :=
    writesTag_spread [.word "source_table"]
  exact hwrites.expr_parse name (by decide)

theorem tokens_segment (name : String) (a : Assembly) (segment : String) (tail : List Token) :
    a.tokens name (textTokens segment.toList ++ tail) =
      (a.addAll (segmentNodes segment)).tokens name tail := by
  unfold textTokens segmentNodes
  split
  · simp [Assembly.addAll]
  · simp [Assembly.tokens, Assembly.token, Assembly.add, Assembly.addAll, String.ofList_toList]

theorem tokens_sourceTags (name : String) (a : Assembly) (rest : List String) :
    a.tokens name (taggedTokens (sourceTags rest)) = .ok (a.addAll (sourceNodes rest)) := by
  induction rest generalizing a with
  | nil => simp [taggedTokens, sourceTags, sourceNodes, Assembly.tokens, Assembly.addAll]
  | cons segment rest ih =>
      have hfirst : a.token name (.output (tagContent "source_table")) =
          .ok (a.add (.output (.var "source_table"))) := by
        simp only [Assembly.token, parse_source]
      have htokens : taggedTokens (sourceTags (segment :: rest)) =
          .output (tagContent "source_table") ::
            (textTokens segment.toList ++ taggedTokens (sourceTags rest)) := rfl
      rw [htokens, Assembly.tokens, hfirst]
      change Assembly.tokens name _ _ = _
      rw [tokens_segment, ih]
      simp [Assembly.addAll, Assembly.add, sourceNodes]

theorem parse_custom (name : String) (h : IsCustom (first :: rest)) :
    Body.parse name (customText (first :: rest)) =
      .ok ⟨segmentNodes first ++ sourceNodes rest, []⟩ := by
  have htext : (customText (first :: rest)).toList = first.toList ++ tagged (sourceTags rest) :=
    toList_join_tag "source_table" first rest
  have htokens : tokenize (customText (first :: rest)).toList =
      .ok (textTokens first.toList ++ taggedTokens (sourceTags rest)) := by
    rw [htext]
    exact (cleanAround_custom h).tokenize_eq
  have hassembled : Assembly.empty.tokens name
      (textTokens first.toList ++ taggedTokens (sourceTags rest)) =
        .ok ⟨segmentNodes first ++ sourceNodes rest, [], []⟩ := by
    rw [tokens_segment, tokens_sourceTags]
    rfl
  simp only [Body.parse, htokens, Body.ofTokens, hassembled, Assembly.finish]

end Reading

/-!
## Writing
-/

section Writing

variable {scene : Scene} {calls : Calls} {x y : State} {source text : String}
  {segments : List String}

theorem yields_segment {segment : String} :
    Yields (execAll scene calls (segmentNodes segment)) x text y ↔ segment = text ∧ x = y := by
  unfold segmentNodes
  split
  case isTrue hempty =>
    rw [yields_execAll_nil, String.toList_eq_nil_iff.mp (List.isEmpty_iff.mp hempty)]
  case isFalse => simp [and_comm]

theorem yields_customNodes (hsource : find? "source_table" x.frames = some (.str source))
    (first : String) (rest : List String) :
    Yields (execAll scene calls (segmentNodes first ++ sourceNodes rest)) x text y ↔
      Text.join source (first :: rest) = text ∧ x = y := by
  induction rest generalizing first text with
  | nil => simp [sourceNodes, yields_segment, Text.join]
  | cons second rest ih =>
      have hnodes : sourceNodes (second :: rest) =
          .output (.var "source_table") :: (segmentNodes second ++ sourceNodes rest) := rfl
      rw [hnodes, yields_execAll_append]
      simp [yields_segment, hsource, ih, Text.join, String.append_assoc, and_comm]

theorem yields_render_custom (hmacros : scene.template.body.macros = []) (h : IsCustom segments)
    (hsql : find? "sql" x.frames = some (.str (customText segments)))
    (hsource : find? "source_table" x.frames = some (.str source)) (hdepth : x.depth < depthLimit)
    {b : Nat} {value : Value} :
    Yields (eval scene (.within scene (b + 1)) (ask "render" [.var "sql"])) x value y ↔
      .str (Text.join source segments) = value ∧ x = y := by
  cases segments with
  | nil => exact absurd rfl h.nonempty
  | cons first rest =>
      have hparse : Body.parse scene.template.name
          (Value.str (customText (first :: rest))).display =
            .ok ⟨segmentNodes first ++ sourceNodes rest, []⟩ := by
        rw [Value.display_str]
        exact parse_custom _ h
      have hinner : find? "source_table" { x with depth := x.depth + 1 }.frames =
          some (.str source) := hsource
      have hbody : (Calls.within scene (b + 1)).body = execAll scene (.within scene b) := rfl
      have heval : eval scene (.within scene (b + 1)) (ask "render" [.var "sql"]) x = _ :=
        eval_render hmacros hsql hparse
      have hrun :
          Yields (eval scene (.within scene (b + 1)) (ask "render" [.var "sql"])) x value y ↔
          Yields (Action.nested scene.template.name
            (execAll scene (.within scene b) (segmentNodes first ++ sourceNodes rest)) >>=
              fun text => pure (.str text)) x value y := by
        unfold Yields
        rw [heval, hbody]
      rw [hrun]
      simp [yields_nested, hdepth, yields_customNodes hinner]
      exact ⟨fun ⟨hafter, htext⟩ => ⟨htext, hafter.symm⟩, fun ⟨htext, hbefore⟩ =>
        ⟨hbefore.symm, htext⟩⟩

theorem yields_applyNodes (hmacros : scene.template.body.macros = []) (h : IsCustom segments)
    {columns : Value} (hargs : scene.context.arguments =
      [("sql", .str (customText segments)), ("output_columns", columns)]) {b : Nat} :
    Yields (execAll scene (.within scene (b + 1)) applyNodes) scene.start text y ↔
      CanState columns ∧ Text.join scene.context.source segments ++ "\n" = text ∧
        y = { scene.start with declared := statedColumns columns } := by
  have hframes : scene.start.frames = [[("sql", .str (customText segments)),
      ("output_columns", columns), ("source_table", .str scene.context.source)]] := by
    simp [Scene.start, Scene.globals, hargs, Keyed.put]
  have hcolumns : find? "output_columns" scene.start.frames = some columns := by
    rw [hframes]
    rfl
  have hsql : find? "sql" scene.start.frames = some (.str (customText segments)) := by
    rw [hframes]
    rfl
  have hsource : find? "source_table" scene.start.frames = some (.str scene.context.source) := by
    rw [hframes]
    rfl
  have hdepth : scene.start.depth < depthLimit := by
    change 0 < depthLimit
    decide
  have hrendered : ∀ (value : Value) (z : State),
      Yields (eval scene (.within scene (b + 1)) (ask "render" [.var "sql"]))
        { scene.start with declared := statedColumns columns } value z ↔
        .str (Text.join scene.context.source segments) = value ∧
          { scene.start with declared := statedColumns columns } = z := by
    intro value z
    apply yields_render_custom hmacros h
    · exact hsql
    · exact hsource
    · exact hdepth
  simp only [applyNodes, yields_execAll_cons, yields_stated hmacros hcolumns rfl, yields_output,
    yields_text, yields_execAll_nil]
  constructor
  · rintro ⟨_, _, ⟨hcan, rfl, rfl⟩, _, ⟨_, _, ⟨_, hvalue, rfl⟩, _, ⟨_, _, ⟨rfl, rfl⟩, _,
      ⟨rfl, rfl⟩, rfl⟩, rfl⟩, rfl⟩
    rcases (hrendered _ _).mp hvalue with ⟨rfl, rfl⟩
    refine ⟨hcan, ?_, rfl⟩
    simp
  · rintro ⟨hcan, rfl, rfl⟩
    refine ⟨"", _, ⟨hcan, rfl, rfl⟩, _, ⟨_, _, ⟨_, (hrendered _ _).mpr ⟨rfl, rfl⟩, rfl⟩, _,
      ⟨_, _, ⟨rfl, rfl⟩, _, ⟨rfl, rfl⟩, rfl⟩, rfl⟩, ?_⟩
    simp

end Writing

/-!
## Rendering
-/

/-- The segments with the source between them, without the white space at both ends. -/
def withSource (source : String) (segments : List String) : String :=
  Text.trim (Text.join source segments)

section Rendering

variable {template : Template} {context : Context} {segments : List String} {columns : Value}

structure GivenText (template : Template) (context : Context) (segments : List String)
    (columns : Value) : Prop where
  body_eq : template.body = ⟨applyNodes, []⟩
  arguments_eq :
    context.arguments = [("sql", .str (customText segments)), ("output_columns", columns)]
  custom : IsCustom segments

theorem GivenText.render_eq (h : GivenText template context segments columns)
    (hcan : CanState columns) :
    render template context =
      if withSource context.source segments = "" then .error (.emptyRender template.name)
      else .ok ⟨withSource context.source segments, declaredOutput (statedColumns columns)⟩ := by
  have hrun : Scene.run ⟨template, context⟩ callBudget =
      (.done (Text.join context.source segments ++ "\n"),
        { Scene.start ⟨template, context⟩ with declared := statedColumns columns }) := by
    unfold Scene.run
    rw [h.body_eq]
    exact (yields_applyNodes (congrArg Body.macros h.body_eq) h.custom h.arguments_eq).mpr
      ⟨hcan, rfl, rfl⟩
  have htrim : Text.trim (Text.join context.source segments ++ "\n") =
      withSource context.source segments :=
    Text.trim_append_blank (List.forall_mem_singleton.mpr (by decide)) _
  unfold render
  simp only [hrun, htrim]

theorem GivenText.canState (h : GivenText template context segments columns) {rendered : Rendered}
    (hrender : render template context = .ok rendered) : CanState columns := by
  rcases render_eq_ok_iff.mp hrender with ⟨text, after, hrun, -, -⟩
  unfold Scene.run at hrun
  rw [h.body_eq] at hrun
  exact ((yields_applyNodes (congrArg Body.macros h.body_eq) h.custom h.arguments_eq).mp
    hrun).left

end Rendering

theorem values_of_text {transform : Transform} {args : Keyed Argument} {ns : Option Namespace}
    {bound : Bound} {text : String}
    (hparameters : transform.parameters = applyListing.parameters)
    (hgiven : Keyed.get? "sql" args = some (.str text)) (h : transform.bind args ns = .ok bound) :
    ∃ columns, bound.values = [("sql", .str text), ("output_columns", columns)] := by
  have hbind := Transform.bindParameters_of_bind h
  rw [hparameters] at hbind
  simp only [applyListing, Transform.bindParameters_cons, Transform.bindParameters_nil] at hbind
  rcases hbind with ⟨sql, _, hsql, ⟨columns, _, -, rfl, rfl⟩, hentries⟩
  have hsame : sql = .str text := Transform.eq_str_of_bindParameter (by decide) hgiven hsql
  rw [hsame] at hentries
  exact ⟨columns.toValue, by rw [Bound.values, ← hentries]; rfl⟩

end Library
end TransformChain
