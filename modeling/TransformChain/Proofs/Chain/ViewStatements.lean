import TransformChain.Proofs.Chain.Containment
import TransformChain.Proofs.Chain.Views
import TransformChain.Proofs.Sql.Statements

/-!
# Statements of a view chain

The views of a chain are created by one statement for each step, and a semicolon stands right
behind the SQL of each.  They are found again as long as no step ends in a line comment.  A step
that does hides its semicolon, and its statement runs on into the next one.
-/

namespace TransformChain
namespace Chain

def viewStatement (ns : Namespace) (view : StepFragment) : String :=
  "CREATE OR REPLACE VIEW " ++ (ns.table view.name).display ++ " AS\n" ++ view.sql

theorem createStatement_eq_viewStatement (ns : Namespace) (view : StepFragment) :
    Sql.createStatement .view (ns.table view.name).display view.sql = viewStatement ns view := by
  have hcreate : "CREATE OR REPLACE " ++ TableKind.view.keyword ++ " " =
      "CREATE OR REPLACE VIEW " := by decide
  unfold Sql.createStatement viewStatement
  rw [hcreate]

theorem viewChain_eq {chain : Chain} {ns : Namespace} {steps : List StepFragment}
    (h : chain.renderSteps (viewReference ns) = .ok steps) :
    chain.viewChain ns =
      .ok (Text.join "\n\n" ((steps.map (viewStatement ns)).map fun text => text ++ ";")) := by
  unfold viewChain
  simp only [h, List.map_map, Function.comp_def, createStatement_eq_viewStatement]

/-!
## Heads of the statements
-/

def viewHead (ns : Namespace) (name : String) : List Char :=
  "CREATE OR REPLACE VIEW ".toList ++
    (ns.display.toList ++ ('.' :: name.toList ++ " AS\n".toList))

theorem toList_viewStatement (ns : Namespace) (view : StepFragment) :
    (viewStatement ns view).toList = viewHead ns view.name ++ view.sql.toList := by
  have hdot : ".".toList = ['.'] := rfl
  have hdisplay : (ns.table view.name).display = ns.display ++ "." ++ view.name := rfl
  unfold viewStatement viewHead
  rw [hdisplay]
  simp only [String.toList_append, List.append_assoc, hdot, List.cons_append,
    List.nil_append]

theorem beginsSolid_viewStatement (ns : Namespace) (view : StepFragment) :
    Sql.BeginsSolid (viewStatement ns view).toList := by
  have hcreate : Sql.BeginsSolid "CREATE OR REPLACE VIEW ".toList :=
    ⟨'C', "REATE OR REPLACE VIEW ".toList, by decide +kernel, by decide, by decide⟩
  rw [toList_viewStatement]
  exact (hcreate.append _).append _

theorem ne_semicolon_of_isIdentifier {name : String} (h : Text.isIdentifier name = true) :
    ∀ c ∈ name.toList, Sql.isOrdinary c = true ∧ c ≠ ';' := by
  intro c hc
  refine ⟨Sql.isOrdinary_of_isIdentifier h c hc, ?_⟩
  rintro rfl
  exact absurd (Text.isIdentifierChar_of_mem h hc) (by decide)

section Head

variable {ns : Namespace} (hclosed : Sql.Closed ns.display)
  (hns : Sql.hasSemicolon .plain ns.display.toList = false)
include hclosed hns

theorem after_viewHead {name : String} (hname : Text.isIdentifier name = true) :
    Sql.Mode.plain.after (viewHead ns name) = .plain ∧
      Sql.hasSemicolon .plain (viewHead ns name) = false := by
  have hcreate : Sql.Mode.plain.after "CREATE OR REPLACE VIEW ".toList = .plain ∧
      Sql.hasSemicolon .plain "CREATE OR REPLACE VIEW ".toList = false := by decide +kernel
  have hrest : ∀ c ∈ '.' :: name.toList ++ " AS".toList,
      Sql.isOrdinary c = true ∧ c ≠ ';' :=
    List.forall_mem_append.mpr ⟨List.forall_mem_cons.mpr
      ⟨by decide, ne_semicolon_of_isIdentifier hname⟩, Sql.forall_mem_of_all (by decide)⟩
  have hquiet := Sql.isQuiet_after hrest hclosed.isQuiet
  have hhead : viewHead ns name = ("CREATE OR REPLACE VIEW ".toList ++ (ns.display.toList ++
      ('.' :: name.toList ++ " AS".toList))) ++ ['\n'] := by
    have hlast : " AS\n".toList = " AS".toList ++ ['\n'] := by decide
    unfold viewHead
    rw [hlast]
    simp only [List.append_assoc, List.cons_append]
  have hafter : Sql.Mode.plain.after ("CREATE OR REPLACE VIEW ".toList ++ (ns.display.toList ++
      ('.' :: name.toList ++ " AS".toList))) =
        (Sql.Mode.plain.after ns.display.toList).after ('.' :: name.toList ++ " AS".toList) := by
    rw [Sql.Mode.after_append, hcreate.left, Sql.Mode.after_append]
  rw [hhead]
  constructor
  · rw [Sql.Mode.after_append, hafter]
    exact (Sql.Mode.next_lineFeed_eq_plain_iff _).mpr hquiet.left
  · rw [Sql.hasSemicolon_append, hafter, Sql.hasSemicolon_append, hcreate.left, hcreate.right,
      Sql.hasSemicolon_append, hns, hquiet.right]
    simp [Sql.hasSemicolon]

/-- Of a closed text without semicolons only a line comment at its end keeps the next one away. -/
theorem terminable_viewStatement_iff {view : StepFragment}
    (hname : Text.isIdentifier view.name = true) (hsql : Sql.Closed view.sql)
    (hsemicolon : Sql.hasSemicolon .plain view.sql.toList = false) :
    Sql.Terminable (viewStatement ns view) ↔ ¬Sql.EndsInLineComment view.sql := by
  obtain ⟨hafter, hhead⟩ := after_viewHead hclosed hns hname
  unfold Sql.Terminable Sql.EndsInLineComment
  rw [toList_viewStatement, Sql.hasSemicolon_append, Sql.Mode.after_append, hafter, hhead,
    hsemicolon]
  constructor
  · rintro ⟨-, hplain⟩ hcomment
    rw [hcomment] at hplain
    cases hplain
  · intro hcomment
    exact ⟨rfl, hsql.isQuiet.resolve_right hcomment⟩

end Head

/-!
## Scripts
-/

/-- The statements of the script that creates the views of a chain are those of its steps, in order
and each with the SQL of its step, exactly if each of them, read by itself, can be ended by a
semicolon.  For closed texts without semicolons, in a namespace of that kind, this is so exactly if
none of them ends in a line comment. -/
theorem Reachable.views_split_iff {chain : Chain} (h : Reachable chain) {ns : Namespace}
    {steps : List StepFragment} (hsteps : chain.renderSteps (viewReference ns) = .ok steps) :
    ∃ script, chain.viewChain ns = .ok script ∧ steps.length = chain.depth ∧
      chain.ViewsOf ns steps ∧
      (Sql.statements script = steps.map (fun view =>
          "CREATE OR REPLACE VIEW " ++ (ns.table view.name).display ++ " AS\n" ++ view.sql) ↔
        ∀ view ∈ steps, Sql.Terminable
          ("CREATE OR REPLACE VIEW " ++ (ns.table view.name).display ++ " AS\n" ++ view.sql)) ∧
      (Sql.Closed ns.display → Sql.hasSemicolon .plain ns.display.toList = false →
        (∀ view ∈ steps, Sql.Closed view.sql ∧
          Sql.hasSemicolon .plain view.sql.toList = false) →
        (Sql.statements script = steps.map (fun view =>
            "CREATE OR REPLACE VIEW " ++ (ns.table view.name).display ++ " AS\n" ++ view.sql) ↔
          ∀ view ∈ steps, ¬Sql.EndsInLineComment view.sql)) := by
  have hviews := h.viewsOf hsteps
  have hsolid : ∀ text ∈ steps.map (viewStatement ns), Sql.BeginsSolid text.toList :=
    List.forall_mem_map.mpr fun view _ => beginsSolid_viewStatement ns view
  have hsplit := Sql.statements_join_eq_iff hsolid
  rw [List.forall_mem_map] at hsplit
  refine ⟨_, viewChain_eq hsteps, length_renderSteps hsteps, hviews, hsplit, ?_⟩
  intro hclosed hns htexts
  refine hsplit.trans (forall₂_congr fun view hmem => ?_)
  have hname : Text.isIdentifier view.name = true := by
    apply h.wellNamed.identifiers
    rw [← hviews.names]
    exact List.mem_map_of_mem hmem
  exact terminable_viewStatement_iff hclosed hns hname (htexts view hmem).left
    (htexts view hmem).right

theorem copiedTwice_views_split :
    Reachable copiedTwice ∧ ∃ steps script,
      copiedTwice.renderSteps (viewReference ⟨"A", "B"⟩) = .ok steps ∧
      copiedTwice.viewChain ⟨"A", "B"⟩ = .ok script ∧
      Sql.statements script =
        ["CREATE OR REPLACE VIEW A.B.step_2_copy AS\nSELECT * FROM (\nSELECT 1 AS N\n)",
          "CREATE OR REPLACE VIEW A.B.STEP_2_COPY_2 AS\nSELECT * FROM A.B.step_2_copy"] := by
  have hsteps : copiedTwice.renderSteps (viewReference ⟨"A", "B"⟩) =
      .ok [⟨"step_2_copy", "copy", "SELECT * FROM (\nSELECT 1 AS N\n)", numbers.asInput,
          none⟩,
        ⟨"STEP_2_COPY_2", "copy", "SELECT * FROM A.B.step_2_copy", .step "step_2_copy", none⟩] := by
    rfl
  rcases reachable_copiedTwice.views_split_iff hsteps with
    ⟨script, hscript, -, -, -, hclosed⟩
  have hns : Sql.Closed (Namespace.display ⟨"A", "B"⟩) := by decide +kernel
  have hall := (hclosed hns (by decide +kernel) (by decide +kernel)).mpr (by decide +kernel)
  refine ⟨reachable_copiedTwice, _, script, hsteps, hscript, ?_⟩
  rw [hall]
  decide +kernel

/-- The remark takes the semicolon behind it along, and the two statements become one, although both
steps are closed and hold no semicolon. -/
theorem annotated_views_run_together :
    Reachable annotated ∧ annotated.depth = 2 ∧ ∃ steps script,
      annotated.renderSteps (viewReference ⟨"A", "B"⟩) = .ok steps ∧
      (∀ view ∈ steps, Sql.Closed view.sql ∧
        Sql.hasSemicolon .plain view.sql.toList = false) ∧
      annotated.viewChain ⟨"A", "B"⟩ = .ok script ∧
      script = "CREATE OR REPLACE VIEW A.B.STEP_1_FILTER AS\nSELECT\n  N\nFROM (\n" ++
        "SELECT 1 AS N\n)\nWHERE\n  N > 0 -- positive (that's all;\n\n" ++
        "CREATE OR REPLACE VIEW A.B.STEP_2_ORDER AS\nSELECT\n  N\n" ++
        "FROM A.B.STEP_1_FILTER\nORDER BY N DESC;" ∧
      (Sql.statements script).length = 1 := by
  have hsteps : annotated.renderSteps (viewReference ⟨"A", "B"⟩) =
      .ok [⟨"STEP_1_FILTER", "filter",
          "SELECT\n  N\nFROM (\nSELECT 1 AS N\n)\nWHERE\n  " ++ annotation, numbers.asInput,
          some [⟨"N", none⟩]⟩,
        ⟨"STEP_2_ORDER", "order", "SELECT\n  N\nFROM A.B.STEP_1_FILTER\nORDER BY N DESC",
          .step "STEP_1_FILTER", some [⟨"N", none⟩]⟩] :=
    eq_ok_of_toOption (by decide +kernel)
  refine ⟨reachable_annotated, rfl, _, _, hsteps, by decide +kernel, ?_, rfl, ?_⟩
  · rw [viewChain_eq hsteps]
    exact congrArg Except.ok (by decide +kernel)
  · unfold Sql.statements
    simp only [String.toList_append, List.length_map]
    decide +kernel

end Chain
end TransformChain
