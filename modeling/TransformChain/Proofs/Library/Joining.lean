import TransformChain.Proofs.Library.Columns

/-!
# Joins

What the template selects that joins a second dataset: the columns of both, the second ones under
prefixed names.
-/

namespace TransformChain
namespace Library

open Template
open Template.Action
open Template.Function (namesIn typeIn typedNames schemaOf)
open Item

section Templates

variable {scene : Scene} {calls : Calls} {text : String} {after : State}
variable {i length depth : Nat} {outer : List Frame} {declared : Schema}

/-- What is put before the names of the partner's columns: what the caller gave, or else the last
part of the partner's label. -/
def joinPrefix (given : Value) (label : String) : Value :=
  if given.holds then given else .str (String.ofList (Text.afterLast '.' label.toList))

def joined (first : Value) (entry : String × Value) : Item :=
  ⟨.computed ("r." ++ entry.1),
    ⟨Text.cleanse (first.display ++ "_" ++ entry.1), typeIn (some entry.2)⟩⟩

def pairPiece (length i : Nat) (pair : String × Value) : String :=
  (if i == 0 then "" else "AND ") ++ ("l." ++ (pair.1 ++ (" = r." ++ (pair.2.display ++
    if i + 1 == length then "" else " "))))

def joinText (table kind : Value) (pairs : List (String × Value)) : String :=
  " l\n" ++ (Text.upper kind.display ++ (" JOIN " ++ (table.display ++
    (" r\n  ON " ++ pieces (pairPiece pairs.length) 0 pairs))))

theorem joinedLine_adds (hmacros : scene.template.body.macros = []) {first : Value}
    {entry : String × Value} (hfirst : find? "prefix" outer = some first)
    (h : Yields (execAll scene calls joinedLine)
      ⟨[("col", .str entry.1), ("col_type", entry.2), ("loop", loopInfo i length)] :: outer,
        declared, depth⟩ text after) :
    Adds (joined first entry) (true && i + 1 == length) outer declared depth text after := by
  simp [joinedLine, yields_joinedName hmacros, yields_declare hmacros, find?, Keyed.get?,
    Keyed.put, hfirst] at h
  rcases h with ⟨last, ⟨-, hlast⟩, rfl⟩
  exact loopEnd_adds rfl hlast (by simp [← String.toList_inj, joined, Item.line])

theorem pairs_yields {pairs : List (String × Value)}
    (hpairs : find? "join_columns" outer = some (.map pairs))
    (h : Yields (exec scene calls
      (forEntries "left" "right" (askItself (.var "join_columns") "items") pairEntry))
      ⟨outer, declared, depth⟩ text after) :
    text = pieces (pairPiece pairs.length) 0 pairs ∧ after = ⟨outer, declared, depth⟩ := by
  rcases forEntries_yields (fun _ => True) (pairPiece pairs.length) (fun _ => [])
    (by decide) (by decide) (by decide) h (items_entries hpairs) (by
      intro i pair declared text after hentry
      simp [pairEntry, find?, Keyed.get?] at hentry
      rcases hentry with ⟨rfl, rfl⟩
      simp [pairPiece]) with ⟨-, rfl, rfl⟩
  simp

theorem partnerColumns_entries (hmacros : scene.template.body.macros = []) {before : State}
    {subject label : String} {table : Value} {partner : Schema}
    (htable : find? subject before.frames = some table)
    (hpartner : schemaOf scene (some table) = .ok (partner, label)) :
    ∀ v between,
      Yields (eval scene calls (askItself (ask "get_columns" [.var subject]) "items")) before v
        between →
      v = .list (Operation.pairValues (typedNames partner)) ∧ between = before := by
  intro v between h
  simp only [yields_askItself, yields_getColumnsOf hmacros, htable, Option.some.injEq] at h
  rcases h with ⟨_, ⟨_, rfl, _, _, hfound, rfl, rfl⟩, hvalue⟩
  rw [hpartner] at hfound
  cases hfound
  cases hvalue
  exact ⟨rfl, rfl⟩

theorem contains_texts (names : List String) (name : String) :
    Operation.contains (.list (names.map Value.str)) (.str name) = .ok (names.contains name) := by
  have hany : ((names.map Value.str).any fun item => item.looselyEquals (.str name)) =
      names.contains name := by
    induction names with
    | nil => rfl
    | cons first rest ih =>
        rw [List.map_cons, List.any_cons, ih, Value.looselyEquals_str, List.contains_cons,
          Bool.beq_comm]
  rw [← hany]
  rfl

theorem yields_texts (names : List String) {values : List Value} {before : State} :
    Yields (evalAll scene calls (names.map fun name => .lit (.str name))) before values after ↔
      names.map Value.str = values ∧ before = after := by
  induction names generalizing before values with
  | nil => exact yields_evalAll_nil
  | cons name rest ih =>
      simp only [List.map_cons, yields_evalAll_cons, yields_eval_lit, ih]
      constructor
      · rintro ⟨_, _, ⟨rfl, rfl⟩, _, ⟨rfl, rfl⟩, rfl⟩
        exact ⟨rfl, rfl⟩
      · rintro ⟨rfl, rfl⟩
        exact ⟨_, _, ⟨rfl, rfl⟩, _, ⟨rfl, rfl⟩, rfl⟩

def typeGuard : Node :=
  .branch
    [(.binary .notMem (.filter (.var "join_type") "upper" [])
        (.list (joinTypes.map fun type => .lit (.str type))),
      abort (.binary .concat (.lit (.str "unsupported join_type ")) (.var "join_type")))]
    []

theorem yields_typeGuard (hmacros : scene.template.body.macros = []) {kind : Value} {before : State}
    (hkind : find? "join_type" before.frames = some kind) :
    Yields (exec scene calls typeGuard) before text after ↔
      joinTypes.contains (Text.upper kind.display) = true ∧ "" = text ∧ before = after := by
  simp only [typeGuard, yields_branch, yields_notMem, yields_upper, yields_list, yields_texts,
    hkind, yields_abort hmacros, yields_execAll_nil]
  constructor
  · rintro ⟨_, _, ⟨_, _, ⟨_, ⟨⟩, rfl, rfl⟩, _, ⟨_, ⟨rfl, rfl⟩, rfl⟩, hmissing⟩, h⟩
    rw [contains_texts] at hmissing
    cases hmissing
    cases hknown : joinTypes.contains (Text.upper kind.display) with
    | true =>
        rw [hknown] at h
        exact ⟨rfl, h⟩
    | false =>
        rw [hknown] at h
        exact h.elim
  · rintro ⟨hknown, htext⟩
    refine ⟨.bool false, before, ⟨_, _, ⟨kind, rfl, rfl, rfl⟩, _, ⟨_, ⟨rfl, rfl⟩, rfl⟩, ?_⟩, htext⟩
    rw [contains_texts, hknown]
    rfl

theorem join_selects (hmacros : scene.template.body.macros = []) {table kind given : Value}
    {pairs : List (String × Value)}
    (hargs : scene.context.arguments =
      [("join_table", table), ("join_columns", .map pairs), ("join_type", kind),
        ("join_prefix", given)])
    (h : Yields (execAll scene calls joinNodes) scene.start text after) :
    ∃ schema partner label, scene.context.input = some schema ∧
      schemaOf scene (some table) = .ok (partner, label) ∧
      Text.upper kind.display ∈ joinTypes ∧
      (∀ name ∈ pairs.map Prod.fst, schema.has name = true) ∧
      (∀ pair ∈ pairs, partner.has pair.2.display = true) ∧
      Selects scene text after
        ((typedNames schema).map (kept .left) ++
          (typedNames partner).map (joined (joinPrefix given label)))
        (joinText table kind pairs) := by
  have hkind : find? "join_type" scene.start.frames = some kind := by
    simp [Scene.start, Scene.globals, hargs, Keyed.put, find?, Keyed.get?]
  rw [joinNodes, yields_execAll_cons] at h
  rcases h with ⟨_, _, hguard, _, hrest, rfl⟩
  rcases (yields_guard hmacros).mp hguard with ⟨_, hgiven, hholds, rfl, rfl⟩
  rw [yields_execAll_cons] at hrest
  rcases hrest with ⟨_, _, htype, _, hrest, rfl⟩
  rcases (yields_typeGuard hmacros hkind).mp htype with ⟨hknown, rfl, rfl⟩
  simp [Scene.start, Scene.globals, hargs, Keyed.put, yields_check_input hmacros,
    yields_check hmacros, yields_datasetName hmacros, find?, Keyed.get?] at hgiven hrest
  cases hgiven
  rcases hrest with ⟨⟨schema, hinput, hhas⟩, between, first, middle, second, last, source, word,
    partnerText, clause,
    ⟨⟨partner, ⟨label, hpartner⟩, hpartnerHas⟩, ⟨v, start, hstart, hassign⟩, hfirst, hsecond,
      hsource, hword, htable, hclause⟩, rfl⟩
  have hlabel := Function.labelOf_of_schemaOf hpartner
  have hbefore : v = joinPrefix given label ∧ start = ⟨[[("join_table", table),
      ("join_columns", .map pairs), ("join_type", kind), ("join_prefix", given),
      ("source_table", .str scene.context.source)]], [], 0⟩ := by
    unfold joinPrefix
    cases hgiven : given.holds with
    | true =>
        rw [if_pos hgiven] at hstart
        exact ⟨hstart.left.symm, hstart.right.symm⟩
    | false =>
        rw [if_neg (by simp [hgiven])] at hstart
        rcases hstart with ⟨found, hfound, rfl, rfl⟩
        rw [hlabel] at hfound
        cases hfound
        exact ⟨rfl, rfl⟩
  rcases hbefore with ⟨rfl, rfl⟩
  simp [Keyed.put] at hassign
  subst hassign
  rcases keptColumns_open hmacros left_line hfirst (inputColumns_entries hmacros hinput)
    with ⟨rfl, rfl⟩
  rcases forEntries_adds true (joined (joinPrefix given label)) (by decide) (by decide)
    (by decide) hsecond (partnerColumns_entries hmacros rfl hpartner)
    (fun _ _ _ _ _ hline => joinedLine_adds hmacros rfl hline)
    with ⟨rfl, rfl⟩
  rcases pairs_yields rfl hclause with ⟨rfl, rfl⟩
  cases hsource
  cases hword
  cases htable
  have hpairs : ∀ pair ∈ pairs, partner.has pair.2.display = true := by
    intro pair hmem
    apply hpartnerHas
    simp only [namesIn, List.map_map]
    exact List.mem_map.mpr ⟨pair, hmem, rfl⟩
  have hne : typedNames partner ≠ [] := by
    rcases List.exists_mem_of_ne_nil _ (Value.ne_nil_of_holds_map hholds) with ⟨pair, hmem⟩
    apply Function.typedNames_ne_nil
    rintro rfl
    exact absurd (hpairs pair hmem) (by simp [Schema.has, Schema.find?])
  refine ⟨schema, partner, label, hinput, hpartner, List.contains_iff_mem.mp hknown, hhas, hpairs,
    ?_, by simp⟩
  rw [listText_append_map hne]
  simp [endedText, joinText, String.append_assoc]

end Templates

end Library
end TransformChain
