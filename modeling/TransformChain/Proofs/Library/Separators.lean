import TransformChain.Proofs.Library.Clauses
import TransformChain.Proofs.Template.Points
import TransformChain.Proofs.Template.TemplateReading

/-!
# Separators

A loop that writes a separator behind each item but the last one, a loop that writes it in front of
each item but the first one, and the filter that joins the items write the same text.  The loops ask
their own `loop` for the place of the item, which hides those of the loops around them.
-/

namespace TransformChain
namespace Template

open Grammar

/-!
## Tags without text between them
-/

inductive WritesTags : List Piece → List Char → Prop where
  | nil : WritesTags [] []
  | output {expr : Expr} {ps : List Piece} {inside cs : List Char} :
      WritesTag expr.bare inside → WritesTags ps cs →
      WritesTags (.output expr :: ps) (TagKind.output.tagText inside ++ cs)
  | block {statement : Statement} {ps : List Piece} {inside cs : List Char} :
      WritesTag statement.lexemes inside → WritesTags ps cs →
      WritesTags (.block statement :: ps) (TagKind.block.tagText inside ++ cs)

section Tags

variable {template : String} {ps : List Piece} {cs : List Char}

theorem breakAtTag_of_writesTags (h : WritesTags ps cs) : breakAtTag cs = ([], cs) := by
  cases h with
  | nil => rfl
  | output _ _ => exact breakAtTag_tagText _ _ _
  | block _ _ => exact breakAtTag_tagText _ _ _

theorem scans_of_writesTags (h : WritesTags ps cs) (hps : ps.all Piece.isWritable = true) :
    Scans template ps [] cs cs.length := by
  induction h with
  | nil =>
      refine fun budget _ => ⟨[], ?_, ?_, .nil⟩
      · cases budget <;> rfl
      · exact fun _ hpart => absurd hpart List.not_mem_nil
  | @output expr ps inside cs htag hrest ih =>
      rw [List.all_cons, Bool.and_eq_true] at hps
      exact scans_tag (by decide) htag (tame_bare expr hps.left) (breakAtTag_of_writesTags hrest)
        rfl (.output (htag.expr_parse template hps.left)) (ih hps.right)
  | @block statement ps inside cs htag hrest ih =>
      rw [List.all_cons, Bool.and_eq_true] at hps
      exact scans_tag (by decide) htag (tame_statement hps.left) (breakAtTag_of_writesTags hrest)
        rfl (.block (htag.statement_parse template hps.left)) (ih hps.right)

theorem Body.parse_of_writesTags {body : Body} {text : String} (h : WritesTags ps text.toList)
    (hps : ps.all Piece.isWritable = true)
    (hall : Assembly.empty.takeAll ps = .ok ⟨body.nodes, [], body.macros⟩) :
    Body.parse template text = .ok body := by
  have hscans : Scans template ps [] text.toList text.toList.length := scans_of_writesTags h hps
  rcases tokenize_of_scans (breakAtTag_of_writesTags h) hscans with ⟨tokens, htokens, htells⟩
  exact Body.parse_of_tells htokens htells hall

theorem spellsApart_tight {l : Lexeme} {ls : List Lexeme} {mid rest : List Char}
    (hbrace : l ≠ .symbol "\x7d") (hends : l.endsBefore mid = true) (h : SpellsApart ls mid rest) :
    SpellsApart (l :: ls) (l.chars ++ mid) rest := by
  have hspaced : SpellsApart (l :: ls) ([] ++ (l.chars ++ mid)) rest :=
    .cons (fun _ hc => absurd hc List.not_mem_nil) (fun heq => absurd heq hbrace) hends h
  exact hspaced

theorem spellsApart_spread_append {ls ls' : List Lexeme} {mid rest : List Char}
    (hends : ∀ l ∈ ls.getLast?, l.endsBefore mid = true) (h : SpellsApart ls' mid rest) :
    SpellsApart (ls ++ ls') (spread ls ++ mid) rest := by
  induction ls with
  | nil => exact h
  | cons l ls ih =>
      rw [spread_cons, List.append_assoc, List.append_assoc]
      have hnext : l.endsBefore (spread ls ++ mid) = true := by
        cases ls with
        | nil => exact hends l rfl
        | cons next ls => exact endsBefore_of_head fun c hc => by cases hc; rfl
      refine .cons (List.all_eq_true.mp rfl) (fun _ => List.cons_ne_nil _ _) hnext (ih ?_)
      intro last hlast
      cases ls with
      | nil => cases hlast
      | cons next ls => exact hends last (by rw [List.getLast?_cons_cons]; exact hlast)

end Tags
end Template

namespace Library

open Template
open Template.Action

/-!
## The three templates
-/

def trailingText (item separator items : String) : String :=
  block ("for " ++ item ++ " in " ++ items) ++ put item ++ put (separator ++ " if not loop.last") ++
    block "endfor"

def leadingText (item separator items : String) : String :=
  block ("for " ++ item ++ " in " ++ items) ++ put (separator ++ " if not loop.first") ++
    put item ++ block "endfor"

def joiningText (separator items : String) : String :=
  put (items ++ " | join(" ++ separator ++ ")")

/-- What the separator is written by, unless the place in the loop is the one of that name. -/
def unlessPlace (place separator : String) : Expr :=
  .cond (.not (.attr (.var "loop") place)) (.var separator) none

def trailingNodes (item separator items : String) : List Node :=
  [.loop (.single item) (.var items)
    [.output (.var item), .output (unlessPlace "last" separator)] []]

def leadingNodes (item separator items : String) : List Node :=
  [.loop (.single item) (.var items)
    [.output (unlessPlace "first" separator), .output (.var item)] []]

def joiningNodes (separator items : String) : List Node :=
  [.output (.filter (.var items) "join" [.var separator])]

section Reading

variable {name item separator items text : String} {ps : List Piece} {rest : String}

theorem writesTags_put {expr : Expr} (h : WritesTag expr.bare (' ' :: (text.toList ++ [' '])))
    (hrest : WritesTags ps rest.toList) :
    WritesTags (.output expr :: ps) (put text ++ rest).toList := by
  have hwrites := WritesTags.output h hrest
  simpa [put, TagKind.tagText, TagKind.opener, TagKind.closer] using hwrites

theorem writesTags_block {statement : Statement}
    (h : WritesTag statement.lexemes (' ' :: (text.toList ++ [' '])))
    (hrest : WritesTags ps rest.toList) :
    WritesTags (.block statement :: ps) (block text ++ rest).toList := by
  have hwrites := WritesTags.block h hrest
  simpa [block, TagKind.tagText, TagKind.opener, TagKind.closer] using hwrites

theorem writesTags_endfor : WritesTags [.block .forEnd] (block "endfor").toList := by
  have hwrites : WritesTags [.block .forEnd] (block "endfor" ++ "").toList :=
    writesTags_block (writesTag_spread [.word "endfor"]) .nil
  rwa [String.append_empty] at hwrites

theorem writesTag_for (item items : String) :
    WritesTag (Statement.forStart (.single item) (.var items)).lexemes
      (' ' :: (("for " ++ item ++ " in " ++ items).toList ++ [' '])) := by
  have hlexemes : (Statement.forStart (.single item) (.var items)).lexemes =
      [.word "for", .word item, .word "in", .word items] := rfl
  have hwrites := writesTag_spread [.word "for", .word item, .word "in", .word items]
  rw [hlexemes]
  simpa [spread, Lexeme.chars] using hwrites

theorem writesTag_var (name : String) :
    WritesTag (Expr.var name).bare (' ' :: (name.toList ++ [' '])) := by
  have hlexemes : (Expr.var name).bare = [.word name] := rfl
  have hwrites := writesTag_spread [.word name]
  rw [hlexemes]
  simpa [spread, Lexeme.chars] using hwrites

theorem writesTag_unlessPlace (place separator : String) :
    WritesTag (unlessPlace place separator).bare
      (' ' :: ((separator ++ " if not loop." ++ place).toList ++ [' '])) := by
  have hlexemes : (unlessPlace place separator).bare =
      [.word separator, .word "if", .word "not", .word "loop"] ++ [.dotted place] := rfl
  have hends : ∀ l ∈ [Lexeme.word separator, .word "if", .word "not", .word "loop"].getLast?,
      l.endsBefore ('.' :: (place.toList ++ [' '])) = true := by
    intro l hl
    cases hl
    rfl
  have htail : SpellsApart [.dotted place] ('.' :: (place.toList ++ [' '])) [' '] :=
    spellsApart_tight (by simp) rfl .nil
  have hspells := spellsApart_spread_append hends htail
  refine ⟨rfl, [' '], rfl, List.all_eq_true.mp rfl, ?_⟩
  rw [hlexemes]
  simpa [spread, Lexeme.chars] using hspells

theorem writesTag_joining (separator items : String) :
    WritesTag (Expr.filter (.var items) "join" [.var separator]).bare
      (' ' :: ((items ++ " | join(" ++ separator ++ ")").toList ++ [' '])) := by
  have hlexemes : (Expr.filter (.var items) "join" [.var separator]).bare =
      [.word items, .symbol "|", .opening "join"] ++ [.word separator, .symbol ")"] := rfl
  have hends : ∀ l ∈ [Lexeme.word items, .symbol "|", .opening "join"].getLast?,
      l.endsBefore (separator.toList ++ ')' :: [' ']) = true := by
    intro l hl
    cases hl
    rfl
  have htail : SpellsApart [.word separator, .symbol ")"] (separator.toList ++ ')' :: [' '])
      [' '] :=
    spellsApart_tight (by simp) rfl (spellsApart_tight (by decide) rfl .nil)
  have hspells := spellsApart_spread_append hends htail
  refine ⟨rfl, [' '], rfl, List.all_eq_true.mp rfl, ?_⟩
  rw [hlexemes]
  simpa [spread, Lexeme.chars] using hspells

theorem isWritable_unlessPlace {place : String} (hplace : Text.isIdentifier place = true)
    (hseparator : isVariableName separator = true) :
    (unlessPlace place separator).isWritable = true := by
  have hloop : isVariableName "loop" = true := by decide
  simp [unlessPlace, Expr.isWritable, hloop, hplace, hseparator]

theorem isWritable_for (hitem : isVariableName item = true)
    (hitems : isVariableName items = true) :
    (Statement.forStart (.single item) (.var items)).isWritable = true := by
  simp [Statement.isWritable, LoopTarget.names, Expr.isWritable, hitem, hitems]

theorem parse_trailingText (name : String) (hitem : isVariableName item = true)
    (hseparator : isVariableName separator = true) (hitems : isVariableName items = true) :
    Body.parse name (trailingText item separator items) =
      .ok ⟨trailingNodes item separator items, []⟩ := by
  have hpieces : WritesTags [.block (.forStart (.single item) (.var items)), .output (.var item),
      .output (unlessPlace "last" separator), .block .forEnd]
      (trailingText item separator items).toList := by
    have hwrites := writesTags_block (writesTag_for item items) <|
      writesTags_put (writesTag_var item) <|
      writesTags_put (writesTag_unlessPlace "last" separator) writesTags_endfor
    have htext : separator ++ " if not loop." ++ "last" = separator ++ " if not loop.last" :=
      String.append_assoc
    rw [htext] at hwrites
    simpa only [trailingText, String.append_assoc] using hwrites
  refine Body.parse_of_writesTags hpieces ?_ rfl
  have hplace : (unlessPlace "last" separator).isWritable = true :=
    isWritable_unlessPlace (by decide) hseparator
  have hfor := isWritable_for hitem hitems
  have hvar : (Expr.var item).isWritable = true := hitem
  simp only [List.all_cons, List.all_nil, Piece.isWritable, hplace, hfor, hvar]
  rfl

theorem parse_leadingText (name : String) (hitem : isVariableName item = true)
    (hseparator : isVariableName separator = true) (hitems : isVariableName items = true) :
    Body.parse name (leadingText item separator items) =
      .ok ⟨leadingNodes item separator items, []⟩ := by
  have hpieces : WritesTags [.block (.forStart (.single item) (.var items)),
      .output (unlessPlace "first" separator), .output (.var item), .block .forEnd]
      (leadingText item separator items).toList := by
    have hwrites := writesTags_block (writesTag_for item items) <|
      writesTags_put (writesTag_unlessPlace "first" separator) <|
      writesTags_put (writesTag_var item) writesTags_endfor
    have htext : separator ++ " if not loop." ++ "first" = separator ++ " if not loop.first" :=
      String.append_assoc
    rw [htext] at hwrites
    simpa only [leadingText, String.append_assoc] using hwrites
  refine Body.parse_of_writesTags hpieces ?_ rfl
  have hplace : (unlessPlace "first" separator).isWritable = true :=
    isWritable_unlessPlace (by decide) hseparator
  have hfor := isWritable_for hitem hitems
  have hvar : (Expr.var item).isWritable = true := hitem
  simp only [List.all_cons, List.all_nil, Piece.isWritable, hplace, hfor, hvar]
  rfl

theorem parse_joiningText (name : String) (hseparator : isVariableName separator = true)
    (hitems : isVariableName items = true) :
    Body.parse name (joiningText separator items) = .ok ⟨joiningNodes separator items, []⟩ := by
  have hpieces : WritesTags [.output (.filter (.var items) "join" [.var separator])]
      (joiningText separator items ++ "").toList :=
    writesTags_put (writesTag_joining separator items) .nil
  rw [String.append_empty] at hpieces
  refine Body.parse_of_writesTags hpieces ?_ rfl
  have hjoin : Text.isIdentifier "join" = true := by decide
  simp [Piece.isWritable, Expr.isWritable, areWritable, hseparator, hitems, hjoin]

end Reading

/-!
## Rounds
-/

def roundFrame (name : String) (item : Value) (index length : Nat) : Frame :=
  Keyed.put "loop" (loopInfo index length) [(name, item)]

def inRound (state : State) (name : String) (item : Value) (index length : Nat) : State :=
  { state with frames := roundFrame name item index length :: state.frames }

section Frames

variable {state : State} {item : String} {value : Value} {index length : Nat}

theorem roundFrame_eq (hitem : item ≠ "loop") :
    roundFrame item value index length = [(item, value), ("loop", loopInfo index length)] := by
  simp [roundFrame, Keyed.put, hitem]

theorem find?_item (hitem : item ≠ "loop") :
    find? item (inRound state item value index length).frames = some value := by
  simp [inRound, roundFrame_eq hitem, find?, Keyed.get?]

theorem find?_loop (hitem : item ≠ "loop") :
    find? "loop" (inRound state item value index length).frames =
      some (loopInfo index length) := by
  simp [inRound, roundFrame_eq hitem, find?, Keyed.get?, hitem]

theorem find?_other {name : String} (hitem : item ≠ "loop") (hname : name ≠ item)
    (hloop : name ≠ "loop") :
    find? name (inRound state item value index length).frames = find? name state.frames := by
  simp [inRound, roundFrame_eq hitem, find?, Keyed.get?, hname.symm, hloop.symm]

end Frames

section Rounds

variable {scene : Scene} {calls : Calls} {state : State} {item separator items : String}

theorem yields_rounds {body : Action String} {length : Nat} {piece : Nat → Value → String}
    (hround : ∀ i value, Yields body (inRound state item value i length) (piece i value)
      (inRound state item value i length))
    (values : List Value) (i : Nat) :
    Yields (runLoop scene (.single item) body length i values) state (pieces piece i values)
      state := by
  induction values generalizing i with
  | nil => exact yields_pure.mpr ⟨rfl, rfl⟩
  | cons value rest ih =>
      refine yields_bind.mpr ⟨[(item, value)], state, yields_operated rfl, ?_⟩
      refine yields_bind.mpr ⟨piece i value, state, ?_, ?_⟩
      · exact yields_inFrame.mpr ⟨_, hround i value, rfl⟩
      · exact yields_bind.mpr ⟨_, state, ih (i + 1), yields_pure.mpr ⟨rfl, rfl⟩⟩

theorem yields_loop {body : List Node} {value : Value} {values : List Value}
    {piece : Nat → Value → String} (hfound : find? items state.frames = some value)
    (hvalues : Operation.items value = .ok values)
    (hround : ∀ i value, Yields (execAll scene calls body)
      (inRound state item value i values.length) (piece i value)
      (inRound state item value i values.length)) :
    Yields (execAll scene calls [.loop (.single item) (.var items) body []]) state
      (pieces piece 0 values) state := by
  have hnone : Yields (execAll scene calls []) state "" state := yields_execAll_nil.mpr ⟨rfl, rfl⟩
  refine yields_execAll_cons.mpr ⟨pieces piece 0 values, state, ?_, "", hnone,
    String.append_empty⟩
  refine yields_bind.mpr ⟨value, state, yields_evalVar.mpr ⟨hfound, rfl⟩, ?_⟩
  refine yields_bind.mpr ⟨values, state, yields_operated hvalues, ?_⟩
  cases values with
  | nil => exact hnone
  | cons first rest => exact yields_rounds hround (first :: rest) 0

theorem yields_put_var {name : String} {value : Value}
    (h : find? name state.frames = some value) :
    Yields (exec scene calls (.output (.var name))) state value.display state :=
  yields_bind.mpr ⟨value, state, yields_evalVar.mpr ⟨h, rfl⟩, yields_pure.mpr ⟨rfl, rfl⟩⟩

theorem yields_place {place : String} {loop here : Value}
    (hloop : find? "loop" state.frames = some loop)
    (hplace : Operation.attr place loop = .ok here) :
    Yields (eval scene calls (.attr (.var "loop") place)) state here state :=
  yields_bind.mpr ⟨loop, state, yields_evalVar.mpr ⟨hloop, rfl⟩, yields_operate.mpr ⟨hplace, rfl⟩⟩

theorem yields_unlessPlace {place text : String} {here : Bool} {loop : Value}
    (hloop : find? "loop" state.frames = some loop)
    (hplace : Operation.attr place loop = .ok (.bool here))
    (hseparator : find? separator state.frames = some (.str text)) :
    Yields (exec scene calls (.output (unlessPlace place separator))) state
      (if here then "" else text) state := by
  have hcondition : Yields (eval scene calls (.not (.attr (.var "loop") place))) state
      (.bool (!here)) state :=
    yields_bind.mpr ⟨.bool here, state, yields_place hloop hplace, yields_pure.mpr ⟨rfl, rfl⟩⟩
  refine yields_bind.mpr ⟨if here then .null else .str text, state, ?_, ?_⟩
  · refine yields_bind.mpr ⟨_, state, hcondition, ?_⟩
    cases here with
    | true => exact yields_pure.mpr ⟨rfl, rfl⟩
    | false => exact yields_evalVar.mpr ⟨hseparator, rfl⟩
  · cases here with
    | true => exact yields_pure.mpr ⟨rfl, rfl⟩
    | false => exact yields_pure.mpr ⟨Value.display_str text, rfl⟩

theorem yields_both {first second : Node} {text more : String}
    (hfirst : Yields (exec scene calls first) state text state)
    (hsecond : Yields (exec scene calls second) state more state) :
    Yields (execAll scene calls [first, second]) state (text ++ more) state := by
  refine yields_execAll_cons.mpr ⟨text, state, hfirst, more, ?_, rfl⟩
  exact yields_execAll_cons.mpr ⟨more, state, hsecond, "", yields_execAll_nil.mpr ⟨rfl, rfl⟩,
    String.append_empty⟩

section Templates

variable {value : Value} {values : List Value} {text : String}

theorem yields_trailing (hitem : item ≠ "loop") (hapart : separator ≠ item)
    (hloop : separator ≠ "loop") (hfound : find? items state.frames = some value)
    (hvalues : Operation.items value = .ok values)
    (hseparator : find? separator state.frames = some (.str text)) :
    Yields (execAll scene calls (trailingNodes item separator items)) state
      (Text.join text (values.map Value.display)) state := by
  have hloops : Yields (execAll scene calls (trailingNodes item separator items)) state
      (pieces (fun i value => value.display ++ if i + 1 == values.length then "" else text) 0
        values) state :=
    yields_loop hfound hvalues fun i value => yields_both (yields_put_var (find?_item hitem))
      (yields_unlessPlace (find?_loop hitem) rfl
        ((find?_other hitem hapart hloop).trans hseparator))
  rw [← pieces_eq_join (String.append_empty (s := text)) Value.display values]
  simp only [ite_self, String.empty_append]
  exact hloops

theorem yields_leading (hitem : item ≠ "loop") (hapart : separator ≠ item)
    (hloop : separator ≠ "loop") (hfound : find? items state.frames = some value)
    (hvalues : Operation.items value = .ok values)
    (hseparator : find? separator state.frames = some (.str text)) :
    Yields (execAll scene calls (leadingNodes item separator items)) state
      (Text.join text (values.map Value.display)) state := by
  have hloops : Yields (execAll scene calls (leadingNodes item separator items)) state
      (pieces (fun i value => (if i == 0 then "" else text) ++ value.display) 0 values) state :=
    yields_loop hfound hvalues fun i value => yields_both
      (yields_unlessPlace (find?_loop hitem) rfl
        ((find?_other hitem hapart hloop).trans hseparator)) (yields_put_var (find?_item hitem))
  rw [← pieces_eq_join (String.empty_append (s := text)) Value.display values]
  simp only [ite_self, String.append_empty]
  exact hloops

theorem joined_of_items (h : Operation.items value = .ok values) :
    Operation.joined value = values := by
  cases value with
  | null | list | map =>
      cases h
      rfl
  | bool | int | float | str => cases h

theorem yields_joining (hfound : find? items state.frames = some value)
    (hvalues : Operation.items value = .ok values)
    (hseparator : find? separator state.frames = some (.str text)) :
    Yields (execAll scene calls (joiningNodes separator items)) state
      (Text.join text (values.map Value.display)) state := by
  have hargs : Yields (evalAll scene calls [.var separator]) state [.str text] state :=
    yields_bind.mpr ⟨.str text, state, yields_evalVar.mpr ⟨hseparator, rfl⟩,
      yields_bind.mpr ⟨[], state, yields_pure.mpr ⟨rfl, rfl⟩, yields_pure.mpr ⟨rfl, rfl⟩⟩⟩
  have hjoin : Yields (eval scene calls (.filter (.var items) "join" [.var separator])) state
      (.str (Text.join text (values.map Value.display))) state := by
    refine (yields_filter_var (by decide)).mpr ⟨value, hfound, [.str text], hargs, ?_⟩
    rw [← joined_of_items hvalues]
    simp only [Operation.filter, Operation.firstText, Value.display_str]
  refine yields_execAll_cons.mpr ⟨_, state, ?_, "", yields_execAll_nil.mpr ⟨rfl, rfl⟩,
    String.append_empty⟩
  exact yields_bind.mpr ⟨_, state, hjoin, yields_pure.mpr ⟨Value.display_str _, rfl⟩⟩

end Templates

/-!
## Places
-/

/-- In this state `loop` tells the place of an item, counted from one and from zero, and the number
of items. -/
def TellsPlace (scene : Scene) (calls : Calls) (state : State) (index length : Nat) : Prop :=
  ∃ position offset count : Int64,
    Yields (eval scene calls (.attr (.var "loop") "index")) state (.int position) state ∧
    Yields (eval scene calls (.attr (.var "loop") "index0")) state (.int offset) state ∧
    Yields (eval scene calls (.attr (.var "loop") "length")) state (.int count) state ∧
    ((length : Int) ≤ Int64.maxValue.toInt →
      position.toInt = index + 1 ∧ offset.toInt = index ∧ count.toInt = length)

theorem tellsPlace {index length : Nat}
    (hloop : find? "loop" state.frames = some (loopInfo index length)) (hlt : index < length) :
    TellsPlace scene calls state index length := by
  have hmax : Int64.maxValue.toInt < 2 ^ 63 := by decide
  refine ⟨Int64.ofNat (index + 1), Int64.ofNat index, Int64.ofNat length, yields_place hloop rfl,
    yields_place hloop rfl, yields_place hloop rfl, fun hlength => ⟨?_, ?_, ?_⟩⟩
  · rw [Int64.toInt_ofNat_of_lt (by omega)]
    omega
  · exact Int64.toInt_ofNat_of_lt (by omega)
  · exact Int64.toInt_ofNat_of_lt (by omega)

theorem pure_bind_action {α β : Type} (value : α) (f : α → Action β) :
    (pure value : Action α) >>= f = f value := rfl

theorem runLoop_append (body : Action String) (length i : Nat) (before after : List Value) :
    runLoop scene (.single item) body length i (before ++ after) = (do
      let earlier ← runLoop scene (.single item) body length i before
      let later ← runLoop scene (.single item) body length (i + before.length) after
      return earlier ++ later) := by
  induction before generalizing i with
  | nil =>
      simp only [List.nil_append, runLoop, pure_bind_action, String.empty_append]
      exact (Action.bind_done _).symm
  | cons value before ih =>
      have hplace : i + 1 + before.length = i + (before.length + 1) := by omega
      simp only [List.cons_append, runLoop, ih, List.length_cons, Action.bind_bind,
        pure_bind_action, String.append_assoc, hplace]

theorem runLoop_round (body : Action String) (length : Nat) (before : List Value) (value : Value)
    (after : List Value) :
    runLoop scene (.single item) body length 0 (before ++ value :: after) = (do
      let earlier ← runLoop scene (.single item) body length 0 before
      let text ← Action.inFrame (roundFrame item value before.length length) body
      let later ← runLoop scene (.single item) body length (before.length + 1) after
      return earlier ++ (text ++ later)) := by
  have hbind : Action.ofExcept (scene.operated (LoopTarget.bind (.single item) value)) =
      pure [(item, value)] := rfl
  rw [runLoop_append, Nat.zero_add]
  simp only [runLoop, hbind, pure_bind_action, Action.bind_bind, roundFrame]

theorem exec_loop_round {body : List Node} {value first : Value} {values before after : List Value}
    (hfound : find? items state.frames = some value)
    (hvalues : Operation.items value = .ok values) (hsplit : values = before ++ first :: after) :
    exec scene calls (.loop (.single item) (.var items) body []) state = (do
      let earlier ← runLoop scene (.single item) (execAll scene calls body) values.length 0 before
      let text ← Action.inFrame (roundFrame item first before.length values.length)
        (execAll scene calls body)
      let later ← runLoop scene (.single item) (execAll scene calls body) values.length
        (before.length + 1) after
      return earlier ++ (text ++ later)) state := by
  have hvar : Yields (eval scene calls (.var items)) state value state :=
    yields_evalVar.mpr ⟨hfound, rfl⟩
  have hlist : Yields (Action.ofExcept (scene.operated (Operation.items value))) state values
      state := yields_operated hvalues
  have hempty : values.isEmpty = false := by
    rw [hsplit]
    exact List.isEmpty_eq_false_iff.mpr
      (List.append_ne_nil_of_right_ne_nil _ (List.cons_ne_nil _ _))
  rw [exec, hvar.bind_eq, hlist.bind_eq, hempty, if_neg Bool.false_ne_true]
  nth_rewrite 2 [hsplit]
  rw [runLoop_round]

end Rounds

/-!
## Loops and joining
-/

def isIterable (value : Value) : Bool :=
  value.kind == .list || value.kind == .mapping || value.kind == .none

theorem exists_items {value : Value} (h : isIterable value = true) :
    ∃ values, Operation.items value = .ok values := by
  cases value with
  | null | list | map => exact ⟨_, rfl⟩
  | bool | int | float | str => cases h

/-- The two loops and the filter are read as written, and write the same text wherever they stand,
whatever loops there are around them.  In the round for an item, `loop` tells its place, whatever
the body of the loop is. -/
theorem loops_eq_join {item separator items : String} (hitem : isVariableName item = true)
    (hseparator : isVariableName separator = true) (hitems : isVariableName items = true)
    (hdistinct : [item, separator, items, "loop"].Nodup) (name : String) :
    ∃ trailing leading joining,
      Body.parse name (trailingText item separator items) = .ok ⟨trailing, []⟩ ∧
      Body.parse name (leadingText item separator items) = .ok ⟨leading, []⟩ ∧
      Body.parse name (joiningText separator items) = .ok ⟨joining, []⟩ ∧
      ∀ (scene : Scene) (calls : Calls) (state : State) (value : Value) (text : String),
        find? items state.frames = some value → isIterable value = true →
        find? separator state.frames = some (.str text) →
        ∃ values, Operation.items value = .ok values ∧
          (∀ nodes ∈ [trailing, leading, joining], Yields (execAll scene calls nodes) state
            (Text.join text (values.map Value.display)) state) ∧
          ∀ (body : List Node) (before : List Value) (first : Value) (after : List Value),
            values = before ++ first :: after →
            exec scene calls (.loop (.single item) (.var items) body []) state = (do
              let earlier ← runLoop scene (.single item) (execAll scene calls body) values.length 0
                before
              let text ← Action.inFrame (roundFrame item first before.length values.length)
                (execAll scene calls body)
              let later ← runLoop scene (.single item) (execAll scene calls body) values.length
                (before.length + 1) after
              return earlier ++ (text ++ later)) state ∧
            ∀ outside : State, TellsPlace scene calls
              (inRound outside item first before.length values.length) before.length
              values.length := by
  simp only [List.nodup_cons, List.mem_cons, List.not_mem_nil, not_or, or_false] at hdistinct
  obtain ⟨⟨hapart, _, hloop⟩, ⟨_, hseparatorLoop⟩, _⟩ := hdistinct
  refine ⟨_, _, _, parse_trailingText name hitem hseparator hitems,
    parse_leadingText name hitem hseparator hitems, parse_joiningText name hseparator hitems, ?_⟩
  intro scene calls state value text hfound hvalue htext
  obtain ⟨values, hvalues⟩ := exists_items hvalue
  refine ⟨values, hvalues, ?_, ?_⟩
  · intro nodes hnodes
    simp only [List.mem_cons, List.not_mem_nil, or_false] at hnodes
    rcases hnodes with rfl | rfl | rfl
    · exact yields_trailing hloop (Ne.symm hapart) hseparatorLoop hfound hvalues htext
    · exact yields_leading hloop (Ne.symm hapart) hseparatorLoop hfound hvalues htext
    · exact yields_joining hfound hvalues htext
  · intro body before first after hsplit
    refine ⟨exec_loop_round hfound hvalues hsplit, fun outside => ?_⟩
    refine tellsPlace (find?_loop hloop) ?_
    rw [hsplit, List.length_append, List.length_cons]
    omega

def insideLoops : State where
  frames := [roundFrame "b" (.int 2) 2 3, roundFrame "a" (.int 1) 0 1,
    [("xs", .list [.null, .str "x", .list [.int 1, .int 2]]), ("sep", .str "; ")]]
  declared := []
  depth := 0

theorem loops_eq_join_inside_loops :
    ∃ trailing leading joining,
      Body.parse "t" (trailingText "c" "sep" "xs") = .ok ⟨trailing, []⟩ ∧
      Body.parse "t" (leadingText "c" "sep" "xs") = .ok ⟨leading, []⟩ ∧
      Body.parse "t" (joiningText "sep" "xs") = .ok ⟨joining, []⟩ ∧
      ∀ nodes ∈ [trailing, leading, joining],
        Yields (execAll Scene.bare Calls.spent nodes) insideLoops "; x; 1, 2" insideLoops := by
  obtain ⟨trailing, leading, joining, htrailing, hleading, hjoining, h⟩ :=
    loops_eq_join (show isVariableName "c" = true by decide)
      (show isVariableName "sep" = true by decide) (show isVariableName "xs" = true by decide)
      (by decide) "t"
  obtain ⟨values, hvalues, hyields, _⟩ := h Scene.bare Calls.spent insideLoops
    (.list [.null, .str "x", .list [.int 1, .int 2]]) "; " rfl rfl rfl
  cases hvalues
  exact ⟨trailing, leading, joining, htrailing, hleading, hjoining, hyields⟩

end Library
end TransformChain
