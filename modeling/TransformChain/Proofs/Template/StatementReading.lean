import TransformChain.Proofs.Template.Checks
import TransformChain.Proofs.Template.ExprReading
import TransformChain.Template.Statement

/-!
# Reading printed statements

The lexemes of a block tag's statement, and that a text which spells them is read back as the
statement.
-/

namespace TransformChain
namespace Template

open Text Grammar TransformChain.Parser

/-!
## Lexemes of a statement
-/

def LoopTarget.lexemes : LoopTarget → List Lexeme
  | single name => [.word name]
  | pair first second => [.word first, .symbol ",", .word second]

def parameterLexemes : MacroParameter → List Lexeme
  | (name, none) => [.word name]
  | (name, some default) => .word name :: .symbol "=" :: default.bare

def parameterIsWritable (parameter : MacroParameter) : Bool :=
  isVariableName parameter.1 && parameter.2.all Expr.isWritable

namespace Statement

def lexemes : Statement → List Lexeme
  | ifStart condition => .word "if" :: condition.bare
  | elifStart condition => .word "elif" :: condition.bare
  | elseStart => [.word "else"]
  | ifEnd => [.word "endif"]
  | forStart target iterable => .word "for" :: (target.lexemes ++ .word "in" :: iterable.bare)
  | forEnd => [.word "endfor"]
  | assign name value => .word "set" :: .word name :: .symbol "=" :: value.bare
  | run expr => .word "do" :: expr.bare
  | macroStart name params =>
      .word "macro" :: .word name :: .symbol "(" ::
        (commaJoined (params.map parameterLexemes) ++ [.symbol ")"])
  | macroEnd => [.word "endmacro"]

def isWritable : Statement → Bool
  | ifStart condition => condition.isWritable
  | elifStart condition => condition.isWritable
  | forStart target iterable => target.names.all isVariableName && iterable.isWritable
  | assign name value => isVariableName name && value.isWritable
  | run expr => expr.isWritable
  | macroStart name params => isVariableName name && params.all parameterIsWritable
  | elseStart | ifEnd | forEnd | macroEnd => true

end Statement

/-!
## Names and parameters
-/

section Reading

variable {cs rest : List Char} {ls : List Lexeme} {name : String}

theorem reads_name (h : Spells (.word name :: ls) cs rest) (hname : isVariableName name = true) :
    ∃ mid, ReadsUpTo (spaced identifier) cs name mid ∧ ahead mid < ahead cs ∧
      Spells ls mid rest := by
  simp only [isVariableName, Bool.and_eq_true] at hname
  rcases h.word hname.left with ⟨mid, hword, hshorter, hmid⟩
  exact ⟨mid, readsUpTo_spaced (readsHere_of_eq (verify_accepted hword hname.right)), hshorter,
    hmid⟩

theorem readsItem_parameter (n : Nat) {parameter : MacroParameter}
    (h : parameterIsWritable parameter = true) :
    ReadsItem Statement.parameter n (parameterLexemes parameter) parameter := by
  intro cs mid _ hspells hmid
  rcases parameter with ⟨name, default⟩
  simp only [parameterIsWritable, Bool.and_eq_true] at h
  cases default with
  | none =>
      rcases reads_name hspells h.left with ⟨left, hname, _, hleft⟩
      rw [spells_nil hleft] at hname
      intro ds hds
      have hnone : RefusesHere Statement.defaultPart (dropGap mid) := by
        rcases hmid with ⟨c, more, hmid, hc⟩
        rw [hmid]
        apply RefusesHere.bind
        apply refuses_char_of_ne
        rintro rfl
        rcases hc with hc | hc <;> exact absurd hc (by decide)
      unfold Statement.parameter
      rw [bind_accepted (hname ds hds), bind_accepted hnone.optional_eq]
      rfl
  | some default =>
      rcases reads_name hspells h.left with ⟨equals, hname, _, hequals⟩
      rcases hequals.character (c := '=') rfl rfl with ⟨start, hstart, _, hdefault⟩
      have hread := (reads_expression h.right hdefault (hmid.stops 0)).spaced start rfl
      have hpart : Parser.optional Statement.defaultPart ('=' :: start)
          = .accepted (some default) (dropGap mid) := by
        unfold Parser.optional Statement.defaultPart
        rw [bind_accepted (char_cons '=' start), hread]
      intro ds hds
      unfold Statement.parameter
      rw [bind_accepted (hname ds hds), hstart, bind_accepted hpart]
      rfl

theorem readsParameters (n : Nat) (params : List MacroParameter)
    (h : params.all parameterIsWritable = true) :
    List.Forall₂ (ReadsItem Statement.parameter n) (params.map parameterLexemes) params := by
  induction params with
  | nil => exact .nil
  | cons parameter params ih =>
      rw [List.all_cons, Bool.and_eq_true] at h
      exact .cons (readsItem_parameter n h.left) (ih h.right)

theorem refuses_parameter (h : Unopened cs) : Refuses Statement.parameter cs :=
  Refuses.bind (refuses_spaced h.refuses_word.verify)

end Reading

/-!
## Statements
-/

namespace Statement

variable {cs rest : List Char} {e : Expr}

theorem reads_withExpression {first : String} {build : Expr → Statement}
    (h : Spells (.word first :: e.bare) cs rest) (hfirst : isIdentifier first = true)
    (he : e.isWritable = true) (hrest : Stops 0 rest) :
    Reads (withExpression first build) cs (build e) rest := by
  rcases h.word hfirst with ⟨mid, hword, _, hmid⟩
  exact (reads_keyword hword).reads.bind ((reads_expression he hmid hrest).bind (reads_pure _))

theorem reads_bare {first : String} {s : Statement} (h : Spells [.word first] cs rest)
    (hfirst : isIdentifier first = true) : Reads (bare first s) cs s rest := by
  rcases h.word hfirst with ⟨mid, hword, _, hmid⟩
  rw [spells_nil hmid] at hword
  exact (reads_keyword hword).reads.bind (reads_pure s)

theorem reads_forStatement {target : LoopTarget}
    (h : Spells (forStart target e).lexemes cs rest)
    (hs : (forStart target e).isWritable = true) (hrest : Stops 0 rest) :
    Reads forStatement cs (forStart target e) rest := by
  simp only [isWritable, Bool.and_eq_true] at hs
  rcases h.word rfl with ⟨start, hfor, _, hstart⟩
  cases target with
  | single name =>
      have hname : isVariableName name = true := by simpa [LoopTarget.names] using hs.left
      rcases reads_name hstart hname with ⟨next, hfirst, _, hnext⟩
      rcases hnext.word rfl with ⟨left, hin, _, hleft⟩
      have hnone : Refuses secondTarget next := by
        intro ds hds
        refine RefusesHere.bind (refuses_char fun more heq => ?_)
        have hcomma : dropGap next = ',' :: more := by
          rw [← hds, heq]
          rfl
        obtain ⟨_, hchars, _⟩ := word_accepted hin
        rw [hcomma] at hchars
        cases hchars
      exact (reads_keyword hfor).reads.bind (hfirst.reads.bind (hnone.optional.bind
        ((reads_keyword hin).reads.bind ((reads_expression hs.right hleft hrest).bind
          (reads_pure _)))))
  | pair first second =>
      obtain ⟨hfirst, hsecond⟩ : isVariableName first = true ∧ isVariableName second = true := by
        simpa [LoopTarget.names] using hs.left
      rcases reads_name hstart hfirst with ⟨comma, hfirst, _, hcomma⟩
      rcases hcomma.character (c := ',') rfl rfl with ⟨next, hchars, _, hnext⟩
      rcases reads_name hnext hsecond with ⟨middle, hsecond, _, hmiddle⟩
      rcases hmiddle.word rfl with ⟨left, hin, _, hleft⟩
      have hpart : Parser.optional secondTarget (dropGap comma)
          = .accepted (some second) (dropGap middle) := by
        unfold Parser.optional secondTarget
        rw [hchars, bind_accepted (char_cons ',' next), hsecond next rfl]
      have htail : Reads (do
          let _ ← keyword "in"
          let iterable ← expression
          return forStart (.pair first second) iterable) middle
          (forStart (.pair first second) e) rest :=
        (reads_keyword hin).reads.bind ((reads_expression hs.right hleft hrest).bind
          (reads_pure _))
      exact (reads_keyword hfor).reads.bind (hfirst.bind
        (.bind_of_eq hpart (htail _ (sameStart_dropGap middle))))

theorem reads_setStatement {name : String} (h : Spells (assign name e).lexemes cs rest)
    (hname : isVariableName name = true) (he : e.isWritable = true) (hrest : Stops 0 rest) :
    Reads setStatement cs (assign name e) rest := by
  rcases h.word rfl with ⟨start, hset, _, hstart⟩
  rcases reads_name hstart hname with ⟨equals, hname, _, hequals⟩
  rcases hequals.character (c := '=') rfl rfl with ⟨next, hchars, _, hnext⟩
  have hvalue : Reads (do
      let value ← expression
      return assign name value) next (assign name e) rest :=
    (reads_expression he hnext hrest).bind (reads_pure _)
  refine (reads_keyword hset).reads.bind (hname.bind ?_)
  rw [hchars]
  exact .bind_of_eq (char_cons '=' next) hvalue.here

theorem reads_macroStatement {name : String} {params : List MacroParameter}
    (h : Spells (macroStart name params).lexemes cs rest) (hname : isVariableName name = true)
    (hparams : params.all parameterIsWritable = true) :
    Reads macroStatement cs (macroStart name params) rest := by
  rcases h.word rfl with ⟨start, hcalled, _, hstart⟩
  rcases reads_name hstart hname with ⟨opening, hname, _, hopening⟩
  rcases hopening.character (c := '(') rfl rfl with ⟨next, hchars, _, hnext⟩
  rcases separated_eq (readsParameters (ahead next + 1) params hparams)
    (fun _ h => refuses_parameter h) (c := ')') rfl rfl (Nat.lt_succ_self _) hnext with
    ⟨left, hread, hleft⟩
  refine (reads_keyword hcalled).reads.bind (hname.bind (readsHere_of_eq ?_))
  rw [hchars, bind_accepted (char_cons '(' next), bind_accepted hread, gap_bind, afterGap, hleft,
    bind_accepted (char_cons ')' rest)]
  rfl

/-- A statement is told by its first word. -/
theorem reads_statement {s : Statement} (h : Spells s.lexemes cs rest)
    (hs : s.isWritable = true) (hrest : Stops 0 rest) : Reads statement cs s rest := by
  have hfirst : ∃ left, Grammar.word (dropGap cs) = .accepted s.word left := by
    cases s <;> exact (h.word rfl).imp fun _ h => h.left
  rcases hfirst with ⟨left, hword⟩
  -- Every alternative in front wants another first word.
  have skip : ∀ (other : String) (f : String → Parser Statement), s.word ≠ other →
      Refuses (keyword other >>= f) cs :=
    fun other f hother => (refuses_keyword_of_word hword hother).bind
  unfold statement
  cases s with
  | ifStart condition => exact (reads_withExpression h rfl hs hrest).oneOf
  | elifStart condition =>
      refine Refuses.reads_oneOf (skip _ _ (of_decide_eq_true rfl)) ?_
      exact (reads_withExpression h rfl hs hrest).oneOf
  | elseStart =>
      iterate 2 refine Refuses.reads_oneOf (skip _ _ (of_decide_eq_true rfl)) ?_
      exact (reads_bare h rfl).oneOf
  | ifEnd =>
      iterate 3 refine Refuses.reads_oneOf (skip _ _ (of_decide_eq_true rfl)) ?_
      exact (reads_bare h rfl).oneOf
  | forStart target iterable =>
      iterate 4 refine Refuses.reads_oneOf (skip _ _ (of_decide_eq_true rfl)) ?_
      exact (reads_forStatement h hs hrest).oneOf
  | forEnd =>
      iterate 5 refine Refuses.reads_oneOf (skip _ _ (of_decide_eq_true rfl)) ?_
      exact (reads_bare h rfl).oneOf
  | assign name value =>
      simp only [isWritable, Bool.and_eq_true] at hs
      iterate 6 refine Refuses.reads_oneOf (skip _ _ (of_decide_eq_true rfl)) ?_
      exact (reads_setStatement h hs.left hs.right hrest).oneOf
  | run expr =>
      iterate 7 refine Refuses.reads_oneOf (skip _ _ (of_decide_eq_true rfl)) ?_
      exact (reads_withExpression h rfl hs hrest).oneOf
  | macroStart name params =>
      simp only [isWritable, Bool.and_eq_true] at hs
      iterate 8 refine Refuses.reads_oneOf (skip _ _ (of_decide_eq_true rfl)) ?_
      exact (reads_macroStatement h hs.left hs.right).oneOf
  | macroEnd =>
      iterate 9 refine Refuses.reads_oneOf (skip _ _ (of_decide_eq_true rfl)) ?_
      exact (reads_bare h rfl).oneOf

theorem parse_of_spells (template : String) {s : Statement} {space : List Char}
    (hs : s.isWritable = true) (h : Spells s.lexemes cs space)
    (hspace : ∀ c ∈ space, isGap c = true) : Statement.parse template cs = .ok s := by
  have hnil : dropGap space = [] := List.dropWhile_eq_nil_iff.mpr hspace
  rcases (reads_statement h hs (stops_of_gap hspace 0)).here with ⟨left, hread, hsame⟩
  unfold Statement.parse readWhole TransformChain.Parser.whole
  rw [bind_accepted hread, gap_bind, afterGap, hsame, hnil]
  rfl

end Statement
end Template
end TransformChain
