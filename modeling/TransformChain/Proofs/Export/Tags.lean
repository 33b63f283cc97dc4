import TransformChain.Proofs.Chain.Containment
import TransformChain.Proofs.Chain.Referring
import TransformChain.Proofs.Export.Projects
import TransformChain.Proofs.Table.Names
import TransformChain.Proofs.Template.EmbeddedTags

/-!
# Tags of exported models

A model is a template for another program.  Where neither the header nor the name of the base table
nor the SQL of a step holds a delimiter of tags, the only tags of a model are the header and the
references to what the step reads from, and with the relation in the places of the references the
model is the SQL of the step.
-/

namespace TransformChain

open Template

/-!
## Table names
-/

theorem Dataset.isSolid_relation {dataset : Dataset} (h : dataset.WellNamed) :
    Text.isSolid dataset.relation = true := by
  cases dataset with
  | query name sql columns =>
      have htext : (query name sql columns).relation.toList =
          '(' :: (("\n" ++ sql ++ "\n").toList ++ [')']) := by
        simp [relation]
      exact Text.isSolid_bracketed htext (by decide) (by decide)
  | table name columns =>
      rcases h with ⟨text, hparse⟩
      have hproper := (TableName.parse_eq_ok_iff.mp hparse).left
      apply Text.isSolid_of_forall
      · exact (table name columns).relation_ne_empty
      · intro c hc
        rw [relation, TableName.display_eq_join] at hc
        exact isBlank_of_mem_join (TableName.isProper_iff.mp hproper) hc

/-!
## References
-/

def referenceTag? : StepInput → Option String
  | .source (.table name _) => some ("source('" ++ name.schema ++ "', '" ++ name.table ++ "')")
  | .source (.query _ _ _) => none
  | .step name => some ("ref('" ++ name ++ "')")

section References

variable {input : StepInput} {text : String}

theorem modelReference_of_tag (h : referenceTag? input = some text) :
    modelReference input = tag text := by
  cases input with
  | source dataset =>
      cases dataset with
      | table name columns =>
          cases h
          rfl
      | query name sql columns => cases h
  | step name =>
      cases h
      rfl

theorem modelReference_of_none (h : referenceTag? input = none) :
    modelReference input = input.relation := by
  cases input with
  | source dataset =>
      cases dataset with
      | table name columns => cases h
      | query name sql columns => rfl
  | step name => cases h

theorem isSolid_tag (text : String) : Text.isSolid (tag text) = true := by
  have htext : (tag text).toList = '\x7b' :: (("\x7b " ++ text ++ " \x7d").toList ++ ['\x7d']) := by
    simp [tag]
  exact Text.isSolid_bracketed htext (by decide) (by decide)

theorem Dataset.relation_ne_tag (h : '.' ∉ text.toList) (dataset : Dataset) :
    dataset.relation ≠ tag text := by
  intro heq
  have hlist := congrArg String.toList heq
  cases dataset with
  | table name columns =>
      have hdot : '.' ∈ (tag text).toList := by
        rw [← hlist]
        simp [relation, TableName.display]
      simp [tag, h] at hdot
  | query name sql columns => simp [relation, tag] at hlist

theorem referenceTag?_dotless {parent : Chain} (h : parent.Reachable)
    (hsource : parent.source.WellNamed) (htext : referenceTag? parent.asInput = some text) :
    '.' ∉ text.toList := by
  cases parent with
  | root dataset =>
      cases dataset with
      | query name sql columns => cases htext
      | table name columns =>
          cases htext
          rcases hsource with ⟨text, hparse⟩
          have hproper := (TableName.parse_eq_ok_iff.mp hparse).left
          simp [hproper.schema.dotless, hproper.table.dotless]
  | step before name s =>
      cases htext
      have hidentifier : Text.isIdentifier name = true := by
        apply h.wellNamed.identifiers name
        simp [Chain.stepNames]
      have hdot : '.' ∉ name.toList :=
        Text.notMem_of_isIdentifier hidentifier (by decide) (by decide)
      simp [hdot]

theorem Chain.Reachable.refers {parent : Chain} (h : parent.Reachable)
    (hsource : parent.source.WellNamed) : parent.Refers modelReference := by
  have hrelation : Text.isSolid parent.relation = true := by
    cases parent with
    | root dataset => exact Dataset.isSolid_relation hsource
    | step before name s =>
        have hidentifier : Text.isIdentifier name = true := by
          apply h.wellNamed.identifiers name
          simp [stepNames]
        exact Text.isSolid_of_forall (Text.ne_empty_of_isIdentifier hidentifier) fun c hc =>
          Text.isBlank_of_isIdentifierChar (Text.isIdentifierChar_of_mem hidentifier hc)
  cases htag : referenceTag? parent.asInput with
  | none =>
      have hsame : modelReference parent.asInput = parent.relation := by
        rw [modelReference_of_none htag, relation_asInput]
      refine ⟨hrelation, ?_, fun hne => absurd hsame hne⟩
      rw [hsame]
      exact hrelation
  | some text =>
      have hdotless := referenceTag?_dotless h hsource htag
      have htext : modelReference parent.asInput = tag text := modelReference_of_tag htag
      refine ⟨hrelation, ?_, fun _ => ?_⟩
      · rw [htext]
        exact isSolid_tag text
      · rw [htext]
        exact Dataset.relation_ne_tag hdotless

theorem Chain.Reachable.each_refers {chain : Chain} (h : chain.Reachable)
    (hsource : chain.source.WellNamed) :
    EachStep (fun parent _ => parent.Refers modelReference) chain := by
  induction chain with
  | root dataset => exact trivial
  | step parent name s ih => exact ⟨ih h.parent hsource, h.parent.refers hsource⟩

theorem readsBack_ref {name : String} (h : Text.isIdentifier name = true) :
    ReadsBack ("ref('" ++ name ++ "')") := by
  have hplain : ∀ c ∈ name.toList, c ≠ '\\' ∧ c ≠ '\'' := by
    intro c hc
    have hchar := Text.isIdentifierChar_of_mem h hc
    constructor
    · rintro rfl
      exact absurd hchar (by decide)
    · rintro rfl
      exact absurd hchar (by decide)
  have hfunction : ∀ c ∈ "ref".toList, isHarmless c = true := List.all_eq_true.mp (by decide)
  exact readsBack_call (by simp) hfunction (passed_quoted hplain)

theorem readsBack_source {schema table : String}
    (hschema : ∀ c ∈ schema.toList, c ≠ '\\' ∧ c ≠ '\'')
    (htable : ∀ c ∈ table.toList, c ≠ '\\' ∧ c ≠ '\'') :
    ReadsBack ("source('" ++ schema ++ "', '" ++ table ++ "')") := by
  have hfunction : ∀ c ∈ "source".toList, isHarmless c = true := List.all_eq_true.mp (by decide)
  have hcomma : ∀ c ∈ ", ".toList, isHarmless c = true := List.all_eq_true.mp (by decide)
  exact readsBack_call (by simp) hfunction
    ((passed_quoted hschema).append ((passed_harmless hcomma).append (passed_quoted htable)))

end References

/-!
## Headers
-/

namespace ModelHeader

def tags (header : ModelHeader) : List String :=
  if header.isEmpty then [] else ["config(" ++ Text.join ", " (header.map entry) ++ ")"]

def gap (header : ModelHeader) : String :=
  if header.isEmpty then "" else "\n\n"

/-- A field whose name has no quotes and no closing brace, and whose value has no backslash. -/
def IsPlainField (field : String × String) : Prop :=
  (∀ c ∈ field.1.toList, isHarmless c = true) ∧ '\\' ∉ field.2.toList

theorem toList_entry {field : String × String} (h : '\\' ∉ field.2.toList) :
    (entry field).toList = field.1.toList ++ (['='] ++ (Lexeme.text field.2).chars) := by
  have hescape : field.2.toList.flatMap escapeChar = field.2.toList.flatMap Lexeme.escape := by
    apply List.flatMap_congr
    intro c hc
    have hne : c ≠ '\\' := by
      rintro rfl
      exact h hc
    by_cases hquote : c = '\''
    · rw [hquote]
      rfl
    · simp [escapeChar, Lexeme.escape, hne, hquote]
  simp [entry, hescape, Lexeme.chars]

theorem passed_entry {field : String × String} (h : IsPlainField field) :
    Passed (entry field).toList := by
  have hequals : Passed ['='] := passed_harmless (List.forall_mem_singleton.mpr (by decide))
  rw [toList_entry h.right]
  exact (passed_harmless h.left).append (hequals.append (passed_string field.2))

theorem readsBack_tags {header : ModelHeader} (h : ∀ field ∈ header, IsPlainField field) :
    ∀ text ∈ header.tags, ReadsBack text := by
  have hcomma : ∀ c ∈ ", ".toList, isHarmless c = true := List.all_eq_true.mp (by decide)
  have hfunction : ∀ c ∈ "config".toList, isHarmless c = true := List.all_eq_true.mp (by decide)
  have hentries : ∀ text ∈ header.map entry, Passed text.toList :=
    List.forall_mem_map.mpr fun field hmem => passed_entry (h field hmem)
  unfold tags
  split
  case isTrue => exact fun _ hmem => absurd hmem List.not_mem_nil
  case isFalse =>
    refine List.forall_mem_singleton.mpr ?_
    exact readsBack_call (by simp) hfunction (passed_join (passed_harmless hcomma) hentries)

theorem toList_modelText (header : ModelHeader) {body : String}
    (h : Text.trimEnd body.toList = body.toList) :
    (header.modelText body).toList =
      header.tags.flatMap (fun text => (tag text).toList) ++ (header.gap ++ body ++ "\n").toList := by
  have hbody : trimmedEnd body = body := by
    unfold trimmedEnd
    rw [h, String.ofList_toList]
  unfold modelText tags gap
  rw [hbody]
  split <;> simp

theorem tokenize_behind {header : ModelHeader} (hheader : ∀ text ∈ header.tags, ReadsBack text)
    {head : List Char} {parts : List (String × List Char)} (hhead : Plain head)
    (hparts : ∀ part ∈ parts, Closes part.1 ∧ Plain part.2) :
    tokenize (header.tags.flatMap (fun text => (tag text).toList) ++ (head ++ tagged parts)) =
      .ok (header.tags.map (fun text => .output (tagContent text)) ++
        (textTokens head ++ taggedTokens parts)) := by
  unfold tags at hheader ⊢
  split
  case isTrue => exact tokenize_tagged hhead hparts
  case isFalse hne =>
    rw [if_neg hne] at hheader
    have hclose := (hheader _ (List.mem_singleton.mpr rfl)).closes
    rw [List.flatMap_singleton, List.map_singleton, List.singleton_append]
    exact tokenize_tag_append hclose hhead hparts

end ModelHeader

/-!
## Models
-/

/-- As a template the model is the tags of the header, followed by texts and by references to what
the step reads from.  With the relation in the places of the references these are the SQL of the
step, between the gap behind the header and the end of the last line. -/
structure HoldsOwnTags (header : ModelHeader) (fragment : StepFragment) (content : String)
    (tokens : List Token) : Prop where
  tokenize_eq : tokenize content.toList =
    .ok (header.tags.map (fun text => .output (tagContent text)) ++ tokens)
  own : ∀ token ∈ tokens, (∃ cs, token = .text cs) ∨
    ∃ text, referenceTag? fragment.input = some text ∧ token = .output (tagContent text)
  resolved_eq : tokens.flatMap (Token.resolved fragment.input.relation) =
    (header.gap ++ fragment.sql ++ "\n").toList

section Models

variable {header : ModelHeader} {fragment step : StepFragment} {text : String}

theorem holdsNoOpener_lines (header : ModelHeader) {body : String}
    (h : HoldsNoOpener body.toList) : HoldsNoOpener (header.gap ++ body ++ "\n").toList := by
  have hgap : '\x7b' ∉ header.gap.toList := by
    unfold ModelHeader.gap
    split <;> decide
  have hline : ∀ kind : TagKind, kind.opener ≠ '\n' := by
    intro kind
    cases kind <;> decide
  have hlines : (header.gap ++ body ++ "\n").toList =
      header.gap.toList ++ body.toList ++ ['\n'] := by
    simp
  rw [hlines]
  exact (h.append hgap).concat hline

theorem getLast?_lines (header : ModelHeader) (body : String) :
    (header.gap ++ body ++ "\n").toList.getLast? = some '\n' := by
  have hline : "\n".toList = ['\n'] := by decide
  rw [String.toList_append, hline, List.getLast?_concat]

theorem exists_text_of_mem {cs : List Char} {token : Token} (h : token ∈ textTokens cs) :
    ∃ text, token = .text text := by
  unfold textTokens at h
  split at h
  case isTrue => cases h
  case isFalse => exact ⟨cs, List.mem_singleton.mp h⟩

theorem exists_tokens_of_segments {content first : String} {rest : List String}
    (hheader : ∀ text ∈ header.tags, ReadsBack text)
    (hback : rest ≠ [] → referenceTag? fragment.input = some text ∧ ReadsBack text)
    (hplain : ∀ segment ∈ first :: rest, Plain segment.toList)
    (hcontent : content.toList = header.tags.flatMap (fun text => (tag text).toList) ++
      (Text.join (tag text) (first :: rest)).toList)
    (hresolved : Text.join fragment.input.relation (first :: rest) =
      header.gap ++ fragment.sql ++ "\n") :
    ∃ tokens, HoldsOwnTags header fragment content tokens := by
  obtain ⟨hfirst, hrest⟩ := List.forall_mem_cons.mp hplain
  have hparts : ∀ part ∈ rest.map fun segment => (text, segment.toList),
      Closes part.1 ∧ Plain part.2 := by
    refine List.forall_mem_map.mpr fun segment hmem => ⟨?_, hrest segment hmem⟩
    exact (hback (List.ne_nil_of_mem hmem)).right.closes
  have htokens := header.tokenize_behind hheader hfirst hparts
  rw [← toList_join_tag, ← hcontent] at htokens
  refine ⟨_, htokens, ?_, ?_⟩
  · intro token hmem
    rcases List.mem_append.mp hmem with htext | htagged
    · exact Or.inl (exists_text_of_mem htext)
    · simp only [taggedTokens, List.mem_flatMap, List.mem_map] at htagged
      rcases htagged with ⟨part, ⟨segment, hsegment, rfl⟩, htoken⟩
      rcases List.mem_cons.mp htoken with rfl | htext
      · exact Or.inr ⟨text, (hback (List.ne_nil_of_mem hsegment)).left, rfl⟩
      · exact Or.inl (exists_text_of_mem htext)
  · rw [flatMap_resolved_tagged, hresolved]

def lined (header : ModelHeader) (segments : List String) : List String :=
  Text.splice [header.gap] (Text.splice segments ["\n"])

theorem join_lined (header : ModelHeader) (separator : String) {segments : List String}
    (h : segments ≠ []) :
    Text.join separator (lined header segments) =
      header.gap ++ Text.join separator segments ++ "\n" := by
  unfold lined
  rw [Text.join_splice _ (List.cons_ne_nil _ _) (Text.splice_ne_nil h _),
    Text.join_splice _ h (List.cons_ne_nil _ _), String.append_assoc]
  rfl

theorem plain_lined {relation separator : String} {segments : List String} (hne : segments ≠ [])
    (hsql : HoldsNoOpener (Text.join relation segments).toList)
    (hbrace : ¬ '\x7b' :: separator.toList <:+:
      (header.gap ++ Text.join separator segments ++ "\n").toList) :
    ∀ segment ∈ lined header segments, Plain segment.toList := by
  have hall := holdsNoOpener_lines header hsql
  have hend : (header.gap ++ Text.join separator segments ++ "\n").toList.getLast? ≠
      some '\x7b' := by
    rw [getLast?_lines]
    decide
  rw [← join_lined header relation hne] at hall
  rw [← join_lined header separator hne] at hbrace hend
  intro segment hmem
  exact ⟨hall.of_infix (infix_join hmem), getLast?_ne_of_join hbrace hend segment hmem⟩

theorem exists_tokens_of_writtenFrom (h : Chain.WrittenFrom modelReference fragment step)
    (hheader : ∀ text ∈ header.tags, ReadsBack text)
    (hback : ∀ text, referenceTag? fragment.input = some text → ReadsBack text)
    (hsql : HoldsNoOpener fragment.sql.toList)
    (hbrace : ∀ text, referenceTag? fragment.input = some text →
      ¬("\x7b" ++ tag text).toList <:+: (header.modelText step.sql).toList) :
    ∃ tokens, HoldsOwnTags header fragment (header.modelText step.sql) tokens := by
  have hcontent := header.toList_modelText h.trimmed
  rcases h.spliced with ⟨segments, hne, hfragment, hstep⟩
  cases htag : referenceTag? fragment.input with
  | none =>
      rw [modelReference_of_none htag, ← hfragment] at hstep
      rw [hstep] at hcontent ⊢
      have hlast : (header.gap ++ fragment.sql ++ "\n").toList.getLast? ≠ some '\x7b' := by
        rw [getLast?_lines]
        decide
      have hplain : ∀ segment ∈ [header.gap ++ fragment.sql ++ "\n"], Plain segment.toList :=
        List.forall_mem_singleton.mpr ⟨holdsNoOpener_lines header hsql, hlast⟩
      have hcontent' : (header.modelText fragment.sql).toList =
          header.tags.flatMap (fun text => (tag text).toList) ++
            (Text.join (tag "") [header.gap ++ fragment.sql ++ "\n"]).toList := hcontent
      exact exists_tokens_of_segments hheader (fun hrest => absurd rfl hrest) hplain hcontent' rfl
  | some text =>
      have hreference := modelReference_of_tag htag
      rw [hreference] at hstep
      have hinside : ∀ part, part <:+: (header.gap ++ step.sql ++ "\n").toList →
          part <:+: (header.modelText step.sql).toList := by
        intro part hpart
        rw [hcontent]
        exact hpart.trans (List.suffix_append _ _).isInfix
      have hbefore : ¬ '\x7b' :: (tag text).toList <:+:
          (header.gap ++ Text.join (tag text) segments ++ "\n").toList := by
        intro hwithin
        rw [← hstep] at hwithin
        have hopen : ("\x7b" ++ tag text).toList = '\x7b' :: (tag text).toList := by
          rw [String.toList_append]
          rfl
        exact hbrace text htag (hopen ▸ hinside _ hwithin)
      rw [hfragment] at hsql
      have hplain := plain_lined hne hsql hbefore
      have hresolved := join_lined header fragment.input.relation hne
      rw [hstep, ← join_lined header (tag text) hne] at hcontent
      rw [← hfragment] at hresolved
      rw [hstep]
      cases hlined : lined header segments with
      | nil => exact absurd hlined (Text.splice_ne_nil (List.cons_ne_nil _ _) _)
      | cons first rest =>
          rw [hlined] at hplain hresolved hcontent
          exact exists_tokens_of_segments hheader (fun _ => ⟨htag, hback text htag⟩) hplain
            hcontent hresolved

end Models

/-!
## Chains
-/

namespace Chain

variable {chain : Chain}

theorem Reachable.references_readBack (h : chain.Reachable)
    (hsource : ∀ text, referenceTag? (.source chain.source) = some text → ReadsBack text) :
    ∀ fragment ∈ chain.fragments, ∀ text, referenceTag? fragment.input = some text →
      ReadsBack text := by
  induction chain with
  | root dataset => exact fun _ hmem => absurd hmem List.not_mem_nil
  | step parent name s ih =>
      unfold fragments
      refine List.forall_mem_append.mpr ⟨ih h.parent hsource, List.forall_mem_singleton.mpr ?_⟩
      intro text htext
      cases parent with
      | root dataset => exact hsource text htext
      | step before last previous =>
          cases htext
          apply readsBack_ref
          apply h.parent.wellNamed.identifiers last
          simp [stepNames]

/-- A chain of the library's templates over a query, or over a table with a name that was read, is
exported, if the tags of the header and of the reference to the table read back and each step only
prints what it reads from.  What is written is one model for each step; and where the SQL of a step
holds no opener, and no brace stands in front of a reference, the model has no tags but the header
and the references to what the step reads from, and it is the SQL of the step once the references
are resolved. -/
theorem Reachable.models_hold_own_tags (h : Reachable chain) (hdepth : 1 ≤ chain.depth)
    {header : ModelHeader} (hheader : ∀ text ∈ header.tags, ReadsBack text)
    (hsource : chain.source.WellNamed)
    (hreference : ∀ text, referenceTag? (.source chain.source) = some text → ReadsBack text)
    (hprints : EachStep (PrintsInput modelReference) chain) :
    ∃ project, ModelProject.ofChain header chain = .ok project ∧
      (∀ {m : Type → Type} [Monad m] [LawfulMonad m] (storage : Storage m) (directory : String),
        (ModelProject.exportChain storage header chain directory).run =
          (project.write storage directory).run) ∧
      List.Forall₂ (fun fragment model => model.1 = fragment.name ++ ".sql" ∧
          (HoldsNoOpener fragment.sql.toList →
            (∀ text, referenceTag? fragment.input = some text →
              ¬("\x7b" ++ tag text).toList <:+: model.2.toList) →
            ∃ tokens, HoldsOwnTags header fragment model.2 tokens))
        chain.fragments project.models := by
  rcases h.exists_referred modelReference_ne_empty (h.each_refers hsource) hprints with
    ⟨steps, hsteps, hwritten⟩
  have hne : steps ≠ [] := by
    intro hnil
    have hlength := hwritten.length_eq
    rw [length_fragments, hnil] at hlength
    rw [hlength] at hdepth
    cases hdepth
  have hproject := ModelProject.ofChain_of_ok header hsteps hne
  refine ⟨_, hproject, fun storage directory =>
    ModelProject.run_exportChain hproject storage directory, ?_⟩
  rw [List.forall₂_map_right_iff]
  have hback := h.references_readBack hreference
  have hboth := (List.forall₂_and_left _ _).mpr ⟨hback, hwritten⟩
  refine hboth.imp ?_
  rintro fragment step ⟨hback, hstep⟩
  refine ⟨?_, fun hsql hbrace => exists_tokens_of_writtenFrom hstep hheader hback hsql hbrace⟩
  change ModelProject.fileName step.name = _
  rw [hstep.name_eq]
  rfl

/-!
## Chains of one step
-/

def stepOn (name : TableName) (columns : Schema) (transform : Transform) (bound : Bound)
    (sides : List (String × SideDataset)) (rendered : Rendered) : Chain :=
  .step (.root (.table name (some columns))) "STEP_1"
    (written (unwritten transform bound (some columns) sides) rendered none)

section StepOn

variable {name : TableName} {columns : Schema} {transform : Transform} {bound : Bound}
  {sides : List (String × SideDataset)} {rendered exported : Rendered}

theorem reachable_stepOn {args : Keyed Argument} (hbind : transform.bind args none = .ok bound)
    (hsides : sideDatasets bound.datasets default = (.ok sides, default))
    (hrender : (unwritten transform bound (some columns) sides).renderFrom name.display
      name.display = .ok rendered) :
    Reachable (stepOn name columns transform bound sides rendered) := by
  have hlookup : Registry.lookup ⟨[transform]⟩ transform.name = .ok transform := by
    simp [Registry.lookup, Registry.find?]
  have hextend : (Chain.root (.table name (some columns))).extend ⟨⟨[transform]⟩, none, "STEP"⟩
      transform.name args ⟨some "STEP_1", none⟩ default =
        (.ok (stepOn name columns transform bound sides rendered), default) :=
    extend_eq_ok_iff.mpr ⟨⟨transform, some columns, default, bound, sides, "STEP_1", rendered,
      hlookup, rfl, hbind, hsides, rfl, hrender, rfl⟩⟩
  exact .extend (.root _) hextend

theorem ofChain_stepOn (header : ModelHeader)
    (hexport : (unwritten transform bound (some columns) sides).renderFrom
      (modelReference (.source (.table name (some columns)))) name.display = .ok exported) :
    ∃ listing, ModelProject.ofChain header (stepOn name columns transform bound sides rendered) =
      .ok ⟨[("STEP_1.sql", header.modelText exported.sql)], listing⟩ := by
  have hsource : (Chain.root (.table name (some columns))).referredSource modelReference [] =
      modelReference (.source (.table name (some columns))) :=
    referredSource_of_ne_empty (modelReference_ne_empty _) []
  have hwritten : (written (unwritten transform bound (some columns) sides) rendered none).renderFrom
      (modelReference (.source (.table name (some columns))))
      (Chain.root (.table name (some columns))).asInput.label = .ok exported := hexport
  have hsteps : (stepOn name columns transform bound sides rendered).renderSteps modelReference =
      .ok [⟨"STEP_1", transform.name, exported.sql, .source (.table name (some columns)),
        rendered.output⟩] := by
    unfold stepOn
    simp only [renderSteps, hsource, hwritten]
    rfl
  exact ⟨_, ModelProject.ofChain_of_ok header hsteps (List.cons_ne_nil _ _)⟩

/-- The chain is made with templates of the library and exported, and one of the models holds other
tags than its own or is not the SQL of its step. -/
def ExportDeparts (header : ModelHeader) (chain : Chain) : Prop :=
  Reachable chain ∧
    EachStep (fun _ s => ∃ entry ∈ Library.entries,
      Transform.create entry.1 entry.2 = .ok s.transform) chain ∧
    ∃ project fragment model, ModelProject.ofChain header chain = .ok project ∧
      (fragment, model) ∈ chain.fragments.zip project.models ∧
      ∀ tokens, ¬HoldsOwnTags header fragment model.2 tokens

theorem exportDeparts_stepOn {header : ModelHeader}
    (hchain : Reachable (stepOn name columns transform bound sides rendered))
    (hlisted : ∃ entry ∈ Library.entries, Transform.create entry.1 entry.2 = .ok transform)
    (hexport : (unwritten transform bound (some columns) sides).renderFrom
      (modelReference (.source (.table name (some columns)))) name.display = .ok exported)
    (hother : ∀ tokens, ¬HoldsOwnTags header
      ⟨"STEP_1", transform.name, rendered.sql, .source (.table name (some columns)),
        rendered.output⟩ (header.modelText exported.sql) tokens) :
    ExportDeparts header (stepOn name columns transform bound sides rendered) := by
  rcases ofChain_stepOn header hexport with ⟨listing, hproject⟩
  exact ⟨hchain, ⟨trivial, hlisted⟩, _, _, _, hproject, List.mem_singleton.mpr rfl, hother⟩

end StepOn

section Departing

variable {header : ModelHeader} {fragment : StepFragment} {content : String}

theorem not_holdsOwnTags_of_none (h : (tokenize content.toList).toOption = none)
    (tokens : List Token) : ¬HoldsOwnTags header fragment content tokens := by
  intro hown
  rw [hown.tokenize_eq] at h
  cases h

theorem not_holdsOwnTags_of_output (source : List Char)
    (h : (tokenize content.toList).toOption.any (fun found => .output source ∈ found) = true)
    (hne : ∀ text, referenceTag? fragment.input = some text → tagContent text ≠ source)
    (tokens : List Token) : ¬HoldsOwnTags [] fragment content tokens := by
  intro hown
  rw [hown.tokenize_eq] at h
  have hmem : .output source ∈ tokens := of_decide_eq_true h
  rcases hown.own _ hmem with ⟨cs, htext⟩ | ⟨text, htag, houtput⟩
  · cases htext
  · injection houtput with hsource
    exact hne text htag hsource.symm

theorem not_holdsOwnTags_of_resolved
    (h : (tokenize content.toList).toOption.all (fun found =>
      found.flatMap (Token.resolved fragment.input.relation) ≠ (fragment.sql ++ "\n").toList) = true)
    (tokens : List Token) : ¬HoldsOwnTags [] fragment content tokens := by
  intro hown
  rw [hown.tokenize_eq] at h
  exact of_decide_eq_true h hown.resolved_eq

end Departing

/-!
## Other tags and other statements

What a caller hands in is not escaped: neither delimiters of tags in a condition, nor backslashes in
the header, nor quotes in the name of a table, nor what a text of the caller puts in front of its
source or makes of it.  And a table that is joined with itself is taken for the input only as long
as the input goes by the same name.
-/

def sheet : TableName :=
  ⟨"A", "B", "C"⟩

def idColumn : Schema :=
  [⟨"ID", some "INT"⟩]

def picking (condition : String) : Bound :=
  ⟨[("filters", .list [.str condition]), ("conjunction", .str "AND")]⟩

def pickedFrom (condition source : String) : Rendered :=
  ⟨"SELECT\n  ID\nFROM " ++ source ++ "\nWHERE\n  " ++ condition, some idColumn⟩

def picked (name : TableName) (condition : String) : Chain :=
  stepOn name idColumn filtering (picking condition) [] (pickedFrom condition name.display)

def PicksFrom (name : TableName) (condition source : String) : Prop :=
  (unwritten filtering (picking condition) (some idColumn) []).renderFrom source name.display =
    .ok (pickedFrom condition source)

theorem reachable_picked {name : TableName} {condition : String}
    (hrender : PicksFrom name condition name.display) : Reachable (picked name condition) :=
  have hbind : filtering.bind [("filters", .list [.str condition])] none =
      .ok (picking condition) := rfl
  reachable_stepOn hbind rfl hrender

theorem picked_departs {header : ModelHeader} {name : TableName} {condition : String}
    (hrender : PicksFrom name condition name.display)
    (hexport : PicksFrom name condition (modelReference (.source (.table name (some idColumn)))))
    (hother : ∀ tokens, ¬HoldsOwnTags header
      ⟨"STEP_1", "filter", (pickedFrom condition name.display).sql,
        .source (.table name (some idColumn)), some idColumn⟩
      (header.modelText (pickedFrom condition
        (modelReference (.source (.table name (some idColumn))))).sql) tokens) :
    ExportDeparts header (picked name condition) := by
  have hlisted : ∃ entry ∈ Library.entries,
      Transform.create entry.1 entry.2 = .ok filtering :=
    ⟨(Library.filterListing, Library.filterBody), by simp [Library.entries],
      Library.create_of_mem_trees (by simp [Library.trees])⟩
  exact exportDeparts_stepOn (reachable_picked hrender) hlisted hexport hother

theorem condition_departs :
    ExportDeparts [] (picked sheet "LABEL = '\x7b\x7b x \x7d\x7d'") := by
  apply picked_departs
  case hrender => exact eq_ok_of_toOption (by decide)
  case hexport => exact eq_ok_of_toOption (by decide)
  case hother =>
    refine not_holdsOwnTags_of_output " x ".toList (by decide) ?_
    intro text htext
    cases htext
    decide

theorem header_departs : ExportDeparts [("note", "\\")] (picked sheet "ID > 0") := by
  apply picked_departs
  case hrender => exact eq_ok_of_toOption (by decide)
  case hexport => exact eq_ok_of_toOption (by decide)
  case hother => exact not_holdsOwnTags_of_none (by decide)

theorem table_departs : ExportDeparts [] (picked ⟨"A", "B", "O'C"⟩ "ID > 0") := by
  apply picked_departs
  case hrender => exact eq_ok_of_toOption (by decide)
  case hexport => exact eq_ok_of_toOption (by decide)
  case hother => exact not_holdsOwnTags_of_none (by decide)

def applying : Transform :=
  Library.transformOf Library.applyListing Library.applyBody Library.applyNodes

def applied (sql : String) : Bound :=
  ⟨[("sql", .str sql), ("output_columns", .null)]⟩

def appliedOn (sql stored : String) : Chain :=
  stepOn sheet idColumn applying (applied sql) [] ⟨stored, none⟩

def AppliesTo (sql source exported : String) : Prop :=
  (unwritten applying (applied sql) (some idColumn) []).renderFrom source "A.B.C" =
    .ok ⟨exported, none⟩

theorem applied_departs {sql stored exported : String} (source : List Char)
    (hrender : AppliesTo sql "A.B.C" stored)
    (hexport : AppliesTo sql "\x7b\x7b source('B', 'C') \x7d\x7d" exported)
    (hother : (tokenize (ModelHeader.modelText [] exported).toList).toOption.any
      (fun found => .output source ∈ found) = true)
    (hne : tagContent "source('B', 'C')" ≠ source) : ExportDeparts [] (appliedOn sql stored) := by
  have hbind : applying.bind [("sql", .str sql)] none = .ok (applied sql) := rfl
  have hlisted : ∃ entry ∈ Library.entries,
      Transform.create entry.1 entry.2 = .ok applying :=
    ⟨(Library.applyListing, Library.applyBody), by simp [Library.entries], Library.create_apply⟩
  refine exportDeparts_stepOn (reachable_stepOn hbind rfl hrender) hlisted hexport
    (not_holdsOwnTags_of_output source hother ?_)
  intro text htext
  cases htext
  exact hne

theorem brace_departs :
    ExportDeparts []
      (appliedOn "SELECT * FROM \x7b\x7b '\x7b' \x7d\x7d\x7b\x7b source_table \x7d\x7d"
        "SELECT * FROM \x7bA.B.C") := by
  have hexport : AppliesTo
      "SELECT * FROM \x7b\x7b '\x7b' \x7d\x7d\x7b\x7b source_table \x7d\x7d"
      "\x7b\x7b source('B', 'C') \x7d\x7d"
      "SELECT * FROM \x7b\x7b\x7b source('B', 'C') \x7d\x7d" :=
    eq_ok_of_toOption (by decide +kernel)
  exact applied_departs "\x7b source('B', 'C') ".toList (eq_ok_of_toOption (by decide +kernel))
    hexport (by decide +kernel) (by decide)

theorem capitals_depart :
    ExportDeparts [] (appliedOn "SELECT * FROM \x7b\x7b source_table | upper \x7d\x7d"
      "SELECT * FROM A.B.C") := by
  have hexport : AppliesTo "SELECT * FROM \x7b\x7b source_table | upper \x7d\x7d"
      "\x7b\x7b source('B', 'C') \x7d\x7d" "SELECT * FROM \x7b\x7b SOURCE('B', 'C') \x7d\x7d" :=
    eq_ok_of_toOption (by decide +kernel)
  exact applied_departs " SOURCE('B', 'C') ".toList (eq_ok_of_toOption (by decide +kernel))
    hexport (by decide +kernel) (by decide)

def selfJoining : Bound :=
  ⟨[("join_table", .dataset (.table sheet (some [⟨"ID", none⟩, ⟨"LABEL", none⟩]))),
    ("join_columns", .mapping [("ID", .str "ID")]), ("join_type", .str "LEFT"),
    ("join_prefix", .null)]⟩

def selfJoined : Chain :=
  stepOn sheet idColumn joining selfJoining
    [("A.B.C", ⟨"A.B.C", some [⟨"ID", none⟩, ⟨"LABEL", none⟩]⟩)]
    ⟨"SELECT\n  l.ID,\n  r.ID AS C_ID\nFROM A.B.C l\nLEFT JOIN A.B.C r\n  ON l.ID = r.ID",
      some [⟨"ID", some "INT"⟩, ⟨"C_ID", some "INT"⟩]⟩

theorem selfJoined_departs : ExportDeparts [] selfJoined := by
  have hbind : joining.bind
      [("join_table", .dataset (.table sheet (some [⟨"ID", none⟩, ⟨"LABEL", none⟩]))),
        ("join_columns", .mapping [("ID", .str "ID")])] none = .ok selfJoining := rfl
  have hlisted : ∃ entry ∈ Library.entries,
      Transform.create entry.1 entry.2 = .ok joining :=
    ⟨(Library.joinListing, Library.joinBody), by simp [Library.entries],
      Library.create_of_mem_trees (by simp [Library.trees])⟩
  have hchain : Reachable selfJoined :=
    reachable_stepOn hbind rfl (eq_ok_of_toOption (by decide +kernel))
  have hexport : (unwritten joining selfJoining (some idColumn)
      [("A.B.C", ⟨"A.B.C", some [⟨"ID", none⟩, ⟨"LABEL", none⟩]⟩)]).renderFrom
        "\x7b\x7b source('B', 'C') \x7d\x7d" "A.B.C" =
      .ok ⟨"SELECT\n  l.ID,\n  r.ID AS C_ID,\n  r.LABEL AS C_LABEL\nFROM " ++
          "\x7b\x7b source('B', 'C') \x7d\x7d l\nLEFT JOIN A.B.C r\n  ON l.ID = r.ID",
        some [⟨"ID", some "INT"⟩, ⟨"C_ID", none⟩, ⟨"C_LABEL", none⟩]⟩ :=
    eq_ok_of_toOption (by decide +kernel)
  exact exportDeparts_stepOn hchain hlisted hexport
    (not_holdsOwnTags_of_resolved (by decide +kernel))

/-- A model holds other tags, cannot be read, or is another statement, for want of each of the
conditions on what a caller hands in. -/
theorem departing_exports :
    ExportDeparts [] (picked sheet "LABEL = '\x7b\x7b x \x7d\x7d'") ∧
    ExportDeparts [("note", "\\")] (picked sheet "ID > 0") ∧
    ExportDeparts [] (picked ⟨"A", "B", "O'C"⟩ "ID > 0") ∧
    ExportDeparts []
      (appliedOn "SELECT * FROM \x7b\x7b '\x7b' \x7d\x7d\x7b\x7b source_table \x7d\x7d"
        "SELECT * FROM \x7bA.B.C") ∧
    ExportDeparts [] (appliedOn "SELECT * FROM \x7b\x7b source_table | upper \x7d\x7d"
      "SELECT * FROM A.B.C") ∧
    ExportDeparts [] selfJoined :=
  ⟨condition_departs, header_departs, table_departs, brace_departs, capitals_depart,
    selfJoined_departs⟩

/-!
## A chain with its own tags only

Closing delimiters in a condition do no harm.
-/

def rankedStep : Step :=
  ⟨ordering, ⟨[("order_by", .mapping [("ID", .str "desc")])]⟩, some idColumn, [],
    "SELECT\n  ID\nFROM STEP_1\nORDER BY ID DESC", some idColumn⟩

def ranked : Chain :=
  .step (picked sheet "LABEL = '\x7d\x7d \x7b'") "STEP_2_ORDER" rankedStep

theorem reachable_ranked : Reachable ranked := by
  have hfirst : Reachable (picked sheet "LABEL = '\x7d\x7d \x7b'") :=
    reachable_picked (eq_ok_of_toOption (by decide))
  have hrender : (unwritten ordering rankedStep.arguments (some idColumn) []).renderFrom "STEP_1"
      "STEP_1" = .ok ⟨rankedStep.fragment, some idColumn⟩ :=
    eq_ok_of_toOption (by decide)
  have hextend : (picked sheet "LABEL = '\x7d\x7d \x7b'").extend ⟨⟨[ordering]⟩, none, "STEP"⟩
      "order" [("order_by", .mapping [("ID", .str "desc")])] ⟨none, none⟩ default =
        (.ok ranked, default) :=
    extend_eq_ok_iff.mpr ⟨⟨ordering, some idColumn, default, _, [], "STEP_2_ORDER", _, rfl, rfl,
      rfl, rfl, rfl, hrender, rfl⟩⟩
  exact .extend hfirst hextend

theorem printsInput_ranked : EachStep (PrintsInput modelReference) ranked := by
  have hfiltering : filtering.FromLibrary :=
    ⟨Library.filterListing, Library.filterBody, by simp [Library.entries], by decide,
      Library.create_of_mem_trees (by simp [Library.trees])⟩
  have hordering : ordering.FromLibrary :=
    ⟨Library.orderListing, Library.orderBody, by simp [Library.entries], by decide,
      Library.create_of_mem_trees (by simp [Library.trees])⟩
  exact ⟨⟨trivial, .library hfiltering fun _ h => absurd h List.not_mem_nil⟩,
    .library hordering fun _ h => absurd h List.not_mem_nil⟩

def pickedModel : String :=
  "SELECT\n  ID\nFROM \x7b\x7b source('B', 'C') \x7d\x7d\nWHERE\n  LABEL = '\x7d\x7d \x7b'"

def rankedModel : String :=
  "SELECT\n  ID\nFROM \x7b\x7b ref('STEP_1') \x7d\x7d\nORDER BY ID DESC"

theorem renderSteps_ranked :
    ranked.renderSteps modelReference =
      .ok [⟨"STEP_1", "filter", pickedModel, .source (.table sheet (some idColumn)), some idColumn⟩,
        ⟨"STEP_2_ORDER", "order", rankedModel, .step "STEP_1", some idColumn⟩] :=
  eq_ok_of_toOption (by decide +kernel)

def viewHeader : ModelHeader :=
  [("materialized", "view")]

theorem ranked_models :
    (Reachable ranked ∧ 1 ≤ ranked.depth ∧ (∀ text ∈ viewHeader.tags, ReadsBack text) ∧
      ranked.source.WellNamed ∧
      (∀ text, referenceTag? (.source ranked.source) = some text → ReadsBack text) ∧
      EachStep (PrintsInput modelReference) ranked) ∧
    ∃ project, ModelProject.ofChain viewHeader ranked = .ok project ∧
      project.models = [("STEP_1.sql", viewHeader.modelText pickedModel),
        ("STEP_2_ORDER.sql", viewHeader.modelText rankedModel)] ∧
      (∃ tokens, HoldsOwnTags viewHeader
        ⟨"STEP_1", "filter", "SELECT\n  ID\nFROM A.B.C\nWHERE\n  LABEL = '\x7d\x7d \x7b'",
          .source (.table sheet (some idColumn)), some idColumn⟩
        (viewHeader.modelText pickedModel) tokens) ∧
      ∃ tokens, HoldsOwnTags viewHeader
        ⟨"STEP_2_ORDER", "order", "SELECT\n  ID\nFROM STEP_1\nORDER BY ID DESC", .step "STEP_1",
          some idColumn⟩
        (viewHeader.modelText rankedModel) tokens := by
  have hfield : ModelHeader.IsPlainField ("materialized", "view") :=
    ⟨List.all_eq_true.mp (by decide), by decide⟩
  have hheader : ∀ text ∈ viewHeader.tags, ReadsBack text :=
    ModelHeader.readsBack_tags (List.forall_mem_singleton.mpr hfield)
  have hsource : ranked.source.WellNamed := ⟨"A.B.C", rfl⟩
  have hreference : ∀ text, referenceTag? (.source ranked.source) = some text →
      ReadsBack text := by
    intro text htext
    cases htext
    exact readsBack_source (List.forall_mem_singleton.mpr (by decide))
      (List.forall_mem_singleton.mpr (by decide))
  rcases reachable_ranked.models_hold_own_tags (by decide) hheader hsource hreference
    printsInput_ranked with ⟨project, hproject, -, hmodels⟩
  have hlisted := ModelProject.ofChain_of_ok viewHeader renderSteps_ranked (List.cons_ne_nil _ _)
  rw [hproject] at hlisted
  cases hlisted
  refine ⟨⟨reachable_ranked, by decide, hheader, hsource, hreference, printsInput_ranked⟩, _,
    hproject, rfl, ?_⟩
  rcases hmodels with _ | ⟨⟨-, hfirst⟩, _ | ⟨⟨-, hsecond⟩, -⟩⟩
  constructor
  · apply hfirst
    · intro kind
      cases kind <;> decide
    · intro text htext
      cases htext
      decide +kernel
  · apply hsecond
    · intro kind
      cases kind <;> decide
    · intro text htext
      cases htext
      decide +kernel

end Chain
end TransformChain
