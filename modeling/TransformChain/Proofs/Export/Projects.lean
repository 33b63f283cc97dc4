import TransformChain.Proofs.Chain.Views
import TransformChain.Proofs.Export.Listing
import TransformChain.Proofs.Storage.Writing
import TransformChain.Proofs.Template.Yields

/-!
# Exported projects

A chain is exported as one model for each step and a list of these models.  All steps are written
before the first file is, so that a step that cannot be written leaves the storage alone; and the
files get in the way of neither each other nor the list, since the names of the steps differ.
-/

namespace TransformChain

/-!
## Steps that can be written again
-/

namespace Chain

def Renders (reference : StepInput → String) (parent : Chain) (s : Step) : Prop :=
  ∃ rendered, s.renderFrom (reference parent.asInput) parent.asInput.label = .ok rendered

theorem exists_renderSteps_iff {reference : StepInput → String}
    (hreference : ∀ input, reference input ≠ "") (chain : Chain) :
    (∃ steps, chain.renderSteps reference = .ok steps) ↔ EachStep (Renders reference) chain := by
  induction chain with
  | root dataset => exact ⟨fun _ => trivial, fun _ => ⟨[], rfl⟩⟩
  | step parent name s ih =>
      unfold EachStep
      rw [← ih]
      constructor
      · rintro ⟨steps, hsteps⟩
        rcases renderSteps_step hsteps with ⟨before, rendered, hbefore, hrender, -⟩
        rw [referredSource_of_ne_empty (hreference _)] at hrender
        exact ⟨⟨before, hbefore⟩, rendered, hrender⟩
      · rintro ⟨⟨before, hbefore⟩, rendered, hrender⟩
        rw [← referredSource_of_ne_empty (hreference _) before] at hrender
        unfold renderSteps
        rw [hbefore]
        simp only [hrender]
        exact ⟨_, rfl⟩

end Chain

theorem modelReference_ne_empty (input : StepInput) : modelReference input ≠ "" := by
  have htag : ∀ text, tag text ≠ "" := by
    intro text heq
    have hlist := congrArg String.toList heq
    simp [tag] at hlist
  cases input with
  | source dataset =>
      cases dataset with
      | table name columns => exact htag _
      | query name sql columns => exact (Dataset.query name sql columns).relation_ne_empty
  | step name => exact htag _

theorem modelReference_table (name : TableName) (columns : Option Schema) :
    modelReference (.source (.table name columns)) =
      "\x7b\x7b source('" ++ name.schema ++ "', '" ++ name.table ++ "') \x7d\x7d" := by
  have hopen : "\x7b\x7b source('" = "\x7b\x7b " ++ "source('" := by decide
  have hclose : "') \x7d\x7d" = "')" ++ " \x7d\x7d" := by decide
  rw [hopen, hclose]
  simp only [modelReference, tag, String.append_assoc]

theorem modelReference_step (name : String) :
    modelReference (.step name) = "\x7b\x7b ref('" ++ name ++ "') \x7d\x7d" := by
  have hopen : "\x7b\x7b ref('" = "\x7b\x7b " ++ "ref('" := by decide
  have hclose : "') \x7d\x7d" = "')" ++ " \x7d\x7d" := by decide
  rw [hopen, hclose]
  simp only [modelReference, tag, String.append_assoc]

/-!
## Writing the files
-/

namespace ModelProject

/-!
### Runs over files in memory
-/

theorem run_bind_of_ok {α β : Type} {x : ExceptT Failure (StateM Files) α} {a : α}
    {files next : Files} (h : x.run files = (.ok a, next))
    (f : α → ExceptT Failure (StateM Files) β) : (x >>= f).run files = (f a).run next := by
  have hbind : (x >>= f).run files = ExceptT.bindCont f (x.run files).1 (x.run files).2 := rfl
  rw [hbind, h]
  rfl

theorem expect_of_true {request : StateM Files Bool} {files next : Files}
    (h : request files = (true, next)) (attempt : Attempt) :
    (Storage.expect attempt request).run files = (.ok (), next) := by
  have hlift : (liftM request : ExceptT Failure (StateM Files) Bool).run files =
      (.ok (request files).1, (request files).2) := rfl
  rw [h] at hlift
  exact run_bind_of_ok hlift _

section Writing

variable {directory : String} {place : Place} {files : Files}

theorem writeFiles_storage {entries : List (String × String)}
    (hplace : Files.place? directory = some place) (hdirectory : files.isDirectory place = true)
    (hnames : ∀ entry ∈ entries, Path.IsFileName entry.1)
    (hdistinct : entries.Pairwise fun earlier later => earlier.1 ≠ later.1)
    (hfree : ∀ entry ∈ entries, files.IsFree (place ++ [entry.1])) :
    (writeFiles Files.storage directory entries).run files =
      (.ok (), ⟨files.files ++ entries.map fun entry => (place ++ [entry.1], entry.2),
        files.directories⟩) := by
  induction entries generalizing files with
  | nil =>
      rw [List.map_nil, List.append_nil]
      rfl
  | cons entry entries ih =>
      obtain ⟨name, content⟩ := entry
      obtain ⟨hname, hothers⟩ := List.forall_mem_cons.mp hnames
      obtain ⟨hfirst, hrest⟩ := List.forall_mem_cons.mp hfree
      obtain ⟨hne, hdistinct⟩ := List.pairwise_cons.mp hdistinct
      have hwrite := Files.storage_write hplace hname hdirectory hfirst content
      have hstep := expect_of_true hwrite (.writeFile (Path.join directory name))
      have hkept := ih (Files.isDirectory_add hdirectory (place ++ [name]) content) hothers
        hdistinct fun other hmem => (hrest other hmem).add (Ne.symm (hne other hmem)) content
      unfold writeFiles
      rw [run_bind_of_ok hstep, hkept]
      simp [Files.add]

theorem write_storage {project : ModelProject} (hplace : Files.place? directory = some place)
    (hvacant : files.IsVacant place)
    (hnames : ∀ entry ∈ project.models, Path.IsFileName entry.1)
    (hdistinct : (project.models.map Prod.fst ++ [listingName]).Nodup) :
    (project.write Files.storage directory).run files =
      (.ok (), ⟨files.files ++ (project.models ++ [(listingName, project.listing)]).map
          fun entry => (place ++ [entry.1], entry.2),
        files.directories ++ Files.upward place⟩) := by
  have hlisting : Path.IsFileName listingName :=
    ⟨by decide, by decide, by decide, by decide⟩
  have hmade := expect_of_true (Files.storage_createDirectories hplace hvacant)
    (.createDirectory directory)
  have hall : ∀ entry ∈ project.models ++ [(listingName, project.listing)],
      Path.IsFileName entry.1 :=
    List.forall_mem_append.mpr ⟨hnames, List.forall_mem_singleton.mpr hlisting⟩
  have hpairwise : (project.models ++ [(listingName, project.listing)]).Pairwise
      fun earlier later => earlier.1 ≠ later.1 := by
    rw [← List.pairwise_map, List.map_append]
    exact hdistinct
  unfold write
  rw [run_bind_of_ok hmade, writeFiles_storage hplace (Files.isDirectory_made files place) hall
    hpairwise fun entry _ => hvacant.isFree entry.1]

end Writing

/-!
### Chains
-/

section OfChain

variable {header : ModelHeader} {chain : Chain} {steps : List StepFragment}

theorem ofChain_of_ok (header : ModelHeader) (h : chain.renderSteps modelReference = .ok steps)
    (hne : steps ≠ []) :
    ofChain header chain =
      .ok ⟨steps.map (stepFile header),
        Model.listing (sourceTables chain.source) (stepModels steps)⟩ := by
  unfold ofChain
  rw [h]
  cases steps with
  | nil => exact absurd rfl hne
  | cons step rest => rfl

theorem exists_ofChain_eq_error (header : ModelHeader)
    (h : chain.depth = 0 ∨ ¬Chain.EachStep (Chain.Renders modelReference) chain) :
    ∃ failure, ofChain header chain = .error failure := by
  unfold ofChain
  cases hsteps : chain.renderSteps modelReference with
  | error e => exact ⟨_, rfl⟩
  | ok steps =>
      rcases h with hdepth | hrenders
      · have hnone : steps = [] := by
          rw [← List.length_eq_zero_iff, Chain.length_renderSteps hsteps, hdepth]
        rw [hnone]
        exact ⟨_, rfl⟩
      · exact absurd ((Chain.exists_renderSteps_iff modelReference_ne_empty chain).mp ⟨steps, hsteps⟩)
          hrenders

theorem exportChain_of_error {m : Type → Type} [Monad m] [LawfulMonad m] {failure : Failure}
    (h : ofChain header chain = .error failure) (storage : Storage m) (directory : String) :
    (exportChain storage header chain directory).run = pure (.error failure) := by
  unfold exportChain
  rw [h]
  exact pure_bind _ _

theorem run_exportChain {m : Type → Type} [Monad m] [LawfulMonad m] {project : ModelProject}
    (h : ofChain header chain = .ok project) (storage : Storage m) (directory : String) :
    (exportChain storage header chain directory).run = (project.write storage directory).run := by
  unfold exportChain
  rw [h]
  exact pure_bind _ _

theorem exportChain_of_ok {project : ModelProject} (h : ofChain header chain = .ok project)
    (directory : String) (files : Files) :
    (exportChain Files.storage header chain directory).run files =
      (project.write Files.storage directory).run files := by
  rw [run_exportChain h]

theorem stepModels_concat (before : List StepFragment) (last : StepFragment) :
    stepModels (before ++ [last]) =
      (before.map fun step => ⟨step.name, step.transform ++ " step", []⟩) ++
        [⟨last.name, last.transform ++ " step", last.columns.getD []⟩] := by
  induction before with
  | nil => rfl
  | cons step before ih =>
      cases before with
      | nil => rfl
      | cons next before =>
          exact congrArg (List.cons ⟨step.name, step.transform ++ " step", []⟩) ih

end OfChain

/-!
### Names of the files
-/

theorem isFileName_fileName {name : String} (h : Text.isIdentifier name = true) :
    Path.IsFileName (fileName name) := by
  have hlonger : 4 ≤ (fileName name).length := by
    unfold fileName
    rw [String.length_append]
    exact Nat.le_add_left 4 _
  have hne : ∀ other : String, other.length < 4 → fileName name ≠ other := by
    rintro other hshort rfl
    omega
  have hsuffix : '/' ∉ ".sql".toList := by decide
  refine ⟨?_, hne "" (by decide), hne "." (by decide), hne ".." (by decide)⟩
  unfold fileName
  rw [String.toList_append, List.mem_append, not_or]
  exact ⟨Text.notMem_of_isIdentifier h (by decide) (by decide), hsuffix⟩

theorem lowerAscii_fileName (name : String) :
    Text.lowerAscii (fileName name) = Text.lowerAscii name ++ ".sql" := by
  unfold fileName
  rw [Text.lowerAscii_append]
  rfl

theorem lowerAscii_fileName_inj {name other : String}
    (h : Text.lowerAscii (fileName name) = Text.lowerAscii (fileName other)) :
    Text.lowerAscii name = Text.lowerAscii other := by
  rw [lowerAscii_fileName, lowerAscii_fileName, ← String.toList_inj, String.toList_append,
    String.toList_append] at h
  exact String.toList_inj.mp (List.append_cancel_right h)

theorem lowerAscii_fileName_ne (name : String) :
    Text.lowerAscii (fileName name) ≠ Text.lowerAscii listingName := by
  have hlisting : Text.lowerAscii listingName = "schema" ++ ".yml" := by decide
  rw [lowerAscii_fileName, hlisting]
  intro heq
  have hlist := String.toList_inj.mpr heq
  rw [String.toList_append, String.toList_append] at hlist
  have hlength : ".sql".toList.length = ".yml".toList.length := by decide
  exact absurd (List.append_inj_right' hlist hlength) (by decide)

end ModelProject

/-!
## Exported chains
-/

namespace Chain

/-- The models of the chain: one for each step, in files whose names differ from each other and
from that of the list in more than letter case, each written from the step's place in the chain,
the first from the base dataset and every other one from a reference to the model before it. -/
structure ModelsOf (chain : Chain) (steps : List StepFragment) : Prop where
  count : steps.length = chain.depth
  names : steps.map StepFragment.name = chain.stepNames
  distinct : (steps.map (fun step => step.name ++ ".sql") ++ ["schema.yml"]).Pairwise
    fun earlier later => Text.lowerAscii earlier ≠ Text.lowerAscii later
  written : ∀ (i : Nat) (model : StepFragment), steps[i]? = some model →
    ∃ upTo s output, chain.lineage[i]? = some upTo ∧ upTo.step? = some s ∧
      s.renderFrom (modelReference model.input) model.input.label = .ok ⟨model.sql, output⟩
  first : ∀ (model : StepFragment), steps[0]? = some model → model.input = .source chain.source
  first_table : ∀ (model : StepFragment) (name : TableName) (columns : Option Schema),
    steps[0]? = some model → chain.source = .table name columns →
    modelReference model.input =
      "\x7b\x7b source('" ++ name.schema ++ "', '" ++ name.table ++ "') \x7d\x7d"
  first_query : ∀ (model : StepFragment) (label sql : String) (columns : Option Schema),
    steps[0]? = some model → chain.source = .query label sql columns →
    modelReference model.input = "(\n" ++ sql ++ "\n)"
  next : ∀ (i : Nat) (model later : StepFragment), steps[i]? = some model →
    steps[i + 1]? = some later → later.input = .step model.name
  next_reference : ∀ (i : Nat) (model later : StepFragment), steps[i]? = some model →
    steps[i + 1]? = some later →
    modelReference later.input = "\x7b\x7b ref('" ++ model.name ++ "') \x7d\x7d"

/-- The entries of the list of models: those of the steps in their order, with the columns of the
chain at the last one only, and of the base table if there is one. -/
structure ListingOf (chain : Chain) (sources : List TableName) (models : List Model) : Prop where
  names : models.map Model.name = chain.stepNames
  descriptions : models.map Model.description =
    (chain.lineage.filterMap step?).map fun s => s.transform.name ++ " step"
  columns : ∀ (i : Nat) (model : Model), models[i]? = some model →
    model.columns = if i + 1 = chain.depth then chain.declaredColumns.getD [] else []
  table : ∀ (name : TableName) (columns : Option Schema),
    chain.source = .table name columns → sources = [name]
  query : ∀ (label sql : String) (columns : Option Schema),
    chain.source = .query label sql columns → sources = []

section Export

variable {chain : Chain} {steps : List StepFragment}

theorem Reachable.modelsOf (h : Reachable chain)
    (hsteps : chain.renderSteps modelReference = .ok steps) : chain.ModelsOf steps := by
  have hnames := map_name_renderSteps hsteps
  constructor
  case count => exact length_renderSteps hsteps
  case names => exact hnames
  case distinct =>
    have hdistinct := h.wellNamed.distinct
    rw [← hnames, List.pairwise_map] at hdistinct
    rw [List.pairwise_append, List.pairwise_map]
    refine ⟨hdistinct.imp fun hne heq => ?_, List.pairwise_singleton _ _, ?_⟩
    · exact hne (ModelProject.lowerAscii_fileName_inj heq)
    · intro name hname listing hlisting
      rcases List.mem_map.mp hname with ⟨step, -, rfl⟩
      rw [List.mem_singleton.mp hlisting]
      exact ModelProject.lowerAscii_fileName_ne step.name
  case written => exact rendered_lineage modelReference_ne_empty hsteps
  case first => exact fun model hmodel => renderSteps_input_first hsteps hmodel
  case first_table =>
    intro model name columns hmodel hsource
    rw [renderSteps_input_first hsteps hmodel, hsource, modelReference_table]
  case first_query =>
    intro model label sql columns hmodel hsource
    rw [renderSteps_input_first hsteps hmodel, hsource]
    rfl
  case next => exact fun i model later hmodel hlater => renderSteps_input_next hsteps hmodel hlater
  case next_reference =>
    intro i model later hmodel hlater
    rw [renderSteps_input_next hsteps hmodel hlater, modelReference_step]

theorem map_transform_renderSteps {reference : StepInput → String}
    (hsteps : chain.renderSteps reference = .ok steps) :
    steps.map StepFragment.transform =
      (chain.lineage.filterMap step?).map fun s => s.transform.name := by
  induction chain generalizing steps with
  | root dataset =>
      cases hsteps
      rfl
  | step parent name s ih =>
      rcases renderSteps_step hsteps with ⟨before, rendered, hbefore, -, rfl⟩
      unfold lineage
      rw [List.map_append, List.filterMap_append, List.map_append, ih hbefore]
      rfl

theorem exists_concat_of_renderSteps {reference : StepInput → String} (hdepth : 1 ≤ chain.depth)
    (hsteps : chain.renderSteps reference = .ok steps) :
    ∃ before last, steps = before ++ [last] ∧ last.columns = chain.declaredColumns := by
  cases chain with
  | root dataset => cases hdepth
  | step parent name s =>
      rcases renderSteps_step hsteps with ⟨before, rendered, -, -, rfl⟩
      exact ⟨before, _, rfl, rfl⟩

theorem listingOf (hdepth : 1 ≤ chain.depth)
    (hsteps : chain.renderSteps modelReference = .ok steps) :
    chain.ListingOf (ModelProject.sourceTables chain.source) (ModelProject.stepModels steps) := by
  rcases exists_concat_of_renderSteps hdepth hsteps with ⟨before, last, rfl, hcolumns⟩
  have hlength := length_renderSteps hsteps
  rw [List.length_append, List.length_singleton] at hlength
  constructor
  case names =>
    rw [← map_name_renderSteps hsteps, ModelProject.stepModels_concat]
    simp
  case descriptions =>
    have hdescribed := congrArg (List.map (· ++ " step")) (map_transform_renderSteps hsteps)
    rw [List.map_map, List.map_map] at hdescribed
    refine Eq.trans ?_ hdescribed
    rw [ModelProject.stepModels_concat]
    simp
  case columns =>
    intro i model hmodel
    rw [ModelProject.stepModels_concat, List.getElem?_append, List.length_map] at hmodel
    split at hmodel
    case isTrue hbefore =>
      have hother : i + 1 ≠ chain.depth := by omega
      rw [List.getElem?_map] at hmodel
      rcases Option.map_eq_some_iff.mp hmodel with ⟨step, -, rfl⟩
      rw [if_neg hother]
    case isFalse hbefore =>
      rw [List.getElem?_singleton] at hmodel
      split at hmodel
      case isTrue hlast =>
        have hend : i + 1 = chain.depth := by omega
        cases hmodel
        rw [if_pos hend, hcolumns]
      case isFalse => cases hmodel
  case table =>
    intro name columns hsource
    rw [hsource]
    rfl
  case query =>
    intro label sql columns hsource
    rw [hsource]
    rfl

/-- A chain of at least one step, all of which can be written as models, is exported into a vacant
directory as its models and their list, which reads back as a YAML document of the same entries,
and nothing else is touched.  A chain without steps or with
a step that cannot be written is not exported, and no request is made to the storage. -/
theorem Reachable.export_graph (h : Reachable chain) (header : ModelHeader) :
    (1 ≤ chain.depth → EachStep (Renders modelReference) chain →
      ∃ steps sources models listing, chain.ModelsOf steps ∧ chain.ListingOf sources models ∧
        listing = String.ofList (Model.listingLines sources models) ∧
        Yaml.decode Yaml.argument listing = some (Model.listed sources models) ∧
        ∀ (directory : String) (place : Place) (files : Files),
          Files.place? directory = some place → files.IsVacant place →
          (ModelProject.exportChain Files.storage header chain directory).run files =
            (.ok (), ⟨files.files ++
              (steps.map fun step =>
                (place ++ [step.name ++ ".sql"], header.modelText step.sql)) ++
              [(place ++ ["schema.yml"], listing)],
              files.directories ++ Files.upward place⟩)) ∧
    (chain.depth = 0 ∨ ¬EachStep (Renders modelReference) chain →
      ∃ failure, ∀ {m : Type → Type} [Monad m] [LawfulMonad m] (storage : Storage m)
        (directory : String),
        (ModelProject.exportChain storage header chain directory).run = pure (.error failure)) := by
  constructor
  case left =>
    intro hdepth hrenders
    rcases (exists_renderSteps_iff modelReference_ne_empty chain).mpr hrenders with ⟨steps, hsteps⟩
    have hmodels := h.modelsOf hsteps
    have hne : steps ≠ [] := by
      rintro rfl
      rw [← hmodels.count] at hdepth
      cases hdepth
    have hlisted : ModelProject.stepModels steps ≠ [] := by
      rcases exists_concat_of_renderSteps hdepth hsteps with ⟨before, last, rfl, -⟩
      rw [ModelProject.stepModels_concat]
      exact List.append_ne_nil_of_right_ne_nil _ (List.cons_ne_nil _ _)
    refine ⟨steps, _, _, _, hmodels, listingOf hdepth hsteps, Model.listing_eq_lines _ hlisted,
      Model.decode_listing _ hlisted, ?_⟩
    intro directory place files hplace hvacant
    have hproject := ModelProject.ofChain_of_ok header hsteps hne
    have hnames : ∀ entry ∈ steps.map (ModelProject.stepFile header),
        Path.IsFileName entry.1 := by
      refine List.forall_mem_map.mpr fun step hmem => ModelProject.isFileName_fileName ?_
      apply h.wellNamed.identifiers
      rw [← hmodels.names]
      exact List.mem_map_of_mem hmem
    have hdistinct : ((steps.map (ModelProject.stepFile header)).map Prod.fst ++
        [ModelProject.listingName]).Nodup := by
      rw [List.map_map]
      exact hmodels.distinct.imp fun hne heq => hne (congrArg Text.lowerAscii heq)
    rw [ModelProject.exportChain_of_ok hproject,
      ModelProject.write_storage hplace hvacant hnames hdistinct, List.map_append, List.map_map,
      ← List.append_assoc]
    rfl
  case right =>
    intro hnone
    rcases ModelProject.exists_ofChain_eq_error header hnone with ⟨failure, hfailure⟩
    exact ⟨failure, fun storage directory =>
      ModelProject.exportChain_of_error hfailure storage directory⟩

end Export

def firstCopy : Step :=
  ⟨copying, ⟨[]⟩, some [⟨"N", none⟩], [], "SELECT * FROM A.B.NUMBERS", some [⟨"N", none⟩]⟩

def secondCopy : Step :=
  ⟨copying, ⟨[]⟩, some [⟨"N", none⟩], [], "SELECT * FROM STEP_1_COPY", some [⟨"N", none⟩]⟩

theorem renderFrom_firstCopy :
    firstCopy.renderFrom (modelReference (.source (numberTable "NUMBERS")))
        (StepInput.source (numberTable "NUMBERS")).label =
      .ok ⟨"SELECT * FROM \x7b\x7b source('B', 'NUMBERS') \x7d\x7d", none⟩ :=
  eq_ok_of_toOption (by decide +kernel)

theorem renderFrom_secondCopy :
    secondCopy.renderFrom (modelReference (.step "STEP_1_COPY")) (StepInput.step "STEP_1_COPY").label =
      .ok ⟨"SELECT * FROM \x7b\x7b ref('STEP_1_COPY') \x7d\x7d", none⟩ :=
  eq_ok_of_toOption (by decide +kernel)

theorem renders_tableCopiedTwice :
    EachStep (Renders modelReference) (tableCopiedTwice "NUMBERS") := by
  have hfirst : Renders modelReference (.root (numberTable "NUMBERS")) firstCopy :=
    ⟨_, renderFrom_firstCopy⟩
  have hsecond : Renders modelReference (tableCopied "NUMBERS") secondCopy :=
    ⟨_, renderFrom_secondCopy⟩
  exact ⟨⟨trivial, hfirst⟩, hsecond⟩

def copiesHeader : ModelHeader := [("materialized", "view")]

/-- The files of the example: its two models and their list. -/
def copiesModels : List (String × String) :=
  [("STEP_1_COPY.sql", "\x7b\x7b config(materialized='view') \x7d\x7d\n\n" ++
      "SELECT * FROM \x7b\x7b source('B', 'NUMBERS') \x7d\x7d\n"),
    ("STEP_2_COPY.sql", "\x7b\x7b config(materialized='view') \x7d\x7d\n\n" ++
      "SELECT * FROM \x7b\x7b ref('STEP_1_COPY') \x7d\x7d\n")]

def copiesListing : String :=
  "version: 2\n" ++
  "sources:\n- name: B\n  database: A\n  tables:\n  - name: NUMBERS\n" ++
  "models:\n- name: STEP_1_COPY\n  description: copy step\n" ++
  "- name: STEP_2_COPY\n  description: copy step\n  columns:\n  - name: N\n"

theorem listingLines_copies :
    String.ofList (Model.listingLines [⟨"A", "B", "NUMBERS"⟩]
      [⟨"STEP_1_COPY", "copy step", []⟩, ⟨"STEP_2_COPY", "copy step", [⟨"N", none⟩]⟩]) =
      copiesListing := by
  have hplain (text : String) (halpha : text.toList.head?.any Char.isAlpha = true)
      (hatom : Yaml.isNullText text = false ∧ Yaml.boolOfText? text = none)
      (hplain : Yaml.allowsPlain text.toList = true) (indent : Nat) :
      Yaml.scalarLines indent text = text.toList ++ ['\n'] :=
    Yaml.scalarLines_of_isAlpha halpha hatom.left hatom.right hplain indent
  have hsource := hplain "B" (by decide) (by decide) (by decide)
  have hdatabase := hplain "A" (by decide) (by decide) (by decide)
  have htable := hplain "NUMBERS" (by decide) (by decide) (by decide)
  have hfirst := hplain "STEP_1_COPY" (by decide) (by decide) (by decide)
  have hsecond := hplain "STEP_2_COPY" (by decide) (by decide) (by decide)
  have hdescription := hplain "copy step" (by decide) (by decide) (by decide)
  have hcolumn := hplain "N" (by decide) (by decide) (by decide)
  have hdescribed : "copy step" ≠ "" := by decide
  unfold Model.listingLines
  simp only [List.flatMap_cons, List.flatMap_nil, List.isEmpty_cons, Bool.false_eq_true, if_false]
  unfold Model.sourceLines Model.lines Model.fieldText
  simp only [List.flatMap_cons, List.flatMap_nil, List.isEmpty_cons, List.isEmpty_nil,
    Bool.false_eq_true, if_false, if_true, hdescribed, hsource, hdatabase, htable, hfirst, hsecond,
    hdescription]
  unfold Model.columnLines Model.fieldText copiesListing
  simp only [hcolumn]
  rw [← String.toList_inj, String.toList_ofList]
  simp

theorem models_tableCopiedTwice {steps : List StepFragment}
    (h : (tableCopiedTwice "NUMBERS").ModelsOf steps) :
    steps.map (fun step => (step.name ++ ".sql", copiesHeader.modelText step.sql)) =
      copiesModels := by
  match steps, h.count with
  | [first, second], _ =>
      have hnames : [first.name, second.name] = ["STEP_1_COPY", "STEP_2_COPY"] := h.names
      rw [List.cons.injEq, List.cons.injEq] at hnames
      have hfirst : first.sql = "SELECT * FROM \x7b\x7b source('B', 'NUMBERS') \x7d\x7d" := by
        rcases h.written 0 first rfl with ⟨_, s, output, hupTo, hs, hwritten⟩
        cases hupTo
        cases hs
        rw [h.first first rfl] at hwritten
        exact congrArg Template.Rendered.sql (Except.ok.inj (hwritten.symm.trans renderFrom_firstCopy))
      have hsecond : second.sql = "SELECT * FROM \x7b\x7b ref('STEP_1_COPY') \x7d\x7d" := by
        rcases h.written 1 second rfl with ⟨_, s, output, hupTo, hs, hwritten⟩
        cases hupTo
        cases hs
        rw [h.next 0 first second rfl rfl, hnames.left] at hwritten
        exact congrArg Template.Rendered.sql (Except.ok.inj (hwritten.symm.trans renderFrom_secondCopy))
      simp only [List.map_cons, List.map_nil, hnames.left, hnames.right.left, hfirst, hsecond]
      decide +kernel

theorem listing_tableCopiedTwice {sources : List TableName} {models : List Model}
    (h : (tableCopiedTwice "NUMBERS").ListingOf sources models) :
    sources = [⟨"A", "B", "NUMBERS"⟩] ∧
      models = [⟨"STEP_1_COPY", "copy step", []⟩, ⟨"STEP_2_COPY", "copy step", [⟨"N", none⟩]⟩] := by
  constructor
  · exact h.table _ _ rfl
  · have hlength : models.length = 2 := by
      rw [← List.length_map Model.name, h.names]
      rfl
    match models, hlength with
    | [⟨firstName, firstDescription, firstColumns⟩,
        ⟨secondName, secondDescription, secondColumns⟩], _ =>
        have hnames : [firstName, secondName] = ["STEP_1_COPY", "STEP_2_COPY"] := h.names
        have hdescriptions : [firstDescription, secondDescription] = ["copy step", "copy step"] :=
          h.descriptions
        have hfirst : firstColumns = [] := h.columns 0 _ rfl
        have hsecond : secondColumns = [⟨"N", none⟩] := h.columns 1 _ rfl
        cases hnames
        cases hdescriptions
        rw [hfirst, hsecond]

theorem tableCopiedTwice_exported :
    (Reachable (tableCopiedTwice "NUMBERS") ∧ 1 ≤ (tableCopiedTwice "NUMBERS").depth ∧
      EachStep (Renders modelReference) (tableCopiedTwice "NUMBERS") ∧
      Files.place? "./out/models/" = some ["out", "models"] ∧
      Files.IsVacant ⟨[(["README.md"], "")], []⟩ ["out", "models"]) ∧
    (ModelProject.exportChain Files.storage copiesHeader
        (tableCopiedTwice "NUMBERS") "./out/models/").run ⟨[(["README.md"], "")], []⟩ =
      (.ok (), ⟨(["README.md"], "") ::
        (copiesModels ++ [("schema.yml", copiesListing)]).map fun file =>
          (["out", "models", file.1], file.2),
        [["out"], ["out", "models"]]⟩) := by
  have h : Reachable (tableCopiedTwice "NUMBERS") := reachable_tableCopiedTwice (by rfl) (by rfl)
  have hplace : Files.place? "./out/models/" = some ["out", "models"] := by decide +kernel
  have hvacant : Files.IsVacant ⟨[(["README.md"], "")], []⟩ ["out", "models"] := by
    refine ⟨by decide, ?_, by simp⟩
    simp [List.prefix_cons_iff]
  rcases (h.export_graph copiesHeader).left (by decide) renders_tableCopiedTwice with
    ⟨steps, sources, models, listing, hmodels, hlisting, htext, -, hexport⟩
  constructor
  · exact ⟨h, by decide, renders_tableCopiedTwice, hplace, hvacant⟩
  · rcases listing_tableCopiedTwice hlisting with ⟨rfl, rfl⟩
    have hfiles := congrArg (List.map fun file : String × String =>
      ((["out", "models", file.1], file.2) : Place × String)) (models_tableCopiedTwice hmodels)
    rw [List.map_map] at hfiles
    have hrun := hexport "./out/models/" ["out", "models"] ⟨[(["README.md"], "")], []⟩ hplace hvacant
    rw [htext, listingLines_copies] at hrun
    rw [List.map_append, ← hfiles]
    exact hrun

end Chain
end TransformChain
