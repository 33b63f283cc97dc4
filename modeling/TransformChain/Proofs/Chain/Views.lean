import TransformChain.Proofs.Chain.Fragments
import TransformChain.Session

/-!
# Views of a chain

The views of a chain are created one after the other: the first reads from the base dataset, every
other one from the view before it.  Their names differ among each other, but nothing keeps them
from the name of the base table, and a view reads from itself or from a later one exactly if one of
them takes that name.
-/

namespace TransformChain

/-!
## Letter case of qualified names
-/

namespace Text

theorem toLower_eq_iff {c d : Char} (h : d.toNat < 65) : c.toLower = d ↔ c = d := by
  unfold Char.toLower
  split
  case isTrue hupper =>
    have hle : 65 ≤ c.toNat := UInt32.le_iff_toNat_le.mp hupper.left
    have hge : c.toNat ≤ 90 := UInt32.le_iff_toNat_le.mp hupper.right
    constructor
    · rintro rfl
      have hval : (c.val + ('a'.val - 'A'.val)).toNat = c.toNat + 32 := by
        rw [UInt32.toNat_add]
        exact Nat.mod_eq_of_lt (by simp; omega)
      change (c.val + ('a'.val - 'A'.val)).toNat < 65 at h
      omega
    · rintro rfl
      omega
  case isFalse => exact Iff.rfl

theorem mem_lowerAscii_iff {d : Char} (h : d.toNat < 65) {s : String} :
    d ∈ (lowerAscii s).toList ↔ d ∈ s.toList := by
  unfold lowerAscii
  rw [String.toList_ofList]
  constructor
  · intro hmem
    rcases List.mem_map.mp hmem with ⟨c, hc, hlower⟩
    rw [← (toLower_eq_iff h).mp hlower]
    exact hc
  · intro hmem
    exact List.mem_map.mpr ⟨d, hmem, (toLower_eq_iff h).mpr rfl⟩

theorem notMem_of_isIdentifier {name : String} (h : isIdentifier name = true) {d : Char}
    (hstart : isIdentifierStart d = false) (hchar : isIdentifierChar d = false) :
    d ∉ name.toList := by
  rcases (isIdentifier_iff name).mp h with ⟨c, rest, hlist, hc, hrest⟩
  rw [hlist]
  intro hmem
  rcases List.mem_cons.mp hmem with rfl | hmem
  · rw [hstart] at hc
    cases hc
  · have hd := hrest d hmem
    rw [hchar] at hd
    cases hd

theorem split_lastDot {xs ys u v : List Char} (hu : '.' ∉ u) (hv : '.' ∉ v)
    (h : xs ++ '.' :: u = ys ++ '.' :: v) : xs = ys ∧ u = v := by
  rcases List.append_eq_append_iff.mp h with ⟨between, hxs, hrest⟩ | ⟨between, hys, hrest⟩
  · cases between with
    | nil =>
        cases hrest
        exact ⟨by rw [hxs, List.append_nil], rfl⟩
    | cons c more =>
        cases hrest
        exact absurd (List.mem_append_right more List.mem_cons_self) hu
  · cases between with
    | nil =>
        cases hrest
        exact ⟨by rw [hys, List.append_nil], rfl⟩
    | cons c more =>
        cases hrest
        exact absurd (List.mem_append_right more List.mem_cons_self) hv

end Text

namespace TableName

def Alike (name other : TableName) : Prop :=
  Text.lowerAscii name.display = Text.lowerAscii other.display

theorem toList_lowerAscii_display (name : TableName) :
    (Text.lowerAscii name.display).toList =
      (Text.lowerAscii name.namespaceOf.display).toList ++
        '.' :: (Text.lowerAscii name.table).toList := by
  have hdisplay : name.display = name.namespaceOf.display ++ ("." ++ name.table) := by
    simp [display, namespaceOf, Namespace.display, String.append_assoc]
  rw [hdisplay, Text.lowerAscii_append, Text.lowerAscii_append, String.toList_append,
    String.toList_append]
  rfl

theorem alike_iff {name other : TableName} (hname : '.' ∉ name.table.toList)
    (hother : '.' ∉ other.table.toList) :
    name.Alike other ↔
      Text.lowerAscii name.namespaceOf.display = Text.lowerAscii other.namespaceOf.display ∧
      Text.lowerAscii name.table = Text.lowerAscii other.table := by
  unfold Alike
  rw [← String.toList_inj, toList_lowerAscii_display, toList_lowerAscii_display]
  constructor
  · intro h
    have hparts := Text.split_lastDot
      (mt (Text.mem_lowerAscii_iff (by decide)).mp hname)
      (mt (Text.mem_lowerAscii_iff (by decide)).mp hother) h
    exact ⟨String.toList_inj.mp hparts.left, String.toList_inj.mp hparts.right⟩
  · rintro ⟨hns, htable⟩
    rw [hns, htable]

theorem alike_table_iff {ns : Namespace} {name other : String} :
    (ns.table name).Alike (ns.table other) ↔ Text.lowerAscii name = Text.lowerAscii other := by
  unfold Alike
  rw [← String.toList_inj, toList_lowerAscii_display, toList_lowerAscii_display,
    ← String.toList_inj]
  simp [Namespace.table, namespaceOf]

end TableName

theorem Dataset.lowerAscii_relation_query (label sql : String) (columns : Option Schema)
    {ns : Namespace} {name : String} (hname : Text.isIdentifier name = true) :
    Text.lowerAscii (query label sql columns).relation ≠
      Text.lowerAscii (ns.table name).display := by
  intro h
  have hend : (Text.lowerAscii (query label sql columns).relation).toList.getLast? = some ')' := by
    simp only [relation, Text.lowerAscii_append, String.toList_append]
    rw [List.getLast?_append_of_ne_nil _ (by decide)]
    decide
  rw [h, TableName.toList_lowerAscii_display,
    List.getLast?_append_of_ne_nil _ (List.cons_ne_nil _ _)] at hend
  rcases List.mem_cons.mp (List.mem_of_getLast? hend) with hdot | hmem
  · exact absurd hdot (by decide)
  · rw [Text.mem_lowerAscii_iff (by decide)] at hmem
    exact Text.notMem_of_isIdentifier hname (by decide) (by decide) hmem

namespace Chain

/-!
## Steps that are written again
-/

section Rendering

variable {reference : StepInput → String} {chain parent : Chain} {name : String} {s : Step}
variable {steps : List StepFragment}

theorem referredSource_of_ne_empty (h : reference chain.asInput ≠ "")
    (before : List StepFragment) :
    chain.referredSource reference before = reference chain.asInput := by
  unfold referredSource
  simp only [h, if_false]

theorem renderSteps_step (h : (step parent name s).renderSteps reference = .ok steps) :
    ∃ before rendered, parent.renderSteps reference = .ok before ∧
      s.renderFrom (parent.referredSource reference before) parent.asInput.label = .ok rendered ∧
      steps = before ++
        [⟨name, s.transform.name, rendered.sql, parent.asInput, s.output⟩] := by
  unfold renderSteps at h
  cases hbefore : parent.renderSteps reference with
  | error e =>
      rw [hbefore] at h
      cases h
  | ok before =>
      simp only [hbefore] at h
      cases hrender : s.renderFrom (parent.referredSource reference before)
          parent.asInput.label with
      | error e =>
          rw [hrender] at h
          cases h
      | ok rendered =>
          rw [hrender] at h
          cases h
          exact ⟨before, rendered, rfl, hrender, rfl⟩

theorem map_renderSteps (h : chain.renderSteps reference = .ok steps) :
    steps.map (fun fragment => (fragment.name, fragment.input)) =
      chain.fragments.map (fun fragment => (fragment.name, fragment.input)) := by
  induction chain generalizing steps with
  | root dataset =>
      cases h
      rfl
  | step parent name s ih =>
      rcases renderSteps_step h with ⟨before, rendered, hbefore, -, rfl⟩
      simp only [fragments, List.map_append, ih hbefore]
      rfl

theorem map_name_renderSteps (h : chain.renderSteps reference = .ok steps) :
    steps.map StepFragment.name = chain.stepNames := by
  have hfirst := congrArg (List.map Prod.fst) (map_renderSteps h)
  rw [List.map_map, List.map_map] at hfirst
  exact hfirst.trans (map_name_fragments chain)

theorem length_renderSteps (h : chain.renderSteps reference = .ok steps) :
    steps.length = chain.depth := by
  rw [← length_stepNames, ← map_name_renderSteps h, List.length_map]

theorem exists_fragment_of_renderSteps (h : chain.renderSteps reference = .ok steps) {i : Nat}
    {view : StepFragment} (hview : steps[i]? = some view) :
    ∃ fragment, chain.fragments[i]? = some fragment ∧ fragment.name = view.name ∧
      fragment.input = view.input := by
  have hi := congrArg (fun pairs => pairs[i]?) (map_renderSteps h)
  simp only [List.getElem?_map, hview, Option.map_some] at hi
  rcases hfragment : chain.fragments[i]? with _ | fragment
  · rw [hfragment] at hi
    cases hi
  · rw [hfragment] at hi
    simp only [Option.map_some, Option.some.injEq, Prod.mk.injEq] at hi
    exact ⟨fragment, rfl, hi.left.symm, hi.right.symm⟩

theorem renderSteps_input_first (h : chain.renderSteps reference = .ok steps)
    {view : StepFragment} (hview : steps[0]? = some view) : view.input = .source chain.source := by
  rcases exists_fragment_of_renderSteps h hview with ⟨fragment, hfragment, -, hinput⟩
  rw [← hinput]
  exact input_first chain fragment hfragment

theorem renderSteps_input_next (h : chain.renderSteps reference = .ok steps) {i : Nat}
    {view later : StepFragment} (hview : steps[i]? = some view)
    (hlater : steps[i + 1]? = some later) : later.input = .step view.name := by
  rcases exists_fragment_of_renderSteps h hview with ⟨fragment, hfragment, hname, -⟩
  rcases exists_fragment_of_renderSteps h hlater with ⟨after, hafter, -, hinput⟩
  rw [← hinput, ← hname]
  exact input_next chain i fragment after hfragment hafter

theorem rendered_lineage (hreference : ∀ input, reference input ≠ "")
    (h : chain.renderSteps reference = .ok steps) (i : Nat) (fragment : StepFragment)
    (hi : steps[i]? = some fragment) :
    ∃ upTo s output, chain.lineage[i]? = some upTo ∧ upTo.step? = some s ∧
      s.renderFrom (reference fragment.input) fragment.input.label =
        .ok ⟨fragment.sql, output⟩ := by
  induction chain generalizing steps with
  | root dataset =>
      cases h
      simp at hi
  | step parent name s ih =>
      rcases renderSteps_step h with ⟨before, rendered, hbefore, hrender, rfl⟩
      have hlength : before.length = parent.depth := length_renderSteps hbefore
      unfold lineage
      rw [List.getElem?_append] at hi ⊢
      rw [length_lineage, ← hlength]
      by_cases hlast : i < before.length
      · rw [if_pos hlast] at hi ⊢
        exact ih hbefore hi
      · rw [if_neg hlast] at hi ⊢
        rw [List.getElem?_singleton] at hi ⊢
        by_cases hzero : i - before.length = 0
        · rw [if_pos hzero] at hi ⊢
          cases hi
          rw [referredSource_of_ne_empty (hreference _)] at hrender
          exact ⟨_, s, rendered.output, rfl, rfl, hrender⟩
        · rw [if_neg hzero] at hi
          cases hi

end Rendering

/-!
## Views
-/

theorem viewReference_ne_empty (ns : Namespace) (input : StepInput) :
    viewReference ns input ≠ "" := by
  cases input with
  | source dataset => exact dataset.relation_ne_empty
  | step name => exact (ns.table name).display_ne_empty

/-- The views of the chain in the namespace: one for each step, under names that differ, each
written from the step's place in the chain, the first from the base dataset and every other one
from the view before it. -/
structure ViewsOf (chain : Chain) (ns : Namespace) (steps : List StepFragment) : Prop where
  names : steps.map StepFragment.name = chain.stepNames
  distinct : steps.Pairwise fun earlier later =>
    ¬(ns.table earlier.name).Alike (ns.table later.name)
  written : ∀ (i : Nat) (view : StepFragment), steps[i]? = some view →
    ∃ upTo s output, chain.lineage[i]? = some upTo ∧ upTo.step? = some s ∧
      s.renderFrom (viewReference ns view.input) view.input.label = .ok ⟨view.sql, output⟩
  first : ∀ view : StepFragment, steps[0]? = some view → view.input = .source chain.source
  next : ∀ (i : Nat) (view later : StepFragment), steps[i]? = some view →
    steps[i + 1]? = some later → later.input = .step view.name

theorem Reachable.viewsOf {chain : Chain} (h : Reachable chain) {ns : Namespace}
    {steps : List StepFragment} (hsteps : chain.renderSteps (viewReference ns) = .ok steps) :
    chain.ViewsOf ns steps := by
  have hnames := map_name_renderSteps hsteps
  constructor
  case names => exact hnames
  case distinct =>
    have hdistinct := h.wellNamed.distinct
    rw [← hnames, List.pairwise_map] at hdistinct
    exact hdistinct.imp fun hne halike => hne (TableName.alike_table_iff.mp halike)
  case written => exact rendered_lineage (viewReference_ne_empty ns) hsteps
  case first => exact fun view hview => renderSteps_input_first hsteps hview
  case next => exact fun i view later hview hlater => renderSteps_input_next hsteps hview hlater

def Replaces (chain : Chain) (target : TableName) : Prop :=
  ∃ base columns, chain.source = .table base columns ∧ target.Alike base

def ReadsAhead (ns : Namespace) (steps : List StepFragment) : Prop :=
  ∃ (i j : Nat) (reading read : StepFragment), i ≤ j ∧ steps[i]? = some reading ∧
    steps[j]? = some read ∧
    Text.lowerAscii (viewReference ns reading.input) = Text.lowerAscii (ns.table read.name).display

/-- Only the first view can read ahead, since the names of the views differ. -/
theorem ViewsOf.readsAhead_iff {chain : Chain} {ns : Namespace} {steps : List StepFragment}
    (hviews : chain.ViewsOf ns steps) (h : Reachable chain) :
    ReadsAhead ns steps ↔ ∃ name ∈ chain.stepNames, chain.Replaces (ns.table name) := by
  have hmem : ∀ (i : Nat) (view : StepFragment), steps[i]? = some view →
      view.name ∈ chain.stepNames := by
    intro i view hview
    rw [← hviews.names]
    exact List.mem_map_of_mem (List.mem_of_getElem? hview)
  constructor
  · rintro ⟨i, j, reading, read, hle, hreading, hread, hsame⟩
    cases i with
    | zero =>
        rw [hviews.first reading hreading] at hsame
        refine ⟨read.name, hmem j read hread, ?_⟩
        cases hsource : chain.source with
        | table base columns =>
            rw [hsource] at hsame
            exact ⟨base, columns, hsource, hsame.symm⟩
        | query label sql columns =>
            rw [hsource] at hsame
            exact absurd hsame (Dataset.lowerAscii_relation_query label sql columns
              (h.wellNamed.identifiers _ (hmem j read hread)))
    | succ i =>
        have hlt : i < steps.length := by
          have := (List.getElem?_eq_some_iff.mp hreading).choose
          omega
        have hbefore : steps[i]? = some steps[i] := List.getElem?_eq_getElem hlt
        rw [hviews.next i steps[i] reading hbefore hreading] at hsame
        have hjlt := (List.getElem?_eq_some_iff.mp hread).choose
        have hne := List.pairwise_iff_getElem.mp hviews.distinct i j hlt hjlt (by omega)
        rw [List.getElem?_eq_some_iff.mp hread |>.choose_spec] at hne
        exact absurd hsame hne
  · rintro ⟨name, hname, base, columns, hsource, halike⟩
    rw [← hviews.names] at hname
    rcases List.mem_map.mp hname with ⟨read, hmemRead, rfl⟩
    rcases List.mem_iff_getElem?.mp hmemRead with ⟨j, hread⟩
    cases hsteps : steps with
    | nil =>
        rw [hsteps] at hread
        cases hread
    | cons first rest =>
        have hfirst : steps[0]? = some first := by
          rw [hsteps]
          rfl
        rw [← hsteps]
        refine ⟨0, j, first, read, Nat.zero_le j, hfirst, hread, ?_⟩
        rw [hviews.first first hfirst, hsource]
        exact halike.symm

theorem replaces_iff {chain : Chain} {ns : Namespace} {name : String} {base : TableName}
    {columns : Option Schema} (hname : Text.isIdentifier name = true)
    (hsource : chain.source = .table base columns) (hbase : '.' ∉ base.table.toList) :
    chain.Replaces (ns.table name) ↔
      Text.lowerAscii ns.display = Text.lowerAscii base.namespaceOf.display ∧
      Text.lowerAscii name = Text.lowerAscii base.table := by
  have hdot : '.' ∉ name.toList := Text.notMem_of_isIdentifier hname (by decide) (by decide)
  have halike : (ns.table name).Alike base ↔
      Text.lowerAscii ns.display = Text.lowerAscii base.namespaceOf.display ∧
      Text.lowerAscii name = Text.lowerAscii base.table := TableName.alike_iff hdot hbase
  constructor
  · rintro ⟨other, _, hother, hreplaces⟩
    rw [hsource] at hother
    cases hother
    exact halike.mp hreplaces
  · intro hparts
    exact ⟨base, columns, hsource, halike.mpr hparts⟩

/-!
## Statements of a session
-/

theorem sql_views {session : Session} {chain : Chain} {before after : Resolver} {text : String}
    (h : session.sql chain .views before = (.ok text, after)) :
    ∃ ns steps, session.outputNamespace chain = .ok ns ∧
      chain.renderSteps (viewReference ns) = .ok steps ∧
      text = Text.join "\n\n" (steps.map fun view =>
        Sql.createStatement .view (ns.table view.name).display view.sql ++ ";") := by
  simp only [Session.sql, Asking.bind_eq_ok_iff, Asking.lift_eq_ok_iff] at h
  rcases h with ⟨ns, _, ⟨hns, -⟩, hviews, -⟩
  unfold viewChain at hviews
  cases hsteps : chain.renderSteps (viewReference ns) with
  | error e =>
      rw [hsteps] at hviews
      cases hviews
  | ok steps =>
      rw [hsteps] at hviews
      cases hviews
      exact ⟨ns, steps, hns, hsteps, rfl⟩

theorem save_default {session : Session} {chain : Chain} {kind : TableKind}
    {before after : Resolver} {target : TableName}
    (h : session.save chain none kind before = (.ok target, after)) :
    ∃ ns, session.outputNamespace chain = .ok ns ∧ target = ns.table chain.name := by
  simp only [Session.save, Asking.bind_eq_ok_iff, Asking.lift_eq_ok_iff] at h
  rcases h with ⟨query, _, -, name, _, ⟨hname, -⟩, hrequest⟩
  have htarget : name = target := by
    cases kind <;> simp only [Asking.bind_eq_ok_iff, Asking.pure_eq_ok_iff] at hrequest <;>
      exact hrequest.choose_spec.choose_spec.right.left
  unfold Session.outputTable at hname
  cases hns : session.outputNamespace chain with
  | error e =>
      rw [hns] at hname
      cases hname
  | ok ns =>
      rw [hns] at hname
      cases hname
      exact ⟨ns, rfl, htarget.symm⟩

/-- A session puts the views of a chain, and by default its output, into one namespace, each step
under its own name.  The base table is replaced exactly if that is its namespace and a step has its
name, whatever the letter case; and exactly then some view reads from itself or a later one. -/
theorem Reachable.views_replace_base_iff {chain : Chain} (h : Reachable chain)
    (hsteps : chain.isRoot = false) (session : Session) :
    (∀ before after text, session.sql chain .views before = (.ok text, after) →
      ∃ ns steps, session.outputNamespace chain = .ok ns ∧
        text = Text.join "\n\n" (steps.map fun view =>
          "CREATE OR REPLACE VIEW " ++ (ns.table view.name).display ++ " AS\n" ++
            view.sql ++ ";") ∧
        chain.ViewsOf ns steps ∧
        (ReadsAhead ns steps ↔ ∃ name ∈ chain.stepNames, chain.Replaces (ns.table name))) ∧
    (∀ kind before after target, session.save chain none kind before = (.ok target, after) →
      ∃ ns, session.outputNamespace chain = .ok ns ∧ target = ns.table chain.name ∧
        chain.name ∈ chain.stepNames) ∧
    (∀ (ns : Namespace) (name : String) (base : TableName) (columns : Option Schema),
      name ∈ chain.stepNames → chain.source = .table base columns → '.' ∉ base.table.toList →
      (chain.Replaces (ns.table name) ↔
        Text.lowerAscii ns.display = Text.lowerAscii base.namespaceOf.display ∧
        Text.lowerAscii name = Text.lowerAscii base.table)) := by
  refine ⟨?_, ?_, ?_⟩
  · intro before after text hsql
    rcases sql_views hsql with ⟨ns, steps, hns, hrender, htext⟩
    have hviews := h.viewsOf hrender
    exact ⟨ns, steps, hns, htext, hviews, hviews.readsAhead_iff h⟩
  · intro kind before after target hsave
    rcases save_default hsave with ⟨ns, hns, htarget⟩
    refine ⟨ns, hns, htarget, ?_⟩
    cases chain with
    | root dataset => cases hsteps
    | step parent name s => exact List.mem_append_right _ List.mem_cons_self
  · intro ns name base columns hname hsource hbase
    exact replaces_iff (h.wellNamed.identifiers name hname) hsource hbase

/-!
## A table and its copies
-/

def numberTable (name : String) : Dataset :=
  .table ⟨"A", "B", name⟩ (some [⟨"N", none⟩])

def tableCopied (name : String) : Chain :=
  .step (.root (numberTable name)) "STEP_1_COPY"
    ⟨copying, ⟨[]⟩, some [⟨"N", none⟩], [], "SELECT * FROM A.B." ++ name, some [⟨"N", none⟩]⟩

def tableCopiedTwice (name : String) : Chain :=
  .step (tableCopied name) "STEP_2_COPY"
    ⟨copying, ⟨[]⟩, some [⟨"N", none⟩], [], "SELECT * FROM STEP_1_COPY", some [⟨"N", none⟩]⟩

def copySession : Session :=
  ⟨.default, ⟨[copying]⟩⟩

def numberOptions : StepOptions :=
  ⟨none, some [⟨"N", none⟩]⟩

theorem reachable_tableCopiedTwice {name : String}
    (hfirst : (Chain.root (numberTable name)).extend copySession.workshop "copy" [] numberOptions
      default = (.ok (tableCopied name), default))
    (hsecond : (tableCopied name).extend copySession.workshop "copy" [] numberOptions
      default = (.ok (tableCopiedTwice name), default)) :
    Reachable (tableCopiedTwice name) :=
  .extend (.extend (.root _) hfirst) hsecond

theorem numbers_not_replaced :
    ∃ ns steps, copySession.outputNamespace (tableCopiedTwice "NUMBERS") = .ok ns ∧
      (tableCopiedTwice "NUMBERS").ViewsOf ns steps ∧ ¬ReadsAhead ns steps := by
  have h : Reachable (tableCopiedTwice "NUMBERS") := reachable_tableCopiedTwice (by rfl) (by rfl)
  have hsql : copySession.sql (tableCopiedTwice "NUMBERS") .views default =
      (.ok ("CREATE OR REPLACE VIEW A.B.STEP_1_COPY AS\nSELECT * FROM A.B.NUMBERS;\n\n" ++
        "CREATE OR REPLACE VIEW A.B.STEP_2_COPY AS\nSELECT * FROM A.B.STEP_1_COPY;"),
        default) := by rfl
  have hall := h.views_replace_base_iff rfl copySession
  rcases hall.left _ _ _ hsql with ⟨ns, steps, hns, -, hviews, hiff⟩
  refine ⟨ns, steps, hns, hviews, ?_⟩
  rw [hiff]
  rintro ⟨name, hname, hreplaces⟩
  rw [hall.right.right ns name _ _ hname rfl (by decide)] at hreplaces
  simp only [tableCopiedTwice, tableCopied, stepNames, List.nil_append, List.mem_append,
    List.mem_singleton] at hname
  rcases hname with rfl | rfl <;> exact absurd hreplaces.right (by decide)

/-- The first view replaces the table it reads from, or the last one does; and so does the output
that is saved. -/
theorem base_replaced_by_view :
    (Reachable (tableCopiedTwice "STEP_1_COPY") ∧
      copySession.sql (tableCopiedTwice "STEP_1_COPY") .views default =
        (.ok ("CREATE OR REPLACE VIEW A.B.STEP_1_COPY AS\nSELECT * FROM A.B.STEP_1_COPY;\n\n" ++
          "CREATE OR REPLACE VIEW A.B.STEP_2_COPY AS\nSELECT * FROM A.B.STEP_1_COPY;"),
          default)) ∧
    Reachable (tableCopiedTwice "step_2_copy") ∧
      copySession.sql (tableCopiedTwice "step_2_copy") .views default =
        (.ok ("CREATE OR REPLACE VIEW A.B.STEP_1_COPY AS\nSELECT * FROM A.B.step_2_copy;\n\n" ++
          "CREATE OR REPLACE VIEW A.B.STEP_2_COPY AS\nSELECT * FROM A.B.STEP_1_COPY;"),
          default) ∧
      (copySession.save (tableCopiedTwice "step_2_copy") none .view default).1 =
        .ok ⟨"A", "B", "STEP_2_COPY"⟩ ∧
      (tableCopiedTwice "step_2_copy").Replaces ⟨"A", "B", "STEP_2_COPY"⟩ := by
  refine ⟨⟨reachable_tableCopiedTwice (by rfl) (by rfl), by rfl⟩,
    reachable_tableCopiedTwice (by rfl) (by rfl), by rfl, by rfl, _, _, rfl, ?_⟩
  unfold TableName.Alike
  decide +kernel

end Chain
end TransformChain
