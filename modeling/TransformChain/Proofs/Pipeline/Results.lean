import Mathlib.Data.List.Forall2
import TransformChain.Proofs.Chain.Reachable
import TransformChain.Proofs.Pipeline.Names
import TransformChain.Proofs.Transform.Binding
import TransformChain.Proofs.Warehouse.Learning

/-!
# What a pipeline builds

Building asks about tables and does nothing else.  The datasets of a pipeline are therefore what
each of them is by itself, and the chain has one step for each that is written, whose references
have become the datasets they name.
-/

namespace TransformChain

theorem Registry.name_of_lookup {registry : Registry} {name : String} {transform : Transform}
    (h : registry.lookup name = .ok transform) : transform.name = name := by
  unfold lookup at h
  split at h
  case h_2 => cases h
  case h_1 found hfound =>
    cases h
    unfold find? at hfound
    simpa using List.find?_some hfound

theorem Session.exists_table_of_dataset (session : Session) {name : String} {chain : Chain}
    (h : session.dataset name = .ok chain) : ∃ table, chain = .root (.table table none) := by
  unfold Session.dataset at h
  split at h
  · cases h
    exact ⟨_, rfl⟩
  · cases h

theorem Chain.eq_of_nextName {chain : Chain} {namePrefix transform given name : String}
    {requested : Option String} (h : chain.nextName namePrefix transform requested = .ok name)
    (hgiven : requested = some given) : name = given := by
  subst hgiven
  simp only [nextName] at h
  split at h
  · cases h
  · split at h
    · cases h
    · cases h
      rfl

/-!
## Arguments as they are bound
-/

namespace Transform

variable {transform : Transform} {ns : Option Namespace} {args : Keyed Argument}

theorem get?_of_bindParameters {ps : List Parameter} {entries : List (String × Argument)}
    {p : Parameter} {value : Argument} (hp : p ∈ ps)
    (hvalue : ∀ q ∈ ps, q.name = p.name → ∀ bound,
      transform.bindParameter ns args q = .ok bound → bound = value)
    (h : transform.bindParameters ns args ps = .ok entries) :
    Keyed.get? p.name entries = some value := by
  induction ps generalizing entries with
  | nil => cases hp
  | cons q ps ih =>
      rcases bindParameters_cons.mp h with ⟨bound, others, hbound, hothers, rfl⟩
      rw [Keyed.get?]
      split
      case isTrue hname => rw [hvalue q List.mem_cons_self hname bound hbound]
      case isFalse hname =>
        rcases List.mem_cons.mp hp with rfl | hp
        · exact absurd rfl hname
        · exact ih hp (fun q' hmem => hvalue q' (List.mem_cons_of_mem q hmem)) hothers

theorem exists_parameter_of_bind {bound : Bound} {name : String} {value : Argument}
    (h : transform.bind args ns = .ok bound) (hget : Keyed.get? name args = some value) :
    ∃ p ∈ transform.parameters, p.name = name := by
  unfold bind at h
  cases hunexpected : transform.unexpected? args with
  | some other => simp [hunexpected] at h
  | none =>
      have hkey : name ∈ args.keys := List.mem_map_of_mem (Keyed.mem_of_get? hget)
      have hknown := List.find?_eq_none.mp hunexpected name hkey
      simp only [Bool.or_eq_true, not_or, Bool.not_eq_true, Option.isNone_eq_false_iff] at hknown
      rcases Option.isSome_iff_exists.mp hknown.right with ⟨p, hp⟩
      unfold parameter? at hp
      exact ⟨p, List.mem_of_find?_eq_some hp, by simpa using List.find?_some hp⟩

theorem get?_of_bind {bound : Bound} {name : String} {d : Dataset}
    (h : transform.bind args ns = .ok bound)
    (hget : Keyed.get? name args = some (.dataset d)) :
    Keyed.get? name bound.entries = some (.dataset d) := by
  rcases exists_parameter_of_bind h hget with ⟨p, hp, rfl⟩
  refine get?_of_bindParameters hp (fun q _ hname value hvalue => ?_) (bindParameters_of_bind h)
  have hgiven : q.given? args = some (.dataset d) := by
    rw [Parameter.given?, hname, hget]
    rfl
  rcases holds_of_bindParameter hvalue with ⟨given, hsome, htakes⟩ | ⟨hnone, -⟩
  · rw [hgiven] at hsome
    cases hsome
    rcases htakes with ⟨hsame, -⟩ | ⟨-, text, table, htext, -⟩
    · exact hsame
    · cases htext
  · rw [hgiven] at hnone
    cases hnone

end Transform

namespace Pipeline

variable {session : Session} {resolver : Resolver} {chain next : Chain}
variable {partners others : Keyed Dataset} {datasets : List (String × Pipeline)}

/-!
## Building only asks
-/

theorem onlyAsks_step (session : Session) (chain : Chain) (position : Nat) (plan : StepPlan)
    (args : Keyed Argument) :
    OnlyAsks (attempting (.applyStep position plan.transform) (plainly
      (session.transform chain plan.transform args ⟨plan.name, plan.outputColumns⟩))) :=
  (session.onlyAsks_transform chain _ _ _).plainly.attempting _

theorem onlyAsks_applySteps (session : Session) (partners : Keyed Dataset) (position : Nat)
    (plans : List StepPlan) (chain : Chain) :
    OnlyAsks (applySteps session partners position plans chain) := by
  induction plans generalizing position chain with
  | nil => exact .pure _
  | cons plan plans ih =>
      exact (OnlyAsks.lift _).bind fun args =>
        (onlyAsks_step session chain position plan args).bind fun next => ih (position + 1) next

mutual

theorem onlyAsks_build (session : Session) : (pipeline : Pipeline) →
    OnlyAsks (build session pipeline)
  | .of source datasets steps => by
      unfold build
      refine (onlyAsks_buildPartners session datasets).bind fun partners => ?_
      refine ((OnlyAsks.lift (session.dataset source)).plainly.attempting _).bind fun root => ?_
      exact onlyAsks_applySteps session partners 1 steps root

theorem onlyAsks_buildPartners (session : Session) : (datasets : List (String × Pipeline)) →
    OnlyAsks (buildPartners session datasets)
  | [] => by
      unfold buildPartners
      exact .pure _
  | (name, pipeline) :: rest => by
      unfold buildPartners
      refine ((onlyAsks_build session pipeline).attempting _).bind fun chain => ?_
      refine (session.onlyAsks_asDataset chain).plainly.bind fun dataset => ?_
      exact (onlyAsks_buildPartners session rest).bind fun _ => .pure _

end

/-!
## Datasets of a pipeline
-/

def BuildsTo (session : Session) (resolver : Resolver) (pipeline : Pipeline) (dataset : Dataset) :
    Prop :=
  ∃ chain query, (build session pipeline resolver).1 = .ok chain ∧
    (session.compile chain resolver).1 = .ok query ∧
    dataset = .query chain.name query.sql (some query.columns)

def IsPartner (session : Session) (resolver : Resolver) (entry : String × Pipeline)
    (partner : String × Dataset) : Prop :=
  partner.1 = entry.1 ∧ BuildsTo session resolver entry.2 partner.2

theorem asDataset_eq_ok_iff {dataset : Dataset} :
    (session.asDataset chain resolver).1 = .ok dataset ↔
      ∃ query, (session.compile chain resolver).1 = .ok query ∧
        dataset = .query chain.name query.sql (some query.columns) := by
  unfold Session.asDataset Chain.asDataset
  rw [OnlyAsks.bind_eq_ok_iff (chain.onlyAsks_compile _) fun _ => .pure _]
  constructor
  · rintro ⟨query, hquery, hdataset⟩
    cases hdataset
    exact ⟨query, hquery, rfl⟩
  · rintro ⟨query, hquery, rfl⟩
    exact ⟨query, hquery, rfl⟩

/-- The datasets are built one by one, none of them having a part in another. -/
theorem buildPartners_eq_ok_iff :
    (buildPartners session datasets resolver).1 = .ok partners ↔
      List.Forall₂ (IsPartner session resolver) datasets partners := by
  induction datasets generalizing partners with
  | nil =>
      rw [List.forall₂_nil_left_iff]
      constructor
      · intro h
        cases h
        rfl
      · rintro rfl
        rfl
  | cons entry rest ih =>
      rcases entry with ⟨name, pipeline⟩
      have hrest : ∀ dataset, OnlyAsks (do
          let others ← buildPartners session rest
          return (name, dataset) :: others : Building (Keyed Dataset)) :=
        fun _ => (onlyAsks_buildPartners session rest).bind fun _ => .pure _
      unfold buildPartners
      rw [OnlyAsks.bind_eq_ok_iff ((onlyAsks_build session pipeline).attempting _) fun chain =>
        (session.onlyAsks_asDataset chain).plainly.bind hrest]
      simp only [OnlyAsks.attempting_eq_ok_iff,
        OnlyAsks.bind_eq_ok_iff (session.onlyAsks_asDataset _).plainly hrest,
        OnlyAsks.plainly_eq_ok_iff, asDataset_eq_ok_iff,
        OnlyAsks.bind_eq_ok_iff (onlyAsks_buildPartners session rest) fun _ => .pure _, ih]
      constructor
      · rintro ⟨chain, hbuild, dataset, ⟨query, hquery, hdataset⟩, others, hothers, hpartners⟩
        cases hpartners
        exact .cons ⟨rfl, chain, query, hbuild, hquery, hdataset⟩ hothers
      · intro h
        rcases List.forall₂_cons_left_iff.mp h with
          ⟨⟨_, dataset⟩, others, ⟨rfl, chain, query, hbuild, hquery, hdataset⟩, hothers, rfl⟩
        exact ⟨chain, hbuild, dataset, ⟨query, hquery, hdataset⟩, others, hothers, rfl⟩

theorem build_eq_ok_iff {source : String} {plans : List StepPlan} :
    (build session (.of source datasets plans) resolver).1 = .ok chain ↔
      ∃ partners root, List.Forall₂ (IsPartner session resolver) datasets partners ∧
        session.dataset source = .ok root ∧
        (applySteps session partners 1 plans root resolver).1 = .ok chain := by
  have hsteps : ∀ partners, OnlyAsks (do
      let root ← attempting (.useSource source) (plainly (session.dataset source))
      applySteps session partners 1 plans root : Building Chain) :=
    fun partners => ((OnlyAsks.lift (session.dataset source)).plainly.attempting _).bind
      fun root => onlyAsks_applySteps session partners 1 plans root
  unfold build
  rw [OnlyAsks.bind_eq_ok_iff (onlyAsks_buildPartners session datasets) hsteps]
  simp only [buildPartners_eq_ok_iff,
    OnlyAsks.bind_eq_ok_iff ((OnlyAsks.lift (session.dataset source)).plainly.attempting _)
      fun root => onlyAsks_applySteps session _ 1 plans root,
    OnlyAsks.attempting_eq_ok_iff, OnlyAsks.plainly_eq_ok_iff, OnlyAsks.lift_eq_ok_iff]
  constructor
  · rintro ⟨partners, hpartners, root, hroot, hbuilt⟩
    exact ⟨partners, root, hpartners, hroot, hbuilt⟩
  · rintro ⟨partners, root, hpartners, hroot, hbuilt⟩
    exact ⟨partners, hpartners, root, hroot, hbuilt⟩

/-!
## Steps of a pipeline
-/

theorem applySteps_cons_eq_ok_iff {plan : StepPlan} {plans : List StepPlan} {position : Nat} :
    (applySteps session partners position (plan :: plans) chain resolver).1 = .ok next ↔
      ∃ args between, resolveAll partners plan.args = .ok args ∧
        (session.transform chain plan.transform args ⟨plan.name, plan.outputColumns⟩ resolver).1 =
          .ok between ∧
        (applySteps session partners (position + 1) plans between resolver).1 = .ok next := by
  have hrest : ∀ args, OnlyAsks (do
      let next ← attempting (.applyStep position plan.transform)
        (plainly (session.transform chain plan.transform args ⟨plan.name, plan.outputColumns⟩))
      applySteps session partners (position + 1) plans next : Building Chain) :=
    fun args => (onlyAsks_step session chain position plan args).bind
      fun next => onlyAsks_applySteps session partners (position + 1) plans next
  rw [applySteps, OnlyAsks.bind_eq_ok_iff (.lift _) hrest]
  simp only [OnlyAsks.lift_eq_ok_iff,
    OnlyAsks.bind_eq_ok_iff (onlyAsks_step session chain position plan _)
      fun next => onlyAsks_applySteps session partners (position + 1) plans next,
    OnlyAsks.attempting_eq_ok_iff, OnlyAsks.plainly_eq_ok_iff]
  constructor
  · rintro ⟨args, hargs, between, hbetween, hrest⟩
    exact ⟨args, between, hargs, hbetween, hrest⟩
  · rintro ⟨args, between, hargs, hbetween, hrest⟩
    exact ⟨args, hargs, between, hbetween, hrest⟩

theorem resolveAll_cons_eq_ok_iff {name : String} {value : Argument}
    {rest resolved : List (String × Argument)} :
    resolveAll partners ((name, value) :: rest) = .ok resolved ↔
      ∃ first more, resolve partners name value = .ok first ∧
        resolveAll partners rest = .ok more ∧ resolved = (name, first) :: more := by
  rw [resolveAll]
  cases resolve partners name value with
  | error failure => simp
  | ok first =>
      cases resolveAll partners rest with
      | error failure => simp
      | ok more => simp [eq_comm]

theorem get?_of_resolveAll {args resolved : Keyed Argument} {argument key : String}
    (h : resolveAll partners args = .ok resolved)
    (hget : Keyed.get? argument args = some (.str ("@" ++ key))) :
    ∃ dataset, Keyed.get? key partners = some dataset ∧
      Keyed.get? argument resolved = some (.dataset dataset) := by
  induction args generalizing resolved with
  | nil => cases hget
  | cons entry rest ih =>
      rcases entry with ⟨name, value⟩
      rcases resolveAll_cons_eq_ok_iff.mp h with ⟨first, more, hfirst, hmore, rfl⟩
      rw [Keyed.get?] at hget
      simp only [Keyed.get?]
      split at hget
      case isFalse hname =>
        rw [if_neg hname]
        exact ih hmore hget
      case isTrue hname =>
        cases hget
        rw [if_pos hname]
        have hreference : reference? (.str ("@" ++ key)) = some key := by
          simp [reference?]
        unfold resolve at hfirst
        rw [hreference] at hfirst
        cases hdataset : Keyed.get? key partners with
        | none => simp [hdataset] at hfirst
        | some dataset =>
            simp only [hdataset, Except.ok.injEq] at hfirst
            exact ⟨dataset, rfl, congrArg some hfirst.symm⟩

/-- The step is what is written: its transform, its name if it has one, and the datasets that its
arguments refer to. -/
inductive Fulfils (session : Session) (partners : Keyed Dataset) (plan : StepPlan) : Chain → Prop
  | step {parent : Chain} {name : String} {s : Step}
      (htransform : session.registry.lookup plan.transform = .ok s.transform)
      (hnamed : s.transform.name = plan.transform)
      (hname : ∀ given, plan.name = some given → name = given)
      (hbound : ∀ argument key, Keyed.get? argument plan.args = some (.str ("@" ++ key)) →
        ∃ dataset, Keyed.get? key partners = some dataset ∧
          Keyed.get? argument s.arguments.entries = some (.dataset dataset)) :
      Fulfils session partners plan (.step parent name s)

theorem fulfils_of_transform {plan : StepPlan} {args : Keyed Argument}
    (hargs : resolveAll partners plan.args = .ok args)
    (h : (session.transform chain plan.transform args ⟨plan.name, plan.outputColumns⟩ resolver).1 =
      .ok next) :
    Fulfils session partners plan next ∧ next.lineage = chain.lineage ++ [next] ∧
      next.source = chain.source := by
  rcases hrun : session.transform chain plan.transform args ⟨plan.name, plan.outputColumns⟩
    resolver with ⟨result, after⟩
  rw [hrun] at h
  change result = .ok next at h
  subst h
  rcases Chain.extend_eq_ok_iff.mp hrun with ⟨e⟩
  refine ⟨?_, by rw [e.next_eq]; rfl, by rw [e.next_eq]; rfl⟩
  rw [e.next_eq]
  refine .step e.lookup_eq (Registry.name_of_lookup e.lookup_eq) ?_ ?_
  · intro given hgiven
    exact Chain.eq_of_nextName e.name_eq hgiven
  · intro argument key hget
    rcases get?_of_resolveAll hargs hget with ⟨dataset, hdataset, hresolved⟩
    exact ⟨dataset, hdataset, Transform.get?_of_bind e.bind_eq hresolved⟩

theorem lineage_of_applySteps {plans : List StepPlan} {position : Nat}
    (h : (applySteps session partners position plans chain resolver).1 = .ok next) :
    next.source = chain.source ∧ ∃ added, next.lineage = chain.lineage ++ added ∧
      List.Forall₂ (Fulfils session partners) plans added := by
  induction plans generalizing position chain with
  | nil =>
      cases h
      exact ⟨rfl, [], (List.append_nil _).symm, .nil⟩
  | cons plan plans ih =>
      rcases applySteps_cons_eq_ok_iff.mp h with ⟨args, between, hargs, hbetween, hrest⟩
      rcases fulfils_of_transform hargs hbetween with ⟨hfulfils, hlineage, hsource⟩
      rcases ih hrest with ⟨hnext, added, hadded, hothers⟩
      refine ⟨hnext.trans hsource, between :: added, ?_, .cons hfulfils hothers⟩
      rw [hadded, hlineage, List.append_assoc, List.singleton_append]

theorem steps_of_build {source : String} {plans : List StepPlan}
    (h : (build session (.of source datasets plans) resolver).1 = .ok chain) :
    ∃ partners, List.Forall₂ (IsPartner session resolver) datasets partners ∧
      session.dataset source = .ok (.root chain.source) ∧
      List.Forall₂ (Fulfils session partners) plans chain.lineage := by
  rcases build_eq_ok_iff.mp h with ⟨partners, root, hpartners, hroot, hbuilt⟩
  rcases lineage_of_applySteps hbuilt with ⟨hsource, added, hadded, hfulfils⟩
  rcases session.exists_table_of_dataset hroot with ⟨table, rfl⟩
  refine ⟨partners, hpartners, ?_, ?_⟩
  · rw [hroot, hsource]
    rfl
  · rw [hadded]
    exact hfulfils

end Pipeline
end TransformChain
