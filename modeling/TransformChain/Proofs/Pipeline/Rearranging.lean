import Mathlib.Logic.Relation
import TransformChain.Proofs.Keyed.Entries
import TransformChain.Proofs.Pipeline.Results

/-!
# Rearranged pipelines

The datasets of a pipeline are independent of each other: they can stand in any order, on every
level, and others can be added to them, and the same chain is built.
-/

namespace TransformChain

namespace Pipeline

variable {session : Session} {resolver : Resolver} {chain next : Chain}
variable {partners others : Keyed Dataset} {datasets : List (String × Pipeline)}
variable {pipeline rearranged : Pipeline}

/-!
## Steps with other datasets at hand
-/

theorem resolve_of_serves {name : String} {value resolved : Argument}
    (h : Keyed.Serves partners others) (hresolve : resolve partners name value = .ok resolved) :
    resolve others name value = .ok resolved := by
  unfold resolve at hresolve ⊢
  cases hreference : reference? value with
  | none => rwa [hreference] at hresolve
  | some key =>
      rw [hreference] at hresolve
      cases hget : Keyed.get? key partners with
      | none => simp [hget] at hresolve
      | some dataset =>
          simp only [hget] at hresolve
          simpa only [h key dataset hget] using hresolve

theorem resolveAll_of_serves {args resolved : List (String × Argument)}
    (h : Keyed.Serves partners others) (hresolve : resolveAll partners args = .ok resolved) :
    resolveAll others args = .ok resolved := by
  induction args generalizing resolved with
  | nil => exact hresolve
  | cons entry rest ih =>
      rcases resolveAll_cons_eq_ok_iff.mp hresolve with ⟨first, more, hfirst, hmore, hresolved⟩
      exact resolveAll_cons_eq_ok_iff.mpr
        ⟨first, more, resolve_of_serves h hfirst, ih hmore, hresolved⟩

theorem applySteps_of_serves {plans : List StepPlan} {position : Nat}
    (h : Keyed.Serves partners others)
    (happly : (applySteps session partners position plans chain resolver).1 = .ok next) :
    (applySteps session others position plans chain resolver).1 = .ok next := by
  induction plans generalizing position chain with
  | nil => exact happly
  | cons plan plans ih =>
      rcases applySteps_cons_eq_ok_iff.mp happly with ⟨args, between, hargs, hbetween, hrest⟩
      exact applySteps_cons_eq_ok_iff.mpr
        ⟨args, between, resolveAll_of_serves h hargs, hbetween, ih hrest⟩

theorem build_of_serves {source : String} {datasets' : List (String × Pipeline)}
    {plans : List StepPlan}
    (h : ∀ partners, List.Forall₂ (IsPartner session resolver) datasets partners →
      ∃ others, List.Forall₂ (IsPartner session resolver) datasets' others ∧
        Keyed.Serves partners others)
    (hbuild : (build session (.of source datasets plans) resolver).1 = .ok chain) :
    (build session (.of source datasets' plans) resolver).1 = .ok chain := by
  rcases build_eq_ok_iff.mp hbuild with ⟨partners, root, hpartners, hroot, happly⟩
  rcases h partners hpartners with ⟨others, hothers, hserves⟩
  exact build_eq_ok_iff.mpr ⟨others, root, hothers, hroot, applySteps_of_serves hserves happly⟩

/-!
## Changes
-/

/-- A change to the datasets of a pipeline, on any level: they are put into another order, or one
is added under a fresh name that builds and compiles by itself. -/
inductive Change (session : Session) (resolver : Resolver) : Pipeline → Pipeline → Prop
  | permute {source datasets datasets' plans} (hperm : datasets.Perm datasets') :
      Change session resolver (.of source datasets plans) (.of source datasets' plans)
  | add {source datasets plans name added dataset} (hfresh : name ∉ Keyed.keys datasets)
      (hdistinct : added.Distinct) (hbuilds : BuildsTo session resolver added dataset) :
      Change session resolver (.of source datasets plans)
        (.of source ((name, added) :: datasets) plans)
  | within {source before name inner inner' after plans}
      (hinner : Change session resolver inner inner') :
      Change session resolver (.of source (before ++ (name, inner) :: after) plans)
        (.of source (before ++ (name, inner') :: after) plans)

theorem keys_eq_of_partners (h : List.Forall₂ (IsPartner session resolver) datasets partners) :
    Keyed.keys partners = Keyed.keys datasets := by
  induction h with
  | nil => rfl
  | cons hfirst _ ih =>
      simp only [Keyed.keys, List.map_cons] at ih ⊢
      rw [hfirst.left, ih]

theorem partners_within {name : String} {inner inner' : Pipeline}
    {before after : List (String × Pipeline)}
    (hinner : ∀ dataset, BuildsTo session resolver inner dataset →
      BuildsTo session resolver inner' dataset)
    (h : List.Forall₂ (IsPartner session resolver) (before ++ (name, inner) :: after) partners) :
    List.Forall₂ (IsPartner session resolver) (before ++ (name, inner') :: after) partners := by
  induction before generalizing partners with
  | nil =>
      rcases List.forall₂_cons_left_iff.mp h with ⟨partner, rest, ⟨hname, hbuilds⟩, hrest, rfl⟩
      exact .cons ⟨hname, hinner _ hbuilds⟩ hrest
  | cons entry before ih =>
      rcases List.forall₂_cons_left_iff.mp h with ⟨partner, rest, hfirst, hrest, rfl⟩
      exact .cons hfirst (ih hrest)

theorem Change.kept (h : Change session resolver pipeline rearranged)
    (hdistinct : pipeline.Distinct) :
    rearranged.Distinct ∧ ∀ chain, (build session pipeline resolver).1 = .ok chain →
      (build session rearranged resolver).1 = .ok chain := by
  induction h with
  | permute hperm =>
      rcases distinct_of.mp hdistinct with ⟨hnodup, hall⟩
      refine ⟨distinct_of.mpr ⟨?_, fun entry hmem => hall entry (hperm.mem_iff.mpr hmem)⟩, ?_⟩
      · exact (hperm.map Prod.fst).nodup_iff.mp hnodup
      · refine fun chain => build_of_serves fun partners hpartners => ?_
        rcases List.perm_comp_forall₂ hperm.symm hpartners with ⟨others, hothers, hpermuted⟩
        refine ⟨others, hothers, Keyed.serves_of_perm ?_ hpermuted.symm⟩
        rwa [keys_eq_of_partners hpartners]
  | add hfresh hadded hbuilds =>
      rcases distinct_of.mp hdistinct with ⟨hnodup, hall⟩
      refine ⟨distinct_of.mpr
        ⟨List.nodup_cons.mpr ⟨hfresh, hnodup⟩, List.forall_mem_cons.mpr ⟨hadded, hall⟩⟩, ?_⟩
      refine fun chain => build_of_serves fun partners hpartners => ?_
      rw [← keys_eq_of_partners hpartners] at hfresh
      exact ⟨_, .cons ⟨rfl, hbuilds⟩ hpartners, Keyed.serves_cons hfresh⟩
  | @within source before name inner inner' after plans hinner ih =>
      rcases distinct_of.mp hdistinct with ⟨hnodup, hall⟩
      rw [List.forall_mem_append, List.forall_mem_cons] at hall
      rcases ih hall.right.left with ⟨hinner', hsame⟩
      have hkeys : Keyed.keys (before ++ (name, inner') :: after) =
          Keyed.keys (before ++ (name, inner) :: after) := by
        simp only [Keyed.keys, List.map_append, List.map_cons]
      refine ⟨distinct_of.mpr ⟨hkeys ▸ hnodup, ?_⟩, ?_⟩
      · rw [List.forall_mem_append, List.forall_mem_cons]
        exact ⟨hall.left, hinner', hall.right.right⟩
      · refine fun chain => build_of_serves fun partners hpartners => ?_
        refine ⟨partners, partners_within ?_ hpartners, fun _ _ hget => hget⟩
        rintro dataset ⟨built, query, hbuild, hquery⟩
        exact ⟨built, query, hsame built hbuild, hquery⟩

theorem changes_kept (h : Relation.ReflTransGen (Change session resolver) pipeline rearranged)
    (hdistinct : pipeline.Distinct) :
    rearranged.Distinct ∧ ∀ chain, (build session pipeline resolver).1 = .ok chain →
      (build session rearranged resolver).1 = .ok chain := by
  induction h with
  | refl => exact ⟨hdistinct, fun _ h => h⟩
  | tail _ hchange ih =>
      rcases hchange.kept ih.left with ⟨hlast, hsame⟩
      exact ⟨hlast, fun chain hbuild => hsame chain (ih.right chain hbuild)⟩

/-- However the datasets of a pipeline are rearranged, the same chain is built, which compiles to
the same in either style; and the chain is made of the steps of the pipeline, each reference in
which is the compiled dataset of its name. -/
theorem datasets_independent {source : String} {plans : List StepPlan} {after other : Resolver}
    (hdistinct : (Pipeline.of source datasets plans).Distinct)
    (hbuild : build session (.of source datasets plans) resolver = (.ok chain, after))
    (hchanges : Relation.ReflTransGen (Change session resolver) (.of source datasets plans)
      rearranged)
    (hother : Resolver.SameAnswers resolver other) :
    (∃ later, build session rearranged other = (.ok chain, later) ∧
      ∀ style, (chain.compile style later).1 = (chain.compile style after).1) ∧
    ∃ partners, List.Forall₂ (IsPartner session resolver) datasets partners ∧
      session.dataset source = .ok (.root chain.source) ∧
      List.Forall₂ (Fulfils session partners) plans chain.lineage := by
  have hbuilt := congrArg Prod.fst hbuild
  refine ⟨?_, steps_of_build hbuilt⟩
  have hrearranged := (changes_kept hchanges hdistinct).right chain hbuilt
  rw [(onlyAsks_build session rearranged).settled resolver other hother] at hrearranged
  refine ⟨(build session rearranged other).2, Prod.ext hrearranged rfl, fun style => ?_⟩
  have hafter := Resolver.sameAnswers_of_learns
    ((onlyAsks_build session (.of source datasets plans)).learns resolver)
  have hlater := Resolver.sameAnswers_of_learns
    ((onlyAsks_build session rearranged).learns other)
  rw [hbuild] at hafter
  exact (chain.onlyAsks_compile style).settled _ _
    (hlater.symm.trans (hother.symm.trans hafter))

def pairing : Transform where
  name := "pair"
  description := ""
  tags := []
  parameters := [⟨"other", .dataset, true, none, ""⟩]
  template := ⟨"pair", "SELECT * FROM \x7b\x7b source_table \x7d\x7d, \x7b\x7b other \x7d\x7d",
    ⟨[.text "SELECT * FROM ", .output (.var "source_table"), .text ", ",
      .output (.var "other")], []⟩⟩

def pairingSession : Session :=
  ⟨.default, ⟨[pairing]⟩⟩

def tables : Resolver :=
  .ofWarehouse ⟨[(⟨"A", "B", "C"⟩, [⟨"N", none⟩]), (⟨"A", "B", "D"⟩, [⟨"N", none⟩]),
    (⟨"A", "B", "E"⟩, [⟨"N", none⟩])], [], [], 0, [], none⟩

def plain (source : String) : Pipeline :=
  .of source [] []

def pairedWith (name : String) : StepPlan :=
  ⟨"pair", some "PAIRED", [("other", .str ("@" ++ name))], some [⟨"N", none⟩]⟩

def paired (datasets : List (String × Pipeline)) : Pipeline :=
  .of "A.B.E" datasets [pairedWith "d"]

def pairedTwice : Pipeline :=
  .of "A.B.C" [("d", plain "A.B.D"), ("e", paired [("d", plain "A.B.D")])] [pairedWith "e"]

def pairedTwiceRearranged : Pipeline :=
  .of "A.B.C" [("e", paired [("f", plain "A.B.E"), ("d", plain "A.B.D")]), ("d", plain "A.B.D")]
    [pairedWith "e"]

theorem changes_pairedTwice :
    Relation.ReflTransGen (Change pairingSession tables) pairedTwice pairedTwiceRearranged := by
  have hadded : BuildsTo pairingSession tables (plain "A.B.E")
      (.query "A.B.E" "SELECT N\nFROM A.B.E" (some [⟨"N", none⟩])) :=
    ⟨.root (.table ⟨"A", "B", "E"⟩ none), ⟨"SELECT N\nFROM A.B.E", [⟨"N", none⟩], .cte, []⟩,
      rfl, rfl, rfl⟩
  have hinner : Change pairingSession tables (paired [("d", plain "A.B.D")])
      (paired [("f", plain "A.B.E"), ("d", plain "A.B.D")]) :=
    .add (by decide) ⟨List.nodup_nil, trivial⟩ hadded
  have hwithin : Change pairingSession tables
      (.of "A.B.C" ([] ++ ("e", paired [("d", plain "A.B.D")]) :: [("d", plain "A.B.D")])
        [pairedWith "e"])
      (.of "A.B.C" ([] ++ ("e", paired [("f", plain "A.B.E"), ("d", plain "A.B.D")]) ::
        [("d", plain "A.B.D")]) [pairedWith "e"]) :=
    .within hinner
  exact .tail (.single (.permute (.swap _ _ _))) hwithin

theorem pairedTwice_rearranged :
    ∃ chain after, pairedTwice.Distinct ∧
      build pairingSession pairedTwice tables = (.ok chain, after) ∧
      Relation.ReflTransGen (Change pairingSession tables) pairedTwice pairedTwiceRearranged ∧
      tables.SameAnswers tables ∧
      ∃ later, build pairingSession pairedTwiceRearranged tables = (.ok chain, later) := by
  have hplain : ∀ source, (plain source).Distinct := fun source => ⟨List.nodup_nil, trivial⟩
  have hdistinct : pairedTwice.Distinct :=
    ⟨by decide, hplain _, ⟨by decide, hplain _, trivial⟩, trivial⟩
  have hsucceeds : (build pairingSession pairedTwice tables).1.toBool = true := by
    decide +kernel
  rcases hbuild : build pairingSession pairedTwice tables with ⟨result, after⟩
  rw [hbuild] at hsucceeds
  cases result with
  | error failure => cases hsucceeds
  | ok chain =>
      have hsame : tables.SameAnswers tables := fun _ => rfl
      rcases datasets_independent hdistinct hbuild changes_pairedTwice hsame with
        ⟨⟨later, hlater, -⟩, -⟩
      exact ⟨chain, after, hdistinct, rfl, changes_pairedTwice, hsame, later, hlater⟩

end Pipeline
end TransformChain
