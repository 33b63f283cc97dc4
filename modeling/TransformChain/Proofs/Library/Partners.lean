import TransformChain.Proofs.Library.Trees
import TransformChain.Proofs.Template.Parametric
import TransformChain.Proofs.Template.Partner
import TransformChain.Proofs.Transform.Binding

/-!
# What the library's templates ask about

The templates of the library print their source and do not look into it, and the only dataset that
any of them asks about besides its input is the one that it joins.
-/

namespace TransformChain

namespace Library

open Template

theorem printing_trees : ∀ entry ∈ trees, printing.nodes entry.2.2 = true := by
  decide +kernel

theorem asking_trees : ∀ entry ∈ trees, (asking "join_table").nodes entry.2.2 = true := by
  decide +kernel

theorem dataset_parameters :
    ∀ entry ∈ trees, ∀ p ∈ entry.1.parameters, p.name = "join_table" →
      p.shape = .dataset ∧ p.required = true := by
  decide +kernel

theorem onlyPrintsSource_of_mem_trees {listing : Listing} {body : String} {nodes : List Node}
    (h : (listing, body, nodes) ∈ trees) :
    (transformOf listing body nodes).template.body.onlyPrintsSource = true := by
  unfold Body.onlyPrintsSource
  rw [Bool.and_eq_true]
  exact ⟨printing_trees _ h, rfl⟩

theorem exists_partner_of_passes {listing : Listing} {body : String} {nodes : List Node}
    (hmem : (listing, body, nodes) ∈ trees) {args : Keyed Argument} {ns : Option Namespace}
    {bound : Bound} (hbind : (transformOf listing body nodes).bind args ns = .ok bound)
    {context : Context} (harguments : context.arguments = bound.values) {b : Nat} {text : String}
    (h : Passes ⟨(transformOf listing body nodes).template, context⟩
      (Scene.point ⟨(transformOf listing body nodes).template, context⟩ b) text) :
    ∃ entry ∈ bound.datasets, entry.2.relation = text := by
  have hstart : AsksAbout "join_table"
      (Action.find? "join_table"
        (Scene.start ⟨(transformOf listing body nodes).template, context⟩).frames)
      (Scene.point ⟨(transformOf listing body nodes).template, context⟩ b) :=
    ⟨asking_trees _ hmem, rfl⟩
  have hfound := hstart.passes rfl (by decide) h
  have hget : Keyed.get? "join_table" bound.values = some (.str text) := by
    change Action.find? "join_table" [Keyed.put "source_table" _ context.arguments] = _ at hfound
    unfold Action.find? at hfound
    rw [Keyed.get?_put_ne _ _ (by decide), harguments] at hfound
    cases hvalue : Keyed.get? "join_table" bound.values with
    | none =>
        rw [hvalue] at hfound
        cases hfound
    | some value =>
        rw [hvalue] at hfound
        exact hfound
  rcases Transform.exists_dataset_of_get? (dataset_parameters _ hmem)
    (Transform.bindParameters_of_bind hbind) hget with ⟨d, hd, hvalue⟩
  refine ⟨("join_table", d), ?_, ?_⟩
  · exact List.mem_filterMap.mpr ⟨_, hd, rfl⟩
  · cases hvalue
    rfl

end Library
end TransformChain
