import TransformChain.Warehouse.Resolver

/-!
# Computations that may ask the warehouse

How computations of `Asking` run one after the other: what was learnt is handed on, and the
first failure ends them.
-/

namespace TransformChain
namespace Asking

theorem bind_apply {ε α β : Type} (a : ExceptT ε (StateM Resolver) α)
    (f : α → ExceptT ε (StateM Resolver) β) (resolver : Resolver) :
    (a >>= f) resolver =
      match a resolver with
      | (.ok value, next) => f value next
      | (.error e, next) => (.error e, next) := by
  change (ExceptT.bind a f) resolver = _
  simp only [ExceptT.bind, ExceptT.mk, bind, StateT.bind]
  cases a resolver with
  | mk result next =>
      cases result with
      | ok value => rfl
      | error e => rfl

theorem bind_eq_ok_iff {a : Asking α} {f : α → Asking β} {before after : Resolver} {value : β} :
    (a >>= f) before = (.ok value, after) ↔
      ∃ first between, a before = (.ok first, between) ∧ f first between = (.ok value, after) := by
  rw [bind_apply]
  cases a before with
  | mk result between =>
      cases result with
      | error e =>
          constructor
          · intro h
            cases h
          · rintro ⟨_, _, h, _⟩
            cases h
      | ok first =>
          constructor
          · intro h
            exact ⟨first, between, rfl, h⟩
          · rintro ⟨_, _, h, hrest⟩
            cases h
            exact hrest

theorem lift_apply (result : Except Error α) (resolver : Resolver) :
    (liftM result : Asking α) resolver = (result, resolver) := rfl

theorem lift_eq_ok_iff {result : Except Error α} {before after : Resolver} {value : α} :
    (liftM result : Asking α) before = (.ok value, after) ↔
      result = .ok value ∧ before = after := by
  constructor
  · intro h
    have hpair : (result, before) = (Except.ok value, after) := by
      rw [← h, lift_apply]
    exact ⟨congrArg Prod.fst hpair, congrArg Prod.snd hpair⟩
  · rintro ⟨rfl, rfl⟩
    rfl

theorem pure_eq_ok_iff {value w : α} {before after : Resolver} :
    (pure value : Asking α) before = (.ok w, after) ↔ value = w ∧ before = after := by
  change (Except.ok value, before) = (Except.ok w, after) ↔ _
  rw [Prod.mk.injEq, Except.ok.injEq]

end Asking
end TransformChain
