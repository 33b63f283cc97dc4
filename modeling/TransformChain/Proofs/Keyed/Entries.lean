import Mathlib.Data.List.Nodup
import Mathlib.Data.List.Perm.Basic
import TransformChain.Keyed

/-!
# What keyed lists hold

The keys of a keyed list after writing, and what is found in it.  When its keys are distinct, the
order of the entries makes no difference to what is found.
-/

namespace TransformChain
namespace Keyed

/-!
## Writing
-/

theorem put_ne_nil (key : String) (value : α) (entries : Keyed α) : put key value entries ≠ [] := by
  cases entries with
  | nil => exact List.cons_ne_nil _ _
  | cons entry rest =>
      unfold put
      split
      · exact List.cons_ne_nil _ _
      · exact List.cons_ne_nil _ _

theorem putAll_ne_nil {entries : Keyed α} (h : entries ≠ []) (more : List (String × α)) :
    putAll entries more ≠ [] := by
  induction more generalizing entries with
  | nil => exact h
  | cons entry rest ih => exact ih (put_ne_nil entry.1 entry.2 entries)

theorem put_of_notMem {key : String} {value : α} {entries : Keyed α} (h : key ∉ entries.keys) :
    put key value entries = entries ++ [(key, value)] := by
  induction entries with
  | nil => rfl
  | cons entry rest ih =>
      rcases entry with ⟨k, v⟩
      simp only [keys, List.map_cons, List.mem_cons, not_or] at h
      unfold put
      rw [if_neg (Ne.symm h.left), ih h.right]
      rfl

theorem putAll_of_nodup {entries : Keyed α} {more : List (String × α)}
    (h : (keys (entries ++ more)).Nodup) : putAll entries more = entries ++ more := by
  induction more generalizing entries with
  | nil => exact (List.append_nil entries).symm
  | cons entry rest ih =>
      rcases entry with ⟨key, value⟩
      have hsplit : entries ++ (key, value) :: rest = (entries ++ [(key, value)]) ++ rest := by
        simp
      have hkey : key ∉ entries.keys := by
        simp only [keys, List.map_append, List.map_cons] at h
        exact fun hmem => (List.disjoint_of_nodup_append h) hmem List.mem_cons_self
      change putAll (put key value entries) rest = _
      rw [put_of_notMem hkey, ih (hsplit ▸ h), hsplit]

theorem ofPairs_of_nodup {pairs : List (String × α)} (h : (keys pairs).Nodup) :
    ofPairs pairs = pairs :=
  putAll_of_nodup h

theorem isSome_get?_put (key other : String) (value : α) (entries : Keyed α) :
    (get? other (put key value entries)).isSome = true ↔
      other = key ∨ (get? other entries).isSome = true := by
  by_cases h : other = key
  · subst h
    simp [get?_put_self]
  · simp [get?_put_ne value entries h, h]

theorem isSome_get?_putAll {key : String} {entries : Keyed α} {more : List (String × α)} :
    (get? key (putAll entries more)).isSome = true ↔
      (get? key entries).isSome = true ∨ key ∈ keys more := by
  induction more generalizing entries with
  | nil => simp [putAll, keys]
  | cons entry rest ih =>
      change (get? key (putAll (put entry.1 entry.2 entries) rest)).isSome = true ↔ _
      rw [ih, isSome_get?_put]
      simp only [keys, List.map_cons, List.mem_cons]
      exact or_assoc.trans or_left_comm

theorem exists_get?_ofPairs {key : String} {pairs : List (String × α)} (h : key ∈ keys pairs) :
    ∃ value, get? key (ofPairs pairs) = some value :=
  Option.isSome_iff_exists.mp (isSome_get?_putAll.mpr (Or.inr h))

section Entries

variable {key : String} {value : α} {entries others : Keyed α}

/-!
## Finding
-/

theorem mem_of_get? (h : get? key entries = some value) : (key, value) ∈ entries := by
  induction entries with
  | nil => cases h
  | cons entry entries ih =>
      rw [get?] at h
      split at h
      case isTrue hkey =>
        cases h
        rw [← hkey]
        exact List.mem_cons_self
      case isFalse => exact List.mem_cons_of_mem entry (ih h)

theorem isSome_get? (key : String) (entries : Keyed α) :
    (get? key entries).isSome = (keys entries).contains key := by
  induction entries with
  | nil => rfl
  | cons entry entries ih =>
      rw [get?, keys, List.map_cons, List.contains_cons]
      by_cases hkey : entry.1 = key
      · rw [if_pos hkey, beq_iff_eq.mpr hkey.symm]
        rfl
      · rw [if_neg hkey, beq_eq_false_iff_ne.mpr (Ne.symm hkey), Bool.false_or]
        exact ih

theorem get?_eq_some_iff_mem (hnodup : (keys entries).Nodup) :
    get? key entries = some value ↔ (key, value) ∈ entries := by
  constructor
  · exact mem_of_get?
  · intro hmem
    induction entries with
    | nil => cases hmem
    | cons entry entries ih =>
        rcases List.nodup_cons.mp hnodup with ⟨hfirst, hrest⟩
        rw [get?]
        rcases List.mem_cons.mp hmem with rfl | hmem
        · exact if_pos rfl
        · have hne : entry.1 ≠ key := by
            intro heq
            rw [heq] at hfirst
            exact hfirst (List.mem_map_of_mem hmem)
          rw [if_neg hne]
          exact ih hrest hmem

theorem get?_eq_of_perm (hnodup : (keys entries).Nodup) (hperm : entries.Perm others)
    (key : String) : get? key entries = get? key others := by
  have hothers : (keys others).Nodup := (hperm.map Prod.fst).nodup_iff.mp hnodup
  ext value
  rw [get?_eq_some_iff_mem hnodup, get?_eq_some_iff_mem hothers, hperm.mem_iff]

/-- What can be found among the entries can be found among the others. -/
def Serves (entries others : Keyed α) : Prop :=
  ∀ key value, get? key entries = some value → get? key others = some value

theorem serves_of_perm (hnodup : (keys entries).Nodup) (hperm : entries.Perm others) :
    Serves entries others :=
  fun key _ hget => (get?_eq_of_perm hnodup hperm key).symm.trans hget

theorem serves_cons (hfresh : key ∉ keys entries) : Serves entries ((key, value) :: entries) := by
  intro other found hget
  have hne : key ≠ other := by
    rintro rfl
    exact hfresh (List.mem_map_of_mem (mem_of_get? hget))
  rw [get?, if_neg hne, hget]

end Entries

end Keyed
end TransformChain
