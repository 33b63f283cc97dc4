/-!
# Keyed lists

Mappings that remember the order in which their keys were first written.  Writing a key again
replaces its value and leaves its place.
-/

namespace TransformChain

abbrev Keyed (α : Type u) := List (String × α)

namespace Keyed

def get? (key : String) : Keyed α → Option α
  | [] => none
  | (k, v) :: rest => if k = key then some v else get? key rest

def contains (key : String) (entries : Keyed α) : Bool :=
  (get? key entries).isSome

def put (key : String) (value : α) : Keyed α → Keyed α
  | [] => [(key, value)]
  | (k, v) :: rest => if k = key then (k, value) :: rest else (k, v) :: put key value rest

def erase (key : String) : Keyed α → Keyed α
  | [] => []
  | (k, v) :: rest => if k = key then rest else (k, v) :: erase key rest

def keys (entries : Keyed α) : List String :=
  entries.map Prod.fst

def values (entries : Keyed α) : List α :=
  entries.map Prod.snd

def putAll (entries : Keyed α) (more : List (String × α)) : Keyed α :=
  more.foldl (fun acc entry => put entry.1 entry.2 acc) entries

def ofPairs (pairs : List (String × α)) : Keyed α :=
  putAll [] pairs

/-!
## Reading after writing
-/

@[simp] theorem get?_nil (key : String) : get? key ([] : Keyed α) = none := rfl

theorem get?_put_self (key : String) (value : α) (entries : Keyed α) :
    get? key (put key value entries) = some value := by
  induction entries with
  | nil => simp [put, get?]
  | cons entry rest ih =>
      obtain ⟨k, v⟩ := entry
      by_cases h : k = key
      · simp [put, get?, h]
      · simp [put, get?, h, ih]

theorem get?_put_ne {key other : String} (value : α) (entries : Keyed α) (h : other ≠ key) :
    get? other (put key value entries) = get? other entries := by
  induction entries with
  | nil => simp [put, get?, Ne.symm h]
  | cons entry rest ih =>
      obtain ⟨k, v⟩ := entry
      by_cases hk : k = key
      · subst hk
        simp [put, get?, Ne.symm h]
      · by_cases ho : k = other
        · subst ho
          simp [put, get?, hk]
        · simp [put, get?, hk, ho, ih]

end Keyed
end TransformChain
