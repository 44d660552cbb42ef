/-!
# Maps in order of insertion

An ordered map is a list of keys with their values. Writing to a key that is present keeps its place; a new key goes
to the end. Keys are strings, except in JSON objects.

- `keys_put`, `lookup_put`: what writing does to the keys and to every look-up;
- `OrderedMap.ofList`: the pairs of a list written one after the other.
-/

namespace ModuleMock

abbrev OrderedMap (α : Type) := List (String × α)

namespace OrderedMap

variable {κ α : Type}

def keys (m : List (κ × α)) : List κ := m.map (·.1)

variable [DecidableEq κ]

/-- Writes a value: in place of the old one if the key is present, and at the end otherwise. -/
def put : List (κ × α) → κ → α → List (κ × α)
  | [], k, v => [(k, v)]
  | (k', v') :: m, k, v => if k' = k then (k, v) :: m else (k', v') :: put m k v

/-- Writes a value only if the key is absent. -/
def putIfAbsent (m : List (κ × α)) (k : κ) (v : α) : List (κ × α) :=
  if k ∈ keys m then m else put m k v

/-- Writes all pairs of the second map over the first. -/
def update (m other : List (κ × α)) : List (κ × α) :=
  other.foldl (fun m p => put m p.1 p.2) m

def ofList (pairs : List (κ × α)) : List (κ × α) := update [] pairs

/-- Writing adds the key at the end, unless it is there. -/
theorem keys_put (m : List (κ × α)) (k : κ) (v : α) :
    keys (put m k v) = if k ∈ keys m then keys m else keys m ++ [k] := by
  induction m with
  | nil => rfl
  | cons p m ih =>
    obtain ⟨k', v'⟩ := p
    by_cases h : k' = k
    · subst h
      simp [put, keys]
    · have h' : k ≠ k' := fun e => h e.symm
      simp only [keys, put, h, if_false, List.map_cons, List.mem_cons, h', false_or] at ih ⊢
      rw [ih]
      split <;> rename_i hk <;> simp [hk]

/-- After writing, the key has the new value and all others have their old ones. -/
theorem lookup_put (m : List (κ × α)) (k k' : κ) (v : α) :
    (put m k v).lookup k' = if k' = k then some v else m.lookup k' := by
  induction m with
  | nil =>
    by_cases h : k' = k
    · simp [put, h]
    · simp [put, List.lookup_cons, h, beq_eq_false_iff_ne.mpr h]
  | cons p m ih =>
    obtain ⟨j, w⟩ := p
    by_cases h : j = k
    · subst h
      by_cases h' : k' = j
      · simp [put, h']
      · simp [put, List.lookup_cons, h', beq_eq_false_iff_ne.mpr h']
    · by_cases h' : k' = j
      · subst h'
        simp [put, h]
      · simp only [put, h, if_false, List.lookup_cons, beq_eq_false_iff_ne.mpr h']
        exact ih

end OrderedMap

end ModuleMock
