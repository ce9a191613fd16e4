/-!
# Finite maps

A finite map is an association list in which no key occurs twice.  `find?_insert` and `find?_erase` say what a look-up
sees after a change, and `size` counts the keys that a look-up finds (`find?_isSome_iff`).
-/

namespace VaultChat

structure KeyMap (κ α : Type) [DecidableEq κ] where
  pairs : List (κ × α)
  nodup : (pairs.map Prod.fst).Nodup

namespace KeyMap

variable {κ α : Type} [DecidableEq κ]

def empty : KeyMap κ α := ⟨[], List.nodup_nil⟩

instance : EmptyCollection (KeyMap κ α) := ⟨empty⟩

instance : Inhabited (KeyMap κ α) := ⟨empty⟩

def find? (m : KeyMap κ α) (k : κ) : Option α := (m.pairs.find? fun p => p.1 == k).map Prod.snd

def keys (m : KeyMap κ α) : List κ := m.pairs.map Prod.fst

def size (m : KeyMap κ α) : Nat := m.pairs.length

def erase (m : KeyMap κ α) (k : κ) : KeyMap κ α where
  pairs := m.pairs.filter fun p => p.1 ≠ k
  nodup := (List.filter_sublist.map _).nodup m.nodup

/-- The entry for `k` is replaced or added. -/
def insert (m : KeyMap κ α) (k : κ) (a : α) : KeyMap κ α where
  pairs := (k, a) :: (m.erase k).pairs
  nodup := by
    refine List.nodup_cons.mpr ⟨?_, (m.erase k).nodup⟩
    simp [erase]

@[simp] theorem find?_empty (k : κ) : (∅ : KeyMap κ α).find? k = none := rfl

theorem find?_erase (m : KeyMap κ α) (k k' : κ) :
    (m.erase k).find? k' = if k' = k then none else m.find? k' := by
  simp only [find?, erase, List.find?_filter]
  split
  · rename_i h
    subst h
    simp [List.find?_eq_none]
  · rename_i h
    congr 2
    funext p
    by_cases hp : p.1 = k'
    · simp [hp, h]
    · simp [hp]

theorem find?_insert (m : KeyMap κ α) (k k' : κ) (a : α) :
    (m.insert k a).find? k' = if k' = k then some a else m.find? k' := by
  by_cases h : k' = k
  · subst h
    simp [find?, insert]
  · have := find?_erase m k k'
    simp only [h, if_false] at this ⊢
    rw [← this]
    simp [find?, insert, Ne.symm h]

theorem find?_isSome_iff {m : KeyMap κ α} {k : κ} : (m.find? k).isSome = true ↔ k ∈ m.keys := by
  simp only [find?, Option.isSome_map, List.find?_isSome, beq_iff_eq, keys, List.mem_map]

end KeyMap

end VaultChat
