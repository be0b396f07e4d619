import Mathlib.Data.List.AList
/-!
# Tables keyed by a number

A hash map is an association list with distinct keys (Mathlib's `AList`),
iterated in the order of its entries. `values` is its content; inserting under
a fresh key adds to the content, removing a key takes its value out, and
nothing else moves.
-/

namespace Lib

/-- A hash map from numbers to `α`. -/
abbrev Table (α : Type) := AList (fun _ : Nat => α)

namespace Table

variable {α : Type}

/-- The values held, in iteration order. -/
def values (m : Table α) : List α := m.entries.map (·.2)

@[simp] theorem values_empty : values (∅ : Table α) = [] := rfl

theorem mem_values {m : Table α} {v : α} : v ∈ m.values ↔ ∃ k, m.lookup k = some v := by
  simp only [values, List.mem_map, Sigma.exists]
  constructor
  · rintro ⟨k, w, hw, rfl⟩
    exact ⟨k, AList.mem_lookup_iff.2 hw⟩
  · rintro ⟨k, hk⟩
    exact ⟨k, v, AList.mem_lookup_iff.1 hk, rfl⟩

theorem values_insert {m : Table α} {k : Nat} (h : k ∉ m) (v : α) :
    values (m.insert k v) = v :: m.values := by
  simp only [values, AList.entries_insert_of_notMem h, List.map_cons]

/-- Removing a key that is there takes exactly its value out. -/
theorem values_erase {m : Table α} {k : Nat} {v : α} (h : m.lookup k = some v) :
    m.values.Perm (v :: values (m.erase k)) := by
  have hk : k ∈ m.entries.keys := AList.lookup_isSome.1 (by rw [h]; rfl)
  obtain ⟨w, l₁, l₂, -, he, hr⟩ := List.exists_of_kerase hk
  have hw : m.lookup k = some w := AList.mem_lookup_iff.2 (by rw [he]; simp)
  obtain rfl : v = w := by rw [h] at hw; exact Option.some.inj hw
  have hv : values (m.erase k) = (l₁ ++ l₂).map (·.2) := by
    show (List.kerase k m.entries).map _ = _
    rw [hr]
  rw [hv, values, he]
  simp only [List.map_append, List.map_cons]
  exact List.perm_middle

/-- Removing every key in turn, as a loop over a collected list of keys does. -/
def removeAll : List Nat → Table α → List α × Table α
  | [], m => ([], m)
  | k :: ks, m =>
    match m.lookup k with
    | some v => let (vs, m') := removeAll ks (m.erase k); (v :: vs, m')
    | none => removeAll ks m

theorem removeAll_keys (m : Table α) : removeAll m.keys m = (m.values, ∅) := by
  obtain ⟨l, hl⟩ := m
  induction l with
  | nil => rfl
  | cons e l ih =>
    obtain ⟨k, v⟩ := e
    have hk : k ∉ l.keys := (List.nodupKeys_cons.1 hl).1
    have hl' : l.NodupKeys := (List.nodupKeys_cons.1 hl).2
    have hf : AList.lookup k (⟨⟨k, v⟩ :: l, hl⟩ : Table α) = some v :=
      AList.mem_lookup_iff.2 (by simp)
    have hr : AList.erase k (⟨⟨k, v⟩ :: l, hl⟩ : Table α) = ⟨l, hl'⟩ :=
      AList.ext (List.kerase_cons_eq rfl)
    simp only [AList.keys_mk, List.keys_cons, removeAll, hf, hr]
    have := ih hl'
    simp only [AList.keys_mk] at this
    rw [this]
    rfl

end Table

end Lib
