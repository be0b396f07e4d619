import Mathlib.Data.List.Nodup
import Mathlib.Tactic.Common
/-!
# Items that are somewhere or finished

Items are numbered in the order they came. Some are held at a place, each at one
place at most, and the place says what an item there must be like; all others are
finished. Operations take one item from a place and put it at another, or finish
it, or bring a new one.
-/

namespace Lib

variable {J P : Type*}

/-- `held` gives the number of each item that is somewhere, and where. -/
structure Ledger (At : P → J → Prop) (Finished : J → Prop) (items : List J) (held : List (Nat × P)) :
    Prop where
  nodup : (held.map Prod.fst).Nodup
  here : ∀ p ∈ held, ∃ j, items[p.1]? = some j ∧ At p.2 j
  gone : ∀ n j, items[n]? = some j → n ∉ held.map Prod.fst → Finished j

namespace Ledger

variable {At : P → J → Prop} {Finished : J → Prop} {items : List J} {held held' : List (Nat × P)}
  {n : Nat} {p q : P}

theorem nil : Ledger At Finished [] [] := ⟨by simp, by simp, by simp⟩

theorem perm (h : Ledger At Finished items held) (hp : held.Perm held') :
    Ledger At Finished items held' where
  nodup := (hp.map _).nodup_iff.1 h.nodup
  here x hx := h.here x (hp.mem_iff.2 hx)
  gone n j hj hn := h.gone n j hj fun hm => hn ((hp.map _).mem_iff.1 hm)

theorem lt_length (h : Ledger At Finished items held) {x : Nat × P} (hx : x ∈ held) :
    x.1 < items.length := by
  obtain ⟨j, hj, -⟩ := h.here x hx
  exact (List.getElem?_eq_some_iff.1 hj).1

theorem getElem?_modify_self {f : J → J} {j : J} (hj : items[n]? = some j) :
    (items.modify n f)[n]? = some (f j) := by
  simp [hj]

/-- A change of one item leaves the others where they are. -/
theorem here_other (h : Ledger At Finished items ((n, p) :: held)) (f : J → J) :
    ∀ x ∈ held, ∃ j, (items.modify n f)[x.1]? = some j ∧ At x.2 j := by
  intro x hx
  have hnd := h.nodup
  rw [List.map_cons, List.nodup_cons] at hnd
  have hne : x.1 ≠ n := fun he => hnd.1 (List.mem_map.2 ⟨x, hx, he⟩)
  obtain ⟨j, hj, hat⟩ := h.here x (List.mem_cons_of_mem _ hx)
  exact ⟨j, by rwa [List.getElem?_modify_ne _ _ (Ne.symm hne)], hat⟩

/-- An item changes its place. -/
theorem move (h : Ledger At Finished items ((n, p) :: held)) {f : J → J}
    (hf : ∀ j, At p j → At q (f j)) :
    Ledger At Finished (items.modify n f) ((n, q) :: held) := by
  refine ⟨h.nodup, ?_, ?_⟩
  · intro x hx
    rcases List.mem_cons.1 hx with rfl | hx
    · obtain ⟨j, hj, hp⟩ := h.here (n, p) List.mem_cons_self
      exact ⟨f j, getElem?_modify_self hj, hf j hp⟩
    · exact h.here_other f x hx
  · intro m j hj hm
    rw [List.map_cons, List.mem_cons, not_or] at hm
    rw [List.getElem?_modify_ne _ _ (Ne.symm hm.1)] at hj
    exact h.gone m j hj (by simpa using hm)

/-- An item is put elsewhere as it is. -/
theorem relabel (h : Ledger At Finished items ((n, p) :: held)) (hpq : ∀ j, At p j → At q j) :
    Ledger At Finished items ((n, q) :: held) := by
  have hmove := h.move (f := id) hpq
  rwa [List.modify_id] at hmove

/-- An item is finished. -/
theorem finish (h : Ledger At Finished items ((n, p) :: held)) {f : J → J}
    (hf : ∀ j, At p j → Finished (f j)) :
    Ledger At Finished (items.modify n f) held := by
  have hnd := h.nodup
  rw [List.map_cons, List.nodup_cons] at hnd
  refine ⟨hnd.2, h.here_other f, ?_⟩
  intro m j hj hm
  by_cases he : m = n
  · subst he
    obtain ⟨i, hi, hp⟩ := h.here (m, p) List.mem_cons_self
    rw [getElem?_modify_self hi] at hj
    cases hj
    exact hf i hp
  · rw [List.getElem?_modify_ne _ _ (Ne.symm he)] at hj
    refine h.gone m j hj ?_
    rw [List.map_cons, List.mem_cons, not_or]
    exact ⟨he, hm⟩

/-- A new item comes, and is held. -/
theorem start (h : Ledger At Finished items held) {j : J} (hj : At p j) :
    Ledger At Finished (items ++ [j]) ((items.length, p) :: held) := by
  refine ⟨?_, ?_, ?_⟩
  · rw [List.map_cons, List.nodup_cons]
    refine ⟨fun hm => ?_, h.nodup⟩
    obtain ⟨x, hx, he⟩ := List.mem_map.1 hm
    exact Nat.ne_of_lt (h.lt_length hx) he
  · intro x hx
    rcases List.mem_cons.1 hx with rfl | hx
    · exact ⟨j, List.getElem?_concat_length, hj⟩
    · obtain ⟨i, hi, hat⟩ := h.here x hx
      exact ⟨i, by rwa [List.getElem?_append_left (h.lt_length hx)], hat⟩
  · intro m i hi hm
    rw [List.map_cons, List.mem_cons, not_or] at hm
    rcases Nat.lt_trichotomy m items.length with hlt | he | hgt
    · rw [List.getElem?_append_left hlt] at hi
      exact h.gone m i hi hm.2
    · exact absurd he hm.1
    · rw [List.getElem?_eq_none (by rw [List.length_append, List.length_singleton]; omega)] at hi
      cases hi

/-- A new item comes, and is finished at once. -/
theorem refuse (h : Ledger At Finished items held) {j : J} (hj : Finished j) :
    Ledger At Finished (items ++ [j]) held := by
  refine ⟨h.nodup, ?_, ?_⟩
  · intro x hx
    obtain ⟨i, hi, hat⟩ := h.here x hx
    exact ⟨i, by rwa [List.getElem?_append_left (h.lt_length hx)], hat⟩
  · intro m i hi hm
    rcases Nat.lt_trichotomy m items.length with hlt | rfl | hgt
    · rw [List.getElem?_append_left hlt] at hi
      exact h.gone m i hi hm
    · rw [List.getElem?_concat_length] at hi
      cases hi
      exact hj
    · rw [List.getElem?_eq_none (by rw [List.length_append, List.length_singleton]; omega)] at hi
      cases hi

end Ledger

end Lib
