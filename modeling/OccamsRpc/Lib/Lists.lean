import Mathlib.Algebra.GroupWithZero.Nat
import Mathlib.Data.List.Forall2
/-!
# Lists whose entries change one at a time

A list of parties is changed by setting one entry and by adding others at its end; a
list of optional entries is compared with the list of those that are there.
-/

namespace Lib

variable {α : Type*}

/-! ## One entry among the others -/

/-- How many are as `f` says when one entry is set and others are added. -/
theorem countP_set_append {l : List α} {i : Nat} {a : α} (ha : l[i]? = some a) (b : α) (l' : List α)
    (f : α → Bool) :
    (l.set i b ++ l').countP f + (if f a then 1 else 0) =
      l.countP f + (if f b then 1 else 0) + l'.countP f := by
  obtain ⟨hlt, rfl⟩ := List.getElem?_eq_some_iff.1 ha
  have hpos :
      f l[i] = true → 0 < l.countP f := fun h => List.countP_pos_iff.2 ⟨_, List.getElem_mem hlt, h⟩
  rw [List.countP_append, List.countP_set hlt]
  split
  · have := hpos ‹_›
    omega
  · omega

theorem countP_set {l : List α} {i : Nat} {a : α} (ha : l[i]? = some a) (b : α) (f : α → Bool) :
    (l.set i b).countP f + (if f a then 1 else 0) = l.countP f + if f b then 1 else 0 := by
  have h := countP_set_append ha b [] f
  rwa [List.append_nil, List.countP_nil, Nat.add_zero] at h

/-- A sum over the entries when one of them is set. -/
theorem sum_map_set {l : List α} {i : Nat} {a : α} (ha : l[i]? = some a) (b : α) (f : α → Nat) :
    ((l.set i b).map f).sum + f a = (l.map f).sum + f b := by
  obtain ⟨hlt, rfl⟩ := List.getElem?_eq_some_iff.1 ha
  obtain ⟨pre, post, hl, -, hset⟩ := @List.exists_of_set _ i b l hlt
  have hold := congrArg (fun l => (l.map f).sum) hl
  simp only [List.map_append, List.map_cons, List.sum_append_nat, List.sum_cons] at hold
  simp only [hset, hold, List.map_append, List.map_cons, List.sum_append_nat, List.sum_cons]
  omega

theorem getElem?_set_some {l : List α} {i : Nat} {a : α} (ha : l[i]? = some a) (b : α) (j : Nat) :
    (l.set i b)[j]? = if i = j then some b else l[j]? := by
  rw [List.getElem?_set]
  split
  · rw [if_pos (List.getElem?_eq_some_iff.1 ha).1]
  · rfl

theorem set_concat_length (l : List α) (a b : α) : (l ++ [a]).set l.length b = l ++ [b] := by
  rw [List.set_append_right _ _ (Nat.le_refl _), Nat.sub_self]
  rfl

theorem forall_mem_set {p : α → Prop} {l : List α} {i : Nat} {a : α} (h : ∀ b ∈ l, p b) (ha : p a) :
    ∀ b ∈ l.set i a, p b := by
  intro b hb
  rcases List.mem_or_eq_of_mem_set hb with hb | rfl
  · exact h b hb
  · exact ha

theorem forall_mem_concat {p : α → Prop} {l : List α} {a : α} (h : ∀ b ∈ l, p b) (ha : p a) :
    ∀ b ∈ l ++ [a], p b := by
  rw [List.forall_mem_append, List.forall_mem_singleton]
  exact ⟨h, ha⟩

/-! ## Entries that may be missing -/

/-- Where no entry is missing before one that is there, the list of those that are there
has each at its place. -/
theorem getElem?_filterMap_id {l : List (Option α)}
    (h : l.Pairwise fun a b => b.isSome = true → a.isSome = true) (k : Nat) (a : α) :
    (l.filterMap id)[k]? = some a ↔ l[k]? = some (some a) := by
  induction l generalizing k with
  | nil => simp
  | cons x l ih =>
    obtain ⟨hx, hl⟩ := List.pairwise_cons.1 h
    cases x with
    | none =>
      have hnone : ∀ y ∈ l, y = none := by
        intro y hy
        cases y with
        | none => rfl
        | some b => cases hx _ hy rfl
      have hempty : (none :: l).filterMap id = [] := by
        rw [List.filterMap_eq_nil_iff]
        intro y hy
        rcases List.mem_cons.1 hy with rfl | hy
        · rfl
        · exact hnone y hy
      rw [hempty]
      constructor
      · intro hget
        cases hget
      · intro hget
        rcases List.mem_cons.1 (List.mem_of_getElem? hget) with he | hmem
        · cases he
        · cases hnone _ hmem
    | some b =>
      cases k with
      | zero => simp
      | succ k => exact ih hl k

/-- A partial function that has a value at every entry. -/
theorem forall₂_of_mapM {β : Type*} {f : α → Option β} {l : List α} {l' : List β}
    (h : l.mapM f = some l') :
    List.Forall₂ (fun a b => f a = some b) l l' := by
  induction l generalizing l' with
  | nil =>
    cases h
    exact .nil
  | cons a l ih =>
    rw [List.mapM_cons, Option.bind_eq_bind, Option.bind_eq_some_iff] at h
    obtain ⟨b, hb, h⟩ := h
    rw [Option.bind_eq_bind, Option.bind_eq_some_iff] at h
    obtain ⟨bs, hbs, ⟨⟩⟩ := h
    exact .cons hb (ih hbs)

end Lib
