import Mathlib.Data.List.Basic
/-!
# Streams in transit

One direction of a connection: what the sender has written so far, how much of it has
come to the receiver, and what of that was taken. The sender goes on writing, more of
what it wrote arrives, and the receiver takes from the front.
-/

namespace Lib

variable {α : Type*}

/-- Of `total` the first `came` have arrived: those that were taken, and then `unread`. -/
structure Transit (total : List α) (came : Nat) (taken unread : List α) : Prop where
  came_le : came ≤ total.length
  split : taken ++ unread = total.take came

namespace Transit

variable {total taken unread : List α} {came : Nat}

theorem nil : Transit ([] : List α) 0 [] [] := ⟨Nat.le_refl _, rfl⟩

theorem write (h : Transit total came taken unread) (l : List α) :
    Transit (total ++ l) came taken unread where
  came_le := by
    rw [List.length_append]
    exact Nat.le_add_right_of_le h.came_le
  split := by rw [h.split, List.take_append_of_le_length h.came_le]

/-- More arrives of what is on its way. -/
theorem arrive (h : Transit total came taken unread) {sent : List α} (hs : sent <+: total)
    (n : Nat) :
    Transit total (came + ((sent.drop came).take n).length) taken (unread ++ (sent.drop came).take n) := by
  obtain ⟨rest, rfl⟩ := hs
  have hle := h.came_le
  rw [List.length_append] at hle
  have hpre : (sent.drop came).take n <+: (sent ++ rest).drop came := by
    by_cases hc : came ≤ sent.length
    · rw [List.drop_append_of_le_length hc]
      exact (List.take_prefix _ _).trans (List.prefix_append _ _)
    · rw [List.drop_eq_nil_of_le (by omega), List.take_nil]
      exact List.nil_prefix
  constructor
  · have hlen := hpre.length_le
    rw [List.length_drop, List.length_append] at hlen
    rw [List.length_append]
    omega
  · rw [← List.append_assoc, h.split, List.take_add]
    exact congrArg _ (List.prefix_iff_eq_take.1 hpre)

theorem take (h : Transit total came taken unread) {bs rest : List α} (hu : unread = bs ++ rest) :
    Transit total came (taken ++ bs) rest where
  came_le := h.came_le
  split := by rw [← h.split, hu, List.append_assoc]

/-- What waits is the front of what was written and not taken. -/
theorem unread_prefix {rest : List α} (h : Transit (taken ++ rest) came taken unread) :
    unread <+: rest := by
  have hp : taken ++ unread <+: taken ++ rest := h.split ▸ List.take_prefix _ _
  exact (List.prefix_append_right_inj taken).1 hp

/-- When all has come and nothing waits, all was taken. -/
theorem taken_eq (h : Transit total came taken unread) (hc : came = total.length) (hu : unread = []) :
    taken = total := by
  have hs := h.split
  rwa [hu, List.append_nil, hc, List.take_length] at hs

end Transit

/-- Where every item has a trace, a first part with the trace of the whole is the whole. -/
theorem prefix_eq_of_flatMap {β : Type*} {f : α → List β} (hf : ∀ a, f a ≠ []) {l m : List α}
    (h : l <+: m) (he : l.flatMap f = m.flatMap f) : l = m := by
  obtain ⟨rest, rfl⟩ := h
  cases rest with
  | nil => exact (List.append_nil l).symm
  | cons a rest =>
    rw [List.flatMap_append, List.flatMap_cons, List.self_eq_append_right] at he
    exact absurd (List.append_eq_nil_iff.1 he).1 (hf a)

end Lib
