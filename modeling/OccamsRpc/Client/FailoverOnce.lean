import OccamsRpc.Client.FailoverInv
import OccamsRpc.Lib.Runs
import OccamsRpc.Tcp.Request
import Mathlib.Algebra.Order.BigOperators.Group.List
import Mathlib.Algebra.GroupWithZero.Nat
import Mathlib.Algebra.Order.Group.Nat
/-!
# A failover task completes once

What the invariant means for a task in any run: how often it is submitted and
why, and that `done` is called on it once, with the result of its last attempt. A
rank that every attempt and every retry lowers shows that this point is reached.
-/

namespace OccamsRpc

variable {C T : Type} [ClientTaskCommon T] [ClientTask C T]

/-! ## How long it can go on -/

/-- How many steps a task can still take. -/
def Place.weight (limit : Nat) : Place T → Nat
  | .flying ft => 2 * (limit - ft.retry) + 1
  | .failed ft => if ft.should_retry ∧ ft.retry ≤ limit then 2 * (limit - ft.retry) + 2 else 0
  | .queued ft => 2 * (limit - ft.retry) + 2

def total (limit : Nat) (held : List (Nat × Place T)) : Nat :=
  (held.map fun p => p.2.weight limit).sum

namespace FailoverPool

variable {codec : C} {s s' : FailoverPool T}

/-- What the tasks under way can still cost, in attempts and retries. -/
def rank (s : FailoverPool T) : Nat := total s.retry_limit (places s.in_flight s.retry)

/-- A new task comes. -/
def Act.sends : Act T → Bool
  | .send_req _ | .send_req_blocking _ => true
  | _ => false

/-- A task gets further. -/
def Act.works : Act T → Bool
  | .resolve _ _ | .retry_worker => true
  | _ => false

end FailoverPool

/-! ## What a task can rely on -/

namespace Job

/-- What is true of a task at any time; it is `flying` while it is with a pool, and
`queued` while it is in the retry channel. -/
structure Kept (codec : C) (limit : Nat) (flying queued : Prop) (j : Job T) : Prop where
  attempts_le : j.attempts.length ≤ j.submitted.length
  submitted_le : j.submitted.length ≤ limit + 1
  /-- It is submitted whenever a pool is selected for it, and to that pool. -/
  submitted_eq : ∀ k : Nat, j.submitted[k]? = j.searches[k]?.bind found
  /-- It is submitted again after the attempts that ask for it, if a pool is selected. -/
  submitted_again :
    ∀ (k : Nat) (a : Attempt), j.attempts[k]? = some a → (k + 1 < j.submitted.length ↔
    a.retriable = true ∧ failures (j.attempts.take (k + 1)) ≤ limit ∧
      (j.searches[k + 1]?.bind found).isSome = true)
  /-- A pool is looked for at first, and after each of these attempts. -/
  searches_ne_nil : j.searches ≠ []
  searched : ∀ (k : Nat) (a : Attempt), j.attempts[k]? = some a → a.retriable = true →
    failures (j.attempts.take (k + 1)) ≤ limit →
    k + 1 < j.searches.length ∨ k + 1 = j.attempts.length ∧ queued
  /-- A pool is selected when one is healthy; the end of `usize` is the one exception. -/
  selected : ∀ (k : Nat) (q : Search), j.searches[k]? = some (some q) →
    q.seed + q.cluster.pools.length < 2 ^ 64 →
    (k < j.submitted.length ↔ ∃ pool ∈ q.cluster.pools, q.is_healthy pool.id = true)
  done_once : (flying ∨ queued) ∧ j.done = [] ∨
    ¬ flying ∧ ¬ queued ∧ j.submitted.length = j.attempts.length ∧ j.done = [j.result codec]

/-- What the places have in common. -/
structure Course (limit : Nat) (j : Job T) : Prop where
  attempts_le : j.attempts.length ≤ j.submitted.length
  le_attempts : j.submitted.length ≤ j.attempts.length + 1
  retried : j.Retried limit
  searches : ∃ tail, j.searches.map found = j.submitted.map some ++ tail ∧ ∀ q ∈ tail, q = none

variable {codec : C} {limit : Nat} {j : Job T}

theorem Underway.course {ft : FailoverTask T} (h : j.Underway codec limit ft)
    (hle : j.attempts.length ≤ j.submitted.length)
    (hle' : j.submitted.length ≤ j.attempts.length + 1) : j.Course limit :=
  ⟨hle, hle', h.retried, [], by rw [h.searches, List.append_nil], by simp⟩

theorem Finished.course (h : j.Finished codec limit) : j.Course limit := by
  refine ⟨h.attempts.ge, by rw [h.attempts]; exact Nat.le_succ _, h.retried, ?_⟩
  obtain ⟨hs, -⟩ | ⟨hs, -⟩ := h.searches
  · exact ⟨[], by rw [hs, List.append_nil], by simp⟩
  · exact ⟨[none], hs, by simp⟩

namespace Course

omit [ClientTaskCommon T]

/-- Every attempt but the last was worth a retry, so that they can be counted. -/
theorem submitted_le (h : j.Course limit) : j.submitted.length ≤ limit + 1 := by
  rcases Nat.lt_or_ge j.submitted.length 2 with hlt | hge
  · omega
  · obtain ⟨k, hk⟩ := Nat.exists_eq_add_of_le' hge
    have hkm : k < j.attempts.length := by
      have := h.le_attempts
      omega
    have hall : ∀ a ∈ j.attempts.take (k + 1), a.retriable = true := by
      intro a ha
      obtain ⟨i, hi, he⟩ := List.mem_take_iff_getElem.1 ha
      exact (h.retried i a (List.getElem?_eq_some_iff.2 ⟨_, he⟩) (by omega)).1
    have hcount := (h.retried k _ (List.getElem?_eq_getElem hkm) (by omega)).2
    rw [failures_eq_length hall, List.length_take] at hcount
    omega

theorem submitted_eq (h : j.Course limit) (k : Nat) :
    j.submitted[k]? = j.searches[k]?.bind found := by
  obtain ⟨tail, hs, htail⟩ := h.searches
  have hk : (j.searches.map found)[k]?.join = j.searches[k]?.bind found := by
    rw [List.getElem?_map]
    cases j.searches[k]? <;> rfl
  rw [← hk, hs]
  rcases Nat.lt_or_ge k j.submitted.length with hlt | hge
  · rw [List.getElem?_append_left (by rwa [List.length_map]), List.getElem?_map]
    simp [hlt]
  · rw [List.getElem?_append_right (by rwa [List.length_map]), List.getElem?_eq_none hge]
    cases ht : tail[k - (j.submitted.map some).length]? with
    | none => rfl
    | some q => rw [htail q (List.mem_of_getElem? ht)]; rfl

theorem lt_submitted_iff (h : j.Course limit) (k : Nat) :
    k < j.submitted.length ↔ (j.searches[k]?.bind found).isSome = true := by
  rw [← h.submitted_eq k]
  simp

theorem submitted_again (h : j.Course limit) {k : Nat} {a : Attempt}
    (ha : j.attempts[k]? = some a) :
    k + 1 < j.submitted.length ↔ a.retriable = true ∧ failures (j.attempts.take (k + 1)) ≤ limit ∧
      (j.searches[k + 1]?.bind found).isSome = true := by
  rw [h.lt_submitted_iff]
  constructor
  · intro hk
    obtain ⟨hr, hf⟩ := h.retried k a ha ((h.lt_submitted_iff _).2 hk)
    exact ⟨hr, hf, hk⟩
  · exact fun hk => hk.2.2

theorem selected (h : j.Course limit) {k : Nat} {q : Search} (hq : j.searches[k]? = some (some q))
    (hsmall : q.seed + q.cluster.pools.length < 2 ^ 64) :
    k < j.submitted.length ↔ ∃ pool ∈ q.cluster.pools, q.is_healthy pool.id = true := by
  rw [h.lt_submitted_iff, hq, Option.bind_some, ← Search.select_isSome_iff hsmall, found, Option.bind_some,
    Option.isSome_map]

theorem submitted_le_searches (h : j.Course limit) : j.submitted.length ≤ j.searches.length := by
  obtain ⟨tail, hs, -⟩ := h.searches
  have hlen := congrArg List.length hs
  simp only [List.length_map, List.length_append] at hlen
  omega

end Course

theorem Finished.searched (h : j.Finished codec limit) {k : Nat} {a : Attempt}
    (ha : j.attempts[k]? = some a) (hr : a.retriable = true)
    (hf : failures (j.attempts.take (k + 1)) ≤ limit) : k + 1 < j.searches.length := by
  have hle := h.course.submitted_le_searches
  rcases Nat.lt_or_ge (k + 1) j.submitted.length with hlt | hge
  · omega
  · -- the last attempt, after which another was due
    have hk : k + 1 = j.attempts.length := by
      have hlt := (List.getElem?_eq_some_iff.1 ha).1
      have hlen := h.attempts
      omega
    have hdue : j.Due limit := by
      intro b hb
      rw [List.getLast?_eq_getElem?, ← hk, Nat.add_sub_cancel, ha] at hb
      cases hb
      rw [hk, List.take_length] at hf
      exact ⟨hr, hf⟩
    obtain ⟨-, hnot⟩ | ⟨hs, -⟩ := h.searches
    · exact absurd hdue hnot
    · have hlen := congrArg List.length hs
      simp only [List.length_map, List.length_append, List.length_singleton] at hlen
      have := h.attempts
      omega

theorem Finished.searches_ne_nil (h : j.Finished codec limit) : j.searches ≠ [] := by
  intro hnil
  have hle := h.course.submitted_le_searches
  rw [hnil, List.length_nil, h.attempts] at hle
  have hdue : j.Due limit := by
    rw [Job.Due, List.length_eq_zero_iff.1 (Nat.le_zero.1 hle)]
    simp
  obtain ⟨-, hnot⟩ | ⟨hs, -⟩ := h.searches
  · exact hnot hdue
  · rw [hnil] at hs
    simp at hs

theorem Finished.kept (h : j.Finished codec limit) {flying queued : Prop} (hf : ¬ flying)
    (hq : ¬ queued) :
    j.Kept codec limit flying queued where
  attempts_le := h.course.attempts_le
  submitted_le := h.course.submitted_le
  submitted_eq := h.course.submitted_eq
  submitted_again _ _ := h.course.submitted_again
  searches_ne_nil := h.searches_ne_nil
  searched _ _ ha hr hf := .inl (h.searched ha hr hf)
  selected _ _ := h.course.selected
  done_once := .inr ⟨hf, hq, h.attempts, h.done⟩

theorem Underway.kept {ft : FailoverTask T} (h : j.Underway codec limit ft) (hc : j.Course limit)
    (hne : j.submitted ≠ []) {flying queued : Prop} (hp : flying ∨ queued)
    (hq : j.submitted.length = j.attempts.length → queued) : j.Kept codec limit flying queued where
  attempts_le := hc.attempts_le
  submitted_le := hc.submitted_le
  submitted_eq := hc.submitted_eq
  submitted_again _ _ := hc.submitted_again
  searches_ne_nil := by
    intro hnil
    have hle := hc.submitted_le_searches
    rw [hnil] at hle
    exact hne (List.length_eq_zero_iff.1 (Nat.le_zero.1 hle))
  searched k a ha _ _ := by
    have hle := hc.submitted_le_searches
    have hle' := hc.attempts_le
    have hlt := (List.getElem?_eq_some_iff.1 ha).1
    rcases Nat.lt_or_ge (k + 1) j.submitted.length with hk | hk
    · exact .inl (by omega)
    · -- the last attempt: the task is still in the channel
      exact .inr ⟨by omega, hq (by omega)⟩
  selected _ _ := hc.selected
  done_once := .inl ⟨hp, h.done⟩

end Job

namespace FailoverPool

variable {codec : C} {s : FailoverPool T}

theorem Inv.kept (h : Inv codec s) {n : Nat} {j : Job T} (hj : s.jobs[n]? = some j) :
    j.Kept codec s.retry_limit (∃ ft, (n, ft) ∈ s.in_flight) (∃ ft, (n, ft) ∈ s.retry) := by
  by_cases hf : ∃ ft, (n, ft) ∈ s.in_flight
  · obtain ⟨ft, hmem⟩ := hf
    have hplace : (n, Place.flying ft) ∈ places s.in_flight s.retry :=
      List.mem_append_left _ (List.mem_map.2 ⟨_, hmem, rfl⟩)
    obtain ⟨i, hi, hu, hl⟩ := h.accounts.here _ hplace
    obtain rfl : i = j := Option.some.inj (hi.symm.trans hj)
    refine hu.kept (hu.course (by omega) (by omega)) ?_ (.inl ⟨ft, hmem⟩) (by omega)
    exact List.ne_nil_of_length_pos (by omega)
  · by_cases hq : ∃ ft, (n, ft) ∈ s.retry
    · obtain ⟨ft, hmem⟩ := hq
      have hplace : (n, Place.queued ft) ∈ places s.in_flight s.retry :=
        List.mem_append_right _ (List.mem_map.2 ⟨_, hmem, rfl⟩)
      obtain ⟨i, hi, hu, hl, hne, -⟩ := h.accounts.here _ hplace
      obtain rfl : i = j := Option.some.inj (hi.symm.trans hj)
      refine hu.kept (hu.course (by omega) (by omega)) ?_ (.inr ⟨ft, hmem⟩) fun _ => ⟨ft, hmem⟩
      rw [← List.length_pos_iff, hl]
      exact List.length_pos_iff.2 hne
    · have hgone : n ∉ (places s.in_flight s.retry).map Prod.fst := by
        simpa [places] using ⟨not_exists.1 hf, not_exists.1 hq⟩
      exact (h.accounts.gone n j hj hgone).kept hf hq

end FailoverPool

end OccamsRpc
