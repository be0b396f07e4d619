import OccamsRpc.Client.Failover
import OccamsRpc.Lib.Ledger
import Mathlib.Data.List.Perm.Basic
/-!
# Where the tasks of a failover pool are

Every task given to a `FailoverPool` is with a pool, or in the retry channel, or
its `done` has been called. The invariant is a ledger of the tasks by these
places; one lemma per function of the pool says how it moves a task.
-/

namespace OccamsRpc

variable {C T : Type} [ClientTaskCommon T] [ClientTask C T]

/-! ## What an attempt does to the wrapper -/

theorem Handling.foldl_wrapper (codec : C) (work : List Handling) (t : FailoverTask T) :
    work.foldl (Handling.apply codec) t =
      { t with inner := work.foldl (Handling.apply codec) t.inner } := by
  induction work generalizing t with
  | nil => rfl
  | cons h work ih =>
    have hh : h.apply codec t = { t with inner := h.apply codec t.inner } := by cases h <;> rfl
    rw [List.foldl_cons, List.foldl_cons, ih, hh]

theorem Attempt.settle_inner (codec : C) (a : Attempt) (t : FailoverTask T) :
    (a.settle codec t).inner = a.settle codec t.inner := by
  unfold Attempt.settle
  rw [Handling.foldl_wrapper]
  cases a.ending with
  | ok => rfl
  | custom e => rfl
  | rpc e =>
    simp only [Ending.set, ClientTask.set_rpc_error, FailoverTask.set_rpc_error]
    split <;> rfl

theorem Attempt.settle_last_index (codec : C) (a : Attempt) (t : FailoverTask T) :
    (a.settle codec t).last_index = t.last_index ∧
      (a.settle codec t).cluster_ver = t.cluster_ver := by
  unfold Attempt.settle
  rw [Handling.foldl_wrapper]
  cases a.ending with
  | ok => exact ⟨rfl, rfl⟩
  | custom e => exact ⟨rfl, rfl⟩
  | rpc e =>
    simp only [Ending.set, ClientTask.set_rpc_error, FailoverTask.set_rpc_error]
    split <;> exact ⟨rfl, rfl⟩

/-- The attempts that ended with an error worth another try. -/
def failures (as : List Attempt) : Nat := as.countP Attempt.retriable

theorem failures_concat (as : List Attempt) (a : Attempt) :
    failures (as ++ [a]) = failures as + if a.retriable then 1 else 0 := by
  rw [failures, List.countP_append, List.countP_singleton]
  rfl

theorem failures_eq_length {as : List Attempt} (h : ∀ a ∈ as, a.retriable = true) :
    failures as = as.length :=
  List.countP_eq_length.2 h

theorem Attempt.settle_retry (codec : C) (a : Attempt) (t : FailoverTask T) :
    (a.settle codec t).retry = t.retry + if a.retriable then 1 else 0 := by
  unfold Attempt.settle Attempt.retriable
  rw [Handling.foldl_wrapper]
  cases a.ending with
  | ok => rfl
  | custom e => rfl
  | rpc e =>
    simp only [Ending.set, ClientTask.set_rpc_error, FailoverTask.set_rpc_error, decide_eq_true_eq]
    split <;> rfl

/-- `set_ok` leaves `should_retry` as the attempt before set it. -/
theorem Attempt.settle_should_retry (codec : C) {a : Attempt} (ha : a.ending ≠ .ok)
    (t : FailoverTask T) :
    (a.settle codec t).should_retry = a.retriable := by
  unfold Attempt.settle Attempt.retriable
  cases he : a.ending with
  | ok => exact absurd he ha
  | custom e => rfl
  | rpc e =>
    simp only [Ending.set, ClientTask.set_rpc_error, FailoverTask.set_rpc_error]
    by_cases hlt : e < .Method <;> simp [hlt]

/-! ## What is true of a task at each place -/

namespace Job

/-- The inner task after all its attempts. -/
def settled (codec : C) (j : Job T) : T := j.attempts.foldl (Attempt.settle codec) j.task

/-- What `done` is to be called on: the result is that of the last attempt. -/
def result (codec : C) (j : Job T) : T :=
  match j.attempts.getLast? with
  | none => ClientTask.set_rpc_error C j.task .Unreachable
  | some a => a.settle codec (j.attempts.dropLast.foldl (Attempt.settle codec) j.task)

/-- Another attempt is due: there was none, or the last failed in a way that is
worth a retry and not too many did so. -/
def Due (limit : Nat) (j : Job T) : Prop :=
  ∀ a ∈ j.attempts.getLast?, a.retriable = true ∧ failures j.attempts ≤ limit

/-- Every attempt after which the task was submitted again was such. -/
def Retried (limit : Nat) (j : Job T) : Prop :=
  ∀ k a, j.attempts[k]? = some a → k + 1 < j.submitted.length →
    a.retriable = true ∧ failures (j.attempts.take (k + 1)) ≤ limit

/-- The task is not done, and `ft` is its wrapper. -/
structure Underway (codec : C) (limit : Nat) (ft : FailoverTask T) (j : Job T) : Prop where
  done : j.done = []
  searches : j.searches.map found = j.submitted.map some
  retried : j.Retried limit
  inner : ft.inner = j.settled codec
  retry : ft.retry = failures j.attempts

/-- A task that is done was completed once, with the result of its last attempt. -/
structure Finished (codec : C) (limit : Nat) (j : Job T) : Prop where
  done : j.done = [j.result codec]
  attempts : j.submitted.length = j.attempts.length
  retried : j.Retried limit
  /-- No other attempt was due, or the search for a pool found none. -/
  searches : j.searches.map found = j.submitted.map some ∧ ¬ j.Due limit ∨
    j.searches.map found = j.submitted.map some ++ [none] ∧ j.Due limit

end Job

/-- Where a task is that is not done. -/
inductive Place (T : Type)
  | flying (ft : FailoverTask T)
  /-- In a call of `error_handle`. -/
  | failed (ft : FailoverTask T)
  | queued (ft : FailoverTask T)

/-- What has happened to a task by the time it is there. -/
def Place.Holds (codec : C) (limit : Nat) : Place T → Job T → Prop
  | .flying ft, j => j.Underway codec limit ft ∧ j.submitted.length = j.attempts.length + 1
  | .failed ft, j => j.Underway codec limit ft ∧ j.submitted.length = j.attempts.length ∧
      ∃ a, j.attempts.getLast? = some a ∧ ft.should_retry = a.retriable
  | .queued ft, j => j.Underway codec limit ft ∧ j.submitted.length = j.attempts.length ∧
      j.attempts ≠ [] ∧ j.Due limit

section
variable {codec : C} {limit : Nat} {ft : FailoverTask T} {j : Job T} {a : Attempt}

omit [ClientTaskCommon T] in
theorem Job.due_attempt :
    (j.attempt a).Due limit ↔ a.retriable = true ∧ failures (j.attempts ++ [a]) ≤ limit := by
  simp [Job.Due, Job.attempt]

theorem Job.Underway.attempt (h : j.Underway codec limit ft)
    (hl : j.submitted.length = j.attempts.length + 1) :
    (j.attempt a).Underway codec limit (a.settle codec ft) where
  done := h.done
  searches := h.searches
  retried k b hb hk := by
    -- the attempt that has just ended is not one that the task was submitted again after
    have hlt : k < j.attempts.length := by
      have hk' : k + 1 < j.submitted.length := hk
      omega
    have hb' : (j.attempts ++ [a])[k]? = some b := hb
    rw [List.getElem?_append_left hlt] at hb'
    show _ ∧ failures ((j.attempts ++ [a]).take (k + 1)) ≤ limit
    rw [List.take_append_of_le_length hlt]
    exact h.retried k b hb' hk
  inner := by
    rw [Attempt.settle_inner, h.inner]
    show _ = (j.attempts ++ [a]).foldl (Attempt.settle codec) j.task
    rw [List.foldl_concat]
    rfl
  retry := by
    rw [Attempt.settle_retry, h.retry]
    exact (failures_concat _ _).symm

theorem Job.Underway.done_concat (h : j.Underway codec limit ft) (hne : j.attempts ≠ []) :
    j.done ++ [ft.inner] = [j.result codec] := by
  have hlast := List.getLast?_eq_some_getLast hne
  have hsplit := List.dropLast_append_getLast hne
  rw [h.done, h.inner, Job.result, hlast, Job.settled]
  nth_rewrite 1 [← hsplit]
  rw [List.foldl_concat]
  rfl

theorem Job.Underway.finish (h : j.Underway codec limit ft)
    (hl : j.submitted.length = j.attempts.length) (hne : j.attempts ≠ []) (hdue : ¬ j.Due limit) :
    (j.finish ft.inner).Finished codec limit where
  done := h.done_concat hne
  attempts := hl
  retried := h.retried
  searches := .inl ⟨h.searches, hdue⟩

theorem Job.Underway.give_up (h : j.Underway codec limit ft)
    (hl : j.submitted.length = j.attempts.length) (hne : j.attempts ≠ []) (hdue : j.Due limit)
    {q : Option Search} (hq : found q = none) :
    ((j.search q).finish ft.inner).Finished codec limit where
  done := h.done_concat hne
  attempts := hl
  retried := h.retried
  searches := by
    refine .inr ⟨?_, hdue⟩
    show (j.searches ++ [q]).map found = _
    rw [List.map_append, h.searches, List.map_singleton, hq]
    rfl

theorem Place.Holds.failed (h : (Place.flying ft).Holds codec limit j) (ha : a.ending ≠ .ok) :
    (Place.failed (a.settle codec ft)).Holds codec limit (j.attempt a) := by
  obtain ⟨hu, hl⟩ := h
  refine ⟨hu.attempt hl, ?_, a, List.getLast?_concat, Attempt.settle_should_retry codec ha ft⟩
  simp [Job.attempt, hl]

theorem Place.Holds.ok (h : (Place.flying ft).Holds codec limit j) (ha : a.ending = .ok) :
    ((j.attempt a).finish (a.settle codec ft).inner).Finished codec limit := by
  obtain ⟨hu, hl⟩ := h
  refine (hu.attempt hl).finish ?_ (by simp [Job.attempt]) ?_
  · simp [Job.attempt, hl]
  · rw [Job.due_attempt]
    simp [Attempt.retriable, ha]

theorem Place.Holds.due_iff (h : (Place.failed ft).Holds codec limit j) :
    j.Due limit ↔ ft.should_retry = true ∧ ft.retry ≤ limit := by
  obtain ⟨hu, -, a, ha, hs⟩ := h
  simp [Job.Due, ha, hs, hu.retry]

theorem Place.Holds.attempts_ne_nil (h : (Place.failed ft).Holds codec limit j) :
    j.attempts ≠ [] := by
  obtain ⟨-, -, a, ha, -⟩ := h
  rintro hnil
  rw [hnil] at ha
  cases ha

theorem Place.Holds.resubmit (h : (Place.queued ft).Holds codec limit j) {q : Option Search}
    {pool : Pool} (hq : found q = some pool.id) (ver index : Nat) :
    (Place.flying { ft with cluster_ver := ver, last_index := index }).Holds codec limit
      ((j.search q).submit pool) := by
  obtain ⟨hu, hl, hne, hdue⟩ := h
  refine ⟨⟨hu.done, ?_, ?_, hu.inner, hu.retry⟩, ?_⟩
  · show (j.searches ++ [q]).map found = (j.submitted ++ [pool.id]).map some
    rw [List.map_append, List.map_append, hu.searches, List.map_singleton, List.map_singleton, hq]
  · intro k a ha hk
    have hk' : k + 1 < (j.submitted ++ [pool.id]).length := hk
    rw [List.length_append, List.length_singleton] at hk'
    rcases Nat.lt_or_ge (k + 1) j.submitted.length with hlt | hge
    · exact hu.retried k a ha hlt
    · -- the last attempt
      have hk1 : k + 1 = j.attempts.length := by omega
      have hlast : j.attempts.getLast? = some a := by
        rw [List.getLast?_eq_getElem?, ← hk1, Nat.add_sub_cancel]
        exact ha
      show _ ∧ failures (j.attempts.take (k + 1)) ≤ limit
      rw [hk1, List.take_length]
      exact hdue a hlast
  · show (j.submitted ++ [pool.id]).length = j.attempts.length + 1
    rw [List.length_append, List.length_singleton, hl]

theorem Place.Holds.accepted {q : Option Search} {pool : Pool} (hq : found q = some pool.id) (t : T)
    (index ver : Nat) :
    (Place.flying ⟨index, ver, t, 0, false⟩).Holds codec limit
      (({ task := t : Job T }.search q).submit pool) := by
  refine ⟨⟨rfl, ?_, ?_, rfl, rfl⟩, rfl⟩
  · show [found q] = [some pool.id]
    rw [hq]
  · intro k a ha
    cases ha

variable (codec limit) in
theorem Job.Finished.refused {q : Option Search} (hq : found q = none) (t : T) :
    (({ task := t : Job T }.search q).finish (ClientTask.set_rpc_error C t .Unreachable)).Finished
      codec limit := by
  refine ⟨rfl, rfl, ?_, .inr ⟨?_, ?_⟩⟩
  · intro k a ha
    cases ha
  · show [found q] = [none]
    rw [hq]
  · intro a ha
    cases ha

end

/-! ## Where the tasks are -/

def places (in_flight retry : List (Nat × FailoverTask T)) : List (Nat × Place T) :=
  in_flight.map (Prod.map id .flying) ++ retry.map (Prod.map id .queued)

section
variable {in_flight retry : List (Nat × FailoverTask T)} {n : Nat} {ft : FailoverTask T}

omit [ClientTaskCommon T]

theorem places_submit :
    ((n, .flying ft) :: places in_flight retry).Perm (places (in_flight ++ [(n, ft)]) retry) := by
  unfold places
  rw [List.map_append, List.append_assoc]
  exact List.perm_middle.symm

theorem places_enqueue :
    ((n, .queued ft) :: places in_flight retry).Perm (places in_flight (retry ++ [(n, ft)])) := by
  unfold places
  rw [List.map_append, ← List.append_assoc]
  exact (List.perm_append_singleton _ _).symm

theorem places_take {i : Nat} (hi : in_flight[i]? = some (n, ft)) :
    (places in_flight retry).Perm ((n, .flying ft) :: places (in_flight.eraseIdx i) retry) := by
  obtain ⟨hlt, he⟩ := List.getElem?_eq_some_iff.1 hi
  have hperm := (List.getElem_cons_eraseIdx_perm hlt).symm
  rw [he] at hperm
  exact (hperm.map (Prod.map id Place.flying)).append_right _

theorem places_dequeue :
    (places in_flight ((n, ft) :: retry)).Perm ((n, .queued ft) :: places in_flight retry) :=
  List.perm_middle

end

/-! ## The invariant -/

namespace FailoverPool

variable {codec : C} {s s' : FailoverPool T}

/-- The tasks of `s`, when those of `held` are not done. -/
def Accounts (codec : C) (s : FailoverPool T) (held : List (Nat × Place T)) : Prop :=
  Lib.Ledger (Place.Holds codec s.retry_limit) (Job.Finished codec s.retry_limit) s.jobs held

/-- Every task is done or in one place. -/
structure Inv (codec : C) (s : FailoverPool T) : Prop where
  accounts : Accounts codec s (places s.in_flight s.retry)
  /-- Nothing is left in a channel that is closed. -/
  drained : s.worker = false → s.retry = []

theorem new_inv (codec : C) (addrs : List String) (round_robin : Bool) (retry_limit : Nat) :
    Inv codec (new addrs round_robin retry_limit : FailoverPool T) :=
  ⟨.nil, fun _ => rfl⟩

theorem send_req_inv (h : Inv codec s) (task : T) : Inv codec (s.send_req C task) := by
  obtain ⟨cluster, index, pool, rr_counter, -, hq, he⟩ | ⟨q, rr_counter, hq, -, he⟩ :=
    s.send_req_cases C task
  · rw [he]
    exact ⟨(h.accounts.start (Place.Holds.accepted (found_some hq) task index cluster.ver)).perm
      places_submit, h.drained⟩
  · rw [he]
    exact ⟨h.accounts.refuse (Job.Finished.refused codec _ hq task), h.drained⟩

theorem error_handle_inv {n : Nat} {ft : FailoverTask T}
    (h : Accounts codec s ((n, .failed ft) :: places s.in_flight s.retry))
    (hd : s.worker = false → s.retry = []) :
    Inv codec (s.error_handle n ft) := by
  unfold error_handle
  by_cases hdue : ft.should_retry = true ∧ ft.retry ≤ s.retry_limit
  · rw [if_pos hdue]
    by_cases hw : s.worker = true
    · rw [if_pos hw]
      have hqueued : Accounts codec s ((n, .queued ft) :: places s.in_flight s.retry) :=
        h.relabel fun j hj => ⟨hj.1, hj.2.1, hj.attempts_ne_nil, hj.due_iff.2 hdue⟩
      exact ⟨hqueued.perm places_enqueue, fun hf => absurd (hw.symm.trans hf) (by decide)⟩
    · rw [if_neg hw]
      refine ⟨h.finish fun j hj => ?_, hd⟩
      exact hj.1.give_up hj.2.1 hj.attempts_ne_nil (hj.due_iff.2 hdue) rfl
  · rw [if_neg hdue]
    refine ⟨h.finish fun j hj => ?_, hd⟩
    exact hj.1.finish hj.2.1 hj.attempts_ne_nil (hj.due_iff.not.2 hdue)

theorem resolve_inv (h : Inv codec s) {i : Nat} {a : Attempt}
    (hstep : s.resolve codec i a = some s') :
    Inv codec s' := by
  obtain ⟨n, ft, hi, hend⟩ := resolve_cases hstep
  have hheld := h.accounts.perm (places_take hi)
  obtain ⟨ha, rfl⟩ | ⟨ha, rfl⟩ := hend
  · exact ⟨hheld.finish fun j hj => hj.ok ha, h.drained⟩
  · exact error_handle_inv (hheld.move fun j hj => hj.failed ha) h.drained

theorem retry_worker_inv (h : Inv codec s) (hstep : s.retry_worker = some s') : Inv codec s' := by
  obtain ⟨n, ft, rest, hw, hr, hnext⟩ := retry_worker_cases hstep
  have hheld := h.accounts
  rw [hr] at hheld
  have hheld := hheld.perm places_dequeue
  have hd : s.worker = false → rest = [] := fun hf => absurd (hw.symm.trans hf) (by decide)
  obtain ⟨cluster, q, index, pool, rr_counter, -, -, hq, rfl⟩ | ⟨q, rr_counter, hq, -, rfl⟩ := hnext
  · exact ⟨(hheld.move fun j hj => hj.resubmit (found_some hq) cluster.ver index).perm places_submit, hd⟩
  · exact ⟨hheld.finish fun j hj => hj.1.give_up hj.2.1 hj.2.2.1 hj.2.2.2 hq, hd⟩

theorem step_inv (h : Inv codec s) {act : Act T} (hstep : s.step codec act = some s') :
    Inv codec s' := by
  cases act with
  | send_req task | send_req_blocking task =>
    obtain ⟨-, ⟨⟩⟩ := Option.ite_none_right_eq_some.1 hstep
    exact send_req_inv h task
  | resolve i a => exact resolve_inv h hstep
  | retry_worker => exact retry_worker_inv h hstep
  | update_addrs addrs | drop =>
    obtain ⟨-, ⟨⟩⟩ := Option.ite_none_right_eq_some.1 hstep
    exact ⟨h.accounts, h.drained⟩
  | set_healthy id ok =>
    cases hstep
    exact ⟨h.accounts, h.drained⟩
  | drop_inner =>
    obtain ⟨-, ⟨⟩⟩ := Option.ite_none_left_eq_some.1 hstep
    exact ⟨h.accounts, h.drained⟩
  | worker_exit =>
    obtain ⟨hr, ⟨⟩⟩ := Option.ite_none_right_eq_some.1 hstep
    exact ⟨h.accounts, fun _ => hr⟩

omit [ClientTaskCommon T] in
theorem error_handle_retry_limit (s : FailoverPool T) (n : Nat) (ft : FailoverTask T) :
    (s.error_handle n ft).retry_limit = s.retry_limit := by
  unfold error_handle
  split
  · split <;> rfl
  · rfl

theorem send_req_retry_limit (s : FailoverPool T) (task : T) :
    (s.send_req C task).retry_limit = s.retry_limit := by
  obtain ⟨_, _, _, _, -, -, he⟩ | ⟨_, _, -, -, he⟩ := s.send_req_cases C task <;> rw [he]

theorem step_retry_limit {act : Act T} (hstep : s.step codec act = some s') :
    s'.retry_limit = s.retry_limit := by
  cases act with
  | send_req task | send_req_blocking task =>
    obtain ⟨-, ⟨⟩⟩ := Option.ite_none_right_eq_some.1 hstep
    exact send_req_retry_limit s task
  | resolve i a =>
    obtain ⟨n, ft, -, ⟨-, rfl⟩ | ⟨-, rfl⟩⟩ := resolve_cases hstep
    · rfl
    · exact error_handle_retry_limit _ _ _
  | retry_worker =>
    obtain ⟨_, _, _, -, -, ⟨_, _, _, _, _, -, -, -, rfl⟩ | ⟨_, _, -, -, rfl⟩⟩ :=
      retry_worker_cases hstep <;> rfl
  | update_addrs addrs | drop | worker_exit =>
    obtain ⟨-, ⟨⟩⟩ := Option.ite_none_right_eq_some.1 hstep
    rfl
  | set_healthy id ok =>
    cases hstep
    rfl
  | drop_inner =>
    obtain ⟨-, ⟨⟩⟩ := Option.ite_none_left_eq_some.1 hstep
    rfl

end FailoverPool

end OccamsRpc
