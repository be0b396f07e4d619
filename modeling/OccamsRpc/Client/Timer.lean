import OccamsRpc.Core.Io
import OccamsRpc.Lib.Table
import Mathlib.Tactic.Common
/-!
# The task timer

`ClientTaskTimer` of `stream/src/client/timer.rs`. A task reaches it through
the pending channel, waits in `sent_tasks` for the rest of the current second,
then in one batch of `delay_tasks_queue` for each past second, newest first.
It leaves when a response takes it, when its batch falls off the end, or when
the connection is cleaned up.

A task item is the task alone: its wait-group guard lives exactly as long as
the item does. Sequence numbers and the counter are `Nat`; the counter is never
decremented at zero (`Conn.Counted`).
-/
open Lib

namespace OccamsRpc

/-- A task with the `seq` of its `ClientTaskCommon`. -/
class HasSeq (T : Type) where
  seq : T → Nat

export HasSeq (seq)

/-- The tasks of a connection that wait for a response, by the second in which they were
sent. -/
structure ClientTaskTimer (T : Type) where
  /-- The channel, oldest first. -/
  pending_tasks : List T
  pending_task_count : Nat
  sent_tasks : Table T
  delay_tasks_queue : List (Table T)
  min_delay_seq : Nat
  task_timeout : Nat
  processed_seq : Nat
  reg_stopped_flag : Bool

namespace ClientTaskTimer

variable {T : Type} [HasSeq T]

def new (task_timeout : Nat) : ClientTaskTimer T where
  pending_tasks := []
  pending_task_count := 0
  sent_tasks := ∅
  delay_tasks_queue := []
  min_delay_seq := 0
  task_timeout := task_timeout
  processed_seq := 0
  reg_stopped_flag := false

/-- The send of `reg_task` once the channel has room. -/
def reg_task (tm : ClientTaskTimer T) (t : T) : ClientTaskTimer T :=
  { tm with pending_tasks := tm.pending_tasks ++ [t] }

def stop_reg_task (tm : ClientTaskTimer T) : ClientTaskTimer T :=
  { tm with reg_stopped_flag := true }

/-- A task comes out of the channel. -/
def got_pending_task (tm : ClientTaskTimer T) (t : T) : ClientTaskTimer T :=
  { tm with
    pending_task_count := tm.pending_task_count - 1
    processed_seq := seq t
    sent_tasks := tm.sent_tasks.insert (seq t) t }

/-- One round of the receive loops: `try_recv` (or `poll_item`), then
`got_pending_task`; `none` when the channel is empty. -/
def recv_pending (tm : ClientTaskTimer T) : Option (ClientTaskTimer T) :=
  match tm.pending_tasks with
  | [] => none
  | t :: ts => some (got_pending_task { tm with pending_tasks := ts } t)

/-- The receive loop run to the end. -/
def recv_all (tm : ClientTaskTimer T) : ClientTaskTimer T :=
  tm.pending_tasks.foldl got_pending_task { tm with pending_tasks := [] }

def poll_sent_task (tm : ClientTaskTimer T) : Bool × ClientTaskTimer T :=
  (!tm.pending_tasks.isEmpty, tm.recv_all)

/-- The test that ends `check_pending_tasks_empty`. -/
def tasks_empty (tm : ClientTaskTimer T) : Bool :=
  tm.sent_tasks.entries.isEmpty && tm.delay_tasks_queue.all (·.entries.isEmpty)

/-- The channel is emptied first. -/
def check_pending_tasks_empty (tm : ClientTaskTimer T) : Bool × ClientTaskTimer T :=
  (tm.recv_all.tasks_empty, tm.recv_all)

/-- `clean_pending_tasks` after its receive loop: the tasks it fails with
`RpcIntErr::IO`, in order. The emptied batches stay in the queue. -/
def fail_tasks (tm : ClientTaskTimer T) : List T × ClientTaskTimer T :=
  let sent := Table.removeAll tm.sent_tasks.keys tm.sent_tasks
  let delay := tm.delay_tasks_queue.map (fun m => Table.removeAll m.keys m)
  (sent.1 ++ delay.flatMap (·.1), { tm with sent_tasks := sent.2, delay_tasks_queue := delay.map (·.2) })

def clean_pending_tasks (tm : ClientTaskTimer T) : List T × ClientTaskTimer T :=
  tm.recv_all.fail_tasks

/-- `WaitRegTaskFuture::poll`. -/
def wait_reg_poll (tm : ClientTaskTimer T) (target_seq : Nat) :
    Poll (Except Unit Unit) × ClientTaskTimer T :=
  if tm.processed_seq ≥ target_seq then (.ready (.ok ()), tm)
  else if tm.reg_stopped_flag then (.ready (.error ()), tm)
  else
    let (got, tm') := tm.poll_sent_task
    if got && tm'.processed_seq ≥ target_seq then (.ready (.ok ()), tm') else (.pending, tm')

/-- The search of `take_task` through the past seconds. -/
def remove_delayed (k : Nat) : List (Table T) → Option T × List (Table T)
  | [] => (none, [])
  | m :: ms =>
    match m.lookup k with
    | some t => (some t, m.erase k :: ms)
    | none => let (r, ms') := remove_delayed k ms; (r, m :: ms')

/-- `take_task` once it no longer waits for registration. -/
def remove_task (tm : ClientTaskTimer T) (k : Nat) : Option T × ClientTaskTimer T :=
  match tm.sent_tasks.lookup k with
  | some t => (some t, { tm with sent_tasks := tm.sent_tasks.erase k })
  | none =>
    let (r, q) := remove_delayed k tm.delay_tasks_queue
    (r, { tm with delay_tasks_queue := q })

/-- One poll of `take_task`. -/
def take_task (tm : ClientTaskTimer T) (k : Nat) : Poll (Option T) × ClientTaskTimer T :=
  if k < tm.min_delay_seq then (.ready none, tm)
  else if k > tm.processed_seq then
    match tm.wait_reg_poll k with
    | (.pending, tm') => (.pending, tm')
    | (.ready (.error ()), tm') => (.ready none, tm')
    | (.ready (.ok ()), tm') => let (r, tm'') := tm'.remove_task k; (.ready r, tm'')
  else let (r, tm') := tm.remove_task k; (.ready r, tm')

/-- The running minimum of `adjust_task_queue`, with 0 for "none yet". -/
def min_seq (ts : List T) : Nat :=
  ts.foldl (fun m t => if m = 0 then seq t else if m > seq t then seq t else m) 0

/-- The tasks it fails with `RpcIntErr::Timeout` come first. -/
def adjust_task_queue (tm : ClientTaskTimer T) : List T × ClientTaskTimer T :=
  let q := tm.sent_tasks :: tm.delay_tasks_queue
  if q.length > tm.task_timeout then
    let real_timeout := (q.getLast (by simp [q])).values
    let tm' := { tm with sent_tasks := ∅, delay_tasks_queue := q.dropLast }
    if real_timeout.isEmpty then ([], tm')
    else (real_timeout, { tm' with min_delay_seq := min_seq real_timeout })
  else ([], { tm with sent_tasks := ∅, delay_tasks_queue := q })

/-! ## What the timer holds -/

/-- The tables, newest second first. -/
def tables (tm : ClientTaskTimer T) : List (Table T) := tm.sent_tasks :: tm.delay_tasks_queue

/-- The tasks taken from the channel and not yet handed out. -/
def drained (tm : ClientTaskTimer T) : List T := tm.tables.flatMap Table.values

/-- Every task the timer holds. -/
def items (tm : ClientTaskTimer T) : List T := tm.pending_tasks ++ tm.drained

/-- The representation invariant: tasks are filed under their own seq, each
seq once, later registrations after earlier ones, and `processed_seq` and
`min_delay_seq` bound what is drained. -/
structure Wf (tm : ClientTaskTimer T) : Prop where
  keyed : ∀ m ∈ tm.tables, ∀ k t, m.lookup k = some t → seq t = k
  pending_lt : tm.pending_tasks.Pairwise (fun a b => seq a < seq b)
  pending_gt : ∀ t ∈ tm.pending_tasks, tm.processed_seq < seq t
  drained_le : ∀ t ∈ tm.drained, seq t ≤ tm.processed_seq
  newest_first : tm.tables.Pairwise (fun m m' => ∀ a ∈ m.values, ∀ b ∈ m'.values, seq b < seq a)
  min_le : ∀ t ∈ tm.drained, tm.min_delay_seq ≤ seq t
  min_le_processed : tm.min_delay_seq ≤ tm.processed_seq

omit [HasSeq T] in
theorem mem_drained {tm : ClientTaskTimer T} {t : T} :
    t ∈ tm.drained ↔ ∃ m ∈ tm.tables, t ∈ m.values := by
  simp [drained]

omit [HasSeq T] in
theorem drained_eq (tm : ClientTaskTimer T) :
    tm.drained = tm.sent_tasks.values ++ tm.delay_tasks_queue.flatMap Table.values := by
  simp [drained, tables]

theorem new_wf (n : Nat) : (new n : ClientTaskTimer T).Wf := by
  constructor <;> simp [new, tables, drained]

/-! ## Registering -/

omit [HasSeq T] in
theorem reg_task_items (tm : ClientTaskTimer T) (t : T) :
    (tm.reg_task t).items.Perm (t :: tm.items) := by
  simp only [items, reg_task, List.append_assoc, List.singleton_append]
  exact List.perm_middle

theorem reg_task_wf {tm : ClientTaskTimer T} (h : tm.Wf) {t : T} (hp : tm.processed_seq < seq t)
    (ht : ∀ u ∈ tm.pending_tasks, seq u < seq t) : (tm.reg_task t).Wf where
  keyed := h.keyed
  pending_lt := by
    simp only [reg_task, List.pairwise_append, List.mem_singleton]
    exact ⟨h.pending_lt, by simp, fun u hu v hv => hv ▸ ht u hu⟩
  pending_gt := by
    intro u hu
    rcases List.mem_append.1 hu with hu | hu
    · exact h.pending_gt u hu
    · rw [List.mem_singleton] at hu
      subst hu
      exact hp
  drained_le := h.drained_le
  newest_first := h.newest_first
  min_le := h.min_le
  min_le_processed := h.min_le_processed

/-! ## Draining the channel -/

theorem recv_pending_eq {tm tm' : ClientTaskTimer T} (h : tm.recv_pending = some tm') :
    ∃ t ts, tm.pending_tasks = t :: ts ∧
      tm' = got_pending_task { tm with pending_tasks := ts } t := by
  unfold recv_pending at h
  cases hp : tm.pending_tasks with
  | nil => simp [hp] at h
  | cons t ts =>
    simp only [hp, Option.some.injEq] at h
    exact ⟨t, ts, rfl, h.symm⟩

/-- The key a pending task goes under is free. -/
theorem Wf.fresh {tm : ClientTaskTimer T} (h : tm.Wf) {t : T} (ht : t ∈ tm.pending_tasks) :
    ∀ m ∈ tm.tables, seq t ∉ m := by
  intro m hm hk
  obtain ⟨u, hu⟩ := Option.isSome_iff_exists.1 (AList.lookup_isSome.2 hk)
  have h1 := h.keyed m hm _ _ hu
  have h2 := h.drained_le u (mem_drained.2 ⟨m, hm, Table.mem_values.2 ⟨_, hu⟩⟩)
  have h3 := h.pending_gt t ht
  omega

/-- A received task goes from the channel to `sent_tasks`, where its key is free. -/
theorem recv_pending_moves {tm tm' : ClientTaskTimer T}
    (hf : ∀ t ∈ tm.pending_tasks, seq t ∉ tm.sent_tasks) (hr : tm.recv_pending = some tm') :
    ∃ t ts, tm.pending_tasks = t :: ts ∧ tm'.pending_tasks = ts ∧ tm'.drained = t :: tm.drained ∧
      tm'.processed_seq = seq t := by
  obtain ⟨t, ts, hp, rfl⟩ := recv_pending_eq hr
  refine ⟨t, ts, hp, rfl, ?_, rfl⟩
  simp [drained_eq, got_pending_task, Table.values_insert (hf t (by simp [hp]))]

theorem recv_pending_drained {tm tm' : ClientTaskTimer T} (h : tm.Wf)
    (hr : tm.recv_pending = some tm') :
    ∃ t ts, tm.pending_tasks = t :: ts ∧ tm'.pending_tasks = ts ∧ tm'.drained = t :: tm.drained ∧
      tm'.processed_seq = seq t :=
  recv_pending_moves (fun _ ht => h.fresh ht _ (by simp [tables])) hr

/-- What is filed under its own seq stays so when the next task is received. -/
theorem recv_pending_keyed {tm tm' : ClientTaskTimer T}
    (h : ∀ m ∈ tm.tables, ∀ k t, m.lookup k = some t → seq t = k) (hr : tm.recv_pending = some tm') :
    ∀ m ∈ tm'.tables, ∀ k t, m.lookup k = some t → seq t = k := by
  obtain ⟨t, ts, -, rfl⟩ := recv_pending_eq hr
  intro m hm k u hu
  rcases List.mem_cons.1 hm with rfl | hm
  · by_cases hk : k = seq t
    · subst hk
      rw [got_pending_task, AList.lookup_insert] at hu
      rw [← Option.some.inj hu]
    · rw [got_pending_task, AList.lookup_insert_ne hk] at hu
      exact h _ (by simp [tables]) k u hu
  · exact h m (List.mem_cons_of_mem _ hm) k u hu

theorem recv_pending_items {tm tm' : ClientTaskTimer T} (h : tm.Wf)
    (hr : tm.recv_pending = some tm') :
    tm'.items.Perm tm.items := by
  obtain ⟨t, ts, hp, hp', hd, -⟩ := recv_pending_drained h hr
  rw [items, items, hp, hp', hd]
  exact List.perm_middle

theorem recv_pending_wf {tm tm' : ClientTaskTimer T} (h : tm.Wf) (hr : tm.recv_pending = some tm') :
    tm'.Wf := by
  obtain ⟨t, ts, hp, hts, hd, hq⟩ := recv_pending_drained h hr
  obtain ⟨t', ts', hp', rfl⟩ := recv_pending_eq hr
  obtain ⟨rfl, rfl⟩ : t = t' ∧ ts = ts' := by rw [hp] at hp'; simpa using hp'
  have hlt := h.pending_lt
  rw [hp, List.pairwise_cons] at hlt
  have hf : seq t ∉ tm.sent_tasks := h.fresh (by simp [hp]) _ (by simp [tables])
  have hgt : tm.processed_seq < seq t := h.pending_gt t (by simp [hp])
  have hold : ∀ u ∈ tm.drained, seq u < seq t := fun u hu => lt_of_le_of_lt (h.drained_le u hu) hgt
  constructor
  · exact recv_pending_keyed h.keyed hr
  · rw [hts]; exact hlt.2
  · rw [hts, hq]; exact hlt.1
  · rw [hd, hq]
    intro u hu
    rcases List.mem_cons.1 hu with rfl | hu
    · exact le_refl _
    · exact Nat.le_of_lt (hold u hu)
  · have hn := h.newest_first
    simp only [tables, List.pairwise_cons] at hn ⊢
    refine ⟨fun m hm a ha b hb => ?_, hn.2⟩
    rw [got_pending_task, Table.values_insert hf] at ha
    rcases List.mem_cons.1 ha with rfl | ha
    · exact hold b (mem_drained.2 ⟨m, List.mem_cons_of_mem _ hm, hb⟩)
    · exact hn.1 m hm a ha b hb
  · rw [hd]
    intro u hu
    rcases List.mem_cons.1 hu with rfl | hu
    · exact Nat.le_of_lt (lt_of_le_of_lt h.min_le_processed hgt)
    · exact h.min_le u hu
  · rw [hq]
    exact Nat.le_of_lt (lt_of_le_of_lt h.min_le_processed hgt)

/-- The receive loop, one round at a time. -/
theorem recv_all_of_some {tm tm' : ClientTaskTimer T} (h : tm.recv_pending = some tm') :
    tm.recv_all = tm'.recv_all := by
  obtain ⟨t, ts, hp, rfl⟩ := recv_pending_eq h
  simp only [recv_all, hp, List.foldl_cons]
  rfl

/-- What each round keeps, the loop keeps. -/
theorem recv_all_keeps (P : ClientTaskTimer T → Prop)
    (hstep : ∀ tm tm', P tm → tm.recv_pending = some tm' → P tm') {tm : ClientTaskTimer T}
    (h : P tm) : P tm.recv_all := by
  obtain ⟨ts, hts⟩ : ∃ ts, tm.pending_tasks = ts := ⟨_, rfl⟩
  induction ts generalizing tm with
  | nil =>
    have : tm.recv_all = tm := by cases tm; cases hts; rfl
    rwa [this]
  | cons t ts ih =>
    have hr : tm.recv_pending = some (got_pending_task { tm with pending_tasks := ts } t) := by
      simp only [recv_pending, hts]
    rw [recv_all_of_some hr]
    exact ih (hstep _ _ h hr) rfl

theorem recv_all_pending (tm : ClientTaskTimer T) : tm.recv_all.pending_tasks = [] := by
  unfold recv_all
  generalize tm.pending_tasks = ts
  have : ∀ (tm : ClientTaskTimer T), tm.pending_tasks = [] →
      (ts.foldl got_pending_task tm).pending_tasks = [] := by
    induction ts with
    | nil => exact fun tm h => h
    | cons t ts ih => exact fun tm h => ih _ h
  exact this _ rfl

theorem recv_all_wf {tm : ClientTaskTimer T} (h : tm.Wf) : tm.recv_all.Wf :=
  recv_all_keeps Wf (fun _ _ => recv_pending_wf) h

theorem recv_all_items {tm : ClientTaskTimer T} (h : tm.Wf) : tm.recv_all.items.Perm tm.items :=
  (recv_all_keeps (fun tm' => tm'.Wf ∧ tm'.items.Perm tm.items)
    (fun _ _ h hr => ⟨recv_pending_wf h.1 hr, (recv_pending_items h.1 hr).trans h.2⟩) ⟨h, .refl _⟩).2

/-! ## Taking a task -/

omit [HasSeq T] in
theorem remove_delayed_some {k : Nat} {t : T} {q q' : List (Table T)}
    (h : remove_delayed k q = (some t, q')) :
    ∃ q₁ m q₂, q = q₁ ++ m :: q₂ ∧ q' = q₁ ++ m.erase k :: q₂ ∧ m.lookup k = some t := by
  induction q generalizing q' with
  | nil => simp [remove_delayed] at h
  | cons m ms ih =>
    unfold remove_delayed at h
    cases hm : m.lookup k with
    | some u =>
      simp only [hm, Prod.mk.injEq, Option.some.injEq] at h
      obtain ⟨rfl, rfl⟩ := h
      exact ⟨[], m, ms, rfl, rfl, hm⟩
    | none =>
      rcases hd : remove_delayed k ms with ⟨r, ms'⟩
      simp only [hm, hd, Prod.mk.injEq] at h
      obtain ⟨rfl, rfl⟩ := h
      obtain ⟨q₁, m', q₂, rfl, rfl, hl⟩ := ih hd
      exact ⟨m :: q₁, m', q₂, rfl, rfl, hl⟩

omit [HasSeq T] in
theorem remove_delayed_none {k : Nat} {q q' : List (Table T)}
    (h : remove_delayed k q = (none, q')) :
    q' = q ∧ ∀ m ∈ q, m.lookup k = none := by
  induction q generalizing q' with
  | nil => simpa [remove_delayed, eq_comm] using h
  | cons m ms ih =>
    unfold remove_delayed at h
    cases hm : m.lookup k with
    | some u => simp [hm] at h
    | none =>
      rcases hd : remove_delayed k ms with ⟨r, ms'⟩
      simp only [hm, hd, Prod.mk.injEq] at h
      obtain ⟨rfl, rfl⟩ := h
      obtain ⟨rfl, hn⟩ := ih hd
      refine ⟨rfl, fun m' hm' => ?_⟩
      rcases List.mem_cons.1 hm' with rfl | hm'
      · exact hm
      · exact hn m' hm'

omit [HasSeq T] in
/-- A successful search takes the entry out of one table and touches nothing else. -/
theorem remove_task_some {tm tm' : ClientTaskTimer T} {k : Nat} {t : T}
    (h : tm.remove_task k = (some t, tm')) :
    ∃ q₁ m q₂, tm.tables = q₁ ++ m :: q₂ ∧ tm'.tables = q₁ ++ m.erase k :: q₂ ∧
      m.lookup k = some t ∧
      tm' =
      { tm with sent_tasks := tm'.sent_tasks, delay_tasks_queue := tm'.delay_tasks_queue } := by
  unfold remove_task at h
  cases hm : tm.sent_tasks.lookup k with
  | some u =>
    simp only [hm, Prod.mk.injEq, Option.some.injEq] at h
    obtain ⟨rfl, rfl⟩ := h
    exact ⟨[], tm.sent_tasks, tm.delay_tasks_queue, rfl, rfl, hm, rfl⟩
  | none =>
    rcases hd : remove_delayed k tm.delay_tasks_queue with ⟨r, q⟩
    simp only [hm, hd, Prod.mk.injEq] at h
    obtain ⟨rfl, rfl⟩ := h
    obtain ⟨q₁, m, q₂, hq, rfl, hl⟩ := remove_delayed_some hd
    exact ⟨tm.sent_tasks :: q₁, m, q₂, by rw [tables, hq]; rfl, rfl, hl, rfl⟩

omit [HasSeq T] in
theorem remove_task_none {tm tm' : ClientTaskTimer T} {k : Nat}
    (h : tm.remove_task k = (none, tm')) :
    tm' = tm ∧ ∀ m ∈ tm.tables, m.lookup k = none := by
  unfold remove_task at h
  cases hm : tm.sent_tasks.lookup k with
  | some u => simp [hm] at h
  | none =>
    rcases hd : remove_delayed k tm.delay_tasks_queue with ⟨r, q⟩
    simp only [hm, hd, Prod.mk.injEq] at h
    obtain ⟨rfl, rfl⟩ := h
    obtain ⟨rfl, hn⟩ := remove_delayed_none hd
    refine ⟨rfl, fun m hm' => ?_⟩
    rcases List.mem_cons.1 hm' with rfl | hm'
    · exact hm
    · exact hn m hm'

omit [HasSeq T] in
theorem remove_task_keeps {tm tm' : ClientTaskTimer T} {k : Nat} {t : T}
    (h : tm.remove_task k = (some t, tm')) :
    tm'.pending_tasks = tm.pending_tasks ∧ tm'.pending_task_count = tm.pending_task_count ∧
      tm'.processed_seq = tm.processed_seq ∧ tm'.reg_stopped_flag = tm.reg_stopped_flag := by
  obtain ⟨_, _, _, _, _, _, he⟩ := remove_task_some h
  rw [he]
  exact ⟨rfl, rfl, rfl, rfl⟩

omit [HasSeq T] in
theorem remove_task_drained {tm tm' : ClientTaskTimer T} {k : Nat} {t : T}
    (h : tm.remove_task k = (some t, tm')) :
    tm.drained.Perm (t :: tm'.drained) := by
  obtain ⟨q₁, m, q₂, hq, hq', hl, -⟩ := remove_task_some h
  simp only [drained, hq, hq', List.flatMap_append, List.flatMap_cons]
  refine (((Table.values_erase hl).append_right _).append_left _).trans ?_
  exact List.perm_middle

omit [HasSeq T] in
theorem remove_task_items {tm tm' : ClientTaskTimer T} {k : Nat} {t : T}
    (h : tm.remove_task k = (some t, tm')) :
    tm.items.Perm (t :: tm'.items) := by
  rw [items, items, (remove_task_keeps h).1]
  exact ((remove_task_drained h).append_left _).trans List.perm_middle

/-- The task handed out is the one filed under the seq asked for. -/
theorem remove_task_seq {tm tm' : ClientTaskTimer T} (hw : tm.Wf) {k : Nat} {t : T}
    (h : tm.remove_task k = (some t, tm')) : seq t = k := by
  obtain ⟨q₁, m, q₂, hq, -, hl, -⟩ := remove_task_some h
  exact hw.keyed m (by simp [hq]) k t hl

/-- Every entry of a table of `tm'` is an entry of a table of `tm`. -/
def Shrinks (tm tm' : ClientTaskTimer T) : Prop :=
  ∀ m' ∈ tm'.tables, ∃ m ∈ tm.tables, ∀ k t, m'.lookup k = some t → m.lookup k = some t

/-- Tables that only lose entries keep the invariant. -/
theorem Wf.shrink {tm tm' : ClientTaskTimer T} (hw : tm.Wf)
    (he : tm' = { tm with sent_tasks := tm'.sent_tasks, delay_tasks_queue := tm'.delay_tasks_queue })
    (hk : tm.Shrinks tm')
    (hn : tm'.tables.Pairwise (fun m m' => ∀ a ∈ m.values, ∀ b ∈ m'.values, seq b < seq a)) :
    tm'.Wf := by
  have hsub : ∀ t ∈ tm'.drained, t ∈ tm.drained := by
    intro t ht
    obtain ⟨m', hm', htm⟩ := mem_drained.1 ht
    obtain ⟨k, hkt⟩ := Table.mem_values.1 htm
    obtain ⟨m, hm, hl⟩ := hk m' hm'
    exact mem_drained.2 ⟨m, hm, Table.mem_values.2 ⟨k, hl k t hkt⟩⟩
  have hp : tm'.pending_tasks = tm.pending_tasks := by rw [he]
  have hs : tm'.processed_seq = tm.processed_seq := by rw [he]
  have hd : tm'.min_delay_seq = tm.min_delay_seq := by rw [he]
  constructor
  · intro m' hm' k t ht
    obtain ⟨m, hm, hl⟩ := hk m' hm'
    exact hw.keyed m hm k t (hl k t ht)
  · rw [hp]; exact hw.pending_lt
  · rw [hp, hs]; exact hw.pending_gt
  · rw [hs]; exact fun t ht => hw.drained_le t (hsub t ht)
  · exact hn
  · rw [hd]; exact fun t ht => hw.min_le t (hsub t ht)
  · rw [hd, hs]; exact hw.min_le_processed

omit [HasSeq T] in
theorem lookup_erase_some {m : Table T} {k j : Nat} {t : T} (h : (m.erase k).lookup j = some t) :
    m.lookup j = some t := by
  by_cases hj : j = k
  · subst hj; simp at h
  · rwa [AList.lookup_erase_ne hj] at h

omit [HasSeq T] in
theorem mem_values_erase {m : Table T} {k : Nat} {t : T} (h : t ∈ Table.values (m.erase k)) :
    t ∈ m.values := by
  obtain ⟨j, hj⟩ := Table.mem_values.1 h
  exact Table.mem_values.2 ⟨j, lookup_erase_some hj⟩

omit [HasSeq T] in
theorem remove_task_shrinks {tm tm' : ClientTaskTimer T} {k : Nat} {t : T}
    (h : tm.remove_task k = (some t, tm')) :
    tm.Shrinks tm' := by
  obtain ⟨q₁, m, q₂, hq, hq', -, -⟩ := remove_task_some h
  intro m' hm'
  rw [hq'] at hm'
  rcases List.mem_append.1 hm' with hm' | hm'
  · exact ⟨m', by simp [hq, hm'], fun _ _ h => h⟩
  · rcases List.mem_cons.1 hm' with rfl | hm'
    · exact ⟨m, by simp [hq], fun j u hu => lookup_erase_some hu⟩
    · exact ⟨m', by simp [hq, hm'], fun _ _ h => h⟩

theorem remove_task_wf {tm tm' : ClientTaskTimer T} (hw : tm.Wf) {k : Nat} {r : Option T}
    (h : tm.remove_task k = (r, tm')) : tm'.Wf := by
  cases r with
  | none => rw [(remove_task_none h).1]; exact hw
  | some t =>
    obtain ⟨q₁, m, q₂, hq, hq', hl, he⟩ := remove_task_some h
    refine hw.shrink he (remove_task_shrinks h) ?_
    have hn := hw.newest_first
    rw [hq, List.pairwise_append, List.pairwise_cons] at hn
    rw [hq', List.pairwise_append, List.pairwise_cons]
    refine ⟨hn.1, ⟨fun m' hm' a ha b hb => hn.2.1.1 m' hm' a (mem_values_erase ha) b hb, hn.2.1.2⟩, ?_⟩
    intro m₁ h₁ m₂ h₂ a ha b hb
    rcases List.mem_cons.1 h₂ with rfl | h₂
    · exact hn.2.2 m₁ h₁ m (by simp) a ha b (mem_values_erase hb)
    · exact hn.2.2 m₁ h₁ m₂ (by simp [h₂]) a ha b hb

/-- A drained seq is found, in the one table that holds it. -/
theorem remove_task_found {tm : ClientTaskTimer T} (hw : tm.Wf) {t : T} (ht : t ∈ tm.drained) :
    ∃ tm', tm.remove_task (seq t) = (some t, tm') := by
  obtain ⟨m, hm, htm⟩ := mem_drained.1 ht
  obtain ⟨k, hk⟩ := Table.mem_values.1 htm
  obtain rfl := hw.keyed m hm k t hk
  rcases hr : tm.remove_task (seq t) with ⟨r, tm'⟩
  refine ⟨tm', ?_⟩
  cases r with
  | none => rw [(remove_task_none hr).2 m hm] at hk; cases hk
  | some u =>
    obtain ⟨q₁, m', q₂, hq, -, hl, -⟩ := remove_task_some hr
    have hu : seq u = seq t := hw.keyed m' (by simp [hq]) _ u hl
    have hum : u ∈ m'.values := Table.mem_values.2 ⟨_, hl⟩
    have hn := hw.newest_first
    rw [hq] at hm
    rw [hq, List.pairwise_append, List.pairwise_cons] at hn
    rcases List.mem_append.1 hm with hm | hm
    · have := hn.2.2 m hm m' (by simp) t htm u hum
      omega
    · rcases List.mem_cons.1 hm with rfl | hm
      · rw [hk] at hl; rw [hl]
      · have := hn.2.1.1 m hm u hum t htm
        omega

/-- A response finds the task it is for at once: among those drained, or in the
channel while registration has not been stopped. -/
theorem take_task_found {tm : ClientTaskTimer T} (hw : tm.Wf) {t : T}
    (ht : t ∈ tm.drained ∨ t ∈ tm.pending_tasks ∧ tm.reg_stopped_flag = false) :
    ∃ tm', tm.take_task (seq t) = (.ready (some t), tm') ∧ tm.items.Perm (t :: tm'.items) ∧
      tm'.Wf := by
  rcases ht with ht | ⟨ht, hreg⟩
  · obtain ⟨tm', hr⟩ := remove_task_found hw ht
    have hmin := hw.min_le t ht
    have hle := hw.drained_le t ht
    refine ⟨tm', ?_, remove_task_items hr, remove_task_wf hw hr⟩
    simp only [take_task, if_neg (Nat.not_lt.2 hmin), if_neg (Nat.not_lt.2 hle), hr]
  · have hgt := hw.pending_gt t ht
    have hmin := hw.min_le_processed
    have hall : t ∈ tm.recv_all.drained := by
      have : t ∈ tm.recv_all.items := (recv_all_items hw).mem_iff.2 (List.mem_append_left _ ht)
      rwa [items, recv_all_pending, List.nil_append] at this
    obtain ⟨tm', hr⟩ := remove_task_found (recv_all_wf hw) hall
    refine ⟨tm', ?_, (recv_all_items hw).symm.trans (remove_task_items hr),
      remove_task_wf (recv_all_wf hw) hr⟩
    have hpoll : tm.wait_reg_poll (seq t) = (.ready (.ok ()), tm.recv_all) := by
      have hne : tm.pending_tasks.isEmpty = false := by
        cases hp : tm.pending_tasks with
        | nil => rw [hp] at ht; cases ht
        | cons _ _ => rfl
      have hle := (recv_all_wf hw).drained_le t hall
      simp [wait_reg_poll, poll_sent_task, Nat.not_le.2 hgt, hreg, hne, hle]
    simp only [take_task, if_neg (show ¬ seq t < tm.min_delay_seq by omega), if_pos hgt, hpoll, hr]

/-- One poll of `take_task` drains the channel, perhaps, and then takes one task out, perhaps. -/
theorem take_task_cases (tm : ClientTaskTimer T) (k : Nat) :
    ∃ tm₁, (tm₁ = tm ∨ tm₁ = tm.recv_all) ∧
      ((∃ r, tm.take_task k = (r, tm₁) ∧ ∀ t, r ≠ .ready (some t)) ∨
        ∃ t tm', tm.take_task k = (.ready (some t), tm') ∧ tm₁.remove_task k = (some t, tm')) := by
  -- A search that finds nothing leaves the timer as it was.
  have hremove : ∀ tm₁ : ClientTaskTimer T, tm.take_task k =
      (.ready (tm₁.remove_task k).1, (tm₁.remove_task k).2) →
      (∃ r, tm.take_task k = (r, tm₁) ∧ ∀ t, r ≠ .ready (some t)) ∨
        ∃ t tm', tm.take_task k = (.ready (some t), tm') ∧ tm₁.remove_task k = (some t, tm') := by
    intro tm₁ ht
    rcases hr : tm₁.remove_task k with ⟨r, tm'⟩
    rw [hr] at ht
    cases r with
    | none =>
      obtain ⟨rfl, -⟩ := remove_task_none hr
      exact .inl ⟨_, ht, by simp⟩
    | some t => exact .inr ⟨t, tm', ht, rfl⟩
  by_cases hmin : k < tm.min_delay_seq
  · exact ⟨tm, .inl rfl, .inl ⟨.ready none, by simp only [take_task, if_pos hmin], by simp⟩⟩
  by_cases hgt : k > tm.processed_seq
  · have hwait : tm.wait_reg_poll k = (.ready (.error ()), tm) ∨
        tm.wait_reg_poll k = (.ready (.ok ()), tm.recv_all) ∨
        tm.wait_reg_poll k = (.pending, tm.recv_all) := by
      unfold wait_reg_poll
      rw [if_neg (Nat.not_le.2 hgt)]
      cases tm.reg_stopped_flag with
      | true => exact .inl rfl
      | false =>
        simp only [Bool.false_eq_true, if_false, poll_sent_task]
        exact .inr (ite_eq_or_eq _ _ _)
    rcases hwait with hw | hw | hw
    · exact ⟨tm, .inl rfl, .inl ⟨.ready none, by simp only [take_task, if_neg hmin, if_pos hgt, hw], by simp⟩⟩
    · exact ⟨tm.recv_all, .inr rfl, hremove _ (by simp only [take_task, if_neg hmin, if_pos hgt, hw])⟩
    · exact ⟨tm.recv_all, .inr rfl,
        .inl ⟨.pending, by simp only [take_task, if_neg hmin, if_pos hgt, hw], by simp⟩⟩
  · exact ⟨tm, .inl rfl, hremove _ (by simp only [take_task, if_neg hmin, if_neg hgt])⟩

/-! ## A second passes -/

omit [HasSeq T] in
theorem flatMap_getLast_dropLast (q : List (Table T)) (h : q ≠ []) :
    (q.flatMap Table.values).Perm ((q.getLast h).values ++ q.dropLast.flatMap Table.values) := by
  conv_lhs => rw [← List.dropLast_append_getLast h]
  simp only [List.flatMap_append, List.flatMap_cons, List.flatMap_nil, List.append_nil]
  exact List.perm_append_comm

theorem min_seq_from (ts : List T) (m : Nat) :
    ts.foldl (fun m t => if m = 0 then seq t else if m > seq t then seq t else m) m = m ∨
      ∃ t ∈ ts, ts.foldl (fun m t => if m = 0 then seq t else if m > seq t then seq t else m) m =
      seq t := by
  induction ts generalizing m with
  | nil => exact .inl rfl
  | cons t ts ih =>
    simp only [List.foldl_cons, List.mem_cons, exists_eq_or_imp]
    rcases ih (if m = 0 then seq t else if m > seq t then seq t else m) with h | h
    · rw [h]
      split
      · exact .inr (.inl rfl)
      · split
        · exact .inr (.inl rfl)
        · exact .inl rfl
    · exact .inr (.inr h)

/-- The minimum is the seq of one of the tasks. -/
theorem min_seq_mem {ts : List T} (h : ts ≠ []) : ∃ t ∈ ts, min_seq ts = seq t := by
  cases ts with
  | nil => exact absurd rfl h
  | cons t ts =>
    simp only [min_seq, List.foldl_cons, if_true, List.mem_cons, exists_eq_or_imp]
    exact min_seq_from ts (seq t)

omit [HasSeq T] in
theorem tables_ne_nil (tm : ClientTaskTimer T) : tm.tables ≠ [] := by simp [tables]

/-- What a tick does: once the queue is full the last table's tasks time out,
and every other table moves one second back. -/
theorem adjust_task_queue_cases (tm : ClientTaskTimer T) :
    (tm.tables.length ≤ tm.task_timeout ∧
      tm.adjust_task_queue = ([], { tm with sent_tasks := ∅, delay_tasks_queue := tm.tables })) ∨
    (tm.task_timeout < tm.tables.length ∧ ∃ d,
      tm.adjust_task_queue = ((tm.tables.getLast tm.tables_ne_nil).values,
        { tm with sent_tasks := ∅, delay_tasks_queue := tm.tables.dropLast, min_delay_seq := d }) ∧
      (d = tm.min_delay_seq ∨ ∃ t ∈ (tm.tables.getLast tm.tables_ne_nil).values, d = seq t)) := by
  by_cases hl : tm.tables.length > tm.task_timeout
  · refine .inr ⟨hl, ?_⟩
    have hl' : (tm.sent_tasks :: tm.delay_tasks_queue).length > tm.task_timeout := hl
    by_cases he : (tm.tables.getLast tm.tables_ne_nil).values = []
    · refine ⟨tm.min_delay_seq, ?_, .inl rfl⟩
      unfold adjust_task_queue
      rw [if_pos hl', if_pos (by simpa [tables] using he), he]
      rfl
    · obtain ⟨t, ht, hd⟩ := min_seq_mem he
      refine ⟨_, ?_, .inr ⟨t, ht, hd⟩⟩
      unfold adjust_task_queue
      rw [if_pos hl', if_neg (by simpa [tables] using he)]
      rfl
  · refine .inl ⟨Nat.le_of_not_lt hl, ?_⟩
    have hl' : ¬ (tm.sent_tasks :: tm.delay_tasks_queue).length > tm.task_timeout := hl
    unfold adjust_task_queue
    rw [if_neg hl']
    rfl

theorem adjust_task_queue_keeps {tm tm' : ClientTaskTimer T} {out : List T}
    (h : tm.adjust_task_queue = (out, tm')) :
    tm'.pending_tasks = tm.pending_tasks ∧ tm'.pending_task_count = tm.pending_task_count ∧
      tm'.processed_seq = tm.processed_seq ∧ tm'.reg_stopped_flag = tm.reg_stopped_flag := by
  rcases adjust_task_queue_cases tm with ⟨-, he⟩ | ⟨-, d, he, -⟩ <;> rw [h] at he <;>
    simp only [Prod.mk.injEq] at he <;> obtain ⟨rfl, rfl⟩ := he <;> exact ⟨rfl, rfl, rfl, rfl⟩

theorem adjust_task_queue_items {tm tm' : ClientTaskTimer T} {out : List T}
    (h : tm.adjust_task_queue = (out, tm')) : tm.items.Perm (out ++ tm'.items) := by
  rcases adjust_task_queue_cases tm with ⟨-, he⟩ | ⟨-, d, he, -⟩ <;> rw [h] at he <;>
    simp only [Prod.mk.injEq] at he <;> obtain ⟨rfl, rfl⟩ := he
  · simp [items, drained, tables]
  · simp only [items, drained, tables, List.flatMap_cons, Table.values_empty, List.nil_append]
    refine (((flatMap_getLast_dropLast _ tm.tables_ne_nil)).append_left _).trans ?_
    rw [← List.append_assoc, ← List.append_assoc]
    exact List.perm_append_comm.append_right _

omit [HasSeq T] in
/-- A new table that is empty before tables that were there. -/
theorem shrinks_of_subset {tm tm' : ClientTaskTimer T} (h0 : tm'.sent_tasks = ∅)
    (hq : ∀ m ∈ tm'.delay_tasks_queue, m ∈ tm.tables) : tm.Shrinks tm' := by
  intro m' hm'
  rcases List.mem_cons.1 hm' with rfl | hm'
  · exact ⟨tm.sent_tasks, by simp [tables], by simp [h0]⟩
  · exact ⟨m', hq m' hm', fun _ _ h => h⟩

theorem adjust_task_queue_shrinks {tm tm' : ClientTaskTimer T} {out : List T}
    (h : tm.adjust_task_queue = (out, tm')) : tm.Shrinks tm' := by
  rcases adjust_task_queue_cases tm with ⟨-, he⟩ | ⟨-, d, he, -⟩ <;> rw [h] at he <;>
    simp only [Prod.mk.injEq] at he <;> obtain ⟨rfl, rfl⟩ := he
  · exact shrinks_of_subset rfl fun m hm => hm
  · exact shrinks_of_subset rfl fun m hm => List.dropLast_subset _ hm

theorem adjust_task_queue_wf {tm tm' : ClientTaskTimer T} (hw : tm.Wf) {out : List T}
    (h : tm.adjust_task_queue = (out, tm')) : tm'.Wf := by
  have hsh := adjust_task_queue_shrinks h
  rcases adjust_task_queue_cases tm with ⟨-, he⟩ | ⟨-, d, he, hd⟩ <;> rw [h] at he <;>
    simp only [Prod.mk.injEq] at he <;> obtain ⟨rfl, rfl⟩ := he
  · exact hw.shrink rfl hsh (by simpa [tables] using hw.newest_first)
  · have hsub : ∀ t ∈ tm.tables.dropLast.flatMap Table.values, t ∈ tm.drained := by
      intro t ht
      obtain ⟨m, hm, htm⟩ := List.mem_flatMap.1 ht
      exact mem_drained.2 ⟨m, List.dropLast_subset _ hm, htm⟩
    -- Everything left is newer than the table that fell off.
    have hnew : ∀ m ∈ tm.tables.dropLast, ∀ a ∈ m.values,
        ∀ b ∈ (tm.tables.getLast tm.tables_ne_nil).values, seq b < seq a := by
      intro m hm a ha b hb
      have hn := hw.newest_first
      rw [← List.dropLast_append_getLast tm.tables_ne_nil, List.pairwise_append] at hn
      exact hn.2.2 m hm _ (by simp) a ha b hb
    have hdr : ∀ t, d = seq t → t ∈ (tm.tables.getLast tm.tables_ne_nil).values → t ∈ tm.drained :=
      fun t _ ht => mem_drained.2 ⟨_, List.getLast_mem _, ht⟩
    constructor
    · intro m' hm' k t ht
      obtain ⟨m, hm, hl⟩ := hsh m' hm'
      exact hw.keyed m hm k t (hl k t ht)
    · exact hw.pending_lt
    · exact hw.pending_gt
    · intro t ht
      simp only [drained, tables, List.flatMap_cons, Table.values_empty, List.nil_append] at ht
      exact hw.drained_le t (hsub t ht)
    · have hn : tm.tables.dropLast.Pairwise (fun m m' => ∀ a ∈ m.values, ∀ b ∈ m'.values, seq b < seq a) :=
        hw.newest_first.sublist (List.dropLast_sublist _)
      simp only [tables, List.pairwise_cons, Table.values_empty, List.not_mem_nil, false_imp_iff,
        implies_true, true_and]
      exact hn
    · intro t ht
      simp only [drained, tables, List.flatMap_cons, Table.values_empty, List.nil_append] at ht
      rcases hd with rfl | ⟨u, hu, rfl⟩
      · exact hw.min_le t (hsub t ht)
      · obtain ⟨m, hm, htm⟩ := List.mem_flatMap.1 ht
        exact Nat.le_of_lt (hnew m hm t htm u hu)
    · rcases hd with rfl | ⟨u, hu, rfl⟩
      · exact hw.min_le_processed
      · exact hw.drained_le u (hdr u rfl hu)

/-! ## Cleaning up -/

omit [HasSeq T] in
theorem fail_tasks_eq (tm : ClientTaskTimer T) :
    tm.fail_tasks = (tm.drained,
      { tm with sent_tasks := ∅, delay_tasks_queue := tm.delay_tasks_queue.map (fun _ => ∅) }) := by
  simp only [fail_tasks, Table.removeAll_keys, drained_eq, List.map_map, List.flatMap_map]
  rfl

omit [HasSeq T] in
theorem fail_tasks_items (tm : ClientTaskTimer T) :
    tm.fail_tasks.1 = tm.drained ∧ tm.fail_tasks.2.items = tm.pending_tasks := by
  rw [fail_tasks_eq]
  simp [items, drained_eq]

omit [HasSeq T] in
theorem fail_tasks_shrinks (tm : ClientTaskTimer T) : tm.Shrinks tm.fail_tasks.2 := by
  rw [fail_tasks_eq]
  intro m' hm'
  refine ⟨tm.sent_tasks, by simp [tables], fun k t ht => ?_⟩
  rcases List.mem_cons.1 hm' with rfl | hm'
  · simp at ht
  · obtain ⟨_, -, rfl⟩ := List.mem_map.1 hm'
    simp at ht

theorem fail_tasks_wf {tm : ClientTaskTimer T} (hw : tm.Wf) : tm.fail_tasks.2.Wf := by
  have hsh := tm.fail_tasks_shrinks
  rw [fail_tasks_eq] at hsh ⊢
  exact hw.shrink rfl hsh (by simp [tables])

omit [HasSeq T] in
theorem tasks_empty_iff (tm : ClientTaskTimer T) : tm.tasks_empty = true ↔ tm.drained = [] := by
  simp [tasks_empty, drained_eq, Table.values, List.flatMap_eq_nil_iff]

end ClientTaskTimer

end OccamsRpc
