import OccamsRpc.Client.Age
import OccamsRpc.Client.Conserve
import OccamsRpc.Lib.Runs
/-!
# Timed out on its tick

The age of a task is nowhere but in the place of its batch in the queue. Over
any list of operations, with every task registered under a seq of its own: a
task that left the channel after `n` calls of `adjust_task_queue` is failed by
call `n + task_timeout + 1`, unless it was taken or cleaned up before, and by no
other call.
-/
open Lib

namespace OccamsRpc.ClientTaskTimer

variable {T : Type} [HasSeq T] {tm tm' : ClientTaskTimer T}

/-! ## One operation -/

/-- An operation drains the channel or leaves in it what was there. -/
theorem op_run_channel (tm : ClientTaskTimer T) (op : Op T) :
    (op.run tm).timer.pending_tasks = tm.pending_tasks ++ op.registers.toList ∨
      (op.run tm).timer.pending_tasks = [] := by
  have hkept : ∀ tm' : ClientTaskTimer T, tm'.pending_tasks = tm.pending_tasks →
      tm'.pending_tasks = tm.pending_tasks ++ [] ∨ tm'.pending_tasks = [] :=
    fun _ h => .inl (h.trans (List.append_nil _).symm)
  cases op with
  | reg_task t => exact .inl rfl
  | stop_reg_task => exact hkept _ rfl
  | poll_sent_task => exact .inr (recv_all_pending tm)
  | check_pending_tasks_empty => exact .inr (recv_all_pending tm)
  | take_task k =>
    rw [op_run_take_task]
    obtain ⟨tm₁, htm₁, hk⟩ := take_task_cases tm k
    have hp : (tm.take_task k).2.pending_tasks = tm₁.pending_tasks := by
      rcases hk with ⟨r, hr, -⟩ | ⟨t, tm', hr, hu⟩ <;> rw [hr]
      exact (remove_task_keeps hu).1
    rcases htm₁ with rfl | rfl
    · exact hkept _ hp
    · exact .inr (hp.trans (recv_all_pending tm))
  | adjust_task_queue =>
    exact hkept _ (adjust_task_queue_keeps (Prod.eta tm.adjust_task_queue).symm).1
  | clean_pending_tasks => exact .inr (recv_all_pending tm)

/-- Only `adjust_task_queue` fails tasks with `RpcIntErr::Timeout`. -/
theorem op_run_timed_out {op : Op T} {t : T} (h : t ∈ (op.run tm).timed_out) :
    op = .adjust_task_queue ∧ t ∈ tm.adjust_task_queue.1 := by
  cases op with
  | adjust_task_queue => exact ⟨rfl, h⟩
  | take_task k =>
    rcases hr : tm.take_task k with ⟨(_ | u) | _, tm'⟩ <;> simp only [Op.run, hr] at h <;> cases h
  | _ => cases h

variable {timeout ticks : Nat} {received : T → Nat → Prop}

theorem Dated.recv_all (h : tm.Dated timeout ticks received) (hf : tm.Filed)
    (hnow : ∀ u ∈ tm.pending_tasks, received u ticks) :
    tm.recv_all.Dated timeout ticks received := by
  refine (recv_all_keeps (fun tm' => tm'.Filed ∧ tm'.pending_tasks ⊆ tm.pending_tasks ∧
    tm'.Dated timeout ticks received) ?_ ⟨hf, List.Subset.refl _, h⟩).2.2
  rintro tm₁ tm₂ ⟨hf₁, hsub, hd⟩ hr
  have hd₂ := hd.recv_pending (fun _ => hf₁.fresh) hr fun u hu =>
    hnow u (hsub (List.mem_of_head? hu))
  have hf₂ := (hf₁.recv_pending hr).1
  obtain ⟨t, ts, hp, rfl⟩ := recv_pending_eq hr
  refine ⟨hf₂, fun u hu => hsub ?_, hd₂⟩
  rw [hp]
  exact List.mem_cons_of_mem _ hu

/-- The calls of `adjust_task_queue`. -/
def calls (ops : List (Op T)) : Nat := ops.countP fun op => op matches .adjust_task_queue

/-- An operation keeps the tables dated when `received` has the tasks it drains. -/
theorem op_run_dated (h : tm.Dated timeout ticks received) (hf : tm.Filed) (op : Op T)
    (hnow : ∀ u ∈ tm.pending_tasks, u ∉ (op.run tm).timer.pending_tasks → received u ticks) :
    (op.run tm).timer.Dated timeout (ticks + calls [op]) received := by
  have hall : (op.run tm).timer.pending_tasks = [] → tm.recv_all.Dated timeout ticks received :=
    fun hp => h.recv_all hf fun u hu => hnow u hu (hp ▸ List.not_mem_nil)
  cases op with
  | reg_task t => exact h.of_tables rfl rfl
  | stop_reg_task => exact h.of_tables rfl rfl
  | poll_sent_task => exact hall (recv_all_pending tm)
  | check_pending_tasks_empty => exact hall (recv_all_pending tm)
  | take_task k =>
    rw [op_run_take_task] at hall ⊢
    obtain ⟨tm₁, htm₁, hk⟩ := take_task_cases tm k
    have hd₁ : (tm.take_task k).2.pending_tasks = tm₁.pending_tasks →
        tm₁.Dated timeout ticks received := by
      intro hp
      rcases htm₁ with rfl | rfl
      · exact h
      · exact hall (hp.trans (recv_all_pending tm))
    rcases hk with ⟨r, hr, -⟩ | ⟨t, tm', hr, hu⟩ <;> rw [hr] at hd₁ ⊢
    · exact hd₁ rfl
    · exact (hd₁ (remove_task_keeps hu).1).remove_task hu
  | adjust_task_queue => exact (h.adjust_task_queue (Prod.eta tm.adjust_task_queue).symm).1
  | clean_pending_tasks => exact (hall (recv_all_pending tm)).fail_tasks

/-! ## Whole runs -/

namespace Account

variable {ops : List (Op T)} {t : T} {n m : Nat}

/-- The task left the channel, for `sent_tasks`, after `n` calls of `adjust_task_queue`. -/
def DrainedAt (task_timeout : Nat) (ops : List (Op T)) (t : T) (n : Nat) : Prop :=
  Occurs (fun pre op => t ∈ (run task_timeout pre).timer.pending_tasks ∧
    t ∉ (run task_timeout (pre ++ [op])).timer.pending_tasks ∧ calls pre = n) ops

/-- Call number `m` of `adjust_task_queue` failed the task with `RpcIntErr::Timeout`. -/
def TimedOutAt (task_timeout : Nat) (ops : List (Op T)) (t : T) (m : Nat) : Prop :=
  Occurs (fun pre op => op = .adjust_task_queue ∧ t ∈ (run task_timeout pre).timer.adjust_task_queue.1 ∧
    calls pre + 1 = m) ops

/-- A task is drained once, and is in the channel no more. -/
theorem DrainedAt.once (hd : ((ops.filterMap Op.registers).map seq).Nodup)
    (h : DrainedAt timeout ops t n) :
    t ∈ ops.filterMap Op.registers ∧ t ∉ (run timeout ops).timer.pending_tasks ∧
      ∀ m, DrainedAt timeout ops t m → m = n := by
  induction ops using List.reverseRecOn generalizing n with
  | nil => exact absurd h not_occurs_nil
  | append_singleton ops op ih =>
    have hd' := hd
    rw [List.filterMap_append, List.map_append, List.nodup_append] at hd'
    rw [DrainedAt, occurs_concat] at h
    rw [List.filterMap_append]
    rcases h with h | ⟨hin, hout, rfl⟩
    · obtain ⟨hreg, hnot, huniq⟩ := ih hd'.1 h
      refine ⟨List.mem_append_left _ hreg, fun hp => ?_, fun m hm => ?_⟩
      · rw [run_concat] at hp
        rcases op_run_channel (run timeout ops).timer op with hc | hc <;> rw [step, hc] at hp
        · -- it would be registered a second time
          have hagain := (List.mem_append.1 hp).resolve_left hnot
          have hlast : t ∈ [op].filterMap Op.registers := by simpa using hagain
          exact hd'.2.2 _ (List.mem_map_of_mem hreg) _ (List.mem_map_of_mem hlast) rfl
        · cases hp
      · rw [DrainedAt, occurs_concat] at hm
        rcases hm with hm | ⟨hin, -⟩
        · exact huniq m hm
        · exact absurd hin hnot
    · refine ⟨List.mem_append_left _ (mem_registered hd'.1 (List.mem_append_left _ hin)), hout,
      fun m hm => ?_⟩
      rw [DrainedAt, occurs_concat] at hm
      rcases hm with hm | ⟨-, -, rfl⟩
      · exact absurd hin (ih hd'.1 hm).2.1
      · rfl

/-- The place of a task in the tables says when it was drained. -/
theorem run_dated (timeout : Nat) (hd : ((ops.filterMap Op.registers).map seq).Nodup) :
    (run timeout ops).timer.Dated timeout (calls ops) (DrainedAt timeout ops) := by
  induction ops using List.reverseRecOn with
  | nil => exact dated_new timeout
  | append_singleton ops op ih =>
    rw [List.filterMap_append, List.map_append] at hd
    have hd' := hd.of_append_left
    rw [calls, List.countP_append, run_concat]
    refine op_run_dated ((ih hd').mono fun t k h => h.append [op]) (run_balanced timeout ops hd').filed op ?_
    intro u hu hu'
    exact occurs_concat.2 (.inr ⟨hu, by rwa [run_concat], rfl⟩)

theorem run_timed_out (h : t ∈ (run timeout ops).timed_out) : ∃ m, TimedOutAt timeout ops t m := by
  induction ops using List.reverseRecOn with
  | nil => cases h
  | append_singleton ops op ih =>
    rw [run_concat] at h
    rcases List.mem_append.1 h with h | h
    · obtain ⟨m, hm⟩ := ih h
      exact ⟨m, hm.append [op]⟩
    · obtain ⟨hop, ht⟩ := op_run_timed_out h
      exact ⟨_, occurs_concat.2 (.inr ⟨hop, ht, rfl⟩)⟩

/-- A task that timed out was drained `timeout + 1` calls before. -/
theorem TimedOutAt.drained (hd : ((ops.filterMap Op.registers).map seq).Nodup)
    (h : TimedOutAt timeout ops t m) :
    ∃ n, DrainedAt timeout ops t n ∧ n + timeout + 1 = m := by
  obtain ⟨pre, op, post, rfl, -, ht, rfl⟩ := h
  rw [List.filterMap_append, List.map_append] at hd
  have hdated := run_dated timeout hd.of_append_left
  obtain ⟨n, hn, he⟩ := (hdated.adjust_task_queue (Prod.eta _).symm).2 t ht
  exact ⟨n, hn.append _, by omega⟩

/-- Tasks with seqs of their own are registered, in whatever order the timer is
then used. A task drained after `n` calls of `adjust_task_queue`, and neither taken nor
cleaned up, times out in call `n + task_timeout + 1` if that call is made, and in
no other; and what times out was drained. -/
theorem times_out_on_tick (task_timeout : Nat) (ops : List (Op T))
    (hd : (ops.filterMap Op.registers).Pairwise (fun t u => seq t ≠ seq u)) :
    (∀ t n, DrainedAt task_timeout ops t n → t ∉ (run task_timeout ops).taken →
      t ∉ (run task_timeout ops).failed →
      n + task_timeout + 1 ≤ calls ops → TimedOutAt task_timeout ops t (n + task_timeout + 1)) ∧
    (∀ t n m, DrainedAt task_timeout ops t n → TimedOutAt task_timeout ops t m → m = n + task_timeout + 1) ∧
    ∀ t m, TimedOutAt task_timeout ops t m → ∃ n, DrainedAt task_timeout ops t n ∧
    n + task_timeout + 1 = m := by
  have hseqs : ((ops.filterMap Op.registers).map seq).Nodup := List.pairwise_map.2 hd
  have hexact : ∀ t n m, DrainedAt task_timeout ops t n → TimedOutAt task_timeout ops t m →
      m = n + task_timeout + 1 := by
    intro t n m hn hm
    obtain ⟨n', hn', rfl⟩ := hm.drained hseqs
    rw [(hn.once hseqs).2.2 n' hn']
  refine ⟨fun t n hn htaken hfailed hcalls => ?_, hexact, fun t m hm => hm.drained hseqs⟩
  obtain ⟨hreg, hpending, huniq⟩ := hn.once hseqs
  have hplace := (run_balanced task_timeout ops hseqs).balance.mem_iff.1
    (run_registered task_timeout ops ▸ hreg)
  simp only [items, List.mem_append, hpending, htaken, hfailed, false_or, or_false] at hplace
  rcases hplace with hheld | hout
  · -- a task still held was drained too late for that call
    obtain ⟨k, hk, -, hle⟩ := (run_dated task_timeout hseqs).le hheld
    have := huniq k hk
    omega
  · obtain ⟨m, hm⟩ := run_timed_out hout
    exact hexact t n m hn hm ▸ hm

/-- With `task_timeout` 1, of two tasks drained before the first second one is answered,
and the other times out at the end of the next second. -/
theorem times_out_on_tick_second :
    @TimedOutAt Nat ⟨id⟩ 1 [.reg_task 5, .reg_task 3, .poll_sent_task, .take_task 3,
      .adjust_task_queue, .reg_task 9, .adjust_task_queue, .poll_sent_task] 5 2 :=
  (@times_out_on_tick Nat ⟨id⟩ 1 [.reg_task 5, .reg_task 3, .poll_sent_task, .take_task 3, .adjust_task_queue,
    .reg_task 9, .adjust_task_queue, .poll_sent_task] (by decide)).1 5 0
    ⟨[.reg_task 5, .reg_task 3], .poll_sent_task, _, rfl, by decide, by decide, rfl⟩ (by decide)
      (by decide) (by decide)

end Account

end OccamsRpc.ClientTaskTimer
