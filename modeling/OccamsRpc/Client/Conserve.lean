import OccamsRpc.Client.Timer
import Mathlib.Data.List.Induction
/-!
# Nothing is lost in the timer

The operations of `ClientTaskTimer` in any order. `Account` keeps, beside the
timer, every task it was given and every task it gave back, and a registered
task is at one `Place` at a time: waiting in the channel, in `sent_tasks` or in
one batch, or handed back by `take_task`, `adjust_task_queue` or
`clean_pending_tasks`.

Tasks may be registered in any order of their seqs, so `Wf` does not hold here
and `take_task` may miss a task that is held; it never loses one.
-/
open Lib

namespace OccamsRpc

namespace ClientTaskTimer

variable {T : Type} [HasSeq T]

/-! ## Filed tasks -/

/-- Tasks are filed under their own seq, and no seq is held twice. -/
structure Filed (tm : ClientTaskTimer T) : Prop where
  keyed : ∀ m ∈ tm.tables, ∀ k t, m.lookup k = some t → seq t = k
  nodup : (tm.items.map seq).Nodup

theorem Filed.fresh {tm : ClientTaskTimer T} (h : tm.Filed) {t : T} (ht : t ∈ tm.pending_tasks) :
    seq t ∉ tm.sent_tasks := by
  intro hk
  obtain ⟨u, hu⟩ := Option.isSome_iff_exists.1 (AList.lookup_isSome.2 hk)
  have hsent : tm.sent_tasks ∈ tm.tables := by simp [tables]
  have hnd := h.nodup
  rw [items, List.map_append, List.nodup_append] at hnd
  apply hnd.2.2 (seq t) (List.mem_map_of_mem ht) (seq u)
  · exact List.mem_map_of_mem (mem_drained.2 ⟨_, hsent, Table.mem_values.2 ⟨_, hu⟩⟩)
  · exact (h.keyed _ hsent _ u hu).symm

theorem Filed.recv_pending {tm tm' : ClientTaskTimer T} (h : tm.Filed)
    (hr : tm.recv_pending = some tm') :
    tm'.Filed ∧ tm'.items.Perm tm.items := by
  obtain ⟨t, ts, hp, hp', hd, -⟩ := recv_pending_moves (fun _ => h.fresh) hr
  have hperm : tm'.items.Perm tm.items := by
    rw [items, items, hp, hp', hd]
    exact List.perm_middle
  exact ⟨⟨recv_pending_keyed h.keyed hr, (hperm.map _).nodup_iff.2 h.nodup⟩, hperm⟩

theorem Filed.recv_all {tm : ClientTaskTimer T} (h : tm.Filed) :
    tm.recv_all.Filed ∧ tm.recv_all.items.Perm tm.items :=
  recv_all_keeps (fun tm' => tm'.Filed ∧ tm'.items.Perm tm.items)
    (fun _ _ h hr => ⟨(h.1.recv_pending hr).1, (h.1.recv_pending hr).2.trans h.2⟩) ⟨h, .refl _⟩

/-- What leaves the timer is taken out of its tables, and nothing else changes hands. -/
theorem Filed.release {tm tm' : ClientTaskTimer T} (h : tm.Filed) {out : List T}
    (hs : tm.Shrinks tm') (hp : tm.items.Perm (out ++ tm'.items)) : tm'.Filed := by
  refine ⟨fun m' hm' k t ht => ?_, ?_⟩
  · obtain ⟨m, hm, hl⟩ := hs m' hm'
    exact h.keyed m hm k t (hl k t ht)
  · have hnd := (hp.map seq).nodup_iff.1 h.nodup
    rw [List.map_append, List.nodup_append] at hnd
    exact hnd.2.1

/-- The receive loop leaves the past seconds alone. -/
theorem recv_all_queue (tm : ClientTaskTimer T) :
    tm.recv_all.delay_tasks_queue = tm.delay_tasks_queue ∧
      tm.recv_all.task_timeout = tm.task_timeout := by
  apply recv_all_keeps (fun tm' => tm'.delay_tasks_queue = tm.delay_tasks_queue ∧
    tm'.task_timeout = tm.task_timeout)
  · intro tm₁ tm₂ h hr
    obtain ⟨t, ts, -, rfl⟩ := recv_pending_eq hr
    exact h
  · exact ⟨rfl, rfl⟩

/-! ## The operations -/

/-- An operation, with what its caller gives. -/
inductive Op (T : Type)
  | reg_task (t : T)
  | stop_reg_task
  | poll_sent_task
  | check_pending_tasks_empty
  | take_task (seq : Nat)
  | adjust_task_queue
  | clean_pending_tasks

/-- What an operation registers. -/
def Op.registers : Op T → Option T
  | .reg_task t => some t
  | _ => none

/-- The timer after an operation, and the tasks it gave back: by `take_task`,
failed with `RpcIntErr::Timeout`, failed with `RpcIntErr::IO`. -/
structure Effect (T : Type) where
  timer : ClientTaskTimer T
  taken : List T := []
  timed_out : List T := []
  failed : List T := []

/-- What an operation does, and the tasks that it lets go. -/
def Op.run (tm : ClientTaskTimer T) : Op T → Effect T
  | .reg_task t => { timer := tm.reg_task t }
  | .stop_reg_task => { timer := tm.stop_reg_task }
  | .poll_sent_task => { timer := tm.poll_sent_task.2 }
  | .check_pending_tasks_empty => { timer := tm.check_pending_tasks_empty.2 }
  | .take_task k =>
    match tm.take_task k with
    | (.ready (some t), tm') => { timer := tm', taken := [t] }
    | (_, tm') => { timer := tm' }
  | .adjust_task_queue => { timer := tm.adjust_task_queue.2, timed_out := tm.adjust_task_queue.1 }
  | .clean_pending_tasks =>
    { timer := tm.clean_pending_tasks.2, failed := tm.clean_pending_tasks.1 }

theorem op_run_take_task (tm : ClientTaskTimer T) (k : Nat) :
    ((Op.take_task k).run tm).timer = (tm.take_task k).2 := by
  rcases hr : tm.take_task k with ⟨(_ | t) | _, tm'⟩ <;> simp only [Op.run, hr]

/-- What an operation does: the tasks given back are those no longer held, a
registered task is new among those held, and the queue stays within its bound. -/
theorem op_run_spec {tm : ClientTaskTimer T} (h : tm.Filed)
    (hq : tm.delay_tasks_queue.length ≤ tm.task_timeout) (op : Op T)
    (hnew : ∀ t, op.registers = some t → seq t ∉ tm.items.map seq) :
    (op.run tm).timer.Filed ∧
    (op.registers.toList ++ tm.items).Perm
      ((op.run tm).taken ++ (op.run tm).timed_out ++ (op.run tm).failed ++ (op.run tm).timer.items) ∧
    (op.run tm).timer.delay_tasks_queue.length ≤ (op.run tm).timer.task_timeout ∧
    (op.run tm).timer.task_timeout = tm.task_timeout := by
  have hrecv : tm.recv_all.delay_tasks_queue.length ≤ tm.recv_all.task_timeout ∧
      tm.recv_all.task_timeout = tm.task_timeout := by
    rw [(recv_all_queue tm).1, (recv_all_queue tm).2]
    exact ⟨hq, rfl⟩
  cases op with
  | reg_task t =>
    have hperm := reg_task_items tm t
    refine ⟨⟨h.keyed, (hperm.map seq).nodup_iff.2 ?_⟩, hperm.symm, hq, rfl⟩
    rw [List.map_cons, List.nodup_cons]
    exact ⟨hnew t rfl, h.nodup⟩
  | stop_reg_task => exact ⟨⟨h.keyed, h.nodup⟩, .refl _, hq, rfl⟩
  | poll_sent_task => exact ⟨h.recv_all.1, h.recv_all.2.symm, hrecv⟩
  | check_pending_tasks_empty => exact ⟨h.recv_all.1, h.recv_all.2.symm, hrecv⟩
  | take_task k =>
    obtain ⟨tm₁, htm₁, hcase⟩ := take_task_cases tm k
    have h₁ : tm₁.Filed ∧ tm.items.Perm tm₁.items ∧
        tm₁.delay_tasks_queue.length ≤ tm₁.task_timeout ∧ tm₁.task_timeout = tm.task_timeout := by
      rcases htm₁ with rfl | rfl
      · exact ⟨h, .refl _, hq, rfl⟩
      · exact ⟨h.recv_all.1, h.recv_all.2.symm, hrecv⟩
    rcases hcase with ⟨r, ht, hr⟩ | ⟨t, tm', ht, hr⟩
    · have hrun : (Op.take_task k).run tm = { timer := tm₁ } := by
        rcases r with (_ | t) | _
        · simp only [Op.run, ht]
        · exact absurd rfl (hr t)
        · simp only [Op.run, ht]
      rw [hrun]
      exact h₁
    · have hrun : (Op.take_task k).run tm = { timer := tm', taken := [t] } := by
        simp only [Op.run, ht]
      have hperm : tm₁.items.Perm ([t] ++ tm'.items) := remove_task_items hr
      obtain ⟨q₁, m, q₂, hq₁, hq₂, -, he⟩ := remove_task_some hr
      have hlen := congrArg List.length hq₁
      have hlen' := congrArg List.length hq₂
      simp only [tables, List.length_cons, List.length_append] at hlen hlen'
      have hto : tm'.task_timeout = tm₁.task_timeout := by rw [he]
      rw [hrun]
      refine ⟨h₁.1.release (remove_task_shrinks hr) hperm, h₁.2.1.trans hperm, ?_, ?_⟩
      · show tm'.delay_tasks_queue.length ≤ tm'.task_timeout
        have := h₁.2.2.1
        omega
      · exact hto.trans h₁.2.2.2
  | adjust_task_queue =>
    have hperm : tm.items.Perm (tm.adjust_task_queue.1 ++ tm.adjust_task_queue.2.items) :=
      adjust_task_queue_items rfl
    refine ⟨h.release (adjust_task_queue_shrinks rfl) hperm, ?_, ?_⟩
    · simpa only [Op.run, Op.registers, Option.toList_none, List.nil_append, List.append_nil] using hperm
    rcases adjust_task_queue_cases tm with ⟨hle, he⟩ | ⟨-, d, he, -⟩
    · simp only [Op.run, he]
      exact ⟨hle, trivial⟩
    · simp only [Op.run, he, List.length_dropLast, tables, List.length_cons]
      exact ⟨hq, trivial⟩
  | clean_pending_tasks =>
    have hperm :
        tm.recv_all.items.Perm (tm.clean_pending_tasks.1 ++ tm.clean_pending_tasks.2.items) := by
      have hfail := tm.recv_all.fail_tasks_items
      rw [clean_pending_tasks, hfail.1, hfail.2]
      exact List.perm_append_comm
    refine ⟨h.recv_all.1.release tm.recv_all.fail_tasks_shrinks hperm, ?_, ?_⟩
    · simpa only [Op.run, Op.registers, Option.toList_none, List.nil_append, List.append_nil]
        using h.recv_all.2.symm.trans hperm
    · simp only [Op.run, clean_pending_tasks, fail_tasks_eq, List.length_map]
      exact hrecv

/-! ## Where a task is -/

/-- The timer, every task registered with it and every task it gave back. -/
structure Account (T : Type) where
  timer : ClientTaskTimer T
  registered : List T
  taken : List T
  timed_out : List T
  failed : List T

namespace Account

def new (task_timeout : Nat) : Account T := ⟨.new task_timeout, [], [], [], []⟩

def step (b : Account T) (op : Op T) : Account T :=
  let e := op.run b.timer
  ⟨e.timer, b.registered ++ op.registers.toList, b.taken ++ e.taken, b.timed_out ++ e.timed_out,
    b.failed ++ e.failed⟩

/-- The account after a list of operations. -/
def run (task_timeout : Nat) (ops : List (Op T)) : Account T := ops.foldl step (new task_timeout)

/-- Where a task is that was registered. -/
inductive Place
  | pending
  | sent
  | batch (second : Nat)
  | taken
  | timed_out
  | failed
  deriving DecidableEq

/-- The places where a task still waits for its end. -/
def Place.waits : Place → Bool
  | .pending | .sent | .batch _ => true
  | _ => false

/-- The tasks at a place. -/
def held (b : Account T) : Place → List T
  | .pending => b.timer.pending_tasks
  | .sent => b.timer.sent_tasks.values
  | .batch i => (b.timer.delay_tasks_queue[i]?.map Table.values).getD []
  | .taken => b.taken
  | .timed_out => b.timed_out
  | .failed => b.failed

/-- Every place that can hold a task. -/
def places (b : Account T) : List Place :=
  .pending :: .sent :: (List.range b.timer.delay_tasks_queue.length).map .batch ++ [.taken,
    .timed_out, .failed]

omit [HasSeq T] in
theorem mem_places {b : Account T} {p : Place} {t : T} (h : t ∈ b.held p) : p ∈ b.places := by
  cases p with
  | batch i =>
    have hi : i < b.timer.delay_tasks_queue.length := by
      by_contra hi
      simp [held, List.getElem?_eq_none (Nat.le_of_not_lt hi)] at h
    simp [places, hi]
  | _ => simp [places]

omit [HasSeq T] in
theorem flatMap_range (q : List (Table T)) :
    (List.range q.length).flatMap (fun i => (q[i]?.map Table.values).getD []) =
      q.flatMap Table.values := by
  induction q with
  | nil => rfl
  | cons m q ih =>
    rw [List.length_cons, List.range_succ_eq_map, List.flatMap_cons, List.flatMap_map, List.flatMap_cons]
    exact congrArg (m.values ++ ·) ih

omit [HasSeq T] in
/-- The places taken together. -/
theorem flatMap_held (b : Account T) :
    b.places.flatMap b.held = b.timer.items ++ (b.taken ++ b.timed_out ++ b.failed) := by
  simp only [places, List.flatMap_append, List.flatMap_cons, List.flatMap_map, List.flatMap_nil,
    List.append_nil, held, flatMap_range, items, drained_eq, List.append_assoc]

omit [HasSeq T] in
theorem items_eq_nil_iff (b : Account T) :
    b.timer.items = [] ↔ ∀ p : Place, p.waits = true → b.held p = [] := by
  rw [items, drained_eq, List.append_eq_nil_iff, List.append_eq_nil_iff, ← flatMap_range,
    List.flatMap_eq_nil_iff]
  constructor
  · rintro ⟨hp, hs, hq⟩ p hw
    cases p with
    | pending => exact hp
    | sent => exact hs
    | batch i =>
      apply List.eq_nil_iff_forall_not_mem.2
      intro t ht
      have hi : i ∈ List.range b.timer.delay_tasks_queue.length := by
        simpa [places] using mem_places ht
      have hnil : b.held (.batch i) = [] := hq i hi
      rw [hnil] at ht
      cases ht
    | taken | timed_out | failed => cases hw
  · intro h
    exact ⟨h .pending rfl, h .sent rfl, fun i _ => h (.batch i) rfl⟩

/-- The tasks given out and those still held are those registered. -/
structure Balanced (task_timeout : Nat) (b : Account T) : Prop where
  filed : b.timer.Filed
  balance : b.registered.Perm (b.timer.items ++ (b.taken ++ b.timed_out ++ b.failed))
  queue : b.timer.delay_tasks_queue.length ≤ b.timer.task_timeout
  timeout : b.timer.task_timeout = task_timeout

theorem new_balanced (n : Nat) : (new n : Account T).Balanced n := by
  refine ⟨⟨?_, ?_⟩, ?_, ?_, rfl⟩ <;> simp [new, ClientTaskTimer.new, tables, items, drained]

theorem step_balanced {n : Nat} {b : Account T} (h : b.Balanced n) (op : Op T)
    (hd : ((b.step op).registered.map seq).Nodup) : (b.step op).Balanced n := by
  have hnew : ∀ t, op.registers = some t → seq t ∉ b.timer.items.map seq := by
    intro t ht hm
    obtain ⟨u, hu, he⟩ := List.mem_map.1 hm
    simp only [step, ht, Option.toList_some, List.map_append, List.nodup_append] at hd
    apply hd.2.2 (seq u) (List.mem_map_of_mem (h.balance.mem_iff.2 (List.mem_append_left _ hu))) (seq t)
    · simp
    · exact he
  obtain ⟨hfiled, hperm, hqueue, htimeout⟩ := op_run_spec h.filed h.queue op hnew
  refine ⟨hfiled, ?_, hqueue, htimeout.trans h.timeout⟩
  classical
  rw [List.perm_iff_count]
  intro t
  have h1 := h.balance.count_eq t
  have h2 := hperm.count_eq t
  simp only [step, List.count_append] at h1 h2 ⊢
  omega

theorem run_concat (n : Nat) (ops : List (Op T)) (op : Op T) :
    run n (ops ++ [op]) = (run n ops).step op := by
  rw [run, List.foldl_append]
  rfl

theorem run_registered (n : Nat) (ops : List (Op T)) :
    (run n ops).registered = ops.filterMap Op.registers := by
  induction ops using List.reverseRecOn with
  | nil => rfl
  | append_singleton ops op ih =>
    rw [run_concat, List.filterMap_append, ← ih]
    cases op <;> rfl

theorem run_balanced (n : Nat) (ops : List (Op T))
    (hd : ((ops.filterMap Op.registers).map seq).Nodup) :
    (run n ops).Balanced n := by
  induction ops using List.reverseRecOn with
  | nil => exact new_balanced n
  | append_singleton ops op ih =>
    rw [← run_registered n, run_concat] at hd
    rw [run_concat]
    apply step_balanced (ih ?_) op hd
    rw [← run_registered n]
    rw [step, List.map_append] at hd
    exact hd.of_append_left

/-- What the timer holds was registered. -/
theorem mem_registered {n : Nat} {ops : List (Op T)}
    (hd : ((ops.filterMap Op.registers).map seq).Nodup) {t : T} (ht : t ∈ (run n ops).timer.items) :
    t ∈ ops.filterMap Op.registers := by
  have hb := (run_balanced n ops hd).balance
  rw [run_registered] at hb
  exact hb.mem_iff.2 (List.mem_append_left _ ht)

/-- Tasks with seqs of their own are registered, in whatever order the timer is
then used: each is at one place, once, and what is at a place was registered;
`check_pending_tasks_empty` tells whether one still waits; and the queue keeps
to `task_timeout` batches. -/
theorem registered_at_one_place (task_timeout : Nat) (ops : List (Op T))
    (hd : (ops.filterMap Op.registers).Pairwise (fun t u => seq t ≠ seq u)) :
    (∀ t ∈ ops.filterMap Op.registers, ∃! p, t ∈ (run task_timeout ops).held p) ∧
    (∀ p, ((run task_timeout ops).held p).Nodup ∧
      ∀ t ∈ (run task_timeout ops).held p, t ∈ ops.filterMap Op.registers) ∧
    ((run task_timeout ops).timer.check_pending_tasks_empty.1 = true ↔
      ∀ p : Place, p.waits = true → (run task_timeout ops).held p = []) ∧
    (run task_timeout ops).timer.delay_tasks_queue.length ≤ task_timeout := by
  have hseqs : ((ops.filterMap Op.registers).map seq).Nodup := List.pairwise_map.2 hd
  have hb := run_balanced task_timeout ops hseqs
  have hreg := run_registered task_timeout ops
  generalize run task_timeout ops = b at hb hreg ⊢
  rw [← hreg] at hseqs ⊢
  have hperm := hb.balance
  rw [← flatMap_held] at hperm
  have hnd : (b.places.flatMap b.held).Nodup := hperm.nodup_iff.1 (hseqs.of_map _)
  rw [List.nodup_flatMap] at hnd
  have hmem : ∀ p t, t ∈ b.held p → t ∈ b.registered := fun p t ht =>
    hperm.mem_iff.2 (List.mem_flatMap.2 ⟨p, mem_places ht, ht⟩)
  refine ⟨fun t ht => ?_, fun p => ⟨?_, hmem p⟩, ?_, hb.timeout ▸ hb.queue⟩
  · obtain ⟨p, hp, htp⟩ := List.mem_flatMap.1 (hperm.mem_iff.1 ht)
    refine ⟨p, htp, fun q htq => ?_⟩
    by_contra hne
    have : Std.Symm (Function.onFun List.Disjoint b.held) := ⟨fun _ _ h _ h₁ h₂ => h h₂ h₁⟩
    exact hnd.2.forall (mem_places htq) hp hne htq htp
  · by_cases hp : p ∈ b.places
    · exact hnd.1 p hp
    · rw [List.eq_nil_iff_forall_not_mem.2 fun t ht => hp (mem_places ht)]
      exact List.nodup_nil
  · have hitems : b.timer.recv_all.drained = b.timer.recv_all.items := by
      rw [items, recv_all_pending, List.nil_append]
    rw [check_pending_tasks_empty, tasks_empty_iff, hitems, ← items_eq_nil_iff]
    constructor
    · intro h
      exact List.nil_perm.1 (h ▸ hb.filed.recv_all.2)
    · intro h
      exact List.perm_nil.1 (h ▸ hb.filed.recv_all.2)

/-- Three tasks registered out of order with `task_timeout` 1: the answer to the
second finds it, two seconds later the first has timed out, and the third, that
came in between, is failed at the end. -/
theorem registered_at_one_place_three :
    let a := @run Nat ⟨id⟩ 1 [.reg_task 5, .reg_task 3, .poll_sent_task, .take_task 3,
      .adjust_task_queue, .reg_task 9, .adjust_task_queue, .clean_pending_tasks]
    (∃! p, 5 ∈ a.held p) ∧ (∃! p, 3 ∈ a.held p) ∧ ∃! p, 9 ∈ a.held p := by
  have h :=
    (@registered_at_one_place Nat ⟨id⟩ 1 [.reg_task 5, .reg_task 3, .poll_sent_task, .take_task 3,
    .adjust_task_queue, .reg_task 9, .adjust_task_queue, .clean_pending_tasks] (by decide)).1
  exact ⟨h 5 (by decide), h 3 (by decide), h 9 (by decide)⟩

end Account

end ClientTaskTimer

end OccamsRpc
