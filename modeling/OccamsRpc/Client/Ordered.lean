import OccamsRpc.Client.Age
import OccamsRpc.Client.Conserve
/-!
# Registered in the order of their seqs

A connection gives out its seqs from 1 on, to pings as well, and registers its
tasks in that order. Over such runs the shortcuts of `take_task`, by
`min_delay_seq` and `processed_seq`, agree with a search through everything the
timer holds, as long as registration has not been stopped.
-/
open Lib

namespace OccamsRpc.ClientTaskTimer

variable {T : Type} [HasSeq T] {tm tm' : ClientTaskTimer T}

/-! ## The two marks only go up -/

theorem recv_all_marks (hw : tm.Wf) :
    tm.recv_all.min_delay_seq = tm.min_delay_seq ∧ tm.processed_seq ≤ tm.recv_all.processed_seq ∧
      (tm.recv_all.processed_seq = tm.processed_seq ∨ ∃ t ∈ tm.items, tm.recv_all.processed_seq = seq t) := by
  have h := recv_all_keeps (fun tm' => tm'.Wf ∧ tm'.items.Perm tm.items ∧
    tm'.min_delay_seq = tm.min_delay_seq ∧
    tm.processed_seq ≤ tm'.processed_seq ∧
      (tm'.processed_seq = tm.processed_seq ∨ ∃ t ∈ tm.items, tm'.processed_seq = seq t)) ?_
    ⟨hw, .refl _, rfl, Nat.le_refl _, .inl rfl⟩
  · exact h.2.2
  · rintro tm₁ tm₂ ⟨hw₁, hp₁, hm₁, hle₁, -⟩ hr
    have hw₂ := recv_pending_wf hw₁ hr
    have hp₂ := (recv_pending_items hw₁ hr).trans hp₁
    obtain ⟨t, ts, hp, rfl⟩ := recv_pending_eq hr
    have hgt : tm₁.processed_seq < seq t := hw₁.pending_gt t (by simp [hp])
    exact ⟨hw₂, hp₂, hm₁, Nat.le_of_lt (Nat.lt_of_le_of_lt hle₁ hgt),
      .inr ⟨t, hp₁.subset (List.mem_append_left _ (by simp [hp])), rfl⟩⟩

omit [HasSeq T] in
theorem remove_task_marks {k : Nat} {r : Option T} (h : tm.remove_task k = (r, tm')) :
    tm'.min_delay_seq = tm.min_delay_seq ∧ tm'.processed_seq = tm.processed_seq := by
  cases r with
  | none => rw [(remove_task_none h).1]; exact ⟨rfl, rfl⟩
  | some t =>
    obtain ⟨-, -, -, -, -, -, he⟩ := remove_task_some h
    rw [he]
    exact ⟨rfl, rfl⟩

theorem adjust_task_queue_marks (hw : tm.Wf) {out : List T}
    (h : tm.adjust_task_queue = (out, tm')) :
    tm.min_delay_seq ≤ tm'.min_delay_seq ∧ tm'.processed_seq = tm.processed_seq := by
  rcases adjust_task_queue_cases tm with ⟨-, he⟩ | ⟨-, d, he, hd⟩ <;> rw [h] at he <;> cases he
  · exact ⟨Nat.le_refl _, rfl⟩
  · refine ⟨?_, rfl⟩
    rcases hd with rfl | ⟨t, ht, rfl⟩
    · exact Nat.le_refl _
    · exact hw.min_le t (mem_drained.2 ⟨_, List.getLast_mem _, ht⟩)

/-- Neither mark is lowered, and `processed_seq` is the seq of a task that was held if it
has changed. -/
structure Advances (tm tm' : ClientTaskTimer T) : Prop where
  min_le : tm.min_delay_seq ≤ tm'.min_delay_seq
  processed_le : tm.processed_seq ≤ tm'.processed_seq
  processed : tm'.processed_seq = tm.processed_seq ∨ ∃ t ∈ tm.items, tm'.processed_seq = seq t

theorem op_run_advances (hw : tm.Wf) (op : Op T) : tm.Advances (op.run tm).timer := by
  have hsame : ∀ tm' : ClientTaskTimer T, tm'.min_delay_seq = tm.min_delay_seq →
      tm'.processed_seq = tm.processed_seq → tm.Advances tm' :=
    fun _ hm hp => ⟨Nat.le_of_eq hm.symm, Nat.le_of_eq hp.symm, .inl hp⟩
  have hall : ∀ tm' : ClientTaskTimer T, tm'.min_delay_seq = tm.recv_all.min_delay_seq →
      tm'.processed_seq = tm.recv_all.processed_seq → tm.Advances tm' := by
    intro tm' hm' hp'
    obtain ⟨hm, hp, hcase⟩ := recv_all_marks hw
    refine ⟨?_, ?_, ?_⟩
    · rw [hm', hm]
    · rw [hp']
      exact hp
    · rw [hp']
      exact hcase
  cases op with
  | reg_task t => exact hsame _ rfl rfl
  | stop_reg_task => exact hsame _ rfl rfl
  | poll_sent_task => exact hall _ rfl rfl
  | check_pending_tasks_empty => exact hall _ rfl rfl
  | take_task k =>
    obtain ⟨tm₁, htm₁, hk⟩ := take_task_cases tm k
    obtain ⟨hm', hp'⟩ : (tm.take_task k).2.min_delay_seq = tm₁.min_delay_seq ∧
        (tm.take_task k).2.processed_seq = tm₁.processed_seq := by
      rcases hk with ⟨r, hr, -⟩ | ⟨t, tm', hr, hu⟩ <;> rw [hr]
      · exact ⟨rfl, rfl⟩
      · exact remove_task_marks hu
    rw [op_run_take_task]
    rcases htm₁ with rfl | rfl
    · exact hsame _ hm' hp'
    · exact hall _ hm' hp'
  | adjust_task_queue =>
    obtain ⟨hm', hp'⟩ := adjust_task_queue_marks hw (Prod.eta tm.adjust_task_queue).symm
    exact ⟨hm', Nat.le_of_eq hp'.symm, .inl hp'⟩
  | clean_pending_tasks => exact hall _ rfl rfl

/-! ## What `take_task` finds -/

/-- Once registration is stopped, the channel is not looked at. -/
theorem take_task_stopped (hw : tm.Wf) {t : T} (ht : t ∈ tm.pending_tasks)
    (hs : tm.reg_stopped_flag = true) :
    tm.take_task (seq t) = (.ready none, tm) := by
  have hgt := hw.pending_gt t ht
  have hmin := hw.min_le_processed
  have hpoll : tm.wait_reg_poll (seq t) = (.ready (.error ()), tm) := by
    rw [wait_reg_poll, if_neg (Nat.not_le.2 hgt), if_pos hs]
  simp only [take_task, if_neg (show ¬ seq t < tm.min_delay_seq by omega), if_pos hgt, hpoll]

/-- What `take_task` searches: the timer, after its receive loop perhaps. -/
theorem take_task_searched (hw : tm.Wf) {tm₁ : ClientTaskTimer T}
    (h : tm₁ = tm ∨ tm₁ = tm.recv_all) :
    tm₁.Wf ∧ tm₁.items.Perm tm.items ∧ tm₁.min_delay_seq = tm.min_delay_seq ∧
      tm₁.delay_tasks_queue = tm.delay_tasks_queue := by
  rcases h with rfl | rfl
  · exact ⟨hw, .refl _, rfl, rfl⟩
  · exact ⟨recv_all_wf hw, recv_all_items hw, (recv_all_marks hw).1, (recv_all_queue tm).1⟩

/-- While registration is open, `take_task` finds what a search through all that is
held finds. -/
theorem take_task_iff (hw : tm.Wf) (hopen : tm.reg_stopped_flag = false) {k : Nat}
    {r : Poll (Option T)} (hr : tm.take_task k = (r, tm')) (t : T) :
    r = .ready (some t) ↔ t ∈ tm.items ∧ seq t = k := by
  have hfound : ∀ u ∈ tm.items, seq u = k → r = .ready (some u) := by
    rintro u hu rfl
    have hu' : u ∈ tm.drained ∨ u ∈ tm.pending_tasks ∧ tm.reg_stopped_flag = false := by
      rcases List.mem_append.1 hu with hu | hu
      · exact .inr ⟨hu, hopen⟩
      · exact .inl hu
    obtain ⟨tm₁, htm₁, -⟩ := take_task_found hw hu'
    rw [hr] at htm₁
    exact congrArg Prod.fst htm₁
  refine ⟨?_, fun h => hfound t h.1 h.2⟩
  rintro rfl
  obtain ⟨tm₁, htm₁, ⟨r', hr', hno⟩ | ⟨u, tm₂, hu, hrem⟩⟩ := take_task_cases tm k
  · rw [hr] at hr'
    cases hr'
    exact absurd rfl (hno t)
  · rw [hr] at hu
    cases hu
    obtain ⟨hw₁, hitems, -⟩ := take_task_searched hw htm₁
    exact ⟨hitems.subset ((remove_task_items hrem).symm.subset (List.mem_cons_self ..)),
      remove_task_seq hw₁ hrem⟩

omit [HasSeq T] in
theorem map_erase_of_free {q : List (Table T)} {k : Nat} (h : ∀ m ∈ q, m.lookup k = none) :
    (q.map fun m => m.erase k) = q := by
  refine (List.map_congr_left fun m hm => ?_).trans (List.map_id'' (fun _ => rfl) q)
  apply AList.ext
  exact List.kerase_of_notMem_keys (AList.lookup_eq_none.1 (h m hm))

/-- A search takes the seq out of every table, and it is in one at most. -/
theorem remove_task_tables (hw : tm.Wf) {k : Nat} {r : Option T} (h : tm.remove_task k = (r, tm')) :
    tm'.tables = tm.tables.map fun m => m.erase k := by
  cases r with
  | none =>
    obtain ⟨rfl, hnone⟩ := remove_task_none h
    rw [map_erase_of_free hnone]
  | some t =>
    obtain ⟨q₁, m, q₂, hq, hq', hl, -⟩ := remove_task_some h
    have hkey : seq t = k := remove_task_seq hw h
    have ht : t ∈ m.values := Table.mem_values.2 ⟨k, hl⟩
    have hn := hw.newest_first
    rw [hq, List.pairwise_append, List.pairwise_cons] at hn
    -- another entry for the seq would be newer or older than this one
    have hother : ∀ m' ∈ q₁ ++ q₂, m'.lookup k = none := by
      intro m' hm'
      cases hl' : m'.lookup k with
      | none => rfl
      | some u =>
        have hu : u ∈ m'.values := Table.mem_values.2 ⟨k, hl'⟩
        have hmem : m' ∈ tm.tables := by
          rw [hq]
          rcases List.mem_append.1 hm' with hm' | hm' <;> simp [hm']
        have hukey : seq u = k := hw.keyed m' hmem k u hl'
        rcases List.mem_append.1 hm' with hm' | hm'
        · have := hn.2.2 m' hm' m (by simp) u hu t ht
          omega
        · have := hn.2.1.1 m' hm' t ht u hu
          omega
    rw [hq, hq', List.map_append, List.map_cons,
      map_erase_of_free fun m hm => hother m (List.mem_append_left _ hm),
      map_erase_of_free fun m hm => hother m (List.mem_append_right _ hm)]

/-- What `take_task` leaves: all but the task with that seq, in the batches they were
in, and the mark. -/
theorem take_task_leaves (hw : tm.Wf) (hopen : tm.reg_stopped_flag = false) {k : Nat}
    {r : Poll (Option T)} (hr : tm.take_task k = (r, tm')) :
    tm'.items.Perm (tm.items.filter fun t => seq t ≠ k) ∧ tm'.min_delay_seq = tm.min_delay_seq ∧
      tm'.delay_tasks_queue = tm.delay_tasks_queue.map fun m => m.erase k := by
  have hiff := take_task_iff hw hopen hr
  obtain ⟨tm₁, htm₁, hcase⟩ := take_task_cases tm k
  obtain ⟨hw₁, hitems, hmin, hqueue⟩ := take_task_searched hw htm₁
  rcases hcase with ⟨r', hr', hno⟩ | ⟨t, tm₂, hr', hrem⟩ <;> rw [hr] at hr' <;> cases hr'
  · -- nothing was found, so nothing with that seq is held
    have hnone : ∀ u ∈ tm.items, seq u ≠ k := fun u hu hk => hno u ((hiff u).2 ⟨hu, hk⟩)
    have hfree : ∀ m ∈ tm.tables, m.lookup k = none := by
      intro m hm
      cases hl : m.lookup k with
      | none => rfl
      | some u =>
        have hu : u ∈ tm.drained := mem_drained.2 ⟨m, hm, Table.mem_values.2 ⟨k, hl⟩⟩
        exact absurd (hw.keyed m hm k u hl) (hnone u (List.mem_append_right _ hu))
    refine ⟨?_, hmin, ?_⟩
    · rw [List.filter_eq_self.2 fun u hu => decide_eq_true (hnone u hu)]
      exact hitems
    · rw [hqueue, map_erase_of_free fun m hm => hfree m (List.mem_cons_of_mem _ hm)]
  · have hperm := hitems.symm.trans (remove_task_items hrem)
    have hseq : seq t = k := remove_task_seq hw₁ hrem
    refine ⟨?_, (remove_task_marks hrem).1.trans hmin, ?_⟩
    · have hgone : ∀ u ∈ tm'.items, seq u ≠ k := fun u hu => hseq ▸ take_task_gone hw hperm u hu
      have hfilter := hperm.filter fun t => decide (seq t ≠ k)
      rw [List.filter_cons_of_neg (by simp [hseq]),
        List.filter_eq_self.2 fun u hu => decide_eq_true (hgone u hu)]
        at hfilter
      exact hfilter.symm
    · rw [← hqueue]
      exact (List.cons.inj (remove_task_tables hw₁ hrem)).2

/-! ## Ordered runs -/

theorem op_run_wf (hw : tm.Wf) (op : Op T)
    (hnew : ∀ t, op.registers = some t → tm.processed_seq < seq t ∧ ∀ u ∈ tm.pending_tasks, seq u < seq t) :
    (op.run tm).timer.Wf := by
  cases op with
  | reg_task t => exact reg_task_wf hw (hnew t rfl).1 (hnew t rfl).2
  | stop_reg_task =>
    exact ⟨hw.keyed, hw.pending_lt, hw.pending_gt, hw.drained_le, hw.newest_first, hw.min_le,
      hw.min_le_processed⟩
  | poll_sent_task => exact recv_all_wf hw
  | check_pending_tasks_empty => exact recv_all_wf hw
  | take_task k =>
    rw [op_run_take_task]
    exact take_task_keeps Wf (fun _ h => recv_all_wf h) (fun _ _ _ h hu => remove_task_wf h hu) hw
      (Prod.eta (tm.take_task k)).symm
  | adjust_task_queue => exact adjust_task_queue_wf hw (Prod.eta tm.adjust_task_queue).symm
  | clean_pending_tasks => exact fail_tasks_wf (recv_all_wf hw)

theorem recv_all_flag (tm : ClientTaskTimer T) :
    tm.recv_all.reg_stopped_flag = tm.reg_stopped_flag := by
  apply recv_all_keeps (fun tm' => tm'.reg_stopped_flag = tm.reg_stopped_flag)
  · intro tm₁ tm₂ h hr
    obtain ⟨t, ts, -, rfl⟩ := recv_pending_eq hr
    exact h
  · rfl

/-- Only `stop_reg_task` stops registration. -/
theorem op_run_flag (tm : ClientTaskTimer T) {op : Op T} (hop : op ≠ .stop_reg_task) :
    (op.run tm).timer.reg_stopped_flag = tm.reg_stopped_flag := by
  cases op with
  | reg_task t => rfl
  | stop_reg_task => exact absurd rfl hop
  | poll_sent_task => exact recv_all_flag tm
  | check_pending_tasks_empty => exact recv_all_flag tm
  | take_task k =>
    rw [op_run_take_task]
    refine take_task_keeps (fun tm' => tm'.reg_stopped_flag = tm.reg_stopped_flag)
      (fun tm₁ h => (recv_all_flag tm₁).trans h)
        (fun tm₁ tm₂ u h hu => ?_) rfl (Prod.eta (tm.take_task k)).symm
    cases u with
    | none => exact (remove_task_none hu).1 ▸ h
    | some u => exact (remove_task_keeps hu).2.2.2.trans h
  | adjust_task_queue => exact (adjust_task_queue_keeps (Prod.eta tm.adjust_task_queue).symm).2.2.2
  | clean_pending_tasks => exact recv_all_flag tm

namespace Account

/-- The tasks are registered in the order of their seqs, which count from 1. -/
def InOrder (ops : List (Op T)) : Prop :=
  (0 :: (ops.filterMap Op.registers).map seq).Pairwise (· < ·)

instance (ops : List (Op T)) : Decidable (InOrder ops) :=
  inferInstanceAs (Decidable (List.Pairwise _ _))

variable {ops : List (Op T)} {op : Op T}

theorem InOrder.init (h : InOrder (ops ++ [op])) : InOrder ops := by
  rw [InOrder, List.filterMap_append, List.map_append, ← List.cons_append] at h
  exact (List.pairwise_append.1 h).1

theorem InOrder.last (h : InOrder (ops ++ [op])) {t : T} (ht : op.registers = some t) :
    0 < seq t ∧ ∀ u ∈ ops.filterMap Op.registers, seq u < seq t := by
  have hreg : [op].filterMap Op.registers = [t] := by simp [ht]
  rw [InOrder, List.filterMap_append, List.map_append, ← List.cons_append, hreg] at h
  have hlast := (List.pairwise_append.1 h).2.2
  exact ⟨hlast 0 (by simp) _ (by simp),
    fun u hu => hlast _ (List.mem_cons_of_mem _ (List.mem_map_of_mem hu)) _ (by simp)⟩

theorem InOrder.nodup (h : InOrder ops) : ((ops.filterMap Op.registers).map seq).Nodup :=
  (List.pairwise_cons.1 h).2.imp Nat.ne_of_lt

theorem run_wf (n : Nat) (h : InOrder ops) :
    (run n ops).timer.Wf ∧ ((run n ops).timer.processed_seq = 0 ∨
      ∃ t ∈ ops.filterMap Op.registers, (run n ops).timer.processed_seq = seq t) := by
  induction ops using List.reverseRecOn with
  | nil => exact ⟨new_wf n, .inl rfl⟩
  | append_singleton ops op ih =>
    obtain ⟨hw, hp⟩ := ih h.init
    have hnew : ∀ t, op.registers = some t → (run n ops).timer.processed_seq < seq t ∧
        ∀ u ∈ (run n ops).timer.pending_tasks, seq u < seq t := by
      intro t ht
      obtain ⟨hpos, hlt⟩ := h.last ht
      refine ⟨?_, fun u hu => hlt u (mem_registered h.init.nodup (List.mem_append_left _ hu))⟩
      rcases hp with hp | ⟨u, hu, hp⟩
      · rw [hp]
        exact hpos
      · rw [hp]
        exact hlt u hu
    rw [run_concat]
    refine ⟨op_run_wf hw op hnew, ?_⟩
    rw [List.filterMap_append]
    rcases (op_run_advances hw op).processed with hsame | ⟨t, ht, hp'⟩
    · rcases hp with hp | ⟨u, hu, hp⟩
      · exact .inl (hsame.trans hp)
      · exact .inr ⟨u, List.mem_append_left _ hu, hsame.trans hp⟩
    · exact .inr ⟨t, List.mem_append_left _ (mem_registered h.init.nodup ht), hp'⟩

theorem run_marks (n : Nat) {pre post : List (Op T)} (h : InOrder (pre ++ post)) :
    (run n pre).timer.min_delay_seq ≤ (run n (pre ++ post)).timer.min_delay_seq ∧
      (run n pre).timer.processed_seq ≤ (run n (pre ++ post)).timer.processed_seq := by
  induction post using List.reverseRecOn with
  | nil =>
    rw [List.append_nil]
    exact ⟨Nat.le_refl _, Nat.le_refl _⟩
  | append_singleton post op ih =>
    rw [← List.append_assoc] at h ⊢
    obtain ⟨hm, hp⟩ := ih h.init
    obtain ⟨hm', hp', -⟩ := op_run_advances (run_wf n h.init).1 op
    rw [run_concat]
    exact ⟨Nat.le_trans hm hm', Nat.le_trans hp hp'⟩

theorem run_open (n : Nat) (hopen : Op.stop_reg_task ∉ ops) :
    (run n ops).timer.reg_stopped_flag = false := by
  induction ops using List.reverseRecOn with
  | nil => rfl
  | append_singleton ops op ih =>
    rw [List.mem_append, List.mem_singleton, not_or] at hopen
    rw [run_concat]
    exact (op_run_flag _ fun h => hopen.2 h.symm).trans (ih hopen.1)

/-- A task in the channel is found by its seq exactly while registration has not been
stopped. -/
theorem pending_found_iff (task_timeout : Nat) (ops : List (Op T)) (h : InOrder ops) {t : T}
    (ht : t ∈ (run task_timeout ops).timer.pending_tasks) :
    (∃ tm', (run task_timeout ops).timer.take_task (seq t) = (.ready (some t), tm')) ↔
      (run task_timeout ops).timer.reg_stopped_flag = false := by
  obtain ⟨hw, -⟩ := run_wf task_timeout h
  constructor
  · rintro ⟨tm', hr⟩
    by_contra hs
    rw [take_task_stopped hw ht (Bool.not_eq_false _ ▸ hs)] at hr
    cases hr
  · intro hopen
    obtain ⟨tm', hr, -⟩ := take_task_found hw (.inr ⟨ht, hopen⟩)
    exact ⟨tm', hr⟩

/-- A task that is its own seq. -/
local instance natSeq : HasSeq Nat := ⟨id⟩

/-- Before the connection is dropped, the response to a task in the channel finds it. -/
theorem pending_found_iff_open :
    ∃ tm', (run 0 [.reg_task 1, .reg_task 4]).timer.take_task 4 = (.ready (some 4), tm') :=
  (pending_found_iff 0 [.reg_task 1, .reg_task 4] (by decide) (by decide)).2 rfl

/-- The client is dropped while its task is in the channel: the response does not find
the task, which is drained by the next poll and times out. -/
theorem pending_missed_when_stopped :
    let ops : List (Op Nat) := [.reg_task 1, .stop_reg_task]
    let a := run 0 ops
    InOrder ops ∧ 1 ∈ a.timer.pending_tasks ∧
      (¬ ∃ tm', a.timer.take_task 1 = (.ready (some 1), tm')) ∧
      (run 0 (ops ++ [.take_task 1, .poll_sent_task, .adjust_task_queue])).timed_out = [1] := by
  refine ⟨by decide, by decide, ?_, by decide⟩
  rintro ⟨tm', h⟩
  cases h

/-- The shortcuts of `take_task` agree with a full search, what it takes out is the one
task asked for, and the marks they go by never go down. -/
theorem take_task_exact (task_timeout : Nat) (ops : List (Op T)) (h : InOrder ops)
    (hopen : Op.stop_reg_task ∉ ops) :
    let tm := (run task_timeout ops).timer
    (∀ k < tm.min_delay_seq, tm.take_task k = (.ready none, tm) ∧ ∀ t ∈ tm.items, seq t ≠ k) ∧
    (∀ k ≤ tm.processed_seq, ∀ t ∈ tm.pending_tasks, seq t ≠ k) ∧
    (∀ k r tm', tm.take_task k = (r, tm') →
      (∀ t, r = .ready (some t) ↔ t ∈ tm.items ∧ seq t = k) ∧
      tm'.items.Perm (tm.items.filter fun t => seq t ≠ k) ∧
      tm'.min_delay_seq = tm.min_delay_seq ∧
      tm'.delay_tasks_queue = tm.delay_tasks_queue.map fun m => m.erase k) ∧
    ∀ pre post, ops = pre ++ post → (run task_timeout pre).timer.min_delay_seq ≤ tm.min_delay_seq ∧
      (run task_timeout pre).timer.processed_seq ≤ tm.processed_seq := by
  obtain ⟨hw, -⟩ := run_wf task_timeout h
  have hflag := run_open task_timeout hopen
  refine ⟨fun k hk => ?_, fun k hk t ht he => ?_, fun k r tm' hr => ?_, fun pre post hops => ?_⟩
  · refine ⟨if_pos hk, fun t ht he => ?_⟩
    have hmin := hw.min_le_processed
    rcases List.mem_append.1 ht with ht | ht
    · have := hw.pending_gt t ht
      omega
    · have := hw.min_le t ht
      omega
  · have := hw.pending_gt t ht
    omega
  · exact ⟨take_task_iff hw hflag hr, take_task_leaves hw hflag hr⟩
  · subst hops
    exact run_marks task_timeout h

/-- Requests 2 and 5 have timed out, request 9 is in the channel, and a response comes
for 1 and for 9. -/
theorem take_task_exact_gaps :
    let a := run (T := Nat) 0 [.reg_task 2, .reg_task 5, .poll_sent_task, .adjust_task_queue, .reg_task 9]
    a.timer.min_delay_seq = 2 ∧ a.timer.take_task 1 = (.ready none, a.timer) ∧
      (a.timer.take_task 9).1 = .ready (some 9) := by
  obtain ⟨hlow, -, htake, -⟩ := take_task_exact 0
    [.reg_task 2, .reg_task 5, .poll_sent_task, .adjust_task_queue, .reg_task 9] (by decide) (by simp)
  exact ⟨rfl, (hlow 1 (by decide)).1, ((htake 9 _ _ rfl).1 9).2 (by decide)⟩

end Account

end OccamsRpc.ClientTaskTimer
