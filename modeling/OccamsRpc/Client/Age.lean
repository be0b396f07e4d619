import OccamsRpc.Client.Timer
/-!
# How long a task has waited

A task moves one table back with every tick, and only the table behind the last
of `task_timeout` seconds falls off: a task that has seen fewer ticks is still
in the timer, whatever else was registered or taken.
-/
open Lib

namespace OccamsRpc.ClientTaskTimer

variable {T : Type} [HasSeq T]

/-- The task is in the timer, and was there at no more than `n` ticks. -/
def Aged (tm : ClientTaskTimer T) (n : Nat) (t : T) : Prop :=
  t ∈ tm.pending_tasks ∨ ∃ i ≤ n, ∃ m, tm.tables[i]? = some m ∧ t ∈ m.values

variable {tm tm' : ClientTaskTimer T} {n : Nat} {t : T}

omit [HasSeq T] in
theorem Aged.mem_items (h : tm.Aged n t) : t ∈ tm.items := by
  rcases h with h | ⟨i, -, m, hm, ht⟩
  · exact List.mem_append_left _ h
  · exact List.mem_append_right _ (mem_drained.2 ⟨m, List.mem_of_getElem? hm, ht⟩)

omit [HasSeq T] in
theorem aged_reg_task (tm : ClientTaskTimer T) (t : T) : (tm.reg_task t).Aged 0 t :=
  .inl (by simp [reg_task])

omit [HasSeq T] in
theorem Aged.reg_task (h : tm.Aged n t) (u : T) : (tm.reg_task u).Aged n t := by
  rcases h with h | h
  · exact .inl (List.mem_append_left _ h)
  · exact .inr h

theorem Aged.recv_pending (hw : tm.Wf) (h : tm.Aged n t) (hr : tm.recv_pending = some tm') :
    tm'.Aged n t := by
  obtain ⟨u, us, hp, rfl⟩ := recv_pending_eq hr
  have hvalues : Table.values (tm.sent_tasks.insert (seq u) u) = u :: tm.sent_tasks.values :=
    Table.values_insert (hw.fresh (by simp [hp]) _ (by simp [tables])) u
  rcases h with h | ⟨i, hi, m, hm, ht⟩
  · rw [hp] at h
    rcases List.mem_cons.1 h with rfl | h
    · exact .inr ⟨0, Nat.zero_le _, _, rfl, by simp [got_pending_task, hvalues]⟩
    · exact .inl h
  · -- only the first table changes, and it only gains
    cases i with
    | zero =>
      obtain rfl : tm.sent_tasks = m := by simpa [tables] using hm
      exact .inr ⟨0, hi, _, rfl, by simp [got_pending_task, hvalues, ht]⟩
    | succ i => exact .inr ⟨i + 1, hi, m, hm, ht⟩

theorem Aged.recv_all (hw : tm.Wf) (h : tm.Aged n t) : tm.recv_all.Aged n t :=
  (recv_all_keeps (fun tm => tm.Wf ∧ tm.Aged n t)
    (fun _ _ hi hr => ⟨recv_pending_wf hi.1 hr, hi.2.recv_pending hi.1 hr⟩) ⟨hw, h⟩).2

/-- A tick neither loses nor fails a task that has not waited `task_timeout`
ticks yet. -/
theorem Aged.adjust_task_queue (hw : tm.Wf) (h : tm.Aged n t) (hn : n < tm.task_timeout)
    {out : List T} (hq : tm.adjust_task_queue = (out, tm')) : t ∉ out ∧ tm'.Aged (n + 1) t := by
  rcases adjust_task_queue_cases tm with ⟨-, he⟩ | ⟨hlen, d, he, -⟩ <;> rw [hq] at he <;>
    simp only [Prod.mk.injEq] at he <;> obtain ⟨rfl, rfl⟩ := he
  · refine ⟨List.not_mem_nil, ?_⟩
    rcases h with h | ⟨i, hi, m, hm, ht⟩
    · exact .inl h
    · exact .inr ⟨i + 1, Nat.succ_le_succ hi, m, hm, ht⟩
  · have hlast := List.dropLast_append_getLast tm.tables_ne_nil
    rcases h with h | ⟨i, hi, m, hm, ht⟩
    · refine ⟨fun hout => ?_, .inl h⟩
      have h1 := hw.pending_gt t h
      have h2 := hw.drained_le t (mem_drained.2 ⟨_, List.getLast_mem _, hout⟩)
      omega
    · have hm' : tm.tables.dropLast[i]? = some m := by
        rw [List.getElem?_dropLast, if_pos (by omega)]
        exact hm
      refine ⟨fun hout => ?_, .inr ⟨i + 1, Nat.succ_le_succ hi, m, hm', ht⟩⟩
      -- the table that falls off is another, and no seq is in two tables
      have hnew := hw.newest_first
      rw [← hlast, List.pairwise_append] at hnew
      exact Nat.lt_irrefl _ (hnew.2.2 m (List.mem_of_getElem? hm') _ (by simp) t ht t hout)

theorem Aged.remove_task (hw : tm.Wf) (h : tm.Aged n t) {k : Nat} (hk : seq t ≠ k) {r : Option T}
    (hr : tm.remove_task k = (r, tm')) : tm'.Aged n t := by
  cases r with
  | none => rwa [(remove_task_none hr).1]
  | some u =>
    obtain ⟨q₁, m, q₂, hq, hq', hl, -⟩ := remove_task_some hr
    rcases h with h | ⟨i, hi, m', hm', ht⟩
    · exact .inl (by rw [(remove_task_keeps hr).1]; exact h)
    · refine .inr ⟨i, hi, ?_⟩
      rw [hq] at hm'
      rw [hq']
      rcases Nat.lt_trichotomy i q₁.length with hlt | rfl | hgt
      · rw [List.getElem?_append_left hlt] at hm' ⊢
        exact ⟨m', hm', ht⟩
      · rw [List.getElem?_append_right (Nat.le_refl _), Nat.sub_self, List.getElem?_cons_zero] at hm' ⊢
        cases hm'
        obtain ⟨j, hj⟩ := Table.mem_values.1 ht
        have hjk : j ≠ k := by
          rw [← hw.keyed m (by simp [hq]) j t hj]
          exact hk
        exact ⟨_, rfl, Table.mem_values.2 ⟨j, by rwa [AList.lookup_erase_ne hjk]⟩⟩
      · rw [List.getElem?_append_right (Nat.le_of_lt hgt)] at hm' ⊢
        obtain ⟨j, hj⟩ : ∃ j, i - q₁.length = j + 1 := ⟨i - q₁.length - 1, by omega⟩
        rw [hj, List.getElem?_cons_succ] at hm' ⊢
        exact ⟨m', hm', ht⟩

/-- What draining the channel and removing a task keep, `take_task` keeps. -/
theorem take_task_keeps (P : ClientTaskTimer T → Prop) (hall : ∀ tm, P tm → P tm.recv_all) {k : Nat}
    (hrem : ∀ tm tm' u, P tm → tm.remove_task k = (u, tm') → P tm') (h : P tm) {r : Poll (Option T)}
    (hr : tm.take_task k = (r, tm')) : P tm' := by
  obtain ⟨tm₁, h₁, h₂⟩ := take_task_cases tm k
  have hP : P tm₁ := by
    rcases h₁ with rfl | rfl
    · exact h
    · exact hall tm h
  rcases h₂ with ⟨r', ht, -⟩ | ⟨u, tm₂, ht, hu⟩
  · rw [hr] at ht
    cases ht
    exact hP
  · rw [hr] at ht
    cases ht
    exact hrem _ _ _ hP hu

/-- Taking another task does not touch this one. -/
theorem Aged.take_task (hw : tm.Wf) (h : tm.Aged n t) {k : Nat} (hk : seq t ≠ k)
    {r : Poll (Option T)} (hr : tm.take_task k = (r, tm')) : tm'.Aged n t :=
  (take_task_keeps (fun tm => tm.Wf ∧ tm.Aged n t) (fun _ h => ⟨recv_all_wf h.1, h.2.recv_all h.1⟩)
    (fun _ _ _ h hu => ⟨remove_task_wf h.1 hu, h.2.remove_task h.1 hk hu⟩) ⟨hw, h⟩ hr).2

/-! ## A connection in use -/

/-- No seq is in the timer twice. -/
theorem Wf.nodup (hw : tm.Wf) : (tm.items.map seq).Nodup := by
  have hpending : (tm.pending_tasks.map seq).Nodup :=
    (List.pairwise_map.2 hw.pending_lt).imp Nat.ne_of_lt
  have htable : ∀ m ∈ tm.tables, (m.values.map seq).Nodup := by
    intro m hm
    have hkeys : m.values.map seq = m.keys := by
      rw [Table.values, List.map_map]
      refine List.map_congr_left fun e he => ?_
      exact hw.keyed m hm e.1 e.2 (AList.mem_lookup_iff.2 he)
    rw [hkeys]
    exact m.keys_nodup
  rw [items, List.map_append, List.nodup_append]
  refine ⟨hpending, ?_, ?_⟩
  · rw [drained, List.map_flatMap, List.nodup_flatMap]
    refine ⟨htable, hw.newest_first.imp fun {m m'} hlt => ?_⟩
    refine List.disjoint_left.2 fun k hk hk' => ?_
    obtain ⟨a, ha, rfl⟩ := List.mem_map.1 hk
    obtain ⟨b, hb, hab⟩ := List.mem_map.1 hk'
    exact Nat.ne_of_lt (hlt a ha b hb) hab
  · intro k hk k' hk' hne
    obtain ⟨a, ha, rfl⟩ := List.mem_map.1 hk
    obtain ⟨b, hb, rfl⟩ := List.mem_map.1 hk'
    have h1 := hw.pending_gt a ha
    have h2 := hw.drained_le b hb
    omega

/-- A seq that was taken is no longer in the timer. -/
theorem take_task_gone (hw : tm.Wf) (ht : tm.items.Perm (t :: tm'.items)) :
    ∀ u ∈ tm'.items, seq u ≠ seq t := by
  intro u hu he
  have hnd := (ht.map seq).nodup_iff.1 hw.nodup
  rw [List.map_cons, List.nodup_cons] at hnd
  exact hnd.1 (he ▸ List.mem_map_of_mem hu)

/-- The timer of an open connection whose next `seq` is `next`. -/
structure Open (tm : ClientTaskTimer T) (timeout next : Nat) : Prop where
  wf : tm.Wf
  registering : tm.reg_stopped_flag = false
  timeout_eq : tm.task_timeout = timeout
  processed_lt : tm.processed_seq < next
  items_lt : ∀ t ∈ tm.items, seq t < next

variable {timeout next : Nat}

theorem open_new (timeout : Nat) : (new timeout : ClientTaskTimer T).Open timeout 1 where
  wf := new_wf timeout
  registering := rfl
  timeout_eq := rfl
  processed_lt := Nat.one_pos
  items_lt := by simp [items, drained, tables, new]

theorem Open.reg_task (h : tm.Open timeout (seq t)) : (tm.reg_task t).Open timeout (seq t + 1) where
  wf := reg_task_wf h.wf h.processed_lt fun u hu => h.items_lt u (List.mem_append_left _ hu)
  registering := h.registering
  timeout_eq := h.timeout_eq
  processed_lt := Nat.lt_succ_of_lt h.processed_lt
  items_lt := by
    intro u hu
    rcases List.mem_cons.1 ((reg_task_items tm t).subset hu) with rfl | hu
    · exact Nat.lt_succ_self _
    · exact Nat.lt_succ_of_lt (h.items_lt u hu)

theorem Open.recv_all (h : tm.Open timeout next) : tm.recv_all.Open timeout next := by
  refine recv_all_keeps (fun tm => tm.Open timeout next) (fun tm tm' h hr => ?_) h
  have hitems := (recv_pending_items h.wf hr).subset
  obtain ⟨u, us, hp, rfl⟩ := recv_pending_eq hr
  exact ⟨recv_pending_wf h.wf hr, h.registering, h.timeout_eq, h.items_lt u (by simp [items, hp]),
    fun t ht => h.items_lt t (hitems ht)⟩

theorem Open.adjust_task_queue (h : tm.Open timeout next) {out : List T}
    (hq : tm.adjust_task_queue = (out, tm')) :
    tm'.Open timeout next := by
  obtain ⟨-, -, hp, hs⟩ := adjust_task_queue_keeps hq
  refine ⟨adjust_task_queue_wf h.wf hq, hs.trans h.registering, ?_, hp ▸ h.processed_lt, fun t ht => ?_⟩
  · rcases adjust_task_queue_cases tm with ⟨-, he⟩ | ⟨-, d, he, -⟩ <;> rw [hq] at he <;>
      cases he <;> exact h.timeout_eq
  · exact h.items_lt t ((adjust_task_queue_items hq).symm.subset (List.mem_append_right _ ht))

theorem Open.remove_task (h : tm.Open timeout next) {k : Nat} {u : Option T}
    (hu : tm.remove_task k = (u, tm')) :
    tm'.Open timeout next := by
  cases u with
  | none => rwa [(remove_task_none hu).1]
  | some u =>
    obtain ⟨-, -, hp, hs⟩ := remove_task_keeps hu
    obtain ⟨-, -, -, -, -, -, he⟩ := remove_task_some hu
    refine ⟨remove_task_wf h.wf hu, hs.trans h.registering, ?_, hp ▸ h.processed_lt, fun t ht => ?_⟩
    · rw [he]
      exact h.timeout_eq
    · exact h.items_lt t ((remove_task_items hu).symm.subset (List.mem_cons_of_mem _ ht))

theorem Open.take_task (h : tm.Open timeout next) {k : Nat} {r : Poll (Option T)}
    (hr : tm.take_task k = (r, tm')) :
    tm'.Open timeout next :=
  take_task_keeps (fun tm => tm.Open timeout next) (fun _ h => h.recv_all)
    (fun _ _ _ h hu => h.remove_task hu) h hr

/-! ## The tick at which a task was received -/

/-- `received` gives the number of ticks before a task was received from the
channel; the task is in the table of that second. -/
structure Dated (tm : ClientTaskTimer T) (timeout ticks : Nat) (received : T → Nat → Prop) :
    Prop where
  timeout_eq : tm.task_timeout = timeout
  short : tm.tables.length ≤ timeout + 1
  date : ∀ (i : Nat) (m : Table T), tm.tables[i]? = some m → ∀ t ∈ m.values, ∃ k, received t k ∧
    k + i = ticks

section
variable {ticks : Nat} {received : T → Nat → Prop}

omit [HasSeq T] in
theorem dated_new (timeout : Nat) : (new timeout : ClientTaskTimer T).Dated timeout 0 received where
  timeout_eq := rfl
  short := Nat.le_add_left 1 timeout
  date := by
    intro i m hm t ht
    rcases i with _ | i <;> simp [tables, new] at hm
    subst hm
    cases ht

omit [HasSeq T] in
/-- Nobody waits longer than the timeout. -/
theorem Dated.le (h : tm.Dated timeout ticks received) (ht : t ∈ tm.drained) :
    ∃ k, received t k ∧ k ≤ ticks ∧ ticks ≤ k + timeout := by
  obtain ⟨m, hm, ht⟩ := mem_drained.1 ht
  obtain ⟨i, hi⟩ := List.mem_iff_getElem?.1 hm
  obtain ⟨k, hk, he⟩ := h.date i m hi t ht
  have hlt := (List.getElem?_eq_some_iff.1 hi).1
  have hshort := h.short
  exact ⟨k, hk, by omega, by omega⟩

omit [HasSeq T] in
/-- The tables are the same. -/
theorem Dated.of_tables (h : tm.Dated timeout ticks received) (ht : tm'.tables = tm.tables)
    (hto : tm'.task_timeout = tm.task_timeout) : tm'.Dated timeout ticks received :=
  ⟨hto.trans h.timeout_eq, ht ▸ h.short, ht ▸ h.date⟩

omit [HasSeq T] in
theorem Dated.mono {received' : T → Nat → Prop} (h : tm.Dated timeout ticks received)
    (hr : ∀ t k, received t k → received' t k) : tm.Dated timeout ticks received' :=
  { h with
    date := fun i m hm t ht => by
      obtain ⟨k, hk, he⟩ := h.date i m hm t ht
      exact ⟨k, hr t k hk, he⟩ }

theorem Dated.recv_pending (h : tm.Dated timeout ticks received)
    (hf : ∀ t ∈ tm.pending_tasks, seq t ∉ tm.sent_tasks) (hr : tm.recv_pending = some tm')
    (hnow : ∀ u, tm.pending_tasks.head? = some u → received u ticks) :
    tm'.Dated timeout ticks received := by
  obtain ⟨u, us, hp, rfl⟩ := recv_pending_eq hr
  have hvalues : Table.values (tm.sent_tasks.insert (seq u) u) = u :: tm.sent_tasks.values :=
    Table.values_insert (hf u (by simp [hp])) u
  refine ⟨h.timeout_eq, h.short, fun i m hm t ht => ?_⟩
  cases i with
  | zero =>
    cases hm
    simp only [got_pending_task, hvalues, List.mem_cons] at ht
    rcases ht with rfl | ht
    · exact ⟨ticks, hnow t (by simp [hp]), rfl⟩
    · exact h.date 0 _ rfl t ht
  | succ i => exact h.date (i + 1) m hm t ht

/-- A tick fails the tasks that were received `timeout` ticks before it, and no other. -/
theorem Dated.adjust_task_queue (h : tm.Dated timeout ticks received) {out : List T}
    (hq : tm.adjust_task_queue = (out, tm')) :
    tm'.Dated timeout (ticks + 1) received ∧ ∀ t ∈ out, ∃ k, received t k ∧
      k + timeout = ticks := by
  have hto := h.timeout_eq
  have hshift {q : List (Table T)}
      (hsub : ∀ (i : Nat) (m : Table T), q[i]? = some m → tm.tables[i]? = some m) :
      ∀ (i : Nat) (m : Table T), (∅ :: q)[i]? = some m → ∀ t ∈ m.values, ∃ k, received t k ∧
        k + i = ticks + 1 := by
    intro i m hm t ht
    cases i with
    | zero =>
      cases hm
      cases ht
    | succ i =>
      obtain ⟨k, hk, he⟩ := h.date i m (hsub i m hm) t ht
      exact ⟨k, hk, by omega⟩
  rcases adjust_task_queue_cases tm with ⟨hlen, he⟩ | ⟨hlen, d, he, -⟩ <;> rw [hq] at he <;>
    simp only [Prod.mk.injEq] at he <;> obtain ⟨rfl, rfl⟩ := he
  · refine ⟨⟨hto, ?_, hshift fun _ _ hm => hm⟩, by simp⟩
    simp only [tables, List.length_cons] at hlen ⊢
    omega
  · have hshort := h.short
    refine ⟨⟨hto, ?_, hshift fun i m hm => ?_⟩, fun t ht => ?_⟩
    · show (∅ :: tm.tables.dropLast).length ≤ _
      rw [List.length_cons, List.length_dropLast]
      omega
    · rw [List.getElem?_dropLast] at hm
      split at hm
      · exact hm
      · cases hm
    · have hlast :
          tm.tables[tm.tables.length - 1]? = some (tm.tables.getLast tm.tables_ne_nil) := by
        rw [← List.getLast?_eq_getElem?, List.getLast?_eq_getLast_of_ne_nil]
      obtain ⟨k, hk, he⟩ := h.date _ _ hlast t ht
      exact ⟨k, hk, by omega⟩

omit [HasSeq T] in
theorem Dated.remove_task (h : tm.Dated timeout ticks received) {k : Nat} {r : Option T}
    (hr : tm.remove_task k = (r, tm')) : tm'.Dated timeout ticks received := by
  cases r with
  | none => rwa [(remove_task_none hr).1]
  | some u =>
    obtain ⟨q₁, m, q₂, hq, hq', -, he⟩ := remove_task_some hr
    refine ⟨by rw [he]; exact h.timeout_eq, ?_, fun i m' hm' t ht => ?_⟩
    · have hshort := h.short
      rw [hq] at hshort
      rw [hq']
      simpa using hshort
    · rw [hq'] at hm'
      have hdate := h.date i
      rw [hq] at hdate
      rcases Nat.lt_trichotomy i q₁.length with hlt | rfl | hgt
      · rw [List.getElem?_append_left hlt] at hm' hdate
        exact hdate m' hm' t ht
      · rw [List.getElem?_append_right (Nat.le_refl _), Nat.sub_self, List.getElem?_cons_zero] at hm' hdate
        cases hm'
        exact hdate m rfl t (mem_values_erase ht)
      · obtain ⟨j, hj⟩ : ∃ j, i - q₁.length = j + 1 := ⟨i - q₁.length - 1, by omega⟩
        rw [List.getElem?_append_right (Nat.le_of_lt hgt), hj, List.getElem?_cons_succ] at hm' hdate
        exact hdate m' hm' t ht

omit [HasSeq T] in
theorem Dated.fail_tasks (h : tm.Dated timeout ticks received) :
    tm.fail_tasks.2.Dated timeout ticks received where
  timeout_eq := h.timeout_eq
  short := by
    have hshort := h.short
    simp only [tables, ClientTaskTimer.fail_tasks, List.length_cons, List.length_map] at hshort ⊢
    exact hshort
  date := by
    -- nothing is left in the tables
    intro i m hm t ht
    have hd : t ∈ tm.fail_tasks.2.drained := mem_drained.2 ⟨m, List.mem_of_getElem? hm, ht⟩
    have hnil : tm.fail_tasks.2.drained = [] := List.append_right_eq_self.1 (fail_tasks_items tm).2
    rw [hnil] at hd
    cases hd

end

end OccamsRpc.ClientTaskTimer
