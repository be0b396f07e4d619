import OccamsRpc.Conn.Moves
import Mathlib.Tactic.Common
/-!
# Invariants of the connection

`Numbered` ties seqs to tasks, `Placed` says where every task is, and `Counted`
what `pending_task_count` stands for. None of them assumes anything about the
run: what an encode failure or an abandoned future does to a task is in `Placed`
as a place of its own.
-/
open Lib

namespace OccamsRpc.Conn

/-! ## Seqs -/

/-- The task of a call that has not drawn its seq yet. -/
def SendPc.unnumbered : SendPc → Option Nat
  | .count id _ | .test id _ | .encode id _ => some id
  | _ => none

theorem SendPc.free_unnumbered {pc : SendPc} (h : pc.free = true) : pc.unnumbered = none := by
  cases pc <;> first | rfl | simp [free] at h

/-- Seqs are handed out in order and once: every task has the seq it was assigned, the
channel holds them in increasing order above `processed_seq`, and all of them are below
`next_seq`. -/
structure Numbered (s : Conn) : Prop where
  wf : s.timer.Wf
  processed : s.timer.processed_seq < s.next_seq
  pending : ∀ t ∈ s.timer.pending_tasks, t.seq < s.next_seq
  sending : ∀ t, s.sender.task = some t → t.seq < s.next_seq ∧ s.timer.processed_seq < t.seq ∧
    (∀ u ∈ s.timer.pending_tasks, u.seq < t.seq) ∧ (t.id, t.seq) ∈ s.assigned
  items : ∀ t ∈ s.timer.items, (t.id, t.seq) ∈ s.assigned
  /-- The frame being read answers the task it is read for. -/
  body : ∀ f t, s.receiver.body = some (f, t) → t.seq = f.seq ∧ (t.id, f.seq) ∈ s.assigned
  fresh : ∀ p ∈ s.assigned, p.1 < s.next_id ∧ p.2 < s.next_seq
  unnumbered : ∀ id, s.sender.unnumbered = some id → id < s.next_id ∧ ∀ p ∈ s.assigned, p.1 ≠ id
  ids : (s.assigned.map Prod.fst).Nodup
  seqs : (s.assigned.map Prod.snd).Nodup
  answered : ∀ id f, (id, Outcome.resp f) ∈ s.completed → (id, f.seq) ∈ s.assigned

theorem new_numbered (thresholds task_timeout : Nat) : Numbered (new thresholds task_timeout) := by
  have hw := ClientTaskTimer.new_wf (T := Task) task_timeout
  constructor <;>
    simp [new, ClientTaskTimer.new, SendPc.task, SendPc.unnumbered, RecvState.body, RecvPc.body,
      ClientTaskTimer.items, ClientTaskTimer.drained, ClientTaskTimer.tables] at hw ⊢
  exact hw

theorem wf_count {tm : ClientTaskTimer Task} (h : tm.Wf) (n : Nat) :
    ({ tm with pending_task_count := n } : ClientTaskTimer Task).Wf := { h with }

theorem wf_stop {tm : ClientTaskTimer Task} (h : tm.Wf) : tm.stop_reg_task.Wf := { h with }

/-- A call that gives its task up, or goes on with it. -/
theorem Numbered.goto {s : Conn} (hn : Numbered s) {c : SendPc}
    (ht : c.task = none ∨ c.task = s.sender.task)
    (hu : c.unnumbered = none ∨ c.unnumbered = s.sender.unnumbered) :
    Numbered { s with sender := c } :=
  { hn with
    sending := by
      intro t h
      rcases ht with ht | ht
      · exact absurd (ht.symm.trans h) nofun
      · exact hn.sending t (ht.symm.trans h)
    unnumbered := by
      intro id h
      rcases hu with hu | hu
      · exact absurd (hu.symm.trans h) nofun
      · exact hn.unnumbered id (hu.symm.trans h) }

theorem Numbered.exec {s : Conn} (hn : Numbered s) (op : Op) : Numbered (s.exec op) := by
  cases op with
  | fetch_sub => exact { hn with wf := wf_count hn.wf _ }
  | stop_reg_task => exact { hn with wf := wf_stop hn.wf }
  | fail id =>
    refine { hn with answered := ?_ }
    intro id' f h
    rcases List.mem_append.1 h with h | h
    · exact hn.answered id' f h
    · simp at h
  | _ => exact { hn with }

/-- `seq_update` for a task: it is after everything in the timer. -/
theorem Numbered.assign {s : Conn} (hn : Numbered s) {id : Nat}
    (hid : s.sender.unnumbered = some id) {c : SendPc}
    (ht : c.task = none ∨ c.task = some ⟨id, s.next_seq⟩) (hu : c.unnumbered = none) :
    Numbered { s with
      sender := c, next_seq := s.next_seq + 1, assigned := s.assigned ++ [(id, s.next_seq)] } := by
  obtain ⟨hlt, hnew⟩ := hn.unnumbered id hid
  have hmem {p : Nat × Nat} (h : p ∈ s.assigned) :
      p ∈ s.assigned ++ [(id, s.next_seq)] := List.mem_append_left _ h
  constructor
  · exact hn.wf
  · exact Nat.lt_succ_of_lt hn.processed
  · intro t h
    exact Nat.lt_succ_of_lt (hn.pending t h)
  · intro t h
    rcases ht with ht | ht
    · exact absurd (ht.symm.trans h) nofun
    · cases ht.symm.trans h
      exact ⟨Nat.lt_succ_self _, hn.processed, hn.pending, by simp⟩
  · intro t h
    exact hmem (hn.items t h)
  · intro f t h
    exact ⟨(hn.body f t h).1, hmem (hn.body f t h).2⟩
  · intro p h
    rcases List.mem_append.1 h with h | h
    · have := hn.fresh p h
      exact ⟨this.1, Nat.lt_succ_of_lt this.2⟩
    · rw [List.mem_singleton] at h
      subst h
      exact ⟨hlt, Nat.lt_succ_self _⟩
  · intro id' h
    exact absurd (hu.symm.trans h) nofun
  · rw [List.map_append, List.nodup_append]
    refine ⟨hn.ids, by simp, ?_⟩
    intro a ha b hb
    obtain ⟨p, hp, rfl⟩ := List.mem_map.1 ha
    obtain rfl : b = id := by simpa using hb
    exact hnew p hp
  · rw [List.map_append, List.nodup_append]
    refine ⟨hn.seqs, by simp, ?_⟩
    intro a ha b hb
    obtain ⟨p, hp, rfl⟩ := List.mem_map.1 ha
    obtain rfl : b = s.next_seq := by simpa using hb
    exact Nat.ne_of_lt (hn.fresh p hp).2
  · intro id' f h
    exact hmem (hn.answered id' f h)

theorem Numbered.send {s s' : Conn} {a : SendAct} (hn : Numbered s) (h : SendMove s a s') :
    Numbered s' := by
  cases h with
  | call nf h _ =>
    exact { hn with
      sending := nofun
      fresh := fun p hp => ⟨Nat.lt_succ_of_lt (hn.fresh p hp).1, (hn.fresh p hp).2⟩
      unnumbered := by
        rintro id ⟨⟩
        exact ⟨Nat.lt_succ_self _, fun p hp => Nat.ne_of_lt (hn.fresh p hp).1⟩ }
  | @count id nf h =>
    exact { hn.goto (c := .test id nf) (.inl rfl) (.inr (by rw [h]; rfl)) with wf := wf_count hn.wf _ }
  | closed h _ => exact hn.goto (.inl rfl) (.inl rfl)
  | opened h _ => exact hn.goto (.inl rfl) (.inr (by rw [h]; rfl))
  | encode_ok h => exact { hn.assign (by rw [h]; rfl) (c := .write _ _) (.inr rfl) rfl with }
  | @encode_err id _ h =>
    exact { hn.assign (by rw [h]; rfl) (c := .run (encode_err_ops id) false) (.inl rfl) rfl with }
  | write_ok h => exact hn.goto (.inr (by rw [h]; rfl)) (.inl rfl)
  | write_err h => exact hn.goto (.inl rfl) (.inl rfl)
  | @register t h hroom =>
    obtain ⟨hlt, hp, hu, ha⟩ := hn.sending t (by rw [h]; rfl)
    exact { hn with
      wf := ClientTaskTimer.reg_task_wf hn.wf hp hu
      pending := by
        intro u h
        rcases List.mem_append.1 h with h | h
        · exact hn.pending u h
        · rw [List.mem_singleton] at h
          exact h ▸ hlt
      sending := nofun
      items := by
        intro u h
        rcases List.mem_cons.1 ((ClientTaskTimer.reg_task_items _ _).mem_iff.1 h) with rfl | h
        · exact ha
        · exact hn.items u h
      unnumbered := nofun }
  | unthrottle h _ => exact { hn.goto (c := .idle) (.inl rfl) (.inl rfl) with }
  | ping h =>
    exact { hn with
      processed := Nat.lt_succ_of_lt hn.processed
      pending := fun t h => Nat.lt_succ_of_lt (hn.pending t h)
      sending := nofun
      fresh := fun p hp => ⟨(hn.fresh p hp).1, Nat.lt_succ_of_lt (hn.fresh p hp).2⟩
      unnumbered := nofun }
  | op h => exact (hn.exec _).goto (.inl rfl) (.inl rfl)
  | other pc e _ h' _ _ =>
    exact { hn.goto (.inl (SendPc.free_task h')) (.inl (SendPc.free_unnumbered h')) with }

/-- The timer hands out tasks, or moves them inside. -/
theorem Numbered.retime {s : Conn} (hn : Numbered s) {tm : ClientTaskTimer Task} (hw : tm.Wf)
    (hp : tm.pending_tasks ⊆ s.timer.pending_tasks) (hi : tm.items ⊆ s.timer.items)
    (hq : tm.processed_seq = s.timer.processed_seq ∨ ∃ t ∈ s.timer.pending_tasks, tm.processed_seq = t.seq) :
    Numbered { s with timer := tm } := by
  refine { hn with wf := hw, processed := ?_, pending := ?_, sending := ?_, items := ?_ }
  · rcases hq with hq | ⟨t, ht, hq⟩
    · exact hq ▸ hn.processed
    · exact hq ▸ hn.pending t ht
  · intro t h
    exact hn.pending t (hp h)
  · intro t h
    obtain ⟨h1, h2, h3, h4⟩ := hn.sending t h
    refine ⟨h1, ?_, fun u hu => h3 u (hp hu), h4⟩
    rcases hq with hq | ⟨u, hu, hq⟩
    · exact hq ▸ h2
    · exact hq ▸ h3 u hu
  · intro t h
    exact hn.items t (hi h)

theorem Numbered.recv {s s' : Conn} {a : RecvAct} (hn : Numbered s) (h : RecvMove s a s') :
    Numbered s' := by
  -- what is completed without a response says nothing about seqs
  have hkeep (ts : List Task) (o : Outcome) (ho : ∀ f, o ≠ .resp f) :
      ∀ id f, (id, Outcome.resp f) ∈ s.completed ++ ts.map (fun t => (t.id, o)) →
        (id, f.seq) ∈ s.assigned := by
    intro id f h
    rcases List.mem_append.1 h with h | h
    · exact hn.answered id f h
    · obtain ⟨t, -, h⟩ := List.mem_map.1 h
      exact absurd (Prod.mk.inj h).2 (ho f)
  cases h with
  | tick h hq =>
    obtain ⟨hp, -, hs, -⟩ := ClientTaskTimer.adjust_task_queue_keeps hq
    have hi := (ClientTaskTimer.adjust_task_queue_items hq).symm.subset
    exact { hn.retime (ClientTaskTimer.adjust_task_queue_wf hn.wf hq) (hp ▸ List.Subset.refl _)
      (fun t ht => hi (List.mem_append_right _ ht)) (.inl hs) with answered := hkeep _ _ nofun }
  | pop h _ =>
    obtain ⟨t, ts, hp, hp', -, hs⟩ := ClientTaskTimer.recv_pending_drained hn.wf h
    refine hn.retime (ClientTaskTimer.recv_pending_wf hn.wf h) ?_
      (ClientTaskTimer.recv_pending_items hn.wf h).subset ?_
    · rw [hp, hp']
      exact List.subset_cons_self t ts
    · exact .inr ⟨t, by simp [hp], hs⟩
  | @found _ f t _ _ _ hq =>
    obtain ⟨hp, -, hs, -⟩ := ClientTaskTimer.remove_task_keeps hq
    have hi := (ClientTaskTimer.remove_task_items hq).symm.subset
    have hr := hn.retime (ClientTaskTimer.remove_task_wf hn.wf hq) (hp ▸ List.Subset.refl _)
      (fun t ht => hi (List.mem_cons_of_mem _ ht)) (.inl hs)
    refine { hr with body := ?_ }
    rintro _ _ ⟨⟩
    have hseq : t.seq = f.seq := ClientTaskTimer.remove_task_seq hn.wf hq
    exact ⟨hseq, hseq ▸ hn.items t (hi List.mem_cons_self)⟩
  | wait h _ => exact { hn with body := nofun }
  | sleep h _ => exact { hn with body := nofun }
  | @finish _ f t st pc h hpc _ =>
    refine { hn with body := fun f t h => absurd (hpc.symm.trans h) nofun, answered := ?_ }
    intro id g hm
    rcases List.mem_append.1 hm with hm | hm
    · exact hn.answered id g hm
    · rw [List.mem_singleton] at hm
      cases hm
      exact (hn.body f t (by rw [h]; rfl)).2
  | @part_err f t st h => exact { hn with body := nofun, answered := hkeep [t] .io nofun }
  | has_err h _ => exact { hn with body := nofun }
  | panic h _ => exact { hn with body := nofun }
  | store h => exact { hn with body := nofun }
  | cleaned h _ => exact { hn with body := nofun }
  | fail h =>
    obtain ⟨-, hi⟩ := ClientTaskTimer.fail_tasks_items s.timer
    have hr := hn.retime (ClientTaskTimer.fail_tasks_wf hn.wf) (List.Subset.refl _)
      (hi ▸ List.subset_append_left _ _) (.inl rfl)
    exact { hr with body := nofun, answered := hkeep _ _ nofun }
  | again h _ => exact { hn with body := nofun }
  | leave h _ => exact { hn with body := nofun }
  | other r c m _ _ hb _ _ _ => exact { hn with body := fun f t h => hn.body f t (hb ▸ h) }

theorem Numbered.step {s s' : Conn} {a : Act} (hn : Numbered s) (h : s.step a = some s') :
    Numbered s' := by
  cases a with
  | snd a => exact hn.send (send_cases h)
  | rcv a => exact hn.recv (recv_cases h)

theorem numbered {thresholds task_timeout : Nat} {tr : List (Conn × Act)} {s : Conn}
    (h : Run step (new thresholds task_timeout) tr s) : Numbered s :=
  h.inv Numbered (new_numbered _ _) fun _ _ _ hn hs => hn.step hs

/-! ## Where the tasks are -/

/-- Every task ever given to `send_task`, at the place it is in now. -/
def places (s : Conn) : List Nat :=
  s.sender.owned ++ s.timer.items.map Task.id ++ s.receiver.held.toList.map Task.id ++
    s.completed.map Prod.fst ++
    s.lost_send ++ s.lost_recv

/-- Each task is in one place. -/
def Placed (s : Conn) : Prop := s.places.Perm (List.range s.next_id)

theorem new_placed (thresholds task_timeout : Nat) : Placed (new thresholds task_timeout) := by
  simp [Placed, places, new, SendPc.owned, RecvState.held, RecvPc.held, ClientTaskTimer.new,
    ClientTaskTimer.items, ClientTaskTimer.drained, ClientTaskTimer.tables]

theorem count_places (s : Conn) (x : Nat) : s.places.count x =
    s.sender.owned.count x + (s.timer.items.map Task.id).count x +
      (s.receiver.held.toList.map Task.id).count x +
      (s.completed.map Prod.fst).count x + s.lost_send.count x + s.lost_recv.count x := by
  simp only [places, List.count_append]

theorem Placed.count_le {s : Conn} (hp : Placed s) (x : Nat) : s.places.count x ≤ 1 := by
  rw [hp.count_eq]
  exact List.nodup_iff_count_le_one.1 List.nodup_range x

theorem Placed.completed_once {s : Conn} (hp : Placed s) {id : Nat}
    (h : id ∈ s.completed.map Prod.fst) :
    (s.completed.map Prod.fst).count id = 1 := by
  have hle := hp.count_le id
  have hpos := List.count_pos_iff.2 h
  rw [count_places] at hle
  omega

/-- A step that moves tasks between places. -/
theorem Placed.move {s s' : Conn} (hp : Placed s) (hid : s'.next_id = s.next_id)
    (h : ∀ x, s'.places.count x = s.places.count x) : Placed s' := by
  unfold Placed
  rw [hid]
  exact (List.perm_iff_count.2 h).trans hp

theorem owned_run (op : Op) (ops : List Op) (last : Bool) : (SendPc.run (op :: ops) last).owned =
    (match op with | .fail id => [id] | _ => []) ++ (SendPc.run ops last).owned := by
  cases op <;> simp [SendPc.owned]

/-- The steps of a call that keep or give up nothing. -/
theorem Placed.goto {s : Conn} (hp : Placed s) {c : SendPc} (h : c.owned = s.sender.owned) :
    Placed { s with sender := c } := by
  unfold Placed places at *
  rw [h]
  exact hp

theorem Placed.send {s s' : Conn} {a : SendAct} (hp : Placed s) (h : SendMove s a s') :
    Placed s' := by
  cases h with
  | call nf h _ =>
    unfold Placed places at *
    simp only [h, SendPc.owned, List.nil_append] at hp
    simp only [SendPc.owned, List.cons_append, List.nil_append, List.range_succ]
    exact (hp.cons _).trans (List.perm_append_singleton _ _).symm
  | count h => exact hp.goto (by rw [h]; rfl)
  | closed h _ => exact hp.goto (by rw [h]; rfl)
  | opened h _ => exact hp.goto (by rw [h]; rfl)
  | encode_ok h => exact hp.goto (by rw [h]; rfl)
  | encode_err h =>
    refine hp.move rfl fun x => ?_
    simp only [count_places, h, SendPc.owned, encode_err_ops, List.filterMap_cons,
      List.filterMap_nil, List.count_append, List.count_nil]
    omega
  | write_ok h => exact hp.goto (by rw [h]; rfl)
  | write_err h => exact hp.goto (by rw [h]; rfl)
  | @register t h _ =>
    refine hp.move rfl fun x => ?_
    have hi := ((ClientTaskTimer.reg_task_items s.timer t).map Task.id).count_eq x
    simp only [count_places, h, SendPc.owned, hi, List.map_cons, List.count_cons, List.count_nil]
    omega
  | unthrottle h _ => exact hp.goto (by rw [h]; rfl)
  | ping h => exact hp.goto (by rw [h]; rfl)
  | @op op ops last h =>
    refine hp.move (by cases op <;> rfl) fun x => ?_
    rw [count_places, count_places, h, owned_run]
    cases op with
    | fail id =>
      simp only [exec, List.map_append, List.count_append, List.map_cons, List.map_nil]
      omega
    | _ => rfl
  | other pc e h h' _ _ => exact hp.goto (by rw [SendPc.free_owned h, SendPc.free_owned h'])

theorem held_ids_none {r : RecvState} (h : r.body = none) : r.held.toList.map Task.id = [] := by
  rw [RecvState.held_eq, h]
  rfl

theorem held_ids_some {r : RecvState} {f : Frame} {t : Task} (h : r.body = some (f, t)) :
    r.held.toList.map Task.id = [t.id] := by
  rw [RecvState.held_eq, h]
  rfl

theorem map_fst_completed (ts : List Task) (o : Outcome) :
    (ts.map fun t => (t.id, o)).map Prod.fst = ts.map Task.id := by
  rw [List.map_map]
  rfl

theorem Placed.complete {s : Conn} (hp : Placed s) {f : Frame} {t : Task}
    (hb : s.receiver.body = some (f, t)) (o : Outcome) {r : RecvState} (hr : r.body = none) :
    Placed (s.complete t o r) := by
  refine hp.move rfl fun x => ?_
  simp only [count_places, Conn.complete, held_ids_none hr, held_ids_some hb, List.map_append, List.map_cons,
    List.map_nil, List.count_append, List.count_nil]
  omega

theorem Placed.abandon {s : Conn} (hp : Placed s) {r : RecvState} (hr : r.body = none) :
    Placed (s.abandon r) := by
  refine hp.move rfl fun x => ?_
  simp only [count_places, Conn.abandon, held_ids_none hr, List.count_append, List.count_nil]
  omega

/-- The coroutine moves on with what it holds. -/
theorem Placed.rgoto {s : Conn} (hp : Placed s) {r : RecvState} (hr : r.body = s.receiver.body) :
    Placed { s with receiver := r } := by
  refine hp.move rfl fun x => ?_
  simp only [count_places, RecvState.held_eq, hr]

theorem Placed.recv {s s' : Conn} {a : RecvAct} (hn : Numbered s) (hp : Placed s)
    (h : RecvMove s a s') :
    Placed s' := by
  cases h with
  | @tick pc ts tm h hq =>
    refine hp.move rfl fun x => ?_
    have hi := ((ClientTaskTimer.adjust_task_queue_items hq).map Task.id).count_eq x
    simp only [List.map_append, List.count_append] at hi
    simp only [count_places, List.map_append, map_fst_completed, List.count_append]
    omega
  | pop h _ =>
    refine hp.move rfl fun x => ?_
    have hi := ((ClientTaskTimer.recv_pending_items hn.wf h).map Task.id).count_eq x
    simp only [count_places]
    omega
  | @found _ f t tm hl hb hq =>
    refine hp.move rfl fun x => ?_
    have hi := ((ClientTaskTimer.remove_task_items hq).map Task.id).count_eq x
    have hr : (RecvState.running (.hold f t .start)).body = some (f, t) := rfl
    simp only [List.map_cons, List.count_cons] at hi
    simp only [count_places, held_ids_none hb, held_ids_some hr, List.count_cons, List.count_nil]
    omega
  | wait h _ => exact hp.rgoto (by rw [h]; rfl)
  | sleep h _ => exact hp.rgoto (by rw [h]; rfl)
  | finish pc h hpc _ => exact hp.complete (by rw [h]; rfl) _ hpc
  | part_err h => exact hp.complete (by rw [h]; rfl) _ rfl
  | has_err h _ => exact hp.abandon rfl
  | panic h _ => exact hp.abandon rfl
  | store h => exact hp.rgoto (by rw [h]; rfl)
  | cleaned h _ => exact hp.rgoto (by rw [h]; rfl)
  | fail h =>
    refine hp.move rfl fun x => ?_
    obtain ⟨hf, hi⟩ := ClientTaskTimer.fail_tasks_items s.timer
    have hr : RecvState.testing.body = s.receiver.body := by rw [h]; rfl
    simp only [count_places, RecvState.held_eq, hr, hi, hf, List.map_append, map_fst_completed,
      List.count_append]
    simp only [ClientTaskTimer.items, List.map_append, List.count_append]
    omega
  | again h _ => exact hp.rgoto (by rw [h]; rfl)
  | leave h _ => exact hp.rgoto (by rw [h]; rfl)
  | other r c m _ _ hb _ _ _ => exact hp.rgoto hb

theorem placed {thresholds task_timeout : Nat} {tr : List (Conn × Act)} {s : Conn}
    (h : Run step (new thresholds task_timeout) tr s) : Placed s := by
  refine (h.inv (fun s => Numbered s ∧ Placed s) ⟨new_numbered _ _, new_placed _ _⟩ ?_).2
  rintro s a s' ⟨hn, hp⟩ hs
  refine ⟨hn.step hs, ?_⟩
  cases a with
  | snd a => exact hp.send (send_cases hs)
  | rcv a => exact hp.recv hn (recv_cases hs)

end OccamsRpc.Conn
