import OccamsRpc.Conn.Orderly
/-!
# Responses whose header was read

A response whose header was read while its task waits. Its body is read for that
task, at once or after the task has come through the channel; only a drop of the
stream at the wrong moment loses it. And a task that waits goes on to wait until such a
header comes, or a tick.
-/
open Lib

namespace OccamsRpc.Conn

/-- The task is in the timer, or its call has yet to put it there. -/
def Unanswered (s : Conn) (t : Task) : Prop := s.sender.task = some t ∨ t ∈ s.timer.items

/-- The coroutine is past the ticks of this poll. -/
def RecvState.polled : RecvState → Bool
  | .sent _ | .running _ => true
  | _ => false

/-- The task of a response that waits for it. Once it is drained, the response is looked
up before the next tick. -/
def Expected (s : Conn) (t : Task) : Prop :=
  s.sender.task = some t ∨ t ∈ s.timer.pending_tasks ∨ t ∈ s.timer.drained ∧
    s.receiver.polled = true

/-- Response `f` has been read, and task `t` is completed with it or will be. -/
def Answering (s : Conn) (t : Task) (f : Frame) : Prop :=
  (t.id, Outcome.resp f) ∈ s.completed ∨ s.receiver.body = some (f, t) ∨
    s.receiver.waits = some f ∧ t.seq = f.seq ∧ Expected s t

/-- The step dumps a response whose task is in the channel: registration has been
stopped, and `WaitRegTaskFuture` looks at that first. -/
def dumps (s : Conn) : Act → Bool
  | .rcv .next =>
    match s.receiver with
    | .running (.wait f) =>
      s.timer.reg_stopped_flag && s.timer.pending_tasks.any fun t => t.seq = f.seq
    | _ => false
  | _ => false

theorem SendMove.expected {s s' : Conn} {a : SendAct} {t : Task} (h : SendMove s a s')
    (ha : orderly s (.snd a) = true) (he : Expected s t) : Expected s' t := by
  have hf := h.frame
  have hdrained (hd : t ∈ s.timer.drained ∧ s.receiver.polled = true) : Expected s' t := by
    rw [← hf.drained, ← hf.receiver] at hd
    exact .inr (.inr hd)
  rcases he with he | he | he
  · cases h with
    | write_ok h =>
      rw [h] at he
      exact .inl he
    | write_err => cases ha
    | register h _ =>
      rw [h] at he
      cases he
      exact .inr (.inl (List.mem_append_right _ List.mem_cons_self))
    | other pc e h _ _ _ => exact absurd ((SendPc.free_task h).symm.trans he) nofun
    | call _ h _ | count h | closed h _ | opened h _ | encode_ok h | encode_err h | unthrottle h _
    | ping h | op h =>
      rw [h] at he
      cases he
  · cases h with
    | register => exact .inr (.inl (List.mem_append_left _ he))
    | @op op ops last _ => exact .inr (.inl (by cases op <;> exact he))
    | _ => exact .inr (.inl he)
  · exact hdrained he

theorem Answering.send {s s' : Conn} {a : SendAct} {t : Task} {f : Frame} (h : Answering s t f)
    (ha : orderly s (.snd a) = true) (hm : SendMove s a s') : Answering s' t f := by
  have hf := hm.frame
  rcases h with h | h | ⟨hw, hs, he⟩
  · exact .inl (hf.completed h)
  · exact .inr (.inl (hf.receiver ▸ h))
  · exact .inr (.inr ⟨hf.receiver ▸ hw, hs, hm.expected ha he⟩)

/-- A response is taken only when its task is drained, and then it finds it. -/
theorem Expected.take {s : Conn} (hn : Numbered s) {t : Task} {f : Frame} (hs : t.seq = f.seq)
    (he : Expected s t) (hle : f.seq ≤ s.timer.processed_seq) : Answering (s.take f) t f := by
  have hd : t ∈ s.timer.drained := by
    rcases he with he | he | he
    · have hlt := (hn.sending t he).2.1
      omega
    · have hlt : s.timer.processed_seq < t.seq := hn.wf.pending_gt t he
      omega
    · exact he.1
  obtain ⟨tm, hq⟩ := ClientTaskTimer.remove_task_found hn.wf hd
  have hq : s.timer.remove_task f.seq = (some t, tm) := hs ▸ hq
  refine .inr (.inl ?_)
  simp only [Conn.take, hq]
  rfl

/-- A step before the coroutine looks at the response. -/
theorem Expected.between {s s' : Conn} {t : Task} (he : Expected s t)
    (hp : s.receiver.polled = false) (hs : s'.sender = s.sender)
    (ht : s'.timer.pending_tasks = s.timer.pending_tasks) : Expected s' t := by
  rcases he with he | he | he
  · exact .inl (hs ▸ he)
  · exact .inr (.inl (ht ▸ he))
  · exact absurd (hp.symm.trans he.2) (by decide)

/-- One round of a receive loop. -/
theorem Expected.pop {s : Conn} (hn : Numbered s) {t : Task} (he : Expected s t)
    {tm : ClientTaskTimer Task} (hq : s.timer.recv_pending = some tm)
    (hp : s.receiver.polled = true) : Expected { s with timer := tm } t := by
  obtain ⟨u, us, hu, hu', hd, -⟩ := ClientTaskTimer.recv_pending_drained hn.wf hq
  rcases he with he | he | he
  · exact .inl he
  · rw [hu] at he
    rcases List.mem_cons.1 he with rfl | he
    · exact .inr (.inr ⟨by simp [hd], hp⟩)
    · exact .inr (.inl (by rw [hu']; exact he))
  · exact .inr (.inr ⟨by simp [hd, he.1], hp⟩)

/-- Only a round of the loop, or what follows the last one. -/
theorem Answering.loop {s s' : Conn} {t : Task} {f : Frame} {k : Option Conn} (hn : Numbered s)
    (hw : s.receiver.waits = some f) (hs : t.seq = f.seq) (he : Expected s t)
    (hp : s.receiver.polled = true)
    (h : (match s.timer.recv_pending with | some tm => some { s with timer := tm } | none => k) = some s')
    (hk : s.timer.pending_tasks = [] → k = some s' → Answering s' t f) : Answering s' t f := by
  split at h
  case h_1 tm hq =>
    cases h
    exact .inr (.inr ⟨hw, hs, he.pop hn hq hp⟩)
  case h_2 hq => exact hk (recv_pending_none hq) h

/-- While the response waits for the registration of its task. -/
theorem Answering.wait_next {s s' : Conn} {t : Task} {f : Frame} (hn : Numbered s) (ho : Orderly s)
    (hd : dumps s (.rcv .next) = false) (hw : s.receiver.waits = some f) (hs : t.seq = f.seq)
    (he : Expected s t) (h : s.recv_next s.receiver = some s') : Answering s' t f := by
  have hwaits := hw
  cases hr : s.receiver with
  | suspended pc => rw [hr] at h; cases h
  | ticking pc =>
    simp only [recv_next, hr, ho.has_err, Bool.false_eq_true, if_false, Option.some.injEq] at h
    subst h
    rw [hr] at hw
    exact .inr (.inr ⟨hw, hs, he.between (by rw [hr]; rfl) rfl rfl⟩)
  | sent pc =>
    rw [hr] at h hw
    refine .loop hn hwaits hs he (by rw [hr]; rfl) h ?_
    rintro - ⟨⟩
    refine .inr (.inr ⟨hw, hs, ?_⟩)
    exact he.imp_right (Or.imp_right fun hd => ⟨hd.1, rfl⟩)
  | running pc =>
    rw [hr] at h hw
    cases pc with
    | wait g =>
      cases hw
      simp only [recv_next] at h
      split at h
      case isTrue hle =>
        cases h
        exact he.take hn hs hle
      case isFalse hlt =>
        split at h <;> cases h
        case isTrue hstop =>
          -- the stream was dropped: the call is over, and the channel does not have the task
          rcases he with he | he | he
          · rw [SendPc.dropping_task (ho.dropped (.inr (.inr hstop)))] at he
            cases he
          · simp only [dumps, hr, hstop, Bool.true_and, List.any_eq_false, decide_eq_true_eq] at hd
            exact absurd hs (hd t he)
          · have hle : t.seq ≤ s.timer.processed_seq := hn.wf.drained_le t he.1
            omega
        case isFalse =>
          exact .inr (.inr ⟨rfl, hs, he.imp_right (Or.imp_right fun hd => ⟨hd.1, rfl⟩)⟩)
    | waiting g =>
      cases hw
      refine .loop hn hwaits hs he (by rw [hr]; rfl) h ?_
      intro hp h
      split at h
      case isTrue hle =>
        cases h
        exact he.take hn hs hle
      case isFalse hlt =>
        cases h
        rcases he with he | he | he
        · exact .inr (.inr ⟨rfl, hs, .inl he⟩)
        · rw [hp] at he
          cases he
        · have hle : t.seq ≤ s.timer.processed_seq := hn.wf.drained_le t he.1
          omega
    | _ => cases hw
  | _ =>
    rw [hr] at hw
    cases hw

/-- While a response waits, the coroutine goes on, or is between two polls of it. -/
theorem recv_waits {s s' : Conn} {a : RecvAct} {f : Frame} (hw : s.receiver.waits = some f)
    (h : s.recv a = some s') :
    a = .next ∨ s.receiver.polled = false ∧ s'.receiver.waits = s.receiver.waits ∧
      s'.sender = s.sender ∧
      s'.timer.pending_tasks = s.timer.pending_tasks := by
  unfold recv at h
  split at h
  case h_1 => exact .inl rfl
  case h_2 hr =>
    cases h
    rw [hr]
    exact .inr ⟨rfl, rfl, rfl, rfl⟩
  case h_3 hr =>
    cases h
    have hp := (ClientTaskTimer.adjust_task_queue_keeps (Prod.eta s.timer.adjust_task_queue).symm).1
    exact .inr ⟨by rw [hr]; rfl, rfl, rfl, hp⟩
  case h_14 => cases h
  all_goals
    rename_i hr
    rw [hr] at hw
    cases hw

theorem Answering.recv {s s' : Conn} {a : RecvAct} {t : Task} {f : Frame} (h : Answering s t f)
    (hn : Numbered s) (ho : Orderly s) (ha : orderly s (.rcv a) = true)
    (hd : dumps s (.rcv a) = false) (hr : s.recv a = some s') :
    Answering s' t f := by
  have hm := recv_cases hr
  rcases h with h | h | ⟨hw, hs, he⟩
  · exact .inl (hm.frame.completed h)
  · -- the body is read to its end
    cases hm with
    | tick | pop => exact .inr (.inl h)
    | found _ hb _ => exact absurd (hb.symm.trans h) nofun
    | finish _ hh _ _ =>
      rw [hh] at h
      cases h
      exact .inl (List.mem_append_right _ List.mem_cons_self)
    | part_err => cases ha
    | has_err _ he => exact absurd (ho.has_err.symm.trans he) (by decide)
    | panic hh hp =>
      simp only [orderly, hh, hp] at ha
      cases ha
    | other r c m _ _ hb _ _ _ => exact .inr (.inl (hb.trans h))
    | wait hh _ | sleep hh _ | store hh | cleaned hh _ | fail hh | again hh _ | leave hh _ =>
      rw [hh] at h
      cases h
  · rcases recv_waits hw hr with rfl | ⟨hp, hw', hsend, hpend⟩
    · exact .wait_next hn ho hd hw hs he hr
    · exact .inr (.inr ⟨hw'.trans hw, hs, he.between hp hsend hpend⟩)

/-- A response whose task waits is read for it, at once or once the task is drained. -/
theorem Answering.header {s s' : Conn} {t : Task} {f : Frame} (hn : Numbered s) (hs : t.seq = f.seq)
    (ht : Unanswered s t) (hr : s.recv (.header f) = some s') : Answering s' t f := by
  cases hh : s.receiver with
  | running pc =>
    cases pc with
    | head c =>
      have he : Expected s t := by
        rw [Unanswered, ClientTaskTimer.items, List.mem_append] at ht
        exact ht.imp_right (Or.imp_right fun hd => ⟨hd, by rw [hh]; rfl⟩)
      -- no task that waits is below the smallest seq of the delayed ones
      have hmin : s.timer.min_delay_seq ≤ t.seq := by
        have hle := hn.wf.min_le_processed
        rcases he with he | he | he
        · have hlt := (hn.sending t he).2.1
          omega
        · have hlt : s.timer.processed_seq < t.seq := hn.wf.pending_gt t he
          omega
        · exact hn.wf.min_le t he.1
      simp only [Conn.recv, hh] at hr
      split at hr
      · omega
      split at hr <;> cases hr
      · exact .inr (.inr ⟨rfl, hs, he.imp_right (Or.imp_right fun hd => ⟨hd.1, rfl⟩)⟩)
      · exact he.take hn hs (by omega)
    | _ => simp only [Conn.recv, hh] at hr; cases hr
  | _ => simp only [Conn.recv, hh] at hr; cases hr

/-! ## Tasks that wait -/

theorem SendMove.unanswered {s s' : Conn} {a : SendAct} {t : Task} (h : SendMove s a s')
    (ha : orderly s (.snd a) = true) (hu : Unanswered s t) : Unanswered s' t := by
  have hnone (hs : s.sender.task = none) (hi : s'.timer.items = s.timer.items) : Unanswered s' t :=
    hu.elim (fun ht => absurd (hs.symm.trans ht) nofun) fun ht => .inr (hi ▸ ht)
  cases h with
  | write_ok h => exact hu.imp_left fun ht => by rwa [h] at ht
  | write_err => cases ha
  | @register u h _ =>
    rcases hu with ht | ht
    · rw [h] at ht
      cases ht
      exact .inr ((ClientTaskTimer.reg_task_items s.timer t).symm.subset List.mem_cons_self)
    · exact .inr ((ClientTaskTimer.reg_task_items s.timer u).symm.subset (List.mem_cons_of_mem _ ht))
  | @op op ops last h => exact hnone (by rw [h]; rfl) (by cases op <;> rfl)
  | other pc e h _ _ _ => exact hnone (SendPc.free_task h) rfl
  | call _ h _ | count h | closed h _ | opened h _ | encode_ok h | encode_err h | unthrottle h _
  | ping h =>
    exact hnone (by rw [h]; rfl) rfl

/-- A task that waits is taken by a response of its seq, or times out in a tick. -/
theorem recv_unanswered {s s' : Conn} {a : RecvAct} {t : Task} (hn : Numbered s) (ho : Orderly s)
    (ha : a ≠ .tick) (hu : Unanswered s t) (hr : s.recv a = some s') :
    Unanswered s' t ∨ ∃ f, f.seq = t.seq ∧ Answering s' t f := by
  have hm := recv_cases hr
  rcases hu with ht | ht
  · exact .inl (.inl (hm.frame.sender ▸ ht))
  · cases hm with
    | tick => exact absurd rfl ha
    | pop hq _ => exact .inl (.inr ((ClientTaskTimer.recv_pending_items hn.wf hq).symm.subset ht))
    | @found _ f u tm _ _ hq =>
      rcases List.mem_cons.1 ((ClientTaskTimer.remove_task_items hq).subset ht) with rfl | ht
      · exact .inr ⟨f, (ClientTaskTimer.remove_task_seq hn.wf hq).symm, .inr (.inl rfl)⟩
      · exact .inl (.inr ht)
    | fail h =>
      -- the coroutine left with an empty timer
      have hempty := (ho.left (by rw [h]; rfl)).2
      rw [hempty] at ht
      cases ht
    | _ => exact .inl (.inr ht)

/-- A task that waits, or is being answered, has not been completed. -/
theorem Placed.not_completed {s : Conn} (hp : Placed s) {t : Task}
    (h : Unanswered s t ∨ s.receiver.held = some t) :
    t.id ∉ s.completed.map Prod.fst := by
  intro hm
  have hle := hp.count_le t.id
  have hpos := List.count_pos_iff.2 hm
  rw [count_places] at hle
  rcases h with (h | h) | h
  · have howned : t.id ∈ s.sender.owned := by
      cases hs : s.sender with
      | write u | reg u =>
        rw [hs] at h
        cases h
        exact List.mem_singleton_self t.id
      | _ =>
        rw [hs] at h
        cases h
    have := List.count_pos_iff.2 howned
    omega
  · have := List.count_pos_iff.2 (List.mem_map_of_mem (f := Task.id) h)
    omega
  · rw [h] at hle
    simp only [Option.toList_some, List.map_cons, List.map_nil, List.count_singleton_self] at hle
    omega

theorem Answering.not_timeout {s : Conn} (hp : Placed s) (honce : (s.completed.map Prod.fst).Nodup)
    {t : Task} {f : Frame} (h : Answering s t f) : (t.id, Outcome.timeout) ∉ s.completed := by
  intro hm
  have hid : t.id ∈ s.completed.map Prod.fst := List.mem_map_of_mem (f := Prod.fst) hm
  rcases h with h | h | ⟨-, -, h⟩
  · cases List.inj_on_of_nodup_map honce h hm rfl
  · have hheld : s.receiver.held = some t := by rw [RecvState.held_eq, h]; rfl
    exact hp.not_completed (.inr hheld) hid
  · refine hp.not_completed (.inl ?_) hid
    rw [Unanswered, ClientTaskTimer.items, List.mem_append]
    exact h.imp_right (Or.imp_right And.left)

end OccamsRpc.Conn
