import OccamsRpc.Conn.Machine
/-!
# What a step of the connection can do

One inversion lemma for each side. Steps that only move a program counter and
raise flags are one case (`other`); the invariants need no more about them.
-/
open Lib

namespace OccamsRpc.Conn

/-! ## The owner's side -/

/-- The task a call still has to hand over or fail. -/
def SendPc.owned : SendPc → List Nat
  | .count id _ | .test id _ | .encode id _ => [id]
  | .write t _ | .reg t => [t.id]
  | .run ops _ => ops.filterMap fun
    | .fail id => some id
    | _ => none
  | _ => []

/-- What the call has added to `pending_task_count` and not handed over or taken
back. -/
def SendPc.counted : SendPc → Nat
  | .test .. | .encode .. | .write .. | .reg .. => 1
  | .run ops _ => ops.count .fetch_sub
  | _ => 0

/-- The task being sent, from its request's first byte to its registration. -/
def SendPc.task : SendPc → Option Task
  | .write t _ | .reg t => some t
  | _ => none

/-- The call is past the test of `closed` and has not registered yet. -/
def SendPc.active : SendPc → Bool
  | .encode .. | .write .. | .reg .. => true
  | _ => false

/-- Ops that touch no task and no counter. -/
def Op.plain : Op → Bool
  | .fail _ | .fetch_sub | .ret .. => false
  | _ => true

/-- No `send_task` call is in progress. -/
def SendPc.free : SendPc → Bool
  | .idle | .ping_test | .ping_encode | .ping_write _ | .flush | .closing | .gone => true
  | .run ops _ => ops.all Op.plain
  | _ => false

theorem SendPc.free_owned {pc : SendPc} (h : pc.free = true) : pc.owned = [] := by
  cases pc with
  | run ops last =>
    simp only [free, List.all_eq_true] at h
    simp only [owned, List.filterMap_eq_nil_iff]
    intro op hop
    have := h op hop
    cases op <;> simp_all [Op.plain]
  | _ => first | rfl | simp [free] at h

theorem SendPc.free_counted {pc : SendPc} (h : pc.free = true) : pc.counted = 0 := by
  cases pc with
  | run ops last =>
    simp only [free, List.all_eq_true] at h
    simp only [counted, List.count_eq_zero]
    intro hop
    exact absurd (h _ hop) (by decide)
  | _ => first | rfl | simp [free] at h

theorem SendPc.free_task {pc : SendPc} (h : pc.free = true) : pc.task = none := by
  cases pc <;> first | rfl | simp [free] at h

theorem SendPc.free_active {pc : SendPc} (h : pc.free = true) : pc.active = false := by
  cases pc <;> first | rfl | simp [free] at h

/-- What a step of the owner can do. Proofs about runs are by cases on this relation. -/
inductive SendMove (s : Conn) : SendAct → Conn → Prop
  | call {b} (nf : Bool) (h : s.sender = .idle) (hnf : nf = (b || s.inflight + 1 > s.thresholds)) :
    SendMove s (.send_task b) { s with sender := .count s.next_id nf, next_id := s.next_id + 1 }
  | count {id nf} (h : s.sender = .count id nf) :
    SendMove s .next { s with
      sender := .test id nf,
        timer := { s.timer with pending_task_count := s.timer.pending_task_count + 1 } }
  | closed {id nf} (h : s.sender = .test id nf) (hc : s.closed = true) :
    SendMove s .next { s with sender := .run (closed_ops id) false }
  | opened {id nf} (h : s.sender = .test id nf) (hc : s.closed = false) :
    SendMove s .next { s with sender := .encode id nf }
  | encode_ok {id nf} (h : s.sender = .encode id nf) :
    SendMove s (.encoded true) { s with
      sender := .write ⟨id, s.next_seq⟩ nf, next_seq := s.next_seq + 1,
        assigned := s.assigned ++ [(id, s.next_seq)],
      wrote := s.wrote ++ [⟨id, s.next_seq⟩] }
  | encode_err {id nf} (h : s.sender = .encode id nf) :
    SendMove s (.encoded false) { s with
      sender := .run (encode_err_ops id) false, next_seq := s.next_seq + 1,
      assigned := s.assigned ++ [(id, s.next_seq)], lost_send := s.lost_send ++ [id] }
  | write_ok {t nf} (h : s.sender = .write t nf) :
    SendMove s (.written true) { s with sender := .reg t }
  | write_err {t nf} (h : s.sender = .write t nf) :
    SendMove s (.written false) { s with sender := .run (write_err_ops t.id) false }
  | register {t} (h : s.sender = .reg t) (hroom : s.timer.pending_tasks.length < 2 * s.thresholds) :
    SendMove s .registered { s with
      sender := .throttle t.id, timer := s.timer.reg_task t, pushed := s.pushed ++ [t.id] }
  | unthrottle {id} (h : s.sender = .throttle id) (hle : s.inflight ≤ s.thresholds) :
    SendMove s .throttled { s with sender := .idle, returned := s.returned ++ [(id, true)] }
  | ping (h : s.sender = .ping_encode) :
    SendMove s .next { s with
      sender := .ping_write s.next_seq, next_seq := s.next_seq + 1,
        pinged := s.pinged ++ [s.next_seq] }
  | op {op ops last} (h : s.sender = .run (op :: ops) last) :
    SendMove s .next { s.exec op with sender := .run ops last }
  | other {a} (pc : SendPc) (e : Bool) (h : s.sender.free = true) (h' : pc.free = true)
    (he : s.has_err = true → e = true) (ha : ∀ ok, a ≠ .encoded ok) :
    SendMove s a { s with sender := pc, has_err := e }

theorem send_cases {s s' : Conn} {a : SendAct} (h : s.send a = some s') : SendMove s a s' := by
  unfold send at h
  split at h
  all_goals try simp only [Option.some.injEq, reduceCtorEq] at h
  case h_1 hs => subst h; exact .call _ hs rfl
  case h_2 hs => subst h; exact .count hs
  case h_3 hs =>
    split at h <;> cases h
    · exact .closed hs ‹_›
    · exact .opened hs (by simpa using ‹¬ s.closed = true›)
  case h_4 hs =>
    split at h <;> cases h
    · rename_i hok; subst hok; exact .encode_ok hs
    · rename_i hok
      rw [Bool.not_eq_true] at hok
      subst hok
      exact .encode_err hs
  case h_5 hs =>
    split at h <;> cases h
    · rename_i hok; subst hok; exact .write_ok hs
    · rename_i hok
      rw [Bool.not_eq_true] at hok
      subst hok
      exact .write_err hs
  case h_6 hs =>
    split at h <;> cases h
    exact .register hs ‹_›
  case h_7 hs =>
    split at h <;> cases h
    exact .unthrottle hs ‹_›
  case h_10 hs => subst h; exact .ping hs
  case h_18 hs => subst h; exact .op hs
  -- what is left moves between calls that have no task
  all_goals rename_i hs
  case h_14 => subst h; exact .other .closing true (by rw [hs]; rfl) rfl (fun _ => rfl) nofun
  all_goals try split at h
  all_goals cases h
  all_goals exact .other _ _ (by rw [hs]; rfl) rfl id nofun

/-- What a call never writes, and what it only adds to. -/
structure SendFrame (s s' : Conn) : Prop where
  receiver : s'.receiver = s.receiver
  drained : s'.timer.drained = s.timer.drained
  processed_seq : s'.timer.processed_seq = s.timer.processed_seq
  closed : s.closed = true → s'.closed = true
  next_id : s.next_id ≤ s'.next_id
  taken : s'.taken = s.taken
  lost_recv : s'.lost_recv = s.lost_recv
  given_up : s'.given_up = s.given_up
  completed : s.completed ⊆ s'.completed

theorem exec_frame (s : Conn) (op : Op) : SendFrame s (s.exec op) := by
  cases op with
  | store_closed =>
    exact ⟨rfl, rfl, rfl, fun _ => rfl, Nat.le_refl _, rfl, rfl, rfl, List.Subset.refl _⟩
  | fail j => exact ⟨rfl, rfl, rfl, id, Nat.le_refl _, rfl, rfl, rfl, List.subset_append_left _ _⟩
  | _ => exact ⟨rfl, rfl, rfl, id, Nat.le_refl _, rfl, rfl, rfl, List.Subset.refl _⟩

theorem SendMove.frame {s s' : Conn} {a : SendAct} (h : SendMove s a s') : SendFrame s s' := by
  cases h with
  | call nf _ _ => exact ⟨rfl, rfl, rfl, id, Nat.le_succ _, rfl, rfl, rfl, List.Subset.refl _⟩
  | op _ => exact { exec_frame s _ with }
  | _ => exact ⟨rfl, rfl, rfl, id, Nat.le_refl _, rfl, rfl, rfl, List.Subset.refl _⟩

/-! ## The receive coroutine's side -/

/-- The frame being read and the task it is read for. -/
def RecvPc.body : RecvPc → Option (Frame × Task)
  | .hold f t _ => some (f, t)
  | _ => none

/-- The response that is being read, and its task. -/
def RecvState.body : RecvState → Option (Frame × Task)
  | .suspended pc | .ticking pc | .sent pc | .running pc => pc.body
  | _ => none

theorem RecvState.held_eq (r : RecvState) : r.held = r.body.map Prod.snd := by
  have (pc : RecvPc) : pc.held = pc.body.map Prod.snd := by cases pc <;> rfl
  cases r <;> first | rfl | exact this _

/-- The response that waits for the registration of its task. -/
def RecvPc.waits : RecvPc → Option Frame
  | .wait f | .waiting f => some f
  | _ => none

/-- The response whose task `take_task` waits for. -/
def RecvState.waits : RecvState → Option Frame
  | .suspended pc | .ticking pc | .sent pc | .running pc => pc.waits
  | _ => none

/-- A loop that receives from the pending channel. -/
def RecvState.drains : RecvState → Bool
  | .sent _ | .running .drain | .running (.waiting _) | .cleaning => true
  | _ => false

/-- `receive_loop` has not left its main loop. -/
def RecvState.live : RecvState → Bool
  | .suspended _ | .ticking _ | .sent _ | .running _ => true
  | _ => false

/-- What a step of the receiver can do. -/
inductive RecvMove (s : Conn) : RecvAct → Conn → Prop
  | tick {pc ts tm} (h : s.receiver = .ticking pc) (hq : s.timer.adjust_task_queue = (ts, tm)) :
    RecvMove s .tick { s with timer := tm, completed := s.completed ++ ts.map fun t => (t.id, .timeout) }
  | pop {tm} (h : s.timer.recv_pending = some tm) (hr : s.receiver.drains = true) :
    RecvMove s .next { s with timer := tm }
  | found {a f t tm} (hl : s.receiver.live = true) (hb : s.receiver.body = none)
    (hq : s.timer.remove_task f.seq = (some t, tm)) :
    RecvMove s a { s with timer := tm, receiver := .running (.hold f t .start), taken := s.taken ++ [t.id] }
  | wait {f c} (h : s.receiver = .running (.head c)) (hlt : s.timer.processed_seq < f.seq) :
    RecvMove s (.header f) { s with receiver := .running (.wait f) }
  | sleep {f} (h : s.receiver = .running (.waiting f)) (hlt : s.timer.processed_seq < f.seq) :
    RecvMove s .next { s with receiver := .suspended (.wait f) }
  | finish {b f t st} (pc : RecvPc) (h : s.receiver = .running (.hold f t st))
    (hpc : pc.body = none)
    (hpw : pc.waits = none) : RecvMove s (.part b) (s.complete t (.resp f) (.running pc))
  | part_err {f t st} (h : s.receiver = .running (.hold f t st)) :
    RecvMove s .part_err (s.complete t .io .exiting)
  | has_err {pc} (h : s.receiver = .ticking pc) (he : s.has_err = true) :
    RecvMove s .next (s.abandon .exiting)
  | panic {b f t st} (h : s.receiver = .running (.hold f t st)) (hp : next_part f b st = .panic) :
    RecvMove s (.part b) (s.abandon .panicked)
  | store (h : s.receiver = .exiting) :
    RecvMove s .next { s with receiver := .cleaning, closed := true }
  | cleaned (h : s.receiver = .cleaning) (hp : s.timer.pending_tasks = []) :
    RecvMove s .next { s with receiver := .failing }
  | fail (h : s.receiver = .failing) :
    RecvMove s .next { s with
      timer := s.timer.fail_tasks.2, receiver := .testing,
      completed := s.completed ++ s.timer.fail_tasks.1.map fun t => (t.id, .io) }
  | again (h : s.receiver = .testing) (hn : 0 < s.timer.pending_task_count) :
    RecvMove s .next { s with receiver := .cleaning }
  | leave (h : s.receiver = .testing) (hn : s.timer.pending_task_count = 0) :
    RecvMove s .next { s with receiver := .returned, given_up := 0 }
  | other {a} (r : RecvState) (c : Bool) (m : Nat) (h : s.receiver.live = true)
    (hr : r.live = true ∨ r = .exiting)
    (hb : r.body = s.receiver.body)
    (hw : r.waits = none ∨ r.waits = s.receiver.waits ∧ ∀ pc, r ≠ .suspended pc)
    (hg : r.guards ≤ s.receiver.guards) (hc : s.closed = true → c = true) :
    RecvMove s a { s with receiver := r, closed := c, close_msgs := m }

/-- What the coroutine never writes, and that it undoes no completion. -/
structure RecvFrame (s s' : Conn) : Prop where
  sender : s'.sender = s.sender
  next_seq : s'.next_seq = s.next_seq
  next_id : s'.next_id = s.next_id
  has_err : s'.has_err = s.has_err
  closed : s.closed = true → s'.closed = true
  assigned : s'.assigned = s.assigned
  wrote : s'.wrote = s.wrote
  pushed : s'.pushed = s.pushed
  returned : s'.returned = s.returned
  lost_send : s'.lost_send = s.lost_send
  completed : s.completed ⊆ s'.completed

theorem RecvMove.frame {s s' : Conn} {a : RecvAct} (h : RecvMove s a s') : RecvFrame s s' := by
  cases h with
  | store h => exact ⟨rfl, rfl, rfl, rfl, fun _ => rfl, rfl, rfl, rfl, rfl, rfl, List.Subset.refl _⟩
  | other r c m _ _ _ _ _ hc =>
    exact ⟨rfl, rfl, rfl, rfl, hc, rfl, rfl, rfl, rfl, rfl, List.Subset.refl _⟩
  | _ =>
    refine ⟨rfl, rfl, rfl, rfl, id, rfl, rfl, rfl, rfl, rfl, ?_⟩
    first | exact List.Subset.refl _ | exact List.subset_append_left _ _

theorem recv_pending_none {tm : ClientTaskTimer Task} (h : tm.recv_pending = none) :
    tm.pending_tasks = [] := by
  unfold ClientTaskTimer.recv_pending at h
  split at h
  · assumption
  · cases h

/-- The coroutine only moves on. -/
theorem RecvMove.goto {s : Conn} {a : RecvAct} {r r' : RecvState} (hs : s.receiver = r)
    (h : r.live = true := by rfl)
    (hr : r'.live = true ∨ r' = .exiting := by first | exact .inl rfl | exact .inr rfl)
    (hb : r'.body = r.body := by rfl)
    (hw : r'.waits = none ∨ r'.waits = r.waits ∧ ∀ pc, r' ≠ .suspended pc := by
      first | exact .inl rfl | exact .inr ⟨rfl, nofun⟩)
    (hg : r'.guards ≤ r.guards := by first | exact Nat.zero_le _ | exact Nat.le_refl _) :
    RecvMove s a { s with receiver := r' } :=
  .other r' s.closed s.close_msgs (hs ▸ h) hr (hs ▸ hb) (hs ▸ hw) (hs ▸ hg) id

/-- `take_task` finds the task, or the body is dumped. -/
theorem take_move {s : Conn} {a : RecvAct} {f : Frame} (hl : s.receiver.live = true)
    (hb : s.receiver.body = none) :
    RecvMove s a (s.take f) := by
  unfold take
  split
  case h_1 t tm hq => exact .found hl hb hq
  case h_2 tm hq =>
    obtain ⟨rfl, -⟩ := ClientTaskTimer.remove_task_none hq
    exact .other (.running (.dump f false)) s.closed s.close_msgs hl (.inl rfl) hb.symm (.inl rfl)
      (Nat.zero_le _) id

/-- The receive loops. -/
theorem pop_move {s s' : Conn} {k : Option Conn} (hr : s.receiver.drains = true)
    (h : (match s.timer.recv_pending with | some tm => some { s with timer := tm } | none => k) = some s')
    (hk : s.timer.pending_tasks = [] → k = some s' → RecvMove s .next s') :
    RecvMove s .next s' := by
  split at h
  · cases h; exact .pop ‹_› hr
  · exact hk (recv_pending_none ‹_›) h

theorem recv_next_cases {s s' : Conn} (h : s.recv_next s.receiver = some s') :
    RecvMove s .next s' := by
  cases hs : s.receiver with
  | ticking pc =>
    simp only [recv_next, hs] at h
    split at h <;> cases h
    · exact .has_err hs ‹_›
    · exact .goto hs rfl
  | sent pc =>
    rw [hs] at h
    refine pop_move (by rw [hs]; rfl) h ?_
    rintro - ⟨⟩
    exact .goto hs rfl
  | running pc =>
    rw [hs] at h
    cases pc with
    | top =>
      simp only [recv_next] at h
      split at h <;> cases h <;> exact .goto hs
    | drain =>
      refine pop_move (by rw [hs]; rfl) h ?_
      rintro - ⟨⟩
      exact .goto hs
    | emptied =>
      simp only [recv_next] at h
      split at h <;> cases h <;> exact .goto hs
    | wait f =>
      simp only [recv_next] at h
      split at h
      · cases h; exact take_move (by rw [hs]; rfl) (by rw [hs]; rfl)
      · split at h <;> cases h <;> exact .goto hs
    | waiting f =>
      refine pop_move (by rw [hs]; rfl) h ?_
      intro _ h
      split at h <;> cases h
      · exact take_move (by rw [hs]; rfl) (by rw [hs]; rfl)
      · exact .sleep hs (by omega)
    | head c => cases h
    | hold f t st => cases h
    | dump f g => cases h
  | exiting => rw [hs] at h; cases h; exact .store hs
  | cleaning =>
    rw [hs] at h
    refine pop_move (by rw [hs]; rfl) h ?_
    rintro hp ⟨⟩
    exact .cleaned hs hp
  | failing => rw [hs] at h; cases h; exact .fail hs
  | testing =>
    simp only [recv_next, hs] at h
    split at h <;> cases h
    · exact .again hs ‹_›
    · exact .leave hs (by omega)
  | suspended pc => rw [hs] at h; cases h
  | returned => rw [hs] at h; cases h
  | panicked => rw [hs] at h; cases h

theorem recv_cases {s s' : Conn} {a : RecvAct} (h : s.recv a = some s') : RecvMove s a s' := by
  unfold recv at h
  split at h
  case h_1 => exact recv_next_cases h
  case h_2 hs => cases h; exact .goto hs rfl
  case h_3 hs => cases h; exact .tick hs rfl
  case h_4 hs =>
    split at h
    · cases h; exact .goto hs
    · split at h <;> cases h
      · exact .wait hs ‹_›
      · exact take_move (by rw [hs]; rfl) (by rw [hs]; rfl)
  case h_6 hs =>
    split at h <;> cases h
    exact .other (.running .top) true (s.close_msgs - 1) (by rw [hs]; rfl) (.inl rfl) (by rw [hs]; rfl)
      (.inl rfl) (Nat.zero_le _) fun _ => rfl
  case h_8 hs =>
    split at h <;> cases h
    · exact .goto hs
    · exact .finish .top hs rfl rfl
    · exact .finish (.dump _ true) hs rfl rfl
    · exact .panic hs ‹_›
  case h_9 hs =>
    split at h <;> cases h
    exact .part_err hs
  case h_10 hs =>
    split at h <;> cases h
    exact .goto hs
  case h_14 => cases h
  all_goals rename_i hs; cases h; exact .goto hs

end OccamsRpc.Conn
