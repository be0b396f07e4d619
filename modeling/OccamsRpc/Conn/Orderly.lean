import OccamsRpc.Conn.Shutdown
/-!
# Connections on which nothing fails

Every request encodes and is written, every read succeeds, and the owner ends the
connection by dropping its `ClientStream`. Then the coroutine leaves only when the
timer is empty, and completes no task with the IO error.
-/
open Lib

namespace OccamsRpc.Conn

/-- The step is not a failure of the codec, of the transport or of the peer's
framing, nor `set_error_and_exit`. -/
def orderly (s : Conn) : Act → Bool
  | .snd (.encoded ok) | .snd (.written ok) => ok
  | .snd .set_error_and_exit => false
  | .rcv .header_err | .rcv .part_err => false
  | .rcv (.part has_blob) =>
    match s.receiver with
    | .running (.hold f _ st) => match next_part f has_blob st with | .panic => false | _ => true
    | _ => true
  | _ => true

/-- The drop has begun. -/
def SendPc.dropping : SendPc → Bool
  | .run ops last => last && ops.isSuffixOf drop_ops
  | .gone => true
  | _ => false

/-- The owner makes calls that succeed, or drops the stream. -/
def SendPc.orderly : SendPc → Bool
  | .run ops last => last && ops.isSuffixOf drop_ops
  | .closing => false
  | _ => true

/-- The coroutine found `closed` set. -/
def RecvPc.shut : RecvPc → Bool
  | .drain | .emptied | .head false => true
  | _ => false

/-- The receiver has seen that the stream is closed. -/
def RecvState.shut : RecvState → Bool
  | .suspended pc | .ticking pc | .sent pc | .running pc => pc.shut
  | _ => false

/-- Nothing has gone wrong: no error was stored, no task got an IO error, and if the stream
is closed its owner has dropped it. The receiver leaves only with an empty table. -/
structure Orderly (s : Conn) : Prop where
  has_err : s.has_err = false
  close_msgs : s.close_msgs = 0
  sender : s.sender.orderly = true
  /-- Only the drop closes the stream. -/
  dropped : s.closed = true ∨ s.close_dropped = true ∨ s.timer.reg_stopped_flag = true →
    s.sender.dropping = true
  shut : s.receiver.shut = true → s.closed = true
  emptied : s.receiver = .running .emptied → s.timer.pending_tasks = []
  left : s.receiver.live = false → s.closed = true ∧ s.timer.items = []
  panicked : s.receiver ≠ .panicked
  no_io : ∀ p ∈ s.completed, p.2 ≠ .io

theorem SendPc.dropping_task {pc : SendPc} (h : pc.dropping = true) : pc.task = none := by
  cases pc <;> first | rfl | cases h

/-- The ops left of a drop. -/
theorem suffix_drop_ops {op : Op} {ops : List Op} (h : (op :: ops).isSuffixOf drop_ops = true) :
    ops.isSuffixOf drop_ops = true ∧
      (op = .close_drop ∨ op = .stop_reg_task ∨ op = .store_closed) := by
  rw [List.isSuffixOf_iff_suffix] at h ⊢
  refine ⟨(List.suffix_cons op ops).trans h, ?_⟩
  have hm : op ∈ drop_ops := h.subset List.mem_cons_self
  simpa [drop_ops] using hm

/-- Where the owner gets when nothing fails. -/
theorem send_orderly {s s' : Conn} {a : SendAct} (hs : s.sender.orderly = true)
    (hc : s.closed = true → s.sender.dropping = true) (ha : orderly s (.snd a) = true)
    (h : s.send a = some s') :
    s'.sender.orderly = true ∧ s'.has_err = s.has_err ∧
      (s.sender.dropping = true → s'.sender.dropping = true) := by
  unfold send at h
  split at h
  all_goals try simp only [Option.some.injEq, reduceCtorEq] at h
  all_goals rename_i hpc
  all_goals rw [hpc] at hs hc ⊢
  case h_3 =>
    split at h <;> cases h
    case isTrue hcl => cases hc hcl
    case isFalse => exact ⟨rfl, rfl, nofun⟩
  case h_17 =>
    -- the drop is done
    simp only [SendPc.orderly, Bool.and_eq_true] at hs
    rw [hs.1] at h
    cases h
    exact ⟨rfl, rfl, fun _ => rfl⟩
  case h_18 op ops last =>
    simp only [SendPc.orderly, Bool.and_eq_true] at hs
    obtain ⟨hops, hop⟩ := suffix_drop_ops hs.2
    subst h
    simp only [SendPc.orderly, SendPc.dropping, hs.1, hops, Bool.and_self, implies_true, and_true, true_and]
    rcases hop with rfl | rfl | rfl <;> rfl
  case h_15 => cases hs
  case h_14 => cases ha
  -- encoding and writing succeed
  all_goals try (simp only [orderly] at ha; subst ha; simp only [if_true] at h)
  all_goals try split at h
  all_goals cases h
  all_goals exact ⟨rfl, rfl, fun hd => by cases hd⟩

/-- What the owner does to the rest of the connection then: it closes only in the
drop, and registers only before it. -/
structure SendFine (s s' : Conn) : Prop where
  close_msgs : s'.close_msgs = s.close_msgs
  completed : s'.completed = s.completed
  closes : s.sender.dropping = true ∨ s'.closed = s.closed ∧ s'.close_dropped = s.close_dropped ∧
    s'.timer.reg_stopped_flag = s.timer.reg_stopped_flag
  timer : s.sender.dropping = false ∨ s'.timer.pending_tasks = s.timer.pending_tasks ∧
    s'.timer.items = s.timer.items

theorem SendMove.fine {s s' : Conn} {a : SendAct} (hs : s.sender.orderly = true)
    (h : SendMove s a s') (hc : s.closed = true → s.sender.dropping = true)
    (ha : orderly s (.snd a) = true) : SendFine s s' := by
  cases h with
  | closed h hcl =>
    have hd := hc hcl
    rw [h] at hd
    cases hd
  | encode_err | write_err => cases ha
  | @op op ops last h =>
    have hd : s.sender.dropping = true := by
      rw [h] at hs ⊢
      exact hs
    rw [h, SendPc.orderly, Bool.and_eq_true] at hs
    obtain ⟨-, rfl | rfl | rfl⟩ := suffix_drop_ops hs.2 <;>
      exact ⟨rfl, rfl, .inl hd, .inr ⟨rfl, rfl⟩⟩
  | register h _ => exact ⟨rfl, rfl, .inr ⟨rfl, rfl, rfl⟩, .inl (by rw [h]; rfl)⟩
  | _ => exact ⟨rfl, rfl, .inr ⟨rfl, rfl, rfl⟩, .inr ⟨rfl, rfl⟩⟩

theorem Orderly.send {s s' : Conn} {a : SendAct} (ho : Orderly s) (ha : orderly s (.snd a) = true)
    (h : s.send a = some s') : Orderly s' := by
  have hc (hcl : s.closed = true) := ho.dropped (.inl hcl)
  obtain ⟨hsender, herr, hdrop⟩ := send_orderly ho.sender hc ha h
  have hf := (send_cases h).frame
  have hfine := (send_cases h).fine ho.sender hc ha
  -- once the stream is closed nothing is registered
  have htimer (hcl : s.closed = true) := hfine.timer.resolve_left (by simp [hc hcl])
  constructor
  · rw [herr]
    exact ho.has_err
  · rw [hfine.close_msgs]
    exact ho.close_msgs
  · exact hsender
  · intro hcl
    rcases hfine.closes with hd | ⟨h1, h2, h3⟩
    · exact hdrop hd
    · rw [h1, h2, h3] at hcl
      exact hdrop (ho.dropped hcl)
  · rw [hf.receiver]
    exact fun hr => hf.closed (ho.shut hr)
  · rw [hf.receiver]
    intro hr
    have hcl : s.closed = true := ho.shut (by rw [hr]; rfl)
    rw [(htimer hcl).1]
    exact ho.emptied hr
  · rw [hf.receiver]
    intro hr
    obtain ⟨hcl, hi⟩ := ho.left hr
    exact ⟨hf.closed hcl, (htimer hcl).2.trans hi⟩
  · rw [hf.receiver]
    exact ho.panicked
  · rw [hfine.completed]
    exact ho.no_io

/-! ## The coroutine -/

/-- What the coroutine does when nothing fails: it closes the stream only after
the owner has, and leaves only from an empty timer. -/
structure RecvFine (s s' : Conn) : Prop where
  close_msgs : s'.close_msgs ≤ s.close_msgs
  close_dropped : s'.close_dropped = s.close_dropped
  reg_stopped : s'.timer.reg_stopped_flag = s.timer.reg_stopped_flag
  closed : s'.closed = true → s.closed = true ∨ 0 < s.close_msgs ∨ s.close_dropped = true ∨
    s.receiver.live = false
  shut : s'.receiver.shut = true → s.receiver.shut = true ∨ s.closed = true
  emptied : s'.receiver = .running .emptied → s'.timer.pending_tasks = []
  leaves : s.receiver.live = true → s'.receiver.live = false →
    s.receiver = .running .emptied ∧ s.timer.tasks_empty = true ∧ s'.timer = s.timer ∧
    s'.receiver = .exiting

/-- The coroutine moves on inside its loop. -/
theorem RecvFine.goto {s s' : Conn} (hm : s'.close_msgs = s.close_msgs)
    (hd : s'.close_dropped = s.close_dropped)
    (ht : s'.timer.reg_stopped_flag = s.timer.reg_stopped_flag) (hc : s'.closed = s.closed)
    (hl : s'.receiver.live = true)
    (hs : s'.receiver.shut = true → s.receiver.shut = true ∨ s.closed = true)
    (he : s'.receiver = .running .emptied → s'.timer.pending_tasks = []) : RecvFine s s' where
  close_msgs := Nat.le_of_eq hm
  close_dropped := hd
  reg_stopped := ht
  closed h := .inl (hc ▸ h)
  shut := hs
  emptied := he
  leaves _ h := by rw [hl] at h; cases h

/-- It is not in the part that finds `closed` set. -/
theorem RecvFine.inside {s s' : Conn} (hm : s'.close_msgs = s.close_msgs)
    (hd : s'.close_dropped = s.close_dropped)
    (ht : s'.timer.reg_stopped_flag = s.timer.reg_stopped_flag) (hc : s'.closed = s.closed)
    (hl : s'.receiver.live = true) (hs : s'.receiver.shut = false) : RecvFine s s' := by
  refine .goto hm hd ht hc hl (fun h => ?_) fun he => ?_
  · rw [hs] at h
    cases h
  · rw [he] at hs
    cases hs

/-- One round of a receive loop. -/
theorem RecvFine.pop {s : Conn} {tm : ClientTaskTimer Task} (h : s.timer.recv_pending = some tm)
    (hr : s.receiver.drains = true) : RecvFine s { s with timer := tm } := by
  obtain ⟨t, ts, -, rfl⟩ := ClientTaskTimer.recv_pending_eq h
  refine ⟨Nat.le_refl _, rfl, rfl, .inl, .inl, fun he => ?_, fun hl hl' => ?_⟩
  · have he : s.receiver = .running .emptied := he
    rw [he] at hr
    cases hr
  · exact absurd (hl.symm.trans hl') (by decide)

theorem RecvFine.take (s : Conn) (f : Frame) : RecvFine s (s.take f) := by
  unfold Conn.take
  split
  case h_1 t tm hq => exact .inside rfl rfl (ClientTaskTimer.remove_task_keeps hq).2.2.2 rfl rfl rfl
  case h_2 tm hq =>
    obtain ⟨rfl, -⟩ := ClientTaskTimer.remove_task_none hq
    exact .inside rfl rfl rfl rfl rfl rfl

/-- The receive loops. -/
theorem RecvFine.loop {s s' : Conn} {k : Option Conn} (hr : s.receiver.drains = true)
    (h : (match s.timer.recv_pending with | some tm => some { s with timer := tm } | none => k) = some s')
    (hk : s.timer.pending_tasks = [] → k = some s' → RecvFine s s') : RecvFine s s' := by
  split at h
  · cases h
    exact .pop ‹_› hr
  · exact hk (recv_pending_none ‹_›) h

/-- A step of the exit. -/
theorem RecvFine.exit {s s' : Conn} (hl : s.receiver.live = false)
    (hm : s'.close_msgs = s.close_msgs) (hd : s'.close_dropped = s.close_dropped)
    (ht : s'.timer.reg_stopped_flag = s.timer.reg_stopped_flag) (hl' : s'.receiver.live = false) :
    RecvFine s s' where
  close_msgs := Nat.le_of_eq hm
  close_dropped := hd
  reg_stopped := ht
  closed _ := .inr (.inr (.inr hl))
  shut h := by revert h hl'; cases s'.receiver <;> simp [RecvState.shut, RecvState.live]
  emptied h := by rw [h] at hl'; cases hl'
  leaves h := by rw [hl] at h; cases h

theorem recv_next_fine {s s' : Conn} (he : s.has_err = false) (h : s.recv_next s.receiver = some s') :
    RecvFine s s' := by
  cases hr : s.receiver with
  | ticking pc =>
    simp only [recv_next, hr, he, Bool.false_eq_true, if_false, Option.some.injEq] at h
    subst h
    exact .goto rfl rfl rfl rfl rfl (by rw [hr]; exact .inl) fun he => by cases he
  | sent pc =>
    rw [hr] at h
    refine .loop (by rw [hr]; rfl) h ?_
    rintro hp ⟨⟩
    exact .goto rfl rfl rfl rfl rfl (by rw [hr]; exact .inl) fun _ => hp
  | running pc =>
    rw [hr] at h
    cases pc with
    | top =>
      simp only [recv_next] at h
      split at h <;> cases h
      · exact .goto rfl rfl rfl rfl rfl (fun _ => .inr ‹_›) fun he => by cases he
      · exact .inside rfl rfl rfl rfl rfl rfl
    | drain =>
      refine .loop (by rw [hr]; rfl) h ?_
      rintro hp ⟨⟩
      exact .goto rfl rfl rfl rfl rfl (by rw [hr]; exact fun _ => .inl rfl) fun _ => hp
    | emptied =>
      simp only [recv_next, he, Bool.or_false] at h
      split at h <;> cases h
      · exact ⟨Nat.le_refl _, rfl, rfl, .inl, (fun hs => by cases hs), (fun he => by cases he),
          fun _ _ => ⟨hr, ‹_›, rfl, rfl⟩⟩
      · exact .goto rfl rfl rfl rfl rfl (by rw [hr]; exact fun _ => .inl rfl) fun he => by cases he
    | wait f =>
      simp only [recv_next] at h
      split at h
      · cases h
        exact .take s f
      · split at h <;> cases h <;> exact .inside rfl rfl rfl rfl rfl rfl
    | waiting f =>
      refine .loop (by rw [hr]; rfl) h ?_
      intro _ h
      split at h <;> cases h
      · exact .take s f
      · exact .inside rfl rfl rfl rfl rfl rfl
    | head c => cases h
    | hold f t st => cases h
    | dump f g => cases h
  | cleaning =>
    rw [hr] at h
    refine .loop (by rw [hr]; rfl) h ?_
    rintro - ⟨⟩
    exact .exit (by rw [hr]; rfl) rfl rfl rfl rfl
  | exiting | failing =>
    rw [hr] at h
    cases h
    exact .exit (by rw [hr]; rfl) rfl rfl rfl rfl
  | testing =>
    simp only [recv_next, hr] at h
    split at h <;> cases h <;> exact .exit (by rw [hr]; rfl) rfl rfl rfl rfl
  | suspended pc => rw [hr] at h; cases h
  | returned => rw [hr] at h; cases h
  | panicked => rw [hr] at h; cases h

theorem recv_fine {s s' : Conn} {a : RecvAct} (he : s.has_err = false)
    (ha : orderly s (.rcv a) = true) (h : s.recv a = some s') : RecvFine s s' := by
  unfold recv at h
  split at h
  case h_1 => exact recv_next_fine he h
  case h_2 hr =>
    cases h
    exact .goto rfl rfl rfl rfl rfl (by rw [hr]; exact .inl) fun he => by cases he
  case h_3 hr =>
    cases h
    have hreg :=
      (ClientTaskTimer.adjust_task_queue_keeps (Prod.eta s.timer.adjust_task_queue).symm).2.2.2
    exact .goto rfl rfl hreg rfl (by rw [hr]; rfl) .inl fun he => by rw [hr] at he; cases he
  case h_4 =>
    split at h
    · cases h
      exact .inside rfl rfl rfl rfl rfl rfl
    · split at h <;> cases h
      · exact .inside rfl rfl rfl rfl rfl rfl
      · exact .take s _
  case h_5 | h_9 | h_12 => cases ha
  case h_6 hr =>
    split at h <;> cases h
    rename_i hclose
    exact ⟨Nat.sub_le _ _, rfl, rfl, fun _ => .inr (hclose.imp_right .inl), (fun hs => by cases hs),
      (fun he => by cases he), fun _ hl => by cases hl⟩
  case h_7 hr =>
    cases h
    exact .goto rfl rfl rfl rfl rfl (by rw [hr]; exact .inl) fun he => by cases he
  case h_8 hr =>
    simp only [orderly, hr] at ha
    split at h <;> cases h
    · exact .inside rfl rfl rfl rfl rfl rfl
    · exact .inside rfl rfl rfl rfl rfl rfl
    · exact .inside rfl rfl rfl rfl rfl rfl
    · rename_i hp
      rw [hp] at ha
      cases ha
  case h_10 =>
    split at h <;> cases h
    exact .inside rfl rfl rfl rfl rfl rfl
  case h_11 | h_13 =>
    cases h
    exact .inside rfl rfl rfl rfl rfl rfl
  case h_14 => cases h

/-- After the coroutine has left its loop, the timer stays empty. -/
theorem RecvMove.stays_empty {s s' : Conn} {a : RecvAct} (hl : s.receiver.live = false)
    (hi : s.timer.items = []) (h : RecvMove s a s') :
    s'.timer.items = [] ∧ s'.completed = s.completed ∧ s'.receiver ≠ .panicked := by
  have hpend : s.timer.pending_tasks = [] := (List.append_eq_nil_iff.1 hi).1
  cases h with
  | tick h _ | wait h _ | sleep h _ | finish _ h _ _ | part_err h | has_err h _ | panic h _ =>
    rw [h] at hl
    cases hl
  | found h _ _ | other _ _ _ h _ _ _ _ _ => exact absurd (h.symm.trans hl) (by decide)
  | pop h _ =>
    obtain ⟨t, ts, hts, -⟩ := ClientTaskTimer.recv_pending_eq h
    rw [hpend] at hts
    cases hts
  | fail h =>
    obtain ⟨hf, he⟩ := ClientTaskTimer.fail_tasks_items s.timer
    have hout : s.timer.fail_tasks.1 = [] := by
      rw [hf]
      exact (List.append_eq_nil_iff.1 hi).2
    exact ⟨he.trans hpend, by simp [hout], nofun⟩
  | store h | cleaned h _ | again h _ | leave h _ => exact ⟨hi, rfl, nofun⟩

/-- In the loop only a read that fails completes a task with the IO error. -/
theorem RecvMove.no_io {s s' : Conn} {a : RecvAct} (hl : s.receiver.live = true)
    (ha : a ≠ .part_err) (h : RecvMove s a s') :
    ∀ p ∈ s'.completed, p ∈ s.completed ∨ p.2 ≠ .io := by
  intro p hp
  cases h with
  | tick _ _ =>
    refine (List.mem_append.1 hp).imp_right fun hp => ?_
    obtain ⟨t, -, rfl⟩ := List.mem_map.1 hp
    nofun
  | finish _ _ _ _ =>
    refine (List.mem_append.1 hp).imp_right fun hp => ?_
    rw [List.mem_singleton] at hp
    subst hp
    nofun
  | part_err => exact absurd rfl ha
  | fail h =>
    rw [h] at hl
    cases hl
  | _ => exact .inl hp

theorem Orderly.recv {s s' : Conn} {a : RecvAct} (ho : Orderly s) (ha : orderly s (.rcv a) = true)
    (h : s.recv a = some s') : Orderly s' := by
  have hm := recv_cases h
  have hf := hm.frame
  have hfine := recv_fine ho.has_err ha h
  -- from the loop the exit is taken with an empty timer
  have hleft (hl : s.receiver.live = true) (hl' : s'.receiver.live = false) :
      (s'.closed = true ∧ s'.timer.items = []) ∧ s'.receiver = .exiting := by
    obtain ⟨hr, hempty, ht, hr'⟩ := hfine.leaves hl hl'
    refine ⟨⟨hf.closed (ho.shut (by rw [hr]; rfl)), ?_⟩, hr'⟩
    rw [ht, ClientTaskTimer.items, ho.emptied hr, (ClientTaskTimer.tasks_empty_iff _).1 hempty]
    rfl
  constructor
  · rw [hf.has_err]
    exact ho.has_err
  · exact Nat.le_zero.1 (ho.close_msgs ▸ hfine.close_msgs)
  · rw [hf.sender]
    exact ho.sender
  · rw [hf.sender, hfine.close_dropped, hfine.reg_stopped]
    rintro (hc | hc)
    · rcases hfine.closed hc with hc | hc | hc | hc
      · exact ho.dropped (.inl hc)
      · rw [ho.close_msgs] at hc
        cases hc
      · exact ho.dropped (.inr (.inl hc))
      · exact ho.dropped (.inl (ho.left hc).1)
    · exact ho.dropped (.inr hc)
  · intro hs
    rcases hfine.shut hs with hs | hs
    · exact hf.closed (ho.shut hs)
    · exact hf.closed hs
  · exact hfine.emptied
  · intro hl'
    cases hl : s.receiver.live with
    | true => exact (hleft hl hl').1
    | false => exact ⟨hf.closed (ho.left hl).1, (hm.stays_empty hl (ho.left hl).2).1⟩
  · intro hp
    have hl' : s'.receiver.live = false := by rw [hp]; rfl
    cases hl : s.receiver.live with
    | true =>
      have he := (hleft hl hl').2
      rw [hp] at he
      cases he
    | false => exact (hm.stays_empty hl (ho.left hl).2).2.2 hp
  · cases hl : s.receiver.live with
    | false =>
      rw [(hm.stays_empty hl (ho.left hl).2).2.1]
      exact ho.no_io
    | true =>
      intro p hp
      rcases hm.no_io hl (by rintro rfl; cases ha) p hp with hp | hp
      · exact ho.no_io p hp
      · exact hp

theorem Orderly.step {s s' : Conn} {a : Act} (ho : Orderly s) (ha : orderly s a = true)
    (h : s.step a = some s') :
    Orderly s' := by
  cases a with
  | snd a => exact ho.send ha h
  | rcv a => exact ho.recv ha h

theorem Orderly.not_givesUp {s : Conn} {a : Act} (ho : Orderly s) (ha : orderly s a = true) :
    ¬ givesUp s a = true := by
  intro hg
  unfold givesUp at hg
  split at hg
  · split at hg
    · rw [ho.has_err] at hg
      cases hg
    · cases hg
  · split at hg
    · rename_i hr
      split at hg
      · rename_i hp
        simp only [orderly, hr, hp] at ha
        cases ha
      · cases hg
    · cases hg
  · cases hg

/-- No task is lost. -/
theorem lost_of_orderly {s s' : Conn} {a : Act} (ho : Orderly s) (ha : orderly s a = true)
    (h : s.step a = some s') (hl : s.lost_send = [] ∧ s.lost_recv = []) :
    s'.lost_send = [] ∧ s'.lost_recv = [] := by
  have henc : ¬ encodeFails s a := by
    rintro rfl
    cases ha
  refine ⟨?_, ?_⟩
  · rcases lost_send_step h with ⟨he, -⟩ | ⟨-, hn⟩
    · rw [he]
      exact hl.1
    · exact absurd hn henc
  · rcases lost_recv_step h with ⟨he, -⟩ | ⟨-, hn⟩
    · rw [he]
      exact hl.2
    · exact absurd hn (ho.not_givesUp ha)

end OccamsRpc.Conn
