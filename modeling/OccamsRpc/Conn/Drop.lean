import OccamsRpc.Client.Age
import OccamsRpc.Conn.Arrived
import OccamsRpc.Conn.Reading
/-!
# Dropping the stream

The connection beside a clock and its socket. The peer sends responses, and their bytes
come when they come; the coroutine reads what is there. The ticker counts the seconds of
`task_timeout`; after the drop the coroutine also reads headers under `read_timeout`, as
it reads bodies, so a silence of the peer can end the connection first.
-/
open Lib

namespace OccamsRpc.Conn

/-- What is read under `io_with_timeout!`. -/
def RecvPc.timed : RecvPc → Bool
  | .head false | .dump .. => true
  | .hold _ _ st => st ≠ .start
  | _ => false

/-- The read under `read_timeout` that is in progress. -/
def RecvState.read : RecvState → Option RecvPc
  | .suspended pc | .ticking pc | .sent pc | .running pc => if pc.timed then some pc else none
  | _ => none

/-- How many bytes the coroutine reads next. -/
def RecvState.wants (r : RecvState) : Nat :=
  match r.pc with
  | some pc => pc.wants
  | none => 0

/-- What is left of the body that the coroutine is in. -/
def RecvState.rest (r : RecvState) : Nat :=
  match r.pc.bind RecvPc.inBody with
  | some (f, o) => f.bodyLen - o
  | none => 0

/-- The bytes of a response. -/
def Frame.wireLen (f : Frame) : Nat := RPC_RESP_HEADER_LEN + f.bodyLen

/-- The responses that are there as a whole, in the first `n` bytes of those that follow. -/
def landed : Nat → List Frame → List Frame
  | _, [] => []
  | n, f :: fs => if f.wireLen ≤ n then f :: landed (n - f.wireLen) fs else []

/-- The task that waits for the response to `k`. -/
def awaiting (s : Conn) (k : Nat) : Option Task :=
  (s.sender.task.toList ++ s.timer.items).find? fun t => t.seq = k

/-- How the read in progress fails. -/
def readErr (s : Conn) : Act :=
  match s.receiver with
  | .running (.head _) => .rcv .header_err
  | _ => .rcv .part_err

/-- The start of a poll, before its receive loop has ended. -/
def RecvState.taking : RecvState → Bool
  | .ticking _ | .sent _ => true
  | _ => false

/-- A response that has come with the task that waits for it. -/
theorem mem_awaiting {s : Conn} {t : Task} {f g : Frame}
    (h : (t, f) ∈ (s.awaiting g.seq).toList.map fun t => (t, g)) :
    f = g ∧ f.seq = t.seq ∧ Unanswered s t := by
  obtain ⟨u, hu, he⟩ := List.mem_map.1 h
  cases he
  have hfind := Option.mem_toList.1 hu
  have hm := List.mem_of_find?_eq_some hfind
  have hseq := List.find?_some hfind
  rw [List.mem_append, Option.mem_toList] at hm
  exact ⟨rfl, (of_decide_eq_true hseq).symm, hm⟩

/-! ## The socket -/

/-- What is there stays there when more bytes come. -/
theorem landed_mono {n m : Nat} (h : n ≤ m) (fs : List Frame) : landed n fs ⊆ landed m fs := by
  induction fs generalizing n m with
  | nil => exact List.Subset.refl _
  | cons f fs ih =>
    by_cases hn : f.wireLen ≤ n
    · simp only [landed, hn, Nat.le_trans hn h, if_true]
      exact List.cons_subset_cons f (ih (Nat.sub_le_sub_right h _))
    · simp only [landed, hn, if_false]
      exact List.nil_subset _

/-- And when more responses are sent. -/
theorem landed_append (n : Nat) (fs gs : List Frame) : landed n fs ⊆ landed n (fs ++ gs) := by
  induction fs generalizing n with
  | nil => exact List.nil_subset _
  | cons f fs ih =>
    simp only [List.cons_append, landed]
    split
    · exact List.cons_subset_cons f (ih _)
    · exact List.nil_subset _

/-- The header of the next response is read; the others are behind its body. -/
theorem landed_header (n : Nat) (f : Frame) (fs : List Frame) :
    landed n (f :: fs) ⊆ f :: landed (n - RPC_RESP_HEADER_LEN - f.bodyLen) fs := by
  by_cases hle : f.wireLen ≤ n
  · simp only [landed, hle, if_true]
    rw [Frame.wireLen, Nat.sub_sub]
    exact List.Subset.refl _
  · simp only [landed, hle, if_false]
    exact List.nil_subset _

theorem RecvState.rest_eq {r : RecvState} {pc : RecvPc} {f : Frame} {o : Nat} (hr : r.pc = some pc)
    (hin : pc.inBody = some (f, o)) : r.rest = f.bodyLen - o := by
  simp only [rest, hr, Option.bind_some, hin]

/-- Behind a body nothing is left of it. -/
theorem RecvState.rest_eq_zero {r : RecvState} (h : r.pc.bind RecvPc.inBody = none) : r.rest = 0 := by
  simp only [rest, h]

theorem Stays.rest_le {s s' : Conn} (h : Stays s s') : s'.receiver.rest ≤ s.receiver.rest := by
  rcases h with hnone | ⟨pc, pc', hpc, hpc', hin, -⟩
  · rw [RecvState.rest_eq_zero (by rw [hnone]; rfl)]
    exact Nat.zero_le _
  · simp only [RecvState.rest, hpc, hpc', Option.bind_some, hin]
    exact Nat.le_refl _

/-- The next part of a body is read, and as much less is left of it. -/
theorem recv_part_rest {s s' : Conn} {b : Bool} (hfit : ∀ pc, s.receiver.pc = some pc → pc.Fits)
    (ha : orderly s (.rcv (.part b)) = true) (ho : Orderly s) (h : s.recv (.part b) = some s')
    (n : Nat) :
    n - s.receiver.wants - s'.receiver.rest = n - s.receiver.rest := by
  have hpanic := (ho.recv ha h).panicked
  obtain ⟨pc, f, o, hs, hin, -, hmove⟩ := recv_part h
  have hfit : pc.Fits := hfit pc (by rw [hs]; rfl)
  have hle := pc.wants_le hfit hin
  have hwants : s.receiver.wants = pc.wants := by rw [hs]; rfl
  have hrest : s.receiver.rest = f.bodyLen - o := RecvState.rest_eq (by rw [hs]; rfl) hin
  obtain ⟨pc', hpc', -, hin' | ⟨hin', hall⟩⟩ := (hmove hfit).1.resolve_left hpanic
  · have hrest' : s'.receiver.rest = f.bodyLen - (o + pc.wants) := RecvState.rest_eq (by rw [hpc']; rfl) hin'
    omega
  · have hrest' : s'.receiver.rest = 0 := RecvState.rest_eq_zero (by rw [hpc']; exact hin')
    omega

/-! ## The channel and the tables -/

theorem SendMove.timer {s s' : Conn} {a : SendAct} (h : SendMove s a s') :
    s'.timer.tables = s.timer.tables ∧ s'.timer.task_timeout = s.timer.task_timeout := by
  cases h with
  | @op op ops last _ => cases op <;> exact ⟨rfl, rfl⟩
  | _ => exact ⟨rfl, rfl⟩

/-- Only a registration adds to the channel. -/
theorem SendMove.pending {s s' : Conn} {a : SendAct} (h : SendMove s a s') :
    s'.timer.pending_tasks = s.timer.pending_tasks ∨ a = .registered ∧ ∃ t, s.sender.task = some t ∧
      s'.timer.pending_tasks = s.timer.pending_tasks ++ [t] := by
  cases h with
  | @op op ops last _ => exact .inl (by cases op <;> rfl)
  | @register t h _ => exact .inr ⟨rfl, t, by rw [h]; rfl, rfl⟩
  | _ => exact .inl rfl

theorem RecvMove.pending {s s' : Conn} {a : RecvAct} (h : RecvMove s a s') :
    s'.timer.pending_tasks ⊆ s.timer.pending_tasks := by
  cases h with
  | tick _ hq => exact (ClientTaskTimer.adjust_task_queue_keeps hq).1 ▸ List.Subset.refl _
  | pop h _ =>
    obtain ⟨t, ts, hp, rfl⟩ := ClientTaskTimer.recv_pending_eq h
    rw [hp]
    exact List.subset_cons_self t ts
  | found _ _ hq => exact (ClientTaskTimer.remove_task_keeps hq).1 ▸ List.Subset.refl _
  | _ => exact List.Subset.refl _

/-- The receive loop of a poll empties the channel. -/
theorem recv_taking {s s' : Conn} {a : RecvAct} (he : s.has_err = false)
    (hr : s.receiver.taking = true) (h : s.recv a = some s') :
    s'.receiver.taking = true ∨ s'.timer.pending_tasks = [] := by
  cases hh : s.receiver with
  | ticking pc =>
    cases a with
    | next =>
      simp only [recv, recv_next, hh, he, Bool.false_eq_true, if_false, Option.some.injEq] at h
      subst h
      exact .inl rfl
    | tick =>
      simp only [recv, hh, Option.some.injEq] at h
      subst h
      exact .inl rfl
    | _ => simp only [recv, hh] at h; cases h
  | sent pc =>
    cases a with
    | next =>
      simp only [recv, recv_next, hh] at h
      split at h <;> cases h
      · exact .inl rfl
      · exact .inr (recv_pending_none ‹_›)
    | _ => simp only [recv, hh] at h; cases h
  | _ =>
    rw [hh] at hr
    cases hr

theorem recv_poll {s s' : Conn} (h : s.recv .poll = some s') :
    s.receiver.taking = false ∧ s'.receiver.taking = true := by
  cases hr : s.receiver with
  | suspended pc =>
    simp only [recv, hr, Option.some.injEq] at h
    subst h
    exact ⟨rfl, rfl⟩
  | _ => simp only [recv, hr] at h; cases h

theorem recv_tick {s s' : Conn} (h : s.recv .tick = some s') :
    s' = { s with
      timer := s.timer.adjust_task_queue.2
      completed := s.completed ++ s.timer.adjust_task_queue.1.map fun t => (t.id, .timeout) } := by
  cases hr : s.receiver with
  | ticking pc =>
    simp only [recv, hr, Option.some.injEq] at h
    rw [← h, ← hr]
  | _ => simp only [recv, hr] at h; cases h

/-- A step keeps the tables dated when `received` has the task it receives. -/
theorem dated_step {s s' : Conn} {a : Act} {timeout ticks : Nat} {received : Task → Nat → Prop}
    (hn : Numbered s) (hd : s.timer.Dated timeout ticks received)
    (hr : ∀ t ∈ s.timer.pending_tasks, t ∉ s'.timer.pending_tasks → received t ticks)
    (h : s.step a = some s') :
    s'.timer.Dated timeout (if a = .rcv .tick then ticks + 1 else ticks) received := by
  by_cases ha : a = .rcv .tick
  · subst ha
    rw [if_pos rfl, recv_tick h]
    exact (hd.adjust_task_queue (Prod.eta s.timer.adjust_task_queue).symm).1
  rw [if_neg ha]
  cases a with
  | snd a => exact hd.of_tables (send_cases h).timer.1 (send_cases h).timer.2
  | rcv a =>
    cases recv_cases h with
    | tick _ hq => exact absurd rfl ha
    | pop hq _ =>
      refine hd.recv_pending (fun _ hu => hn.wf.fresh hu _ (List.mem_cons_self ..)) hq
        fun u hu => hr u (List.mem_of_head? hu) fun hu' => ?_
      -- the seqs of the channel increase
      obtain ⟨t, ts, hp, rfl⟩ := ClientTaskTimer.recv_pending_eq hq
      have hlt := hn.wf.pending_lt
      rw [hp] at hu hlt
      cases hu
      exact Nat.lt_irrefl _ ((List.pairwise_cons.1 hlt).1 u hu')
    | found _ _ hq => exact hd.remove_task hq
    | fail => exact hd.fail_tasks
    | _ => exact hd

/-- Tasks time out in a tick. -/
theorem timeout_step {s s' : Conn} {a : Act} {timeout ticks : Nat} {received : Task → Nat → Prop}
    (hd : s.timer.Dated timeout ticks received) (h : s.step a = some s') {id : Nat}
    (hm : (id, Outcome.timeout) ∈ s'.completed) : (id, Outcome.timeout) ∈ s.completed ∨
      a = .rcv .tick ∧ ∃ t k, t.id = id ∧ received t k ∧ k + timeout < ticks + 1 := by
  by_cases ha : a = .rcv .tick
  · subst ha
    rw [recv_tick h] at hm
    refine (List.mem_append.1 hm).imp_right fun hm => ⟨rfl, ?_⟩
    obtain ⟨t, ht, he⟩ := List.mem_map.1 hm
    cases he
    obtain ⟨k, hk, he⟩ := (hd.adjust_task_queue (Prod.eta s.timer.adjust_task_queue).symm).2 t ht
    exact ⟨t, k, rfl, hk, by omega⟩
  refine .inl ?_
  cases a with
  | snd a =>
    cases send_cases h with
    | @op op ops last _ =>
      cases op with
      | fail j => exact (List.mem_append.1 hm).resolve_right fun hm => by simp at hm
      | _ => exact hm
    | _ => exact hm
  | rcv a =>
    cases recv_cases h with
    | tick => exact absurd rfl ha
    | finish | part_err | fail =>
      refine (List.mem_append.1 hm).resolve_right fun hm => ?_
      simp at hm
    | _ => exact hm

end OccamsRpc.Conn

namespace OccamsRpc

open Conn (Task Frame Outcome Answering Unanswered dumps)

/-- The connection with a clock and with the bytes that the peer sends. -/
structure Timed where
  conn : Conn
  /-- Milliseconds. -/
  now : Nat
  /-- When the read in progress began. -/
  since : Nat
  ticks : Nat
  polls : Nat
  /-- The responses that the peer has sent and whose header is not read, and how many
  bytes have come that no read has returned. -/
  coming : List Frame
  there : Nat
  /-- Bytes of a header were dropped with a cancelled read. -/
  torn : Bool
  /-- Task ids, with the polls before the registration, and with the ticks before
  the task was received from the channel. -/
  registered : List (Nat × Nat)
  received : List (Nat × Nat)
  /-- The responses that came, or whose header was read, while their task waits. -/
  arrived : List (Task × Frame)

namespace Timed

/-- A fresh connection at time 0, with nothing on the way. -/
def new (thresholds task_timeout : Nat) : Timed where
  conn := .new thresholds task_timeout
  now := 0
  since := 0
  ticks := 0
  polls := 0
  coming := []
  there := 0
  torn := false
  registered := []
  received := []
  arrived := []

/-- The responses in the socket that are complete, and none of which has been read. -/
def landed (s : Timed) : List Frame := Conn.landed (s.there - s.conn.receiver.rest) s.coming

/-- What can happen: a step of the connection, time, and what the peer sends. -/
inductive Act
  /-- A step of the connection other than a read that fails. -/
  | conn (a : Conn.Act)
  /-- The transport fails the read, or what it read is no response. -/
  | failed
  /-- `read_timeout` is over. -/
  | timed_out
  | pass (ms : Nat)
  /-- The peer sends a response. -/
  | sends (f : Frame)
  /-- Some of the bytes that it has sent come. -/
  | comes (n : Nat)

/-- A read returns when its bytes are there, and the close channel is looked at when the
read of the header waits. -/
def ready (s : Timed) : Conn.Act → Bool
  | .rcv (.header f) => s.coming.head? = some f ∧ s.conn.receiver.wants ≤ s.there
  | .rcv (.part _) => s.conn.receiver.wants ≤ s.there
  | .rcv .blocked | .rcv .cancelled => s.there < s.conn.receiver.wants
  | _ => true

/-- The connection has gone on to `c`. -/
def goto (s : Timed) (a : Conn.Act) (c : Conn) : Timed where
  conn := c
  now := s.now
  since := if c.receiver.read = s.conn.receiver.read then s.since else s.now
  ticks := if a = .rcv .tick then s.ticks + 1 else s.ticks
  polls := if a = .rcv .poll then s.polls + 1 else s.polls
  coming := match a with | .rcv (.header _) => s.coming.tail | _ => s.coming
  there :=
    match a with
    | .rcv (.header _) | .rcv (.part _) => s.there - s.conn.receiver.wants
    -- what the read of the header had taken goes with it
    | .rcv .cancelled => 0
    | _ => s.there
  torn := s.torn || (a = .rcv .cancelled && 0 < s.there)
  registered := s.registered ++
    match a with
    | .snd .registered => s.conn.sender.task.toList.map fun t => (t.id, s.polls)
    | _ => []
  received := s.received ++
    (s.conn.timer.pending_tasks.filter (· ∉ c.timer.pending_tasks)).map fun t => (t.id, s.ticks)
  arrived := s.arrived ++
    match a with
    | .rcv (.header f) => (s.conn.awaiting f.seq).toList.map fun t => (t, f)
    | _ => []

/-- A read returns when its bytes have come, fails when the transport does, and times out
when `read_timeout` has passed since it began and its bytes are not there. -/
def step (read_timeout : Nat) (s : Timed) : Act → Option Timed
  | .conn a =>
    -- the ticker fires once a second
    if a = .rcv .header_err ∨ a = .rcv .part_err ∨ a = .rcv .tick ∧ s.now < s.ticks * 1000 then none
    -- after a torn header whatever comes is taken for one
    else if s.torn ∨ s.ready a then (s.conn.step a).map (s.goto a)
    else none
  | .failed => (s.conn.step s.conn.readErr).map (s.goto s.conn.readErr)
  | .timed_out =>
    if read_timeout ≠ 0 ∧ s.conn.receiver.read.isSome ∧ s.since + read_timeout ≤ s.now ∧
        (s.torn ∨ s.there < s.conn.receiver.wants) then
      (s.conn.step s.conn.readErr).map (s.goto s.conn.readErr)
    else none
  | .pass ms => some { s with now := s.now + ms }
  | .sends f => some { s with coming := s.coming ++ [f] }
  | .comes n =>
    if s.there + n ≤ s.conn.receiver.rest + (s.coming.map Frame.wireLen).sum then
      let s := { s with there := s.there + n }
      some { s with
        arrived := s.arrived ++ s.landed.flatMap fun f =>
          (s.conn.awaiting f.seq).toList.map fun t => (t, f) }
    else none

/-- Nothing fails on the way to the peer and back, and the owner ends the
connection by a drop. A stream that has lost a piece of a header may fail. -/
def graceful (s : Timed) : Act → Bool
  | .failed => s.torn
  | .conn (.snd (.written ok)) => ok
  | .conn (.snd .set_error_and_exit) => false
  | .conn (.rcv (.part has_blob)) => s.torn || Conn.orderly s.conn (.rcv (.part has_blob))
  | _ => true

/-- No read under `read_timeout` waits that long; when the ticker is handled, all complete
responses in the socket have been read; the close channel cancels no header that has begun
to arrive; no response is looked up between the end of registration and the receipt of its
task; and every request encodes. -/
def prompt (read_timeout : Nat) (s : Timed) : Act → Bool
  | .pass ms =>
    read_timeout = 0 || s.conn.receiver.read.isNone || s.now + ms < s.since + read_timeout
  | .conn (.rcv .tick) => s.landed.isEmpty
  | .conn (.rcv .cancelled) => s.there = 0
  | .conn (.snd (.encoded ok)) => ok
  | .conn a => !dumps s.conn a
  | _ => true

/-- The task is completed with a response of its seq or will be: the header of one was read,
or the task waits and one is complete in the socket. -/
def Assured (s : Timed) (t : Task) : Prop :=
  (∃ f, f.seq = t.seq ∧ Answering s.conn t f) ∨ Unanswered s.conn t ∧ ∃ f ∈ s.landed, f.seq = t.seq

/-- Every task gets its own response or times out. -/
structure Kept (task_timeout : Nat) (s : Timed) : Prop where
  /-- A response completes the task its seq was given to; a timeout comes more than
  `task_timeout` ticks after the task was received. -/
  outcome : ∀ id o, (id, o) ∈ s.conn.completed →
    (∃ f, o = .resp f ∧ (id, f.seq) ∈ s.conn.assigned ∧ ∀ id', (id', f.seq) ∈ s.conn.assigned → id' = id) ∨
      o = .timeout ∧ ∃ k, (id, k) ∈ s.received ∧ k + task_timeout < s.ticks
  once : (s.conn.completed.map Prod.fst).Nodup
  /-- A task whose response has arrived is completed with it, and does not time out. -/
  answered : ∀ t f, (t, f) ∈ s.arrived → Assured s t ∧ (t.id, Outcome.timeout) ∉ s.conn.completed
  /-- A registered task that is not completed is being answered, or is in the channel
  until the end of the next poll, or has been out of it for `task_timeout` ticks at most. -/
  waits : ∀ id ∈ s.conn.pushed, id ∈ s.conn.completed.map Prod.fst ∨
    (∃ f t, s.conn.receiver.body = some (f, t) ∧ t.id = id ∧ (id, f.seq) ∈ s.conn.assigned) ∨
    (∃ p, (id, p) ∈ s.registered ∧ s.polls ≤ p + 1) ∨
    ∃ k, (id, k) ∈ s.received ∧ s.ticks ≤ k + task_timeout
  /-- The coroutine leaves when all of them are completed. -/
  left : s.conn.receiver.live = false →
    ∀ id ∈ s.conn.pushed, (s.conn.completed.map Prod.fst).count id = 1

theorem Assured.of_landed {s s' : Timed} {t : Task} (h : Assured s t) (hc : s'.conn = s.conn)
    (hsub : s.landed ⊆ s'.landed) : Assured s' t := by
  rw [Assured, hc]
  refine h.imp_right ?_
  rintro ⟨hu, f, hf, hseq⟩
  exact ⟨hu, f, hsub hf, hseq⟩

/-! ## What such runs keep -/

/-- What holds along a run in which nothing fails and all is prompt: `Kept`, and why. -/
structure Steady (thresholds task_timeout read_timeout : Nat) (s : Timed) : Prop where
  run : ∃ tr, Run Conn.step (.new thresholds task_timeout) tr s.conn
  orderly : Conn.Orderly s.conn
  lost : s.conn.lost_send = [] ∧ s.conn.lost_recv = []
  torn : s.torn = false
  in_time : read_timeout ≠ 0 → s.conn.receiver.read.isSome = true → s.now < s.since + read_timeout
  fits : ∀ pc, s.conn.receiver.pc = some pc → pc.Fits
  assured : ∀ t f, (t, f) ∈ s.arrived → Assured s t
  dated : s.conn.timer.Dated task_timeout s.ticks fun t k => (t.id, k) ∈ s.received
  timeouts : ∀ id, (id, Outcome.timeout) ∈ s.conn.completed → ∃ k, (id, k) ∈ s.received ∧
    k + task_timeout < s.ticks
  queued : ∀ t ∈ s.conn.timer.pending_tasks, ∃ p, (t.id, p) ∈ s.registered ∧
    (s.polls ≤ p ∨ s.polls = p + 1 ∧ s.conn.receiver.taking = true)

variable {thresholds task_timeout read_timeout : Nat}

theorem Steady.numbered {s : Timed} (h : Steady thresholds task_timeout read_timeout s) :
    Conn.Numbered s.conn := by
  obtain ⟨tr, hr⟩ := h.run
  exact Conn.numbered hr

theorem orderly_of_graceful {s : Timed} {a : Conn.Act} (ht : s.torn = false)
    (hg : graceful s (.conn a) = true) (hp : prompt read_timeout s (.conn a) = true)
    (he : a ≠ .rcv .header_err) (he' : a ≠ .rcv .part_err) :
    Conn.orderly s.conn a = true := by
  unfold Conn.orderly
  split
  case h_1 => exact hp
  case h_2 => exact hg
  case h_3 => cases hg
  case h_4 => exact absurd rfl he
  case h_5 => exact absurd rfl he'
  case h_6 =>
    simp only [graceful, ht, Bool.false_or, Conn.orderly] at hg
    exact hg
  case h_7 => rfl

theorem quiet_of_prompt {s : Timed} {a : Conn.Act} (hp : prompt read_timeout s (.conn a) = true) :
    dumps s.conn a = false ∧ (a = .rcv .cancelled → s.there = 0) := by
  unfold prompt at hp
  split at hp
  case h_1 he => cases he
  case h_2 he =>
    cases he
    exact ⟨rfl, nofun⟩
  case h_3 he =>
    cases he
    exact ⟨rfl, fun _ => by simpa using hp⟩
  case h_4 he =>
    cases he
    exact ⟨rfl, nofun⟩
  case h_5 hc _ he =>
    cases he
    exact ⟨by simpa using hp, fun he => (hc he).elim⟩
  case h_6 hc => exact absurd rfl (hc a)

/-- What is complete in the socket stays so, but for the response whose header is read. -/
theorem Steady.goto_landed {s : Timed} {a : Conn.Act} {c : Conn}
    (hs : Steady thresholds task_timeout read_timeout s) (ha : Conn.orderly s.conn a = true)
    (hc : a = .rcv .cancelled → s.there = 0) (hready : s.ready a = true)
    (h : s.conn.step a = some c) {f : Frame} (hf : f ∈ s.landed) :
    f ∈ (s.goto a c).landed ∨ a = .rcv (.header f) := by
  -- a step that reads nothing
  have hstays (hrest : c.receiver.rest ≤ s.conn.receiver.rest)
      (hcoming : (s.goto a c).coming = s.coming)
      (hthere : (s.goto a c).there = s.there) : f ∈ (s.goto a c).landed := by
    unfold landed
    rw [hcoming, hthere]
    exact Conn.landed_mono (Nat.sub_le_sub_left hrest _) _ hf
  cases a with
  | snd a => exact .inl (hstays (Nat.le_of_eq (by rw [(Conn.send_cases h).frame.receiver])) rfl rfl)
  | rcv a =>
    have h : s.conn.recv a = some c := h
    cases a with
    | header g =>
      simp only [ready, decide_eq_true_eq] at hready
      obtain ⟨⟨k, hk⟩, pc, hpc, hin, -⟩ := Conn.recv_header h
      obtain ⟨gs, hgs⟩ : ∃ gs, s.coming = g :: gs := List.head?_eq_some_iff.1 hready.1
      have hrest : s.conn.receiver.rest = 0 := by rw [hk]; rfl
      have hwants : s.conn.receiver.wants = RPC_RESP_HEADER_LEN := by rw [hk]; rfl
      have hrest' : c.receiver.rest = g.bodyLen := Conn.RecvState.rest_eq (by rw [hpc]; rfl) hin
      have hf : f ∈ Conn.landed s.there (g :: gs) := by
        rwa [landed, hrest, hgs, Nat.sub_zero] at hf
      rcases List.mem_cons.1 (Conn.landed_header _ _ _ hf) with rfl | hf
      · exact .inr rfl
      · refine .inl ?_
        simp only [landed, goto, hgs, hwants, hrest', List.tail_cons]
        exact hf
    | part b =>
      have hrest := Conn.recv_part_rest hs.fits ha hs.orderly h s.there
      refine .inl ?_
      simp only [landed, goto, hrest]
      exact hf
    | cancelled =>
      refine .inl (hstays (Conn.recv_stays h (by rintro _ ⟨⟩) (by rintro _ ⟨⟩)).rest_le rfl ?_)
      exact (hc rfl).symm
    | poll | tick | next | header_err | part_err | blocked =>
      exact .inl (hstays (Conn.recv_stays h (by rintro _ ⟨⟩) (by rintro _ ⟨⟩)).rest_le rfl rfl)

/-- A task stays assured of its response. -/
theorem Steady.goto_assured {s : Timed} {a : Conn.Act} {c : Conn}
    (hs : Steady thresholds task_timeout read_timeout s) (ha : Conn.orderly s.conn a = true)
    (hp : prompt read_timeout s (.conn a) = true) (hd : dumps s.conn a = false)
    (hc : a = .rcv .cancelled → s.there = 0) (hready : s.ready a = true)
    (h : s.conn.step a = some c) {t : Task} (ht : Assured s t) : Assured (s.goto a c) t := by
  rcases ht with ⟨f, hf, hans⟩ | ⟨hu, f, hf, hseq⟩
  · refine .inl ⟨f, hf, ?_⟩
    cases a with
    | snd a => exact hans.send ha (Conn.send_cases h)
    | rcv a => exact hans.recv hs.numbered hs.orderly ha hd h
  · have hkeep := hs.goto_landed ha hc hready h hf
    cases a with
    | snd a =>
      exact .inr ⟨(Conn.send_cases h).unanswered ha hu, f, hkeep.resolve_right nofun, hseq⟩
    | rcv a =>
      rcases hkeep with hkeep | he
      · by_cases htick : a = .tick
        · -- nothing complete is in the socket then
          subst htick
          rw [prompt, List.isEmpty_iff] at hp
          rw [hp] at hf
          cases hf
        · rcases Conn.recv_unanswered hs.numbered hs.orderly htick hu h with hu | hans
          · exact .inr ⟨hu, f, hkeep, hseq⟩
          · exact .inl hans
      · -- its header is read
        cases he
        exact .inl ⟨f, hseq, .header hs.numbered hseq.symm hu h⟩

/-- A response whose header is read while its task waits has arrived too. -/
theorem Steady.goto_arrived {s : Timed} {a : Conn.Act} {c : Conn}
    (hs : Steady thresholds task_timeout read_timeout s) (h : s.conn.step a = some c) {t : Task}
    {f : Frame} (hm : (t, f) ∈ (s.goto a c).arrived) :
    (t, f) ∈ s.arrived ∨ Assured (s.goto a c) t := by
  refine (List.mem_append.1 hm).imp_right fun hm => ?_
  split at hm
  case h_1 g =>
    obtain ⟨rfl, hseq, ht⟩ := Conn.mem_awaiting hm
    exact .inl ⟨f, hseq, .header hs.numbered hseq.symm ht h⟩
  case h_2 => cases hm

theorem Steady.goto_dated {s : Timed} {a : Conn.Act} {c : Conn}
    (hs : Steady thresholds task_timeout read_timeout s) (h : s.conn.step a = some c) :
    c.timer.Dated task_timeout (s.goto a c).ticks fun t k => (t.id, k) ∈ (s.goto a c).received := by
  refine Conn.dated_step hs.numbered (hs.dated.mono fun t k hk => List.mem_append_left _ hk) ?_ h
  intro t ht ht'
  refine List.mem_append_right _ (List.mem_map.2 ⟨t, ?_, rfl⟩)
  rw [List.mem_filter]
  exact ⟨ht, by simpa using ht'⟩

theorem Steady.goto_timeouts {s : Timed} {a : Conn.Act} {c : Conn}
    (hs : Steady thresholds task_timeout read_timeout s) (h : s.conn.step a = some c) (id : Nat)
    (hm : (id, Outcome.timeout) ∈ c.completed) :
    ∃ k, (id, k) ∈ (s.goto a c).received ∧ k + task_timeout < (s.goto a c).ticks := by
  rcases Conn.timeout_step hs.dated h hm with hm | ⟨rfl, t, k, rfl, hk, hlt⟩
  · obtain ⟨k, hk, hlt⟩ := hs.timeouts id hm
    refine ⟨k, List.mem_append_left _ hk, ?_⟩
    simp only [goto]
    split <;> omega
  · exact ⟨k, List.mem_append_left _ hk, hlt⟩

/-- The channel is emptied by every poll. -/
theorem Steady.goto_queued {s : Timed} {a : Conn.Act} {c : Conn}
    (hs : Steady thresholds task_timeout read_timeout s) (h : s.conn.step a = some c) (t : Task)
    (ht : t ∈ c.timer.pending_tasks) : ∃ p, (t.id, p) ∈ (s.goto a c).registered ∧
      ((s.goto a c).polls ≤ p ∨ (s.goto a c).polls = p + 1 ∧ c.receiver.taking = true) := by
  cases a with
  | snd a =>
    have hf := (Conn.send_cases h).frame
    have hold (ht : t ∈ s.conn.timer.pending_tasks) :
        ∃ p, (t.id, p) ∈ (s.goto (.snd a) c).registered ∧
        (s.polls ≤ p ∨ s.polls = p + 1 ∧ c.receiver.taking = true) := by
      obtain ⟨p, hp, hle⟩ := hs.queued t ht
      exact ⟨p, List.mem_append_left _ hp, by rw [hf.receiver]; exact hle⟩
    rcases (Conn.send_cases h).pending with he | ⟨rfl, u, hu, he⟩
    · exact hold (he ▸ ht)
    · rw [he, List.mem_append, List.mem_singleton] at ht
      rcases ht with ht | rfl
      · exact hold ht
      · refine ⟨s.polls, List.mem_append_right _ ?_, .inl (Nat.le_refl _)⟩
        simp [hu]
  | rcv a =>
    obtain ⟨p, hp, hle⟩ := hs.queued t ((Conn.recv_cases h).pending ht)
    refine ⟨p, List.mem_append_left _ hp, ?_⟩
    by_cases ha : a = .poll
    · subst ha
      obtain ⟨hno, hyes⟩ := Conn.recv_poll h
      have hle :
          s.polls ≤ p := hle.resolve_right fun hle => absurd (hno.symm.trans hle.2) (by decide)
      show s.polls + 1 ≤ p ∨ s.polls + 1 = p + 1 ∧ _
      rcases Nat.lt_or_eq_of_le hle with hlt | rfl
      · exact .inl hlt
      · exact .inr ⟨rfl, hyes⟩
    · have hpolls : (s.goto (.rcv a) c).polls = s.polls := if_neg fun he => ha (Conn.Act.rcv.inj he)
      rw [hpolls]
      refine hle.imp_right fun hle => ⟨hle.1, ?_⟩
      refine (Conn.recv_taking hs.orderly.has_err hle.2 h).resolve_right fun hnil => ?_
      rw [hnil] at ht
      cases ht

theorem Steady.goto {s : Timed} {a : Conn.Act} {c : Conn}
    (hs : Steady thresholds task_timeout read_timeout s) (ha : Conn.orderly s.conn a = true)
    (hp : prompt read_timeout s (.conn a) = true) (hready : s.ready a = true)
    (h : s.conn.step a = some c) : Steady thresholds task_timeout read_timeout (s.goto a c) where
  run := by
    obtain ⟨tr, hr⟩ := hs.run
    exact ⟨_, hr.snoc h⟩
  orderly := hs.orderly.step ha h
  lost := Conn.lost_of_orderly hs.orderly ha h hs.lost
  torn := by
    simp only [Timed.goto, hs.torn, Bool.false_or, Bool.and_eq_false_iff, decide_eq_false_iff_not]
    by_cases he : a = .rcv .cancelled
    · exact .inr (by rw [(quiet_of_prompt hp).2 he]; exact Nat.lt_irrefl 0)
    · exact .inl he
  in_time := by
    -- a new read begins now
    intro h0 hr
    simp only [Timed.goto]
    split
    case isTrue he => exact hs.in_time h0 (he ▸ hr)
    case isFalse => omega
  fits := by
    cases a with
    | snd a =>
      show ∀ pc, c.receiver.pc = some pc → pc.Fits
      rw [(Conn.send_cases h).frame.receiver]
      exact hs.fits
    | rcv a => exact Conn.fits_recv hs.fits h
  assured := by
    intro t f hm
    obtain ⟨hd, hc⟩ := quiet_of_prompt hp
    exact (hs.goto_arrived h hm).elim (fun hm => hs.goto_assured ha hp hd hc hready h (hs.assured t f hm)) id
  dated := hs.goto_dated h
  timeouts := hs.goto_timeouts h
  queued := hs.goto_queued h

theorem Steady.step {s s' : Timed} {a : Act} (hs : Steady thresholds task_timeout read_timeout s)
    (hg : graceful s a = true) (hp : prompt read_timeout s a = true)
    (h : s.step read_timeout a = some s') :
    Steady thresholds task_timeout read_timeout s' := by
  cases a with
  | conn a =>
    simp only [Timed.step] at h
    split at h
    · cases h
    rename_i hno
    obtain ⟨hready, h⟩ := Option.ite_none_right_eq_some.1 h
    obtain ⟨c, hc, rfl⟩ := Option.map_eq_some_iff.1 h
    have ho := orderly_of_graceful hs.torn hg hp (fun he => hno (.inl he)) fun he => hno (.inr (.inl he))
    exact hs.goto ho hp (hready.resolve_left (by rw [hs.torn]; nofun)) hc
  | failed =>
    have ht := hs.torn
    rw [graceful] at hg
    rw [hg] at ht
    cases ht
  | timed_out =>
    -- every read is in time
    simp only [Timed.step] at h
    split at h
    case isTrue hto =>
      have hlt := hs.in_time hto.1 hto.2.1
      omega
    case isFalse => cases h
  | pass ms =>
    cases h
    refine { hs with in_time := fun h0 hr => ?_ }
    simp only [prompt, h0, Bool.or_eq_true, decide_eq_true_eq, false_or] at hp
    refine hp.resolve_left fun hn => ?_
    rw [Option.isNone_iff_eq_none] at hn
    rw [hn] at hr
    cases hr
  | sends f =>
    cases h
    have hsub := Conn.landed_append (s.there - s.conn.receiver.rest) s.coming [f]
    exact { hs with assured := fun t g hm => (hs.assured t g hm).of_landed rfl hsub }
  | comes n =>
    obtain ⟨-, ⟨⟩⟩ := Option.ite_none_right_eq_some.1 h
    refine { hs with assured := fun t f hm => ?_ }
    rcases List.mem_append.1 hm with hm | hm
    · have hle := Nat.sub_le_sub_right (Nat.le_add_right s.there n) s.conn.receiver.rest
      exact (hs.assured t f hm).of_landed rfl (Conn.landed_mono hle s.coming)
    · -- it is complete now, and its task waits
      obtain ⟨g, hg, hm⟩ := List.mem_flatMap.1 hm
      obtain ⟨rfl, hseq, hu⟩ := Conn.mem_awaiting hm
      exact .inr ⟨hu, f, hg, hseq⟩

/-! ## Every task is answered or times out -/

/-- Where a registered task is. -/
theorem Steady.place {s : Timed} (hs : Steady thresholds task_timeout read_timeout s) {id : Nat}
    (hid : id ∈ s.conn.pushed) : id ∈ s.conn.timer.items.map Task.id ∨
      id ∈ s.conn.receiver.held.toList.map Task.id ∨ id ∈ s.conn.completed.map Prod.fst := by
  obtain ⟨tr, hr⟩ := hs.run
  obtain ⟨hlt, hown⟩ := (Conn.returned_calls hr).pushed_new id hid
  have hm : id ∈ s.conn.places := (Conn.placed hr).mem_iff.2 (List.mem_range.2 hlt)
  simp only [Conn.places, List.mem_append, hs.lost.1, hs.lost.2, List.not_mem_nil, or_false] at hm
  tauto

theorem Steady.kept {s : Timed} (hs : Steady thresholds task_timeout read_timeout s) :
    Kept task_timeout s := by
  obtain ⟨tr, hr⟩ := hs.run
  obtain ⟨hresp, honce⟩ := Conn.response_completes_its_task hr
  refine ⟨?_, honce, fun t f hm => ⟨hs.assured t f hm, ?_⟩, ?_, ?_⟩
  · intro id o hm
    cases o with
    | resp f => exact .inl ⟨f, rfl, (hresp id f hm).1, (hresp id f hm).2.2⟩
    | io => exact absurd rfl (hs.orderly.no_io _ hm)
    | timeout => exact .inr ⟨rfl, hs.timeouts id hm⟩
  · rcases hs.assured t f hm with ⟨g, -, hans⟩ | ⟨hu, -⟩
    · exact hans.not_timeout (Conn.placed hr) honce
    · exact fun hto => (Conn.placed hr).not_completed (.inl hu) (List.mem_map_of_mem (f := Prod.fst) hto)
  · intro id hid
    rcases hs.place hid with hm | hm | hm
    · obtain ⟨t, ht, rfl⟩ := List.mem_map.1 hm
      rcases List.mem_append.1 ht with ht | ht
      · obtain ⟨p, hp, hle⟩ := hs.queued t ht
        exact .inr (.inr (.inl ⟨p, hp, by omega⟩))
      · obtain ⟨k, hk, -, hle⟩ := hs.dated.le ht
        exact .inr (.inr (.inr ⟨k, hk, hle⟩))
    · cases hb : s.conn.receiver.body with
      | none =>
        rw [Conn.held_ids_none hb] at hm
        cases hm
      | some p =>
        rw [Conn.held_ids_some hb, List.mem_singleton] at hm
        subst hm
        exact .inr (.inl ⟨p.1, p.2, rfl, rfl, (hs.numbered.body p.1 p.2 hb).2⟩)
    · exact .inl hm
  · intro hl id hid
    refine (Conn.placed hr).completed_once ?_
    have hb : s.conn.receiver.held = none := by
      revert hl
      cases s.conn.receiver <;> simp [Conn.RecvState.live, Conn.RecvState.held]
    simpa [(hs.orderly.left hl).2, hb] using hs.place hid

/-- A stretch of steps of the connection alone. -/
def steps (as : List Conn.Act) : List Act := as.map .conn

/-- The coroutine reads a header when it has no task yet. -/
def sampleEarly : List Conn.Act := [.rcv .poll, .rcv .next, .rcv .next, .rcv .next]

/-- The header comes after the end of registration. -/
def sampleDump : List Act :=
  steps [.snd .drop, .snd .next, .snd .next, .snd .next] ++ [.sends ⟨1, 0, 4, 0⟩, .comes 24] ++
    steps [.rcv (.header ⟨1, 0, 4, 0⟩), .rcv .next, .rcv (.part false), .rcv .next, .rcv .next,
      .rcv .next, .rcv .next, .rcv .blocked]

/-- The response is read between the end of registration and the receipt of its task:
it is dumped, and the task times out. -/
theorem drop_dumps_response :
    ∃ tr s, Run (step 0) (new 8 1) tr s ∧ Meets (fun s a => graceful s a = true) tr ∧
    (⟨0, 1⟩, ⟨1, 0, 4, 0⟩) ∈ s.arrived ∧ s.conn.completed = [(0, .timeout)] := by
  have hrun :
      (follow (step 0) (new 8 1)
        (steps sampleEarly ++ steps Conn.sampleSend ++ sampleDump ++ [.pass 1000] ++
      steps [.rcv .poll, .rcv .tick, .rcv .tick])).map
      (fun r => (decide ((⟨0, 1⟩, ⟨1, 0, 4, 0⟩) ∈ r.2.arrived), r.2.conn.completed,
        r.1.all fun p => graceful p.1 p.2)) =
      some (true, [(0, .timeout)], true) := by decide +kernel
  obtain ⟨⟨tr, s⟩, hf, hs⟩ := Option.map_eq_some_iff.1 hrun
  simp only [Prod.mk.injEq, List.all_eq_true, decide_eq_true_eq] at hs
  have h : Run (step 0) (new 8 1) tr s := .of_follow hf
  exact ⟨tr, s, h, hs.2.2, hs.1, hs.2.1⟩

/-- A ping is answered before the task: the coroutine waits for a registration of the ping. -/
def samplePing : List Act :=
  steps [.snd .send_ping_req, .snd .next, .snd .next, .snd (.written true)] ++ steps Conn.sampleWake ++
    [.sends ⟨2, 0, 0, 0⟩, .sends ⟨1, 0, 4, 0⟩, .comes 20] ++ steps [.rcv (.header ⟨2, 0, 0, 0⟩),
      .rcv .next, .rcv .next]

/-- The response of the task comes then, and the stream is dropped, which wakes nobody. At the
next poll the ticker comes first: the task times out, with its response in the socket. -/
theorem ping_keeps_response_unread : ∃ tr s, Run (step 2000) (new 8 1) tr s ∧
    Meets (fun s a => graceful s a = true) tr ∧ (⟨0, 1⟩, ⟨1, 0, 4, 0⟩) ∈ s.arrived ∧
    s.landed = [⟨1, 0, 4, 0⟩] ∧
      s.conn.completed = [(0, .timeout)] := by
  have hrun : (follow (step 2000) (new 8 1) (steps Conn.sampleSend ++ samplePing ++ [.comes 24] ++
      steps [.snd .drop, .snd .next, .snd .next, .snd .next, .snd .next] ++ [.pass 1000] ++
      steps [.rcv .poll, .rcv .tick, .rcv .tick])).map
      (fun r => (decide ((⟨0, 1⟩, ⟨1, 0, 4, 0⟩) ∈ r.2.arrived), r.2.landed, r.2.conn.completed,
        r.1.all fun p => graceful p.1 p.2)) =
      some (true, [⟨1, 0, 4, 0⟩], [(0, .timeout)], true) := by decide +kernel
  obtain ⟨⟨tr, s⟩, hf, hs⟩ := Option.map_eq_some_iff.1 hrun
  simp only [Prod.mk.injEq, List.all_eq_true, decide_eq_true_eq] at hs
  exact ⟨tr, s, .of_follow hf, hs.2.2.2, hs.1, hs.2.1, hs.2.2.1⟩

end Timed

end OccamsRpc
