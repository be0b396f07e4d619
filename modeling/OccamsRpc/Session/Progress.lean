import OccamsRpc.Session.Complete
/-!
# A session that does not go on

Three parties wait for one another: a call of the owner for the window, the receive
coroutine for a header or for a registration, and the server for requests. When none of
them can go on then no task is left: the window is open again, and each response has found
its task registered. Only the response to a ping, which is never registered, is waited for
in vain.
-/
open Lib

namespace OccamsRpc

namespace Conn

variable {s s' : Conn} {q : Nat}

/-- The task of this seq is about to be registered, is in the channel, or was received. -/
def Enrolled (s : Conn) (q : Nat) : Prop :=
  (∃ t, s.sender = .reg t ∧ t.seq = q) ∨ (∃ t ∈ s.timer.pending_tasks, t.seq = q) ∨
    q ≤ s.timer.processed_seq

theorem Enrolled.send {a : SendAct} (hr : Enrolled s q) (h : SendMove s a s') : Enrolled s' q := by
  have hkeep (hs : ∀ t, s.sender ≠ .reg t) (hp : s'.timer.pending_tasks = s.timer.pending_tasks) :
      Enrolled s' q := by
    rcases hr with ⟨t, ht, -⟩ | ht | hle
    · exact absurd ht (hs t)
    · exact .inr (.inl (hp ▸ ht))
    · exact .inr (.inr (h.frame.processed_seq ▸ hle))
  cases h with
  | @register u hs =>
    rcases hr with ⟨t, ht, rfl⟩ | ⟨t, ht, rfl⟩ | hle
    · cases hs.symm.trans ht
      exact .inr (.inl ⟨u, List.mem_append_right _ (List.mem_singleton_self u), rfl⟩)
    · exact .inr (.inl ⟨t, List.mem_append_left _ ht, rfl⟩)
    · exact .inr (.inr hle)
  | @op op _ _ hs => cases op <;> exact hkeep (by rw [hs]; nofun) rfl
  | other pc e hf =>
    refine hkeep (fun t ht => ?_) rfl
    rw [ht] at hf
    cases hf
  | call _ hs | count hs | closed hs | opened hs | encode_ok hs | encode_err hs | write_ok hs
  | write_err hs | unthrottle hs
  | ping hs => exact hkeep (by rw [hs]; nofun) rfl

theorem send_written (h : s.send (.written true) = some s') {t : Task} {nf : Bool}
    (hs : s.sender = .write t nf) :
    s'.sender = .reg t := by
  simp only [Conn.send, hs, if_true] at h
  cases h
  rfl

theorem Enrolled.recv {a : RecvAct} (hr : Enrolled s q) (hn : Numbered s) (h : RecvMove s a s') :
    Enrolled s' q := by
  have hkeep (hp : s'.timer.pending_tasks = s.timer.pending_tasks)
      (hs : s'.timer.processed_seq = s.timer.processed_seq) :
      Enrolled s' q := by
    rw [Enrolled, h.frame.sender, hp, hs]
    exact hr
  cases h with
  | tick _ hq =>
    obtain ⟨hp, -, hs, -⟩ := ClientTaskTimer.adjust_task_queue_keeps hq
    exact hkeep hp hs
  | pop hq =>
    obtain ⟨u, us, hp, rfl⟩ := ClientTaskTimer.recv_pending_eq hq
    have hlt :
        s.timer.processed_seq < u.seq := hn.wf.pending_gt u (by rw [hp]; exact List.mem_cons_self)
    rcases hr with ht | ⟨t, ht, rfl⟩ | hle
    · exact .inl ht
    · rw [hp] at ht
      rcases List.mem_cons.1 ht with rfl | ht
      · exact .inr (.inr (Nat.le_refl _))
      · exact .inr (.inl ⟨t, ht, rfl⟩)
    · exact .inr (.inr (Nat.le_trans hle (Nat.le_of_lt hlt)))
  | found _ _ hq =>
    obtain ⟨hp, -, hs, -⟩ := ClientTaskTimer.remove_task_keeps hq
    exact hkeep hp hs
  | fail =>
    refine hkeep ?_ ?_
    all_goals rw [ClientTaskTimer.fail_tasks_eq]
  | _ => exact hkeep rfl rfl

end Conn

open Conn

namespace Session

variable {CC CT C T R E : Type} [ClientTaskCommon CT] [ClientTask CC CT] {cl : Caller CC CT}
  {codec : C}
  {seq : T → UInt64} {s s' : Session T R}

/-! ## The invariant -/

/-- The client keeps its window, and every request that it has written is registered with
its seq. -/
structure Flows (p : Setup) (s : Session T R) : Prop where
  windowed : Wired.Windowed ⟨p.reads, [], p.writes, []⟩
    (connect p : Session T R).wired.conn.thresholds s.wired
  registered : ∀ q ∈ s.written, ∀ id, q.call = some id → Enrolled s.wired.conn q.seq

theorem Flows.owner {p : Setup} (hf : Flows p s) {a : SendAct} {wired : Wired}
    (h : s.wired.step (s.request cl) s.ping (.snd a) = some wired)
    (hok : s.wired.fine (s.request cl) s.ping (.snd a) = true)
    (buf : EncodeBuf RPC_REQ_HEADER_LEN) :
    Flows p { s with
      wired := wired, encode_buf := buf, written := s.written ++ gave s.wired.conn.sender a } := by
  have hconn : s.wired.conn.send a = some wired.conn := (Wired.step_cases h hok).1
  refine ⟨hf.windowed.step hok h, ?_⟩
  rw [List.forall_mem_append]
  constructor
  · exact fun q hq id hid => (hf.registered q hq id hid).send (send_cases hconn)
  · unfold gave
    split
    case h_1 t nf hs =>
      rw [List.forall_mem_singleton]
      exact fun _ _ => .inl ⟨t, send_written hconn hs, rfl⟩
    case h_2 =>
      rw [List.forall_mem_singleton]
      exact nofun
    case h_3 => exact List.forall_mem_nil _

/-- The receive coroutine opens the window, and reads write nothing. -/
theorem Flows.client {p : Setup} (hf : Flows p s) {client : TcpClient Sock}
    (hw : client.writeHalf = s.wired.client.writeHalf) {conn : Conn} (hn : Numbered conn)
    (ht : conn.thresholds = s.wired.conn.thresholds) (hwithin : Within s.wired.client.Flushed conn)
    (hr : ∀ q, Enrolled s.wired.conn q → Enrolled conn q) (heads : List Frame) (body : Bytes)
    (answers : List Answer) (down : Nat) :
    Flows p { s with
      wired := { s.wired with conn := conn, client := client }
      heads := heads
      body := body
      answers := answers
      down := down } := by
  have hflushed : client.Flushed ↔ s.wired.client.Flushed := by
    have hbuf : client.stream.write_buf = s.wired.client.stream.write_buf := congrArg Prod.fst hw
    show client.stream.write_buf.pos = 0 ↔ s.wired.client.stream.write_buf.pos = 0
    rw [hbuf]
  refine ⟨⟨hn, ht.trans hf.windowed.thresholds, hf.windowed.took.of_writeHalf hw, ?_⟩,
    fun q hq id hid => hr _ (hf.registered q hq id hid)⟩
  show Within client.Flushed conn
  rw [hflushed]
  exact hwithin

theorem Flows.step [ServerTaskEncode C R] [ServerTaskDecode C T] [ServerTaskDone T R E] {p : Setup}
    (hf : Flows p s) {a : Act T E} (hok : fine cl seq s a = true) (h : s.step cl codec a = some s') :
    Flows p s' := by
  cases a with
  | owner a =>
    obtain ⟨buf, -, h⟩ := Option.bind_eq_some_iff.1 h
    obtain ⟨wired, hwired, ⟨⟩⟩ := Option.bind_eq_some_iff.1 h
    exact hf.owner hwired hok buf
  | receiver a =>
    obtain ⟨⟨body, stream⟩, hreads, h⟩ := Option.bind_eq_some_iff.1 h
    obtain ⟨conn, hconn, ⟨⟩⟩ := Option.bind_eq_some_iff.1 h
    have hn := hf.windowed.numbered
    have hstep : s.wired.conn.step (.rcv a) = some conn := hconn
    exact hf.client (reads_writeHalf hreads) (hn.step hstep) (step_thresholds hstep)
      (hf.windowed.within.recv hn (recv_cases hconn) (step_thresholds hstep))
      (fun _ hr => hr.recv hn (recv_cases hconn)) _ _ _ _
  | up n evs =>
    cases h
    exact { hf with }
  | down n evs =>
    cases h
    have hw (bs : Bytes) : (s.wired.client.withStream (s.stream.feed bs evs)).writeHalf =
      s.wired.client.writeHalf := rfl
    exact hf.client (hw _) hf.windowed.numbered rfl hf.windowed.within (fun _ => id) _ _ _ _
  | server a =>
    obtain ⟨served, -, rfl⟩ := Option.map_eq_some_iff.1 h
    exact { hf with }

/-! ## Stalls -/

/-- The owner is between two calls, or in a call that waits for the window. -/
def OwnerWaits (s : Session T R) : Prop :=
  s.wired.conn.sender = .idle ∧ s.wired.client.Flushed ∨
    ∃ id, s.wired.conn.sender = .throttle id ∧ s.wired.conn.thresholds < s.wired.conn.inflight

/-- The receive coroutine waits for a header, or for a registration, and there is none. -/
def ReceiverWaits (s : Session T R) : Prop :=
  (∃ c, s.wired.conn.receiver.pc = some (.head c)) ∧ s.stream.unread = [] ∨
    ∃ f, s.wired.conn.receiver.pc = some (.wait f) ∧ s.wired.conn.timer.processed_seq < f.seq ∧
      s.wired.conn.timer.pending_tasks = []

/-- A session in which each party waits for the other. -/
structure Stalled (s : Session T R) : Prop where
  settled : Settled s
  registering : s.wired.conn.timer.reg_stopped_flag = false
  owner : OwnerWaits s
  receiver : ReceiverWaits s

/-- A call that waits for the window has written all requests. -/
theorem OwnerWaits.flushed {p : Setup} (h : OwnerWaits s) (hf : Flows p s) :
    s.wired.client.Flushed := by
  rcases h with ⟨-, h⟩ | ⟨id, hs, hlt⟩
  · exact h
  · have hin : s.wired.conn.sender.Allows _ _ _ := hf.windowed.within
    rw [hs] at hin
    exact hin.2.resolve_left (Nat.not_le_of_lt hlt)

theorem OwnerWaits.owned (h : OwnerWaits s) :
    s.wired.conn.sender.owned = [] ∧ ∀ t, s.wired.conn.sender ≠ .reg t := by
  rcases h with ⟨h, -⟩ | ⟨id, h, -⟩
  all_goals
    rw [h]
    exact ⟨rfl, nofun⟩

section
variable [ServerTaskEncode C R]

end

/-- A call, a ping that is answered first, and then the response to the call. -/
def samplePing : List (Act Echo UInt32) :=
  [.owner (.send_task true), .owner .next, .owner .next, .owner (.encoded true),
    .owner (.written true), .owner .registered,
    .owner .throttled, .owner .send_ping_req, .owner .next, .owner .next, .owner (.written true),
    .up 200 (List.replicate 9 (.chunk 20)), .server .read_req, .server (.handler (.handled true)),
    .server .read_req,
    .server .write, .server .write, .server .write, .server .write,
    .down 100 (List.replicate 9 (.chunk 20)),
    .receiver .poll, .receiver .next, .receiver .next, .receiver .next, .receiver .next,
    .receiver (.header ⟨2, 0, 0, 0⟩),
    .receiver .next, .receiver .next, .server (.handler (.set_result 0 (.ok ()))), .server .write,
    .server .write,
    .server .write, .server .write, .down 100 (List.replicate 9 (.chunk 20))]

/-- The response to the call is there and is not read: the client waits for the
registration of the ping. -/
theorem ping_stalls_answered_task :
    ∃ (tr : List (Session Echo Echo × Act Echo UInt32)) (s : Session Echo Echo),
    Run (step sampleCaller ()) (connect sampleSetup) tr s ∧
    Meets (fun s a => fine sampleCaller Echo.seq s a = true) tr ∧
      Stalled s ∧ s.wired.conn.next_id = 1 ∧ s.wired.conn.completed = [] ∧
      0 ∈ s.served.reader.answered := by
  have hrun :
      (follow (step sampleCaller ()) (connect sampleSetup : Session Echo Echo) samplePing).map
        (fun r =>
      (r.1.all fun p => fine sampleCaller Echo.seq p.1 p.2, r.2.wired.conn.next_id,
        r.2.wired.conn.completed.length,
        r.2.served.reader.answered, decide (Settled r.2))) = some (true, 1, 0, [1, 0], true) := by
          decide +kernel
  have hclient :
      (follow (step sampleCaller ()) (connect sampleSetup : Session Echo Echo) samplePing).map
        (fun r =>
      (r.2.wired.conn.timer.reg_stopped_flag, decide (r.2.wired.conn.sender = .idle),
        r.2.stream.write_buf.pos,
        decide (r.2.wired.conn.receiver.pc = some (.wait ⟨2, 0, 0, 0⟩)),
        r.2.wired.conn.timer.processed_seq,
        r.2.wired.conn.timer.pending_tasks.length)) = some (false, true, 0, true, 1, 0) := by
          decide +kernel
  obtain ⟨⟨tr, s⟩, hf, hend⟩ := Option.map_eq_some_iff.1 hrun
  rw [hf, Option.map_some, Option.some.injEq] at hclient
  simp only [Prod.mk.injEq, List.all_eq_true, List.length_eq_zero_iff, decide_eq_true_eq] at hend hclient
  obtain ⟨hm, hid, hcompleted, hanswered, hsettled⟩ := hend
  obtain ⟨hreg, hs, hpos, hpc, hprocessed, hpending⟩ := hclient
  refine ⟨tr, s, Run.of_follow hf, hm, ⟨hsettled, hreg, .inl ⟨hs, hpos⟩, .inr ⟨_, hpc, ?_, hpending⟩⟩, hid,
    hcompleted, by rw [hanswered]; decide⟩
  rw [hprocessed]
  decide

end Session

end OccamsRpc
