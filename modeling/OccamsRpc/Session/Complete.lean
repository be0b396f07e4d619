import OccamsRpc.Conn.Lookup
import OccamsRpc.Session.EndToEnd
/-!
# A session at rest

When both ends wait and nothing is on its way, no task waits either: each one that was
given to `send_task` has been completed, once. So no response is lost between a handler
and the caller, and no task is left behind in the timer.
-/
open Lib

namespace OccamsRpc

/-! ## What a step keeps of the connection -/

namespace Conn

variable {s s' : Conn}

/-- The request of the task was written, and it waits for its response. -/
def Waits (s : Conn) (t : Task) : Prop := s.sender = .reg t ∨ t ∈ s.timer.items

theorem SendMove.waits {a : SendAct} {t : Task} (h : SendMove s a s') (ht : Waits s' t) :
    Waits s t ∨ ∃ nf, s.sender = .write t nf ∧ a = .written true := by
  have hkeep (hs : s'.sender ≠ .reg t) (hi : s'.timer.items = s.timer.items) : Waits s t :=
    .inr (hi ▸ ht.resolve_left hs)
  cases h with
  | @write_ok u nf hs =>
    rcases ht with ⟨⟨⟩⟩ | ht
    · exact .inr ⟨nf, hs, rfl⟩
    · exact .inl (.inr ht)
  | @register u hs =>
    rcases ht with ⟨⟨⟩⟩ | ht
    rcases List.mem_cons.1 ((ClientTaskTimer.reg_task_items s.timer u).subset ht) with rfl | ht
    · exact .inl (.inl hs)
    · exact .inl (.inr ht)
  | @op op => cases op <;> exact .inl (hkeep nofun rfl)
  | other pc e _ hpc =>
    refine .inl (hkeep ?_ rfl)
    rintro rfl
    cases hpc
  | _ => exact .inl (hkeep nofun rfl)

theorem RecvMove.waits {a : RecvAct} {t : Task} (hn : Numbered s) (h : RecvMove s a s')
    (ht : Waits s' t) : Waits s t := by
  rw [Waits, h.frame.sender] at ht
  exact ht.imp_right (h.items_subset hn ·)

/-- A registration that was stopped stays so. -/
theorem SendMove.registering {a : SendAct} (h : SendMove s a s')
    (hr : s'.timer.reg_stopped_flag = false) :
    s.timer.reg_stopped_flag = false := by
  cases h with
  | @op op =>
    cases op with
    | stop_reg_task => cases hr
    | _ => exact hr
  | _ => exact hr

theorem RecvMove.registering {a : RecvAct} (h : RecvMove s a s')
    (hr : s'.timer.reg_stopped_flag = false) :
    s.timer.reg_stopped_flag = false := by
  cases h with
  | tick _ hq => exact (ClientTaskTimer.adjust_task_queue_keeps hq).2.2.2.symm.trans hr
  | pop hq =>
    obtain ⟨t, ts, -, rfl⟩ := ClientTaskTimer.recv_pending_eq hq
    exact hr
  | found _ _ hq => exact (ClientTaskTimer.remove_task_keeps hq).2.2.2.symm.trans hr
  | fail =>
    rw [ClientTaskTimer.fail_tasks_eq] at hr
    exact hr
  | _ => exact hr

/-- As long as the coroutine is in its main loop it has dropped no task, and given up no
future. -/
theorem RecvMove.live {a : RecvAct} (h : RecvMove s a s') (hl : s'.receiver.live = true) :
    s.receiver.live = true ∧ s'.lost_recv = s.lost_recv ∧ s'.given_up = s.given_up := by
  cases h with
  | tick hs | wait hs | sleep hs | finish _ hs =>
    rw [hs]
    exact ⟨rfl, rfl, rfl⟩
  | pop => exact ⟨hl, rfl, rfl⟩
  | found hlive | other _ _ _ hlive => exact ⟨hlive, rfl, rfl⟩
  | _ => cases hl

theorem send_encoded {ok : Bool} (h : s.send (.encoded ok) = some s') :
    ∃ id nf, s.sender = .encode id nf := by
  cases send_cases h with
  | encode_ok hs | encode_err hs => exact ⟨_, _, hs⟩
  | other _ _ _ _ _ ha => exact absurd rfl (ha ok)

theorem send_lost {a : SendAct} (h : s.send a = some s') (ha : a ≠ .encoded false) :
    s'.lost_send = s.lost_send := by
  cases send_cases h with
  | encode_err => exact absurd rfl ha
  | @op op => cases op <;> rfl
  | _ => rfl

theorem SendMove.next_seq_le {a : SendAct} (h : SendMove s a s') : s.next_seq ≤ s'.next_seq := by
  cases h with
  | encode_ok | encode_err | ping => exact Nat.le_succ _
  | @op op => cases op <;> exact Nat.le_refl _
  | _ => exact Nat.le_refl _

theorem RecvState.pc_of_live {r : RecvState} (h : r.live = true) : ∃ pc, r.pc = some pc := by
  cases r with
  | suspended pc | ticking pc | sent pc | running pc => exact ⟨pc, rfl⟩
  | _ => cases h

end Conn

/-- A writer that waits has sent all responses. -/
theorem ServedConn.Sound.sent_eq {C T R : Type} [ServerTaskEncode C R] {codec : C}
    {s : ServedConn T R} (hs : Sound codec s) (hpc : s.writer.pc = .recv)
    (hrx : s.writer.done_rx = []) : s.sent = s.frames codec := by
  obtain ⟨done, hd, hwrote⟩ := hs.took (by rw [hpc]; nofun)
  have hq : s.responses = done := by simpa [Writer.inHand, hpc, hrx] using hd
  rw [frames, hq, ← hwrote.2]
  exact (AsyncBufStream.Flushed.out_eq (hs.flushed (.inl hpc)) Sock.sent).symm

/-! ## No request and no response is empty -/

theorem RespHead.wireOfDone_ne_nil {C R : Type} [ServerTaskEncode C R] {codec : C} (d : Done R) :
    wireOfDone codec d ≠ [] := by
  intro h
  have hlen := length_as_bytes (ofDone codec d)
  rw [(List.append_eq_nil_iff.1 h).1] at hlen
  cases hlen

theorem Caller.wire_ne_nil {C T : Type} [ClientTaskCommon T] [ClientTask C T] (cl : Caller C T)
    (q : Request) :
    cl.wire q ≠ [] := by
  have hne (h : ReqHead) : h.as_bytes ≠ [] := by
    intro hnil
    have hlen := h.length_as_bytes
    rw [hnil] at hlen
    cases hlen
  unfold wire outgoing
  split
  · exact fun h => hne _ (List.append_eq_nil_iff.1 h).1
  · exact hne _

open Conn

namespace Session

variable {CC CT C T R E : Type} [ClientTaskCommon CT] [ClientTask CC CT] {cl : Caller CC CT}
  {codec : C}
  {seq : T → UInt64} {s s' : Session T R}

/-- A task that can be sent is encoded. -/
theorem encode_fine (hsend : cl.Sendable) {id : Nat} {nf : Bool}
    (hs : s.wired.conn.sender = .encode id nf) {buf : EncodeBuf RPC_REQ_HEADER_LEN} {ok : Bool}
    (h : s.encode cl (.encoded ok) = some buf) : ok = true := by
  obtain ⟨-, hlen, hmsg, hblob⟩ := hsend id (.ofNat s.wired.conn.next_seq)
  obtain ⟨buf', he⟩ := ReqHead.encode_of_fits s.encode_buf cl.client_id hlen hmsg hblob
  have he : ReqHead.encode cl.codec s.encode_buf cl.client_id (cl.task id s.wired.conn.next_seq) =
    (buf', _) := he
  simp only [encode, hs, he] at h
  exact (Option.ite_none_right_eq_some.1 h).1.symm

/-! ## The invariant -/

/-- The tasks of the client are accounted for, and so are the requests of the server. -/
structure Accounted (s : Session T R) : Prop where
  placed : Placed s.wired.conn
  waits : ∀ t, Waits s.wired.conn t → ⟨some t.id, t.seq⟩ ∈ s.written
  lost_send : s.wired.conn.lost_send = []
  lost_recv : s.wired.conn.receiver.live = true → s.wired.conn.lost_recv = [] ∧
    s.wired.conn.given_up = 0
  answers : ∀ n, s.served.Answers n
  /-- As long as the client reads responses, and `take_task` waits for registrations. -/
  looked : s.wired.conn.next_seq ≤ 2 ^ 64 → s.wired.conn.timer.reg_stopped_flag = false →
    s.wired.conn.receiver.live = true → Looked s.heads s.wired.conn

theorem connect_accounted (p : Setup) : Accounted (connect p : Session T R) where
  placed := new_placed _ _
  waits := by
    rintro t (⟨⟨⟩⟩ | ht)
    cases ht
  lost_send := rfl
  lost_recv := fun _ => ⟨rfl, rfl⟩
  answers := fun _ _ hn => absurd hn (Nat.not_lt_zero _)
  looked := fun _ _ _ => new_looked _ _

section
variable [ServerTaskEncode C R]

theorem heads_lt (hu : Upstream cl s) (hd : Downstream codec seq s)
    (hseq : s.wired.conn.next_seq ≤ 2 ^ 64) (hlive : s.wired.conn.receiver.live = true) :
    ∀ f ∈ s.heads, f.seq < s.wired.conn.next_seq := by
  obtain ⟨pc, hpc⟩ := RecvState.pc_of_live hlive
  obtain ⟨-, taken, -, hp⟩ := hd.place pc hpc
  obtain ⟨l, hl, hh⟩ := hp.heads_eq
  intro f hf
  rw [hh] at hf
  obtain ⟨d, hm, rfl⟩ := List.mem_map.1 hf
  obtain ⟨n, q, -, -, hq, hdseq⟩ := request_of_response hu hd (hl.subset hm)
  rw [header_seq hu hseq hq hdseq]
  exact written_lt hu hq

/-- The owner writes the request of a task before it registers the task. -/
theorem Accounted.owner (hc : Accounted s) (hu : Upstream cl s) (hd : Downstream codec seq s)
    (hsend : cl.Sendable) {a : SendAct} {buf : EncodeBuf RPC_REQ_HEADER_LEN} {wired : Wired}
    (henc : s.encode cl a = some buf) (h : s.wired.conn.send a = some wired.conn) :
    Accounted { s with
      wired := wired, encode_buf := buf, written := s.written ++ gave s.wired.conn.sender a } := by
  have hm := send_cases h
  refine
    { placed := hc.placed.send hm
      waits := fun t ht => ?_
      lost_send := ?_
      lost_recv := ?_
      answers := hc.answers
      looked := fun hseq hreg hlive => ?_ }
  · rcases hm.waits ht with ht | ⟨nf, hs, rfl⟩
    · exact List.mem_append_left _ (hc.waits t ht)
    · rw [hs]
      exact List.mem_append_right _ (List.mem_singleton_self _)
  · refine (send_lost h ?_).trans hc.lost_send
    rintro rfl
    obtain ⟨id, nf, hs⟩ := send_encoded h
    cases encode_fine hsend hs henc
  · simp only [hm.frame.receiver, hm.frame.lost_recv, hm.frame.given_up]
    exact hc.lost_recv
  · have hlive : s.wired.conn.receiver.live = true := hm.frame.receiver ▸ hlive
    have hseq := Nat.le_trans hm.next_seq_le hseq
    exact (hc.looked hseq (hm.registering hreg) hlive).send (heads_lt hu hd hseq hlive) h

omit [ServerTaskEncode C R] in
theorem Accounted.receiver (hc : Accounted s) (hn : Numbered s.wired.conn) {a : RecvAct}
    {conn : Conn} (h : s.wired.conn.recv a = some conn) (client : TcpClient Sock) (body : Bytes)
    (answers : List Answer) :
    Accounted { s with
      wired := { s.wired with conn := conn, client := client }
      heads := s.heads ++ sees a
      body := body
      answers := answers } := by
  have hm := recv_cases h
  refine
    { placed := Placed.recv hn hc.placed hm
      waits := fun t ht => hc.waits t (hm.waits hn ht)
      lost_send := hm.frame.lost_send.trans hc.lost_send
      lost_recv := fun hl => by
        obtain ⟨hlive, hlost, hgiven⟩ := hm.live hl
        rw [hlost, hgiven]
        exact hc.lost_recv hlive
      answers := hc.answers
      looked := fun hseq hreg hlive => ?_ }
  have hl := hc.looked (hm.frame.next_seq ▸ hseq) (hm.registering hreg) (hm.live hlive).1
  have hold := hl.recv hn (hm.registering hreg) h hlive
  cases a with
  | header f => exact forall_mem_concat hold (header_looked hn h)
  | _ =>
    simp only [sees, List.append_nil]
    exact hold

/-- Some handler gives up its task. -/
def Act.gives_up : Act T E → Bool
  | .server (.handler (.drop _)) => true
  | _ => false

theorem Act.keeps_task {a : ServedConn.Act T E} (h : (Act.server a).gives_up = false) (n : Nat) :
    a.gives_up n = false := by
  refine Bool.eq_false_iff.2 fun hn => ?_
  obtain rfl := ServedConn.Act.gives_up_iff.1 hn
  cases h

theorem Accounted.step [ServerTaskDecode C T] [ServerTaskDone T R E] (hc : Accounted s)
    (hu : Upstream cl s) (hd : Downstream codec seq s) (hsend : cl.Sendable) {a : Act T E}
    (hok : fine cl seq s a = true) (hg : a.gives_up = false) (h : s.step cl codec a = some s') :
    Accounted s' := by
  cases a with
  | owner a =>
    obtain ⟨buf, henc, h⟩ := Option.bind_eq_some_iff.1 h
    obtain ⟨wired, hwired, ⟨⟩⟩ := Option.bind_eq_some_iff.1 h
    exact hc.owner hu hd hsend henc (Wired.step_cases hwired hok).1
  | receiver a =>
    obtain ⟨⟨body, stream⟩, -, h⟩ := Option.bind_eq_some_iff.1 h
    obtain ⟨conn, hconn, ⟨⟩⟩ := Option.bind_eq_some_iff.1 h
    exact hc.receiver hu.numbered hconn _ _ _
  | up | down =>
    cases h
    exact { hc with }
  | server a =>
    obtain ⟨served, hserved, rfl⟩ := Option.map_eq_some_iff.1 h
    exact { hc with answers := fun n => (hc.answers n).step hd.sound (Act.keeps_task hg n) hserved }

end

/-! ## At rest -/

/-- The server's reader waits for a request and its writer for a response, no handler has
a task, and all that was sent has come to the other end. -/
@[mk_iff] structure Settled (s : Session T R) : Prop where
  reader : s.served.reader.pc ≠ .returned
  handlers : s.served.reader.live = false
  writer : s.served.writer.pc = .recv
  done_rx : s.served.writer.done_rx = []
  up : s.up = s.stream.inner.sent.length
  server_unread : s.served.writer.conn.server.unread Sock.inbound = []
  down : s.down = s.served.sent.length

/-- The receive coroutine waits for a header, and nothing of one is there. -/
@[mk_iff] structure Listening (s : Session T R) : Prop where
  registering : s.wired.conn.timer.reg_stopped_flag = false
  head : ∃ c, s.wired.conn.receiver.pc = some (.head c)
  unread : s.stream.unread = []

/-- Both ends are, and the owner is between two calls with nothing in its buffer. -/
@[mk_iff] structure AtRest (s : Session T R) : Prop where
  settled : Settled s
  listening : Listening s
  owner : s.wired.conn.sender = .idle
  flushed : s.wired.client.Flushed

section
instance (pc : WriterPc R) : Decidable (pc = .recv) :=
  match pc with
  | .recv => isTrue rfl
  | .process _ | .try_recv | .flush | .close_conn | .returned => isFalse nofun

instance : Decidable (Settled s) := decidable_of_iff' _ (settled_iff s)

instance : Decidable (Listening s) := decidable_of_iff' _ (listening_iff s)

instance : Decidable (AtRest s) :=
  have : Decidable s.wired.client.Flushed := inferInstanceAs (Decidable (_ = 0))
  decidable_of_iff' _ (atRest_iff s)
end

theorem Listening.live (hl : Listening s) :
    s.wired.conn.receiver.live = true ∧ s.wired.conn.receiver.waits = none ∧
    s.wired.conn.receiver.held = none := by
  obtain ⟨c, hpc⟩ := hl.head
  cases hs : s.wired.conn.receiver with
  | suspended pc | ticking pc | sent pc | running pc =>
    rw [hs] at hpc
    cases hpc
    exact ⟨rfl, rfl, rfl⟩
  | _ =>
    rw [hs] at hpc
    cases hpc

theorem Settled.arrived_eq (hs : Settled s) (hf : s.wired.client.Flushed) (hu : Upstream cl s) :
    s.arrived = s.written := by
  refine prefix_eq_of_flatMap cl.wire_ne_nil (List.take_prefix _ _) ?_
  have hsent : s.stream.inner.sent = s.outbound cl := by
    rw [← hu.took.2]
    exact (AsyncBufStream.Flushed.out_eq hf Sock.sent).symm
  exact (hu.transit hs.reader).taken_eq (by rw [hs.up, hsent]) hs.server_unread

section
variable [ServerTaskEncode C R]

theorem Settled.heads_eq (hs : Settled s) (hl : Listening s) (hd : Downstream codec seq s) :
    s.heads = s.served.responses.map (.ofDone codec) := by
  obtain ⟨c, hpc⟩ := hl.head
  obtain ⟨-, taken, ht, hp⟩ := hd.place _ hpc
  have hsent := ServedConn.Sound.sent_eq hd.sound hs.writer hs.done_rx
  rw [ServedConn.frames_wire] at hsent
  have htaken := ht.taken_eq (by rw [hs.down, hsent]) hl.unread
  obtain ⟨pre, hpre, hh, hpt⟩ := hp
  rw [hh, prefix_eq_of_flatMap RespHead.wireOfDone_ne_nil hpre (hpt.symm.trans htaken)]

/-- No task waits for a response when all of them were read. -/
theorem Settled.items_eq (hs : Settled s) (hl : Listening s) (hf : s.wired.client.Flushed)
    (hu : Upstream cl s) (hd : Downstream codec seq s) (hc : Accounted s)
    (hseq : s.wired.conn.next_seq ≤ 2 ^ 64) :
    s.wired.conn.timer.items = [] := by
  refine List.eq_nil_iff_forall_not_mem.2 fun t ht => ?_
  have hq : (⟨some t.id, t.seq⟩ : Request) ∈ s.arrived := hs.arrived_eq hf hu ▸ hc.waits t (.inr ht)
  obtain ⟨n, hlt, hn⟩ := List.getElem_of_mem hq
  -- the request was read, and its handler has answered
  have hlen : n < s.served.reader.requests.length := by
    rw [hu.requests, List.length_map]
    exact hlt
  have hrx : s.served.reader.noti.rx = true := hd.sound.rx (by rw [hs.writer]; nofun)
  have hanswered : n ∈ s.served.reader.answered :=
    (hc.answers n (.inl hrx) hlen).resolve_right fun hne =>
      hne (ServerReader.tasks_eq_none hd.sound.known hs.handlers n)
  obtain ⟨⟨m, d⟩, hm, rfl⟩ := List.mem_map.1 hanswered
  obtain ⟨req, hreq, hdseq⟩ := hd.labelled.queue _ hm
  have hreq' : s.served.reader.requests[m]? = some (cl.received ⟨some t.id, t.seq⟩) := by
    rw [hu.requests, List.getElem?_map, List.getElem?_eq_getElem hlt, hn]
    rfl
  cases hreq.symm.trans hreq'
  -- the response was read, and the search for its task has found it
  obtain ⟨hlive, hwaits, -⟩ := hl.live
  have hhead : Frame.ofDone codec d ∈ s.heads := by
    rw [hs.heads_eq hl hd]
    exact List.mem_map_of_mem (List.mem_map_of_mem hm)
  rcases hc.looked hseq hl.registering hlive _ hhead with hw | hu'
  · cases hwaits.symm.trans hw
  · refine hu' t (.inr ht) ?_
    rw [header_seq hu hseq (hc.waits t (.inr ht)) (hdseq.trans (received_seq cl _))]

/-- And all tasks were completed, if no call has one. -/
theorem Settled.completed (hs : Settled s) (hl : Listening s) (hf : s.wired.client.Flushed)
    (howned : s.wired.conn.sender.owned = []) (hu : Upstream cl s) (hd : Downstream codec seq s)
    (hc : Accounted s) (hseq : s.wired.conn.next_seq ≤ 2 ^ 64) :
    (s.wired.conn.completed.map Prod.fst).Perm (List.range s.wired.conn.next_id) := by
  obtain ⟨hlive, -, hheld⟩ := hl.live
  have hplaced : s.wired.conn.places.Perm (List.range s.wired.conn.next_id) := hc.placed
  simpa [Conn.places, howned, hs.items_eq hl hf hu hd hc hseq, hheld, hc.lost_send,
    (hc.lost_recv hlive).1] using hplaced

/-- At rest every task that was ever given to `send_task` has been completed, once, and
the server has read every request; unless a handler has given up its task. -/
theorem completed_at_rest [ServerTaskDecode C T] [ServerTaskDone T R E] (hsend : cl.Sendable)
    (hk : KeepsSeq (R := R) E codec seq) {p : Setup} (halloc : p.alloc.Fits)
    {tr : List (Session T R × Act T E)} (h : Run (step cl codec) (connect p) tr s)
    (hok : Meets (fun s a => fine cl seq s a = true ∧ a.gives_up = false) tr)
    (hclean : SendsClean codec s) (hseq : s.wired.conn.next_seq ≤ 2 ^ 64) (hrest : AtRest s) :
    (s.wired.conn.completed.map Prod.fst).Perm (List.range s.wired.conn.next_id) ∧
      s.served.reader.requests = s.written.map cl.received := by
  obtain ⟨hu, hd, hc⟩ := h.inv_of_meets
    (fun s => SendsClean codec s → Upstream cl s ∧ Downstream codec seq s ∧ Accounted s)
    (fun _ => ⟨connect_upstream cl halloc, connect_downstream codec seq p, connect_accounted p⟩)
    (fun _ _ _ hi hok hs hclean => by
      have hclean := hclean.of_step hs
      obtain ⟨hu, hd, hc⟩ := hi hclean
      exact ⟨hu.step hsend hok.1 hs, hd.step hclean hk hok.1 hs,
        hc.step hu hd hsend hok.1 hok.2 hs⟩) hok hclean
  refine ⟨hrest.settled.completed hrest.listening hrest.flushed (by rw [hrest.owner]; rfl) hu hd hc hseq, ?_⟩
  rw [hu.requests, hrest.settled.arrived_eq hrest.flushed hu]

end

/-- The exchange of the sample, until the coroutine waits for the next header. -/
theorem completed_at_rest_echo :
    ∃ (tr : List (Session Echo Echo × Act Echo UInt32)) (s : Session Echo Echo),
    Run (step sampleCaller ()) (connect sampleSetup) tr s ∧ AtRest s ∧ s.wired.conn.next_id = 1 ∧
      (s.wired.conn.completed.map Prod.fst).Perm [0] := by
  have hrun : (follow (step sampleCaller ()) (connect sampleSetup : Session Echo Echo)
      (sampleExchange ++ [.receiver .next])).map (fun r =>
        (r.1.all fun p => fine sampleCaller Echo.seq p.1 p.2 && !p.2.gives_up, r.2.wired.conn.next_seq,
          r.2.wired.conn.next_id, decide (AtRest r.2))) = some (true, 2, 1, true) := by
            decide +kernel
  obtain ⟨⟨tr, s⟩, hf, hend⟩ := Option.map_eq_some_iff.1 hrun
  simp only [Prod.mk.injEq, List.all_eq_true, Bool.and_eq_true, Bool.not_eq_true'] at hend
  obtain ⟨hm, hseq, hid, hrest⟩ := hend
  have hr := Run.of_follow hf
  have hrest := of_decide_eq_true hrest
  have hperm :=
    (completed_at_rest sampleCaller_sendable echo_keepsSeq (fun _ _ => rfl) hr hm (echo_clean s)
    (by rw [hseq]; decide) hrest).1
  rw [hid] at hperm
  exact ⟨tr, s, hr, hrest, hid, hperm⟩

end Session

end OccamsRpc
