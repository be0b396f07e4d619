import OccamsRpc.Api.Exchange
import OccamsRpc.Api.Registry
import OccamsRpc.Lib.Runs
/-!
# Calls are transparent

The connection of `Link` refines `Remote`: whatever order its parts take their
turns in, however the bytes are split, every call runs its method once with its
argument and returns what the method returned.
-/
open Lib

namespace OccamsRpc

variable {C σ : Type} {serve : Serve C σ}

theorem Link.resolve_ok {codec : C} {l : Link C σ} {noti : Nat} {task : Option APIClientReq}
    {o : Outcome C σ} (hc : l.callers[noti]? = some o.method)
    (hp : process_res codec task = some o.res) :
    l.resolve codec noti task = some { l with returned := l.returned ++ [(noti, o)] } := by
  simp only [resolve, hc, hp, Option.map_some]

/-- The connection is in the state that `r` describes: its requests and responses
are on the way from one end to the other, and their tasks in the timer. -/
structure Link.Sim (codec : C) (client_id : UInt64) (tasks : Nat → APIClientReq) (l : Link C σ)
    (r : Remote serve) :
    Prop where
  is_open : l.closed = false
  id_eq : l.client.client_id = client_id
  seq_eq : l.client.seq = seqOf r.made
  alloc : l.server.server.alloc.Fits
  client_idle : l.clientStream.Idle
  server_idle : l.serverStream.Idle
  queued : l.serverStream.Holds (r.queueWire codec client_id)
  answered : l.clientStream.Holds (r.answerWire codec)
  state_eq : l.state = r.state
  returned_eq : l.returned = r.returned
  made_eq : l.callers.length = r.made
  registry : Registry tasks l.timer r.timeout r.made r.tickets
  queue_callers : ∀ p ∈ r.queue, l.callers[p.1.id]? = some p.2.method
  queue_fits : ∀ p ∈ r.queue, p.2.Fits codec
  queue_lossless : ∀ p ∈ r.queue, p.2.method.Lossless codec
  answer_callers : ∀ p ∈ r.answers, l.callers[p.1.id]? = some p.2.method
  answer_fits : ∀ p ∈ r.answers, p.2.Fits codec
  answer_lossless : ∀ p ∈ r.answers, p.2.method.Lossless codec

namespace Link.Sim

variable {codec : C} {client_id : UInt64} {tasks : Nat → APIClientReq} {l : Link C σ}
  {r : Remote serve}

theorem new (codec : C) (cfg : Link.Config) (tasks : Nat → APIClientReq) (st : σ) :
    Sim codec cfg.client_id tasks (Link.new cfg st) (Remote.new cfg.task_timeout st : Remote serve) where
  is_open := rfl
  id_eq := rfl
  seq_eq := rfl
  alloc := cfg.server_alloc_fits
  client_idle := ⟨AsyncBufWrite.new_wf cfg.client_buf_pos, rfl, rfl⟩
  server_idle := ⟨AsyncBufWrite.new_wf cfg.server_buf_pos, rfl, rfl⟩
  queued := ⟨AsyncBufRead.new_wf cfg.server_buf_pos, rfl⟩
  answered := ⟨AsyncBufRead.new_wf cfg.client_buf_pos, rfl⟩
  state_eq := rfl
  returned_eq := rfl
  made_eq := rfl
  registry := .new tasks _
  queue_callers := by simp [Remote.new]
  queue_fits := by simp [Remote.new]
  queue_lossless := by simp [Remote.new]
  answer_callers := by simp [Remote.new]
  answer_fits := by simp [Remote.new]
  answer_lossless := by simp [Remote.new]

/-- A call: its request is on the way, and its task is registered. -/
theorem called (h : Sim codec client_id tasks l r) {c : Call serve} {writes : List WriteEv}
    (hlaw : c.method.Lossless codec) (hok : r.Smooth codec client_id (.call c writes))
    {r' : Remote serve} (hr : r.step (.call c writes) = some r') :
    ∃ l', l.call codec c writes = some l' ∧ ∃ tasks', Sim codec client_id tasks' l' r' := by
  obtain ⟨hfits, hsmall, haccept⟩ := hok
  cases hr
  let l1 : Link C σ :=
    { l.withClientStream (l.clientStream.scripted [] writes) with callers := l.callers ++ [c.method] }
  have hid1 : l1.client.client_id = client_id := h.id_eq
  have hseq1 : l1.client.seq = seqOf r.made := h.seq_eq
  have hroom : l1.client.conn.stream.Room Sock.Room
      ((Outgoing.task (c.request codec r.made) false).wire codec l1.client.client_id
        l1.client.seq).length := by
    rw [hid1, hseq1]
    exact h.client_idle.room haccept
  obtain ⟨client, hsend, hid, hseq, hsent, hidle⟩ := ClientStreamInner.send_one codec
    (by rw [hseq1]; exact Call.sendable hfits r.made) hroom
  rw [hid1, hseq1, show l1.client.conn.stream.out Sock.sent = [] from h.client_idle.out_eq,
    List.nil_append] at hsent
  have hread :=
    ClientStreamInner.send_all_keeps codec [.task (c.request codec r.made) false] l1.client
  rw [hsend] at hread
  refine ⟨{ l1 with client := client, timer := l.timer.reg_task (c.task codec r.made) }.to_server, ?_,
    Function.update tasks r.made (c.task codec r.made), ?_⟩
  · rw [Link.call, if_neg (by simp [h.is_open]), h.made_eq, Call.make_req_eq hlaw.arg]
    simp only
    rw [hsend, show (l.withClientStream (l.clientStream.scripted [] writes)).client.seq =
      seqOf r.made from h.seq_eq]
    rfl
  have hcallers : ∀ {id : Nat} {m : Method C σ}, l.callers[id]? = some m →
      (l.callers ++ [c.method])[id]? = some m := by
    intro id m hm
    rw [List.getElem?_append_left (List.getElem?_eq_some_iff.1 hm).1]
    exact hm
  constructor
  · exact h.is_open
  · exact hid.trans h.id_eq
  · exact hseq.trans (by rw [hseq1, seqOf_succ])
  · exact h.alloc
  · exact hidle
  · exact h.server_idle.arriving _
  · show (l.serverStream.arriving client.conn.stream.inner.sent).Holds
      ((r.queue ++ [((⟨r.made, 0⟩ : Ticket), c)]).flatMap fun p => p.2.wire codec client_id p.1.id)
    rw [List.flatMap_append, List.flatMap_singleton, hsent]
    exact h.queued.arriving _
  · exact ((h.answered.scripted [] writes).of_readHalf hread).handedOver
  · exact h.state_eq
  · exact h.returned_eq
  · show (l.callers ++ [c.method]).length = r.made + 1
    rw [List.length_append, h.made_eq]
    rfl
  · refine (h.registry.call hsmall rfl rfl).perm ?_
    simp only [Remote.tickets, List.map_append, List.map_cons, List.map_nil, List.append_assoc]
    exact List.perm_middle.symm
  · simp only [List.forall_mem_append, List.forall_mem_singleton]
    refine ⟨fun p hp => hcallers (h.queue_callers p hp), ?_⟩
    show (l.callers ++ [c.method])[r.made]? = _
    rw [← h.made_eq, List.getElem?_concat_length]
  · simp only [List.forall_mem_append, List.forall_mem_singleton]
    exact ⟨h.queue_fits, hfits⟩
  · simp only [List.forall_mem_append, List.forall_mem_singleton]
    exact ⟨h.queue_lossless, hlaw⟩
  · exact fun p hp => hcallers (h.answer_callers p hp)
  · exact h.answer_fits
  · exact h.answer_lossless

/-- The server takes the oldest request, runs its method and answers. -/
theorem served (h : Sim codec client_id tasks l r) {reads : List ReadEv} {writes : List WriteEv}
    (hok : r.Smooth codec client_id (.serve reads writes)) {r' : Remote serve}
    (hr : r.step (.serve reads writes) = some r') :
    ∃ l', l.serve serve codec reads writes = some l' ∧ Sim codec client_id tasks l' r' := by
  obtain ⟨hdeliver, hhead⟩ := hok
  rcases hq : r.queue with _ | ⟨⟨k, c⟩, queue⟩
  · simp [Remote.step, hq] at hr
  simp only [Remote.step, hq, Option.some.injEq] at hr
  subst hr
  obtain ⟨hfits, haccept⟩ := hhead (k, c) (by simp [hq])
  have hc : (k, c) ∈ r.queue := by simp [hq]
  have hlc := h.queue_lossless _ hc
  -- the reader
  let s0 := l.serverStream.scripted reads writes
  have hav : s0.avail Sock.inbound = c.wire codec client_id k.id ++
      queue.flatMap fun p => p.2.wire codec client_id p.1.id := by
    rw [(h.queued.scripted reads writes).avail_eq, Remote.queueWire, hq, List.flatMap_cons]
  let srv := (l.withServerStream s0).server.server
  obtain ⟨s1, hread, hav1, hlive1⟩ := TcpServer.read_req_ok Sock.delivers
    (show srv.stream.Live Sock.Live from h.queued.live hdeliver) h.alloc
      (Call.sendable (h.queue_fits _ hc) k.id) hav
  have hwhalf := TcpServer.read_req_keeps srv
  rw [hread] at hwhalf
  -- the writer
  let o := (c.run r.state).1
  have hdone := c.dispatched hlc.arg k.id r.state
  let conn : ServerConn Sock := { l.server with server := srv.withStream s1 }
  have hframe := o.frame_eq codec k.id conn.encode_buf
  obtain ⟨server, hwrite, hsent, hidle, halloc⟩ :=
    ServerConn.write_one codec (o.resp codec (seqOf k.id)) (c := conn)
    (by rw [hframe]; exact AsyncBufStream.room_of_writeHalf (h.server_idle.room haccept) hwhalf)
  have hidle1 : s1.Idle := (h.server_idle.scripted reads writes).of_writeHalf hwhalf
  rw [hframe, show conn.server.stream.out Sock.sent = [] from hidle1.out_eq, List.nil_append] at hsent
  have hrhalf := ServerConn.write_done_keeps codec [.ok (o.resp codec (seqOf k.id))] conn
  rw [hwrite] at hrhalf
  refine ⟨{ l with server := server, state := (c.run r.state).2 }.to_client, ?_, ?_⟩
  · rw [Link.serve,
      show TcpServer.read_req
      (l.withServerStream (l.serverStream.scripted reads writes)).server.server = _
      from hread]
    simp only
    rw [h.state_eq, hdone]
    simp only
    rw [hwrite]
  have hholds :
      server.server.stream.Holds (queue.flatMap fun p => p.2.wire codec client_id p.1.id) :=
    AsyncBufStream.Holds.of_readHalf ⟨hlive1.1, hav1⟩ hrhalf
  constructor
  · exact h.is_open
  · exact h.id_eq
  · exact h.seq_eq
  · show server.server.alloc.Fits
    rw [halloc]
    exact h.alloc
  · exact h.client_idle.arriving _
  · exact hidle
  · exact hholds.handedOver
  · show (l.clientStream.arriving server.server.stream.inner.sent).Holds
      ((r.answers ++ [(k, o)]).flatMap fun p => p.2.frame codec p.1.id)
    rw [List.flatMap_append, List.flatMap_singleton, hsent]
    exact h.answered.arriving _
  · rfl
  · exact h.returned_eq
  · exact h.made_eq
  · refine h.registry.perm ?_
    simp only [Remote.tickets, hq, List.map_append, List.map_cons, List.map_nil, List.cons_append]
    rw [← List.append_assoc]
    exact (List.perm_append_singleton _ _).symm
  · exact fun p hp => h.queue_callers p (by simp [hq, hp])
  · exact fun p hp => h.queue_fits p (by simp [hq, hp])
  · exact fun p hp => h.queue_lossless p (by simp [hq, hp])
  · simp only [List.forall_mem_append, List.forall_mem_singleton]
    exact ⟨h.answer_callers, h.queue_callers _ hc⟩
  · simp only [List.forall_mem_append, List.forall_mem_singleton]
    exact ⟨h.answer_fits, hfits⟩
  · simp only [List.forall_mem_append, List.forall_mem_singleton]
    exact ⟨h.answer_lossless, hlc⟩

/-- The client takes the oldest response, and its caller returns. -/
theorem received (h : Sim codec client_id tasks l r) {reads : List ReadEv}
    (hok : r.Smooth codec client_id (.receive reads)) {r' : Remote serve}
    (hr : r.step (.receive reads) = some r') :
    ∃ l', l.receive codec reads = some l' ∧ Sim codec client_id tasks l' r' := by
  rcases ha : r.answers with _ | ⟨⟨k, o⟩, answers⟩
  · simp [Remote.step, ha] at hr
  simp only [Remote.step, ha, Option.some.injEq] at hr
  subst hr
  have ho : (k, o) ∈ r.answers := by simp [ha]
  have hl := h.answer_lossless _ ho
  have hk : k ∈ r.tickets := by simp [Remote.tickets, ha]
  let s0 := l.clientStream.scripted reads []
  have hav : s0.avail Sock.inbound =
      o.frame codec k.id ++ answers.flatMap fun p => p.2.frame codec p.1.id := by
    rw [(h.answered.scripted reads []).avail_eq, Remote.answerWire, ha, List.flatMap_cons]
  let recv :
    Receiver Sock APIClientReq := ⟨(l.withClientStream s0).client.conn, l.timer, [], l.alloc⟩
  obtain ⟨recv', hread, hav', hlive, hcompl, htake⟩ :=
    Receiver.read_resp_frame (r := recv) codec (some false)
    (o.honest hl (h.answer_fits _ ho) (seqOf k.id)) ((h.registry.seq_eq k hk).trans (o.seq_resp hl _).symm)
    h.registry.timer.wf (h.registry.found hk) (fun _ _ he => absurd he (o.no_blob hl _))
      (h.answered.live hok) hav
  have hwhalf := Receiver.read_resp_keeps codec (some false) recv
  rw [hread] at hwhalf
  obtain ⟨hnoti, hres⟩ := o.resolved hl (h.answer_fits _ ho) (tasks k.id) (seqOf k.id)
  rw [h.registry.noti k hk] at hnoti
  let l1 : Link C σ := { l with client := l.client.withConn recv'.client, timer := recv'.timer }
  refine ⟨{ l1 with returned := l1.returned ++ [(k.id, o)] }, ?_, ?_⟩
  · rw [Link.receive, show Receiver.read_resp codec (some false)
      ⟨(l.withClientStream (l.clientStream.scripted reads [])).client.conn, l.timer, [], l.alloc⟩ = _
      from hread]
    simp only
    rw [hcompl, List.nil_append, List.foldlM_cons, hnoti,
      Link.resolve_ok (l := l1) (h.answer_callers _ ho) hres]
    rfl
  constructor
  · exact h.is_open
  · exact h.id_eq
  · exact h.seq_eq
  · exact h.alloc
  · exact (h.client_idle.scripted reads []).of_writeHalf hwhalf
  · exact h.server_idle
  · exact h.queued
  · exact ⟨hlive.1, hav'⟩
  · exact h.state_eq
  · exact congrArg (· ++ [(k.id, o)]) h.returned_eq
  · exact h.made_eq
  · have hperm : r.tickets.Perm (k :: (r.queue.map Prod.fst ++ answers.map Prod.fst)) := by
      rw [Remote.tickets, ha]
      exact List.perm_middle
    exact (h.registry.perm hperm).take htake
  · exact h.queue_callers
  · exact h.queue_fits
  · exact h.queue_lossless
  · exact fun p hp => h.answer_callers p (by simp [ha, hp])
  · exact fun p hp => h.answer_fits p (by simp [ha, hp])
  · exact fun p hp => h.answer_lossless p (by simp [ha, hp])

/-- A second passes, and no call has waited too long. -/
theorem ticked (h : Sim codec client_id tasks l r) {r' : Remote serve}
    (hr : r.step .tick = some r') :
    ∃ l', l.tick codec = some l' ∧ Sim codec client_id tasks l' r' := by
  simp only [Remote.step, Option.ite_none_right_eq_some, Option.some.injEq] at hr
  obtain ⟨hage, rfl⟩ := hr
  rcases hq : l.timer.adjust_task_queue with ⟨out, tm⟩
  obtain ⟨rfl, hreg⟩ := h.registry.tick (by simpa using hage) hq
  refine ⟨{ l with timer := tm.poll_sent_task.2 }, ?_, ?_⟩
  · rw [Link.tick, hq]
    rfl
  constructor
  · exact h.is_open
  · exact h.id_eq
  · exact h.seq_eq
  · exact h.alloc
  · exact h.client_idle
  · exact h.server_idle
  · rw [Remote.queueWire, List.flatMap_map]
    exact h.queued
  · rw [Remote.answerWire, List.flatMap_map]
    exact h.answered
  · exact h.state_eq
  · exact h.returned_eq
  · exact h.made_eq
  · simpa [Remote.tickets, Function.comp_def] using hreg
  · exact List.forall_mem_map.2 h.queue_callers
  · exact List.forall_mem_map.2 h.queue_fits
  · exact List.forall_mem_map.2 h.queue_lossless
  · exact List.forall_mem_map.2 h.answer_callers
  · exact List.forall_mem_map.2 h.answer_fits
  · exact List.forall_mem_map.2 h.answer_lossless

theorem step (h : ∃ tasks, Sim codec client_id tasks l r) {a : Link.Act serve}
    (hok : r.Smooth codec client_id a ∧ a.Lossless codec) {r' : Remote serve}
    (hr : r.step a = some r') :
    ∃ l', l.step serve codec a = some l' ∧ ∃ tasks, Sim codec client_id tasks l' r' := by
  obtain ⟨tasks, h⟩ := h
  cases a with
  | call c writes => exact h.called hok.2 hok.1 hr
  | serve reads writes =>
    obtain ⟨l', hl', h'⟩ := h.served hok.1 hr
    exact ⟨l', hl', tasks, h'⟩
  | receive reads =>
    obtain ⟨l', hl', h'⟩ := h.received hok.1 hr
    exact ⟨l', hl', tasks, h'⟩
  | tick =>
    obtain ⟨l', hl', h'⟩ := h.ticked hr
    exact ⟨l', hl', tasks, h'⟩

end Link.Sim

/-! ## The theorem -/

/-- Over a connection that takes these steps without a failure of the transport,
the calls served have run their methods, each once, in the order they were made,
and each call that returned got what its method returned, as if the methods had
been called directly. -/
theorem calls_transparent (codec : C) (cfg : Link.Config) (st : σ)
    {tr : List (Remote serve × Link.Act serve)} {r : Remote serve}
    (hrun : Run Remote.step (Remote.new cfg.task_timeout st) tr r)
    (hlaw : Meets (fun _ a => a.Lossless codec) tr)
    (hok : Meets (Remote.Smooth codec cfg.client_id) tr) :
    let acts := tr.map Prod.snd
    let direct := runAll ((Link.Act.calls acts).take (Link.Act.serves acts)) st
    ∃ tr' l, Run (Link.step serve codec) (Link.new cfg st) tr' l ∧ tr'.map Prod.snd = acts ∧
      l.state = direct.2 ∧
      l.returned = (direct.1.mapIdx Prod.mk).take (Link.Act.receives acts) := by
  intro acts direct
  have hmeets : Meets (fun r a => r.Smooth codec cfg.client_id a ∧ a.Lossless codec) tr :=
    fun p hp => ⟨hok p hp, hlaw p hp⟩
  have hinit : ∃ tasks, Link.Sim codec cfg.client_id tasks (Link.new cfg st)
      (Remote.new cfg.task_timeout st : Remote serve) :=
    ⟨fun _ => ⟨0, none, "", none, none, 0⟩, Link.Sim.new codec cfg _ st⟩
  obtain ⟨tr', l, hrun', hacts, _, hsim⟩ := hrun.simulated
    (fun r l => ∃ tasks, Link.Sim codec cfg.client_id tasks l r) hinit
    (fun r a _ _ h (hok : r.Smooth codec cfg.client_id a ∧ a.Lossless codec) hr => Link.Sim.step h
      hok hr) hmeets
  have hfollows := Remote.follows hrun
  refine ⟨tr', l, hrun', hacts, hsim.state_eq.trans hfollows.state, ?_⟩
  rw [hsim.returned_eq, ← hfollows.answers, ← hfollows.returned, List.take_left']
  rfl

/-! ## A stock, counted in unary -/

/-- A codec that writes a number as so many bytes, and one more. -/
structure Unary

instance : Serde Unary Nat where
  encode _ n := some (List.replicate (n + 1) 0)
  encode_into _ n := (List.replicate (n + 1) 0, some (n + 1))
  decode
    | _, [] => none
    | _, _ :: bs => some bs.length

theorem Unary.lossless (codec : Unary) : Serde.Lossless codec Nat := by
  intro n
  refine ⟨List.replicate (n + 1) 0, rfl, by simp, ?_⟩
  show some (List.replicate n (0 : UInt8)).length = some n
  rw [List.length_replicate]

/-- Takes so many pieces from the stock, if there are enough, and returns what is
left. -/
def takeMethod : Method Unary Nat where
  name := "take"
  Arg := Nat
  Resp := Nat
  Err := String
  run n stock := if n ≤ stock then (.ok (stock - n), stock - n) else (.error (.User "too few"), stock)

def stockService : Service Unary Nat where
  SERVICE_NAME := "Stock"
  methods := [takeMethod]
  no_dot := by decide
  distinct := by simp

def takeCall (n : Nat) : Call stockService.serve where
  service := stockService
  method := takeMethod
  arg := n
  registered := .alone
  mem := by simp [stockService]

def takeOutcome (res : Except (RpcError String) Nat) : Outcome Unary Nat := ⟨takeMethod, res⟩

theorem takeMethod_lossless (codec : Unary) : takeMethod.Lossless codec :=
  ⟨Unary.lossless codec, Unary.lossless codec⟩

theorem sampleBuf_fits : RPC_REQ_HEADER_LEN ≤ (List.replicate 40 (0xff : UInt8)).length := by decide

def sampleConfig : Link.Config where
  client_id := 42
  task_timeout := 1
  client_timeout := 0
  server_timeout := 0
  client_buf := 8
  server_buf := 5
  client_buf_pos := by decide
  server_buf_pos := by decide
  req_buf := .with_capacity (List.replicate 40 0xff) sampleBuf_fits
  resp_buf := .with_capacity (List.replicate 40 0xff) (by decide)
  client_alloc n := some (as_usize n)
  server_alloc n := some (as_usize n)
  server_alloc_fits _ _ := rfl

theorem accepting_replicate {n k : Nat} (h : n ≤ k) (m : Nat) :
    Accepting (List.replicate k (.accept (m + 1))) n := by
  refine ⟨by simp, ?_⟩
  simpa [List.countP_replicate] using h

theorem delivering_replicate {bs : Bytes} {k : Nat} (h : bs.length ≤ k) (m : Nat) :
    Delivering (List.replicate k (.chunk (m + 1))) bs := by
  refine ⟨by simp, ?_⟩
  simpa [List.countP_replicate] using h

/-- Two calls under way at once, and a second that passes between them: from a
stock of 5 the first takes 3 and the second is refused. -/
theorem calls_transparent_stock :
    let writes := List.replicate 99 (.accept 3)
    let reads := List.replicate 99 (.chunk 7)
    ∃ tr l, Run (Link.step stockService.serve ⟨⟩) (Link.new sampleConfig 5) tr l ∧
      tr.map Prod.snd = [.call (takeCall 3) writes, .call (takeCall 9) writes, .serve reads writes, .tick,
        .serve reads writes, .receive reads, .receive reads] ∧
      l.state = 2 ∧
        l.returned = [(0, takeOutcome (.ok 2)), (1, takeOutcome (.error (.User "too few")))] := by
  intro writes reads
  have hnil : Run Remote.step (Remote.new 1 5 : Remote stockService.serve) [] (Remote.new 1 5) :=
    .nil
  have hrun :=
    ((((((hnil.snoc (a := .call (takeCall 3) writes) rfl).snoc
    (a := .call (takeCall 9) writes) rfl).snoc
    (a := .serve reads writes) rfl).snoc (a := .tick) rfl).snoc (a := .serve reads writes) rfl).snoc
    (a := .receive reads) rfl).snoc (a := .receive reads) rfl
  have hlaw := takeMethod_lossless ⟨⟩
  obtain ⟨tr, l, hlink, hacts, hstate, hret⟩ := calls_transparent ⟨⟩ sampleConfig 5 hrun
    (by simp only [meets_snoc, meets_nil, Link.Act.Lossless, true_and, and_true]; exact ⟨hlaw, hlaw⟩)
    (by
      simp only [meets_snoc, meets_nil, true_and]
      refine ⟨⟨⟨⟨⟨⟨?_, ?_⟩, ?_⟩, ?_⟩, ?_⟩, ?_⟩, ?_⟩
      · exact ⟨⟨by decide, by decide⟩, by decide, accepting_replicate (by decide +kernel) 2⟩
      · exact ⟨⟨by decide, by decide⟩, by decide, accepting_replicate (by decide +kernel) 2⟩
      · refine ⟨delivering_replicate (by decide +kernel) 6, ?_⟩
        rintro p ⟨⟩
        exact ⟨by show ([0, 0, 0] : Bytes).length ≤ u32_MAX; decide,
          accepting_replicate (by decide +kernel) 2⟩
      · trivial
      · refine ⟨delivering_replicate (by decide +kernel) 6, ?_⟩
        rintro p ⟨⟩
        refine ⟨⟨⟨fromUtf8_strBytes _, by decide⟩, ?_⟩, accepting_replicate (by decide +kernel) 2⟩
        show (strBytes "too few").length ≤ i32_MAX
        decide
      · exact delivering_replicate (by decide +kernel) 6
      · exact delivering_replicate (by decide +kernel) 6)
  exact ⟨tr, l, hlink, hacts, hstate, hret⟩

/-! ## A request too long for its header -/

theorem ReqHead.encode_too_long {T : Type} [ClientTaskCommon T] [ClientTask C T] (codec : C)
    (task : T) {n : Nat} (h : (ClientTask.encode_req codec task).2 = some n) (hn : u32_MAX < n)
    (buf : EncodeBuf RPC_REQ_HEADER_LEN) (client_id : UInt64) :
    ∃ buf', encode codec buf client_id task = (buf', .error ()) := by
  unfold encode
  rcases hr : ClientTask.encode_req codec task with ⟨msg, r⟩
  rw [hr] at h
  cases h
  simp only [if_pos (show n > u32_MAX from hn)]
  exact ⟨_, rfl⟩

/-- The worker drops the task with the caller's channel: the caller is told of an
internal error, and the service of nothing. -/
theorem Link.call_too_long (codec : C) {l : Link C σ} (hopen : l.closed = false) {c : Call serve}
    (hlaw : c.method.Lossless codec) (hlong : u32_MAX < ((Serde.encode codec c.arg).getD []).length)
    (writes : List WriteEv) :
    ∃ l', l.call codec c writes = some l' ∧ l'.state = l.state ∧
      l'.returned = l.returned ++ [(l.callers.length, ⟨c.method, .error (.Rpc .Internal)⟩)] := by
  let l1 : Link C σ :=
    { l.withClientStream (l.clientStream.scripted [] writes) with callers := l.callers ++ [c.method] }
  obtain ⟨client, hsend⟩ : ∃ client, ClientStreamInner.send_all codec
      [.task (c.request codec l.callers.length) false] l1.client =
        (.ready (.error .Encode), client) := by
    obtain ⟨buf, hbuf⟩ := ReqHead.encode_too_long codec
      (ClientTaskCommon.set_seq (c.request codec l.callers.length) l1.client.seq) rfl hlong
      l1.client.encode_buf l1.client.client_id
    refine ⟨{ l1.client with seq := l1.client.seq + 1, encode_buf := buf }, ?_⟩
    simp only [ClientStreamInner.send_all, ClientStreamInner.send, ClientStreamInner.send_request,
      ClientStreamInner.seq_update, bind, Async.bind, hbuf]
  have hcaller : (l.callers ++ [c.method])[l.callers.length]? = some c.method :=
    List.getElem?_concat_length
  refine ⟨{ l1 with
    client := client, closed := true,
    returned := l.returned ++ [(l.callers.length, ⟨c.method, .error (.Rpc .Internal)⟩)] },
    ?_, rfl, rfl⟩
  rw [Link.call, if_neg (by simp [hopen]), Call.make_req_eq hlaw.arg]
  simp only
  rw [hsend]
  exact Link.resolve_ok (o := ⟨c.method, .error (.Rpc .Internal)⟩) hcaller rfl

/-- A call that takes 2^32 of 2^33 pieces is refused with an internal error and
never reaches the service, which would have served it. -/
theorem long_call_not_transparent :
    (takeCall (2 ^ 32)).method.Lossless ⟨⟩ ∧
      (takeCall (2 ^ 32)).run (2 ^ 33) = (takeOutcome (.ok (2 ^ 32)), 2 ^ 32) ∧
      ∃ l, Link.step stockService.serve ⟨⟩ (Link.new sampleConfig (2 ^ 33))
      (.call (takeCall (2 ^ 32)) []) = some l ∧
        l.returned = [(0, takeOutcome (.error (.Rpc .Internal)))] ∧ l.state = 2 ^ 33 := by
  have hlaw := takeMethod_lossless ⟨⟩
  refine ⟨hlaw, rfl, ?_⟩
  have hlong : u32_MAX < ((Serde.encode (⟨⟩ : Unary) (takeCall (2 ^ 32)).arg).getD []).length := by
    show u32_MAX < (List.replicate (2 ^ 32 + 1) (0 : UInt8)).length
    rw [List.length_replicate]
    decide
  obtain ⟨l, hl, hstate, hret⟩ :=
    Link.call_too_long (⟨⟩ : Unary) (l := Link.new sampleConfig (2 ^ 33)) rfl hlaw hlong []
  exact ⟨l, hl, hret, hstate⟩

end OccamsRpc
