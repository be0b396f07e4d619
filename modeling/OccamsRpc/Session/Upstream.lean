import OccamsRpc.Lib.Transit
import OccamsRpc.Server.Remaining
import OccamsRpc.Session.System
/-!
# The requests of a session

The server reads the requests that the client gave to its transport, in their order
and byte for byte, however the sockets split them: what it has read, what waits in its
buffer and what is on its way are one stream. A ping has a seq of its own.
-/
open Lib

namespace OccamsRpc

/-! ## The owner's side of the connection -/

namespace Conn

variable {s s' : Conn} {a : SendAct}

theorem send_write (h : s.send a = some s') {t : Task} {nf : Bool} (ht : s'.sender = .write t nf) :
    s.sender = .encode t.id nf ∧ a = .encoded true ∧ t.seq = s.next_seq := by
  cases send_cases h with
  | encode_ok hs =>
    cases ht
    exact ⟨hs, rfl, rfl⟩
  | other pc e _ hpc =>
    cases show pc = .write t nf from ht
    cases hpc
  | _ => cases ht

theorem send_ping_write (h : s.send a = some s') {q : Nat} (hq : s'.sender = .ping_write q) :
    s.sender = .ping_encode ∧ a = .next ∧ q = s.next_seq ∧ q ∈ s'.pinged := by
  unfold send at h
  split at h
  case h_10 hs =>
    cases h
    cases hq
    exact ⟨hs, rfl, rfl, by simp⟩
  all_goals try split at h
  all_goals cases h
  all_goals cases hq

/-- Pings and tasks draw their seqs from one counter. -/
structure Drawn (s : Conn) : Prop where
  pinged : ∀ q ∈ s.pinged, q < s.next_seq ∧ ∀ p ∈ s.assigned, p.2 ≠ q
  pinging : ∀ q, s.sender = .ping_write q → q ∈ s.pinged

theorem new_drawn (thresholds task_timeout : Nat) : Drawn (new thresholds task_timeout) :=
  ⟨nofun, nofun⟩

theorem Drawn.send (hd : Drawn s) (hn : Numbered s) (h : s.send a = some s') : Drawn s' := by
  refine ⟨?_, fun q hq => (send_ping_write h hq).2.2.2⟩
  -- the next seq is nobody's
  have hassign (id : Nat) :
      ∀ q ∈ s.pinged, q < s.next_seq + 1 ∧ ∀ p ∈ s.assigned ++ [(id, s.next_seq)], p.2 ≠ q := by
    intro q hq
    obtain ⟨hlt, hne⟩ := hd.pinged q hq
    exact ⟨Nat.lt_succ_of_lt hlt, forall_mem_concat hne (Nat.ne_of_gt hlt)⟩
  cases send_cases h with
  | encode_ok | encode_err => exact hassign _
  | ping =>
    refine forall_mem_concat (fun q hq => ?_) ⟨Nat.lt_succ_self _, fun p hp => Nat.ne_of_lt (hn.fresh p hp).2⟩
    obtain ⟨hlt, hne⟩ := hd.pinged q hq
    exact ⟨Nat.lt_succ_of_lt hlt, hne⟩
  | @op op => cases op <;> exact hd.pinged
  | _ => exact hd.pinged

theorem recv_pinged {a : RecvAct} (h : s.recv a = some s') : s'.pinged = s.pinged := by
  cases recv_cases h <;> rfl

theorem Drawn.recv {a : RecvAct} (hd : Drawn s) (h : s.recv a = some s') : Drawn s' := by
  have hf := (recv_cases h).frame
  constructor
  · rw [recv_pinged h, hf.next_seq, hf.assigned]
    exact hd.pinged
  · rw [recv_pinged h, hf.sender]
    exact hd.pinging

end Conn

open Conn

/-! ## The bytes of a request -/

namespace Caller

variable {C T : Type} [ClientTaskCommon T] [ClientTask C T] {cl : Caller C T}

/-- Every task can be sent, whatever seq it gets. -/
def Sendable (cl : Caller C T) : Prop :=
  ∀ id seq, (Outgoing.task (cl.tasks id) false).Sendable cl.codec seq

theorem Sendable.outgoing (h : cl.Sendable) (q : Request) (seq : UInt64) :
    (cl.outgoing q).Sendable cl.codec seq := by
  unfold Caller.outgoing
  split
  · exact h _ seq
  · trivial

theorem Sendable.wire_task (h : cl.Sendable) {id seq : Nat}
    {buf buf' : EncodeBuf RPC_REQ_HEADER_LEN} {blob : Option Bytes}
    (he : ReqHead.encode cl.codec buf cl.client_id (cl.task id seq) = (buf', .ok blob)) :
    buf'.data ++ (ClientTask.get_req_blob C (cl.task id seq)).getD [] = cl.wire ⟨some id, seq⟩ := by
  obtain ⟨-, hlen, -⟩ := h id (.ofNat seq)
  obtain ⟨msg_len, hlen', -, rfl, -, hdata⟩ := ReqHead.encode_ok he
  cases hlen.symm.trans hlen'
  have hseq : ClientTaskCommon.seq (cl.task id seq) = .ofNat seq := ClientTaskCommon.seq_set_seq ..
  rw [hdata, hseq]
  simp only [wire, Outgoing.wire, List.append_assoc]
  rfl

end Caller

/-! ## What a write leaves alone -/

namespace TcpClient

theorem Took.of_writeHalf {c c' : TcpClient Sock} {o : Bytes}
    (h : c.Took (fun _ => True) Sock.sent o) (hw : c'.writeHalf = c.writeHalf) :
    c'.Took (fun _ => True) Sock.sent o := by
  simp only [writeHalf, AsyncBufStream.writeHalf, Sock.writeHalf, Prod.mk.injEq] at hw
  obtain ⟨hbuf, -, hsent⟩ := hw
  obtain ⟨⟨hwf, -⟩, hout⟩ := h
  refine ⟨⟨hbuf ▸ hwf, trivial⟩, ?_⟩
  simp only [AsyncBufStream.out] at hout ⊢
  rw [hbuf, hsent]
  exact hout

end TcpClient

namespace Wired

variable {frame : Task → Bytes × Option Bytes} {ping : Nat → Bytes} {w w' : Wired}

/-- A write that does not fail is one that the step takes for a success. -/
theorem written_ok {ok : Bool} {p : Async (TcpClient Sock) IoErr Unit × Bytes}
    (hc : call frame ping w.conn.sender (.written ok) = some p)
    (h : step frame ping w (.snd (.written ok)) = some w')
    (hok : fine frame ping w (.snd (.written ok)) = true) : ok = true := by
  obtain ⟨conn, -, h⟩ := Option.bind_eq_some_iff.1 h
  simp only [fine, hc] at hok
  simp only [hc] at h
  rcases hx : p.1 w.client with ⟨(_ | _) | _, c⟩ <;> simp only [hx] at h hok
  · cases hok
  · obtain ⟨hans, -⟩ := Option.ite_none_right_eq_some.1 h
    simpa [answers, Except.isOk, Except.toBool] using hans
  · cases h

end Wired

namespace Session

variable {CC CT C T R E : Type} [ClientTaskCommon CT] [ClientTask CC CT]

/-! ## The invariant -/

/-- The bytes that the client has given to its stream. -/
def outbound (cl : Caller CC CT) (s : Session T R) : Bytes := s.written.flatMap cl.wire

/-- The requests that the server has read. -/
def arrived (s : Session T R) : List Request := s.written.take s.served.reader.requests.length

/-- The server reads what the client has written. The seqs are in order, the bytes that the
client has given to its stream are the requests that it has encoded, and each of these is a
call with its seq or a ping. -/
structure Upstream (cl : Caller CC CT) (s : Session T R) : Prop where
  numbered : Numbered s.wired.conn
  drawn : Drawn s.wired.conn
  took : s.wired.client.Took (fun _ => True) Sock.sent (s.outbound cl)
  /-- The encode buffer has the request that is being written. -/
  encoded : ∀ t nf, s.wired.conn.sender = .write t nf →
    s.encode_buf.data ++ (ClientTask.get_req_blob CC (cl.task t.id t.seq)).getD [] =
    cl.wire ⟨some t.id, t.seq⟩
  pinging : ∀ q, s.wired.conn.sender = .ping_write q → s.encode_buf.data = cl.wire ⟨none, q⟩
  written : ∀ q ∈ s.written, match q.call with
    | some id => (id, q.seq) ∈ s.wired.conn.assigned
    | none => q.seq ∈ s.wired.conn.pinged
  alloc : s.served.writer.conn.server.alloc.Fits
  requests : s.served.reader.requests = s.arrived.map cl.received
  /-- As long as the reader reads. -/
  transit : s.served.reader.pc ≠ .returned →
    Transit (s.outbound cl) s.up (s.arrived.flatMap cl.wire) (s.served.writer.conn.server.unread Sock.inbound)

variable {cl : Caller CC CT} {s s' : Session T R}

theorem connect_upstream (cl : Caller CC CT) {p : Setup} (halloc : p.alloc.Fits) :
    Upstream cl (connect p : Session T R) where
  numbered := new_numbered _ _
  drawn := new_drawn _ _
  took := Wired.connect_took _ p.config p.thresholds p.task_timeout
  encoded := nofun
  pinging := nofun
  written := nofun
  alloc := halloc
  requests := rfl
  transit := fun _ => .nil

theorem Upstream.le (h : Upstream cl s) : s.served.reader.requests.length ≤ s.written.length := by
  have hlen := congrArg List.length h.requests
  rw [List.length_map, arrived, List.length_take] at hlen
  omega

/-! ## Steps of the client -/

theorem send_grows {c c' : Conn} {a : SendAct} (h : c.send a = some c') :
    c.assigned ⊆ c'.assigned ∧ c.pinged ⊆ c'.pinged := by
  cases send_cases h with
  | encode_ok | encode_err => exact ⟨List.subset_append_left _ _, List.Subset.refl _⟩
  | ping => exact ⟨List.Subset.refl _, List.subset_append_left _ _⟩
  | @op op => cases op <;> exact ⟨List.Subset.refl _, List.Subset.refl _⟩
  | _ => exact ⟨List.Subset.refl _, List.Subset.refl _⟩

theorem gave_of_call {frame : Task → Bytes × Option Bytes} {ping : Nat → Bytes} {pc : SendPc}
    {a : SendAct} (h : Wired.call frame ping pc a = none) : gave pc a = [] := by
  unfold gave
  split
  case h_1 | h_2 => cases h
  case h_3 => rfl

/-- A step of the owner gives the stream the bytes of the request that it records. -/
theorem Upstream.gives (hu : Upstream cl s) {a : SendAct} {wired : Wired}
    (h : s.wired.step (s.request cl) s.ping (.snd a) = some wired)
    (hok : s.wired.fine (s.request cl) s.ping (.snd a) = true) :
    wired.client.Took (fun _ => True) Sock.sent
      (s.outbound cl ++ (gave s.wired.conn.sender a).flatMap cl.wire) := by
  obtain ⟨hconn, ⟨hclient, -, hcall⟩ | ⟨b, x, bs, hb, hcall, hx, -⟩⟩ := Wired.step_cases h hok
  · rw [gave_of_call (hcall a rfl), List.flatMap_nil, List.append_nil, hclient]
    exact hu.took
  · cases hb
    suffices hbs : bs = (gave s.wired.conn.sender a).flatMap cl.wire by
      rw [← hbs]
      exact (Wired.call_returns hcall _ _ _ _ hu.took hx).1
    have hok' {ok : Bool} (ha : a = .written ok) : ok = true := by
      subst ha
      exact Wired.written_ok hcall h hok
    unfold Wired.call at hcall
    split at hcall
    case h_1 t nf ok hs =>
      cases hcall
      rw [hs, hok' rfl]
      simp only [gave, List.flatMap_singleton]
      exact hu.encoded t nf hs
    case h_2 q ok hs =>
      cases hcall
      rw [hs, hok' rfl]
      simp only [gave, List.flatMap_singleton, List.append_nil]
      exact hu.pinging q hs
    case h_3 hs | h_4 hs =>
      cases hcall
      rw [hs]
      rfl
    case h_5 => cases hcall

theorem Upstream.owner (hu : Upstream cl s) (hsend : cl.Sendable) {a : SendAct}
    {buf : EncodeBuf RPC_REQ_HEADER_LEN} {wired : Wired} (henc : s.encode cl a = some buf)
    (h : s.wired.step (s.request cl) s.ping (.snd a) = some wired)
    (hok : s.wired.fine (s.request cl) s.ping (.snd a) = true) :
    Upstream cl { s with
      wired := wired, encode_buf := buf, written := s.written ++ gave s.wired.conn.sender a } := by
  have hconn : s.wired.conn.send a = some wired.conn := (Wired.step_cases h hok).1
  obtain ⟨hassigned, hpinged⟩ := send_grows hconn
  have harrived (l : List Request) :
      (s.written ++ l).take s.served.reader.requests.length = s.arrived :=
    List.take_append_of_le_length hu.le
  refine
    { numbered := hu.numbered.step (a := .snd a) hconn
      drawn := hu.drawn.send hu.numbered hconn
      took := ?_
      encoded := ?_
      pinging := ?_
      written := ?_
      alloc := hu.alloc
      requests := ?_
      transit := ?_ }
  · rw [outbound, List.flatMap_append]
    exact hu.gives h hok
  · intro t nf ht
    obtain ⟨hs, rfl, hseq⟩ := send_write hconn ht
    simp only [encode, hs, ← hseq] at henc
    rcases he : ReqHead.encode cl.codec s.encode_buf cl.client_id (cl.task t.id t.seq)
      with ⟨buf', _ | blob⟩ <;>
      simp [he, Except.isOk, Except.toBool] at henc
    cases henc
    exact hsend.wire_task he
  · intro q hq
    obtain ⟨hs, rfl, rfl, -⟩ := send_ping_write hconn hq
    simp only [encode, hs] at henc
    cases henc
    exact ReqHead.data_encode_ping ..
  · rw [List.forall_mem_append]
    constructor
    · intro q hq
      have h := hu.written q hq
      split at h
      · exact hassigned h
      · exact hpinged h
    · unfold gave
      split
      case h_1 t nf hs =>
        rw [List.forall_mem_singleton]
        exact hassigned (hu.numbered.sending t (by rw [hs]; rfl)).2.2.2
      case h_2 q hs =>
        rw [List.forall_mem_singleton]
        exact hpinged (hu.drawn.pinging q hs)
      case h_3 => exact List.forall_mem_nil _
  · rw [arrived, harrived]
    exact hu.requests
  · intro hpc
    rw [arrived, harrived, outbound, List.flatMap_append]
    exact (hu.transit hpc).write _

/-- A read of the client leaves what it wrote alone. -/
theorem reads_writeHalf {a : RecvAct} {body : Bytes} {stream : AsyncBufStream Sock}
    (h : s.reads a = some (body, stream)) :
    stream.writeHalf = s.stream.writeHalf := by
  have hkeep {len : Nat} {r : Poll (Except IoErr Bytes)} {stream' : AsyncBufStream Sock}
      (hr : AsyncRead.read_exact len s.stream = (r, stream')) :
      stream'.writeHalf = s.stream.writeHalf := by
    have hk := TcpServer.read_stream_keeps len s.stream
    rwa [hr] at hk
  unfold reads at h
  split at h
  case h_1 =>
    split at h
    case h_1 hr =>
      split at h
      case h_1 =>
        split at h <;> cases h
        exact hkeep hr
      case h_2 => cases h
    case h_2 => cases h
  case h_2 =>
    split at h
    case isTrue => cases h
    case isFalse =>
      split at h <;> cases h
      exact hkeep ‹_›
  case h_3 =>
    split at h <;> cases h
    exact hkeep ‹_›
  case h_4 =>
    cases h
    rfl

/-- What the receive coroutine does, and what comes to the client, changes no request. -/
theorem Upstream.client (hu : Upstream cl s) {conn : Conn} {stream : AsyncBufStream Sock}
    (heads : List Frame) (body : Bytes) (answers : List Answer) (down : Nat)
    (hw : stream.writeHalf = s.stream.writeHalf) (hn : Numbered conn) (hd : Drawn conn)
    (hsender : conn.sender = s.wired.conn.sender)
    (hassigned : conn.assigned = s.wired.conn.assigned)
    (hpinged : conn.pinged = s.wired.conn.pinged) :
    Upstream cl { s with
      wired := { s.wired with conn := conn, client := s.wired.client.withStream stream }
      heads := heads
      body := body
      answers := answers
      down := down } :=
  { hu with
    numbered := hn
    drawn := hd
    took := hu.took.of_writeHalf hw
    encoded := by rw [hsender]; exact hu.encoded
    pinging := by rw [hsender]; exact hu.pinging
    written := by rw [hassigned, hpinged]; exact hu.written }

/-! ## Steps of the network and of the server -/

theorem Upstream.up (hu : Upstream cl s) (n : Nat) (evs : List ReadEv) :
    let bs := (s.stream.inner.sent.drop s.up).take n
    Upstream cl { s with served := s.served.feed bs evs, up := s.up + bs.length } := by
  refine { hu with transit := fun hpc => ?_ }
  have hsent : s.stream.inner.sent <+: s.outbound cl := by
    rw [← hu.took.2]
    exact List.prefix_append _ _
  have h := (hu.transit hpc).arrive hsent n
  rw [← TcpServer.unread_feed _ _ evs] at h
  exact h

end Session

namespace ServerReader

variable {C T R E : Type} [ServerTaskDecode C T] [ServerTaskDone T R E] {codec : C}
  {s s' : ServerReader T R} {a : Act T E}

/-- The request that a step has read. -/
def Act.request : Act T E → List RpcSvrReq
  | .read_req req => [req]
  | _ => []

theorem step_requests (h : s.step codec a = some s') : s'.requests = s.requests ++ a.request := by
  cases step_cases h with
  | quick | refused =>
    rw [send_quick_resp_eq]
    simp [Act.request]
  | _ => simp [Act.request]

end ServerReader

namespace Session

variable {CC CT C T R E : Type} [ClientTaskCommon CT] [ClientTask CC CT] [ServerTaskEncode C R]
  [ServerTaskDecode C T]
  [ServerTaskDone T R E] {cl : Caller CC CT} {codec : C} {s : Session T R}

/-- What the server reads is the next request that was written. -/
theorem Upstream.reads (hu : Upstream cl s) (hsend : cl.Sendable)
    (hpc : s.served.reader.pc ≠ .returned) {req : RpcSvrReq} {server : TcpServer Sock}
    (hr : TcpServer.read_req s.served.writer.conn.server = (.ready (.ok req), server)) :
    ∃ q rest, s.written = s.arrived ++ q :: rest ∧ req = cl.received q ∧
      server.alloc = s.served.writer.conn.server.alloc ∧
      Transit (s.outbound cl) s.up (s.arrived.flatMap cl.wire ++ cl.wire q) (server.unread Sock.inbound) := by
  have htransit := hu.transit hpc
  have hsplit : s.arrived ++ s.written.drop s.served.reader.requests.length = s.written :=
    List.take_append_drop _ _
  have hpre : s.served.writer.conn.server.unread Sock.inbound <+:
      (s.written.drop s.served.reader.requests.length).flatMap cl.wire := by
    have hall := htransit
    rw [outbound, ← hsplit, List.flatMap_append] at hall
    exact hall.unread_prefix
  cases hdrop : s.written.drop s.served.reader.requests.length with
  | nil =>
    -- a header was read, and nothing was there
    rw [hdrop] at hpre
    obtain ⟨head, srv, hhead, -⟩ := Async.bind_eq_ok hr
    obtain ⟨⟨-, bs, hlen, hav⟩, -⟩ := TcpServer.read_header_takes Sock.conserves hhead
    have hnil := (List.prefix_nil.1 hpre).symm.trans hav
    rw [(List.append_eq_nil_iff.1 hnil.symm).1] at hlen
    cases hlen
  | cons q rest =>
    rw [hdrop, List.flatMap_cons] at hpre
    obtain ⟨rfl, hreads⟩ :=
      TcpServer.read_req_sent Sock.conserves hu.alloc (hsend.outgoing q _) hpre hr
    refine ⟨q, rest, ?_, rfl, hreads.alloc, htransit.take hreads.took⟩
    rw [← hdrop]
    exact hsplit.symm

omit [ServerTaskEncode C R] [ServerTaskDecode C T] [ServerTaskDone T R E] in
/-- The server does something else than to read a request. -/
theorem Upstream.serves (hu : Upstream cl s) {served : ServedConn T R}
    (hreq : served.reader.requests = s.served.reader.requests)
    (halloc : served.writer.conn.server.alloc = s.served.writer.conn.server.alloc)
    (hun : served.reader.pc ≠ .returned → s.served.reader.pc ≠ .returned ∧
      served.writer.conn.server.unread Sock.inbound =
      s.served.writer.conn.server.unread Sock.inbound) :
    Upstream cl { s with served := served } := by
  have harrived : arrived { s with served := served } = s.arrived := by rw [arrived, hreq]; rfl
  refine { hu with alloc := ?_, requests := ?_, transit := fun hpc => ?_ }
  · rw [halloc]
    exact hu.alloc
  · rw [harrived, hreq]
    exact hu.requests
  · obtain ⟨hpc, hsame⟩ := hun hpc
    rw [harrived, hsame]
    exact hu.transit hpc

theorem Upstream.server (hu : Upstream cl s) (hsend : cl.Sendable) {a : ServedConn.Act T E}
    {served : ServedConn T R} (h : s.served.step codec a = some served) :
    Upstream cl { s with served := served } := by
  cases ServedConn.step_cases h with
  | @read_ok req server reader hr hread =>
    have hpc : s.served.reader.pc ≠ .returned := by
      intro hpc
      simp [ServerReader.step, hpc] at hread
    obtain ⟨q, rest, hw, rfl, halloc, htransit⟩ := hu.reads hsend hpc hr
    have hreq : reader.requests = s.served.reader.requests ++ [cl.received q] :=
      ServerReader.step_requests hread
    have hlen : s.arrived.length = s.served.reader.requests.length := by
      rw [hu.requests, List.length_map]
    have harrived : s.written.take reader.requests.length = s.arrived ++ [q] := by
      rw [hreq, List.length_append, List.length_singleton, ← hlen, hw, List.take_length_add_append]
      rfl
    refine { hu with alloc := ?_, requests := ?_, transit := fun _ => ?_ }
    · exact halloc ▸ hu.alloc
    · rw [arrived]
      simp only [ServedConn.sync, ServedConn.withServer]
      rw [harrived, hreq, List.map_append, ← hu.requests, List.map_singleton]
    · rw [arrived]
      simp only [ServedConn.sync, ServedConn.withServer]
      rw [harrived, List.flatMap_append, List.flatMap_singleton]
      exact htransit
  | @read_err e server reader hr hread =>
    have halloc := TcpServer.read_req_keeps_rest (f := TcpServer.alloc)
      (fun _ _ => rfl) s.served.writer.conn.server
    rw [hr] at halloc
    refine hu.serves ((ServerReader.step_requests hread).trans (List.append_nil _)) halloc
      fun hpc => absurd ?_ hpc
    simp only [ServerReader.step] at hread
    split at hread <;> cases hread
    rfl
  | @handler reader a ha hstep =>
    have hreq := ServerReader.step_requests hstep
    have hnone : a.request = [] := by
      cases a with
      | read_req => cases ha
      | _ => rfl
    rw [hnone, List.append_nil] at hreq
    exact hu.serves hreq rfl fun hpc =>
      ⟨fun hret => hpc (ServerReader.returned_stays hret hstep), rfl⟩
  | write hm =>
    have hrest := (ServedConn.move_work hm).2
    refine hu.serves rfl ?_ fun hpc => ⟨hpc, ServerConn.rest_unread hrest⟩
    simp only [ServerConn.rest, Prod.mk.injEq] at hrest
    exact hrest.2.2.2
  | drop_noti | drop_reader | drop_rx | drop_writer => exact hu.serves rfl rfl fun hpc => ⟨hpc, rfl⟩

theorem Upstream.step (hu : Upstream cl s) (hsend : cl.Sendable) {seq : T → UInt64} {a : Act T E}
    {s' : Session T R} (hok : fine cl seq s a = true) (h : s.step cl codec a = some s') :
    Upstream cl s' := by
  cases a with
  | owner a =>
    obtain ⟨buf, henc, h⟩ := Option.bind_eq_some_iff.1 h
    obtain ⟨wired, hwired, ⟨⟩⟩ := Option.bind_eq_some_iff.1 h
    exact hu.owner hsend henc hwired hok
  | receiver a =>
    obtain ⟨⟨body, stream⟩, hreads, h⟩ := Option.bind_eq_some_iff.1 h
    obtain ⟨conn, hconn, ⟨⟩⟩ := Option.bind_eq_some_iff.1 h
    have hf := (recv_cases hconn).frame
    exact hu.client _ body _ s.down (reads_writeHalf hreads) (hu.numbered.recv (recv_cases hconn))
      (hu.drawn.recv hconn)
      hf.sender hf.assigned (recv_pinged hconn)
  | up n evs =>
    cases h
    exact hu.up n evs
  | down n evs =>
    cases h
    exact hu.client s.heads s.body s.answers _ rfl hu.numbered hu.drawn rfl rfl rfl
  | server a =>
    obtain ⟨served, hserved, rfl⟩ := Option.map_eq_some_iff.1 h
    exact hu.server hsend hserved

end Session

end OccamsRpc
