import OccamsRpc.Api.Remote
import OccamsRpc.Tcp.Halves
/-!
# One request and one response

What each part of a connection does with one call when nothing fails: the request
leaves the client whole, reaches the method it names, and the outcome comes back
to the caller as it was.
-/

namespace OccamsRpc

variable {C σ : Type}

/-! ## The bytes between the two ends -/

namespace AsyncBufStream

/-- Everything written has been flushed, and has left. -/
structure Idle (s : AsyncBufStream Sock) : Prop where
  wf : s.write_buf.Wf
  flushed : s.write_buf.pos = 0
  left : s.inner.sent = []

/-- What is still to be read. -/
structure Holds (s : AsyncBufStream Sock) (bs : Bytes) : Prop where
  wf : s.read_buf.Wf
  avail_eq : s.avail Sock.inbound = bs

variable {s s' : AsyncBufStream Sock} {bs : Bytes}

theorem Idle.out_eq (h : s.Idle) : s.out Sock.sent = [] := by
  simp [out, AsyncBufWrite.held, h.flushed, h.left]

theorem Idle.of_writeHalf (h : s.Idle) (he : s'.writeHalf = s.writeHalf) : s'.Idle := by
  simp only [writeHalf, Sock.writeHalf, Prod.mk.injEq] at he
  exact ⟨he.1 ▸ h.wf, he.1 ▸ h.flushed, he.2.2 ▸ h.left⟩

theorem Holds.of_readHalf (h : s.Holds bs) (he : s'.readHalf = s.readHalf) : s'.Holds bs := by
  simp only [readHalf, Sock.readHalf, Prod.mk.injEq] at he
  refine ⟨he.1 ▸ h.wf, ?_⟩
  rw [avail, he.1, he.2.2]
  exact h.avail_eq

theorem Idle.scripted (h : s.Idle) (reads : List ReadEv) (writes : List WriteEv) :
    (s.scripted reads writes).Idle :=
  ⟨h.wf, h.flushed, h.left⟩

theorem Idle.arriving (h : s.Idle) (bs : Bytes) : (s.arriving bs).Idle := ⟨h.wf, h.flushed, h.left⟩

theorem Holds.scripted (h : s.Holds bs) (reads : List ReadEv) (writes : List WriteEv) :
    (s.scripted reads writes).Holds bs := ⟨h.wf, h.avail_eq⟩

theorem Holds.handedOver (h : s.Holds bs) : s.handedOver.Holds bs := ⟨h.wf, h.avail_eq⟩

theorem Holds.arriving (h : s.Holds bs) (more : Bytes) : (s.arriving more).Holds (bs ++ more) := by
  refine ⟨h.wf, ?_⟩
  rw [← h.avail_eq]
  exact (List.append_assoc ..).symm

theorem room_of_writeHalf {n : Nat} (h : s.Room Sock.Room n) (he : s'.writeHalf = s.writeHalf) :
    s'.Room Sock.Room n := by
  simp only [writeHalf, Sock.writeHalf, Prod.mk.injEq] at he
  refine ⟨he.1 ▸ h.1, ?_⟩
  rw [Sock.Room, he.1, he.2.1]
  exact h.2

theorem Idle.room (h : s.Idle) {reads : List ReadEv} {writes : List WriteEv} {n : Nat}
    (hw : Accepting writes n) :
    (s.scripted reads writes).Room Sock.Room n := by
  refine ⟨h.wf, ?_⟩
  rw [show (s.scripted reads writes).write_buf.pos = 0 from h.flushed, Nat.zero_add]
  exact hw

theorem Holds.live (h : s.Holds bs) {reads : List ReadEv} {writes : List WriteEv}
    (hr : Delivering reads bs) :
    (s.scripted reads writes).Live Sock.Live := by
  refine ⟨h.wf, hr.1, Nat.le_trans ?_ hr.2⟩
  show s.inner.inbound.length ≤ bs.length
  rw [← h.avail_eq, avail, List.length_append]
  omega

/-- After a flush the stream is idle, once what it sent has left. -/
theorem idle_of_flushed {k : Nat} (hroom : s.Room Sock.Room k)
    (hout : s.out Sock.sent = s.inner.sent) :
    s.handedOver.Idle := by
  have hheld : s.write_buf.held = [] := by simpa [out] using hout
  have hpos := congrArg List.length hheld
  rw [AsyncBufWrite.held, List.length_take, List.length_nil, Nat.min_eq_left hroom.1.pos_le] at hpos
  exact ⟨hroom.1, hpos, rfl⟩

end AsyncBufStream

/-! ## One request -/

theorem ClientStreamInner.send_one {T : Type} [ClientTaskCommon T] [ClientTask C T] (codec : C)
    {i : Outgoing T} {c : ClientStreamInner Sock} (hi : i.Sendable codec c.seq)
    (hc : c.conn.stream.Room Sock.Room (i.wire codec c.client_id c.seq).length) :
    ∃ c', send_all codec [i] c = (.ready (.ok ()), c') ∧ c'.client_id = c.client_id ∧
      c'.seq = c.seq + 1 ∧
      c'.conn.stream.inner.sent = c.conn.stream.out Sock.sent ++ i.wire codec c.client_id c.seq ∧
      c'.conn.stream.handedOver.Idle := by
  obtain ⟨c1, hr1, hid, hseq, hout, hroom⟩ := send_ok (k := 0) Sock.accepts codec hi hc
  obtain ⟨s', hr, hinner, hout', hroom'⟩ := TcpClient.flush_req_ok Sock.accepts hroom
  refine ⟨c1.withConn (c1.conn.withStream s'), ?_, hid, hseq, hinner.trans hout, ?_⟩
  · rw [send_all, Async.bind_ok hr1]
    simp only [send_all, flush_req, Async.zoom, Async.mapErr_ok hr]
  · exact AsyncBufStream.idle_of_flushed hroom' (hout'.trans hinner.symm)

theorem ServerConn.write_one {R : Type} [ServerTaskEncode C R] (codec : C) (task : R)
    {c : ServerConn Sock}
    (hc : c.server.stream.Room Sock.Room (RespHead.frame codec c.encode_buf task).length) :
    ∃ c', write_done codec [.ok task] c = (.ready (.ok ()), c') ∧
      c'.server.stream.inner.sent =
      c.server.stream.out Sock.sent ++ RespHead.frame codec c.encode_buf task ∧
      c'.server.stream.handedOver.Idle ∧ c'.server.alloc = c.server.alloc := by
  obtain ⟨c1, hr1, hout, hroom, halloc⟩ := write_resp_ok (k := 0) Sock.accepts codec task hc
  obtain ⟨s', hr, hinner, hout', hroom'⟩ := flush_resp_ok Sock.accepts hroom
  refine ⟨c1.withStream s', ?_, hinner.trans hout, ?_, halloc⟩
  · exact (Async.bind_ok hr1 _).trans hr
  · exact AsyncBufStream.idle_of_flushed hroom' (hout'.trans hinner.symm)

/-! ## A method's outcome, there and back -/

section
variable {serve : Serve C σ}

theorem Call.make_req_eq {codec : C} {c : Call serve} (h : Serde.Lossless codec c.method.Arg)
    (id : Nat) :
    make_req codec c.action c.arg id = some (c.request codec id) := by
  obtain ⟨bs, hbs, -⟩ := h c.arg
  simp only [make_req, hbs, Option.map_some, Call.request, Option.getD_some]

/-- The handler decodes the argument, runs the method and answers with its outcome. -/
theorem Call.handle_eq {codec : C} (c : Call serve) (h : Serde.Lossless codec c.method.Arg)
    (seq : UInt64) (service method : String) (st : σ) :
    c.method.handle codec ⟨seq, service, method, (Serde.encode codec c.arg).getD []⟩ st =
      ((c.run st).1.resp codec seq, (c.run st).2) := by
  obtain ⟨bs, hbs, -, hdec⟩ := h c.arg
  simp only [Method.handle, hbs, Option.getD_some, hdec, Call.run, Outcome.resp]
  rcases c.method.run c.arg st with ⟨_ | _, _⟩ <;> rfl

/-- The request that reaches the server is dispatched to the method it names. -/
theorem Call.dispatched {codec : C} (c : Call serve) (h : Serde.Lossless codec c.method.Arg)
    (id : Nat) (st : σ) :
    Reader.handle (dispatch_req serve codec)
      (Outgoing.received codec (seqOf id) (.task (c.request codec id) false)) st =
      (.ok ((c.run st).1.resp codec (seqOf id)), (c.run st).2) := by
  have hserve :=
    c.registered.serve_eq c.mem codec (seqOf id) ((Serde.encode codec c.arg).getD []) st
  rw [c.handle_eq h] at hserve
  have hdispatch : dispatch_req serve codec
      ⟨seqOf id, .Str c.action, (Serde.encode codec c.arg).getD [], none⟩ st =
        (some ((c.run st).1.resp codec (seqOf id)), (c.run st).2) := by
    simp only [dispatch_req, Call.action, split_once_service_method c.service.no_dot, hserve]
  rw [show Outgoing.received codec (seqOf id) (.task (c.request codec id) false) =
    ⟨seqOf id, .Str c.action, (Serde.encode codec c.arg).getD [], none⟩ from rfl]
  simp only [Reader.handle, hdispatch]
  rfl

theorem Call.sendable {codec : C} {c : Call serve} (h : c.Fits codec) (id : Nat) :
    (Outgoing.task (c.request codec id) false).Sendable codec (seqOf id) :=
  ⟨h.1, rfl, h.2, Nat.zero_le _⟩

end

namespace Outcome

variable {codec : C} {o : Outcome C σ}

/-- The response to a value carries its encoding, the response to an error the
error's own. -/
theorem encode_resp_eq (hl : o.method.Lossless codec) (seq : UInt64) :
    ServerTaskEncode.encode_resp codec (o.resp codec seq) = match o.res with
      | .ok v =>
        ⟨seq, (Serde.encode codec v).getD [], .ok (((Serde.encode codec v).getD []).length, none)⟩
      | .error (.User e) => ⟨seq, [], .error (RpcErrCodec.encode codec e)⟩
      | .error (.Rpc e) => ⟨seq, [], .error (.Rpc e)⟩ := by
  obtain ⟨m, (_ | _) | v⟩ := o
  · rfl
  · rfl
  · obtain ⟨bs, hbs, -⟩ := hl.resp v
    simp only [resp, APIServerReq.set_result, hbs, Option.getD_some]
    rfl

theorem seq_resp (hl : o.method.Lossless codec) (seq : UInt64) :
    (ServerTaskEncode.encode_resp codec (o.resp codec seq)).seq = seq := by
  rw [encode_resp_eq hl]
  obtain ⟨m, (_ | _) | v⟩ := o <;> rfl

theorem no_blob (hl : o.method.Lossless codec) (seq : UInt64) {n : Nat} {blob : Bytes} :
    (ServerTaskEncode.encode_resp codec (o.resp codec seq)).result ≠ .ok (n, some blob) := by
  rw [encode_resp_eq hl]
  obtain ⟨m, (_ | _) | v⟩ := o <;> simp

/-- The bytes do not depend on what the encode buffer held. -/
theorem frame_eq (codec : C) (o : Outcome C σ) (id : Nat) (buf : EncodeBuf RPC_RESP_HEADER_LEN) :
    RespHead.frame codec buf (o.resp codec (seqOf id)) = o.frame codec id :=
  (RespHead.frame_eq codec buf _).trans (RespHead.frame_eq codec _ _).symm

theorem honest (hl : o.method.Lossless codec) (hf : o.Fits codec) (seq : UInt64) :
    (ServerTaskEncode.encode_resp codec (o.resp codec seq)).Honest := by
  rw [encode_resp_eq hl]
  obtain ⟨m, (e | e) | v⟩ := o
  · exact ⟨rfl, hf.2⟩
  · exact ⟨rfl, e.length_as_bytes_le⟩
  · exact ⟨rfl, hf, Nat.zero_le _⟩

/-- The caller whose task comes back with the response gets the outcome. -/
theorem resolved (hl : o.method.Lossless codec) (hf : o.Fits codec) (task : APIClientReq)
    (seq : UInt64) :
    let t := (completion codec task (ServerTaskEncode.encode_resp codec (o.resp codec seq))).task
    t.noti = task.noti ∧ process_res codec (some t) = some o.res := by
  rw [encode_resp_eq hl]
  obtain ⟨m, (e | e) | v⟩ := o
  · -- the user's error, as a number or as a text that is not reserved
    have herr : RpcErrCodec.Lossless codec e := hf.1
    unfold RpcErrCodec.Lossless at herr
    simp only
    cases he : RpcErrCodec.encode codec e with
    | Rpc _ => rw [he] at herr; exact herr.elim
    | Num n =>
      rw [he] at herr
      simp only at herr
      simp [completion, Completion.task, ClientTask.set_custom_error, process_res, process_err, herr]
    | Buf b =>
      rw [he] at herr
      simp only at herr
      simp [completion, failedWith, herr.2, Completion.task, ClientTask.set_custom_error,
        process_res, process_err, herr.1]
    | Static s =>
      rw [he] at herr
      simp only at herr
      simp [completion, failedWith, herr.2, Completion.task, ClientTask.set_custom_error,
        process_res, process_err, herr.1]
  · simp [completion, Completion.task, ClientTask.set_rpc_error, process_res]
  · obtain ⟨bs, hbs, hne, hdec⟩ := hl.resp v
    have hpos : 0 < bs.length := List.length_pos_iff.2 hne
    simp [completion, succeeded, withRespBlob, hbs, hne, hpos, ClientTask.decode_resp,
      APIClientReq.decode_resp, Completion.task, ClientTask.set_ok, process_res, process_ok, hdec]

end Outcome

end OccamsRpc
