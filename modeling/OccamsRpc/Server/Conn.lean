import OccamsRpc.Core.Shown
import OccamsRpc.Server.Reader
import OccamsRpc.Server.Writer
/-!
# A connection of the server

`server_conn` of `stream/src/server/server.rs`: the reader, the writer and the
handlers of one connection, joined by the channel of responses and by the stream
that both coroutines use. A coroutine that has returned drops what it holds, field
by field: the reader its `RespNoti` and then the connection, the writer the
receiver and then the connection. The writer goes on until every `RespNoti` is
gone, those in the tasks of the handlers too.
-/
open Lib

namespace OccamsRpc

/-! ## The bytes of a response -/

namespace ServerConn

variable {S C R : Type} [ServerTaskEncode C R]

/-- What the buffer held before does not matter. -/
theorem frame_conn (codec : C) (c c' : ServerConn S) : c.frame (R := R) codec = c'.frame codec := by
  funext d
  rcases d with ⟨seq, _ | e⟩ | task
  · have h (b : EncodeBuf RPC_RESP_HEADER_LEN) : (RespHead.encode_internal b seq none).data =
        (RespHead.filled 0 seq 0 0).as_bytes ++ [] := by
      rw [RespHead.encode_internal, ← EncodeBuf.write_all_nil b.set_len]
      exact b.data_fill_head [] _ (by simp)
    simp only [frame, h]
  · have h (b : EncodeBuf RPC_RESP_HEADER_LEN) : (RespHead.encode_internal b seq (some e)).data =
        (RespHead.errHead seq (.Rpc e)).as_bytes ++ [] ++ (EncodedErr.Rpc e).text.getD [] := by
      rw [RespHead.encode_internal, ← EncodeBuf.write_all_nil b.set_len]
      exact RespHead.data_encode_error b [] seq (.Rpc e)
    simp only [frame, h]
  · simp only [frame, RespHead.frame_eq]

section
variable [AsyncWrite S] {out : S → Bytes}

theorem write_all_leaves (h : Exact S out) (o buf : Bytes) :
    Async.Leaves (Took (fun _ => True) out o) (writing (AsyncWrite.write_all buf))
      fun c => out c.server.stream.inner <+: o ++ buf :=
  ((AsyncBufStream.shows h).write_all o buf).zoom_timeout (fun _ _ => rfl) write_timeout

theorem flush_resp_leaves (h : Exact S out) (o : Bytes) :
    Async.Leaves (Took (fun _ => True) out o) flush_resp fun c => out c.server.stream.inner <+: o :=
  (AsyncBufStream.flush_leaves h o).zoom_timeout (fun _ _ => rfl) write_timeout

theorem flush_resp_flushed {c : ServerConn S} (h : c.Flushed) :
    flush_resp c = (.ready (.ok ()), c) := by
  have hpos : c.server.stream.write_buf.pos = 0 := h
  have hflush : AsyncBufStream.flush c.server.stream = (.ready (.ok ()), c.server.stream) := by
    simp [AsyncBufStream.flush, AsyncBufWrite.flush, hpos]
  exact writing_ok hflush

/-- However the writing of a response ends, the peer has seen what came before it
and a first part of its own bytes. -/
theorem process_leaves (h : Exact S out) (codec : C) (task : Done R) {o : Bytes} {c : ServerConn S}
    (hc : c.Took (fun _ => True) out o) :
    out (process codec task c).2.server.stream.inner <+: o ++ c.frame codec task := by
  rcases task with ⟨seq, err⟩ | task
  · exact write_all_leaves h o _ { c with encode_buf := RespHead.encode_internal c.encode_buf seq err } hc
  · rcases he : RespHead.encode codec c.encode_buf task with ⟨buf, seq, blob⟩
    have hframe : c.frame codec (.ok task) = buf.data ++ blob.getD [] := by
      simp only [frame, RespHead.frame, he]
    have hblob : Async.Leaves (Took (fun _ => True) out (o ++ buf.data)) (write_blob blob)
        fun c => out c.server.stream.inner <+: o ++ (buf.data ++ blob.getD []) := by
      rw [← List.append_assoc]
      cases blob with
      | none =>
        apply Async.Leaves.pure
        intro c hc
        rw [Option.getD_none, List.append_nil, ← hc.2]
        exact List.prefix_append _ _
      | some buf => exact write_all_leaves h _ buf
    have hbuf : Async.Leaves (Took (fun _ => True) out o) (writing (AsyncWrite.write_all buf.data))
        fun c => out c.server.stream.inner <+: o ++ (buf.data ++ blob.getD []) :=
      (write_all_leaves h o buf.data).weaken (fun _ hc => hc) fun _ hp =>
        hp.trans (by rw [← List.append_assoc]; exact List.prefix_append _ _)
    rw [hframe]
    simp only [process, write_resp, he]
    exact hbuf.bind (write_all_returns h.passes o buf.data) (fun _ => hblob) { c with encode_buf := buf } hc

end

end ServerConn

/-! ## What a step of the writer can do -/

namespace Writer

variable {C R : Type} [ServerTaskEncode C R]

/-- The response that was taken from the channel and is being written. -/
def inHand (w : Writer R) : List (Done R) :=
  match w.pc with
  | .process task => [task]
  | _ => []

/-- What a step of the writer can do. -/
inductive Move (codec : C) (w : Writer R) : Writer R → Prop
  | take {task rest} (hpc : w.pc = .recv ∨ w.pc = .try_recv) (hrx : w.done_rx = task :: rest) :
    Move codec w { w with pc := .process task, done_rx := rest }
  | hung_up (hpc : w.pc = .recv) (hrx : w.done_rx = []) (hs : w.senders = false) :
    Move codec w { w with pc := .close_conn }
  | drained (hpc : w.pc = .try_recv) (hrx : w.done_rx = []) : Move codec w { w with pc := .flush }
  | wrote {task conn} (hpc : w.pc = .process task)
    (hr : ServerConn.process codec task w.conn = (.ready (.ok ()), conn)) :
    Move codec w { w with conn := conn, pc := .try_recv, written := w.written ++ w.conn.frame codec task }
  | flushed {conn} (hpc : w.pc = .flush)
    (hr : ServerConn.flush_resp w.conn = (.ready (.ok ()), conn)) :
    Move codec w { w with conn := conn, pc := .recv, written := w.written ++ [] }
  | closed {conn} (hpc : w.pc = .close_conn)
    (hr : ServerConn.flush_resp w.conn = (.ready (.ok ()), conn)) :
    Move codec w { w with conn := conn, pc := .returned, written := w.written ++ [] }
  | write_err {task conn e} (hpc : w.pc = .process task)
    (hr : ServerConn.process codec task w.conn = (.ready (.error e), conn)) :
    Move codec w { w with conn := conn, pc := .returned }
  | flush_err {conn e} (hpc : w.pc = .flush ∨ w.pc = .close_conn)
    (hr : ServerConn.flush_resp w.conn = (.ready (.error e), conn)) :
    Move codec w { w with conn := conn, pc := .returned }

theorem writes_cases {w w' : Writer R} {x : Async (ServerConn Sock) IoErr Unit} {bs : Bytes}
    {pc : WriterPc R} (h : w.writes x bs pc = some w') :
    (∃ conn, x w.conn = (.ready (.ok ()), conn) ∧
      w' = { w with conn := conn, pc := pc, written := w.written ++ bs }) ∨
    ∃ conn e, x w.conn = (.ready (.error e), conn) ∧
      w' = { w with conn := conn, pc := .returned } := by
  unfold writes at h
  split at h
  case h_1 => cases h
  case h_2 conn hr =>
    cases h
    exact .inl ⟨conn, hr, rfl⟩
  case h_3 e conn hr =>
    cases h
    exact .inr ⟨conn, e, hr, rfl⟩

theorem run_cases {codec : C} {w w' : Writer R} (h : w.run codec = some w') : Move codec w w' := by
  unfold run at h
  split at h
  case h_1 hpc =>
    split at h
    case h_1 hrx =>
      cases h
      exact .take (.inl hpc) hrx
    case h_2 hrx =>
      split at h <;> cases h
      exact .hung_up hpc hrx (Bool.eq_false_iff.2 ‹_›)
  case h_2 task hpc =>
    rcases writes_cases h with ⟨conn, hr, rfl⟩ | ⟨conn, e, hr, rfl⟩
    · exact .wrote hpc hr
    · exact .write_err hpc hr
  case h_3 hpc =>
    split at h <;> cases h
    · exact .take (.inr hpc) ‹_›
    · exact .drained hpc ‹_›
  case h_4 hpc =>
    rcases writes_cases h with ⟨conn, hr, rfl⟩ | ⟨conn, e, hr, rfl⟩
    · exact .flushed hpc hr
    · exact .flush_err (.inl hpc) hr
  case h_5 hpc =>
    rcases writes_cases h with ⟨conn, hr, rfl⟩ | ⟨conn, e, hr, rfl⟩
    · exact .closed hpc hr
    · exact .flush_err (.inr hpc) hr
  case h_6 => cases h

theorem Move.not_returned {codec : C} {w w' : Writer R} (h : Move codec w w') :
    w.pc ≠ .returned := by
  intro hret
  cases h with
  | take hpc | flush_err hpc => rcases hpc with hpc | hpc <;> cases hret.symm.trans hpc
  | hung_up hpc | drained hpc | wrote hpc | flushed hpc | closed hpc | write_err hpc =>
    cases hret.symm.trans hpc

/-- The step is the flush of `close_conn`, and it succeeds: the write direction is
shut down after it. -/
def shuts (w : Writer R) : Bool :=
  match w.pc with
  | .close_conn => ((ServerConn.flush_resp w.conn).1 matches .ready (.ok ()))
  | _ => false

/-- The step is a write or a flush that fails, and `run` returns its error. -/
def fails (codec : C) (w : Writer R) : Bool :=
  match w.pc with
  | .process task => ((ServerConn.process codec task w.conn).1 matches .ready (.error _))
  | .flush => ((ServerConn.flush_resp w.conn).1 matches .ready (.error _))
  | _ => false

end Writer

/-! ## The connection -/

section
variable {T E : Type}

/-- Something a handler, or whoever has its task, does. -/
def ServerReader.Act.handles : ServerReader.Act T E → Bool
  | .work .. | .set_result .. | .drop _ | .handled _ => true
  | _ => false

end

/-- Some handler has its task, and with it a `RespNoti`. -/
def ServerReader.live {T R : Type} (s : ServerReader T R) : Bool :=
  (List.range s.requests.length).any fun n => (s.tasks n).isSome

/-- `noti` is the `RespNoti` of the reader, `reader_conn` and `writer_conn` are the
two `Arc`s of the connection; all are dropped at the end. `shut` tells that
`shutdown_write` was called, `failed` that `Writer::run` returned an error. -/
structure ServedConn (T R : Type) where
  reader : ServerReader T R
  writer : Writer R
  noti : Bool
  reader_conn : Bool
  writer_conn : Bool
  shut : Bool
  failed : Bool

namespace ServedConn

variable {C T R E : Type}

/-- `server_conn` spawns the two coroutines; both have the connection. -/
def server_conn (conn : ServerConn Sock) : ServedConn T R :=
  ⟨.new, .new conn, true, true, true, false, false⟩

/-- The two halves share the stream. -/
def withServer (s : ServedConn T R) (server : TcpServer Sock) : ServedConn T R :=
  { s with writer := { s.writer with conn := { s.writer.conn with server := server } } }

/-- More bytes of the peer come to the server. -/
def feed (s : ServedConn T R) (bs : Bytes) (evs : List ReadEv) : ServedConn T R :=
  s.withServer (s.writer.conn.server.feed bs evs)

/-- What the reader or a handler did reaches the writer: what was sent is in the
channel, and a `RespNoti` that was dropped is gone. -/
def sync (s : ServedConn T R) (reader : ServerReader T R) : ServedConn T R :=
  { s with
    reader := reader
    writer := { s.writer with
      done_rx := s.writer.done_rx ++ (reader.noti.queue.drop s.reader.noti.queue.length).map Prod.snd
      senders := s.noti || reader.live } }

/-- The reader, the handlers and the writer take turns. The `drop_` steps are the parts of
the connection that go when a coroutine returns. -/
inductive Act (T E : Type)
  /-- The `read_req` of the reader returns. -/
  | read_req
  | handler (a : ServerReader.Act T E)
  | write
  | drop_noti
  | drop_reader
  | drop_rx
  | drop_writer

variable [ServerTaskEncode C R] [ServerTaskDecode C T] [ServerTaskDone T R E]

/-- Any interleaving of reader, handlers and writer. -/
def step (codec : C) (s : ServedConn T R) : Act T E → Option (ServedConn T R)
  | .read_req =>
    match TcpServer.read_req s.writer.conn.server with
    | (.pending, _) => none
    | (.ready (.ok req), server) =>
      (s.reader.step codec (.read_req req : ServerReader.Act T E)).map (s.withServer server).sync
    | (.ready (.error _), server) =>
      (s.reader.step codec (.read_err : ServerReader.Act T E)).map (s.withServer server).sync
  | .handler a => if a.handles then (s.reader.step codec a).map s.sync else none
  | .write => (s.writer.run codec).map fun w =>
    { s with writer := w, shut := s.shut || s.writer.shuts, failed := s.failed || s.writer.fails codec }
  | .drop_noti =>
    match s.reader.pc with
    | .returned =>
      if s.noti then some { s with
        noti := false, writer := { s.writer with senders := s.reader.live } } else none
    | _ => none
  | .drop_reader => if s.reader_conn ∧ ¬ s.noti then some { s with reader_conn := false } else none
  | .drop_rx =>
    match s.writer.pc with
    | .returned =>
      (s.reader.step codec (.writer_exits : ServerReader.Act T E)).map fun reader =>
        { s with reader := reader }
    | _ => none
  | .drop_writer =>
    if s.writer_conn ∧ ¬ s.reader.noti.rx then some { s with writer_conn := false } else none

/-- The connection is dropped, and its socket closed. -/
def gone (s : ServedConn T R) : Bool := !s.reader_conn && !s.writer_conn

/-! ## What a step can do -/

/-- What a step of the connection can do. -/
inductive Step (codec : C) (s : ServedConn T R) : Act T E → ServedConn T R → Prop
  | read_ok {req server reader}
    (hr : TcpServer.read_req s.writer.conn.server = (.ready (.ok req), server))
    (h : s.reader.step codec (.read_req req : ServerReader.Act T E) = some reader) :
    Step codec s .read_req ((s.withServer server).sync reader)
  | read_err {e server reader}
    (hr : TcpServer.read_req s.writer.conn.server = (.ready (.error e), server))
    (h : s.reader.step codec (.read_err : ServerReader.Act T E) = some reader) :
    Step codec s .read_req ((s.withServer server).sync reader)
  | handler {reader} (a : ServerReader.Act T E) (ha : a.handles = true)
    (h : s.reader.step codec a = some reader) :
    Step codec s (.handler a) (s.sync reader)
  | write {w} (h : Writer.Move codec s.writer w) :
    Step codec s .write
      { s with writer := w, shut := s.shut || s.writer.shuts, failed := s.failed || s.writer.fails codec }
  | drop_noti (hpc : s.reader.pc = .returned) (h : s.noti = true) :
    Step codec s .drop_noti { s with noti := false, writer := { s.writer with senders := s.reader.live } }
  | drop_reader (h : s.reader_conn = true) (hn : s.noti = false) :
    Step codec s .drop_reader { s with reader_conn := false }
  | drop_rx (hpc : s.writer.pc = .returned) (h : s.reader.noti.rx = true) :
    Step codec s .drop_rx { s with reader := { s.reader with noti := { s.reader.noti with rx := false } } }
  | drop_writer (h : s.writer_conn = true) (hrx : s.reader.noti.rx = false) :
    Step codec s .drop_writer { s with writer_conn := false }

variable {codec : C} {s s' : ServedConn T R} {a : Act T E}

theorem step_cases (h : s.step codec a = some s') : Step codec s a s' := by
  cases a with
  | read_req =>
    simp only [step] at h
    split at h
    case h_1 => cases h
    case h_2 hr =>
      obtain ⟨reader, hstep, rfl⟩ := Option.map_eq_some_iff.1 h
      exact .read_ok hr hstep
    case h_3 hr =>
      obtain ⟨reader, hstep, rfl⟩ := Option.map_eq_some_iff.1 h
      exact .read_err hr hstep
  | handler a =>
    simp only [step] at h
    split at h
    case isTrue ha =>
      obtain ⟨reader, hstep, rfl⟩ := Option.map_eq_some_iff.1 h
      exact .handler a ha hstep
    case isFalse => cases h
  | write =>
    obtain ⟨w, hrun, rfl⟩ := Option.map_eq_some_iff.1 h
    exact .write (Writer.run_cases hrun)
  | drop_noti =>
    simp only [step] at h
    split at h
    · split at h <;> cases h
      exact .drop_noti ‹_› ‹_›
    · cases h
  | drop_reader =>
    simp only [step] at h
    split at h <;> cases h
    rename_i hc
    exact .drop_reader hc.1 (Bool.eq_false_iff.2 hc.2)
  | drop_rx =>
    simp only [step] at h
    split at h
    · simp only [ServerReader.step] at h
      split at h <;> cases h
      exact .drop_rx ‹_› ‹_›
    · cases h
  | drop_writer =>
    simp only [step] at h
    split at h <;> cases h
    rename_i hc
    exact .drop_writer hc.1 (Bool.eq_false_iff.2 hc.2)

end ServedConn

/-! ## The reader's side of the channel -/

namespace ServerReader

variable {C T R E : Type} [ServerTaskDecode C T] [ServerTaskDone T R E] {codec : C}
  {s s' : ServerReader T R}
  {a : Act T E}

theorem done_queue (noti : RespNoti (Nat × Done R)) (m : Nat × Done R) :
    ∃ sent, (noti.done m).queue = noti.queue ++ sent ∧ (noti.done m).rx = noti.rx := by
  cases hrx : noti.rx
  · exact ⟨[], by simp [RespNoti.done, RespNoti.send, hrx]⟩
  · exact ⟨[m], by simp [RespNoti.done, RespNoti.send, hrx]⟩

/-- What is sent comes behind what was sent before. -/
theorem step_queue (h : s.step codec a = some s') :
    ∃ sent, s'.noti.queue = s.noti.queue ++ sent ∧
      (a ≠ .writer_exits → s'.noti.rx = s.noti.rx) := by
  have hdone (m : Nat × Done R) : ∃ sent, (s.noti.done m).queue = s.noti.queue ++ sent ∧
      (a ≠ .writer_exits → (s.noti.done m).rx = s.noti.rx) := by
    obtain ⟨sent, hq, hrx⟩ := done_queue s.noti m
    exact ⟨sent, hq, fun _ => hrx⟩
  cases step_cases h with
  | quick | refused =>
    rw [send_quick_resp_eq]
    exact hdone _
  | set_result => exact hdone _
  | start | read_err | work | drop | accepted => exact ⟨[], by simp⟩
  | writer_exits => exact ⟨[], by simp⟩

theorem tasks_eq_none (hk : s.Known) (hlive : s.live = false) (n : Nat) : s.tasks n = none := by
  by_contra hne
  have hlt := (hk.live n hne).1
  simp only [live, List.any_eq_false, List.mem_range] at hlive
  exact hlive n hlt (Option.isSome_iff_ne_none.2 hne)

theorem ne_exits {a : Act T E} (ha : a.handles = true) : a ≠ .writer_exits := by
  rintro rfl
  cases ha

/-- A reader that has returned does not start again. -/
theorem returned_stays (hpc : s.pc = .returned) (h : s.step codec a = some s') :
    s'.pc = .returned := by
  cases a with
  | read_req | read_err | handled => simp [step, hpc] at h
  | work | drop | writer_exits =>
    simp only [step] at h
    split at h <;> cases h
    exact hpc
  | set_result =>
    simp only [step] at h
    split at h <;> cases h
    exact hpc

/-- When the reader has returned and no task is left, nobody can send. -/
theorem sealed (hk : s.Known) (hpc : s.pc = .returned) (hlive : s.live = false)
    (hne : a ≠ .writer_exits) :
    s.step codec a = none := by
  have hnone := tasks_eq_none hk hlive
  cases a with
  | read_req | read_err | handled => simp [step, hpc]
  | work | set_result | drop => simp [step, hnone]
  | writer_exits => exact absurd rfl hne

end ServerReader

/-! ## What the peer has seen -/

namespace ServedConn

variable {C T R E : Type} [ServerTaskEncode C R]

/-- The responses sent to the writer, in their order. -/
def responses (s : ServedConn T R) : List (Done R) := s.reader.noti.queue.map Prod.snd

/-- Their bytes. -/
def frames (codec : C) (s : ServedConn T R) : Bytes :=
  s.responses.flatMap (s.writer.conn.frame codec)

/-- What the peer has been sent. -/
def sent (s : ServedConn T R) : Bytes := s.writer.conn.server.stream.inner.sent

/-- The bytes of `done` were given to the stream. -/
def Wrote (codec : C) (s : ServedConn T R) (done : List (Done R)) : Prop :=
  s.writer.conn.Took (fun _ => True) Sock.sent (done.flatMap (s.writer.conn.frame codec))

/-- The bytes that the peer has seen are the frames of the responses that were sent, cut off
somewhere, and all of them once the stream is shut down. Between the two, each response is
written, in the hands of the writer, or in its channel, and nothing stays unflushed while
the writer waits. -/
structure Sound (codec : C) (s : ServedConn T R) : Prop where
  known : s.reader.Known
  senders : s.writer.senders = (s.noti || s.reader.live)
  noti : s.noti = false → s.reader.pc = .returned
  rx : s.writer.pc ≠ .returned → s.reader.noti.rx = true
  closing : s.writer.pc = .close_conn → s.writer.senders = false ∧ s.writer.done_rx = []
  /-- What was sent is written, in the writer's hand, or in the channel. -/
  took : s.writer.pc ≠ .returned →
    ∃ done, s.responses = done ++ s.writer.inHand ++ s.writer.done_rx ∧ s.Wrote codec done
  flushed : s.writer.pc = .recv ∨ s.writer.pc = .close_conn → s.writer.conn.Flushed
  shown : s.sent <+: s.frames codec
  shut : s.shut = true → s.writer.pc = .returned ∧ s.writer.senders = false ∧
    s.sent = s.frames codec
  ended : s.writer.pc = .returned → s.shut = true ∨ s.failed = true
  /-- The connection is dropped last. -/
  reader_last : s.reader_conn = false → s.noti = false
  writer_last : s.writer_conn = false → s.reader.noti.rx = false

variable {codec : C} {s s' : ServedConn T R}

theorem Sound.sealed (hs : Sound codec s) (hsend : s.writer.senders = false) :
    s.reader.pc = .returned ∧ s.reader.live = false := by
  rw [hs.senders, Bool.or_eq_false_iff] at hsend
  exact ⟨hs.noti hsend.1, hsend.2⟩

/-- What a stream was given begins with what the peer has been sent. -/
theorem Wrote.sent_prefix {done : List (Done R)} (h : s.Wrote codec done) :
    s.sent <+: done.flatMap (s.writer.conn.frame codec) := by
  rw [← h.2]
  exact List.prefix_append _ _

theorem read_req_writeHalf {srv srv' : TcpServer Sock} {r : Poll (Except RpcIntErr RpcSvrReq)}
    (hr : TcpServer.read_req srv = (r, srv')) : srv'.writeHalf = srv.writeHalf := by
  have hkeeps := TcpServer.read_req_keeps srv
  rwa [hr] at hkeeps

theorem frames_eq (s : ServedConn T R) (c : ServerConn Sock) :
    s.frames codec = s.responses.flatMap (c.frame codec) := by
  rw [frames, ServerConn.frame_conn codec s.writer.conn c]

/-- Reading leaves what was written alone. -/
theorem Wrote.withServer {done : List (Done R)} {server : TcpServer Sock} (h : s.Wrote codec done)
    (hw : server.writeHalf = s.writer.conn.server.writeHalf) :
    (s.withServer server).Wrote codec done := by
  simp only [TcpServer.writeHalf, AsyncBufStream.writeHalf, Sock.writeHalf, Prod.mk.injEq] at hw
  obtain ⟨hbuf, -, hsent⟩ := hw
  obtain ⟨⟨hwf, -⟩, hout⟩ := h
  refine ⟨⟨hbuf ▸ hwf, trivial⟩, ?_⟩
  simp only [AsyncBufStream.out] at hout ⊢
  rw [ServerConn.frame_conn codec (s.withServer server).writer.conn s.writer.conn, ← hout]
  simp only [ServedConn.withServer, hbuf, hsent]

/-- The same with another reading half of the stream. -/
theorem Sound.withServer (hs : Sound codec s) {server : TcpServer Sock}
    (hw : server.writeHalf = s.writer.conn.server.writeHalf) :
    Sound codec (s.withServer server) := by
  have hhalf := hw
  simp only [TcpServer.writeHalf, AsyncBufStream.writeHalf, Sock.writeHalf, Prod.mk.injEq] at hhalf
  obtain ⟨hbuf, -, hsame⟩ := hhalf
  have hsent : (s.withServer server).sent = s.sent := hsame
  have hframes : (s.withServer server).frames codec = s.frames codec := frames_eq _ s.writer.conn
  refine { hs with took := fun hpc => ?_, flushed := fun hpc => ?_, shown := ?_, shut := fun hshut => ?_ }
  · obtain ⟨done, hd, hwrote⟩ := hs.took hpc
    exact ⟨done, hd, hwrote.withServer hw⟩
  · have hf : s.writer.conn.server.stream.write_buf.pos = 0 := hs.flushed hpc
    rw [← hbuf] at hf
    exact hf
  · rw [hsent, hframes]
    exact hs.shown
  · rw [hsent, hframes]
    exact hs.shut hshut

theorem Sound.feed (hs : Sound codec s) (bs : Bytes) (evs : List ReadEv) :
    Sound codec (s.feed bs evs) :=
  hs.withServer rfl

section
variable [ServerTaskDecode C T] [ServerTaskDone T R E]

/-- The reader or a handler does something. -/
theorem Sound.sync (hs : Sound codec s) {a : ServerReader.Act T E} {reader : ServerReader T R}
    (hne : a ≠ .writer_exits) (h : s.reader.step codec a = some reader) :
    Sound codec (s.sync reader) := by
  obtain ⟨sent, hq, hrx⟩ := ServerReader.step_queue h
  have hrx := hrx hne
  -- as something was done, there is somebody who can send
  have hopen : s.writer.senders ≠ false := by
    intro hsend
    obtain ⟨hpc, hlive⟩ := hs.sealed hsend
    rw [ServerReader.sealed hs.known hpc hlive hne] at h
    cases h
  have hresp : (s.sync reader).responses = s.responses ++ sent.map Prod.snd := by
    simp only [responses, ServedConn.sync, hq, List.map_append]
  have hdone : (s.sync reader).writer.done_rx = s.writer.done_rx ++ sent.map Prod.snd := by
    simp only [ServedConn.sync, hq, List.drop_left]
  refine
    { known := hs.known.step h
      senders := rfl
      noti := fun hn => ServerReader.returned_stays (hs.noti hn) h
      rx := fun hpc => hrx.trans (hs.rx hpc)
      closing := fun hpc => absurd (hs.closing hpc).1 hopen
      took := fun hpc => ?_
      flushed := hs.flushed
      shown := ?_
      shut := fun hshut => absurd (hs.shut hshut).2.1 hopen
      ended := hs.ended
      reader_last := hs.reader_last
      writer_last := fun h => hrx.trans (hs.writer_last h) }
  · obtain ⟨done, hd, hwrote⟩ := hs.took hpc
    refine ⟨done, ?_, hwrote⟩
    rw [hresp, hdone, hd, List.append_assoc]
    rfl
  · rw [frames, hresp, List.flatMap_append]
    exact hs.shown.trans (List.prefix_append _ _)

end

/-- The writer moves on: what has to be shown of the writer it becomes. -/
theorem Sound.moves (hs : Sound codec s) {w : Writer R} (hpc : s.writer.pc ≠ .returned)
    (hsend : w.senders = s.writer.senders)
    (hclosing : w.pc = .close_conn → w.senders = false ∧ w.done_rx = [])
    (htook : w.pc ≠ .returned → ∃ done, s.responses = done ++ w.inHand ++ w.done_rx ∧
      w.conn.Took (fun _ => True) Sock.sent (done.flatMap (w.conn.frame codec)))
    (hflushed : w.pc = .recv ∨ w.pc = .close_conn → w.conn.Flushed)
    (hshown : w.conn.server.stream.inner.sent <+: s.frames codec)
    (hshut : s.writer.shuts = true → w.pc = .returned ∧ w.senders = false ∧
      w.conn.server.stream.inner.sent = s.frames codec)
    (hended : w.pc = .returned → s.writer.shuts = true ∨ s.writer.fails codec = true) :
    Sound codec { s with
      writer := w, shut := s.shut || s.writer.shuts,
      failed := s.failed || s.writer.fails codec } := by
  have hframes : frames codec
      { s with writer := w, shut := s.shut || s.writer.shuts, failed := s.failed || s.writer.fails codec } =
      s.frames codec :=
    frames_eq _ s.writer.conn
  refine
    { known := hs.known
      senders := hsend.trans hs.senders
      noti := hs.noti
      rx := fun _ => hs.rx hpc
      closing := hclosing
      took := htook
      flushed := hflushed
      shown := by rw [hframes]; exact hshown
      shut := fun h => ?_
      ended := fun h => (hended h).imp (fun h => by rw [h, Bool.or_true]) fun h => by
        rw [h, Bool.or_true]
      reader_last := hs.reader_last
      writer_last := hs.writer_last }
  rcases Bool.or_eq_true_iff.1 h with h | h
  · exact absurd (hs.shut h).1 hpc
  · rw [hframes]
    exact hshut h

theorem Sound.write (hs : Sound codec s) {w : Writer R} (h : Writer.Move codec s.writer w) :
    Sound codec { s with
      writer := w, shut := s.shut || s.writer.shuts,
      failed := s.failed || s.writer.fails codec } := by
  have hne := h.not_returned
  obtain ⟨done, hd, hwrote⟩ := hs.took hne
  cases h with
  | take hpc hrx =>
    have hhand : s.writer.inHand = [] := by rcases hpc with h | h <;> simp [Writer.inHand, h]
    refine hs.moves hne rfl nofun (fun _ => ⟨done, ?_, hwrote⟩) nofun hs.shown (fun hshut => ?_) nofun
    · rw [hd, hhand, hrx]
      simp [Writer.inHand]
    · rcases hpc with h | h <;> simp [Writer.shuts, h] at hshut
  | hung_up hpc hrx hsend =>
    refine hs.moves hne rfl (fun _ => ⟨hsend, hrx⟩) (fun _ => ⟨done, ?_, hwrote⟩)
      (fun _ => hs.flushed (.inl hpc)) hs.shown
      (fun hshut => ?_) nofun
    · rw [hd]
      simp [Writer.inHand, hpc]
    · simp [Writer.shuts, hpc] at hshut
  | drained hpc hrx =>
    refine hs.moves hne rfl nofun (fun _ => ⟨done, ?_, hwrote⟩) (by rintro (h | h) <;> cases h) hs.shown
      (fun hshut => ?_) nofun
    · rw [hd]
      simp [Writer.inHand, hpc]
    · simp [Writer.shuts, hpc] at hshut
  | @wrote task conn hpc hr =>
    have htook :
        conn.Took (fun _ => True) Sock.sent ((done ++ [task]).flatMap (conn.frame codec)) := by
      rw [ServerConn.frame_conn codec conn s.writer.conn, List.flatMap_append, List.flatMap_singleton]
      exact ServerConn.process_returns Sock.passes codec task _ _ s.writer.conn () conn ⟨hwrote, rfl⟩ hr
    have hq : s.responses = done ++ [task] ++ s.writer.done_rx := by
      simpa [Writer.inHand, hpc] using hd
    refine hs.moves hne rfl nofun (fun _ => ⟨done ++ [task], by simpa [Writer.inHand] using hq, htook⟩)
      (by rintro (h | h) <;> cases h) ?_ (fun hshut => ?_) nofun
    · have hpre :
          conn.server.stream.inner.sent <+: (done ++ [task]).flatMap (conn.frame codec) := by
        rw [← htook.2]
        exact List.prefix_append _ _
      rw [frames_eq s conn, hq, List.flatMap_append]
      exact hpre.trans (List.prefix_append _ _)
    · simp [Writer.shuts, hpc] at hshut
  | @flushed conn hpc hr =>
    obtain ⟨htook, hfl⟩ := ServerConn.flush_resp_returns Sock.passes _ s.writer.conn () conn hwrote hr
    have hleft := ServerConn.flush_resp_leaves Sock.exact _ s.writer.conn hwrote
    rw [hr] at hleft
    refine hs.moves hne rfl nofun (fun _ => ⟨done, by simpa [Writer.inHand, hpc] using hd, ?_⟩)
      (fun _ => hfl) ?_
      (fun hshut => ?_) nofun
    · rw [ServerConn.frame_conn codec conn s.writer.conn]
      exact htook
    · rw [frames, hd, List.append_assoc, List.flatMap_append]
      exact hleft.trans (List.prefix_append _ _)
    · simp [Writer.shuts, hpc] at hshut
  | @closed conn hpc hr =>
    obtain ⟨hsend, hrx⟩ := hs.closing hpc
    obtain ⟨htook, hfl⟩ := ServerConn.flush_resp_returns Sock.passes _ s.writer.conn () conn hwrote hr
    have hall : conn.server.stream.inner.sent = s.frames codec := by
      have hq : s.responses = done := by simpa [Writer.inHand, hpc, hrx] using hd
      rw [frames, hq, ← htook.2]
      exact (AsyncBufStream.Flushed.out_eq hfl Sock.sent).symm
    exact hs.moves hne rfl nofun (fun h => absurd rfl h) (by rintro (h | h) <;> cases h)
      (by simp only [hall, List.prefix_rfl])
      (fun _ => ⟨rfl, hsend, hall⟩) fun _ => .inl (by simp [Writer.shuts, hpc, hr])
  | @write_err task conn e hpc hr =>
    have hleft := ServerConn.process_leaves Sock.exact codec task hwrote
    rw [hr] at hleft
    refine hs.moves hne rfl nofun (fun h => absurd rfl h) (by rintro (h | h) <;> cases h) ?_ (fun hshut => ?_)
      fun _ => .inr (by simp [Writer.fails, hpc, hr])
    · have hq : s.responses = done ++ [task] ++ s.writer.done_rx := by
        simpa [Writer.inHand, hpc] using hd
      rw [frames, hq, List.flatMap_append, List.flatMap_append, List.flatMap_singleton]
      exact hleft.trans (List.prefix_append _ _)
    · simp [Writer.shuts, hpc] at hshut
  | @flush_err conn e hpc hr =>
    have hleft := ServerConn.flush_resp_leaves Sock.exact _ s.writer.conn hwrote
    rw [hr] at hleft
    refine hs.moves hne rfl nofun (fun h => absurd rfl h) (by rintro (h | h) <;> cases h) ?_
      (fun hshut => ?_) fun _ => ?_
    · rw [frames, hd, List.append_assoc, List.flatMap_append]
      exact hleft.trans (List.prefix_append _ _)
    · rcases hpc with h | h <;> simp [Writer.shuts, h, hr] at hshut
    · rcases hpc with h | h
      · exact .inr (by simp [Writer.fails, h, hr])
      · -- nothing is left to be flushed when the connection is closed
        rw [ServerConn.flush_resp_flushed (hs.flushed (.inr h))] at hr
        cases hr

theorem server_conn_sound (codec : C) (reads : List ReadEv) (inbound : Bytes)
    (writes : List WriteEv) (config : ServerConfig) (alloc : BufferAlloc)
    (encode_buf : EncodeBuf RPC_RESP_HEADER_LEN) :
    Sound codec (server_conn (.new_conn ⟨reads, inbound, writes, []⟩ config alloc encode_buf) :
      ServedConn T R) := by
  have hkept := Writer.new_kept (R := R) ⟨reads, inbound, writes, []⟩ config alloc encode_buf
  have hnone :
      (server_conn (.new_conn ⟨reads, inbound, writes, []⟩ config alloc encode_buf) :
        ServedConn T R).responses = [] :=
    rfl
  exact
    { known := ServerReader.new_known
      senders := rfl
      noti := nofun
      rx := fun _ => rfl
      closing := nofun
      took := fun _ => ⟨[], hnone, hkept.took.resolve_left nofun⟩
      flushed := fun _ => hkept.flushed rfl
      shown := List.nil_prefix
      shut := nofun
      ended := nofun
      reader_last := nofun
      writer_last := nofun }

section
variable [ServerTaskDecode C T] [ServerTaskDone T R E] {a : Act T E}

theorem Sound.step (hs : Sound codec s) (h : s.step codec a = some s') : Sound codec s' := by
  cases step_cases h with
  | read_ok hr hstep | read_err hr hstep =>
    exact (hs.withServer (read_req_writeHalf hr)).sync (by rintro ⟨⟩) hstep
  | handler a ha hstep => exact hs.sync (ServerReader.ne_exits ha) hstep
  | write hm => exact hs.write hm
  | drop_noti hpc hn =>
    -- as long as the reader has its `RespNoti`, the writer does not close
    have hsend : s.writer.senders ≠ false := by rw [hs.senders, hn]; nofun
    exact
      { hs with
        senders := rfl
        noti := fun _ => hpc
        closing := fun h => absurd (hs.closing h).1 hsend
        shut := fun h => absurd (hs.shut h).2.1 hsend
        reader_last := fun _ => rfl }
  | drop_reader _ hn => exact { hs with reader_last := fun _ => hn }
  | drop_rx hpc hrx =>
    exact { hs with
      known := { hs.known with told := nofun }, rx := fun h => absurd hpc h,
      writer_last := fun _ => rfl }
  | drop_writer _ hrx => exact { hs with writer_last := fun _ => hrx }

end

end ServedConn

/-! ## Every request is answered -/

namespace ServerReader

variable {C T R E : Type} [ServerTaskDecode C T] [ServerTaskDone T R E] {codec : C}
  {s s' : ServerReader T R}
  {a : Act T E}

/-- The task of request `n` is given up without a result. -/
def Act.gives_up (n : Nat) : Act T E → Bool
  | .drop m => m == n
  | _ => false

/-- The request `n`, if it was read, has its answer, or a task that can still get one. -/
def Served (n : Nat) (s : ServerReader T R) : Prop :=
  n < s.requests.length → n ∈ s.answered ∨ s.tasks n ≠ none

/-- What is sent is in the queue as long as the writer receives. -/
theorem mem_done {noti : RespNoti (Nat × Done R)} (hrx : noti.rx = true) (n : Nat) (d : Done R)
    (m : Nat) :
    m ∈ (noti.done (n, d)).queue.map Prod.fst ↔ m ∈ noti.queue.map Prod.fst ∨ m = n := by
  simp [RespNoti.done, RespNoti.send, hrx]

theorem Served.step {m : Nat} (hs : s.Served m) (hrx : s.noti.rx = true) (ha : a.gives_up m = false)
    (h : s.step codec a = some s') : s'.Served m := by
  have hsent (n : Nat) (d : Done R) :
      m ∈ (s.noti.done (n, d)).queue.map Prod.fst ↔ m ∈ s.answered ∨ m = n :=
    mem_done hrx n d m
  cases step_cases h with
  | quick req err =>
    rw [send_quick_resp_eq]
    intro hm
    rw [List.length_append, List.length_singleton] at hm
    rcases Nat.lt_succ_iff_lt_or_eq.1 hm with hlt | rfl
    · exact (hs hlt).imp_left fun hin => (hsent _ _).2 (.inl hin)
    · exact .inl ((hsent _ _).2 (.inr rfl))
  | start req task =>
    intro hm
    rw [List.length_append, List.length_singleton] at hm
    rcases Nat.lt_succ_iff_lt_or_eq.1 hm with hlt | rfl
    · refine (hs hlt).imp_right fun hne => ?_
      simpa only [Function.update_of_ne (Nat.ne_of_lt hlt)] using hne
    · exact .inr (by simp)
  | read_err | accepted | writer_exits => exact hs
  | work n task hn =>
    intro hm
    refine (hs hm).imp_right fun hne => ?_
    by_cases he : m = n
    · subst he
      simp
    · simpa only [Function.update_of_ne he] using hne
  | set_result n res d hn =>
    intro hm
    by_cases he : m = n
    · exact .inl ((hsent n (.ok d)).2 (.inr he))
    · refine (hs hm).imp (fun hin => (hsent n (.ok d)).2 (.inl hin)) fun hne => ?_
      simpa only [Function.update_of_ne he] using hne
  | drop n =>
    -- the task of another request
    have he : m ≠ n := fun he => beq_eq_false_iff_ne.1 ha he.symm
    intro hm
    refine (hs hm).imp_right fun hne => ?_
    simpa only [Function.update_of_ne he] using hne
  | refused n seq hpc =>
    rw [send_quick_resp_eq]
    intro hm
    exact (hs hm).imp_left fun hin => (hsent _ _).2 (.inl hin)

end ServerReader

namespace ServedConn

variable {C T R E : Type} [ServerTaskEncode C R] [ServerTaskDecode C T] [ServerTaskDone T R E]
  {codec : C}
  {s s' : ServedConn T R} {a : Act T E}

/-- The handler of request `n` gives up its task. -/
def Act.gives_up (n : Nat) : Act T E → Bool
  | .handler a => a.gives_up n
  | _ => false

omit [ServerTaskEncode C R] [ServerTaskDecode C T] [ServerTaskDone T R E] in
theorem Act.gives_up_iff {n : Nat} : a.gives_up n = true ↔ a = .handler (.drop n) := by
  constructor
  · intro h
    cases a with
    | handler a =>
      cases a with
      | drop m => rw [beq_iff_eq.1 h]
      | _ => cases h
    | _ => cases h
  · rintro rfl
    exact beq_self_eq_true n

/-- The request `n` is not lost as long as the writer receives, nor when it has shut down
the connection. -/
def Answers (n : Nat) (s : ServedConn T R) : Prop :=
  s.reader.noti.rx = true ∨ s.shut = true → s.reader.Served n

theorem Answers.reads {n : Nat} (ha : s.Answers n) (hs : Sound codec s) {b : ServerReader.Act T E}
    (server : TcpServer Sock) {reader : ServerReader T R} (hne : b ≠ .writer_exits)
    (hg : b.gives_up n = false) (hr : s.reader.step codec b = some reader) :
    ((s.withServer server).sync reader).Answers n := by
  intro hor
  have hopen : s.shut ≠ true := by
    intro hshut
    obtain ⟨hpc, hlive⟩ := hs.sealed (hs.shut hshut).2.1
    rw [ServerReader.sealed hs.known hpc hlive hne] at hr
    cases hr
  obtain ⟨sent, -, hkeep⟩ := ServerReader.step_queue hr
  have hrx : s.reader.noti.rx = true := (hkeep hne).symm.trans (hor.resolve_right hopen)
  exact (ha (.inl hrx)).step hrx hg hr

theorem Answers.step {n : Nat} (ha : s.Answers n) (hs : Sound codec s) (hg : a.gives_up n = false)
    (h : s.step codec a = some s') : s'.Answers n := by
  cases step_cases h with
  | read_ok _ hr | read_err _ hr => exact ha.reads hs _ (by rintro ⟨⟩) rfl hr
  | handler b hb hr => exact ha.reads hs s.writer.conn.server (ServerReader.ne_exits hb) hg hr
  | write hm => exact fun _ => ha (.inl (hs.rx hm.not_returned))
  | drop_noti | drop_reader | drop_writer => exact ha
  | drop_rx hpc hrx => exact fun _ => ha (.inl hrx)

omit [ServerTaskDecode C T] in
/-- After the writer has shut down the connection no `RespNoti` is left. -/
theorem Sound.dropped (hs : Sound codec s) (hshut : s.shut = true) :
    s.noti = false ∧ ∀ n, s.reader.tasks n = none := by
  have hsend := (hs.shut hshut).2.1
  rw [hs.senders, Bool.or_eq_false_iff] at hsend
  exact ⟨hsend.1, ServerReader.tasks_eq_none hs.known hsend.2⟩

/-- Whatever fails, the peer has been sent a first part of the responses, in the
order in which the reader and the handlers sent them to the writer. When the write
direction is shut down it has been sent all of them, no `RespNoti` is left, and each
request has its answer, or its own task was given up in the run. -/
theorem peer_sees_responses (reads : List ReadEv) (inbound : Bytes) (writes : List WriteEv)
    (config : ServerConfig) (alloc : BufferAlloc) (encode_buf : EncodeBuf RPC_RESP_HEADER_LEN)
    {tr : List (ServedConn T R × Act T E)}
    (h : Run (step codec)
      (server_conn (.new_conn ⟨reads, inbound, writes, []⟩ config alloc encode_buf)) tr s) :
    Always (fun s => s.sent <+: s.frames codec ∧
      (s.shut = true → s.sent = s.frames codec ∧ s.noti = false ∧ ∀ n, s.reader.tasks n = none)) tr s ∧
    (s.shut = true → ∀ n < s.reader.requests.length,
      n ∈ s.reader.answered ∨ ∃ p ∈ tr, p.2 = .handler (.drop n)) := by
  have hsound :=
    server_conn_sound (T := T) (R := R) codec reads inbound writes config alloc encode_buf
  have hall : Meets (fun _ _ => True) tr := fun _ _ => trivial
  refine ⟨h.always _ ?_ hall, fun hshut n hn => ?_⟩
  · intro tr s h _
    have hs := h.inv (Sound codec) hsound fun _ _ _ hs ht => hs.step ht
    exact ⟨hs.shown, fun hshut => ⟨(hs.shut hshut).2.2, hs.dropped hshut⟩⟩
  · by_cases hdrop : ∃ p ∈ tr, p.2 = .handler (.drop n)
    · exact .inr hdrop
    -- no step of the run gives up the task of this request
    have hmeets : Meets (fun _ a => a.gives_up n = false) tr := by
      intro p hp
      refine Bool.eq_false_iff.2 fun hg => hdrop ⟨p, hp, Act.gives_up_iff.1 hg⟩
    obtain ⟨hs, hans⟩ := h.inv_of_meets (fun s => Sound codec s ∧ s.Answers n)
      ⟨hsound, fun _ hn => absurd hn (Nat.not_lt_zero _)⟩
      (fun _ _ _ hi hg ht => ⟨hi.1.step ht, hi.2.step hi.1 hg ht⟩) hmeets
    exact .inl ((hans (.inr hshut) hn).resolve_right fun hne => hne ((hs.dropped hshut).2 n))

instance : ServerTaskEncode Unit ServerReader.SampleTask :=
  ⟨fun _ t => ⟨t.seq, [], match t.res with
    | some (.error n) => .error (.Num n)
    | _ => .ok (0, none)⟩⟩

/-- A ping, and a request whose task is completed after the reader has met the end
of the stream. -/
def sampleLate : List (Act ServerReader.SampleTask UInt32) :=
  [.read_req, .read_req, .handler (.handled true), .read_req, .drop_noti, .drop_reader, .write,
    .write, .write, .write,
    .handler (.set_result 1 (.error 5)), .write, .write, .write, .write, .write, .write,
    .drop_rx, .drop_writer]

def sampleInbound : Bytes :=
  (ReqHead.filled 42 0 1 0 0).as_bytes ++ (ReqHead.filled 42 7 2 1 0).as_bytes ++ [9]

def sampleConn : ServedConn ServerReader.SampleTask ServerReader.SampleTask :=
  server_conn (.new_conn ⟨List.replicate 40 (.chunk 3), sampleInbound, List.replicate 9 (.accept 5),
    []⟩ ⟨1, 1, 16⟩
    (fun n => some (as_usize n)) sampleRespBuf)

theorem peer_sees_late_response :
    ∃ (tr : List (ServedConn ServerReader.SampleTask ServerReader.SampleTask × Act _ UInt32)) (s : _),
      Run (step ()) sampleConn tr s ∧ s.gone = true ∧ s.sent.length = 40 ∧ s.sent = s.frames () ∧
        s.reader.requests.length = 2 ∧ ∀ n < 2, n ∈ s.reader.answered := by
  have hrun : (follow (step ()) sampleConn sampleLate).map (fun r =>
      (r.1.all fun p => !p.2.gives_up 0 && !p.2.gives_up 1, r.2.gone, r.2.shut, r.2.sent.length,
        r.2.reader.requests.length)) = some (true, true, true, 40, 2) := by
    decide +kernel
  obtain ⟨⟨tr, s⟩, hf, hs⟩ := Option.map_eq_some_iff.1 hrun
  simp only [Prod.mk.injEq, List.all_eq_true, Bool.and_eq_true, Bool.not_eq_true'] at hs
  obtain ⟨hm, hgone, hshut, hlen, hreq⟩ := hs
  obtain ⟨⟨-, hsent⟩, hans⟩ := peer_sees_responses _ _ _ _ _ _ (Run.of_follow hf)
  refine ⟨tr, s, .of_follow hf, hgone, hlen, (hsent.2 hshut).1, hreq, fun n hn => ?_⟩
  refine (hans hshut n (by rwa [hreq])).resolve_right ?_
  rintro ⟨p, hp, hdrop⟩
  have hn : n = 0 ∨ n = 1 := by omega
  rcases hn with rfl | rfl
  · exact Bool.eq_false_iff.1 (hm p hp).1 (Act.gives_up_iff.2 hdrop)
  · exact Bool.eq_false_iff.1 (hm p hp).2 (Act.gives_up_iff.2 hdrop)

end ServedConn

end OccamsRpc
