import OccamsRpc.Client.Line
import OccamsRpc.Tcp.Halves
import OccamsRpc.Tcp.RespFidelity
/-!
# Writers that sleep

`Writer::run` of `stream/src/server/server.rs`: it takes what the channel holds,
writes it, and flushes before it waits again. Together with the workers of a
client's pool these are all the writers of the system, and none of them sleeps on
bytes it has not sent.
-/
open Lib

namespace OccamsRpc

/-- The part of `ServerConfig` that a connection reads. -/
structure ServerConfig where
  read_timeout : Nat
  write_timeout : Nat
  stream_buf_size : Nat

def SERVER_DEFAULT_BUF_SIZE : Nat := 8 * 1024

/-- A `stream_buf_size` of 0 stands for the default. -/
def ServerConn.new_conn {S : Type} (stream : S) (config : ServerConfig) (alloc : BufferAlloc)
    (encode_buf : EncodeBuf RPC_RESP_HEADER_LEN) : ServerConn S where
  server :=
    { stream := .new stream (if config.stream_buf_size = 0 then SERVER_DEFAULT_BUF_SIZE
      else config.stream_buf_size)
      read_timeout := config.read_timeout
      alloc := alloc }
  write_timeout := config.write_timeout
  encode_buf := encode_buf

/-! ## The writer of a connection -/

/-- Where the loop of the writer is. -/
inductive WriterPc (R : Type)
  | recv
  | process (task : Done R)
  | try_recv
  | flush
  | close_conn
  | returned

/-- `written` is what the writes that returned `Ok` were given; no step reads it. -/
structure Writer (R : Type) where
  conn : ServerConn Sock
  pc : WriterPc R
  done_rx : List (Done R)
  /-- Some `RespNoti` is left. -/
  senders : Bool
  written : Bytes

namespace Writer

variable {C R : Type} [ServerTaskEncode C R]

def new (conn : ServerConn Sock) : Writer R := ⟨conn, .recv, [], true, []⟩

/-- A write of the transport: when it fails, so does the writer. -/
def writes (w : Writer R) (x : Async (ServerConn Sock) IoErr Unit) (bs : Bytes) (pc : WriterPc R) :
    Option (Writer R) :=
  match x w.conn with
  | (.pending, _) => none
  | (.ready (.ok ()), conn) => some { w with conn := conn, pc := pc, written := w.written ++ bs }
  | (.ready (.error _), conn) => some { w with conn := conn, pc := .returned }

/-- The writer takes what is in the channel, and flushes when it is empty. -/
def run (codec : C) (w : Writer R) : Option (Writer R) :=
  match w.pc with
  | .recv =>
    match w.done_rx with
    | task :: rest => some { w with pc := .process task, done_rx := rest }
    | [] => if w.senders then none else some { w with pc := .close_conn }
  | .process task => w.writes (ServerConn.process codec task) (w.conn.frame codec task) .try_recv
  | .try_recv =>
    match w.done_rx with
    | task :: rest => some { w with pc := .process task, done_rx := rest }
    | [] => some { w with pc := .flush }
  | .flush => w.writes ServerConn.flush_resp [] .recv
  | .close_conn => w.writes ServerConn.flush_resp [] .returned
  | .returned => none

inductive Act (R : Type)
  /-- A response is sent to the writer. -/
  | send (task : Done R)
  /-- The last `RespNoti` is dropped. -/
  | hang_up
  /-- The reader of the connection reads on the same stream. -/
  | read_req
  | next

/-- The reader uses the same stream beside the writer. -/
def step (codec : C) (w : Writer R) : Act R → Option (Writer R)
  | .send task => if w.senders then some { w with done_rx := w.done_rx ++ [task] } else none
  | .hang_up => if w.senders then some { w with senders := false } else none
  | .read_req =>
    some { w with conn := { w.conn with server := (TcpServer.read_req w.conn.server).2 } }
  | .next => w.run codec

variable {codec : C} {w w' : Writer R} {a : Act R}

/-- What the stream was given is what was written, and nothing of it is in the
buffer while the writer waits. -/
structure Kept (sent : Bytes) (w : Writer R) : Prop where
  took : w.pc = .returned ∨ w.conn.Took (fun _ => True) Sock.sent (sent ++ w.written)
  flushed : w.pc = .recv → w.conn.Flushed

/-- A write that returns `Ok` from here. -/
theorem Kept.writes {sent bs : Bytes} {x : Async (ServerConn Sock) IoErr Unit} {pc : WriterPc R}
    (hw : Kept sent w) (hpc : w.pc ≠ .returned) (h : w.writes x bs pc = some w')
    (hx : ∀ c, w.conn.Took (fun _ => True) Sock.sent (sent ++ w.written) → x w.conn = (.ready (.ok ()), c) →
      c.Took (fun _ => True) Sock.sent (sent ++ w.written ++ bs) ∧ (pc = .recv → c.Flushed)) :
        Kept sent w' := by
  have htook := hw.took.resolve_left hpc
  unfold Writer.writes at h
  split at h
  case h_1 => cases h
  case h_2 c hr =>
    cases h
    obtain ⟨ht, hf⟩ := hx c htook hr
    exact ⟨.inr (by rwa [← List.append_assoc]), hf⟩
  case h_3 =>
    cases h
    exact ⟨.inl rfl, nofun⟩

theorem Kept.goto {sent : Bytes} (hw : Kept sent w) (hpc : w.pc ≠ .returned) (pc : WriterPc R)
    (rest : List (Done R)) (hne : pc ≠ .recv) : Kept sent { w with pc := pc, done_rx := rest } :=
  ⟨.inr (hw.took.resolve_left hpc), fun h => absurd h hne⟩

theorem Kept.run {sent : Bytes} (hw : Kept sent w) (h : w.run codec = some w') : Kept sent w' := by
  unfold Writer.run at h
  have hflush (c : ServerConn Sock) (ht : w.conn.Took (fun _ => True) Sock.sent (sent ++ w.written))
      (hr : ServerConn.flush_resp w.conn = (.ready (.ok ()), c)) :
      c.Took (fun _ => True) Sock.sent (sent ++ w.written ++ []) ∧ c.Flushed := by
    rw [List.append_nil]
    exact ServerConn.flush_resp_returns Sock.passes _ w.conn () c ht hr
  split at h
  case h_1 hpc =>
    split at h
    · cases h
      exact hw.goto (by rw [hpc]; nofun) _ _ (by nofun)
    · split at h <;> cases h
      exact hw.goto (by rw [hpc]; nofun) _ w.done_rx (by nofun)
  case h_2 task hpc =>
    refine hw.writes (by rw [hpc]; nofun) h fun c ht hr => ⟨?_, nofun⟩
    exact ServerConn.process_returns Sock.passes codec task _ _ w.conn () c ⟨ht, rfl⟩ hr
  case h_3 hpc =>
    split at h <;> cases h
    · exact hw.goto (by rw [hpc]; nofun) _ _ (by nofun)
    · exact hw.goto (by rw [hpc]; nofun) _ w.done_rx (by nofun)
  case h_4 hpc =>
    exact hw.writes (by rw [hpc]; nofun) h fun c ht hr =>
      ⟨(hflush c ht hr).1, fun _ => (hflush c ht hr).2⟩
  case h_5 hpc => exact hw.writes (by rw [hpc]; nofun) h fun c ht hr => ⟨(hflush c ht hr).1, nofun⟩
  case h_6 => cases h

theorem Kept.step {sent : Bytes} (hw : Kept sent w) (h : w.step codec a = some w') :
    Kept sent w' := by
  cases a with
  | next => exact hw.run h
  | send task | hang_up =>
    simp only [Writer.step] at h
    split at h <;> cases h
    exact ⟨hw.took, hw.flushed⟩
  | read_req =>
    cases h
    -- the reader leaves the writing half as it is
    have hkeeps := TcpServer.read_req_keeps w.conn.server
    simp only [TcpServer.writeHalf, AsyncBufStream.writeHalf, Sock.writeHalf, Prod.mk.injEq] at hkeeps
    obtain ⟨hbuf, -, hsent⟩ := hkeeps
    refine ⟨hw.took.imp_right ?_, fun hpc => ?_⟩
    · rintro ⟨⟨hb, -⟩, hout⟩
      refine ⟨⟨hbuf ▸ hb, trivial⟩, ?_⟩
      simp only [AsyncBufStream.out] at hout ⊢
      rw [hbuf, hsent]
      exact hout
    · have hf : w.conn.server.stream.write_buf.pos = 0 := hw.flushed hpc
      rw [← hbuf] at hf
      exact hf

theorem new_kept (sock : Sock) (config : ServerConfig) (alloc : BufferAlloc)
    (encode_buf : EncodeBuf RPC_RESP_HEADER_LEN) :
    Kept sock.sent (new (.new_conn sock config alloc encode_buf) : Writer R) := by
  have hcap : 0 < if config.stream_buf_size = 0 then SERVER_DEFAULT_BUF_SIZE else config.stream_buf_size := by
    split
    · decide
    · omega
  refine ⟨.inr ⟨⟨AsyncBufWrite.new_wf hcap, trivial⟩, ?_⟩, fun _ => rfl⟩
  simp [new, ServerConn.new_conn, AsyncBufStream.out, AsyncBufStream.new, AsyncBufWrite.new,
    AsyncBufWrite.held]

end Writer

/-! ## All writers -/

/-- A server connection's writer that waits for a response, and a worker of a
client's pool that waits for a task, have sent all they have written. -/
theorem asleep_nothing_unsent {C R T : Type} [ServerTaskEncode C R] (codec : C) (sock : Sock)
    (sconfig : ServerConfig) (alloc : BufferAlloc) (encode_buf : EncodeBuf RPC_RESP_HEADER_LEN)
    (encode : T → Nat → Bytes × Option Bytes) (ping : Nat → Bytes) (config : ClientConfig)
    (thresholds task_timeout channel_size : Nat) {trw : List (Writer R × Writer.Act R)}
    {w : Writer R} {trp : List (ClientPool (Line T) T × ClientPool.Act T Conn.Act Sock)}
    {s : ClientPool (Line T) T}
    (hw : Run (Writer.step codec) (.new (.new_conn sock sconfig alloc encode_buf)) trw w)
    (hp : Run (ClientPool.step (Line.ops encode ping config thresholds task_timeout))
      (.new thresholds channel_size) trp s)
    (hok : Meets (fun s a => Line.fine encode ping s a = true) trp) :
    Always (fun w => w.pc = .recv → w.conn.server.stream.write_buf.pos = 0 ∧
      w.conn.server.stream.inner.sent = sock.sent ++ w.written) trw w ∧
    Always (fun s => ∀ v ∈ s.workers, v.pc = .recv → ∃ l, v.stream = some l ∧
      l.wired.client.stream.write_buf.pos = 0 ∧ l.wired.client.stream.inner.sent = l.wired.written)
        trp s := by
  have hall : Meets (fun _ _ => True) trw := fun _ _ => trivial
  refine ⟨hw.always _ ?_ hall, hp.always _ ?_ hok⟩
  · intro tr w h _ hpc
    have hk := h.inv (Writer.Kept sock.sent) (Writer.new_kept sock sconfig alloc encode_buf)
      fun _ _ _ hk hs => hk.step hs
    have hflushed := hk.flushed hpc
    have htook := hk.took.resolve_left (by rw [hpc]; nofun)
    exact ⟨hflushed, (AsyncBufStream.Flushed.out_eq hflushed Sock.sent).symm.trans htook.2⟩
  · intro tr s h hok v hv hpc
    exact (Line.kept_run h hok v hv).flushed hpc

/-- The monitor connects and sends a task; the next comes while that is not
answered, and the monitor sends it as a worker. -/
def sampleTakeover : List (ClientPool.Act Nat Conn.Act Sock) :=
  let call := [Conn.Act.snd .next, .snd .next, .snd (.encoded true), .snd (.written true), .snd .registered,
    .snd .throttled].map fun a => ClientPool.Act.work 0 (.stream a)
  [.send_req 5, .work 0 .next, .work 0 (.connected (sampleSock [])), .work 0 .next, .work 0 .next,
    .work 0 .next] ++
    call ++ [.work 0 (.done true), .send_req 6, .work 0 .next, .work 0 .next, .work 0 .next] ++ call ++
    [.work 0 (.done true)]

def sampleEncode (n seq : Nat) : Bytes × Option Bytes := ([.ofNat n, .ofNat seq], none)

/-- The writer has acknowledged a ping, and the monitor has become a worker. -/
theorem asleep_nothing_unsent_sample :
    let conn := ServerConn.new_conn (sampleSock []) ⟨0, 0, 64⟩ (fun _ => none) sampleRespBuf
    ∃ (trw : List (Writer (ServerTaskVariantFull (UInt8 × Option UInt8) String) × _)) (w : Writer _)
      (trp : List (ClientPool (Line Nat) Nat × _)) (s : ClientPool (Line Nat) Nat)
      (v : Worker (Line Nat) Nat)
      (l : Line Nat),
      Run (Writer.step ()) (.new conn) trw w ∧
      Run (ClientPool.step (Line.ops sampleEncode (fun _ => []) ⟨0, 0, 16⟩ 8 1)) (.new 8 0) trp s ∧
      w.written.length = 20 ∧ w.conn.server.stream.inner.sent = w.written ∧
      v ∈ s.workers ∧ v.worker_id = 1 ∧ v.stream = some l ∧
      l.wired.client.stream.inner.sent = [5, 1, 6, 2] := by
  intro conn
  have hwr :
      (follow (Writer.step ())
        (.new conn : Writer (ServerTaskVariantFull (UInt8 × Option UInt8) String))
      [.send (.error (1, none)), .next, .next, .next, .next]).map (fun r =>
        (r.2.pc matches .recv, r.2.written.length)) = some (true, 20) := by decide +kernel
  have hpr :
      (follow (ClientPool.step (Line.ops sampleEncode (fun _ => []) ⟨0, 0, 16⟩ 8 1)) (.new 8 0)
      sampleTakeover).map (fun r => (r.1.all fun p => Line.fine sampleEncode (fun _ => []) p.1 p.2,
        r.2.workers.any fun v => v.worker_id == 1 && (v.pc matches .recv) &&
          v.stream.any fun l => l.wired.written == [5, 1, 6, 2])) = some (true, true) := by
            decide +kernel
  obtain ⟨⟨trw, w⟩, hfw, hw⟩ := Option.map_eq_some_iff.1 hwr
  obtain ⟨⟨trp, s⟩, hfp, hp⟩ := Option.map_eq_some_iff.1 hpr
  simp only [Prod.mk.injEq, List.all_eq_true, List.any_eq_true, Bool.and_eq_true, beq_iff_eq,
    Option.any_eq_true] at hw hp
  obtain ⟨hpc, hlen⟩ := hw
  obtain ⟨hm, v, hmem, ⟨hid, hvpc⟩, l, hl, hwritten⟩ := hp
  have hrecv : w.pc = .recv := by
    split at hpc
    · assumption
    · cases hpc
  have hvrecv : v.pc = .recv := by
    split at hvpc
    · assumption
    · cases hvpc
  obtain ⟨⟨-, hserver⟩, -, hpool⟩ :=
    asleep_nothing_unsent () (sampleSock []) ⟨0, 0, 64⟩ (fun _ => none) sampleRespBuf
    sampleEncode (fun _ => []) ⟨0, 0, 16⟩ 8 1 0 (.of_follow hfw) (.of_follow hfp) hm
  obtain ⟨l', hl', -, hsent⟩ := hpool v hmem hvrecv
  cases hl.symm.trans hl'
  exact ⟨trw, w, trp, s, v, l, .of_follow hfw, .of_follow hfp, hlen, (hserver hrecv).2, hmem, hid, hl,
    hsent.trans hwritten⟩

end OccamsRpc
