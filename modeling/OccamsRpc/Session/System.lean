import OccamsRpc.Conn.Window
import OccamsRpc.Server.Labels
import OccamsRpc.Tcp.Cancel
import OccamsRpc.Tcp.ReqRead
/-!
# A client connection and its server connection

`ClientStreamInner` of `stream/src/client/stream.rs` and `server_conn` of
`stream/src/server/server.rs`, joined by the two directions of a socket. A network step
moves some of the bytes that one end was given to the other end's socket, in order; all
else is done by the owner of the client's stream, by the receive coroutine, and by the
reader, the writer and the handlers of the server, each step at any time.

The receive coroutine of `Conn` is told what its reads returned; here the reads are
those of the client's own stream, and what they return is what the server wrote.
-/
open Lib

namespace OccamsRpc

open Conn

/-! ## The caller -/

/-- The client's codec and id, and the task of each `send_task` call. -/
structure Caller (C T : Type) where
  codec : C
  client_id : UInt64
  tasks : Nat → T

/-- A request that was given to the transport: for which call, or none for a ping. -/
structure Request where
  call : Option Nat
  seq : Nat

namespace Caller

variable {C T : Type} [ClientTaskCommon T] [ClientTask C T] (cl : Caller C T)

/-- The task of a call with the seq that `send_request` gave it. -/
def task (id seq : Nat) : T := ClientTaskCommon.set_seq (cl.tasks id) (.ofNat seq)

/-- What the client sends for a request: the task of the caller, or a ping. -/
def outgoing (q : Request) : Outgoing T :=
  match q.call with
  | some id => .task (cl.tasks id) false
  | none => .ping

/-- A request as bytes. -/
def wire (q : Request) : Bytes := (cl.outgoing q).wire cl.codec cl.client_id (.ofNat q.seq)

/-- The request as the server is to read it. -/
def received (q : Request) : RpcSvrReq := (cl.outgoing q).received cl.codec (.ofNat q.seq)

end Caller

/-- A task that was completed with a response: the header, and what was read of the body. -/
structure Answer where
  id : Nat
  head : Frame
  body : Bytes
  deriving DecidableEq

/-- `up` and `down` are how many bytes of each direction have come to the other end.
`written`, `heads` (the headers read), `body` (what was read since the last one) and
`answers` record what happened; no step reads them. -/
structure Session (T R : Type) where
  wired : Wired
  encode_buf : EncodeBuf RPC_REQ_HEADER_LEN
  served : ServedConn T R
  up : Nat
  down : Nat
  written : List Request
  heads : List Frame
  body : Bytes
  answers : List Answer

namespace Session

/-- What the two ends are made of: how their sockets answer, and their configs and buffers. -/
structure Setup where
  reads : List ReadEv
  writes : List WriteEv
  config : ClientConfig
  thresholds : Nat
  task_timeout : Nat
  encode_buf : EncodeBuf RPC_REQ_HEADER_LEN
  server_reads : List ReadEv
  server_writes : List WriteEv
  server_config : ServerConfig
  alloc : BufferAlloc
  resp_buf : EncodeBuf RPC_RESP_HEADER_LEN

section
variable {T R : Type}

/-- The client has connected, and the server accepted. -/
def connect (p : Setup) : Session T R where
  wired := .connect ⟨p.reads, [], p.writes, []⟩ p.config p.thresholds p.task_timeout
  encode_buf := p.encode_buf
  served := .server_conn
    (.new_conn ⟨p.server_reads, [], p.server_writes, []⟩ p.server_config p.alloc p.resp_buf)
  up := 0
  down := 0
  written := []
  heads := []
  body := []
  answers := []

/-! ## The client's end -/

/-- The buffered stream of the client. -/
def stream (s : Session T R) : AsyncBufStream Sock := s.wired.client.stream

variable {CC CT : Type} [ClientTaskCommon CT] [ClientTask CC CT] (cl : Caller CC CT)

/-- What `write_req` is called with for a task. -/
def request (s : Session T R) (t : Task) : Bytes × Option Bytes :=
  (s.encode_buf.data, ClientTask.get_req_blob CC (cl.task t.id t.seq))

/-- `send_ping_req` writes what it has encoded. -/
def ping (s : Session T R) (_ : Nat) : Bytes := s.encode_buf.data

/-- The encode buffer after a step of the owner; `ReqHead::encode` answers as it does. -/
def encode (s : Session T R) (a : SendAct) : Option (EncodeBuf RPC_REQ_HEADER_LEN) :=
  match s.wired.conn.sender, a with
  | .encode id _, .encoded ok =>
    let (buf, r) :=
      ReqHead.encode cl.codec s.encode_buf cl.client_id (cl.task id s.wired.conn.next_seq)
    if r.isOk = ok then some buf else none
  | .ping_encode, .next =>
    some (ReqHead.encode_ping s.encode_buf cl.client_id (.ofNat s.wired.conn.next_seq))
  | _, _ => some s.encode_buf

/-- The request that a step of the owner gave to the transport. -/
def gave : SendPc → SendAct → List Request
  | .write t _, .written true => [⟨some t.id, t.seq⟩]
  | .ping_write seq, .written true => [⟨none, seq⟩]
  | _, _ => []

/-- What has been read of the body, and the client's stream, after a step of the receive
coroutine. After a read that fails nothing is read any more. -/
def reads (s : Session T R) (a : RecvAct) : Option (Bytes × AsyncBufStream Sock) :=
  match s.wired.conn.receiver, a with
  | .running (.head _), .header f =>
    match AsyncRead.read_exact RPC_RESP_HEADER_LEN s.stream with
    | (.ready (.ok buf), stream) =>
      match RespHead.decode_head buf with
      | .ok head => if Frame.of head = f then some ([], stream) else none
      | .error _ => none
    | _ => none
  | .running pc, .part _ =>
    -- `Buffer::alloc` refuses what is longer
    if pc.dumps ∧ pc.wants > i32_MAX then none
    else
      match AsyncRead.read_exact pc.wants s.stream with
      | (.ready (.ok bs), stream) => some (s.body ++ bs, stream)
      | _ => none
  | .running (.head true), .cancelled =>
    -- what the future had read goes with it
    match AsyncRead.read_exact RPC_RESP_HEADER_LEN s.stream with
    | (.pending, stream) => some (s.body, stream)
    | _ => none
  | _, _ => some (s.body, s.stream)

/-- The header that a step of the receive coroutine has read. -/
def sees : RecvAct → List Frame
  | .header f => [f]
  | _ => []

/-- The task that a step of the receive coroutine completes with a response. -/
def completes (s : Session T R) (a : RecvAct) (body : Bytes) : List Answer :=
  match s.wired.conn.receiver, a with
  | .running pc, .part has_blob => (pc.finishes has_blob).toList.map fun p => ⟨p.1, p.2, body⟩
  | _, _ => []

end

/-! ## Steps -/

/-- The owner, the receiver and the server take steps, and the network carries bytes. -/
inductive Act (T E : Type)
  | owner (a : SendAct)
  | receiver (a : RecvAct)
  /-- The next `n` bytes come to the server, or to the client. -/
  | up (n : Nat) (evs : List ReadEv)
  | down (n : Nat) (evs : List ReadEv)
  | server (a : ServedConn.Act T E)

section
variable {CC CT C T R E : Type} [ClientTaskCommon CT] [ClientTask CC CT] [ServerTaskEncode C R]
  [ServerTaskDecode C T]
  [ServerTaskDone T R E] (cl : Caller CC CT) (codec : C)

/-- Any interleaving of the two ends and of what comes through. The network keeps the order
of the bytes and delivers them in pieces of its own choice. -/
def step (s : Session T R) : Act T E → Option (Session T R)
  | .owner a => do
    let buf ← s.encode cl a
    let wired ← s.wired.step (s.request cl) s.ping (.snd a)
    some { s with wired := wired, encode_buf := buf, written := s.written ++ gave s.wired.conn.sender a }
  | .receiver a => do
    let (body, stream) ← s.reads a
    let conn ← s.wired.conn.recv a
    some { s with
      wired := { s.wired with conn := conn, client := s.wired.client.withStream stream }
      heads := s.heads ++ sees a
      body := body
      answers := s.answers ++ s.completes a body }
  | .up n evs =>
    let bs := (s.stream.inner.sent.drop s.up).take n
    some { s with served := s.served.feed bs evs, up := s.up + bs.length }
  | .down n evs =>
    let bs := (s.served.sent.drop s.down).take n
    some { s with
      wired := { s.wired with client := s.wired.client.withStream (s.stream.feed bs evs) }
      down := s.down + bs.length }
  | .server a => (s.served.step codec a).map fun served => { s with served := served }

/-- No write of the client fails, no wait for a header is cancelled when a part of the
header has come, and handlers leave the seqs of their tasks alone. -/
def fine (seq : T → UInt64) (s : Session T R) : Act T E → Bool
  | .owner a => s.wired.fine (s.request cl) s.ping (.snd a)
  | .receiver .cancelled =>
    (AsyncRead.read_exact RPC_RESP_HEADER_LEN s.stream).2.unread == s.stream.unread
  | .server (.handler a) => a.keepsSeq seq s.served.reader
  | _ => true

end

end Session

end OccamsRpc
