import OccamsRpc.Api.Service
import OccamsRpc.Client.Age
import OccamsRpc.Tcp.Response
import OccamsRpc.Tcp.Serve
/-!
# Calls over one connection

One connection of a `ClientPool` from the endpoint's `call` to the service: the
worker that sends and registers, the receiver and its timer, the server's reader
and writer. Any number of calls may be under way. Each step is one part taking
its turn, with the answers the socket gives it; a step that meets a failure of
the transport, or a panic, is not followed further.
-/

namespace OccamsRpc

variable {C σ : Type}

/-- A call of a method of a service that the server was given. -/
structure Call (serve : Serve C σ) where
  service : Service C σ
  method : Method C σ
  arg : method.Arg
  registered : Registered service serve
  mem : method ∈ service.methods

def Call.action {serve : Serve C σ} (c : Call serve) : String :=
  service_method c.service.SERVICE_NAME c.method.name

/-- What a call of the method returns. -/
structure Outcome (C σ : Type) where
  method : Method C σ
  res : Except (RpcError method.Err) method.Resp

/-- Both `done` and the default `error_handle` send the task on its channel. -/
def Completion.task {T : Type} : Completion T → T
  | .done t => t
  | .error_handle t => t

/-! ## The socket between the two ends -/

namespace AsyncBufStream

/-- The answers the socket will give. -/
def scripted (s : AsyncBufStream Sock) (reads : List ReadEv) (writes : List WriteEv) :
    AsyncBufStream Sock :=
  { s with inner := { s.inner with reads := reads, writes := writes } }

/-- What was sent has left. -/
def handedOver (s : AsyncBufStream Sock) : AsyncBufStream Sock :=
  { s with inner := { s.inner with sent := [] } }

/-- These bytes arrive. -/
def arriving (s : AsyncBufStream Sock) (bs : Bytes) : AsyncBufStream Sock :=
  { s with inner := { s.inner with inbound := s.inner.inbound ++ bs } }

end AsyncBufStream

/-- Both ends of a connection, with what is behind the server. -/
structure Link (C σ : Type) where
  client : ClientStreamInner Sock
  timer : ClientTaskTimer APIClientReq
  alloc : BufferAlloc
  closed : Bool
  server : ServerConn Sock
  /-- The state of everything behind the server. -/
  state : σ
  /-- The methods called so far. A call waits on the channel of its place here. -/
  callers : List (Method C σ)
  /-- What each call returned, with its place. -/
  returned : List (Nat × Outcome C σ)

namespace Link

/-- What a connection starts with; the two encode buffers are fresh allocations. -/
structure Config where
  client_id : UInt64
  task_timeout : Nat
  client_timeout : Nat
  server_timeout : Nat
  client_buf : Nat
  server_buf : Nat
  client_buf_pos : 0 < client_buf
  server_buf_pos : 0 < server_buf
  req_buf : EncodeBuf RPC_REQ_HEADER_LEN
  resp_buf : EncodeBuf RPC_RESP_HEADER_LEN
  client_alloc : BufferAlloc
  server_alloc : BufferAlloc
  server_alloc_fits : server_alloc.Fits

def idleSock : Sock := ⟨[], [], [], []⟩

/-- A connection with nothing on the way. -/
def new (cfg : Config) (st : σ) : Link C σ where
  client := ⟨cfg.client_id,
    ⟨.new idleSock cfg.client_buf, [], [], cfg.client_timeout, cfg.client_timeout⟩, 1, cfg.req_buf⟩
  timer := .new cfg.task_timeout
  alloc := cfg.client_alloc
  closed := false
  server := ⟨⟨.new idleSock cfg.server_buf, cfg.server_timeout, cfg.server_alloc⟩,
    cfg.server_timeout, cfg.resp_buf⟩
  state := st
  callers := []
  returned := []

def clientStream (l : Link C σ) : AsyncBufStream Sock := l.client.conn.stream

def serverStream (l : Link C σ) : AsyncBufStream Sock := l.server.server.stream

def withClientStream (l : Link C σ) (s : AsyncBufStream Sock) : Link C σ :=
  { l with client := l.client.withConn (l.client.conn.withStream s) }

def withServerStream (l : Link C σ) (s : AsyncBufStream Sock) : Link C σ :=
  { l with server := l.server.withStream s }

/-- What the client has sent arrives. -/
def to_server (l : Link C σ) : Link C σ :=
  (l.withServerStream (l.serverStream.arriving l.clientStream.inner.sent)).withClientStream
    l.clientStream.handedOver

/-- What the server has sent arrives. -/
def to_client (l : Link C σ) : Link C σ :=
  (l.withClientStream (l.clientStream.arriving l.serverStream.inner.sent)).withServerStream
    l.serverStream.handedOver

/-! ## The steps -/

/-- The caller gets the task from its channel, or finds the channel closed. -/
def resolve (codec : C) (l : Link C σ) (noti : Nat) (task : Option APIClientReq) :
    Option (Link C σ) :=
  match l.callers[noti]? with
  | none => none
  | some m =>
    (process_res codec task : Option (Except (RpcError m.Err) m.Resp)).map fun res =>
      { l with returned := l.returned ++ [(noti, ⟨m, res⟩)] }

/-- `AsyncEndpoint::call` up to the wait, and the worker that sends the task. A
request that does not encode takes its task, and the channel, with it. -/
def call {serve : Serve C σ} (codec : C) (c : Call serve) (writes : List WriteEv) (l : Link C σ) :
    Option (Link C σ) :=
  if l.closed then none
  else
    match make_req codec c.action c.arg l.callers.length with
    | none => none
    | some task =>
      let l := (l.withClientStream (l.clientStream.scripted [] writes))
      let l := { l with callers := l.callers ++ [c.method] }
      match ClientStreamInner.send_all codec [.task task false] l.client with
      | (.ready (.ok ()), client) =>
        let timer := l.timer.reg_task (ClientTaskCommon.set_seq task l.client.seq)
        some { l with client := client, timer := timer }.to_server
      | (.ready (.error .Encode), client) =>
        { l with client := client, closed := true }.resolve codec task.noti none
      | _ => none

/-- A round of the server's reader, and the writer's answer. -/
def serve (serve : Serve C σ) (codec : C) (reads : List ReadEv) (writes : List WriteEv)
    (l : Link C σ) :
    Option (Link C σ) :=
  match TcpServer.read_req (l.withServerStream (l.serverStream.scripted reads writes)).server.server with
  | (.ready (.ok req), server) =>
    let (done, st) := Reader.handle (dispatch_req serve codec) req l.state
    match ServerConn.write_done codec [done] { l.server with server := server } with
    | (.ready (.ok ()), server) => some { l with server := server, state := st }.to_client
    | _ => none
  | _ => none

/-- A round of the client's receiver. -/
def receive (codec : C) (reads : List ReadEv) (l : Link C σ) : Option (Link C σ) :=
  let conn := (l.withClientStream (l.clientStream.scripted reads [])).client.conn
  match Receiver.read_resp codec (some false) ⟨conn, l.timer, [], l.alloc⟩ with
  | (.ready (.ok true), r) =>
    r.completed.foldlM (fun l c => l.resolve codec c.task.noti (some c.task))
      { l with client := l.client.withConn r.client, timer := r.timer }
  | _ => none

/-- A second passes: `time_reach`, and what the receiver does whenever it is
polled. -/
def tick (codec : C) (l : Link C σ) : Option (Link C σ) :=
  let (timed_out, timer) := l.timer.adjust_task_queue
  timed_out.foldlM
    (fun l t => l.resolve codec t.noti (some (ClientTask.set_rpc_error C t .Timeout)))
    { l with timer := timer.poll_sent_task.2 }

/-- A call, the server at work, the client at work, and the clock. -/
inductive Act (serve : Serve C σ)
  | call (c : Call serve) (writes : List WriteEv)
  | serve (reads : List ReadEv) (writes : List WriteEv)
  | receive (reads : List ReadEv)
  | tick

/-- The two ends take turns in any order. -/
def step (serve : Serve C σ) (codec : C) (l : Link C σ) : Act serve → Option (Link C σ)
  | .call c writes => l.call codec c writes
  | .serve reads writes => l.serve serve codec reads writes
  | .receive reads => l.receive codec reads
  | .tick => l.tick codec

end Link

end OccamsRpc
