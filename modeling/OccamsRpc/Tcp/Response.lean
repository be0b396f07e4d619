import OccamsRpc.Client.Timer
import OccamsRpc.Tcp.Request
/-!
# Responses over TCP

`TcpClient::read_resp`: a header, then the body of a response whose task is
taken out of the timer, or the bytes of one that nobody waits for. The body's
lengths come from the header alone; a header that no server writes can make the
code panic, which is an outcome of the model.
-/

namespace OccamsRpc

instance {T : Type} [ClientTaskCommon T] : HasSeq T := ⟨fun t => (ClientTaskCommon.seq t).toNat⟩

/-- How a call ends other than with a value: an error, or a panic. -/
inductive Fault (ε : Type)
  | err (e : ε)
  | panicked

/-- What the framework does with a task in the end. -/
inductive Completion (T : Type)
  | done (t : T)
  | error_handle (t : T)

/-- `buf.resize(len, 0)` -/
def TcpClient.resize_resp_buf {S : Type} (c : TcpClient S) (len : Nat) : TcpClient S :=
  { c with
    resp_buf := c.resp_buf.take len ++ List.replicate (len - c.resp_buf.length) 0
    resized := c.resized ++ [len] }

/-- What `read_resp` works on: the connection, the timer, and the tasks it has
completed so far. -/
structure Receiver (S T : Type) where
  client : TcpClient S
  timer : ClientTaskTimer T
  completed : List (Completion T)
  alloc : BufferAlloc

namespace Receiver

variable {S T : Type}

def withStream (r : Receiver S T) (s : AsyncBufStream S) : Receiver S T :=
  { r with client := r.client.withStream s }

/-- `facts.error_handle(task)`, and the end of the call. -/
def error_handle (task : T) : Async (Receiver S T) (Fault IoErr) Unit := fun r =>
  (.ready (.ok ()), { r with completed := r.completed ++ [.error_handle task] })

def done (task : T) : Async (Receiver S T) (Fault IoErr) Unit := fun r =>
  (.ready (.ok ()), { r with completed := r.completed ++ [.done task] })

/-- `get_resp_buf`; a length over `isize::MAX` panics. -/
def get_resp_buf (len : Nat) : Async (Receiver S T) (Fault IoErr) Unit := fun r =>
  if len > isize_MAX then (.ready (.error .panicked), r)
  else (.ready (.ok ()), { r with client := r.client.resize_resp_buf len })

section
variable [AsyncRead S]

/-- `reader.read_exact` under the read timeout. -/
def read_exact (len : Nat) : Async (Receiver S T) IoErr Bytes := fun r =>
  (io_with_timeout r.client.read_timeout (AsyncRead.read_exact len)).zoom
    (fun r => r.client.stream) withStream r

/-- `l as i32` may be 0 or negative, for which `Buffer::alloc` panics. -/
def _recv_and_dump (l : Nat) : Async (Receiver S T) (Fault IoErr) Unit := fun r =>
  match r.alloc.alloc (Int32.ofNat l) with
  | .panicked => (.ready (.error .panicked), r)
  | .err => (.ready (.error (.err .OutOfMemory)), r)
  | .buf len =>
    match read_exact len r with
    | (.ready (.ok _), r) => (.ready (.ok ()), r)
    | (.ready (.error e), r) => (.ready (.error (.err e)), r)
    | (.pending, r) => (.pending, r)

end

/-- `str` that names one of the framework's own errors. -/
def parse_int_err (buf : Bytes) : Option RpcIntErr :=
  if (strBytes RPC_ERR_PREFIX).isPrefixOf buf then (fromUtf8 buf).bind RpcIntErr.from_str else none

section
variable {C : Type} [ClientTaskCommon T] [ClientTask C T] [AsyncRead S]

variable (C) in
/-- A read for a task that was taken: when it fails, so does the task. -/
def read_for (task : T) (len : Nat) : Async (Receiver S T) (Fault IoErr) Bytes := fun r =>
  match read_exact len r with
  | (.ready (.ok bs), r) => (.ready (.ok bs), r)
  | (.ready (.error e), r) =>
    (.ready (.error (.err e)), (error_handle (ClientTask.set_rpc_error C task .Io) r).2)
  | (.pending, r) => (.pending, r)

/-- An errno is in the header. A text is one of the errors of the RPC, or for the codec. -/
def _recv_error (codec : C) (resp_head : RespHead) (task : T) :
    Async (Receiver S T) (Fault IoErr) Unit :=
  if resp_head.flag = 1
    then error_handle (ClientTask.set_custom_error codec task (.Num resp_head.msg_len))
  else if resp_head.flag = 2 then do
    get_resp_buf (as_usize resp_head.blob_len)
    let buf ← read_for C task (as_usize resp_head.blob_len)
    match parse_int_err buf with
    | some e => error_handle (ClientTask.set_rpc_error C task e)
    | none => error_handle (ClientTask.set_custom_error codec task (.Buf buf))
  else .fail .panicked

/-- The end of `_recv_resp_body` for a success: decode, set the result, done. -/
def recv_ok_end (codec : C) (resp_head : RespHead) (task : T) (read_buf : Bytes) :
    Async (Receiver S T) (Fault IoErr) Unit :=
  if resp_head.msg_len > 0 then
    match ClientTask.decode_resp codec task read_buf with
    | (false, task) => error_handle (ClientTask.set_rpc_error C task .Decode)
    | (true, task) => done (ClientTask.set_ok C task)
  else done (ClientTask.set_ok C task)

variable (C) in
def recv_msg (resp_head : RespHead) (task : T) : Async (Receiver S T) (Fault IoErr) Bytes :=
  if resp_head.msg_len > 0 then read_for C task resp_head.msg_len.toNat else pure []

/-- `_recv_resp_body` from the message on, for a success. -/
def recv_ok (codec : C) (resp_head : RespHead) (task : T) :
    Async (Receiver S T) (Fault IoErr) Unit := do
  let read_buf ← recv_msg C resp_head task
  if resp_head.blob_len > 0 then
    match ClientTask.reserve_resp_blob C task resp_head.blob_len with
    | (task, none) => do
      error_handle (ClientTask.set_rpc_error C task .Decode)
      _recv_and_dump (as_usize resp_head.blob_len)
    | (task, some len) => do
      let bs ← read_for C task len
      recv_ok_end codec resp_head (ClientTask.fill_resp_blob C task bs) read_buf
  else recv_ok_end codec resp_head task read_buf

/-- The bytes of a response nobody waits for. The `u32` addition panics when it
overflows (as built for debugging; a release build wraps). -/
def recv_unknown (resp_head : RespHead) : Async (Receiver S T) (Fault IoErr) Unit :=
  if resp_head.flag = 0 then
    let data_len := resp_head.msg_len.toNat + resp_head.blob_len.toUInt32.toNat
    if data_len > u32_MAX then .fail .panicked
    else if data_len > 0 then _recv_and_dump data_len
    else pure ()
  else if resp_head.flag = RESP_FLAG_HAS_ERR_STRING then
    let data_len := resp_head.blob_len.toUInt32.toNat
    if data_len > 0 then _recv_and_dump data_len else pure ()
  else pure ()

/-- `task_reg.take_task(seq).await`, which may be left waiting for the task to
be registered. -/
def take_task (seq : UInt64) : Async (Receiver S T) (Fault IoErr) (Option T) := fun r =>
  match r.timer.take_task seq.toNat with
  | (.ready t, tm) => (.ready (.ok t), { r with timer := tm })
  | (.pending, tm) => (.pending, { r with timer := tm })

/-- A response whose task is not there any more is read and thrown away. -/
def _recv_resp_body (codec : C) (resp_head : RespHead) :
    Async (Receiver S T) (Fault IoErr) Unit := do
  get_resp_buf resp_head.msg_len.toNat
  match ← take_task resp_head.seq with
  | some task =>
    if resp_head.flag > 0 then _recv_error codec resp_head task else recv_ok codec resp_head task
  | none => recv_unknown resp_head

/-- The header; `none` when the close channel cancels the wait for it. `close_ch`
says whether there is such a channel, and whether it fires. -/
def read_head (close_ch : Option Bool) : Async (Receiver S T) IoErr (Option Bytes) := fun r =>
  match close_ch with
  | some fires =>
    match AsyncRead.read_exact RPC_RESP_HEADER_LEN r.client.stream with
    | (.ready (.ok buf), s) => (.ready (.ok (some buf)), r.withStream s)
    | (.ready (.error e), s) => (.ready (.error e), r.withStream s)
    | (.pending, s) =>
      if fires then (.ready (.ok none), r.withStream s) else (.pending, r.withStream s)
  | none =>
    match read_exact RPC_RESP_HEADER_LEN r with
    | (.ready (.ok buf), r) => (.ready (.ok (some buf)), r)
    | (.ready (.error e), r) => (.ready (.error e), r)
    | (.pending, r) => (.pending, r)

/-- Every `io::Error` is `RpcIntErr::IO` to the caller. -/
def Fault.to_rpc : Fault IoErr → Fault RpcIntErr
  | .err _ => .err .Io
  | .panicked => .panicked

/-- `false` when the close channel cancelled the wait for the header. -/
def read_resp (codec : C) (close_ch : Option Bool) :
    Async (Receiver S T) (Fault RpcIntErr) Bool := do
  match ← (read_head close_ch).mapErr fun _ => Fault.err RpcIntErr.Io with
  | none => pure false
  | some resp_head_buf =>
    match RespHead.decode_head resp_head_buf with
    | .error e => .fail (.err e)
    | .ok head => do
      (_recv_resp_body codec head).mapErr Fault.to_rpc
      pure true

/-! ## The parts of a call -/

/-- The body, once it is known whether somebody waits for it. -/
def recv_body_for (codec : C) (resp_head : RespHead) :
    Option T → Async (Receiver S T) (Fault IoErr) Unit
  | some task =>
    if resp_head.flag > 0 then _recv_error codec resp_head task else recv_ok codec resp_head task
  | none => recv_unknown resp_head

/-- The receiver at the body: the buffer is resized, and the task taken. -/
def atBody (r : Receiver S T) (resp_head : RespHead) (tm : ClientTaskTimer T) : Receiver S T :=
  { r with client := r.client.resize_resp_buf resp_head.msg_len.toNat, timer := tm }

variable {codec : C} {close_ch : Option Bool} {r r₁ : Receiver S T} {hd : RespHead}

theorem read_resp_after_head {buf : Bytes}
    (hh : read_head close_ch r = (.ready (.ok (some buf)), r₁))
    (hdec : RespHead.decode_head buf = .ok hd) :
    read_resp codec close_ch r =
      ((_recv_resp_body codec hd).mapErr Fault.to_rpc >>= fun _ => pure true) r₁ := by
  rw [read_resp, Async.bind_ok (Async.mapErr_ok hh _)]
  simp only [hdec]

/-- After the header, all that the call does is done by `_recv_resp_body`. -/
theorem read_resp_state {buf : Bytes} (hh : read_head close_ch r = (.ready (.ok (some buf)), r₁))
    (hdec : RespHead.decode_head buf = .ok hd) :
    (read_resp codec close_ch r).2 = (_recv_resp_body codec hd r₁).2 := by
  rw [read_resp_after_head hh hdec]
  rcases hb : _recv_resp_body codec hd r₁ with ⟨((e | _) | u) | _, r₂⟩ <;>
    simp [bind, Async.bind, Async.mapErr, hb, pure]

omit [AsyncRead S] [ClientTaskCommon T] in
theorem get_resp_buf_ok (r : Receiver S T) {len : Nat} (hlen : len ≤ isize_MAX) :
    get_resp_buf len r = (.ready (.ok ()), { r with client := r.client.resize_resp_buf len }) := by
  rw [get_resp_buf, if_neg (Nat.not_lt.2 hlen)]

theorem recv_resp_body_taken {found : Option T} {tm : ClientTaskTimer T}
    (ht : r.timer.take_task hd.seq.toNat = (.ready found, tm)) :
    _recv_resp_body codec hd r = recv_body_for codec hd found (r.atBody hd tm) := by
  have hbuf := get_resp_buf_ok r (Nat.le_trans (Nat.le_of_lt hd.msg_len.toNat_lt) (by decide))
  have htake : take_task hd.seq { r with client := r.client.resize_resp_buf hd.msg_len.toNat } =
      (.ready (.ok found), r.atBody hd tm) := by
    simp only [take_task, ht, atBody]
  rw [_recv_resp_body, Async.bind_ok hbuf, Async.bind_ok htake]
  cases found <;> rfl

end

end Receiver

end OccamsRpc
