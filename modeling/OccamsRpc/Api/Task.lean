import OccamsRpc.Stream.Task
/-!
# The tasks of the API layer

A call is encoded by its endpoint and travels as an untyped task, `APIClientReq`
one way and `APIServerResp` back; only `make_req`, the generated handlers and
`process_res` know the types. The channel a task notifies is a number here, the
caller that waits on it.
-/

namespace OccamsRpc

/-! ## The client's task -/

/-- The task that a call of a method makes. -/
structure APIClientReq where
  seq : UInt64
  req_msg : Option Bytes
  /-- In "Service.method" format. -/
  action : String
  resp : Option Bytes
  res : Option (Except EncodedErr Unit)
  /-- The channel the task is sent back on when it is done. -/
  noti : Nat

namespace APIClientReq

variable {C : Type}

/-- The message was encoded when the task was made. -/
def encode_req (_codec : C) (t : APIClientReq) : Bytes × Option Nat :=
  match t.req_msg with
  | some msg => (msg, some msg.length)
  | none => ([], some 0)

/-- The response is decoded by the caller, not by the connection. -/
def decode_resp (_codec : C) (t : APIClientReq) (buf : Bytes) : Bool × APIClientReq :=
  if buf.length > 0 then (true, { t with resp := some buf }) else (true, t)

instance : ClientTaskCommon APIClientReq where
  seq := seq
  set_seq t n := { t with seq := n }
  seq_set_seq _ _ := rfl

instance : ClientTask C APIClientReq where
  get_action t := .Str t.action
  encode_req := encode_req
  get_req_blob _ := none
  decode_resp := decode_resp
  reserve_resp_blob t _ := (t, none)
  fill_resp_blob t _ := t
  set_custom_error _ t e := { t with res := some (.error e) }
  set_rpc_error t e := { t with res := some (.error (.Rpc e)) }
  set_ok t := { t with res := some (.ok ()) }

end APIClientReq

/-- `none` is the panic of `expect("encode")`. -/
def make_req {C Req : Type} [Serde C Req] (codec : C) (service_method : String) (req : Req)
    (done_tx : Nat) :
    Option APIClientReq :=
  (Serde.encode codec req).map fun req_buf =>
    { seq := 0, req_msg := some req_buf, action := service_method, resp := none, res := none,
      noti := done_tx }

section
variable {C Resp E : Type} [Serde C Resp] [Inhabited Resp] [RpcErrCodec C E]

/-- No message stands for the default value. -/
def process_ok (codec : C) : Option Bytes → Except (RpcError E) Resp
  | some resp =>
    match Serde.decode codec resp with
    | some resp_msg => .ok resp_msg
    | none => .error (.Rpc .Decode)
  | none => .ok default

/-- An error that the codec does not know is `Decode`. -/
def process_err (codec : C) (e : UInt32 ⊕ Bytes) : Except (RpcError E) Resp :=
  match RpcErrCodec.decode codec e with
  | some e => .error (.User e)
  | none => .error (.Rpc .Decode)

/-- What the caller gets for the task that came back on the channel, or for a
channel that was closed. `none` is a panic: a task without a result, or with a
static error text. -/
def process_res (codec : C) : Option APIClientReq → Option (Except (RpcError E) Resp)
  | some task =>
    match task.res with
    | some (.ok ()) => some (process_ok codec task.resp)
    | some (.error (.Rpc e)) => some (.error (.Rpc e))
    | some (.error (.Num n)) => some (process_err codec (.inl n))
    | some (.error (.Buf buf)) => some (process_err codec (.inr buf))
    | some (.error (.Static _)) => none
    | none => none
  | none => some (.error (.Rpc .Internal))

end

/-! ## The server's task -/

/-- A request as a service sees it; `req` is `Some` in every request that
`dispatch_req` makes. -/
structure APIServerReq where
  seq : UInt64
  service : String
  method : String
  req : Bytes

/-- A response with its result set, as every path of a handler sends it. -/
structure APIServerResp where
  seq : UInt64
  msg : Option Bytes
  res : Except EncodedErr Unit

namespace APIServerReq

variable {C : Type}

/-- A result that does not encode is an error for the caller. -/
def set_result {R : Type} [Serde C R] (codec : C) (self : APIServerReq) (resp : R) :
    APIServerResp :=
  match Serde.encode codec resp with
  | none => ⟨self.seq, none, .error (.Rpc .Encode)⟩
  | some msg => ⟨self.seq, some msg, .ok ()⟩

def set_rpc_error (self : APIServerReq) (e : RpcIntErr) : APIServerResp :=
  ⟨self.seq, none, .error (.Rpc e)⟩

/-- The error of a handler, encoded for the caller. -/
def set_error {E : Type} [RpcErrCodec C E] (codec : C) (self : APIServerReq) (e : RpcError E) :
    APIServerResp :=
  let encoded_err := match e with
    | .Rpc rpc_int_err => .Rpc rpc_int_err
    | .User user_err => RpcErrCodec.encode codec user_err
  ⟨self.seq, none, .error encoded_err⟩

end APIServerReq

/-- The message was encoded when the response was made. -/
def APIServerResp.encode_resp {C : Type} (_codec : C) (t : APIServerResp) : EncodedResp :=
  match t.res with
  | .ok _ =>
    match t.msg with
    | some msg => ⟨t.seq, msg, .ok (msg.length, none)⟩
    | none => ⟨t.seq, [], .ok (0, none)⟩
  | .error e => ⟨t.seq, [], .error e⟩

instance {C : Type} : ServerTaskEncode C APIServerResp := ⟨APIServerResp.encode_resp⟩

end OccamsRpc
