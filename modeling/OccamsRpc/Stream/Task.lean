import OccamsRpc.Core.Error
/-!
# What the framework asks of tasks and codecs

The traits of client and server tasks, and the codec they are encoded with. A
method that appends to a buffer is modelled by the bytes it appends; it may
append some and fail.
-/

namespace OccamsRpc

/-- What a request asks for. -/
inductive RpcAction
  | Str (s : String)
  | Num (n : Int32)
  deriving DecidableEq

/-- What a codec `C` does with the values of one type. -/
class Serde (C T : Type) where
  encode : C → T → Option Bytes
  /-- The bytes appended, and the size reported unless it failed. -/
  encode_into : C → T → Bytes × Option Nat
  decode : C → Bytes → Option T

/-! ## Client tasks -/

/-- The sequence number a connection gives the task. -/
class ClientTaskCommon (T : Type) where
  seq : T → UInt64
  set_seq : T → UInt64 → T
  seq_set_seq : ∀ t n, seq (set_seq t n) = n

/-- What a client needs of a task. -/
class ClientTask (C T : Type) [ClientTaskCommon T] where
  get_action : T → RpcAction
  /-- The bytes appended, and the size reported unless it failed. -/
  encode_req : C → T → Bytes × Option Nat
  get_req_blob : T → Option Bytes
  /-- Whether the message decoded, and the task with what was assigned. -/
  decode_resp : C → T → Bytes → Bool × T
  /-- The task with space reserved, and the length of the slice, if it has one. -/
  reserve_resp_blob : T → Int32 → T × Option Nat
  /-- The task after a write to the start of that slice. -/
  fill_resp_blob : T → Bytes → T
  set_custom_error : C → T → EncodedErr → T
  set_rpc_error : T → RpcIntErr → T
  set_ok : T → T

/-- A task as `#[client_task]` derives it, its response blob (if it has the
field) an `Option<Vec<u8>>`. -/
structure DerivedTask (Q P E : Type) where
  seq : UInt64
  action : RpcAction
  req : Q
  req_blob : Option Bytes
  resp : Option P
  has_resp_blob : Bool
  resp_blob : Option Bytes
  res : Option (Except (RpcError E) Unit)

namespace DerivedTask

variable {C Q P E : Type}

section
variable [RpcErrCodec C E]

/-- The error of a service, or `Decode` when the codec does not know it. -/
def decoded_error (codec : C) (e : UInt32 ⊕ Bytes) : RpcError E :=
  match RpcErrCodec.decode codec e with
  | some e => .User e
  | none => .Rpc .Decode

def set_custom_error (codec : C) (t : DerivedTask Q P E) (e : EncodedErr) : DerivedTask Q P E :=
  let rpc_error : RpcError E := match e with
    | .Rpc e => .Rpc e
    | .Num n => decoded_error codec (.inl n)
    | .Static s => decoded_error codec (.inr (strBytes s))
    | .Buf b => decoded_error codec (.inr b)
  { t with res := some (.error rpc_error) }

end

/-- `AllocateBuf::reserve` of an `Option<Vec<u8>>`; what the bytes gained hold is
of no matter, they are read into next. -/
def reserve_resp_blob (t : DerivedTask Q P E) (size : Int32) : DerivedTask Q P E × Option Nat :=
  if t.has_resp_blob then
    let n := size.toInt.toNat
    let buf := t.resp_blob.getD []
    ({ t with resp_blob := some (buf.take n ++ List.replicate (n - buf.length) 0) }, some n)
  else (t, none)

/-- When the message does not decode, the task is left as it was. -/
def decode_resp [Serde C P] (codec : C) (t : DerivedTask Q P E) (buffer : Bytes) :
    Bool × DerivedTask Q P E :=
  match (Serde.decode codec buffer : Option P) with
  | some resp => (true, { t with resp := some resp })
  | none => (false, t)

instance : ClientTaskCommon (DerivedTask Q P E) where
  seq := seq
  set_seq t n := { t with seq := n }
  seq_set_seq _ _ := rfl

instance [Serde C Q] [Serde C P] [RpcErrCodec C E] : ClientTask C (DerivedTask Q P E) where
  get_action := action
  encode_req codec t := Serde.encode_into codec t.req
  get_req_blob := req_blob
  decode_resp := decode_resp
  reserve_resp_blob := reserve_resp_blob
  fill_resp_blob t bs := { t with resp_blob := t.resp_blob.map fun b => bs ++ b.drop bs.length }
  set_custom_error := set_custom_error
  set_rpc_error t e := { t with res := some (.error (.Rpc e)) }
  set_ok t := { t with res := some (.ok ()) }

end DerivedTask

/-! ## Server tasks -/

/-- What a server task's `encode_resp` did. -/
structure EncodedResp where
  seq : UInt64
  appended : Bytes
  result : Except EncodedErr (Nat × Option Bytes)

/-- How a response becomes bytes. -/
class ServerTaskEncode (C T : Type) where
  encode_resp : C → T → EncodedResp

/-- `ServerTaskVariant` once its result is set (without one `encode_resp`
panics). -/
structure ServerTaskVariant (M E : Type) where
  seq : UInt64
  msg : M
  blob : Option Bytes
  res : Except E Unit

/-- `ServerTaskVariantFull` once its result is set. -/
structure ServerTaskVariantFull (P E : Type) where
  seq : UInt64
  resp : Option P
  resp_blob : Option Bytes
  res : Except E Unit

section
variable {C M E : Type} [Serde C M] [RpcErrCodec C E]

/-- What was appended before an error stays in the buffer. -/
def ServerTaskVariant.encode_resp (codec : C) (t : ServerTaskVariant M E) : EncodedResp :=
  match t.res with
  | .ok _ =>
    match Serde.encode_into codec t.msg with
    | (bs, none) => ⟨t.seq, bs, .error (.Rpc .Encode)⟩
    | (bs, some msg_len) => ⟨t.seq, bs, .ok (msg_len, t.blob)⟩
  | .error e => ⟨t.seq, [], .error (RpcErrCodec.encode codec e)⟩

/-- A response may also have no message. -/
def ServerTaskVariantFull.encode_resp (codec : C) (t : ServerTaskVariantFull M E) : EncodedResp :=
  match t.res with
  | .ok _ =>
    match t.resp with
    | some resp =>
      match Serde.encode_into codec resp with
      | (bs, none) => ⟨t.seq, bs, .error (.Rpc .Encode)⟩
      | (bs, some msg_len) => ⟨t.seq, bs, .ok (msg_len, t.resp_blob)⟩
    | none => ⟨t.seq, [], .ok (0, t.resp_blob)⟩
  | .error e => ⟨t.seq, [], .error (RpcErrCodec.encode codec e)⟩

instance : ServerTaskEncode C (ServerTaskVariant M E) := ⟨ServerTaskVariant.encode_resp⟩

instance : ServerTaskEncode C (ServerTaskVariantFull M E) := ⟨ServerTaskVariantFull.encode_resp⟩

end

end OccamsRpc
