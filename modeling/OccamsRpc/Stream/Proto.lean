import OccamsRpc.Core.Buf
import OccamsRpc.Lib.Layout
import OccamsRpc.Stream.Task
/-!
# The wire protocol

Both headers are packed little-endian records. A request or response is encoded
in a reused buffer: room is left for the header, the action and the message are
appended, and the header is filled in last.
-/

namespace OccamsRpc

open Lib.Layout

def PING_ACTION : UInt32 := 0
def RPC_MAGIC : UInt16 := 19749
def U32_HIGH_MASK : UInt32 := (1 : UInt32) <<< 31
def RESP_FLAG_HAS_ERRNO : UInt8 := 1
def RESP_FLAG_HAS_ERR_STRING : UInt8 := 2
def RPC_VERSION_1 : UInt8 := 1

/-! ## The bit that marks a text action -/

theorem testBit_high_mask (i : Nat) : U32_HIGH_MASK.toNat.testBit i = decide (31 = i) := by
  rw [show U32_HIGH_MASK.toNat = 2 ^ 31 by decide, Nat.testBit_two_pow]

theorem and_high_mask {x : UInt32} (h : x.toNat < 2 ^ 31) : x &&& U32_HIGH_MASK = 0 := by
  apply UInt32.toNat.inj
  apply Nat.eq_of_testBit_eq
  intro i
  rw [UInt32.toNat_and, Nat.testBit_and, testBit_high_mask]
  by_cases hi : 31 = i
  · subst hi; simp [Nat.testBit_lt_two_pow h]
  · simp [hi]

theorem or_high_mask_and (x : UInt32) : (x ||| U32_HIGH_MASK) &&& U32_HIGH_MASK ≠ 0 := by
  intro h
  have h := congrArg (fun y => y.toNat.testBit 31) h
  simp [UInt32.toNat_and, UInt32.toNat_or, Nat.testBit_or, Nat.testBit_and, testBit_high_mask] at h

theorem or_high_mask_xor {x : UInt32} (h : x.toNat < 2 ^ 31) :
    (x ||| U32_HIGH_MASK) ^^^ U32_HIGH_MASK = x := by
  apply UInt32.toNat.inj
  apply Nat.eq_of_testBit_eq
  intro i
  rw [UInt32.toNat_xor, UInt32.toNat_or, Nat.testBit_xor, Nat.testBit_or, testBit_high_mask]
  by_cases hi : 31 = i
  · subst hi; simp [Nat.testBit_lt_two_pow h]
  · simp [hi]

/-! ## Request header -/

/-- The header of a request, 32 bytes in little endian. -/
structure ReqHead where
  magic : UInt16
  ver : UInt8
  format : UInt8
  action : UInt32
  seq : UInt64
  client_id : UInt64
  msg_len : UInt32
  blob_len : UInt32
  deriving DecidableEq

def RPC_REQ_HEADER_LEN : Nat := 32

namespace ReqHead

/-- The fields as they are laid out, each with its size. -/
def fields (h : ReqHead) : List (Nat × Nat) :=
  [(2, h.magic.toNat), (1, h.ver.toNat), (1, h.format.toNat), (4, h.action.toNat), (8, h.seq.toNat),
    (8, h.client_id.toNat), (4, h.msg_len.toNat), (4, h.blob_len.toNat)]

def as_bytes (h : ReqHead) : Bytes := pack h.fields

/-- `ref_from_bytes`, for a buffer of the header's length. -/
def ref_from_bytes (head_buf : Bytes) : ReqHead :=
  let f := fun i => (unpack [2, 1, 1, 4, 8, 8, 4, 4] head_buf).getD i 0
  { magic := .ofNat (f 0), ver := .ofNat (f 1), format := .ofNat (f 2), action := .ofNat (f 3),
    seq := .ofNat (f 4), client_id := .ofNat (f 5), msg_len := .ofNat (f 6),
    blob_len := .ofNat (f 7) }

@[simp] theorem length_as_bytes (h : ReqHead) : h.as_bytes.length = RPC_REQ_HEADER_LEN := by
  simp [as_bytes, fields, RPC_REQ_HEADER_LEN]

theorem fields_lt (h : ReqHead) : ∀ f ∈ h.fields, f.2 < 256 ^ f.1 := by
  simp only [fields, List.forall_mem_cons]
  exact ⟨h.magic.toNat_lt, h.ver.toNat_lt, h.format.toNat_lt, h.action.toNat_lt, h.seq.toNat_lt,
    h.client_id.toNat_lt, h.msg_len.toNat_lt, h.blob_len.toNat_lt, by simp⟩

@[simp] theorem ref_from_bytes_as_bytes (h : ReqHead) : ref_from_bytes h.as_bytes = h := by
  have hu : unpack [2, 1, 1, 4, 8, 8, 4, 4] h.as_bytes = h.fields.map Prod.snd :=
    unpack_pack h.fields h.fields_lt
  simp [ref_from_bytes, hu, fields]

/-- The header `_write_head` fills in. -/
def filled (client_id : UInt64) (action : UInt32) (seq : UInt64) (msg_len : UInt32)
    (blob_len : Int32) : ReqHead where
  magic := RPC_MAGIC
  ver := RPC_VERSION_1
  format := 0
  action := action
  seq := seq
  client_id := client_id
  msg_len := msg_len
  blob_len := blob_len.toUInt32

def _write_head (buf : EncodeBuf RPC_REQ_HEADER_LEN) (client_id : UInt64) (action : UInt32)
    (seq : UInt64) (msg_len : UInt32) (blob_len : Int32) : EncodeBuf RPC_REQ_HEADER_LEN :=
  buf.fill_head (filled client_id action seq msg_len blob_len).as_bytes

/-- A ping has no message and no blob. -/
def encode_ping (buf : EncodeBuf RPC_REQ_HEADER_LEN) (client_id seq : UInt64) :
    EncodeBuf RPC_REQ_HEADER_LEN :=
  _write_head buf.set_len client_id PING_ACTION seq 0 0

/-- What the action puts in the header, and in the buffer after it. -/
def action_flag : RpcAction → UInt32 × Bytes
  | .Num num => (num.toUInt32, [])
  | .Str s => (UInt32.ofNat (strBytes s).length ||| U32_HIGH_MASK, strBytes s)

section
variable {C T : Type} [ClientTaskCommon T] [ClientTask C T]

/-- Writes header, action and message into `buf`; the blob is returned, for the
transport to write after them. -/
def encode (codec : C) (buf : EncodeBuf RPC_REQ_HEADER_LEN) (client_id : UInt64) (task : T) :
    EncodeBuf RPC_REQ_HEADER_LEN × Except Unit (Option Bytes) :=
  let (flag, action) := action_flag (ClientTask.get_action C task)
  let buf := buf.set_len.write_all action
  let (msg, r) := ClientTask.encode_req codec task
  let buf := buf.write_all msg
  match r with
  | none => (buf, .error ())
  | some msg_len =>
    if msg_len > u32_MAX then (buf, .error ())
    else
      let blob := ClientTask.get_req_blob C task
      let blob_len := (blob.getD []).length
      if blob_len > i32_MAX then (buf, .error ())
      else
        (_write_head buf client_id flag (ClientTaskCommon.seq task) (.ofNat msg_len)
          (.ofNat blob_len), .ok blob)

end

/-- Magic and version are checked, and nothing else is. -/
def decode_head (head_buf : Bytes) : Except RpcIntErr ReqHead :=
  let head := ref_from_bytes head_buf
  if head.magic ≠ RPC_MAGIC then .error .Io
  else if head.ver ≠ RPC_VERSION_1 then .error .Version
  else .ok head

/-- A number, or (as the error) the length of the action's text. -/
def get_action (h : ReqHead) : Except Int32 Int32 :=
  if h.action &&& U32_HIGH_MASK = 0 then .ok h.action.toInt32
  else .error (h.action ^^^ U32_HIGH_MASK).toInt32

@[simp] theorem decode_head_filled (client_id : UInt64) (action : UInt32) (seq : UInt64)
    (msg_len : UInt32) (blob_len : Int32) :
    decode_head (filled client_id action seq msg_len blob_len).as_bytes =
      .ok (filled client_id action seq msg_len blob_len) := by
  simp [decode_head, filled]

/-- A non-negative number is read back from the header. -/
theorem get_action_num {h : ReqHead} {n : Int32} (hn : 0 ≤ n) (ha : h.action = n.toUInt32) :
    h.get_action = .ok n := by
  rw [get_action, ha, if_pos (and_high_mask (toUInt32_lt_of_nonneg hn)), Int32.toInt32_toUInt32]

/-- The length of a text shorter than 2^31 is read back from the header. -/
theorem get_action_len {h : ReqHead} {k : Nat} (hk : k ≤ i32_MAX)
    (ha : h.action = UInt32.ofNat k ||| U32_HIGH_MASK) :
    h.get_action = .error (Int32.ofNat k) := by
  have hlt : (UInt32.ofNat k).toNat < 2 ^ 31 := by
    rw [toNat_ofNat_u32 (by unfold i32_MAX at hk; unfold u32_MAX; omega)]
    unfold i32_MAX at hk
    omega
  rw [get_action, ha, if_neg (or_high_mask_and _), or_high_mask_xor hlt]
  rfl

end ReqHead

/-! ## Response header -/

/-- The header of a response, 20 bytes in little endian. -/
structure RespHead where
  magic : UInt16
  ver : UInt8
  flag : UInt8
  msg_len : UInt32
  seq : UInt64
  blob_len : Int32
  deriving DecidableEq

def RPC_RESP_HEADER_LEN : Nat := 20

namespace RespHead

def fields (h : RespHead) : List (Nat × Nat) :=
  [(2, h.magic.toNat), (1, h.ver.toNat), (1, h.flag.toNat), (4, h.msg_len.toNat), (8, h.seq.toNat),
    (4, h.blob_len.toUInt32.toNat)]

def as_bytes (h : RespHead) : Bytes := pack h.fields

/-- `ref_from_bytes`, for a buffer of the header's length. -/
def ref_from_bytes (head_buf : Bytes) : RespHead :=
  let f := fun i => (unpack [2, 1, 1, 4, 8, 4] head_buf).getD i 0
  { magic := .ofNat (f 0), ver := .ofNat (f 1), flag := .ofNat (f 2), msg_len := .ofNat (f 3),
    seq := .ofNat (f 4), blob_len := (UInt32.ofNat (f 5)).toInt32 }

@[simp] theorem length_as_bytes (h : RespHead) : h.as_bytes.length = RPC_RESP_HEADER_LEN := by
  simp [as_bytes, fields, RPC_RESP_HEADER_LEN]

theorem fields_lt (h : RespHead) : ∀ f ∈ h.fields, f.2 < 256 ^ f.1 := by
  simp only [fields, List.forall_mem_cons]
  exact ⟨h.magic.toNat_lt, h.ver.toNat_lt, h.flag.toNat_lt, h.msg_len.toNat_lt, h.seq.toNat_lt,
    h.blob_len.toUInt32.toNat_lt, by simp⟩

@[simp] theorem ref_from_bytes_as_bytes (h : RespHead) : ref_from_bytes h.as_bytes = h := by
  have hu : unpack [2, 1, 1, 4, 8, 4] h.as_bytes = h.fields.map Prod.snd :=
    unpack_pack h.fields h.fields_lt
  simp [ref_from_bytes, hu, fields]

/-- The header `_write_head` fills in. -/
def filled (flag : UInt8) (seq : UInt64) (msg_len : UInt32) (blob_len : Int32) : RespHead where
  magic := RPC_MAGIC
  ver := RPC_VERSION_1
  flag := flag
  msg_len := msg_len
  seq := seq
  blob_len := blob_len

def _write_head (buf : EncodeBuf RPC_RESP_HEADER_LEN) (flag : UInt8) (seq : UInt64)
    (msg_len : UInt32) (blob_len : Int32) : EncodeBuf RPC_RESP_HEADER_LEN :=
  buf.fill_head (filled flag seq msg_len blob_len).as_bytes

/-- The `write_err!` of `_encode_error`: the header, then the text at the end of
the buffer. -/
def write_err (buf : EncodeBuf RPC_RESP_HEADER_LEN) (seq : UInt64) (s : Bytes) :
    EncodeBuf RPC_RESP_HEADER_LEN :=
  (_write_head buf RESP_FLAG_HAS_ERR_STRING seq 0 (.ofNat s.length)).write_all s

/-- An errno goes in the place of the message length. -/
def _encode_error (buf : EncodeBuf RPC_RESP_HEADER_LEN) (seq : UInt64) :
    EncodedErr → EncodeBuf RPC_RESP_HEADER_LEN
  | .Num n => _write_head buf RESP_FLAG_HAS_ERRNO seq n 0
  | .Rpc s => write_err buf seq s.as_bytes
  | .Buf s => write_err buf seq s
  | .Static s => write_err buf seq (strBytes s)

section
variable {C T : Type} [ServerTaskEncode C T]

/-- Writes header and message into `buf`; the blob is returned, for the
transport to write after them. -/
def encode (codec : C) (buf : EncodeBuf RPC_RESP_HEADER_LEN) (task : T) :
    EncodeBuf RPC_RESP_HEADER_LEN × UInt64 × Option Bytes :=
  let r := ServerTaskEncode.encode_resp codec task
  let buf := buf.set_len.write_all r.appended
  match r.result with
  | .ok (msg_len, none) =>
    if msg_len > u32_MAX then (_encode_error buf r.seq (.Rpc .Encode), r.seq, none)
    else (_write_head buf 0 r.seq (.ofNat msg_len) 0, r.seq, none)
  | .ok (msg_len, some blob) =>
    if msg_len > u32_MAX then (_encode_error buf r.seq (.Rpc .Encode), r.seq, none)
    else if blob.length > i32_MAX then (_encode_error buf r.seq (.Rpc .Encode), r.seq, none)
    else (_write_head buf 0 r.seq (.ofNat msg_len) (.ofNat blob.length), r.seq, some blob)
  | .error e => (_encode_error buf r.seq e, r.seq, none)

end

/-- The framework's own responses: an error, or the answer to a ping. -/
def encode_internal (buf : EncodeBuf RPC_RESP_HEADER_LEN) (seq : UInt64) :
    Option RpcIntErr → EncodeBuf RPC_RESP_HEADER_LEN
  | some e => _encode_error buf.set_len seq (.Rpc e)
  | none => _write_head buf.set_len 0 seq 0 0

/-- As for a request. A flag that has no meaning is accepted. -/
def decode_head (head_buf : Bytes) : Except RpcIntErr RespHead :=
  let head := ref_from_bytes head_buf
  if head.magic ≠ RPC_MAGIC then .error .Io
  else if head.ver ≠ RPC_VERSION_1 then .error .Version
  else .ok head

@[simp] theorem decode_head_filled (flag : UInt8) (seq : UInt64) (msg_len : UInt32)
    (blob_len : Int32) :
    decode_head (filled flag seq msg_len blob_len).as_bytes =
      .ok (filled flag seq msg_len blob_len) := by
  simp [decode_head, filled]

end RespHead

end OccamsRpc
