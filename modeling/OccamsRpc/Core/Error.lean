import OccamsRpc.Core.Num
/-!
# Errors of the framework

`RpcIntErr` travels as text; every name starts with the reserved "rpc_". An
error of the user's own type travels as a number or as bytes (`EncodedErr`).
-/

namespace OccamsRpc

/-! ## Text as bytes -/

/-- `str::as_bytes` -/
def strBytes (s : String) : Bytes := s.toUTF8.data.toList

/-- `str::from_utf8` -/
def fromUtf8 (l : Bytes) : Option String := String.fromUTF8? ⟨l.toArray⟩

@[simp] theorem fromUtf8_strBytes (s : String) : fromUtf8 (strBytes s) = some s := by
  have h : (⟨(strBytes s).toArray⟩ : ByteArray) = s.toByteArray := by simp [strBytes]
  unfold fromUtf8 String.fromUTF8?
  rw [h, dif_pos s.isValidUTF8]
  rfl

theorem strBytes_of_fromUtf8 {l : Bytes} {s : String} (h : fromUtf8 l = some s) :
    strBytes s = l := by
  unfold fromUtf8 String.fromUTF8? at h
  split at h
  · cases h
    simp [strBytes, String.fromUTF8]
  · cases h

/-! ## The framework's own errors -/

/-- The reserved start of every internal error's text. -/
def RPC_ERR_PREFIX : String := "rpc_"

/-- The errors of the RPC itself. Their order is that of the source, where those before
`Method` are worth another try. -/
inductive RpcIntErr
  | Unreachable
  | Io
  | Timeout
  | Method
  | Service
  | Encode
  | Decode
  | Internal
  | Version
  deriving DecidableEq, Repr

namespace RpcIntErr

/-- The `repr(u8)` discriminant, which the derived `PartialOrd` compares. -/
def discriminant : RpcIntErr → Nat
  | Unreachable => 0
  | Io => 1
  | Timeout => 2
  | Method => 3
  | Service => 4
  | Encode => 5
  | Decode => 6
  | Internal => 7
  | Version => 8

instance : LT RpcIntErr := ⟨fun a b => a.discriminant < b.discriminant⟩

instance (a b : RpcIntErr) : Decidable (a < b) :=
  inferInstanceAs (Decidable (a.discriminant < b.discriminant))

/-- The text of the error (strum's `AsRefStr`). -/
def as_ref : RpcIntErr → String
  | Unreachable => "rpc_unreachable"
  | Io => "rpc_io_err"
  | Timeout => "rpc_timeout"
  | Method => "rpc_method_notfound"
  | Service => "rpc_service_notfound"
  | Encode => "rpc_encode"
  | Decode => "rpc_decode"
  | Internal => "rpc_internal_err"
  | Version => "rpc_invalid_ver"

/-- What goes over the wire for one of them. -/
def as_bytes (e : RpcIntErr) : Bytes := strBytes e.as_ref

def variants : List RpcIntErr :=
  [Unreachable, Io, Timeout, Method, Service, Encode, Decode, Internal, Version]

/-- strum's `EnumString`: the variant with exactly this text. -/
def from_str (s : String) : Option RpcIntErr := variants.find? fun e => e.as_ref == s

theorem from_str_as_ref (e : RpcIntErr) : from_str e.as_ref = some e := by
  cases e <;> decide

theorem as_ref_of_from_str {s : String} {e : RpcIntErr} (h : from_str s = some e) :
    e.as_ref = s := by
  simpa using List.find?_some h

theorem isPrefixOf_as_bytes (e : RpcIntErr) :
    (strBytes RPC_ERR_PREFIX).isPrefixOf e.as_bytes = true := by
  cases e <;> decide

theorem length_as_bytes_le (e : RpcIntErr) : e.as_bytes.length ≤ i32_MAX := by
  cases e <;> decide

end RpcIntErr

/-! ## Errors of the user's types -/

/-- An error as it is handed to, or comes from, the transport. -/
inductive EncodedErr
  | Rpc (e : RpcIntErr)
  | Num (n : UInt32)
  | Static (s : String)
  | Buf (b : Bytes)
  deriving DecidableEq

/-- What a caller gets: an error of the service, or of the RPC. -/
inductive RpcError (E : Type)
  | User (e : E)
  | Rpc (e : RpcIntErr)
  deriving DecidableEq

/-- How a user's error type is put into the transport's forms, under codec `C`.
`decode` is given the number or the bytes that arrived. -/
class RpcErrCodec (C E : Type) where
  encode : C → E → EncodedErr
  decode : C → UInt32 ⊕ Bytes → Option E

instance (C : Type) : RpcErrCodec C String where
  encode _ s := .Buf (strBytes s)
  decode
    | _, .inr b => fromUtf8 b
    | _, .inl _ => none

end OccamsRpc
