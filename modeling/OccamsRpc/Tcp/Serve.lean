import OccamsRpc.Tcp.Request
/-!
# A connection on the server

The reader of `stream/src/server/server.rs` hands each request to the dispatch
and answers pings itself; the writer encodes the responses it is sent, one after
the other, and flushes when there are no more. Here the dispatch is one that
answers before it returns, as `Inline` does.
-/

namespace OccamsRpc

/-! ## The reader -/

/-- What is sent to the writer: a response task, or a seq to acknowledge or to
fail. -/
abbrev Done (R : Type) := Except (UInt64 × Option RpcIntErr) R

/-- One round of `Reader::run` after `read_req`. -/
def Reader.handle {R σ : Type} (dispatch : RpcSvrReq → σ → Option R × σ) (req : RpcSvrReq) (st : σ) :
    Done R × σ :=
  if req.action = .Num 0 ∧ req.msg.length = 0 then (.error (req.seq, none), st)
  else
    match dispatch req st with
    | (some resp, st) => (.ok resp, st)
    | (none, st) => (.error (req.seq, some .Decode), st)

/-! ## The writer -/

/-- The server end with the buffer that responses are encoded in. -/
structure ServerConn (S : Type) where
  server : TcpServer S
  write_timeout : Nat
  encode_buf : EncodeBuf RPC_RESP_HEADER_LEN

namespace ServerConn

variable {S α : Type}

def withStream (c : ServerConn S) (s : AsyncBufStream S) : ServerConn S :=
  { c with server := c.server.withStream s }

def writing (x : Async (AsyncBufStream S) IoErr α) : Async (ServerConn S) IoErr α := fun c =>
  (io_with_timeout c.write_timeout x).zoom (fun c => c.server.stream) withStream c

section
variable [AsyncWrite S]

def write_blob : Option Bytes → Async (ServerConn S) IoErr Unit
  | some blob => writing (AsyncWrite.write_all blob)
  | none => pure ()

/-- A response that cannot be encoded goes out as an error, so there is always one to write.
-/
def write_resp {C R : Type} [ServerTaskEncode C R] (codec : C) (task : R) :
    Async (ServerConn S) IoErr Unit := fun c =>
  let (buf, _, blob) := RespHead.encode codec c.encode_buf task
  (do writing (AsyncWrite.write_all buf.data); write_blob blob : Async (ServerConn S) IoErr Unit)
    { c with encode_buf := buf }

/-- The answer to a ping, or an error of the RPC. -/
def write_resp_internal (seq : UInt64) (err : Option RpcIntErr) :
    Async (ServerConn S) IoErr Unit := fun c =>
  let buf := RespHead.encode_internal c.encode_buf seq err
  writing (AsyncWrite.write_all buf.data) { c with encode_buf := buf }

def flush_resp : Async (ServerConn S) IoErr Unit := writing AsyncBufStream.flush

/-- What the writer does with a message of its channel. -/
def process {C R : Type} [ServerTaskEncode C R] (codec : C) :
    Done R → Async (ServerConn S) IoErr Unit
  | .ok task => write_resp codec task
  | .error (seq, err) => write_resp_internal seq err

/-- One round of `Writer::run`: what the channel holds, and the flush. -/
def write_done {C R : Type} [ServerTaskEncode C R] (codec : C) :
    List (Done R) → Async (ServerConn S) IoErr Unit
  | [] => flush_resp
  | task :: tasks => do
    process codec task
    write_done codec tasks

end

theorem writing_ok {x : Async (AsyncBufStream S) IoErr α} {c : ServerConn S} {a : α}
    {s' : AsyncBufStream S} (h : x c.server.stream = (.ready (.ok a), s')) :
    writing x c = (.ready (.ok a), c.withStream s') := by
  simp only [writing, Async.zoom, io_with_timeout_ok h]

section
variable [AsyncWrite S] {Room : S → Nat → Prop} {out : S → Bytes} {C R : Type}
  [ServerTaskEncode C R]

theorem write_blob_ok (h : Accepts S Room out) {c : ServerConn S} {k : Nat} (blob : Option Bytes)
    (hc : c.server.stream.Room Room ((blob.getD []).length + k)) :
    ∃ s', write_blob blob c = (.ready (.ok ()), c.withStream s') ∧
      s'.out out = c.server.stream.out out ++ blob.getD [] ∧ s'.Room Room k := by
  cases blob with
  | none => exact ⟨c.server.stream, rfl, by simp, by simpa using hc⟩
  | some b =>
    simp only [Option.getD_some] at hc ⊢
    obtain ⟨s', hr, hout, hroom, -⟩ :=
      (AsyncBufStream.accepts h).write_all hc (show b.length ≤ _ by omega)
    exact ⟨s', writing_ok hr, hout, by rwa [Nat.add_sub_cancel_left] at hroom⟩

/-- Writing a response puts its frame behind everything written before. -/
theorem write_resp_ok (h : Accepts S Room out) (codec : C) (task : R) {c : ServerConn S} {k : Nat}
    (hc : c.server.stream.Room Room ((RespHead.frame codec c.encode_buf task).length + k)) :
    ∃ c', write_resp codec task c = (.ready (.ok ()), c') ∧
      c'.server.stream.out out = c.server.stream.out out ++ RespHead.frame codec c.encode_buf task ∧
      c'.server.stream.Room Room k ∧ c'.server.alloc = c.server.alloc := by
  rcases he : RespHead.encode codec c.encode_buf task with ⟨buf, seq, blob⟩
  have hframe : RespHead.frame codec c.encode_buf task = buf.data ++ blob.getD [] := by
    simp only [RespHead.frame, he]
  rw [hframe, List.length_append, Nat.add_assoc] at hc
  obtain ⟨s1, hr1, hout1, hroom1, -⟩ :=
    (AsyncBufStream.accepts h).write_all hc (show buf.data.length ≤ _ by omega)
  rw [Nat.add_sub_cancel_left] at hroom1
  obtain ⟨s2, hr2, hout2, hroom2⟩ :=
    write_blob_ok h (c := { c with encode_buf := buf }.withStream s1) blob hroom1
  refine ⟨({ c with encode_buf := buf }.withStream s1).withStream s2, ?_, ?_, hroom2, rfl⟩
  · simp only [write_resp, he]
    exact (Async.bind_ok (writing_ok (c := { c with encode_buf := buf }) hr1) _).trans hr2
  · rw [hframe, ← List.append_assoc, ← hout1]
    exact hout2

theorem flush_resp_ok (h : Accepts S Room out) {c : ServerConn S} {k : Nat}
    (hc : c.server.stream.Room Room k) :
    ∃ s', flush_resp c = (.ready (.ok ()), c.withStream s') ∧
      out s'.inner = c.server.stream.out out ∧
      s'.out out = c.server.stream.out out ∧ s'.Room Room k := by
  obtain ⟨s', hr, hs'⟩ := AsyncBufStream.flush_spec h hc
  exact ⟨s', writing_ok hr, hs'⟩

end

end ServerConn

end OccamsRpc
