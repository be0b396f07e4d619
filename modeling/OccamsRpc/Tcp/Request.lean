import OccamsRpc.Core.Transfer
import OccamsRpc.Stream.Frame
/-!
# Requests over TCP

The client encodes each request or ping into its reused buffer and writes it,
then its blob, to the buffered stream; the server reads headers and the lengths
they announce. The two ends are composed: what the server reads is the list the
client sent, for every chunking of the writes and the reads.
-/

namespace OccamsRpc

/-! ## The client's side -/

/-- The client end. `read_timeout` and `write_timeout` are 0 when there is none. -/
structure TcpClient (S : Type) where
  stream : AsyncBufStream S
  resp_buf : Bytes
  /-- Every length `resp_buf` was resized to. -/
  resized : List Nat
  read_timeout : Nat
  write_timeout : Nat

namespace TcpClient

variable {S α : Type}

def withStream (c : TcpClient S) (s : AsyncBufStream S) : TcpClient S := { c with stream := s }

/-- An operation on `get_stream_mut()` under the write timeout. -/
def writing (x : Async (AsyncBufStream S) IoErr α) : Async (TcpClient S) IoErr α := fun c =>
  (io_with_timeout c.write_timeout x).zoom stream withStream c

section
variable [AsyncWrite S]

def flush_req : Async (TcpClient S) IoErr Unit := writing AsyncBufStream.flush

def write_blob : Option Bytes → Async (TcpClient S) IoErr Unit
  | some blob_buf => writing (AsyncWrite.write_all blob_buf)
  | none => pure ()

/-- Both writes are under the timeout, each on its own. -/
def write_req (buf : Bytes) (blob : Option Bytes) (need_flush : Bool) :
    Async (TcpClient S) IoErr Unit := do
  writing (AsyncWrite.write_all buf)
  write_blob blob
  if need_flush then flush_req

end

end TcpClient

/-- What `ClientStreamInner` sends with. -/
structure ClientStreamInner (S : Type) where
  client_id : UInt64
  conn : TcpClient S
  seq : UInt64
  encode_buf : EncodeBuf RPC_REQ_HEADER_LEN

namespace ClientStreamInner

variable {S C T : Type} [AsyncWrite S] [ClientTaskCommon T] [ClientTask C T]

def withConn (c : ClientStreamInner S) (conn : TcpClient S) : ClientStreamInner S :=
  { c with conn := conn }

/-- `fetch_add` on the `AtomicU64`, which wraps. -/
def seq_update : Async (ClientStreamInner S) RpcIntErr UInt64 := fun c =>
  (.ready (.ok c.seq), { c with seq := c.seq + 1 })

/-- The sending half of `send_request`; the task is registered after it. -/
def send_request (codec : C) (task : T) (need_flush : Bool) :
    Async (ClientStreamInner S) RpcIntErr Unit := do
  let seq ← seq_update
  let task := ClientTaskCommon.set_seq task seq
  let blob_buf ← fun c =>
    match ReqHead.encode codec c.encode_buf c.client_id task with
    | (buf, .error _) => (.ready (.error .Encode), { c with encode_buf := buf })
    | (buf, .ok blob_buf) => (.ready (.ok (buf.data, blob_buf)), { c with encode_buf := buf })
  ((TcpClient.write_req blob_buf.1 blob_buf.2 need_flush).mapErr fun _ => .Io).zoom conn withConn

/-- A ping is a request with no message; it is always flushed. -/
def send_ping_req : Async (ClientStreamInner S) RpcIntErr Unit := do
  let seq ← seq_update
  let buf ← fun c =>
    let buf := ReqHead.encode_ping c.encode_buf c.client_id seq
    (.ready (.ok buf.data), { c with encode_buf := buf })
  ((TcpClient.write_req buf none true).mapErr fun _ => .Io).zoom conn withConn

end ClientStreamInner

/-! ## The server's side -/

/-- A request as the server has read it. -/
structure RpcSvrReq where
  seq : UInt64
  action : RpcAction
  msg : Bytes
  blob : Option Bytes
  deriving DecidableEq

/-- The reader of a server connection. `action_buf` and `msg_buf` are resized to
the length read and overwritten whole, so they are the bytes read. -/
structure TcpServer (S : Type) where
  stream : AsyncBufStream S
  read_timeout : Nat
  alloc : BufferAlloc

namespace TcpServer

variable {S : Type} [AsyncRead S]

def withStream (srv : TcpServer S) (s : AsyncBufStream S) : TcpServer S := { srv with stream := s }

/-- The header is awaited until the close channel or the idle timer cancels it. -/
def read_header : Async (TcpServer S) RpcIntErr Bytes := fun srv =>
  match AsyncRead.read_exact RPC_REQ_HEADER_LEN srv.stream with
  | (.ready (.ok buf), s) => (.ready (.ok buf), srv.withStream s)
  | (.ready (.error _), s) => (.ready (.error .Io), srv.withStream s)
  | (.pending, s) => (.ready (.error .Timeout), srv.withStream s)

/-- `read_exact` under the read timeout; any error is `RpcIntErr::IO`. -/
def read_body (len : Nat) : Async (TcpServer S) RpcIntErr Bytes := fun srv =>
  (io_with_timeout srv.read_timeout (AsyncRead.read_exact len)).mapErr (fun _ => RpcIntErr.Io)
    |>.zoom stream withStream <| srv

/-- The action is a number in the header, or a text after it. -/
def read_action (rpc_head : ReqHead) : Async (TcpServer S) RpcIntErr RpcAction :=
  match rpc_head.get_action with
  | .ok num => pure (.Num num)
  | .error action_len => do
    let action_buf ← read_body (as_usize action_len)
    match fromUtf8 action_buf with
    | some s => pure (.Str s)
    | none => .fail .Decode

def read_msg (rpc_head : ReqHead) : Async (TcpServer S) RpcIntErr Bytes :=
  if rpc_head.msg_len > 0 then read_body rpc_head.msg_len.toNat else pure []

def read_ext_buf (len : Nat) : Async (TcpServer S) RpcIntErr (Option Bytes) := do
  let ext_buf ← read_body len
  pure (some ext_buf)

/-- `Buffer::alloc` may fail, and the request is then not decoded. -/
def read_blob (rpc_head : ReqHead) : Async (TcpServer S) RpcIntErr (Option Bytes) := fun srv =>
  let blob_len := rpc_head.blob_len.toInt32
  if blob_len > 0 then
    match srv.alloc blob_len with
    | none => (.ready (.error .Decode), srv)
    | some len => read_ext_buf len srv
  else (.ready (.ok none), srv)

/-- A header that is wrong ends the connection before anything else is read. -/
def read_req : Async (TcpServer S) RpcIntErr RpcSvrReq := do
  let req_header_buf ← read_header
  match ReqHead.decode_head req_header_buf with
  | .error _ => .fail .Decode
  | .ok rpc_head =>
    let action ← read_action rpc_head
    let msg ← read_msg rpc_head
    let blob ← read_blob rpc_head
    pure { seq := rpc_head.seq, action := action, msg := msg, blob := blob }

/-- More bytes of the client come. -/
def feed (srv : TcpServer Sock) (bs : Bytes) (evs : List ReadEv) : TcpServer Sock :=
  srv.withStream (srv.stream.feed bs evs)

end TcpServer

/-! ## What the client writes -/

theorem TcpClient.writing_ok {S α : Type} {x : Async (AsyncBufStream S) IoErr α} {c : TcpClient S}
    {a : α} {s' : AsyncBufStream S} (h : x c.stream = (.ready (.ok a), s')) :
    writing x c = (.ready (.ok a), c.withStream s') := by
  simp only [writing, Async.zoom, io_with_timeout_ok h]

namespace TcpClient

variable {S : Type} [AsyncWrite S] {Room : S → Nat → Prop} {out : S → Bytes}

theorem flush_req_ok (h : Accepts S Room out) {c : TcpClient S} {k : Nat}
    (hc : c.stream.Room Room k) :
    ∃ s', flush_req c = (.ready (.ok ()), c.withStream s') ∧ out s'.inner = c.stream.out out ∧
      s'.out out = c.stream.out out ∧ s'.Room Room k := by
  obtain ⟨s', hr, hs'⟩ := AsyncBufStream.flush_spec h hc
  exact ⟨s', writing_ok hr, hs'⟩

theorem write_blob_ok (h : Accepts S Room out) {c : TcpClient S} {k : Nat} (blob : Option Bytes)
    (hc : c.stream.Room Room ((blob.getD []).length + k)) :
    ∃ s', write_blob blob c = (.ready (.ok ()), c.withStream s') ∧
      s'.out out = c.stream.out out ++ blob.getD [] ∧ s'.Room Room k := by
  cases blob with
  | none => exact ⟨c.stream, rfl, by simp, by simpa using hc⟩
  | some b =>
    simp only [Option.getD_some] at hc ⊢
    obtain ⟨s', hr, hout, hroom, -⟩ :=
      (AsyncBufStream.accepts h).write_all hc (show b.length ≤ _ by omega)
    exact ⟨s', writing_ok hr, hout, by rwa [Nat.add_sub_cancel_left] at hroom⟩

/-- `write_req` puts the buffer and the blob behind everything written before. -/
theorem write_req_ok (h : Accepts S Room out) {c : TcpClient S} {k : Nat} (buf : Bytes)
    (blob : Option Bytes) (need_flush : Bool)
    (hc : c.stream.Room Room (buf.length + ((blob.getD []).length + k))) :
    ∃ s', write_req buf blob need_flush c = (.ready (.ok ()), c.withStream s') ∧
      s'.out out = c.stream.out out ++ (buf ++ blob.getD []) ∧ s'.Room Room k := by
  obtain ⟨s1, hr1, hout1, hroom1, -⟩ :=
    (AsyncBufStream.accepts h).write_all hc (show buf.length ≤ _ by omega)
  rw [Nat.add_sub_cancel_left] at hroom1
  obtain ⟨s2, hr2, hout2, hroom2⟩ := write_blob_ok h (c := c.withStream s1) blob hroom1
  have hout : s2.out out = c.stream.out out ++ (buf ++ blob.getD []) := by
    rw [hout2, ← List.append_assoc, ← hout1]
    rfl
  rw [write_req, Async.bind_ok (writing_ok hr1), Async.bind_ok hr2]
  cases need_flush with
  | false => exact ⟨s2, rfl, hout, hroom2⟩
  | true =>
    obtain ⟨s3, hr3, -, hout3, hroom3⟩ :=
      flush_req_ok h (c := (c.withStream s1).withStream s2) hroom2
    exact ⟨s3, hr3, by rw [hout3]; exact hout, hroom3⟩

end TcpClient

/-! ## What is sent on one connection -/

/-- What a client sends. -/
inductive Outgoing (T : Type)
  | task (t : T) (need_flush : Bool)
  | ping

section
variable {C T : Type} [ClientTaskCommon T] [ClientTask C T]

/-- Actions the header can carry: numbers from 0 on, texts shorter than 2^31. -/
def RpcAction.Fits : RpcAction → Prop
  | .Num n => 0 ≤ n
  | .Str s => (strBytes s).length ≤ i32_MAX

namespace Outgoing

/-- The task, given this `seq`, has a fitting action, reports the size it
appends, and its message and blob fit their length fields. -/
def Sendable (codec : C) (seq : UInt64) : Outgoing T → Prop
  | .task t _ =>
    let t := ClientTaskCommon.set_seq t seq
    (ClientTask.get_action C t).Fits ∧
      (ClientTask.encode_req codec t).2 = some (ClientTask.encode_req codec t).1.length ∧
      (ClientTask.encode_req codec t).1.length ≤ u32_MAX ∧
      ((ClientTask.get_req_blob C t).getD []).length ≤ i32_MAX
  | .ping => True

/-- The request as the server is to read it; an empty blob is none. -/
def received (codec : C) (seq : UInt64) : Outgoing T → RpcSvrReq
  | .task t _ =>
    let t := ClientTaskCommon.set_seq t seq
    { seq := seq
      action := ClientTask.get_action C t
      msg := (ClientTask.encode_req codec t).1
      blob := (ClientTask.get_req_blob C t).filter fun b => b ≠ [] }
  | .ping => { seq := seq, action := .Num 0, msg := [], blob := none }

/-- The bytes of the request. -/
def wire (codec : C) (client_id seq : UInt64) : Outgoing T → Bytes
  | .task t _ =>
    let t := ClientTaskCommon.set_seq t seq
    let (flag, action) := ReqHead.action_flag (ClientTask.get_action C t)
    let msg := (ClientTask.encode_req codec t).1
    let blob := (ClientTask.get_req_blob C t).getD []
    (ReqHead.filled client_id flag seq (.ofNat msg.length) (.ofNat blob.length)).as_bytes ++
      (action ++ (msg ++ blob))
  | .ping => (ReqHead.filled client_id PING_ACTION seq 0 0).as_bytes

/-- The requests of a list, the first with this `seq`. -/
def receivedAll (codec : C) : UInt64 → List (Outgoing T) → List RpcSvrReq
  | _, [] => []
  | seq, i :: is => i.received codec seq :: receivedAll codec (seq + 1) is

/-- The requests one after the other, with seqs that count up. -/
def wireAll (codec : C) (client_id : UInt64) : UInt64 → List (Outgoing T) → Bytes
  | _, [] => []
  | seq, i :: is => i.wire codec client_id seq ++ wireAll codec client_id (seq + 1) is

end Outgoing

namespace ClientStreamInner

variable {S : Type} [AsyncWrite S]

def flush_req : Async (ClientStreamInner S) RpcIntErr Unit :=
  (TcpClient.flush_req.mapErr fun _ => .Io).zoom conn withConn

def send (codec : C) : Outgoing T → Async (ClientStreamInner S) RpcIntErr Unit
  | .task t need_flush => send_request codec t need_flush
  | .ping => send_ping_req

/-- The requests one after the other, and a final flush. -/
def send_all (codec : C) : List (Outgoing T) → Async (ClientStreamInner S) RpcIntErr Unit
  | [] => flush_req
  | i :: is => do
    send codec i
    send_all codec is

variable {Room : S → Nat → Prop} {out : S → Bytes}

theorem write_req_conn (h : Accepts S Room out) {c : ClientStreamInner S} {k : Nat} (buf : Bytes)
    (blob : Option Bytes) (need_flush : Bool)
    (hc : c.conn.stream.Room Room (buf.length + ((blob.getD []).length + k))) :
    ∃ s', ((TcpClient.write_req buf blob need_flush).mapErr fun _ => RpcIntErr.Io).zoom conn withConn c =
        (.ready (.ok ()), c.withConn (c.conn.withStream s')) ∧
      s'.out out = c.conn.stream.out out ++ (buf ++ blob.getD []) ∧ s'.Room Room k := by
  obtain ⟨s', hr, hs'⟩ := TcpClient.write_req_ok h buf blob need_flush hc
  exact ⟨s', by simp only [Async.zoom, Async.mapErr_ok hr], hs'⟩

/-- Sending puts exactly the request's bytes behind what was written before. -/
theorem send_ok (h : Accepts S Room out) (codec : C) {i : Outgoing T} {c : ClientStreamInner S}
    {k : Nat} (hi : i.Sendable codec c.seq)
    (hc : c.conn.stream.Room Room ((i.wire codec c.client_id c.seq).length + k)) :
    ∃ c', send codec i c = (.ready (.ok ()), c') ∧ c'.client_id = c.client_id ∧ c'.seq = c.seq + 1 ∧
      c'.conn.stream.out out = c.conn.stream.out out ++ i.wire codec c.client_id c.seq ∧
      c'.conn.stream.Room Room k := by
  cases i with
  | ping =>
    have hdata := ReqHead.data_encode_ping c.encode_buf c.client_id c.seq
    rw [send, send_ping_req]
    simp only [bind, Async.bind, seq_update, hdata]
    obtain ⟨s', hr, hout, hroom⟩ := write_req_conn h
      (c := { c with seq := c.seq + 1, encode_buf := ReqHead.encode_ping c.encode_buf c.client_id c.seq })
      (Outgoing.wire codec c.client_id c.seq (.ping : Outgoing T)) none true
      (by simpa only [Option.getD_none, List.length_nil, Nat.zero_add] using hc)
    rw [Option.getD_none, List.append_nil] at hout
    exact ⟨_, hr, rfl, rfl, hout, hroom⟩
  | task t need_flush =>
    obtain ⟨-, hlen, hm, hb⟩ := hi
    obtain ⟨buf', henc⟩ := ReqHead.encode_of_fits c.encode_buf c.client_id hlen hm hb
    obtain ⟨msg_len, hlen', -, -, -, hdata⟩ := ReqHead.encode_ok henc
    cases hlen.symm.trans hlen'
    rw [ClientTaskCommon.seq_set_seq] at hdata
    have hwire : (Outgoing.task t need_flush).wire codec c.client_id c.seq =
        buf'.data ++ (ClientTask.get_req_blob C (ClientTaskCommon.set_seq t c.seq)).getD [] := by
      rw [hdata]
      simp only [Outgoing.wire, List.append_assoc]
    rw [hwire] at hc ⊢
    rw [send, send_request]
    simp only [bind, Async.bind, seq_update, henc]
    obtain ⟨s', hr, hout, hroom⟩ :=
      write_req_conn h (c := { c with seq := c.seq + 1, encode_buf := buf' })
      buf'.data (ClientTask.get_req_blob C (ClientTaskCommon.set_seq t c.seq)) need_flush
      (by simpa only [List.length_append, Nat.add_assoc] using hc)
    exact ⟨_, hr, rfl, rfl, hout, hroom⟩

/-- After the final flush the socket has all the requests' bytes. -/
theorem send_all_ok (h : Accepts S Room out) (codec : C) (is : List (Outgoing T))
    {c : ClientStreamInner S} (his : ∀ i ∈ is, ∀ seq, i.Sendable codec seq)
    (hc : c.conn.stream.Room Room (Outgoing.wireAll codec c.client_id c.seq is).length) :
    ∃ c', send_all codec is c = (.ready (.ok ()), c') ∧
      out c'.conn.stream.inner =
      c.conn.stream.out out ++ Outgoing.wireAll codec c.client_id c.seq is := by
  induction is generalizing c with
  | nil =>
    obtain ⟨s', hr, hinner, -, -⟩ := TcpClient.flush_req_ok h hc
    refine ⟨c.withConn (c.conn.withStream s'), ?_, ?_⟩
    · simp only [send_all, flush_req, Async.zoom, Async.mapErr_ok hr]
    · rw [Outgoing.wireAll, List.append_nil]
      exact hinner
  | cons i is ih =>
    simp only [Outgoing.wireAll, List.length_append] at hc ⊢
    obtain ⟨c1, hr1, hid, hseq, hout, hroom⟩ := send_ok h codec (his i (by simp) c.seq) hc
    rw [← hid, ← hseq] at hroom
    obtain ⟨c2, hr2, hout2⟩ := ih (fun j hj => his j (by simp [hj])) hroom
    refine ⟨c2, ?_, ?_⟩
    · rw [send_all, Async.bind_ok hr1, hr2]
    · rw [hout2, hout, hid, hseq, List.append_assoc]

end ClientStreamInner

/-! ## What the server reads -/

namespace TcpServer

variable {S : Type} [AsyncRead S] {Live : S → Prop} {avail : S → Bytes}

theorem read_header_ok (h : Delivers S Live avail) {srv : TcpServer S} (hl : srv.stream.Live Live)
    {head rest : Bytes} (hlen : head.length = RPC_REQ_HEADER_LEN)
    (hav : srv.stream.avail avail = head ++ rest) :
    ∃ s', read_header srv = (.ready (.ok head), srv.withStream s') ∧ s'.avail avail = rest ∧
      s'.Live Live := by
  obtain ⟨s', hr, hs'⟩ := (AsyncBufStream.delivers h).read_exact_append hl hav
  rw [hlen] at hr
  exact ⟨s', by simp only [read_header, hr], hs'⟩

theorem read_body_ok (h : Delivers S Live avail) {srv : TcpServer S} (hl : srv.stream.Live Live)
    {body rest : Bytes} (hav : srv.stream.avail avail = body ++ rest) :
    ∃ s', read_body body.length srv = (.ready (.ok body), srv.withStream s') ∧
      s'.avail avail = rest ∧
      s'.Live Live := by
  obtain ⟨s', hr, hs'⟩ := (AsyncBufStream.delivers h).read_exact_append hl hav
  exact ⟨s', by simp only [read_body, Async.zoom, Async.mapErr_ok (io_with_timeout_ok hr)], hs'⟩

theorem read_action_ok (h : Delivers S Live avail) {srv : TcpServer S} (hl : srv.stream.Live Live)
    {hd : ReqHead} {action : RpcAction} (hfit : action.Fits)
    (hd_action : hd.action = (ReqHead.action_flag action).1) {rest : Bytes}
    (hav : srv.stream.avail avail = (ReqHead.action_flag action).2 ++ rest) :
    ∃ s', read_action hd srv = (.ready (.ok action), srv.withStream s') ∧ s'.avail avail = rest ∧
      s'.Live Live := by
  cases action with
  | Num n =>
    refine ⟨srv.stream, ?_, by simpa [ReqHead.action_flag] using hav, hl⟩
    simp only [read_action, ReqHead.get_action_num hfit hd_action]
    rfl
  | Str str =>
    obtain ⟨s', hr, hs'⟩ := read_body_ok h hl (show _ = strBytes str ++ rest from hav)
    refine ⟨s', ?_, hs'⟩
    simp only [read_action, ReqHead.get_action_len hfit hd_action, as_usize_ofNat hfit]
    rw [Async.bind_ok hr, fromUtf8_strBytes]
    rfl

theorem read_msg_ok (h : Delivers S Live avail) {srv : TcpServer S} (hl : srv.stream.Live Live)
    {hd : ReqHead} {msg rest : Bytes} (hlen : msg.length ≤ u32_MAX)
    (hd_len : hd.msg_len = .ofNat msg.length) (hav : srv.stream.avail avail = msg ++ rest) :
    ∃ s', read_msg hd srv = (.ready (.ok msg), srv.withStream s') ∧ s'.avail avail = rest ∧
      s'.Live Live := by
  have hnat : hd.msg_len.toNat = msg.length := by rw [hd_len, toNat_ofNat_u32 hlen]
  by_cases hpos : hd.msg_len > 0
  · obtain ⟨s', hr, hs'⟩ := read_body_ok h hl hav
    exact ⟨s', by rw [read_msg, if_pos hpos, hnat, hr], hs'⟩
  · have hnil : msg = [] := by
      apply List.eq_nil_of_length_eq_zero
      rw [gt_iff_lt, UInt32.lt_iff_toNat_lt, UInt32.toNat_zero] at hpos
      omega
    subst hnil
    exact ⟨srv.stream, by rw [read_msg, if_neg hpos]; rfl, hav, hl⟩

theorem read_blob_ok (h : Delivers S Live avail) {srv : TcpServer S} (hl : srv.stream.Live Live)
    (halloc : srv.alloc.Fits) {hd : ReqHead} {blob : Option Bytes} {rest : Bytes}
    (hlen : (blob.getD []).length ≤ i32_MAX)
    (hd_len : hd.blob_len = (Int32.ofNat (blob.getD []).length).toUInt32)
    (hav : srv.stream.avail avail = blob.getD [] ++ rest) :
    ∃ s', read_blob hd srv = (.ready (.ok (blob.filter fun b => b ≠ [])), srv.withStream s') ∧
      s'.avail avail = rest ∧ s'.Live Live := by
  have hnum : hd.blob_len.toInt32 = Int32.ofNat (blob.getD []).length := by
    rw [hd_len, Int32.toInt32_toUInt32]
  have hint := toInt_ofNat_i32.2 hlen
  by_cases hpos : Int32.ofNat (blob.getD []).length > 0
  · obtain ⟨s', hr, hs'⟩ := read_body_ok h hl hav
    refine ⟨s', ?_, hs'⟩
    have hne : blob.getD [] ≠ [] := by
      intro h0
      rw [h0] at hpos
      exact absurd hpos (by decide)
    obtain ⟨b, rfl⟩ : ∃ b, blob = some b := by
      cases blob with
      | none => exact absurd rfl hne
      | some b => exact ⟨b, rfl⟩
    have hb : (some b).filter (fun b => b ≠ []) = some b := by simpa using hne
    simp only [read_blob, hnum, if_pos hpos, halloc _ hpos, read_ext_buf, as_usize_ofNat hlen, hb]
    rw [Async.bind_ok hr]
    rfl
  · have hnil : blob.getD [] = [] := by
      apply List.eq_nil_of_length_eq_zero
      rw [gt_iff_lt, Int32.lt_iff_toInt_lt, hint, Int32.toInt_zero] at hpos
      omega
    refine ⟨srv.stream, ?_, by rw [hnil] at hav; exact hav, hl⟩
    have hfilter : (blob.filter fun b => b ≠ []) = none := by
      cases blob with
      | none => rfl
      | some b => simp_all
    simp only [read_blob, hnum, if_neg hpos, hfilter]
    rfl

/-- `read_req`, `n` times. -/
def read_reqs : Nat → Async (TcpServer S) RpcIntErr (List RpcSvrReq)
  | 0 => pure []
  | n + 1 => do
    let req ← read_req
    let reqs ← read_reqs n
    pure (req :: reqs)

/-- A header and the three parts it announces are read as one request. -/
theorem read_req_frame (h : Delivers S Live avail) {srv : TcpServer S} (hl : srv.stream.Live Live)
    (halloc : srv.alloc.Fits) {hd : ReqHead} (hd_ok : ReqHead.decode_head hd.as_bytes = .ok hd)
    {action : RpcAction} (hfit : action.Fits)
    (hd_action : hd.action = (ReqHead.action_flag action).1) {msg : Bytes}
    (hm : msg.length ≤ u32_MAX) (hd_msg : hd.msg_len = .ofNat msg.length) {blob : Option Bytes}
    (hb : (blob.getD []).length ≤ i32_MAX)
    (hd_blob : hd.blob_len = (Int32.ofNat (blob.getD []).length).toUInt32) {rest : Bytes}
    (hav : srv.stream.avail avail =
      hd.as_bytes ++ ((ReqHead.action_flag action).2 ++ (msg ++ (blob.getD [] ++ rest)))) :
    ∃ s', read_req srv = (.ready (.ok ⟨hd.seq, action, msg, blob.filter fun b => b ≠ []⟩),
      srv.withStream s') ∧
      s'.avail avail = rest ∧ s'.Live Live := by
  obtain ⟨s1, hr1, hav1, hl1⟩ := read_header_ok h hl (by simp) hav
  let srv1 := srv.withStream s1
  obtain ⟨s2, hr2, hav2, hl2⟩ :=
    read_action_ok h (show srv1.stream.Live Live from hl1) hfit hd_action hav1
  let srv2 := srv1.withStream s2
  obtain ⟨s3, hr3, hav3, hl3⟩ := read_msg_ok h (show srv2.stream.Live Live from hl2) hm hd_msg hav2
  let srv3 := srv2.withStream s3
  obtain ⟨s4, hr4, hav4, hl4⟩ :=
    read_blob_ok h (show srv3.stream.Live Live from hl3) halloc hb hd_blob hav3
  refine ⟨s4, ?_, hav4, hl4⟩
  rw [read_req, Async.bind_ok hr1]
  simp only [hd_ok]
  rw [Async.bind_ok hr2, Async.bind_ok hr3, Async.bind_ok hr4]
  rfl

theorem read_req_ok (h : Delivers S Live avail) {srv : TcpServer S} (hl : srv.stream.Live Live)
    (halloc : srv.alloc.Fits) {codec : C} {client_id seq : UInt64} {i : Outgoing T}
    (hi : i.Sendable codec seq) {rest : Bytes}
    (hav : srv.stream.avail avail = i.wire codec client_id seq ++ rest) :
    ∃ s', read_req srv = (.ready (.ok (i.received codec seq)), srv.withStream s') ∧
      s'.avail avail = rest ∧
      s'.Live Live := by
  cases i with
  | ping =>
    have hfit : (RpcAction.Num 0).Fits := by unfold RpcAction.Fits; decide
    exact read_req_frame h hl halloc (ReqHead.decode_head_filled ..) hfit rfl
      (show ([] : Bytes).length ≤ _ from Nat.zero_le _) rfl
      (show ((none : Option Bytes).getD []).length ≤ _ from Nat.zero_le _) rfl hav
  | task t need_flush =>
    obtain ⟨hfit, -, hm, hb⟩ := hi
    simp only [Outgoing.wire, List.append_assoc] at hav
    exact read_req_frame h hl halloc (ReqHead.decode_head_filled ..) hfit rfl hm rfl hb rfl hav

theorem read_reqs_ok (h : Delivers S Live avail) (codec : C) (client_id : UInt64)
    (is : List (Outgoing T)) (seq : UInt64) (his : ∀ i ∈ is, ∀ seq, i.Sendable codec seq)
    {srv : TcpServer S} (hl : srv.stream.Live Live) (halloc : srv.alloc.Fits)
    (hav : srv.stream.avail avail = Outgoing.wireAll codec client_id seq is) :
    ∃ s', read_reqs is.length srv = (.ready (.ok (Outgoing.receivedAll codec seq is)), srv.withStream s') ∧
      s'.avail avail = [] := by
  induction is generalizing seq srv with
  | nil => exact ⟨srv.stream, rfl, hav⟩
  | cons i is ih =>
    obtain ⟨s1, hr1, hav1, hl1⟩ := read_req_ok h hl halloc (his i (by simp) seq) hav
    let srv1 := srv.withStream s1
    obtain ⟨s2, hr2, hav2⟩ := ih (seq + 1) (fun j hj => his j (by simp [hj]))
      (show srv1.stream.Live Live from hl1) halloc hav1
    refine ⟨s2, ?_, hav2⟩
    rw [List.length_cons, read_reqs, Async.bind_ok hr1, Async.bind_ok hr2]
    rfl

end TcpServer

/-! ## End to end -/

/-- The server reads exactly the list of requests and pings the client sent, and
no byte is left, whatever the encode buffer held before, however large the two
stream buffers are and however the sockets split what is written and read. -/
theorem read_reqs_of_send_all (codec : C) (is : List (Outgoing T))
    (his : ∀ i ∈ is, ∀ seq, i.Sendable codec seq) (c : ClientStreamInner Sock) (out_sock : Sock)
    (n : Nat) (hn : 0 < n) (hc : c.conn.stream = .new out_sock n) (hsent : out_sock.sent = [])
    (hroom : out_sock.Room (Outgoing.wireAll codec c.client_id c.seq is).length) :
    ∃ c', ClientStreamInner.send_all codec is c = (.ready (.ok ()), c') ∧
      ∀ (srv : TcpServer Sock) (in_sock : Sock) (m : Nat), 0 < m → srv.stream = .new in_sock m →
        in_sock.inbound = c'.conn.stream.inner.sent → in_sock.Live → srv.alloc.Fits →
        ∃ s', TcpServer.read_reqs is.length srv =
        (.ready (.ok (Outgoing.receivedAll codec c.seq is)), srv.withStream s') ∧
          s'.avail Sock.inbound = [] := by
  have hroom' :
      c.conn.stream.Room Sock.Room (Outgoing.wireAll codec c.client_id c.seq is).length := by
    rw [hc]
    exact ⟨AsyncBufWrite.new_wf hn, by simpa [AsyncBufStream.new, AsyncBufWrite.new] using hroom⟩
  obtain ⟨c', hr, hout⟩ := ClientStreamInner.send_all_ok Sock.accepts codec is his hroom'
  have hsent' : c'.conn.stream.inner.sent = Outgoing.wireAll codec c.client_id c.seq is := by
    rw [hout, hc]
    simp [AsyncBufStream.out, AsyncBufStream.new, AsyncBufWrite.new, AsyncBufWrite.held, hsent]
  refine ⟨c', hr, ?_⟩
  intro srv in_sock m hm hsrv hin hlive halloc
  have hl : srv.stream.Live Sock.Live := by
    rw [hsrv]
    exact ⟨AsyncBufRead.new_wf hm, hlive⟩
  refine TcpServer.read_reqs_ok Sock.delivers codec c.client_id is c.seq his hl halloc ?_
  rw [← hsent', ← hin, hsrv]
  simp [AsyncBufStream.avail, AsyncBufStream.new, AsyncBufRead.new, AsyncBufRead.held]

end

abbrev SampleTask := DerivedTask (UInt8 × Option UInt8) (UInt8 × Option UInt8) String

/-- A call with a text action and a blob, as a derived task. -/
def sampleTask : DerivedTask (UInt8 × Option UInt8) (UInt8 × Option UInt8) String where
  seq := 0
  action := .Str "T.m"
  req := (7, some 9)
  req_blob := some [1, 2]
  resp := none
  has_resp_blob := true
  resp_blob := none
  res := none

def sampleSock (inbound : Bytes) : Sock :=
  ⟨List.replicate 80 (.chunk 3), inbound, .fail .Interrupted :: List.replicate 80 (.accept 5), []⟩

def sampleClient : ClientStreamInner Sock where
  client_id := 42
  conn := ⟨.new (sampleSock []) 8, [], [], 0, 0⟩
  seq := 1
  encode_buf := .with_capacity (List.replicate 40 0xff) (by decide)

/-- A task and a ping, over small buffers and small chunks. -/
theorem read_reqs_of_task_and_ping :
    ∃ c', ClientStreamInner.send_all () [.task sampleTask false, .ping] sampleClient =
      (.ready (.ok ()), c') ∧
      ∃ srv', TcpServer.read_reqs 2 ⟨.new (sampleSock c'.conn.stream.inner.sent) 5, 0,
        fun n => some (as_usize n)⟩ =
        (.ready (.ok [⟨1, .Str "T.m", [0x92, 7, 9], some [1, 2]⟩, ⟨2, .Num 0, [], none⟩]), srv') := by
  have hsend : ∀ i ∈ [Outgoing.task sampleTask false, .ping], ∀ seq, i.Sendable () seq := by
    simp only [List.forall_mem_cons]
    refine ⟨fun seq => ⟨?_, rfl, ?_, ?_⟩, fun seq => trivial, by simp⟩
    · show (strBytes "T.m").length ≤ i32_MAX
      decide
    · show ([0x92, 7, 9] : Bytes).length ≤ u32_MAX
      decide
    · show ([1, 2] : Bytes).length ≤ i32_MAX
      decide
  have hroom : (sampleSock []).Room
      (Outgoing.wireAll () sampleClient.client_id sampleClient.seq [.task sampleTask false,
        .ping]).length := by
    refine ⟨by simp [sampleSock], ?_⟩
    decide +kernel
  obtain ⟨c', hr, hread⟩ :=
    read_reqs_of_send_all () [.task sampleTask false, .ping] hsend sampleClient (sampleSock []) 8
    (by decide) rfl rfl hroom
  have hlen : c'.conn.stream.inner.sent.length ≤ 80 := by
    have hc' : c' =
        (ClientStreamInner.send_all () [.task sampleTask false, .ping] sampleClient).2 := by rw [hr]
    rw [hc']
    decide +kernel
  obtain ⟨s', hs', -⟩ := hread ⟨.new (sampleSock c'.conn.stream.inner.sent) 5, 0,
    fun n => some (as_usize n)⟩ _ 5 (by decide) rfl rfl
    ⟨by simp [sampleSock], by simpa [sampleSock] using hlen⟩ (fun _ _ => rfl)
  exact ⟨c', hr, _, hs'⟩

end OccamsRpc
