import OccamsRpc.Core.Extent
import OccamsRpc.Tcp.Request
/-!
# How much of the stream a request takes

The header says how long the three parts of a request are. One field of it stands
for a number or for the length of a text, told apart by the highest bit; the length
of the blob is written from an `i32`, kept as a `u32` and read as an `i32` again.
-/

namespace OccamsRpc

/-! ## The length of the action -/

namespace ReqHead

/-- The length of the action's text: the lower 31 bits of the field, if its highest
bit is set. -/
def action_len (h : ReqHead) : Nat := if h.action.toNat < 2 ^ 31 then 0 else h.action.toNat - 2 ^ 31

theorem eq_or_high_mask {x : UInt32} (h : 2 ^ 31 ≤ x.toNat) :
    x = UInt32.ofNat (x.toNat - 2 ^ 31) ||| U32_HIGH_MASK := by
  have hlt := x.toNat_lt
  have hsmall : x.toNat - 2 ^ 31 < 2 ^ 31 := by omega
  have hor := Nat.two_pow_add_eq_or_of_lt hsmall 1
  rw [Nat.mul_one] at hor
  apply UInt32.toNat.inj
  rw [UInt32.toNat_or, toNat_ofNat_u32 (by unfold u32_MAX; omega), show U32_HIGH_MASK.toNat =
    2 ^ 31 by decide, Nat.or_comm, ← hor]
  omega

/-- The field is a number, or the length of a text behind a set bit. -/
theorem get_action_cases (h : ReqHead) :
    (h.action.toNat < 2 ^ 31 ∧ h.get_action = .ok h.action.toInt32) ∨
    (2 ^ 31 ≤ h.action.toNat ∧ h.get_action = .error (Int32.ofNat (h.action.toNat - 2 ^ 31))) := by
  have hlt := h.action.toNat_lt
  by_cases hn : h.action.toNat < 2 ^ 31
  · exact .inl ⟨hn, by rw [get_action, if_pos (and_high_mask hn)]⟩
  · exact .inr ⟨Nat.le_of_not_lt hn,
      get_action_len (by unfold i32_MAX; omega) (eq_or_high_mask (Nat.le_of_not_lt hn))⟩

end ReqHead

/-! ## What `read_req` takes -/

/-- `Buffer::alloc` gives, if anything, a buffer of the length asked for. -/
def BufferAlloc.Exact (alloc : BufferAlloc) : Prop :=
  ∀ n > 0, ∀ len, alloc n = some len → len = as_usize n

namespace TcpServer

variable {S : Type} {avail : S → Bytes}

/-- What the server has not read yet. -/
def unread (avail : S → Bytes) (srv : TcpServer S) : Bytes := srv.stream.avail avail

theorem unread_feed (srv : TcpServer Sock) (bs : Bytes) (evs : List ReadEv) :
    (srv.feed bs evs).unread Sock.inbound = srv.unread Sock.inbound ++ bs :=
  srv.stream.avail_feed bs evs

/-- From `srv` to `srv'` the next `n` bytes were taken, and nothing else changed. -/
def Takes (avail : S → Bytes) (n : Nat) (srv srv' : TcpServer S) : Prop :=
  srv'.alloc = srv.alloc ∧ AsyncBufStream.Takes avail n srv.stream srv'.stream

theorem Takes.refl (srv : TcpServer S) : Takes avail 0 srv srv := ⟨rfl, .refl _⟩

theorem Takes.trans {srv srv' srv'' : TcpServer S} {n m : Nat} (h : Takes avail n srv srv')
    (h' : Takes avail m srv' srv'') : Takes avail (n + m) srv srv'' :=
  ⟨h'.1.trans h.1, h.2.trans h'.2⟩

variable [AsyncRead S]

theorem read_header_takes (h : Conserves S avail) {srv srv' : TcpServer S} {head : Bytes}
    (hr : read_header srv = (.ready (.ok head), srv')) :
    Takes avail RPC_REQ_HEADER_LEN srv srv' ∧
      head = (srv.unread avail).take RPC_REQ_HEADER_LEN := by
  rcases he : AsyncRead.read_exact RPC_REQ_HEADER_LEN srv.stream with ⟨(e | bs) | _, s'⟩ <;>
    simp only [read_header, he] at hr <;> cases hr
  obtain ⟨hlen, hav⟩ := (AsyncBufStream.conserves h).read_exact he
  refine ⟨⟨rfl, head, hlen, hav⟩, ?_⟩
  rw [unread, hav, ← hlen, List.take_left]

theorem read_body_takes (h : Conserves S avail) {srv srv' : TcpServer S} {len : Nat} {body : Bytes}
    (hr : read_body len srv = (.ready (.ok body), srv')) :
    Takes avail len srv srv' ∧ body.length = len := by
  simp only [read_body, Async.zoom, Prod.mk.injEq] at hr
  obtain ⟨hr, rfl⟩ := hr
  have he := io_with_timeout_eq_ok (Async.mapErr_eq_ok (Prod.ext hr rfl))
  obtain ⟨hlen, hav⟩ := (AsyncBufStream.conserves h).read_exact he
  exact ⟨⟨rfl, body, hlen, hav⟩, hlen⟩

theorem read_action_takes (h : Conserves S avail) {srv srv' : TcpServer S} {hd : ReqHead}
    {action : RpcAction} (hr : read_action hd srv = (.ready (.ok action), srv')) :
    Takes avail hd.action_len srv srv' := by
  rcases hd.get_action_cases with ⟨hn, hget⟩ | ⟨hn, hget⟩ <;> simp only [read_action, hget] at hr
  · cases hr
    rw [ReqHead.action_len, if_pos hn]
    exact .refl srv
  · have hlt := hd.action.toNat_lt
    obtain ⟨bs, srv₁, hbody, hr⟩ := Async.bind_eq_ok hr
    obtain ⟨ht, -⟩ := read_body_takes h hbody
    rw [as_usize_ofNat (by unfold i32_MAX; omega)] at ht
    rw [ReqHead.action_len, if_neg (Nat.not_lt.2 hn)]
    rcases hs : fromUtf8 bs with _ | s <;> simp only [hs] at hr <;> cases hr
    exact ht

theorem read_msg_takes (h : Conserves S avail) {srv srv' : TcpServer S} {hd : ReqHead} {msg : Bytes}
    (hr : read_msg hd srv = (.ready (.ok msg), srv')) : Takes avail hd.msg_len.toNat srv srv' := by
  by_cases hpos : hd.msg_len > 0
  · rw [read_msg, if_pos hpos] at hr
    exact (read_body_takes h hr).1
  · rw [read_msg, if_neg hpos] at hr
    cases hr
    have h0 : hd.msg_len.toNat = 0 := by
      rw [gt_iff_lt, UInt32.lt_iff_toNat_lt, UInt32.toNat_zero] at hpos
      omega
    rw [h0]
    exact .refl srv

/-- A blob is read if its length, as an `i32`, is positive. -/
theorem read_blob_takes (h : Conserves S avail) {srv srv' : TcpServer S} (halloc : srv.alloc.Exact)
    {hd : ReqHead} {blob : Option Bytes} (hr : read_blob hd srv = (.ready (.ok blob), srv')) :
    Takes avail (if hd.blob_len.toNat < 2 ^ 31 then hd.blob_len.toNat else 0) srv srv' := by
  have hint :
      hd.blob_len.toInt32.toInt = if hd.blob_len.toNat < 2 ^ 31 then (hd.blob_len.toNat : Int)
      else hd.blob_len.toNat - 2 ^ 32 := by
    have hlt := hd.blob_len.toNat_lt
    rw [← Int32.toInt_toBitVec, BitVec.toInt_eq_toNat_cond]
    show (if 2 * hd.blob_len.toNat < 2 ^ 32 then _ else _) = _
    split <;> split <;> first | rfl | omega
  by_cases hpos : hd.blob_len.toInt32 > 0
  · have hlt : hd.blob_len.toNat < 2 ^ 31 := by
      have := hd.blob_len.toNat_lt
      rw [gt_iff_lt, Int32.lt_iff_toInt_lt, hint, Int32.toInt_zero] at hpos
      split at hpos <;> omega
    rw [if_pos hlt] at hint ⊢
    rcases ha :
      srv.alloc hd.blob_len.toInt32 with _ | len <;> simp only [read_blob, if_pos hpos, ha] at hr
    · cases hr
    · obtain ⟨bs, srv₁, hbody, hr⟩ := Async.bind_eq_ok hr
      cases hr
      have hlen : len = hd.blob_len.toNat := by
        rw [halloc _ hpos len ha, as_usize, hint]
        omega
      exact hlen ▸ (read_body_takes h hbody).1
  · simp only [read_blob, if_neg hpos] at hr
    cases hr
    have h0 : (if hd.blob_len.toNat < 2 ^ 31 then hd.blob_len.toNat else 0) = 0 := by
      rw [gt_iff_lt, Int32.lt_iff_toInt_lt, hint, Int32.toInt_zero] at hpos
      split at hpos <;> split <;> omega
    rw [h0]
    exact .refl srv

/-- A request that was read took its header, its action, its message and, if the
blob's length is positive as an `i32`, its blob. -/
theorem read_req_takes (h : Conserves S avail) {srv srv' : TcpServer S} (halloc : srv.alloc.Exact)
    {hd : ReqHead}
    (hdec : ReqHead.decode_head ((srv.unread avail).take RPC_REQ_HEADER_LEN) = .ok hd)
    {req : RpcSvrReq} (hr : read_req srv = (.ready (.ok req), srv')) :
    Takes avail (RPC_REQ_HEADER_LEN + hd.action_len + hd.msg_len.toNat +
      if hd.blob_len.toNat < 2 ^ 31 then hd.blob_len.toNat else 0) srv srv' := by
  obtain ⟨head, srv₁, hr₁, hr⟩ := Async.bind_eq_ok hr
  obtain ⟨ht₁, rfl⟩ := read_header_takes h hr₁
  simp only [hdec] at hr
  obtain ⟨action, srv₂, hr₂, hr⟩ := Async.bind_eq_ok hr
  obtain ⟨msg, srv₃, hr₃, hr⟩ := Async.bind_eq_ok hr
  obtain ⟨blob, srv₄, hr₄, hr⟩ := Async.bind_eq_ok hr
  cases hr
  have ht := (ht₁.trans (read_action_takes h hr₂)).trans (read_msg_takes h hr₃)
  have halloc₃ : srv₃.alloc.Exact := by rwa [ht.1]
  exact ht.trans (read_blob_takes h halloc₃ hr₄)

/-- A request that was read took exactly the bytes its header announces if the
blob's length is below 2^31, and too few otherwise: the blob is left in the stream
for the next header. -/
theorem read_req_takes_announced_iff (h : Conserves S avail) (srv srv' : TcpServer S)
    (halloc : srv.alloc.Exact) {head rest : Bytes} (hlen : head.length = RPC_REQ_HEADER_LEN)
    (hav : srv.unread avail = head ++ rest) {hd : ReqHead}
    (hdec : ReqHead.decode_head head = .ok hd) {req : RpcSvrReq}
    (hr : read_req srv = (.ready (.ok req), srv')) :
    Takes avail (RPC_REQ_HEADER_LEN + hd.action_len + hd.msg_len.toNat + hd.blob_len.toNat) srv srv' ↔
      hd.blob_len.toNat < 2 ^ 31 := by
  have hhead : (srv.unread avail).take RPC_REQ_HEADER_LEN = head := by
    rw [hav, ← hlen, List.take_left]
  have ht := read_req_takes h halloc (hhead.symm ▸ hdec) hr
  constructor
  · intro ht'
    have heq := ht.2.unique ht'.2
    by_contra hn
    rw [if_neg hn] at heq
    omega
  · intro hn
    rwa [if_pos hn] at ht

end TcpServer

/-- A server at the start of these bytes. -/
def readerOf (inbound : Bytes) : TcpServer Sock :=
  ⟨.new (sampleSock inbound) 5, 0, fun n => some (as_usize n)⟩

def announcedBlob : Bytes := (ReqHead.filled 42 7 1 1 2).as_bytes ++ [5, 1, 2, 0xaa]

theorem TcpServer.read_req_takes_announced_blob :
    ∃ srv', TcpServer.read_req (readerOf announcedBlob) =
      (.ready (.ok ⟨1, .Num 7, [5], some [1, 2]⟩), srv') ∧
      TcpServer.Takes Sock.inbound (RPC_REQ_HEADER_LEN + 0 + 1 + 2) (readerOf announcedBlob) srv' := by
  obtain ⟨srv', hr⟩ : ∃ srv', TcpServer.read_req (readerOf announcedBlob) =
      (.ready (.ok ⟨1, .Num 7, [5], some [1, 2]⟩), srv') := ⟨_, rfl⟩
  have halloc : (readerOf announcedBlob).alloc.Exact := by
    rintro n - len ⟨⟩
    rfl
  have ht :=
    (TcpServer.read_req_takes_announced_iff Sock.conserves _ srv' halloc
    (ReqHead.length_as_bytes _) rfl
    (ReqHead.decode_head_filled 42 7 1 1 2) hr).2 (by decide)
  exact ⟨srv', hr, ht⟩

/-- A header that announces a blob of 2^31 bytes, and the first of them. -/
def forged : Bytes :=
  ({ ReqHead.filled 42 7 1 0 0 with blob_len := 0x80000000 } : ReqHead).as_bytes ++
    (ReqHead.filled 42 9 99 0 0).as_bytes

/-- The request is read without its blob, and the first bytes of the blob as the next
request. -/
theorem TcpServer.read_req_leaves_blob :
    ∃ srv', TcpServer.read_req (readerOf forged) = (.ready (.ok ⟨1, .Num 7, [], none⟩), srv') ∧
      (TcpServer.read_req srv').1 = .ready (.ok ⟨99, .Num 9, [], none⟩) ∧
      ¬ TcpServer.Takes Sock.inbound (RPC_REQ_HEADER_LEN + 0 + 0 + 2 ^ 31) (readerOf forged) srv' := by
  refine ⟨(TcpServer.read_req (readerOf forged)).2, rfl, rfl, ?_⟩
  rintro ⟨-, ht⟩
  have hlen := ht.length
  rw [show ((readerOf forged).stream.avail Sock.inbound).length = 64 by decide +kernel] at hlen
  omega

/-! ## Actions the header cannot carry -/

/-- Any other action sets the bit that marks a text, and no text of the length that
follows it is the action. -/
theorem ReqHead.action_flag_high {action : RpcAction} (h : ¬ action.Fits) :
    2 ^ 31 ≤ (action_flag action).1.toNat ∧
      ∀ s, action = .Str s → (action_flag action).1.toNat - 2 ^ 31 < (strBytes s).length := by
  cases action with
  | Num n =>
    refine ⟨?_, fun s hs => by cases hs⟩
    have hneg : n.toInt < 0 := by
      simpa [RpcAction.Fits, Int32.le_iff_toInt_le] using h
    rw [← Int32.toInt_toBitVec, BitVec.toInt_eq_toNat_cond] at hneg
    show 2 ^ 31 ≤ n.toBitVec.toNat
    split at hneg <;> omega
  | Str s =>
    have hlong : ¬ (strBytes s).length ≤ i32_MAX := h
    have hlt := (action_flag (.Str s)).1.toNat_lt
    refine ⟨?_, fun s' hs => ?_⟩
    · show 2 ^ 31 ≤ (UInt32.ofNat (strBytes s).length ||| U32_HIGH_MASK).toNat
      rw [UInt32.toNat_or]
      exact Nat.right_le_or
    · cases hs
      unfold i32_MAX at hlong
      omega

theorem TcpServer.fits_of_read_action {S : Type} [AsyncRead S] {avail : S → Bytes}
    (h : Conserves S avail) {srv srv' : TcpServer S} {hd : ReqHead} {action : RpcAction}
    (hd_action : hd.action = (ReqHead.action_flag action).1)
    (hr : read_action hd srv = (.ready (.ok action), srv')) : action.Fits := by
  by_contra hfit
  obtain ⟨hhigh, htext⟩ := ReqHead.action_flag_high hfit
  rw [← hd_action] at hhigh htext
  have hlt := hd.action.toNat_lt
  rcases hd.get_action_cases with ⟨hn, -⟩ | ⟨-, hget⟩
  · omega
  · simp only [read_action, hget] at hr
    obtain ⟨bs, srv₁, hbody, hr⟩ := Async.bind_eq_ok hr
    obtain ⟨-, hlen⟩ := read_body_takes h hbody
    rw [as_usize_ofNat (by unfold i32_MAX; omega)] at hlen
    rcases hs : fromUtf8 bs with _ | s <;> simp only [hs] at hr <;> cases hr
    have := htext s rfl
    rw [strBytes_of_fromUtf8 hs] at this
    omega

section
variable {C T : Type} [ClientTaskCommon T] [ClientTask C T]

/-- What `encode` produced is read as the task's action, message and blob if the
header can carry the action; otherwise it is read as something else, or not at all. -/
theorem TcpServer.read_req_of_encode_iff (codec : C) (task : T) (client_id : UInt64)
    {buf buf' : EncodeBuf RPC_REQ_HEADER_LEN} {blob : Option Bytes}
    (henc : ReqHead.encode codec buf client_id task = (buf', .ok blob))
    (hsize : ∀ n, (ClientTask.encode_req codec task).2 = some n →
      (ClientTask.encode_req codec task).1.length = n)
    (srv : TcpServer Sock) (hl : srv.stream.Live Sock.Live) (halloc : srv.alloc.Fits) (rest : Bytes)
    (hav : srv.unread Sock.inbound = buf'.data ++ (blob.getD [] ++ rest)) :
    (∃ req srv', read_req srv = (.ready (.ok req), srv') ∧ req.action = ClientTask.get_action C task ∧
      req.msg = (ClientTask.encode_req codec task).1 ∧ req.blob = blob.filter (fun b => b ≠ [])) ↔
    (ClientTask.get_action C task).Fits := by
  obtain ⟨msg_len, hmsg, hm, -, hb, hdata⟩ := ReqHead.encode_ok henc
  obtain rfl := hsize msg_len hmsg
  simp only [hdata, List.append_assoc] at hav
  constructor
  · rintro ⟨req, srv', hr, haction, -, -⟩
    obtain ⟨head, srv₁, hr₁, hr⟩ := Async.bind_eq_ok hr
    obtain ⟨-, hhead⟩ := read_header_takes Sock.conserves hr₁
    rw [hav, List.take_left' (ReqHead.length_as_bytes _)] at hhead
    simp only [hhead, ReqHead.decode_head_filled] at hr
    obtain ⟨action, srv₂, hr₂, hr⟩ := Async.bind_eq_ok hr
    obtain ⟨msg, srv₃, -, hr⟩ := Async.bind_eq_ok hr
    obtain ⟨blob', srv₄, -, hr⟩ := Async.bind_eq_ok hr
    cases hr
    obtain rfl : action = ClientTask.get_action C task := haction
    exact fits_of_read_action Sock.conserves rfl hr₂
  · intro hfit
    obtain ⟨s', hr, -⟩ := read_req_frame Sock.delivers hl halloc
      (ReqHead.decode_head_filled ..) hfit rfl hm rfl hb rfl hav
    exact ⟨_, _, hr, rfl, rfl, rfl⟩

end

def sampleReqBuf : EncodeBuf RPC_REQ_HEADER_LEN :=
  .with_capacity (List.replicate 40 0xff) (Nat.le_of_ble_eq_true rfl)

theorem TcpServer.read_req_of_encode_text :
    ∃ buf' blob req srv', ReqHead.encode () sampleReqBuf 42 sampleTask = (buf', .ok blob) ∧
      TcpServer.read_req (readerOf (buf'.data ++ (blob.getD [] ++ [0xaa]))) =
      (.ready (.ok req), srv') ∧
      req.action = .Str "T.m" := by
  obtain ⟨buf', henc⟩ :
      ∃ buf', ReqHead.encode () sampleReqBuf 42 sampleTask = (buf', .ok (some [1, 2])) := ⟨_, rfl⟩
  have hlen : (buf'.data ++ ((some [1, 2]).getD [] ++ [0xaa])).length ≤ 80 := by
    have hbuf : buf' = (ReqHead.encode () sampleReqBuf 42 sampleTask).1 := by rw [henc]
    rw [hbuf]
    decide +kernel
  have hfit : (ClientTask.get_action Unit sampleTask).Fits := by
    show (strBytes "T.m").length ≤ i32_MAX
    decide
  obtain ⟨req, srv', hr, haction, -, -⟩ := (TcpServer.read_req_of_encode_iff () sampleTask 42 henc
    (by rintro n ⟨⟩; rfl) (readerOf (buf'.data ++ ((some [1, 2]).getD [] ++ [0xaa])))
    ⟨AsyncBufRead.new_wf (by decide), by simp [readerOf, AsyncBufStream.new, sampleSock],
      by simpa [readerOf, AsyncBufStream.new, sampleSock] using hlen⟩ (fun _ _ => rfl) [0xaa] rfl).2 hfit
  exact ⟨buf', _, req, srv', henc, hr, haction⟩

/-- `i32::MIN` is encoded, and read as a text of length 0. -/
theorem TcpServer.read_req_misreads_number :
    ∃ buf' blob srv', ReqHead.encode () sampleReqBuf 42
      { sampleTask with action := .Num (-2147483648) } = (buf', .ok blob) ∧
      TcpServer.read_req (readerOf (buf'.data ++ blob.getD [])) =
        (.ready (.ok ⟨0, .Str "", [0x92, 7, 9], some [1, 2]⟩), srv') ∧
      RpcAction.Str "" ≠ .Num (-2147483648) :=
  ⟨_, _, _, rfl, rfl, by decide⟩

end OccamsRpc
