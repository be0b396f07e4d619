import OccamsRpc.Core.Extent
import OccamsRpc.Tcp.RespFidelity
/-!
# How much of the stream a response takes

A response is delivered to its task, delivered to a task that has no place for its
blob, or thrown away because nobody waits for it. Each of the three computes the
length of the body anew: as a `u32` and an `i32`, as a `usize`, and as the `u32` sum
that `Buffer::alloc` then takes as an `i32`, which it asserts to be positive. What a
server does not write can also make the client panic.
-/

namespace OccamsRpc

/-! ## Headers that make the client panic -/

theorem as_usize_of_nonneg {x : Int32} (h : 0 ≤ x) :
    (as_usize x : Int) = x.toInt ∧ as_usize x ≤ i32_MAX := by
  have hpos : 0 ≤ x.toInt := by simpa [Int32.le_iff_toInt_le] using h
  have hlt := x.toInt_lt
  unfold as_usize i32_MAX
  omega

theorem as_usize_of_neg {x : Int32} (h : ¬ 0 ≤ x) : isize_MAX < as_usize x := by
  have hneg : ¬ 0 ≤ x.toInt := by simpa [Int32.le_iff_toInt_le] using h
  have hle := x.le_toInt
  unfold as_usize isize_MAX
  omega

/-- A length that fits a `u32` is positive as an `i32` exactly if it fits that too. -/
theorem ofNat_pos_iff {len : Nat} (hpos : 0 < len) (hlen : len ≤ u32_MAX) :
    Int32.ofNat len > 0 ↔ len ≤ i32_MAX := by
  rw [gt_iff_lt, Int32.lt_iff_toInt_lt, Int32.toInt_zero, Int32.toInt_ofNat', Int.bmod,
    show Int32.size = 4294967296 from rfl]
  unfold u32_MAX at hlen
  unfold i32_MAX
  split <;> omega

namespace Receiver

variable {S T C : Type} [AsyncRead S] [ClientTaskCommon T] [ClientTask C T]

omit [ClientTaskCommon T] in
/-- Throwing bytes away ends in a panic when `Buffer::alloc` is asked for a size that is
not positive. -/
theorem recv_and_dump_crashes_iff {len : Nat} (hpos : 0 < len) (hlen : len ≤ u32_MAX)
    (r : Receiver S T) :
    (_recv_and_dump len r).1 = .ready (.error .panicked) ↔ ¬ len ≤ i32_MAX := by
  rw [← ofNat_pos_iff hpos hlen, ← r.alloc.alloc_panicked_iff]
  cases ha : r.alloc.alloc (Int32.ofNat len) with
  | panicked => simp [_recv_and_dump, ha]
  | err => simp [_recv_and_dump, ha]
  | buf n => rcases hr : read_exact n r with ⟨(e | bs) | _, r₁⟩ <;> simp [_recv_and_dump, ha, hr]

end Receiver

/-- The length `encode_resp` returned is what it appended, and before an error it
appended nothing. -/
def EncodedResp.Reports (r : EncodedResp) : Prop :=
  match r.outcome with
  | .ok (msg_len, _) => r.appended.length = msg_len
  | .error _ => r.appended = []

/-- The lengths the client computes from the header are those of the body: of a
response that is thrown away both parts together fit an `i32`, of an error the text
does. -/
def EncodedResp.Takeable (r : EncodedResp) (known : Bool) : Prop :=
  match r.outcome with
  | .ok (msg_len, blob) => known = false → msg_len + (blob.getD []).length ≤ i32_MAX
  | .error e => (e.text.getD []).length ≤ i32_MAX

/-- There is always memory. -/
def BufferAlloc.plenty : BufferAlloc := fun n => some (as_usize n)

theorem BufferAlloc.plenty_fits : BufferAlloc.plenty.Fits := fun _ _ => rfl

namespace Receiver

section
variable {S T : Type} [AsyncRead S] {Live : S → Prop} {avail : S → Bytes}

/-- The bytes of a response nobody waits for are read, when `Buffer::alloc` can be
asked for them. -/
theorem recv_and_dump_ok (h : Delivers S Live avail) {r : Receiver S T}
    (hl : r.client.stream.Live Live) (halloc : r.alloc.Fits) {body rest : Bytes} (hpos : body ≠ [])
    (hlen : body.length ≤ i32_MAX) (hav : r.client.stream.avail avail = body ++ rest) :
    ∃ s', _recv_and_dump body.length r = (.ready (.ok ()), r.withStream s') ∧
      s'.avail avail = rest := by
  obtain ⟨s', hr, hav', -⟩ := read_exact_ok h hl hav
  have hn := (ofNat_length_pos hlen).2 hpos
  exact ⟨s', by simp only [_recv_and_dump, halloc.alloc hn, as_usize_ofNat hlen, hr], hav'⟩

theorem read_exact_conserves (h : Conserves S avail) {r r' : Receiver S T} {len : Nat} {bs : Bytes}
    (hr : read_exact len r = (.ready (.ok bs), r')) :
    bs.length = len ∧ r.client.stream.avail avail = bs ++ r'.client.stream.avail avail := by
  simp only [read_exact, Async.zoom, Prod.mk.injEq] at hr
  obtain ⟨hr, rfl⟩ := hr
  exact (AsyncBufStream.conserves h).read_exact (io_with_timeout_eq_ok (Prod.ext hr rfl))

theorem recv_exact_takes (h : Conserves S avail) {r r' : Receiver S T} {len : Nat} {bs : Bytes}
    (hr : read_exact len r = (.ready (.ok bs), r')) :
    AsyncBufStream.Takes avail len r.client.stream r'.client.stream :=
  ⟨bs, read_exact_conserves h hr⟩

/-- What was thrown away was all there, and fits an `i32`. -/
theorem recv_and_dump_takes (h : Conserves S avail) {r r' : Receiver S T}
    (halloc : r.alloc = .plenty) {len : Nat} (hpos : 0 < len) (hlen : len ≤ u32_MAX)
    (hr : _recv_and_dump len r = (.ready (.ok ()), r')) :
    len ≤ i32_MAX ∧ AsyncBufStream.Takes avail len r.client.stream r'.client.stream := by
  have hle : len ≤ i32_MAX := by
    refine Classical.not_not.1 fun hlt => ?_
    rw [← recv_and_dump_crashes_iff hpos hlen r, hr] at hlt
    cases hlt
  have ha : r.alloc.alloc (Int32.ofNat len) = .buf len := by
    rw [halloc, BufferAlloc.plenty_fits.alloc ((ofNat_pos_iff hpos hlen).2 hle), as_usize_ofNat hle]
  rcases he : read_exact len r with ⟨(e | bs) | _, r₁⟩ <;>
    simp only [_recv_and_dump, ha, he] at hr <;> cases hr
  exact ⟨hle, recv_exact_takes h he⟩

theorem recv_unknown_takes (h : Conserves S avail) {r r' : Receiver S T}
    (halloc : r.alloc = .plenty) {hd : RespHead} {len : Nat}
    (hlen : hd.flag = 0 ∧ len = hd.msg_len.toNat + hd.blob_len.toUInt32.toNat ∨
      hd.flag = RESP_FLAG_HAS_ERR_STRING ∧ len = hd.blob_len.toUInt32.toNat)
    (hr : recv_unknown hd r = (.ready (.ok ()), r')) :
    len ≤ i32_MAX ∧ AsyncBufStream.Takes avail len r.client.stream r'.client.stream := by
  have hdump :
      ∀ hle : len ≤ u32_MAX, (if len > 0 then _recv_and_dump len else pure () : Async _ _ _) r =
      (.ready (.ok ()), r') → len ≤ i32_MAX ∧
        AsyncBufStream.Takes avail len r.client.stream r'.client.stream := by
    intro hle hr
    by_cases hpos : len > 0
    · rw [if_pos hpos] at hr
      exact recv_and_dump_takes h halloc hpos hle hr
    · rw [if_neg hpos] at hr
      cases hr
      obtain rfl : len = 0 := Nat.eq_zero_of_not_pos hpos
      exact ⟨Nat.zero_le _, .refl _⟩
  rcases hlen with ⟨hflag, hlen⟩ | ⟨hflag, hlen⟩
  · simp only [recv_unknown, if_pos hflag, ← hlen] at hr
    by_cases hover : len > u32_MAX
    · rw [if_pos hover] at hr
      cases hr
    · rw [if_neg hover] at hr
      exact hdump (Nat.le_of_not_lt hover) hr
  · have hne : hd.flag ≠ 0 := by
      rw [hflag]
      decide
    simp only [recv_unknown, if_neg hne, if_pos hflag, ← hlen] at hr
    have hlt := hd.blob_len.toUInt32.toNat_lt
    exact hdump (by unfold u32_MAX; omega) hr

theorem recv_unknown_ok (h : Delivers S Live avail) {r : Receiver S T}
    (hl : r.client.stream.Live Live) (halloc : r.alloc.Fits) {hd : RespHead} {body rest : Bytes}
    (hle : body.length ≤ i32_MAX)
    (hlen : hd.flag = 0 ∧ body.length = hd.msg_len.toNat + hd.blob_len.toUInt32.toNat ∨
      hd.flag = RESP_FLAG_HAS_ERR_STRING ∧ body.length = hd.blob_len.toUInt32.toNat ∨
      hd.flag = RESP_FLAG_HAS_ERRNO ∧ body = [])
    (hav : r.client.stream.avail avail = body ++ rest) :
    ∃ r', recv_unknown hd r = (.ready (.ok ()), r') ∧ r'.client.stream.avail avail = rest := by
  have hdump :
      ∃ r', (if body.length > 0 then _recv_and_dump body.length else pure () : Async _
        (Fault IoErr) _) r =
      (.ready (.ok ()), r') ∧ r'.client.stream.avail avail = rest := by
    by_cases hpos : body.length > 0
    · rw [if_pos hpos]
      obtain ⟨s', hr, hav'⟩ := recv_and_dump_ok h hl halloc (List.ne_nil_of_length_pos hpos) hle hav
      exact ⟨_, hr, hav'⟩
    · rw [if_neg hpos]
      obtain rfl : body = [] := List.eq_nil_of_length_eq_zero (Nat.eq_zero_of_not_pos hpos)
      exact ⟨r, rfl, hav⟩
  rcases hlen with ⟨hflag, hlen⟩ | ⟨hflag, hlen⟩ | ⟨hflag, rfl⟩
  · have hover : ¬ body.length > u32_MAX := by
      unfold i32_MAX at hle
      unfold u32_MAX
      omega
    simpa only [recv_unknown, if_pos hflag, ← hlen, if_neg hover] using hdump
  · have hne : hd.flag ≠ 0 := by
      rw [hflag]
      decide
    simpa only [recv_unknown, if_neg hne, if_pos hflag, ← hlen] using hdump
  · have hne : hd.flag ≠ 0 ∧ hd.flag ≠ RESP_FLAG_HAS_ERR_STRING := by
      rw [hflag]
      decide
    rw [recv_unknown, if_neg hne.1, if_neg hne.2]
    exact ⟨r, rfl, hav⟩

variable {C : Type} [ClientTaskCommon T] [ClientTask C T]

/-- An error text that was read has the length the header gives, which fits an `i32`. -/
theorem recv_error_takes (h : Conserves S avail) (codec : C) {r r' : Receiver S T} {hd : RespHead}
    (hflag : hd.flag = 2) {task : T} (hr : _recv_error codec hd task r = (.ready (.ok ()), r')) :
    as_usize hd.blob_len ≤ i32_MAX ∧
      AsyncBufStream.Takes avail (as_usize hd.blob_len) r.client.stream r'.client.stream := by
  have h1 : hd.flag ≠ 1 := by
    rw [hflag]
    decide
  rw [_recv_error, if_neg h1, if_pos hflag] at hr
  obtain ⟨u, r₁, hbuf, hrest⟩ := Async.bind_eq_ok hr
  obtain ⟨bs, r₂, hread, hend⟩ := Async.bind_eq_ok hrest
  by_cases h0 : 0 ≤ hd.blob_len
  · rw [get_resp_buf_ok r (Nat.le_trans (as_usize_of_nonneg h0).2 (by decide))] at hbuf
    cases hbuf
    refine ⟨(as_usize_of_nonneg h0).2, ?_⟩
    have ht :
        AsyncBufStream.Takes avail (as_usize hd.blob_len) r.client.stream r₂.client.stream := by
      rcases he : read_exact (as_usize hd.blob_len)
        { r with client := r.client.resize_resp_buf (as_usize hd.blob_len) } with ⟨(e | bs') | _, r₃⟩ <;>
        simp only [read_for, he] at hread <;> cases hread
      have ht := recv_exact_takes h he
      exact ht
    -- what is left only completes the task
    rcases hp : parse_int_err bs with _ | e <;> simp only [hp] at hend <;> cases hend <;> exact ht
  · rw [get_resp_buf, if_pos (as_usize_of_neg h0)] at hbuf
    cases hbuf

/-- A task that has no place for the blob fails, and the blob is thrown away. -/
theorem recv_ok_no_blob (h : Delivers S Live avail) {r : Receiver S T}
    (hl : r.client.stream.Live Live) (halloc : r.alloc.Fits) (codec : C) (task : T) {hd : RespHead}
    {msg : Bytes} (hm : msg.length ≤ u32_MAX) (hd_msg : hd.msg_len = .ofNat msg.length)
    {blob : Bytes} (hne : blob ≠ []) (hb : blob.length ≤ i32_MAX)
    (hd_blob : hd.blob_len = .ofNat blob.length)
    (hnone : (ClientTask.reserve_resp_blob C task (.ofNat blob.length)).2 = none) {rest : Bytes}
    (hav : r.client.stream.avail avail = msg ++ (blob ++ rest)) :
    ∃ r', recv_ok codec hd task r = (.ready (.ok ()), r') ∧
      r'.client.stream.avail avail = rest := by
  obtain ⟨s1, hr1, hav1, hl1, -⟩ := recv_msg_ok (C := C) h hl task hm hd_msg hav
  have hpos : hd.blob_len > 0 := by
    rw [hd_blob]
    exact (ofNat_length_pos hb).2 hne
  rw [recv_ok, Async.bind_ok hr1, if_pos hpos, hd_blob]
  rcases hres : ClientTask.reserve_resp_blob C task (.ofNat blob.length) with ⟨task', n⟩
  rw [hres] at hnone
  cases hnone
  let r1 := (error_handle (ClientTask.set_rpc_error C task' .Decode) (r.withStream s1)).2
  obtain ⟨s2, hr2, hav2⟩ := recv_and_dump_ok (r := r1) h hl1 halloc hne hb hav1
  refine ⟨r1.withStream s2, ?_, hav2⟩
  simp only [as_usize_ofNat hb]
  exact (Async.bind_ok (show error_handle _ (r.withStream s1) = (.ready (.ok ()), r1) from rfl) _).trans hr2

variable (C) in
/-- A task reserves its blob's length or has no place for it. -/
def Reserves (task : T) : Prop :=
  ∀ n > 0, (ClientTask.reserve_resp_blob C task n).2 = none ∨
    (ClientTask.reserve_resp_blob C task n).2 = some (as_usize n)

theorem recv_ok_takes (h : Delivers S Live avail) {r : Receiver S T}
    (hl : r.client.stream.Live Live) (halloc : r.alloc.Fits) (codec : C) {task : T}
    (hres : Reserves C task) {hd : RespHead} {msg : Bytes} (hm : msg.length ≤ u32_MAX)
    (hd_msg : hd.msg_len = .ofNat msg.length) {blob : Bytes} (hb : blob.length ≤ i32_MAX)
    (hd_blob : hd.blob_len = .ofNat blob.length) {rest : Bytes}
    (hav : r.client.stream.avail avail = msg ++ (blob ++ rest)) :
    ∃ r', recv_ok codec hd task r = (.ready (.ok ()), r') ∧
      r'.client.stream.avail avail = rest := by
  by_cases htake : TakesBlob C task blob
  · obtain ⟨r', hr', hav', -⟩ := recv_ok_ok h hl codec task hm hd_msg hb hd_blob htake hav
    exact ⟨r', hr', hav'⟩
  · obtain ⟨hne, hnot⟩ := Classical.not_imp.1 htake
    have hnone := (hres _ ((ofNat_length_pos hb).2 hne)).resolve_right (by rwa [as_usize_ofNat hb])
    exact recv_ok_no_blob h hl halloc codec task hm hd_msg hne hb hd_blob hnone hav

end

end Receiver

theorem toUInt32_ofNat (k : Nat) : (Int32.ofNat k).toUInt32 = UInt32.ofNat k := rfl

namespace Receiver

section
variable {C T C' T' : Type} [ClientTaskCommon T] [ClientTask C T] [ServerTaskEncode C' T']

/-- `read_resp` takes one response, up to `rest`, for any `Buffer::alloc` that gives
buffers of the length asked for. -/
def TakesWhole (codec : C) (close_ch : Option Bool) (r : Receiver Sock T) (rest : Bytes) : Prop :=
  ∀ alloc : BufferAlloc, alloc.Fits →
    ∃ r', read_resp codec close_ch { r with alloc := alloc } = (.ready (.ok true), r') ∧
    r'.client.stream.avail Sock.inbound = rest

/-- The call is the read of the header, then that of the body. -/
theorem read_resp_ok_iff (codec : C) (close_ch : Option Bool) {r : Receiver Sock T}
    (hl : r.client.stream.Live Sock.Live) {hd : RespHead}
    (hdec : RespHead.decode_head hd.as_bytes = .ok hd) {body : Bytes}
    (hav : r.client.stream.avail Sock.inbound = hd.as_bytes ++ body) {found : Option T}
    {tm : ClientTaskTimer T} (ht : r.timer.take_task hd.seq.toNat = (.ready found, tm)) :
    ∃ r₁ : Receiver Sock T, r₁.client.stream.Live Sock.Live ∧
      r₁.client.stream.avail Sock.inbound = body ∧
      r₁.alloc = r.alloc ∧ ∀ r', read_resp codec close_ch r = (.ready (.ok true), r') ↔
        recv_body_for codec hd found r₁ = (.ready (.ok ()), r') := by
  obtain ⟨s₁, hr₁, hav₁, hl₁⟩ := read_head_ok Sock.delivers hl (by simp) hav close_ch
  refine ⟨(r.withStream s₁).atBody hd tm, hl₁, hav₁, rfl, fun r' => ?_⟩
  have hbody : _recv_resp_body codec hd (r.withStream s₁) =
      recv_body_for codec hd found ((r.withStream s₁).atBody hd tm) := recv_resp_body_taken ht
  rw [read_resp_after_head hr₁ hdec, ← hbody]
  rcases hb : _recv_resp_body codec hd (r.withStream s₁) with ⟨((e | _) | u) | _, r₂⟩ <;>
    simp [bind, Async.bind, Async.mapErr, hb, pure]

/-- A response is taken whole under `P` if its body is read then, and if a body that
was read by means of `BufferAlloc.plenty` implies `P`. -/
theorem takesWhole_iff_of (codec : C) (close_ch : Option Bool) {r : Receiver Sock T}
    (hl : r.client.stream.Live Sock.Live) {hd : RespHead}
    (hdec : RespHead.decode_head hd.as_bytes = .ok hd) {body rest : Bytes}
    (hav : r.client.stream.avail Sock.inbound = hd.as_bytes ++ (body ++ rest)) {found : Option T}
    {tm : ClientTaskTimer T} (ht : r.timer.take_task hd.seq.toNat = (.ready found, tm)) {P : Prop}
    (hyes : P → ∀ r₁ : Receiver Sock T, r₁.client.stream.Live Sock.Live → r₁.alloc.Fits →
      r₁.client.stream.avail Sock.inbound = body ++ rest →
      ∃ r', recv_body_for codec hd found r₁ = (.ready (.ok ()), r') ∧
      r'.client.stream.avail Sock.inbound = rest)
    (hno : ∀ r₁ r' : Receiver Sock T, r₁.alloc = .plenty →
      recv_body_for codec hd found r₁ = (.ready (.ok ()), r') →
      AsyncBufStream.Takes Sock.inbound body.length r₁.client.stream r'.client.stream → P) :
    TakesWhole codec close_ch r rest ↔ P := by
  constructor
  · intro hall
    obtain ⟨r', hr', hav'⟩ := hall .plenty BufferAlloc.plenty_fits
    obtain ⟨r₁, -, hav₁, ha₁, hiff⟩ :=
      read_resp_ok_iff codec close_ch (r := { r with alloc := .plenty }) hl hdec hav ht
    exact hno r₁ r' ha₁ ((hiff r').1 hr') ⟨body, rfl, by rw [hav₁, hav']⟩
  · intro hp alloc halloc
    obtain ⟨r₁, hl₁, hav₁, ha₁, hiff⟩ :=
      read_resp_ok_iff codec close_ch (r := { r with alloc := alloc }) hl hdec hav ht
    obtain ⟨r', hr', hav'⟩ := hyes hp r₁ hl₁ (ha₁ ▸ halloc) hav₁
    exact ⟨r', (hiff r').2 hr', hav'⟩

/-- An error: the text, if there is one, is the body. -/
theorem takesWhole_err_iff (codec : C) (close_ch : Option Bool) {r : Receiver Sock T}
    (hl : r.client.stream.Live Sock.Live) (seq : UInt64) (e : EncodedErr) {rest : Bytes}
    (hav : r.client.stream.avail Sock.inbound = (RespHead.errHead seq e).as_bytes ++ (e.text.getD [] ++ rest))
    {found : Option T} {tm : ClientTaskTimer T}
    (ht : r.timer.take_task seq.toNat = (.ready found, tm)) :
    TakesWhole codec close_ch r rest ↔ (e.text.getD []).length ≤ i32_MAX := by
  have ht' : r.timer.take_task (RespHead.errHead seq e).seq.toNat = (.ready found, tm) := by
    cases e <;> exact ht
  refine takesWhole_iff_of codec close_ch hl (RespHead.decode_head_errHead seq e) hav ht'
    (fun hle r₁ hl₁ halloc hav₁ => ?_) fun r₁ r' halloc hr' htakes => ?_
  · cases found with
    | some task =>
      obtain ⟨r', hr', hav', -⟩ := recv_error_ok Sock.delivers hl₁ codec task seq hle hav₁
      exact ⟨r', by rw [recv_body_for, if_pos (RespHead.errHead_flag seq e), hr'], hav'⟩
    | none =>
      refine recv_unknown_ok Sock.delivers hl₁ halloc hle ?_ hav₁
      rcases RespHead.errHead_cases seq e with ⟨hflag, hnil⟩ | ⟨hflag, hlen⟩
      · exact .inr (.inr ⟨hflag, hnil⟩)
      · exact .inr (.inl ⟨hflag,
          by rw [hlen, toUInt32_ofNat, toNat_ofNat_u32 (Nat.le_trans hle (by decide))]⟩)
  · rcases RespHead.errHead_cases seq e with ⟨-, hnil⟩ | ⟨hflag, -⟩
    · rw [hnil]
      exact Nat.zero_le _
    · cases found with
      | some task =>
        rw [recv_body_for, if_pos (RespHead.errHead_flag seq e)] at hr'
        obtain ⟨hle, htakes'⟩ := recv_error_takes Sock.conserves codec hflag hr'
        rwa [htakes'.unique htakes] at hle
      | none =>
        obtain ⟨hle, htakes'⟩ := recv_unknown_takes Sock.conserves halloc (.inr ⟨hflag, rfl⟩) hr'
        rwa [htakes'.unique htakes] at hle

/-- A success: the message, then the blob. -/
theorem takesWhole_ok_iff (codec : C) (close_ch : Option Bool) {r : Receiver Sock T}
    (hl : r.client.stream.Live Sock.Live) (seq : UInt64) {msg blob rest : Bytes}
    (hm : msg.length ≤ u32_MAX) (hb : blob.length ≤ i32_MAX)
    (hav : r.client.stream.avail Sock.inbound =
      (RespHead.filled 0 seq (.ofNat msg.length) (.ofNat blob.length)).as_bytes ++ ((msg ++ blob) ++ rest))
    {found : Option T} {tm : ClientTaskTimer T}
    (ht : r.timer.take_task seq.toNat = (.ready found, tm))
    (hres : ∀ task, found = some task → Reserves C task) :
    TakesWhole codec close_ch r rest ↔
      (found.isSome = false → msg.length + blob.length ≤ i32_MAX) := by
  have hbody : (msg ++ blob).length =
      (RespHead.filled 0 seq (.ofNat msg.length) (.ofNat blob.length)).msg_len.toNat +
      (RespHead.filled 0 seq (.ofNat msg.length) (.ofNat blob.length)).blob_len.toUInt32.toNat := by
    simp only [RespHead.filled, List.length_append, toUInt32_ofNat, toNat_ofNat_u32 hm,
      toNat_ofNat_u32 (Nat.le_trans hb (by decide : i32_MAX ≤ u32_MAX))]
  refine takesWhole_iff_of codec close_ch hl (RespHead.decode_head_filled ..) hav ht
    (fun hle r₁ hl₁ halloc hav₁ => ?_) fun r₁ r' halloc hr' htakes hknown => ?_
  · cases found with
    | some task =>
      rw [List.append_assoc] at hav₁
      rw [recv_body_for, if_neg (by simp [RespHead.filled])]
      exact recv_ok_takes Sock.delivers hl₁ halloc codec (hres task rfl) hm rfl hb rfl hav₁
    | none =>
      have hle' : (msg ++ blob).length ≤ i32_MAX := by
        rw [List.length_append]
        exact hle rfl
      exact recv_unknown_ok Sock.delivers hl₁ halloc hle' (.inl ⟨rfl, hbody⟩) hav₁
  · cases found with
    | some task => cases hknown
    | none =>
      obtain ⟨hle, -⟩ := recv_unknown_takes Sock.conserves halloc (.inl ⟨rfl, hbody⟩) hr'
      rwa [List.length_append] at hle

/-- Whether its task is found, with a place for a blob or without, or is not known any
more: the response is taken whole if the client can compute its length. -/
theorem takesWhole_iff (srv_codec : C') (buf : EncodeBuf RPC_RESP_HEADER_LEN) (srv_task : T')
    (hrep : (ServerTaskEncode.encode_resp srv_codec srv_task).Reports) (codec : C)
    (close_ch : Option Bool) (r : Receiver Sock T) (hl : r.client.stream.Live Sock.Live)
    (rest : Bytes)
    (hav : r.client.stream.avail Sock.inbound = RespHead.frame srv_codec buf srv_task ++ rest)
    {found : Option T} {tm : ClientTaskTimer T}
    (ht : r.timer.take_task (ServerTaskEncode.encode_resp srv_codec srv_task).seq.toNat = (.ready found, tm))
    (hres : ∀ task, found = some task → Reserves C task) :
    TakesWhole codec close_ch r rest ↔
      (ServerTaskEncode.encode_resp srv_codec srv_task).Takeable found.isSome := by
  have hframe := RespHead.frame_eq srv_codec buf srv_task
  simp only at hframe
  rw [hframe] at hav
  generalize ServerTaskEncode.encode_resp srv_codec srv_task = resp at *
  unfold EncodedResp.Reports at hrep
  unfold EncodedResp.Takeable
  rcases ho : resp.outcome with e | ⟨msg_len, blob⟩ <;> simp only [ho] at hrep hav ⊢
  · rw [hrep, List.append_nil, List.append_assoc] at hav
    exact takesWhole_err_iff codec close_ch hl resp.seq e hav ht
  · obtain ⟨hm, hb⟩ := EncodedResp.outcome_le ho
    subst hrep
    rw [List.append_assoc _ resp.appended, List.append_assoc] at hav
    exact takesWhole_ok_iff codec close_ch hl resp.seq hm hb hav ht hres

end

end Receiver

/-- A timer whose only task, the sample's, has timed out. -/
def lateTimer :
    ClientTaskTimer (DerivedTask (UInt8 × Option UInt8) (UInt8 × Option UInt8) String) :=
  (((ClientTaskTimer.new 0).reg_task sentTask).recv_all.adjust_task_queue).2

theorem sampleReceiver_live : sampleReceiver.client.stream.Live Sock.Live := by
  refine ⟨AsyncBufRead.new_wf (by decide), ?_, ?_⟩
  · simp [sampleReceiver, AsyncBufStream.new, sampleSock]
  · decide +kernel

/-- The sample is taken whole by its task, and also when it comes too late. -/
theorem Receiver.takesWhole_sample :
    Receiver.TakesWhole () none sampleReceiver [0xaa] ∧
    Receiver.TakesWhole () none { sampleReceiver with timer := lateTimer } [0xaa] := by
  have hrep : (ServerTaskEncode.encode_resp () sampleResp).Reports := rfl
  have hres : Receiver.Reserves Unit sentTask := by
    intro n hn
    right
    have hint := (as_usize_of_nonneg (Int32.le_of_lt hn)).1
    show some n.toInt.toNat = _
    rw [← hint, Int.toNat_natCast]
  refine ⟨(Receiver.takesWhole_iff () sampleRespBuf sampleResp hrep
    () none sampleReceiver sampleReceiver_live [0xaa] rfl
    rfl ?_).2 (by rintro ⟨⟩), (Receiver.takesWhole_iff () sampleRespBuf sampleResp hrep () none
      { sampleReceiver with timer := lateTimer } sampleReceiver_live [0xaa] rfl rfl (by rintro _ ⟨⟩)).2 ?_⟩
  · rintro _ ⟨⟩
    exact hres
  · intro _
    show 3 + 3 ≤ i32_MAX
    decide

/-- The sample with a blob of `i32::MAX` bytes comes too late: message and blob together
are more than an `i32` holds. -/
theorem Receiver.late_not_takesWhole : ∃ (blob : Bytes)
    (r : Receiver Sock (DerivedTask (UInt8 × Option UInt8) (UInt8 × Option UInt8) String)),
    let resp := { sampleResp with resp_blob := some blob }
    blob.length = i32_MAX ∧ r.timer = lateTimer ∧ lateTimer.take_task 1 = (.ready none, lateTimer) ∧
      r.client.stream.Live Sock.Live ∧
      r.client.stream.avail Sock.inbound = RespHead.frame () sampleRespBuf resp ∧
      ¬ Receiver.TakesWhole () none r [] := by
  obtain ⟨blob, hblob⟩ :
      ∃ blob : Bytes, blob.length = i32_MAX := ⟨List.replicate i32_MAX 0, List.length_replicate⟩
  let resp := { sampleResp with resp_blob := some blob }
  let inbound := RespHead.frame () sampleRespBuf resp
  let sock : Sock := ⟨List.replicate inbound.length (.chunk 1), inbound, [], []⟩
  let r := { sampleReceiver with
    timer := lateTimer, client := { sampleReceiver.client with stream := .new sock 8 } }
  have hl : r.client.stream.Live Sock.Live := by
    refine ⟨AsyncBufRead.new_wf (by decide), fun ev hev => .inl ⟨0, List.eq_of_mem_replicate hev⟩, ?_⟩
    show inbound.length ≤ (List.replicate inbound.length (ReadEv.chunk 1)).countP _
    rw [List.countP_replicate, if_pos (by decide)]
  let msg : Bytes := [0x92, 7, 9]
  have hframe : r.client.stream.avail Sock.inbound =
      (RespHead.filled 0 1 (.ofNat msg.length) (.ofNat blob.length)).as_bytes ++ ((msg ++ blob) ++ []) := by
    have hout : (ServerTaskEncode.encode_resp () resp).outcome = .ok (3, some blob) :=
      if_pos ⟨by decide, Nat.le_of_eq hblob⟩
    have hf := RespHead.frame_eq () sampleRespBuf resp
    simp only [hout] at hf
    rw [List.append_nil, ← List.append_assoc]
    exact hf
  have htake : lateTimer.take_task 1 = (.ready none, lateTimer) := rfl
  refine ⟨blob, r, hblob, rfl, htake, hl, rfl, fun h => ?_⟩
  have hm : msg.length ≤ u32_MAX := by decide
  have hle :=
    (Receiver.takesWhole_ok_iff () none hl 1 hm (Nat.le_of_eq hblob) hframe htake
    (by rintro _ ⟨⟩)).1 h rfl
  rw [hblob] at hle
  exact absurd hle (by decide)

end OccamsRpc
