import OccamsRpc.Tcp.RespFidelity
/-!
# Cancelling the wait for a header

`read_resp` with a close channel races `read_exact` on the header against the
channel (`Cancellable`). The future that loses is dropped, and with it what
`read_exact` had read so far: its progress is in the future alone. The call that
follows starts at whatever the stream then holds.

The socket's script says what came before the channel fired: all events up to
the first `stall`.
-/

namespace OccamsRpc

namespace AsyncBufStream

/-- The bytes not yet handed out, buffered or still to come. -/
def unread (s : AsyncBufStream Sock) : Bytes := s.avail Sock.inbound

/-- The same stream, with other things to come. -/
def withReads (s : AsyncBufStream Sock) (evs : List ReadEv) : AsyncBufStream Sock :=
  { s with inner := { s.inner with reads := evs } }

/-- No byte comes before the first stall: none is buffered, and the socket has
nothing to give until then. -/
def Quiet (s : AsyncBufStream Sock) : Prop :=
  s.read_buf.cap ≤ s.read_buf.pos ∧
    ∀ ev ∈ s.inner.reads.takeWhile (· ≠ .stall), ev = .fail .Interrupted

/-- The stream had the stall not been there. -/
def unstalled (s : AsyncBufStream Sock) : AsyncBufStream Sock :=
  s.withReads (s.inner.reads.eraseP (· = .stall))

/-- With nothing buffered, a read is left waiting or fails as the socket says. -/
theorem read_empty {s : AsyncBufStream Sock} (h : s.read_buf.cap ≤ s.read_buf.pos) (len : Nat) :
    (s.inner.reads = [] → AsyncRead.read s len = (.pending, s)) ∧
    (∀ evs, s.inner.reads = .stall :: evs → AsyncRead.read s len = (.pending, s.withReads evs)) ∧
    (∀ evs e, s.inner.reads = .fail e :: evs →
      AsyncRead.read s len = (.ready (.error e), s.withReads evs)) := by
  obtain ⟨b, wb, ⟨reads, inbound, writes, sent⟩⟩ := s
  have hlt : ¬ b.pos < b.cap := Nat.not_lt.2 h
  refine ⟨?_, fun evs => ?_, fun evs e => ?_⟩ <;> rintro ⟨⟩
  all_goals
    by_cases hbig : len ≥ b.buf.length
    · simp only [read_eq, AsyncBufRead.read_buffered, if_neg hlt, if_pos hbig]
      rfl
    · simp only [read_eq, AsyncBufRead.read_buffered, if_neg hlt, if_neg hbig]
      rfl

/-- What one read does: it hands out the next bytes, or it ends without any,
which takes an event of the socket that carries none. -/
theorem read_cases (s : AsyncBufStream Sock) (len : Nat) :
    (∃ bs s', AsyncRead.read s len = (.ready (.ok bs), s') ∧ s.unread = bs ++ s'.unread ∧
      AsyncRead.budget s' ≤ AsyncRead.budget s) ∨
    (s.read_buf.cap ≤ s.read_buf.pos ∧ ∃ evs,
      ((∃ e, s.inner.reads = .fail e :: evs ∧ AsyncRead.read s len = (.ready (.error e), s.withReads evs)) ∨
        (s.inner.reads = .stall :: evs ∧ AsyncRead.read s len = (.pending, s.withReads evs)) ∨
        (s.inner.reads = [] ∧ AsyncRead.read s len = (.pending, s)))) := by
  by_cases hlt : s.read_buf.pos < s.read_buf.cap
  · refine .inl ⟨(s.read_buf.buf.drop s.read_buf.pos).take (min len (s.read_buf.cap - s.read_buf.pos)),
      { s with
      read_buf := { s.read_buf with
      pos := s.read_buf.pos + min len (s.read_buf.cap - s.read_buf.pos) } },
      ?_, ?_, Nat.le_refl _⟩
    · simp only [read_eq, AsyncBufRead.read_buffered, if_pos hlt]
    · simp only [unread, avail,
        s.read_buf.held_advance (Nat.min_le_right len (s.read_buf.cap - s.read_buf.pos)),
        List.append_assoc]
  have hle : s.read_buf.cap ≤ s.read_buf.pos := Nat.le_of_not_lt hlt
  cases hev : s.inner.reads with
  | nil => exact .inr ⟨hle, [], .inr (.inr ⟨rfl, (read_empty hle len).1 hev⟩)⟩
  | cons ev evs =>
    cases ev with
    | stall => exact .inr ⟨hle, evs, .inr (.inl ⟨rfl, (read_empty hle len).2.1 evs hev⟩)⟩
    | fail e => exact .inr ⟨hle, evs, .inl ⟨e, rfl, (read_empty hle len).2.2 evs e hev⟩⟩
    | chunk n =>
      left
      obtain ⟨b, wb, ⟨reads, inbound, writes, sent⟩⟩ := s
      cases hev
      have hheld : b.held = [] := AsyncBufRead.held_eq_nil hlt
      by_cases hbig : len ≥ b.buf.length
      · -- past the buffer
        refine ⟨inbound.take (min n len), ⟨b, wb, ⟨evs, inbound.drop (min n len), writes, sent⟩⟩,
          ?_, ?_, Nat.le_succ _⟩
        · simp only [read_eq, AsyncBufRead.read_buffered, if_neg hlt, if_pos hbig]
          rfl
        · simp only [unread, avail, hheld, List.nil_append, List.take_append_drop]
      · -- the buffer is filled first
        have hn : min len (inbound.take (min n b.buf.length)).length ≤
            (inbound.take (min n b.buf.length)).length :=
          Nat.min_le_right _ _
        refine ⟨(inbound.take (min n b.buf.length)).take (min len (inbound.take (min n b.buf.length)).length),
          ⟨⟨inbound.take (min n b.buf.length) ++ b.buf.drop (inbound.take (min n b.buf.length)).length,
            min len (inbound.take (min n b.buf.length)).length,
            (inbound.take (min n b.buf.length)).length⟩, wb,
            ⟨evs, inbound.drop (min n b.buf.length), writes, sent⟩⟩, ?_, ?_, Nat.le_succ _⟩
        · simp only [AsyncBufRead.read_buffered, if_neg hlt, if_neg hbig, AsyncRead.read, Sock.read,
            List.take_append_of_le_length hn]
        · simp only [unread, avail, hheld, List.nil_append, AsyncBufRead.held_fill _ _ hn]
          rw [← List.append_assoc, List.take_append_drop, List.take_append_drop]

/-! ## The header read -/

/-- A header read that is left waiting has taken bytes from the stream, unless
none were there. -/
theorem read_exact_loop_lost {fuel : Nat} {s s' : AsyncBufStream Sock} {len : Nat} {got : Bytes}
    (hf : AsyncRead.budget s + len < fuel)
    (h : AsyncRead.read_exact_loop fuel s len got = (.pending, s')) :
    ∃ lost, s.unread = lost ++ s'.unread ∧ (lost = [] → s.Quiet) := by
  -- Every round hands out bytes or uses up an answer of the socket, so the fuel lasts.
  induction fuel generalizing s len got with
  | zero => omega
  | succ fuel ih =>
    by_cases h0 : len = 0
    · simp [AsyncRead.read_exact_loop, h0] at h
    rcases read_cases s len with ⟨bs, s₁, hr, hun, hb⟩ | ⟨hle, evs, ⟨e, hev, hr⟩ | ⟨hev, hr⟩ | ⟨hev, hr⟩⟩ <;>
      simp only [AsyncRead.read_exact_loop, h0, if_false, hr] at h
    · by_cases hbs : bs = []
      · simp [hbs] at h
      · rw [if_neg hbs] at h
        have hpos : 0 < bs.length := List.length_pos_of_ne_nil hbs
        obtain ⟨lost, hlost, -⟩ := ih (by omega) h
        refine ⟨bs ++ lost, by rw [hun, hlost, List.append_assoc], fun hnil => ?_⟩
        exact absurd (List.append_eq_nil_iff.1 hnil).1 hbs
    · by_cases he : e = .Interrupted
      · subst he
        rw [if_pos rfl] at h
        have hbud : AsyncRead.budget s = AsyncRead.budget (s.withReads evs) + 1 :=
          congrArg List.length hev
        obtain ⟨lost, hlost, hquiet⟩ := ih (by omega) h
        refine ⟨lost, hlost, fun hnil => ⟨hle, ?_⟩⟩
        rw [hev, List.takeWhile_cons_of_pos (by decide), List.forall_mem_cons]
        exact ⟨rfl, (hquiet hnil).2⟩
      · simp [he] at h
    · cases h
      exact ⟨[], rfl, fun _ => ⟨hle, by simp [hev]⟩⟩
    · cases h
      exact ⟨[], rfl, fun _ => ⟨hle, by simp [hev]⟩⟩

/-- Interrupted reads are made again, and nothing comes of them. -/
theorem read_exact_loop_interrupted {s : AsyncBufStream Sock}
    (hle : s.read_buf.cap ≤ s.read_buf.pos) {len : Nat} (h0 : len ≠ 0) (got : Bytes) (fuel : Nat)
    (evs : List ReadEv) {pre : List ReadEv} (hpre : ∀ ev ∈ pre, ev = .fail .Interrupted) :
    AsyncRead.read_exact_loop (fuel + pre.length) (s.withReads (pre ++ evs)) len got =
      AsyncRead.read_exact_loop fuel (s.withReads evs) len got := by
  induction pre with
  | nil => rfl
  | cons ev pre ih =>
    rw [List.forall_mem_cons] at hpre
    obtain ⟨rfl, hpre⟩ := hpre
    have hr : AsyncRead.read (s.withReads (.fail .Interrupted :: pre ++ evs)) len =
        (.ready (.error .Interrupted), s.withReads (pre ++ evs)) :=
      (read_empty (s := s.withReads (.fail .Interrupted :: pre ++ evs)) hle len).2.2 _ _ rfl
    rw [← ih hpre, List.length_cons, ← Nat.add_assoc, AsyncRead.read_exact_loop, if_neg h0, hr]
    exact if_pos rfl

theorem split_stall {reads : List ReadEv}
    (h : ∀ ev ∈ reads.takeWhile (· ≠ .stall), ev = .fail .Interrupted) :
    ∃ pre rest, reads = pre ++ rest ∧ (∀ ev ∈ pre, ev = .fail .Interrupted) ∧
      (rest = [] ∨ ∃ evs, rest = .stall :: evs) := by
  induction reads with
  | nil => exact ⟨[], [], rfl, by simp, .inl rfl⟩
  | cons ev reads ih =>
    by_cases hev : ev = .stall
    · exact ⟨[], ev :: reads, rfl, by simp, .inr ⟨reads, by rw [hev]⟩⟩
    · rw [List.takeWhile_cons_of_pos (by simpa using hev), List.forall_mem_cons] at h
      obtain ⟨pre, rest, rfl, hpre, hrest⟩ := ih h.2
      exact ⟨ev :: pre, rest, rfl, List.forall_mem_cons.2 ⟨h.1, hpre⟩, hrest⟩

/-- Where no byte came, the read goes on later as if it had not stopped. -/
theorem read_exact_quiet {s : AsyncBufStream Sock} (h : s.Quiet) {len : Nat} (h0 : len ≠ 0) :
    ∃ s', AsyncRead.read_exact len s = (.pending, s') ∧ s'.unread = s.unread ∧
      AsyncRead.read_exact len s.unstalled = AsyncRead.read_exact len s' := by
  obtain ⟨hle, hpre⟩ := h
  obtain ⟨pre, rest, hreads, hpre, hrest⟩ := split_stall hpre
  have hloop : ∀ evs : List ReadEv, AsyncRead.read_exact len (s.withReads (pre ++ evs)) =
      AsyncRead.read_exact len (s.withReads evs) := by
    intro evs
    have hbud : AsyncRead.budget (s.withReads (pre ++ evs)) + len + 1 =
        AsyncRead.budget (s.withReads evs) + len + 1 + pre.length := by
      show (pre ++ evs).length + len + 1 = evs.length + len + 1 + pre.length
      rw [List.length_append]
      omega
    rw [AsyncRead.read_exact, hbud, read_exact_loop_interrupted hle h0 [] _ evs hpre]
    rfl
  have hself : s = s.withReads (pre ++ rest) := by rw [← hreads]; rfl
  have hnostall : ∀ ev ∈ pre, ¬ decide (ev = ReadEv.stall) = true := by
    intro ev hev
    simp [hpre ev hev]
  rcases hrest with rfl | ⟨evs, rfl⟩
  · have hpend : AsyncRead.read_exact len (s.withReads []) = (.pending, s.withReads []) := by
      have hr := (read_empty (s := s.withReads []) hle len).1 rfl
      simp only [AsyncRead.read_exact, AsyncRead.read_exact_loop, if_neg h0, hr]
    refine ⟨s.withReads [], ?_, rfl, ?_⟩
    · rw [hself, hloop]
      exact hpend
    · rw [unstalled, hreads, List.append_nil, List.eraseP_of_forall_not hnostall]
      have := hloop []
      rwa [List.append_nil] at this
  · refine ⟨s.withReads evs, ?_, rfl, ?_⟩
    · rw [hself, hloop]
      have hr : AsyncRead.read (s.withReads (.stall :: evs)) len = (.pending, s.withReads evs) :=
        (read_empty (s := s.withReads (.stall :: evs)) hle len).2.1 _ rfl
      simp only [AsyncRead.read_exact, AsyncRead.read_exact_loop, if_neg h0, hr]
      rfl
    · rw [unstalled, hreads, List.eraseP_append_right _ hnostall, List.eraseP_cons_of_pos (by decide)]
      exact hloop evs

end AsyncBufStream

/-! ## The call and the one after it -/

namespace Receiver

variable {T C : Type} [ClientTaskCommon T] [ClientTask C T]

omit [ClientTaskCommon T] in
/-- The receiver, had the channel not fired and the wait gone on. -/
def uncancelled (r : Receiver Sock T) : Receiver Sock T := r.withStream r.client.stream.unstalled

/-- `r'` takes up the read where `r` was: no byte is lost, and the next call ends
as the one with the channel would have. -/
def Resumes (codec : C) (r r' : Receiver Sock T) : Prop :=
  r'.client.stream.unread = r.client.stream.unread ∧
  ∀ x r'', read_resp codec (some false) r.uncancelled = (.ready x, r'') →
  read_resp codec none r' = (.ready x, r'')

/-- `read_resp` from the header on. -/
def after_head (codec : C) : Option Bytes → Async (Receiver Sock T) (Fault RpcIntErr) Bool
  | none => pure false
  | some resp_head_buf =>
    match RespHead.decode_head resp_head_buf with
    | .error e => .fail (.err e)
    | .ok head => do
      (_recv_resp_body codec head).mapErr Fault.to_rpc
      pure true

theorem read_resp_eq (codec : C) (close_ch : Option Bool) :
    (read_resp codec close_ch : Async (Receiver Sock T) _ _) =
    ((read_head close_ch).mapErr fun _ => Fault.err RpcIntErr.Io) >>= after_head codec :=
  rfl

/-- A response never ends as a cancelled wait does. -/
theorem after_head_some (codec : C) (buf : Bytes) (r r' : Receiver Sock T) :
    after_head codec (some buf) r ≠ (.ready (.ok false), r') := by
  intro h
  rcases hd : RespHead.decode_head buf with e | head <;> simp only [after_head, hd] at h
  · cases h
  · rcases hb : (_recv_resp_body codec head).mapErr Fault.to_rpc r with ⟨(_ | _) | _, r₁⟩ <;>
      simp only [bind, Async.bind, hb] at h <;> cases h

/-- `Ok(false)` says that the header was still awaited. -/
theorem read_resp_cancelled {codec : C} {r r' : Receiver Sock T}
    (h : read_resp codec (some true) r = (.ready (.ok false), r')) :
    ∃ s', AsyncRead.read_exact RPC_RESP_HEADER_LEN r.client.stream = (.pending, s') ∧
      r' = r.withStream s' := by
  rcases hr : AsyncRead.read_exact RPC_RESP_HEADER_LEN r.client.stream with ⟨(e | buf) | _, s'⟩ <;>
    simp only [read_resp_eq, bind, Async.bind, Async.mapErr, read_head, hr, if_true] at h
  · cases h
  · exact absurd h (after_head_some codec buf _ _)
  · cases h
    exact ⟨s', rfl, rfl⟩

/-- The call that follows `Ok(false)` reads on from the response where the
cancelled one was exactly when no byte of the header had come: the bytes that had
are gone. -/
theorem cancelled_resumes_iff (codec : C) (r r' : Receiver Sock T)
    (h : read_resp codec (some true) r = (.ready (.ok false), r')) :
    Resumes codec r r' ↔ r.client.stream.Quiet := by
  obtain ⟨s', hs', rfl⟩ := read_resp_cancelled h
  constructor
  · rintro ⟨hun, -⟩
    obtain ⟨lost, hlost, hquiet⟩ := AsyncBufStream.read_exact_loop_lost (Nat.lt_succ_self _) hs'
    apply hquiet
    have hlen := congrArg List.length (hun.trans hlost)
    rw [List.length_append] at hlen
    apply List.eq_nil_of_length_eq_zero
    change s'.unread.length = _ at hlen
    omega
  · intro hq
    obtain ⟨s₁, hs₁, hun, hsame⟩ :=
      AsyncBufStream.read_exact_quiet hq (show RPC_RESP_HEADER_LEN ≠ 0 by decide)
    rw [hs'] at hs₁
    cases hs₁
    refine ⟨hun, fun x r'' hx => ?_⟩
    -- Both calls make the same header read, and what follows it is the same too.
    have hstream : (r.withStream s').client.stream = s' := rfl
    have hstream' : r.uncancelled.client.stream = r.client.stream.unstalled := rfl
    rcases hr : AsyncRead.read_exact RPC_RESP_HEADER_LEN s' with ⟨(e | buf) | _, s''⟩ <;>
      rw [hr] at hsame
    all_goals
      simp only [read_resp_eq, bind, Async.bind, Async.mapErr, read_head, hstream', hsame] at hx
      simp only [read_resp_eq, bind, Async.bind, Async.mapErr, read_head, read_exact, Async.zoom,
        io_with_timeout, hstream, hr]
    · exact hx
    · exact hx
    · cases hx

end Receiver

/-- The sample response, whose first byte comes after the channel has fired. -/
def quietReceiver :
    Receiver Sock (DerivedTask (UInt8 × Option UInt8) (UInt8 × Option UInt8) String) :=
  sampleReceiver.withStream
    (sampleReceiver.client.stream.withReads (.fail .Interrupted :: .stall :: List.replicate 80 (.chunk 3)))

theorem cancelled_resumes_iff_quiet :
    Receiver.Resumes () quietReceiver (Receiver.read_resp () (some true) quietReceiver).2 :=
  (Receiver.cancelled_resumes_iff () quietReceiver _ rfl).2 ⟨Nat.le_refl 0, by decide⟩

/-- The sample response in two pieces, the channel firing between them. -/
def splitReceiver :
    Receiver Sock (DerivedTask (UInt8 × Option UInt8) (UInt8 × Option UInt8) String) :=
  sampleReceiver.withStream
    (sampleReceiver.client.stream.withReads (.chunk 10 :: .stall :: List.replicate 40 (.chunk 64)))

/-- Ten bytes of the header are lost, and the next call takes the second half of
the header for a new one. -/
theorem cancelled_inside_header :
    ∃ r', Receiver.read_resp () (some true) splitReceiver = (.ready (.ok false), r') ∧
      (Receiver.read_resp () none r').1 = .ready (.error (.err .Io)) ∧
      (Receiver.read_resp () (some false) splitReceiver.uncancelled).1 = .ready (.ok true) ∧
      ¬ Receiver.Resumes () splitReceiver r' := by
  have hnext : (Receiver.read_resp () none (Receiver.read_resp () (some true) splitReceiver).2).1 =
      .ready (.error (.err .Io)) := rfl
  have hwhole :
      (Receiver.read_resp () (some false) splitReceiver.uncancelled).1 = .ready (.ok true) := rfl
  refine ⟨(Receiver.read_resp () (some true) splitReceiver).2, rfl, hnext, hwhole, ?_⟩
  rintro ⟨-, hsame⟩
  rw [hsame (.ok true) _ (Prod.ext hwhole rfl)] at hnext
  cases hnext

end OccamsRpc
