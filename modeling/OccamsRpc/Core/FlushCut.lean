import OccamsRpc.Core.BufWrite
/-!
# A flush that stops half way

`flush` gives the buffer to `write_all` and clears `pos` when that has succeeded.
How far `write_all` came is known inside its loop only, so when it fails, or its
future is dropped by a timeout, the buffer is left as it was, and the next flush
begins with the first byte again.
-/

namespace OccamsRpc

/-- A `write` passes on as many bytes as it returns, and none when it fails or is
left waiting. -/
structure Exact (S : Type) [AsyncWrite S] (out : S → Bytes) : Prop where
  ok : ∀ s buf n s', AsyncWrite.write s buf = (.ready (.ok n), s') → n ≤ buf.length ∧
    out s' = out s ++ buf.take n
  other : ∀ s buf r s', AsyncWrite.write s buf = (r, s') → (∀ n, r ≠ .ready (.ok n)) →
    out s' = out s

section
variable {S : Type} [AsyncWrite S] {out : S → Bytes}

theorem Exact.pending (h : Exact S out) {s s' : S} {buf : Bytes}
    (hw : AsyncWrite.write s buf = (.pending, s')) :
    out s' = out s :=
  h.other s buf _ s' hw (by rintro n ⟨⟩)

theorem Exact.error (h : Exact S out) {s s' : S} {buf : Bytes} {e : IoErr}
    (hw : AsyncWrite.write s buf = (.ready (.error e), s')) : out s' = out s :=
  h.other s buf _ s' hw (by rintro n ⟨⟩)

theorem Exact.passes (h : Exact S out) : Passes S (fun _ => True) out where
  ok s buf n s' _ hw := ⟨trivial, (h.ok s buf n s' hw).2⟩
  interrupted _ _ _ _ hw := ⟨trivial, h.error hw⟩

/-- Of the calls of `write` that `write_all` makes, the first that is not
interrupted takes no byte. -/
def AsyncWrite.refuses : Nat → S → Bytes → Bool
  | 0, _, _ => true
  | fuel + 1, s, buf =>
    match AsyncWrite.write s buf with
    | (.pending, _) => true
    | (.ready (.ok n), _) => n == 0
    | (.ready (.error e), s) => if e = .Interrupted then refuses fuel s buf else true

/-- `write_all` on the whole of `buf` meets a write of 0 bytes. -/
def AsyncWrite.refuses_all (buf : Bytes) (s : S) : Bool :=
  refuses (AsyncWrite.budget s + buf.length + 1) s buf

/-- However `write_all` ends, what it passed on is behind what was there. -/
theorem Exact.write_all_loop_grows (h : Exact S out) (fuel : Nat) (s : S) (buf : Bytes) :
    ∃ bs, out (AsyncWrite.write_all_loop fuel s buf).2 = out s ++ bs := by
  induction fuel generalizing s buf with
  | zero => exact ⟨[], (List.append_nil _).symm⟩
  | succ fuel ih =>
    rw [AsyncWrite.write_all_loop]
    split
    · exact ⟨[], (List.append_nil _).symm⟩
    · split
      case h_1 s₁ hw => exact ⟨[], by rw [h.pending hw, List.append_nil]⟩
      case h_2 n s₁ hw =>
        obtain ⟨-, hout⟩ := h.ok s buf n s₁ hw
        split
        · exact ⟨_, hout⟩
        · obtain ⟨bs, hbs⟩ := ih s₁ (buf.drop n)
          exact ⟨buf.take n ++ bs, by rw [hbs, hout, List.append_assoc]⟩
      case h_3 e s₁ hw =>
        have hout : out s₁ = out s := h.error hw
        split
        · rw [← hout]
          exact ih s₁ buf
        · exact ⟨[], by rw [hout, List.append_nil]⟩

theorem Exact.write_all_loop_refused (h : Exact S out) (fuel : Nat) (s : S) {buf : Bytes}
    (hne : buf ≠ []) :
    out (AsyncWrite.write_all_loop fuel s buf).2 = out s ↔
      AsyncWrite.refuses fuel s buf = true := by
  induction fuel generalizing s with
  | zero => exact ⟨fun _ => rfl, fun _ => rfl⟩
  | succ fuel ih =>
    rw [AsyncWrite.write_all_loop, AsyncWrite.refuses, if_neg hne]
    rcases hw : AsyncWrite.write s buf with ⟨(e | n) | _, s₁⟩ <;> dsimp only
    · have hout : out s₁ = out s := h.error hw
      split
      · rw [← hout]
        exact ih s₁
      · exact ⟨fun _ => rfl, fun _ => hout⟩
    · obtain ⟨hle, hout⟩ := h.ok s buf n s₁ hw
      split
      case isTrue h0 =>
        rw [h0, List.take_zero, List.append_nil] at hout
        simp only [hout, h0, beq_self_eq_true]
      case isFalse h0 =>
        -- the first byte is gone for good: nothing takes it back
        obtain ⟨bs, hbs⟩ := h.write_all_loop_grows fuel s₁ (buf.drop n)
        rw [hbs, hout, List.append_assoc]
        have hlen : (buf.take n).length = n := List.length_take_of_le hle
        constructor
        · intro heq
          have hl := congrArg List.length heq
          simp only [List.length_append] at hl
          omega
        · intro h0'
          exact absurd (beq_iff_eq.1 h0') h0
    · exact ⟨fun _ => rfl, fun _ => h.pending hw⟩

end

namespace AsyncBufStream

variable {T : Type} [AsyncWrite T] {out : T → Bytes}

/-- From `s` to `s'` a flush, asked for or made to clear the buffer for a write,
failed or was given up. -/
inductive Cut (s s' : AsyncBufStream T) : Prop
  | flush {timeout : Nat} {r : Poll (Except IoErr Unit)}
    (h : io_with_timeout timeout flush s = (r, s'))
    (hr : r ≠ .ready (.ok ()))
  | write {bs : Bytes} {r : Poll (Except IoErr Nat)} (h : AsyncWrite.write s bs = (r, s'))
    (hclear : bs.length ≥ s.write_buf.buf.length ∨ s.write_buf.buf.length - s.write_buf.pos < bs.length)
    (hr : (s.write_buf.flush s.inner).1 ≠ .ready (.ok ()))

/-- Where a write that had to flush first is when the flush did not succeed. -/
theorem write_of_flush {s s' : AsyncBufStream T} {bs : Bytes} {r : Poll (Except IoErr Nat)}
    (h : AsyncWrite.write s bs = (r, s'))
    (hclear : bs.length ≥ s.write_buf.buf.length ∨ s.write_buf.buf.length - s.write_buf.pos < bs.length)
    (hr : (s.write_buf.flush s.inner).1 ≠ .ready (.ok ())) : s' = (AsyncBufStream.flush s).2 := by
  have hparts : s' = { s with write_buf := (s.write_buf.write_buffered s.inner bs).2.1,
                              inner := (s.write_buf.write_buffered s.inner bs).2.2 } := (Prod.mk.inj h).2.symm
  rw [hparts]
  simp only [AsyncBufStream.flush, AsyncBufWrite.write_buffered]
  rcases hf : s.write_buf.flush s.inner with ⟨(e | _) | _, b₁, w₁⟩ <;> rw [hf] at hr
  · split
    · rfl
    · rw [if_pos (hclear.resolve_left ‹_›)]
  · exact absurd rfl hr
  · split
    · rfl
    · rw [if_pos (hclear.resolve_left ‹_›)]

/-- The buffer is as it was, and the writer has had part of it. -/
theorem Cut.left {s s' : AsyncBufStream T} (h : s.Cut s') :
    s'.write_buf = s.write_buf ∧ s'.inner = (AsyncWrite.write_all s.write_buf.held s.inner).2 ∧
      s.write_buf.held ≠ [] := by
  have hflush (hr : (s.write_buf.flush s.inner).1 ≠ .ready (.ok ()))
      (hs' : s' = (AsyncBufStream.flush s).2) :
      s'.write_buf = s.write_buf ∧ s'.inner = (AsyncWrite.write_all s.write_buf.held s.inner).2 ∧
        s.write_buf.held ≠ [] := by
    rcases hf : s.write_buf.flush s.inner with ⟨r, b₁, w₁⟩
    simp only [AsyncBufStream.flush, hf] at hs'
    subst hs'
    rw [hf] at hr
    rcases AsyncBufWrite.flush_left hf with ⟨hok, -⟩ | ⟨-, hb, hall⟩
    · exact absurd hok hr
    · refine ⟨hb, by rw [hall], fun hnil => ?_⟩
      rw [hnil] at hall
      exact hr (congrArg Prod.fst hall).symm
  cases h with
  | @flush timeout r h hr =>
    refine hflush (fun hok => hr ?_) ?_
    · have hf : AsyncBufStream.flush s = (.ready (.ok ()), (AsyncBufStream.flush s).2) :=
      Prod.ext hok rfl
      exact congrArg Prod.fst (h.symm.trans (io_with_timeout_ok hf))
    · unfold io_with_timeout at h
      split at h
      case h_1 s₁ hf =>
        rw [hf]
        split at h <;> cases h <;> rfl
      case h_2 => rw [h]
  | write h hclear hr => exact hflush hr (write_of_flush h hclear hr)

/-- After a flush that stopped half way, further calls and a flush that succeeds
pass on what was in the buffer and what they were given, and nothing twice,
exactly when the writer had taken nothing of it. -/
theorem not_resent_iff (h : Exact T out) {s s' s'' : AsyncBufStream T} (hs : s.write_buf.Wf)
    (hcut : s.Cut s') {w : T} (hw : out w = out s'.inner) {calls : List WriteCall}
    (hlater : WriteCall.runAll (calls ++ [.flush]) { s' with inner := w } = (.ready (.ok ()), s'')) :
    out s''.inner = out s.inner ++ s.write_buf.held ++ WriteCall.submitted calls ↔
      AsyncWrite.refuses_all s.write_buf.held s.inner = true := by
  obtain ⟨hb, hinner, hne⟩ := hcut.left
  have htook : ({ s' with inner := w } : AsyncBufStream T).Took (fun _ => True) out
      (out s'.inner ++ s.write_buf.held) := by
    refine ⟨⟨hb ▸ hs, trivial⟩, ?_⟩
    rw [← hw, ← hb]
    rfl
  rw [WriteCall.runAll_flushed h.passes htook hlater, List.append_left_inj, List.append_left_inj, hinner]
  exact h.write_all_loop_refused _ s.inner hne

end AsyncBufStream

theorem Sock.exact : Exact Sock Sock.sent where
  ok := by
    rintro ⟨reads, inbound, writes, sent⟩ buf n s' h
    rcases writes with _ | ⟨_ | _ | _, writes⟩ <;> cases h
    exact ⟨Nat.min_le_right _ _, by rw [← List.take_eq_take_min]⟩
  other := by
    rintro ⟨reads, inbound, writes, sent⟩ buf r s' h hr
    rcases writes with _ | ⟨n | _ | _, writes⟩ <;> cases h
    · rfl
    · exact absurd rfl (hr (min n buf.length))
    · rfl
    · rfl

namespace AsyncBufStream

/-- Three bytes in a buffer of eight. -/
def sampleFull (writes : List WriteEv) (sent : Bytes) : AsyncBufStream Sock :=
  ⟨.new 8, ⟨[1, 2, 3, 0, 0, 0, 0, 0], 3⟩, ⟨[], [], writes, sent⟩⟩

theorem sampleFull_wf (writes : List WriteEv) (sent : Bytes) :
    (sampleFull writes sent).write_buf.Wf :=
  ⟨Nat.le_of_ble_eq_true rfl, Nat.zero_lt_succ 7⟩

/-- The socket fails before it has taken anything. -/
theorem not_resent_iff_refused :
    ∃ s'', WriteCall.runAll ([.write_all [4]] ++ [.flush]) (sampleFull [.accept 9] []) =
      (.ready (.ok ()), s'') ∧
      s''.inner.sent = [1, 2, 3, 4] := by
  have hcut : (sampleFull [.fail .Interrupted, .fail .Other] []).Cut (sampleFull [] []) :=
    .flush (show io_with_timeout 0 flush _ = (.ready (.error .Other), _) from rfl) nofun
  obtain ⟨s'', hr⟩ :
      ∃ s'', WriteCall.runAll ([.write_all [4]] ++ [.flush]) (sampleFull [.accept 9] []) =
        (.ready (.ok ()), s'') := ⟨_, rfl⟩
  have hiff := not_resent_iff Sock.exact (sampleFull_wf _ _) hcut (w := ⟨[], [], [.accept 9], []⟩) rfl hr
  exact ⟨s'', hr, hiff.2 rfl⟩

/-- The socket takes two bytes and then nothing until the timeout. They arrive
twice. -/
theorem flush_resends :
    (sampleFull [.accept 2, .stall] []).Cut (sampleFull [] [1, 2]) ∧
      ∃ s'', flush (sampleFull [.accept 9] [1, 2]) = (.ready (.ok ()), s'') ∧
      s''.inner.sent = [1, 2, 1, 2, 3] ∧
        ¬ s''.inner.sent <+: (sampleFull [.accept 2, .stall] []).write_buf.held := by
  refine ⟨.flush (show io_with_timeout 1000 flush _ = (.ready (.error .TimedOut), _) from rfl)
    nofun, _, rfl, rfl, ?_⟩
  decide

end AsyncBufStream

end OccamsRpc
