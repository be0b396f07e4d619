import OccamsRpc.Core.Io
/-!
# The two halves of a stream

What is written leaves the reading half of a stream alone, and what is read its
writing half, however the operation ends.
-/

namespace OccamsRpc

/-- `x` leaves `f` of the state as it was, however it ends. -/
def Async.Keeps {S ε α β : Type} (f : S → β) (x : Async S ε α) : Prop := ∀ s, f (x s).2 = f s

namespace Async.Keeps

variable {S S' ε ε' α α' β γ : Type} {f : S → β}

theorem pure (a : α) : Keeps f (pure a : Async S ε α) := fun _ => rfl

/-- A failure leaves the state alone. -/
theorem fail (e : ε) : Keeps f (.fail e : Async S ε α) := fun _ => rfl

/-- Both parts keep it, whichever is the last to run. -/
theorem bind {x : Async S ε α} (hx : Keeps f x) {g : α → Async S ε α'} (hg : ∀ a, Keeps f (g a)) :
    Keeps f (x >>= g) := by
  intro s
  have h := hx s
  show f (Async.bind x g s).2 = f s
  unfold Async.bind
  rcases hr : x s with ⟨(_ | a) | _, s'⟩ <;> rw [hr] at h
  · exact h
  · exact (hg a s').trans h
  · exact h

/-- The error is not part of the state. -/
theorem mapErr {x : Async S ε α} (hx : Keeps f x) (g : ε → ε') : Keeps f (x.mapErr g) := by
  intro s
  have h := hx s
  unfold Async.mapErr
  rcases hr : x s with ⟨(_ | _) | _, s'⟩ <;> rw [hr] at h <;> exact h

/-- A timeout leaves the state where the operation had got to. -/
theorem io_with_timeout {x : Async S IoErr α} (hx : Keeps f x) (timeout : Nat) :
    Keeps f (io_with_timeout timeout x) := by
  intro s
  have h := hx s
  unfold OccamsRpc.io_with_timeout
  rcases hr : x s with ⟨_ | _, s'⟩ <;> rw [hr] at h
  · exact h
  · by_cases ht : timeout = 0 <;> simpa [ht] using h

/-- An operation on a part keeps what the part keeps, as long as putting the part back does.
-/
theorem zoom {x : Async S ε α} (hx : Keeps f x) {get : S' → S} {set : S' → S → S'} {g : S' → γ}
    (hset : ∀ s t, f t = f (get s) → g (set s t) = g s) : Keeps g (x.zoom get set) :=
  fun s => hset s _ (hx (get s))

end Async.Keeps

section
variable {S β : Type} {f : S → β}

/-- What one read keeps, the loop of `read_exact` keeps. -/
theorem AsyncRead.read_exact_keeps [AsyncRead S] (h : ∀ s len, f (AsyncRead.read s len).2 = f s)
    (len : Nat) :
    Async.Keeps f (AsyncRead.read_exact len : Async S IoErr Bytes) := by
  have hloop : ∀ fuel (s : S) len got, f (AsyncRead.read_exact_loop fuel s len got).2 = f s := by
    intro fuel
    induction fuel with
    | zero => exact fun _ _ _ => rfl
    | succ fuel ih =>
      intro s len got
      unfold AsyncRead.read_exact_loop
      have h := h s len
      rcases hr : AsyncRead.read s len with ⟨(e | bs) | _, s'⟩ <;> rw [hr] at h
      · by_cases hl : len = 0 <;> by_cases he : e = .Interrupted <;> simp_all
      · by_cases hl : len = 0 <;> by_cases hb : bs = [] <;> simp_all
      · by_cases hl : len = 0 <;> simp_all
  exact fun s => hloop _ s len []

/-- What one write keeps, the loop of `write_all` keeps. -/
theorem AsyncWrite.write_all_keeps [AsyncWrite S] (h : ∀ s buf, f (AsyncWrite.write s buf).2 = f s)
    (buf : Bytes) :
    Async.Keeps f (AsyncWrite.write_all buf : Async S IoErr Unit) := by
  have hloop : ∀ fuel (s : S) buf, f (AsyncWrite.write_all_loop fuel s buf).2 = f s := by
    intro fuel
    induction fuel with
    | zero => exact fun _ _ => rfl
    | succ fuel ih =>
      intro s buf
      unfold AsyncWrite.write_all_loop
      have h := h s buf
      rcases hr : AsyncWrite.write s buf with ⟨(e | n) | _, s'⟩ <;> rw [hr] at h
      · by_cases hl : buf = [] <;> by_cases he : e = .Interrupted <;> simp_all
      · by_cases hl : buf = [] <;> by_cases hn : n = 0 <;> simp_all
      · by_cases hl : buf = [] <;> simp_all
  exact fun s => hloop _ s buf

end

namespace Sock

/-- What the socket has yet to be read from. -/
def readHalf (s : Sock) : List ReadEv × Bytes := (s.reads, s.inbound)

/-- What has been written to it, and how it will take the rest. -/
def writeHalf (s : Sock) : List WriteEv × Bytes := (s.writes, s.sent)

/-- A read, also one that fails or stalls, does not touch what is written. -/
theorem read_keeps (s : Sock) (len : Nat) : (AsyncRead.read s len).2.writeHalf = s.writeHalf := by
  show (Sock.read s len).2.writeHalf = _
  unfold Sock.read
  split <;> rfl

/-- A write does not touch what is to be read. -/
theorem write_keeps (s : Sock) (buf : Bytes) :
    (AsyncWrite.write s buf).2.readHalf = s.readHalf := by
  show (Sock.write s buf).2.readHalf = _
  unfold Sock.write
  split <;> rfl

end Sock

namespace AsyncBufStream

/-- The buffer of the reading side with its half of the socket. -/
def readHalf (s : AsyncBufStream Sock) : AsyncBufRead × List ReadEv × Bytes :=
  (s.read_buf, s.inner.readHalf)

/-- The buffer of the writing side with its half of the socket. -/
def writeHalf (s : AsyncBufStream Sock) : AsyncBufWrite × List WriteEv × Bytes :=
  (s.write_buf, s.inner.writeHalf)

/-- A buffered read fills the read buffer only. -/
theorem read_keeps (s : AsyncBufStream Sock) (len : Nat) :
    (AsyncRead.read s len).2.writeHalf = s.writeHalf := by
  have hinner : (s.read_buf.read_buffered s.inner len).2.2.writeHalf = s.inner.writeHalf := by
    unfold AsyncBufRead.read_buffered
    split
    · rfl
    split
    · exact Sock.read_keeps _ _
    have h := Sock.read_keeps s.inner s.read_buf.buf.length
    rcases hr : AsyncRead.read s.inner s.read_buf.buf.length with ⟨(_ | _) | _, s'⟩ <;>
      rw [hr] at h <;> exact h
  exact congrArg (Prod.mk s.write_buf) hinner

/-- Flushing writes to the socket, and what is to be read stays. -/
theorem buf_flush_keeps (b : AsyncBufWrite) (writer : Sock) :
    (b.flush writer).2.2.readHalf = writer.readHalf := by
  unfold AsyncBufWrite.flush
  split
  · have h := AsyncWrite.write_all_keeps Sock.write_keeps (b.buf.take b.pos) writer
    rcases hr : AsyncWrite.write_all (b.buf.take b.pos) writer with ⟨(_ | _) | _, s'⟩ <;>
      rw [hr] at h <;> exact h
  · rfl

/-- A buffered write may flush, or go past the buffer; both are writes to the socket. -/
theorem write_keeps (s : AsyncBufStream Sock) (bs : Bytes) :
    (AsyncWrite.write s bs).2.readHalf = s.readHalf := by
  have hinner : (s.write_buf.write_buffered s.inner bs).2.2.readHalf = s.inner.readHalf := by
    have hflush := buf_flush_keeps s.write_buf s.inner
    unfold AsyncBufWrite.write_buffered
    by_cases hl : bs.length ≥ s.write_buf.buf.length
    · rw [if_pos hl]
      rcases hr : s.write_buf.flush s.inner with ⟨(_ | _) | _, b, w⟩ <;> rw [hr] at hflush
      · exact hflush
      · exact (Sock.write_keeps w bs).trans hflush
      · exact hflush
    · rw [if_neg hl]
      by_cases hroom : s.write_buf.buf.length - s.write_buf.pos < bs.length
      · simp only [hroom, if_true]
        rcases hr : s.write_buf.flush s.inner with ⟨(_ | _) | _, b, w⟩ <;> rw [hr] at hflush <;>
          exact hflush
      · simp only [hroom, if_false]
  exact congrArg (Prod.mk s.read_buf) hinner

theorem flush_keeps : Async.Keeps readHalf (flush : Async (AsyncBufStream Sock) IoErr Unit) :=
  fun s => congrArg (Prod.mk s.read_buf) (buf_flush_keeps s.write_buf s.inner)

end AsyncBufStream

end OccamsRpc
