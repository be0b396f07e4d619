import OccamsRpc.Core.Error
/-!
# Buffered I/O

`AsyncRead`, `AsyncWrite` and `AsyncBufStream` of `core/src/io/buf_io.rs`. A
socket is a script: what it answers to each `read` or `write`, one event a call.
A call that is left without an answer is `pending`; what the stream holds then
is what a cancelled future leaves behind.
-/

namespace OccamsRpc

/-- `Poll` of `std::task`. -/
inductive Poll (α : Type) where
  | ready (a : α)
  | pending
  deriving DecidableEq, Repr

/-- The kinds of `io::Error` that are told apart. -/
inductive IoErr
  | Interrupted
  | UnexpectedEof
  | WriteZero
  | TimedOut
  | OutOfMemory
  | Other
  deriving DecidableEq, Repr

/-! ## Fallible asynchronous code -/

/-- An `async fn` that returns a `Result`, run on the state `S` until it returns
or is left waiting. -/
def Async (S ε α : Type) : Type := S → Poll (Except ε α) × S

namespace Async

variable {S S' ε ε' α β : Type}

/-- `.await?` -/
def bind (x : Async S ε α) (f : α → Async S ε β) : Async S ε β := fun s =>
  match x s with
  | (.ready (.ok a), s) => f a s
  | (.ready (.error e), s) => (.ready (.error e), s)
  | (.pending, s) => (.pending, s)

instance : Monad (Async S ε) where
  pure a := fun s => (.ready (.ok a), s)
  bind := bind

/-- `return Err(e)` -/
def fail (e : ε) : Async S ε α := fun s => (.ready (.error e), s)

/-- `map_err(f)` -/
def mapErr (f : ε → ε') (x : Async S ε α) : Async S ε' α := fun s =>
  match x s with
  | (.ready (.ok a), s) => (.ready (.ok a), s)
  | (.ready (.error e), s) => (.ready (.error (f e)), s)
  | (.pending, s) => (.pending, s)

/-- Code on a part of the state. -/
def zoom (get : S' → S) (set : S' → S → S') (x : Async S ε α) : Async S' ε α := fun s =>
  ((x (get s)).1, set s (x (get s)).2)

@[simp] theorem pure_apply (a : α) (s : S) : (pure a : Async S ε α) s = (.ready (.ok a), s) := rfl

theorem bind_ok {x : Async S ε α} {s s' : S} {a : α} (h : x s = (.ready (.ok a), s'))
    (f : α → Async S ε β) :
    (x >>= f) s = f a s' := by
  show bind x f s = _
  simp only [bind, h]

/-- What returned a value did so in two parts. -/
theorem bind_eq_ok {x : Async S ε α} {f : α → Async S ε β} {s s'' : S} {b : β}
    (h : (x >>= f) s = (.ready (.ok b), s'')) :
    ∃ a s', x s = (.ready (.ok a), s') ∧ f a s' = (.ready (.ok b), s'') := by
  change bind x f s = _ at h
  rcases hx : x s with ⟨(e | a) | _, s'⟩ <;> simp only [bind, hx] at h
  · cases h
  · exact ⟨a, s', rfl, h⟩
  · cases h

theorem mapErr_ok {x : Async S ε α} {s s' : S} {a : α} (h : x s = (.ready (.ok a), s'))
    (f : ε → ε') :
    mapErr f x s = (.ready (.ok a), s') := by
  simp only [mapErr, h]

theorem mapErr_eq_ok {x : Async S ε α} {f : ε → ε'} {s s' : S} {a : α}
    (h : mapErr f x s = (.ready (.ok a), s')) : x s = (.ready (.ok a), s') := by
  rcases hx : x s with ⟨(e | b) | _, s₁⟩ <;> simp only [mapErr, hx] at h <;> cases h
  rfl

/-- Whatever it is run on, it does not end with the error `e`. -/
def Avoids (e : ε) (x : Async S ε α) : Prop := ∀ s, (x s).1 ≠ .ready (.error e)

theorem Avoids.pure {e : ε} (a : α) : Avoids e (Pure.pure a : Async S ε α) := by
  rintro s ⟨⟩

theorem Avoids.bind {e : ε} {x : Async S ε α} {f : α → Async S ε β} (hx : Avoids e x)
    (hf : ∀ a, Avoids e (f a)) :
    Avoids e (x >>= f) := by
  intro s h
  have hs := hx s
  change (Async.bind x f s).1 = _ at h
  rcases hx : x s with ⟨(e' | a) | _, s'⟩ <;> simp only [Async.bind, hx] at h hs
  · cases h
    exact hs rfl
  · exact hf a s' h
  · cases h

end Async

/-! ## The traits -/

/-- `read s len` reads at most `len` bytes; none at the end of the stream. -/
class AsyncRead (S : Type) where
  read : S → Nat → Poll (Except IoErr Bytes) × S
  /-- How many more answers the socket has. -/
  budget : S → Nat

/-- `write s buf` writes some of `buf`, and says how many bytes. -/
class AsyncWrite (S : Type) where
  write : S → Bytes → Poll (Except IoErr Nat) × S
  budget : S → Nat

section
variable {S : Type}

/-- An interrupted read is tried again, and the end of the stream is an error. -/
def AsyncRead.read_exact_loop [AsyncRead S] : Nat → S → Nat → Bytes → Poll (Except IoErr Bytes) × S
  | 0, s, _, _ => (.pending, s)
  | fuel + 1, s, len, got =>
    if len = 0 then (.ready (.ok got), s)
    else
      match AsyncRead.read s len with
      | (.pending, s) => (.pending, s)
      | (.ready (.ok bs), s) =>
        if bs = [] then (.ready (.error .UnexpectedEof), s)
        else read_exact_loop fuel s (len - bs.length) (got ++ bs)
      | (.ready (.error e), s) =>
        if e = .Interrupted then read_exact_loop fuel s len got else (.ready (.error e), s)

/-- Every pass of the loop gets a byte or uses up an answer of the socket, so
this many passes are enough. -/
def AsyncRead.read_exact [AsyncRead S] (len : Nat) : Async S IoErr Bytes := fun s =>
  read_exact_loop (AsyncRead.budget s + len + 1) s len []

/-- An interrupted write is tried again, and a write of nothing is an error. -/
def AsyncWrite.write_all_loop [AsyncWrite S] : Nat → S → Bytes → Poll (Except IoErr Unit) × S
  | 0, s, _ => (.pending, s)
  | fuel + 1, s, buf =>
    if buf = [] then (.ready (.ok ()), s)
    else
      match AsyncWrite.write s buf with
      | (.pending, s) => (.pending, s)
      | (.ready (.ok n), s) =>
        if n = 0 then (.ready (.error .WriteZero), s) else write_all_loop fuel s (buf.drop n)
      | (.ready (.error e), s) =>
        if e = .Interrupted then write_all_loop fuel s buf else (.ready (.error e), s)

def AsyncWrite.write_all [AsyncWrite S] (buf : Bytes) : Async S IoErr Unit := fun s =>
  write_all_loop (AsyncWrite.budget s + buf.length + 1) s buf

/-- `io_with_timeout!`: an operation left without an answer ends when the
timeout (none if it is 0) does. -/
def io_with_timeout {α : Type} (timeout : Nat) (x : Async S IoErr α) : Async S IoErr α := fun s =>
  match x s with
  | (.pending, s) => if timeout = 0 then (.pending, s) else (.ready (.error .TimedOut), s)
  | r => r

theorem io_with_timeout_eq_ok {α : Type} {timeout : Nat} {x : Async S IoErr α} {s s' : S} {a : α}
    (h : io_with_timeout timeout x s = (.ready (.ok a), s')) : x s = (.ready (.ok a), s') := by
  rcases hx : x s with ⟨(e | b) | _, s₁⟩ <;> simp only [io_with_timeout, hx] at h
  · cases h
  · exact h
  · split at h <;> cases h

theorem io_with_timeout_ok {α : Type} {timeout : Nat} {x : Async S IoErr α} {s s' : S} {a : α}
    (h : x s = (.ready (.ok a), s')) : io_with_timeout timeout x s = (.ready (.ok a), s') := by
  simp only [io_with_timeout, h]

end

/-! ## The socket -/

/-- The answer to one `read`: up to `n` of the bytes to come, nothing yet, or an
error. -/
inductive ReadEv
  | chunk (n : Nat)
  | stall
  | fail (e : IoErr)
  deriving DecidableEq

/-- The answer to one `write`. -/
inductive WriteEv
  | accept (n : Nat)
  | stall
  | fail (e : IoErr)
  deriving DecidableEq

/-- A socket with what it will do: each read and each write takes the next event. -/
structure Sock where
  reads : List ReadEv
  /-- The bytes still to be read, up to the end of the stream. -/
  inbound : Bytes
  writes : List WriteEv
  sent : Bytes

namespace Sock

/-- Without events left the socket stalls. An empty read is the end of the stream. -/
def read (s : Sock) (len : Nat) : Poll (Except IoErr Bytes) × Sock :=
  match s.reads with
  | [] => (.pending, s)
  | .stall :: evs => (.pending, { s with reads := evs })
  | .fail e :: evs => (.ready (.error e), { s with reads := evs })
  | .chunk n :: evs =>
    (.ready (.ok (s.inbound.take (min n len))),
      { s with reads := evs, inbound := s.inbound.drop (min n len) })

/-- The socket takes as much as it likes of what is offered. -/
def write (s : Sock) (buf : Bytes) : Poll (Except IoErr Nat) × Sock :=
  match s.writes with
  | [] => (.pending, s)
  | .stall :: evs => (.pending, { s with writes := evs })
  | .fail e :: evs => (.ready (.error e), { s with writes := evs })
  | .accept n :: evs =>
    (.ready (.ok (min n buf.length)), { s with writes := evs, sent := s.sent ++ buf.take n })

/-- More bytes come, and more answers to reads. -/
def feed (s : Sock) (bs : Bytes) (evs : List ReadEv) : Sock :=
  { s with inbound := s.inbound ++ bs, reads := s.reads ++ evs }

instance : AsyncRead Sock := ⟨read, fun s => s.reads.length⟩

instance : AsyncWrite Sock := ⟨write, fun s => s.writes.length⟩

end Sock

/-! ## Buffers -/

/-- The bytes from `pos` to `cap` have been read and not handed out. -/
structure AsyncBufRead where
  buf : Bytes
  pos : Nat
  cap : Nat

/-- The first `pos` bytes are not yet written. -/
structure AsyncBufWrite where
  buf : Bytes
  pos : Nat

section
variable {T : Type}

def AsyncBufRead.new (capacity : Nat) : AsyncBufRead := ⟨List.replicate capacity 0, 0, 0⟩

/-- What is in the buffer comes first. A read as long as the buffer goes past it. -/
def AsyncBufRead.read_buffered [AsyncRead T] (b : AsyncBufRead) (reader : T) (len : Nat) :
    Poll (Except IoErr Bytes) × AsyncBufRead × T :=
  if b.pos < b.cap then
    let n := min len (b.cap - b.pos)
    (.ready (.ok ((b.buf.drop b.pos).take n)), { b with pos := b.pos + n }, reader)
  else if len ≥ b.buf.length then
    let (r, reader) := AsyncRead.read reader len
    (r, b, reader)
  else
    match AsyncRead.read reader b.buf.length with
    | (.pending, reader) => (.pending, b, reader)
    | (.ready (.error e), reader) => (.ready (.error e), b, reader)
    | (.ready (.ok bs), reader) =>
      let buf := bs ++ b.buf.drop bs.length
      let n := min len bs.length
      (.ready (.ok (buf.take n)), { buf := buf, pos := n, cap := bs.length }, reader)

def AsyncBufWrite.new (capacity : Nat) : AsyncBufWrite := ⟨List.replicate capacity 0, 0⟩

/-- When the write fails, the buffer keeps all of its bytes, also those that were written.
-/
def AsyncBufWrite.flush [AsyncWrite T] (b : AsyncBufWrite) (writer : T) :
    Poll (Except IoErr Unit) × AsyncBufWrite × T :=
  if b.pos > 0 then
    match AsyncWrite.write_all (b.buf.take b.pos) writer with
    | (.ready (.ok ()), writer) => (.ready (.ok ()), { b with pos := 0 }, writer)
    | (r, writer) => (r, b, writer)
  else (.ready (.ok ()), b, writer)

/-- The copy into the buffer, behind what it holds. -/
def AsyncBufWrite.push (b : AsyncBufWrite) (bs : Bytes) : AsyncBufWrite where
  buf := b.buf.take b.pos ++ bs ++ b.buf.drop (b.pos + bs.length)
  pos := b.pos + bs.length

/-- A write as long as the buffer goes past it, after a flush. -/
def AsyncBufWrite.write_buffered [AsyncWrite T] (b : AsyncBufWrite) (writer : T) (bs : Bytes) :
    Poll (Except IoErr Nat) × AsyncBufWrite × T :=
  if bs.length ≥ b.buf.length then
    match b.flush writer with
    | (.pending, b, writer) => (.pending, b, writer)
    | (.ready (.error e), b, writer) => (.ready (.error e), b, writer)
    | (.ready (.ok ()), b, writer) =>
      let (r, writer) := AsyncWrite.write writer bs
      (r, b, writer)
  else
    let flushed := if b.buf.length - b.pos < bs.length
      then b.flush writer else (.ready (.ok ()), b, writer)
    match flushed with
    | (.pending, b, writer) => (.pending, b, writer)
    | (.ready (.error e), b, writer) => (.ready (.error e), b, writer)
    | (.ready (.ok ()), b, writer) => (.ready (.ok bs.length), b.push bs, writer)

/-- A stream with a buffer for each direction. -/
structure AsyncBufStream (T : Type) where
  read_buf : AsyncBufRead
  write_buf : AsyncBufWrite
  inner : T

namespace AsyncBufStream

def new (stream : T) (buf_size : Nat) : AsyncBufStream T := ⟨.new buf_size, .new buf_size, stream⟩

/-- Its socket is fed. -/
def feed (s : AsyncBufStream Sock) (bs : Bytes) (evs : List ReadEv) : AsyncBufStream Sock :=
  { s with inner := s.inner.feed bs evs }

def flush [AsyncWrite T] : Async (AsyncBufStream T) IoErr Unit := fun s =>
  let (r, b, inner) := s.write_buf.flush s.inner
  (r, { s with write_buf := b, inner := inner })

instance [AsyncRead T] : AsyncRead (AsyncBufStream T) where
  read s len :=
    let (r, b, inner) := s.read_buf.read_buffered s.inner len
    (r, { s with read_buf := b, inner := inner })
  budget s := AsyncRead.budget s.inner

instance [AsyncWrite T] : AsyncWrite (AsyncBufStream T) where
  write s bs :=
    let (r, b, inner) := s.write_buf.write_buffered s.inner bs
    (r, { s with write_buf := b, inner := inner })
  budget s := AsyncWrite.budget s.inner

end AsyncBufStream

end

end OccamsRpc
