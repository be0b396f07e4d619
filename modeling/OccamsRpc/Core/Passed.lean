import OccamsRpc.Core.Halves
import OccamsRpc.Core.Transfer
/-!
# What a write that succeeded has done

`Accepts` is about sockets that keep answering. Here nothing is asked of the
socket: when a call returns `Ok`, the bytes it was given are behind those of the
calls before it, in the buffer or in the socket, and after a flush that returns
`Ok` they are all in the socket.
-/

namespace OccamsRpc

/-! ## Code that returned `Ok` -/

/-- Started with `P`, the code ends with `Q` if it returns `Ok`. -/
def Async.Returns {S ε α : Type} (P : S → Prop) (x : Async S ε α) (Q : α → S → Prop) : Prop :=
  ∀ s a s', P s → x s = (.ready (.ok a), s') → Q a s'

namespace Async.Returns

variable {S S' ε α β : Type} {P P' : S → Prop} {Q Q' : α → S → Prop}

theorem pure {a : α} (h : ∀ s, P s → Q a s) : Returns P (pure a : Async S ε α) Q := by
  rintro s _ _ hs ⟨⟩
  exact h s hs

theorem weaken {x : Async S ε α} (h : Returns P x Q) (hp : ∀ s, P' s → P s)
    (hq : ∀ a s, Q a s → Q' a s) :
    Returns P' x Q' :=
  fun s a s' hs hr => hq a s' (h s a s' (hp s hs) hr)

theorem bind {x : Async S ε α} {f : α → Async S ε β} {R : β → S → Prop} (hx : Returns P x Q)
    (hf : ∀ a, Returns (Q a) (f a) R) : Returns P (x >>= f) R := by
  intro s b s' hs hr
  change Async.bind x f s = _ at hr
  unfold Async.bind at hr
  split at hr
  case h_1 a s₁ h₁ => exact hf a s₁ b s' (hx s a s₁ hs h₁) hr
  case h_2 => cases hr
  case h_3 => cases hr

theorem io_with_timeout {x : Async S IoErr α} (h : Returns P x Q) (timeout : Nat) :
    Returns P (io_with_timeout timeout x) Q := by
  intro s a s' hs hr
  unfold OccamsRpc.io_with_timeout at hr
  split at hr
  · split at hr <;> cases hr
  · exact h s a s' hs hr

theorem zoom {x : Async S ε α} {get : S' → S} {set : S' → S → S'} {R : S' → Prop}
    {U : α → S' → Prop} (h : Returns P x Q) (hp : ∀ s, R s → P (get s))
    (hq : ∀ s a t, R s → Q a t → U a (set s t)) :
    Returns R (x.zoom get set) U := by
  rintro s a _ hs hr
  obtain ⟨hx, rfl⟩ := Prod.mk.inj hr
  exact hq s a _ hs (h (get s) a _ (hp s hs) (Prod.ext hx rfl))

/-- An operation on a part of the state, under a timeout that the state holds. -/
theorem zoom_timeout {x : Async S IoErr α} {get : S' → S} {set : S' → S → S'} (h : Returns P x Q)
    (hset : ∀ s t, get (set s t) = t) (timeout : S' → Nat) :
    Returns (fun s => P (get s)) (fun s => (OccamsRpc.io_with_timeout (timeout s) x).zoom get set s)
      fun a s => Q a (get s) := by
  intro s a s' hs hr
  have hz : Returns (fun s => P (get s)) ((OccamsRpc.io_with_timeout (timeout s) x).zoom get set)
      fun a s => Q a (get s) :=
    (h.io_with_timeout _).zoom (fun _ hp => hp) fun s a t _ hq => by rwa [hset]
  exact hz s a s' hs hr

end Async.Returns

/-! ## Code that returns -/

/-- Started with `P`, the code returns. -/
def Async.Ends {S ε α : Type} (P : S → Prop) (x : Async S ε α) : Prop :=
  ∀ s, P s → (x s).1 ≠ .pending

namespace Async.Ends

variable {S S' ε ε' α β : Type} {P : S → Prop}

theorem pure (a : α) : Ends P (pure a : Async S ε α) := by
  rintro s _ ⟨⟩

theorem fail (e : ε) : Ends P (.fail e : Async S ε α) := by
  rintro s _ ⟨⟩

theorem bind {x : Async S ε α} {f : α → Async S ε β} (hx : Ends P x)
    (hp : Async.Returns P x fun _ => P) (hf : ∀ a, Ends P (f a)) : Ends P (x >>= f) := by
  intro s hs
  have hend := hx s hs
  show (Async.bind x f s).1 ≠ _
  unfold Async.bind
  rcases hr : x s with ⟨(_ | a) | _, s'⟩
  · rintro ⟨⟩
  · exact hf a s' (hp s a s' hs hr)
  · rw [hr] at hend
    exact absurd rfl hend

theorem mapErr {x : Async S ε α} (hx : Ends P x) (g : ε → ε') : Ends P (x.mapErr g) := by
  intro s hs
  have hend := hx s hs
  unfold Async.mapErr
  rcases hr : x s with ⟨(_ | _) | _, s'⟩
  · rintro ⟨⟩
  · rintro ⟨⟩
  · rw [hr] at hend
    exact absurd rfl hend

/-- With a timeout, an operation ends. -/
theorem io_with_timeout {timeout : Nat} (h : timeout ≠ 0) (x : Async S IoErr α) :
    Ends (fun _ => True) (io_with_timeout timeout x) := by
  intro s _
  unfold OccamsRpc.io_with_timeout
  rcases hr : x s with ⟨_ | _, s'⟩
  · rintro ⟨⟩
  · simp [h]

end Async.Ends

/-- What does not change is what it was when the code returns. -/
theorem Async.Keeps.returns {S ε α β : Type} {f : S → β} {x : Async S ε α} (h : Async.Keeps f x)
    (P : β → Prop) :
    Async.Returns (fun s => P (f s)) x fun _ s => P (f s) := by
  intro s a s' hs hr
  have hk := h s
  rw [hr] at hk
  rwa [hk]

/-! ## One call of `write` -/

/-- A `write` that returns `Ok(n)` has passed on `n` bytes, one that was
interrupted none. -/
structure Passes (S : Type) [AsyncWrite S] (Wf : S → Prop) (out : S → Bytes) : Prop where
  ok : ∀ s buf n s', Wf s → AsyncWrite.write s buf = (.ready (.ok n), s') →
    Wf s' ∧ out s' = out s ++ buf.take n
  interrupted : ∀ s buf s', Wf s → AsyncWrite.write s buf = (.ready (.error .Interrupted), s') →
    Wf s' ∧ out s' = out s

section
variable {S : Type} [AsyncWrite S] {Wf : S → Prop} {out : S → Bytes}

/-- The bytes passed on so far are `o`. -/
def Passed (Wf : S → Prop) (out : S → Bytes) (o : Bytes) (s : S) : Prop := Wf s ∧ out s = o

theorem Passes.write_all_loop (h : Passes S Wf out) (fuel : Nat) (s : S) (buf : Bytes) {s' : S}
    (hs : Wf s) (hr : AsyncWrite.write_all_loop fuel s buf = (.ready (.ok ()), s')) :
    Wf s' ∧ out s' = out s ++ buf := by
  induction fuel generalizing s buf with
  | zero => cases hr
  | succ fuel ih =>
    rw [AsyncWrite.write_all_loop] at hr
    split at hr
    case isTrue h0 =>
      cases hr
      exact ⟨hs, by rw [h0, List.append_nil]⟩
    case isFalse h0 =>
      split at hr
      case h_1 => cases hr
      case h_2 n s₁ hw =>
        obtain ⟨hs₁, ho₁⟩ := h.ok s buf n s₁ hs hw
        split at hr
        · cases hr
        · obtain ⟨hs', ho'⟩ := ih s₁ (buf.drop n) hs₁ hr
          exact ⟨hs', by rw [ho', ho₁, List.append_assoc, List.take_append_drop]⟩
      case h_3 e s₁ hw =>
        split at hr
        case isTrue he =>
          subst he
          obtain ⟨hs₁, ho₁⟩ := h.interrupted s buf s₁ hs hw
          obtain ⟨hs', ho'⟩ := ih s₁ buf hs₁ hr
          exact ⟨hs', by rw [ho', ho₁]⟩
        case isFalse => cases hr

theorem Passes.write_all (h : Passes S Wf out) (o buf : Bytes) :
    Async.Returns (Passed Wf out o) (AsyncWrite.write_all buf) fun _ => Passed Wf out (o ++ buf) := by
  rintro s _ s' ⟨hs, rfl⟩ hr
  exact h.write_all_loop _ s buf hs hr

/-- `write_all` does not give up when it is interrupted. -/
theorem AsyncWrite.write_all_error {s s' : S} {buf : Bytes} {e : IoErr}
    (hr : AsyncWrite.write_all buf s = (.ready (.error e), s')) : e ≠ .Interrupted := by
  have hloop : ∀ fuel (s : S) buf, write_all_loop fuel s buf = (.ready (.error e), s') →
      e ≠ .Interrupted := by
    intro fuel
    induction fuel with
    | zero =>
      intro s buf hr
      cases hr
    | succ fuel ih =>
      intro s buf hr
      rw [write_all_loop] at hr
      split at hr
      · cases hr
      · split at hr
        · cases hr
        · split at hr
          · cases hr
            rintro ⟨⟩
          · exact ih _ _ hr
        · split at hr
          · exact ih _ _ hr
          · cases hr
            assumption
  exact hloop _ s buf hr

end

theorem Sock.passes : Passes Sock (fun _ => True) Sock.sent where
  ok := by
    rintro ⟨reads, inbound, writes, sent⟩ buf n s' - h
    rcases writes with _ | ⟨_ | _ | _, writes⟩ <;> cases h
    exact ⟨trivial, by rw [← List.take_eq_take_min]⟩
  interrupted := by
    rintro ⟨reads, inbound, writes, sent⟩ buf s' - h
    rcases writes with _ | ⟨_ | _ | _, writes⟩ <;> cases h
    exact ⟨trivial, rfl⟩

/-! ## A buffer over a socket -/

namespace AsyncBufStream

section
variable {T : Type}

def Wf (Wf : T → Prop) (s : AsyncBufStream T) : Prop := s.write_buf.Wf ∧ Wf s.inner

/-- Nothing is in the write buffer. -/
def Flushed (s : AsyncBufStream T) : Prop := s.write_buf.pos = 0

/-- The bytes the stream was given so far are `o`. -/
def Took [AsyncWrite T] (Wf : T → Prop) (out : T → Bytes) (o : Bytes) : AsyncBufStream T → Prop :=
  Passed (AsyncBufStream.Wf Wf) (AsyncBufStream.out out) o

theorem Flushed.out_eq {s : AsyncBufStream T} (h : s.Flushed) (out : T → Bytes) :
    s.out out = out s.inner := by
  have hpos : s.write_buf.pos = 0 := h
  simp [AsyncBufStream.out, AsyncBufWrite.held, hpos]

end

variable {T : Type} [AsyncWrite T] {Wf : T → Prop} {out : T → Bytes}

theorem flush_buffer_ok (h : Passes T Wf out) {b b' : AsyncBufWrite} {w w' : T} (hb : b.Wf)
    (hw : Wf w) (hr : b.flush w = (.ready (.ok ()), b', w')) :
    b' = { b with pos := 0 } ∧ Wf w' ∧ out w' = out w ++ b.held := by
  unfold AsyncBufWrite.flush at hr
  split at hr
  case isTrue hpos =>
    split at hr
    case h_1 w₁ h₁ =>
      cases hr
      obtain ⟨hw', ho⟩ := h.write_all (out w) (b.buf.take b.pos) w () _ ⟨hw, rfl⟩ h₁
      exact ⟨rfl, hw', ho⟩
    case h_2 r w₁ hne h₁ =>
      obtain ⟨rfl, -⟩ := Prod.mk.inj hr
      exact absurd rfl hne
  case isFalse hpos =>
    cases hr
    have h0 : b.pos = 0 := by omega
    refine ⟨?_, hw, by simp [AsyncBufWrite.held, h0]⟩
    cases b
    cases h0
    rfl

theorem flush_buffer_error {b b' : AsyncBufWrite} {w w' : T} {e : IoErr}
    (hr : b.flush w = (.ready (.error e), b', w')) : e ≠ .Interrupted := by
  unfold AsyncBufWrite.flush at hr
  split at hr
  · split at hr
    · cases hr
    · obtain ⟨rfl, hr⟩ := Prod.mk.inj hr
      exact AsyncWrite.write_all_error ‹_›
  · cases hr

/-- The two ways a buffered write gets past its flush: `b₁` and `w₁` are what the
flush, or no flush, left. -/
theorem write_buffered_cases (h : Passes T Wf out) {b b' : AsyncBufWrite} {w w' : T} {bs : Bytes}
    {r : Except IoErr Nat} (hb : b.Wf) (hw : Wf w)
    (hr : b.write_buffered w bs = (.ready r, b', w')) :
    (∃ e, r = .error e ∧ e ≠ .Interrupted) ∨
    ∃ b₁ w₁, b₁.Wf ∧ Wf w₁ ∧ out w₁ ++ b₁.held = out w ++ b.held ∧
      (b₁.pos = 0 ∧ b' = b₁ ∧ AsyncWrite.write w₁ bs = (.ready r, w') ∨
        b₁.pos + bs.length ≤ b₁.buf.length ∧ r = .ok bs.length ∧ b' = b₁.push bs ∧ w' = w₁) := by
  have hflushed {b₁ : AsyncBufWrite} {w₁ : T} (hf : b.flush w = (.ready (.ok ()), b₁, w₁)) :
      b₁.pos = 0 ∧ b₁.buf.length = b.buf.length ∧ b₁.Wf ∧ Wf w₁ ∧
        out w₁ ++ b₁.held = out w ++ b.held := by
    obtain ⟨rfl, hw₁, ho⟩ := flush_buffer_ok h hb hw hf
    exact ⟨rfl, rfl, ⟨Nat.zero_le _, hb.capacity_pos⟩, hw₁, by simp [AsyncBufWrite.held] at ho ⊢; exact ho⟩
  unfold AsyncBufWrite.write_buffered at hr
  split at hr
  case isTrue hbig =>
    split at hr
    case h_1 => cases hr
    case h_2 e _ _ hf =>
      cases hr
      exact .inl ⟨e, rfl, flush_buffer_error hf⟩
    case h_3 b₁ w₁ hf =>
      obtain ⟨h0, -, hb₁, hw₁, ho⟩ := hflushed hf
      obtain ⟨hr₁, hr₂⟩ := Prod.mk.inj hr
      obtain ⟨rfl, rfl⟩ := Prod.mk.inj hr₂
      exact .inr ⟨_, w₁, hb₁, hw₁, ho, .inl ⟨h0, rfl, Prod.ext hr₁ rfl⟩⟩
  case isFalse hbig =>
    dsimp only at hr
    generalize hf :
      (if b.buf.length - b.pos < bs.length then b.flush w else (.ready (.ok ()), b, w)) = x at hr
    split at hr
    case h_1 => cases hr
    case h_2 e _ _ =>
      split at hf
      · cases hr
        exact .inl ⟨e, rfl, flush_buffer_error hf⟩
      · cases hf
    case h_3 b₁ w₁ =>
      cases hr
      split at hf
      case isTrue =>
        obtain ⟨h0, hlen, hb₁, hw₁, ho⟩ := hflushed hf
        exact .inr ⟨b₁, w', hb₁, hw₁, ho, .inr ⟨by omega, rfl, rfl, rfl⟩⟩
      case isFalse hfit =>
        cases hf
        have hpos := hb.pos_le
        exact .inr ⟨b, w, hb, hw, rfl, .inr ⟨by omega, rfl, rfl, rfl⟩⟩

theorem write_parts {s s' : AsyncBufStream T} {bs : Bytes} {r : Poll (Except IoErr Nat)}
    (hr : AsyncWrite.write s bs = (r, s')) :
    s.write_buf.write_buffered s.inner bs = (r, s'.write_buf, s'.inner) := by
  obtain ⟨rfl, rfl⟩ := Prod.mk.inj hr
  rfl

theorem flush_parts {s s' : AsyncBufStream T} {r : Poll (Except IoErr Unit)}
    (hr : flush s = (r, s')) :
    s.write_buf.flush s.inner = (r, s'.write_buf, s'.inner) := by
  obtain ⟨rfl, rfl⟩ := Prod.mk.inj hr
  rfl

/-- A buffered writer passes on what it holds, then what it is given. -/
theorem passes (h : Passes T Wf out) :
    Passes (AsyncBufStream T) (AsyncBufStream.Wf Wf) (AsyncBufStream.out out) where
  ok := by
    rintro s bs n s' ⟨hb, hw⟩ hr
    simp only [AsyncBufStream.Wf, AsyncBufStream.out]
    rcases write_buffered_cases h hb hw (write_parts hr) with
      ⟨e, he, -⟩ | ⟨b₁, w₁, hb₁, hw₁, ho, ⟨h0, hb', hwr⟩ | ⟨hfit, hn, hb', hw'⟩⟩
    · cases he
    · obtain ⟨hw', ho'⟩ := h.ok w₁ bs n s'.inner hw₁ hwr
      have hheld : b₁.held = [] := by simp [AsyncBufWrite.held, h0]
      rw [hheld, List.append_nil] at ho
      rw [hb', hheld, List.append_nil, ho', ho]
      exact ⟨⟨hb₁, hw'⟩, rfl⟩
    · cases hn
      rw [hb', hw', held_push hb₁.pos_le, ← List.append_assoc, ho, List.take_length]
      exact ⟨⟨push_wf hb₁ hfit, hw₁⟩, rfl⟩
  interrupted := by
    rintro s bs s' ⟨hb, hw⟩ hr
    simp only [AsyncBufStream.Wf, AsyncBufStream.out]
    rcases write_buffered_cases h hb hw (write_parts hr) with
      ⟨e, he, hne⟩ | ⟨b₁, w₁, hb₁, hw₁, ho, ⟨h0, hb', hwr⟩ | ⟨-, hn, -⟩⟩
    · cases he
      exact absurd rfl hne
    · obtain ⟨hw', ho'⟩ := h.interrupted w₁ bs s'.inner hw₁ hwr
      rw [hb', ho', ho]
      exact ⟨⟨hb₁, hw'⟩, rfl⟩
    · cases hn

/-- After a flush everything is in the socket. -/
theorem flush_returns (h : Passes T Wf out) (o : Bytes) :
    Async.Returns (Took Wf out o) flush fun _ s => s.Took Wf out o ∧ s.Flushed := by
  rintro s _ s' ⟨⟨hb, hw⟩, rfl⟩ hr
  obtain ⟨hb', hw', ho⟩ := flush_buffer_ok h hb hw (flush_parts hr)
  have hflushed : s'.Flushed := by rw [Flushed, hb']
  refine ⟨⟨⟨?_, hw'⟩, ?_⟩, hflushed⟩
  · rw [hb']
    exact ⟨Nat.zero_le _, hb.capacity_pos⟩
  · rw [hflushed.out_eq, ho]
    rfl

end AsyncBufStream

end OccamsRpc
