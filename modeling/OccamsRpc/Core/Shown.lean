import OccamsRpc.Core.FlushCut
/-!
# What the peer has seen

A write that fails, or that a timeout gives up, may have passed on some of its
bytes. Whatever happens, what is in the socket is a first part of what the stream
was given.
-/

namespace OccamsRpc

/-! ## Code that ends in any way -/

/-- Started with `P`, the code leaves `R`, whether it returns, fails or is left
waiting. -/
def Async.Leaves {S ε α : Type} (P : S → Prop) (x : Async S ε α) (R : S → Prop) : Prop :=
  ∀ s, P s → R (x s).2

namespace Async.Leaves

variable {S S' ε α β : Type} {P : S → Prop} {R : S → Prop}

theorem pure {a : α} (h : ∀ s, P s → R s) : Leaves P (pure a : Async S ε α) R := h

theorem weaken {x : Async S ε α} {P' R' : S → Prop} (h : Leaves P x R) (hp : ∀ s, P' s → P s)
    (hr : ∀ s, R s → R' s) :
    Leaves P' x R' :=
  fun s hs => hr _ (h s (hp s hs))

theorem bind {x : Async S ε α} {f : α → Async S ε β} {Q : α → S → Prop} (hx : Leaves P x R)
    (hq : Returns P x Q) (hf : ∀ a, Leaves (Q a) (f a) R) : Leaves P (x >>= f) R := by
  intro s hs
  have hleft := hx s hs
  show R (Async.bind x f s).2
  unfold Async.bind
  rcases hr : x s with ⟨(_ | a) | _, s'⟩ <;> rw [hr] at hleft
  · exact hleft
  · exact hf a s' (hq s a s' hs hr)
  · exact hleft

/-- An operation on a part of the state, under a timeout that the state holds. -/
theorem zoom_timeout {x : Async S IoErr α} {get : S' → S} {set : S' → S → S'} (h : Leaves P x R)
    (hset : ∀ s t, get (set s t) = t) (timeout : S' → Nat) :
    Leaves (fun s => P (get s)) (fun s => (io_with_timeout (timeout s) x).zoom get set s)
      fun s => R (get s) := by
  intro s hs
  have hleft := h (get s) hs
  show R (get (set s (io_with_timeout (timeout s) x (get s)).2))
  rw [hset]
  unfold io_with_timeout
  rcases hr : x (get s) with ⟨_ | _, s'⟩ <;> rw [hr] at hleft
  · exact hleft
  · by_cases ht : timeout s = 0 <;> simpa [ht] using hleft

end Async.Leaves

/-! ## One call of `write` -/

/-- Of the bytes that the stream was given, those that are `shown` come first; a
`write` that does not return `Ok` shows none of its own. -/
structure Shows (S : Type) [AsyncWrite S] (Wf : S → Prop) (out shown : S → Bytes) :
    Prop extends Passes S Wf out where
  first : ∀ s, Wf s → shown s <+: out s
  other : ∀ s buf r s', Wf s → AsyncWrite.write s buf = (r, s') → (∀ n, r ≠ .ready (.ok n)) →
    shown s' <+: out s

section
variable {S : Type} [AsyncWrite S] {Wf : S → Prop} {out shown : S → Bytes}

theorem Shows.write_all_loop (h : Shows S Wf out shown) (fuel : Nat) (s : S) (buf : Bytes)
    (hs : Wf s) :
    shown (AsyncWrite.write_all_loop fuel s buf).2 <+: out s ++ buf := by
  have hfirst : shown s <+: out s ++ buf := (h.first s hs).trans (List.prefix_append _ _)
  induction fuel generalizing s buf with
  | zero => exact hfirst
  | succ fuel ih =>
    rw [AsyncWrite.write_all_loop]
    split
    · exact hfirst
    · split
      case h_1 s₁ hw => exact (h.other s buf _ s₁ hs hw (by rintro _ ⟨⟩)).trans (List.prefix_append _ _)
      case h_2 n s₁ hw =>
        obtain ⟨hs₁, ho⟩ := h.ok s buf n s₁ hs hw
        have hsplit : out s₁ ++ buf.drop n = out s ++ buf := by
          rw [ho, List.append_assoc, List.take_append_drop]
        have hfirst₁ :
            shown s₁ <+: out s₁ ++ buf.drop n := (h.first s₁ hs₁).trans (List.prefix_append _ _)
        split
        · rwa [hsplit] at hfirst₁
        · have hrest := ih s₁ (buf.drop n) hs₁ hfirst₁
          rwa [hsplit] at hrest
      case h_3 e s₁ hw =>
        split
        case isTrue he =>
          subst he
          obtain ⟨hs₁, ho⟩ := h.interrupted s buf s₁ hs hw
          rw [← ho]
          exact ih s₁ buf hs₁ ((h.first s₁ hs₁).trans (List.prefix_append _ _))
        case isFalse => exact (h.other s buf _ s₁ hs hw (by rintro _ ⟨⟩)).trans (List.prefix_append _ _)

theorem Shows.write_all (h : Shows S Wf out shown) (o buf : Bytes) :
    Async.Leaves (Passed Wf out o) (AsyncWrite.write_all buf) fun s => shown s <+: o ++ buf := by
  rintro s ⟨hs, rfl⟩
  exact h.write_all_loop _ s buf hs

theorem Exact.shows (h : Exact S out) : Shows S (fun _ => True) out out where
  toPasses := h.passes
  first _ _ := List.prefix_rfl
  other s buf r s' _ hw hne := by
    simp only [h.other s buf r s' hw hne, List.prefix_rfl]

end

/-! ## A buffer over a socket -/

namespace AsyncBufStream

variable {T : Type} [AsyncWrite T] {out : T → Bytes}

/-- A flush of the buffer, however it ends. -/
theorem flush_buffer_shows (h : Exact T out) {b b' : AsyncBufWrite} {w w' : T} (hb : b.Wf)
    {r : Poll (Except IoErr Unit)} (hr : b.flush w = (r, b', w')) : out w' <+: out w ++ b.held := by
  rcases AsyncBufWrite.flush_left hr with ⟨rfl, -⟩ | ⟨-, -, hall⟩
  · simp only [(flush_buffer_ok h.passes hb trivial hr).2.2, List.prefix_rfl]
  · have hleft := h.shows.write_all (out w) b.held w ⟨trivial, rfl⟩
    rwa [hall] at hleft

theorem shows (h : Exact T out) :
    Shows (AsyncBufStream T) (Wf fun _ => True) (AsyncBufStream.out out) fun s => out s.inner where
  toPasses := passes h.passes
  first s _ := List.prefix_append _ _
  other s buf r s' hs hw hne := by
    have hparts := write_parts hw
    have hfail {r₁ : Poll (Except IoErr Unit)} {b₁ : AsyncBufWrite} {w₁ : T}
        (hf : s.write_buf.flush s.inner = (r₁, b₁, w₁)) : out w₁ <+: AsyncBufStream.out out s :=
      flush_buffer_shows h hs.1 hf
    unfold AsyncBufWrite.write_buffered at hparts
    split at hparts
    · split at hparts
      case h_1 hf | h_2 hf =>
        cases hparts
        exact hfail hf
      case h_3 b₁ w₁ hf =>
        -- the buffer is out, and the write past it showed nothing
        obtain ⟨hr₁, hr₂⟩ := Prod.mk.inj hparts
        obtain ⟨-, hinner⟩ := Prod.mk.inj hr₂
        have hsame := h.other w₁ buf r _ (Prod.ext hr₁ hinner) hne
        show out s'.inner <+: _
        rw [hsame]
        exact hfail hf
    · dsimp only at hparts
      generalize hf :
        (if s.write_buf.buf.length - s.write_buf.pos < buf.length then s.write_buf.flush s.inner
        else (.ready (.ok ()), s.write_buf, s.inner)) = x at hparts
      split at hparts
      case h_1 | h_2 =>
        cases hparts
        split at hf
        · exact hfail hf
        · cases hf
      case h_3 =>
        obtain ⟨rfl, -⟩ := Prod.mk.inj hparts
        exact absurd rfl (hne _)

theorem flush_leaves (h : Exact T out) (o : Bytes) :
    Async.Leaves (Took (fun _ => True) out o) flush fun s => out s.inner <+: o := by
  rintro s ⟨hs, rfl⟩
  rcases hf : s.write_buf.flush s.inner with ⟨r, b, w⟩
  simp only [flush, hf]
  exact flush_buffer_shows h hs.1 hf

end AsyncBufStream

end OccamsRpc
