import OccamsRpc.Core.Passed
/-!
# The write buffer and the stream of bytes

Over any number of `write_all` and `flush` calls the inner writer has been given,
with what is still in the buffer, the bytes that were submitted, in their order,
and no copy has left the buffer.
-/

namespace OccamsRpc

/-! ## The inner writer -/

/-- Every `write` takes between one byte and all of them, or is interrupted. -/
structure Willing (S : Type) [AsyncWrite S] (Wf : S → Prop) (out : S → Bytes) :
    Prop extends Passes S Wf out where
  takes : ∀ s buf n s', Wf s → buf ≠ [] → AsyncWrite.write s buf = (.ready (.ok n), s') → 0 < n ∧
    n ≤ buf.length
  error : ∀ s buf e s', Wf s → AsyncWrite.write s buf = (.ready (.error e), s') → e = .Interrupted

section
variable {S : Type} [AsyncWrite S] {Wf : S → Prop} {out : S → Bytes}

theorem Willing.write_all_loop (h : Willing S Wf out) (fuel : Nat) (s : S) (buf : Bytes) (hs : Wf s)
    (e : IoErr) (s' : S) :
    AsyncWrite.write_all_loop fuel s buf ≠ (.ready (.error e), s') := by
  induction fuel generalizing s buf with
  | zero =>
    intro hr
    cases hr
  | succ fuel ih =>
    intro hr
    rw [AsyncWrite.write_all_loop] at hr
    split at hr
    case isTrue => cases hr
    case isFalse hne =>
      split at hr
      case h_1 => cases hr
      case h_2 n s₁ hw =>
        have hn : n ≠ 0 := Nat.ne_of_gt (h.takes s buf n s₁ hs hne hw).1
        rw [if_neg hn] at hr
        exact ih s₁ _ (h.ok s buf n s₁ hs hw).1 hr
      case h_3 e' s₁ hw =>
        cases h.error s buf e' s₁ hs hw
        rw [if_pos rfl] at hr
        exact ih s₁ buf (h.interrupted s buf s₁ hs hw).1 hr

/-- `write_all` does not fail. -/
theorem Willing.write_all (h : Willing S Wf out) {s s' : S} {buf : Bytes} {e : IoErr} (hs : Wf s) :
    AsyncWrite.write_all buf s ≠ (.ready (.error e), s') :=
  h.write_all_loop _ s buf hs e s'

end

/-! ## What a flush leaves -/

namespace AsyncBufWrite

variable {T : Type} [AsyncWrite T] {b b' : AsyncBufWrite} {w w' : T} {bs : Bytes}

/-- `pos` goes back to 0 when everything was written, and else stays. -/
theorem flush_left {r : Poll (Except IoErr Unit)} (h : b.flush w = (r, b', w')) :
    r = .ready (.ok ()) ∧ b' = { b with pos := 0 } ∨
      r ≠ .ready (.ok ()) ∧ b' = b ∧ AsyncWrite.write_all b.held w = (r, w') := by
  unfold flush at h
  split at h
  case isTrue hpos =>
    split at h
    case h_1 w₁ h₁ =>
      cases h
      exact .inl ⟨rfl, rfl⟩
    case h_2 r₁ w₁ hne h₁ =>
      cases h
      exact .inr ⟨fun hr => hne hr, rfl, h₁⟩
  case isFalse hpos =>
    cases h
    refine .inl ⟨rfl, ?_⟩
    obtain ⟨buf, pos⟩ := b
    cases Nat.eq_zero_of_not_pos hpos
    rfl

/-- The buffer has its size, and `pos` is in it. -/
structure Sized (capacity : Nat) (b : AsyncBufWrite) : Prop where
  pos_le : b.pos ≤ capacity
  length_eq : b.buf.length = capacity

theorem new_sized (capacity : Nat) : (new capacity).Sized capacity :=
  ⟨Nat.zero_le _, List.length_replicate⟩

variable {capacity : Nat}

theorem Sized.flush {r : Poll (Except IoErr Unit)} (hs : b.Sized capacity)
    (h : b.flush w = (r, b', w')) :
    b'.Sized capacity := by
  rcases flush_left h with ⟨-, rfl⟩ | ⟨-, rfl, -⟩
  · exact ⟨Nat.zero_le _, hs.length_eq⟩
  · exact hs

theorem Sized.push (hs : b.Sized capacity) (hfit : b.pos + bs.length ≤ capacity) :
    (b.push bs).Sized capacity := by
  obtain ⟨hpos, hlen⟩ := hs
  refine ⟨hfit, ?_⟩
  simp only [AsyncBufWrite.push, List.length_append, List.length_take, List.length_drop]
  omega

/-- The buffer as a short write finds it, flushed when there is no room. -/
def cleared (b : AsyncBufWrite) (w : T) (bs : Bytes) :
    Poll (Except IoErr Unit) × AsyncBufWrite × T :=
  if b.buf.length - b.pos < bs.length then b.flush w else (.ready (.ok ()), b, w)

/-- The part of the buffer, from its first index to its end, that `write_buffered`
copies into. -/
def copied (b : AsyncBufWrite) (w : T) (bs : Bytes) : Option (Nat × Nat) :=
  if bs.length ≥ b.buf.length then none
  else
    match b.cleared w bs with
    | (.ready (.ok ()), b, _) => some (b.pos, b.pos + bs.length)
    | _ => none

theorem Sized.cleared {r : Poll (Except IoErr Unit)} (hs : b.Sized capacity)
    (h : b.cleared w bs = (r, b', w')) :
    b'.Sized capacity ∧
      (r = .ready (.ok ()) → bs.length < capacity → b'.pos + bs.length ≤ capacity) := by
  obtain ⟨hpos, hlen⟩ := hs
  unfold AsyncBufWrite.cleared at h
  split at h
  · refine ⟨Sized.flush ⟨hpos, hlen⟩ h, fun hr hb => ?_⟩
    rcases flush_left h with ⟨-, rfl⟩ | ⟨hne, -, -⟩
    · simp only
      omega
    · exact absurd hr hne
  · cases h
    exact ⟨⟨hpos, hlen⟩, fun _ hb => by omega⟩

/-- Every copy stays inside the buffer. -/
theorem Sized.copied {r : Nat × Nat} (hs : b.Sized capacity) (h : b.copied w bs = some r) :
    r.1 ≤ r.2 ∧ r.2 ≤ capacity := by
  have hlen := hs.length_eq
  unfold AsyncBufWrite.copied at h
  split at h
  case isTrue => cases h
  case isFalse hshort =>
    split at h
    case h_1 b₁ w₁ hc =>
      cases h
      exact ⟨Nat.le_add_right _ _, (hs.cleared hc).2 rfl (by omega)⟩
    case h_2 => cases h

theorem Sized.write_buffered {r : Poll (Except IoErr Nat)} (hs : b.Sized capacity)
    (h : b.write_buffered w bs = (r, b', w')) : b'.Sized capacity := by
  have hlen := hs.length_eq
  unfold AsyncBufWrite.write_buffered at h
  split at h
  · split at h <;> cases h <;> exact hs.flush ‹_›
  · generalize hc : (if b.buf.length - b.pos < bs.length then b.flush w else
      ((.ready (.ok ()), b, w) : Poll (Except IoErr Unit) × AsyncBufWrite × T)) = c at h
    have hc : b.cleared w bs = c := hc
    rcases c with ⟨(e | _) | _, b₁, w₁⟩ <;> cases h
    · exact (hs.cleared hc).1
    · exact (hs.cleared hc).1.push ((hs.cleared hc).2 rfl (by omega))
    · exact (hs.cleared hc).1

end AsyncBufWrite

namespace AsyncBufStream

variable {T : Type} [AsyncWrite T] {Wf : T → Prop} {out : T → Bytes}

theorem flush_never_fails (h : Willing T Wf out) {b b' : AsyncBufWrite} {w w' : T} {e : IoErr}
    (hw : Wf w) :
    b.flush w ≠ (.ready (.error e), b', w') := by
  intro hr
  rcases AsyncBufWrite.flush_left hr with ⟨hok, -⟩ | ⟨-, -, hall⟩
  · cases hok
  · exact h.write_all hw hall

/-- A buffered writer is as willing as the one below it. -/
theorem willing (h : Willing T Wf out) :
    Willing (AsyncBufStream T) (AsyncBufStream.Wf Wf) (AsyncBufStream.out out) where
  toPasses := passes h.toPasses
  takes := by
    rintro s bs n s' ⟨hb, hw⟩ hne hr
    rcases write_buffered_cases h.toPasses hb hw (write_parts hr) with
      ⟨e, he, -⟩ | ⟨b₁, w₁, hb₁, hw₁, -, ⟨-, -, hwr⟩ | ⟨-, hn, -, -⟩⟩
    · cases he
    · exact h.takes w₁ bs n s'.inner hw₁ hne hwr
    · cases hn
      exact ⟨List.length_pos_of_ne_nil hne, Nat.le_refl _⟩
  error := by
    rintro s bs e s' ⟨hb, hw⟩ hr
    have hparts := write_parts hr
    unfold AsyncBufWrite.write_buffered at hparts
    split at hparts
    · split at hparts
      case h_1 => cases hparts
      case h_2 e₁ b₁ w₁ hf => exact absurd hf (flush_never_fails h hw)
      case h_3 b₁ w₁ hf =>
        obtain ⟨-, hw₁, -⟩ := flush_buffer_ok h.toPasses hb hw hf
        obtain ⟨hr₁, hr₂⟩ := Prod.mk.inj hparts
        obtain ⟨-, hr₂⟩ := Prod.mk.inj hr₂
        exact h.error w₁ bs e s'.inner hw₁ (Prod.ext hr₁ hr₂)
    · dsimp only at hparts
      split at hparts
      case h_1 => cases hparts
      case h_2 e₁ b₁ w₁ hf =>
        split at hf
        · exact absurd hf (flush_never_fails h hw)
        · cases hf
      case h_3 => cases hparts

end AsyncBufStream

/-! ## A sequence of calls -/

section
variable {S : Type} [AsyncWrite S]

/-- The calls of `write` that `write_all` makes. -/
def AsyncWrite.write_calls : Nat → S → Bytes → List (S × Bytes)
  | 0, _, _ => []
  | fuel + 1, s, buf =>
    if buf = [] then []
    else (s, buf) ::
      match AsyncWrite.write s buf with
      | (.pending, _) => []
      | (.ready (.ok n), s) => if n = 0 then [] else write_calls fuel s (buf.drop n)
      | (.ready (.error e), s) => if e = .Interrupted then write_calls fuel s buf else []

/-- What every `write` keeps, `write_all` keeps, and it held in each of its calls. -/
theorem AsyncWrite.write_all_loop_inv {I : S → Prop}
    (hI : ∀ s buf r s', I s → AsyncWrite.write s buf = (r, s') → I s') (fuel : Nat) (s : S)
    (buf : Bytes) (hs : I s) :
    I (write_all_loop fuel s buf).2 ∧ ∀ c ∈ write_calls fuel s buf, I c.1 := by
  induction fuel generalizing s buf with
  | zero => exact ⟨hs, List.forall_mem_nil _⟩
  | succ fuel ih =>
    rw [write_all_loop, write_calls]
    by_cases h0 : buf = []
    · simp only [if_pos h0]
      exact ⟨hs, List.forall_mem_nil _⟩
    simp only [if_neg h0, List.forall_mem_cons]
    rcases hw : AsyncWrite.write s buf with ⟨(e | n) | _, s₁⟩ <;>
      have hs₁ := hI s buf _ s₁ hs hw <;> dsimp only
    · split
      · exact ⟨(ih s₁ buf hs₁).1, hs, (ih s₁ buf hs₁).2⟩
      · exact ⟨hs₁, hs, List.forall_mem_nil _⟩
    · split
      · exact ⟨hs₁, hs, List.forall_mem_nil _⟩
      · exact ⟨(ih s₁ _ hs₁).1, hs, (ih s₁ _ hs₁).2⟩
    · exact ⟨hs₁, hs, List.forall_mem_nil _⟩

end

/-- The calls that a user of the stream makes to write. -/
inductive WriteCall
  | write_all (buf : Bytes)
  | flush

namespace WriteCall

/-- What a call hands over. -/
def data : WriteCall → Bytes
  | .write_all buf => buf
  | .flush => []

variable {T : Type} [AsyncWrite T]

def run : WriteCall → Async (AsyncBufStream T) IoErr Unit
  | .write_all buf => AsyncWrite.write_all buf
  | .flush => AsyncBufStream.flush

/-- The copies into the buffer that the call makes. -/
def copies (s : AsyncBufStream T) : WriteCall → List (Nat × Nat)
  | .write_all buf =>
    (AsyncWrite.write_calls (AsyncWrite.budget s + buf.length + 1) s buf).filterMap fun c =>
      c.1.write_buf.copied c.1.inner c.2
  | .flush => []

/-- One call after the other, as long as they succeed. -/
def runAll : List WriteCall → Async (AsyncBufStream T) IoErr Unit
  | [] => pure ()
  | c :: calls => c.run >>= fun _ => runAll calls

/-- The copies into the buffer that a sequence of calls makes, up to the first that fails.
-/
def copiesAll : List WriteCall → AsyncBufStream T → List (Nat × Nat)
  | [], _ => []
  | c :: calls, s => c.copies s ++
    match c.run s with
    | (.ready (.ok ()), s) => copiesAll calls s
    | _ => []

def submitted (calls : List WriteCall) : Bytes := (calls.map data).flatten

variable {Wf : T → Prop} {out : T → Bytes} {capacity : Nat}

theorem run_took (h : Passes T Wf out) (o : Bytes) (c : WriteCall) :
    Async.Returns (AsyncBufStream.Took Wf out o) c.run fun _ => AsyncBufStream.Took Wf out (o ++ c.data) := by
  cases c with
  | write_all buf => exact (AsyncBufStream.passes h).write_all o buf
  | flush =>
    refine (AsyncBufStream.flush_returns h o).weaken (fun _ hs => hs) fun _ s hs => ?_
    rw [data, List.append_nil]
    exact hs.1

theorem runAll_took (h : Passes T Wf out) (calls : List WriteCall) (o : Bytes) :
    Async.Returns (AsyncBufStream.Took Wf out o) (runAll calls) fun _ =>
      AsyncBufStream.Took Wf out (o ++ submitted calls) := by
  induction calls generalizing o with
  | nil =>
    refine Async.Returns.pure fun s hs => ?_
    rwa [submitted, List.map_nil, List.flatten_nil, List.append_nil]
  | cons c calls ih =>
    refine (run_took h o c).bind fun _ => (ih (o ++ c.data)).weaken (fun _ hs => hs) fun _ s hs => ?_
    rwa [List.append_assoc] at hs

theorem runAll_concat {calls : List WriteCall} {c : WriteCall} {s s' : AsyncBufStream T}
    (h : runAll (calls ++ [c]) s = (.ready (.ok ()), s')) :
    ∃ s₁, runAll calls s = (.ready (.ok ()), s₁) ∧ c.run s₁ = (.ready (.ok ()), s') := by
  induction calls generalizing s with
  | nil =>
    obtain ⟨_, s₁, h₁, h₂⟩ := Async.bind_eq_ok h
    cases h₂
    exact ⟨s, rfl, h₁⟩
  | cons c' calls ih =>
    obtain ⟨_, s₁, h₁, h₂⟩ := Async.bind_eq_ok h
    obtain ⟨s₂, h₂, h₃⟩ := ih h₂
    exact ⟨s₂, (Async.bind_ok h₁ _).trans h₂, h₃⟩

/-- After a last flush nothing is left in the buffer. -/
theorem runAll_flushed (h : Passes T Wf out) {calls : List WriteCall} {o : Bytes}
    {s s' : AsyncBufStream T} (hs : s.Took Wf out o)
    (hr : runAll (calls ++ [.flush]) s = (.ready (.ok ()), s')) :
    out s'.inner = o ++ submitted calls := by
  obtain ⟨s₁, h₁, h₂⟩ := runAll_concat hr
  obtain ⟨⟨-, hout⟩, hf⟩ :=
    AsyncBufStream.flush_returns h _ s₁ () s' (runAll_took h calls o s () s₁ hs h₁) h₂
  rw [← hout, hf.out_eq]

theorem write_sized (s : AsyncBufStream T) (bs : Bytes) (r : Poll (Except IoErr Nat))
    (s' : AsyncBufStream T) (hs : s.write_buf.Sized capacity) (h : AsyncWrite.write s bs = (r, s')) :
    s'.write_buf.Sized capacity :=
  hs.write_buffered (AsyncBufStream.write_parts h)

theorem run_sized {c : WriteCall} {s : AsyncBufStream T} (hs : s.write_buf.Sized capacity) :
    (c.run s).2.write_buf.Sized capacity := by
  cases c with
  | write_all buf => exact (AsyncWrite.write_all_loop_inv write_sized _ s buf hs).1
  | flush => exact hs.flush (AsyncBufStream.flush_parts rfl)

theorem copies_inside {c : WriteCall} {s : AsyncBufStream T} (hs : s.write_buf.Sized capacity) :
    ∀ r ∈ c.copies s, r.1 ≤ r.2 ∧ r.2 ≤ capacity := by
  cases c with
  | write_all buf =>
    intro r hr
    obtain ⟨call, hcall, hcopy⟩ := List.mem_filterMap.1 hr
    exact ((AsyncWrite.write_all_loop_inv write_sized _ s buf hs).2 call hcall).copied hcopy
  | flush => exact nofun

theorem copiesAll_inside {calls : List WriteCall} {s : AsyncBufStream T}
    (hs : s.write_buf.Sized capacity) :
    ∀ r ∈ copiesAll calls s, r.1 ≤ r.2 ∧ r.2 ≤ capacity := by
  induction calls generalizing s with
  | nil => exact nofun
  | cons c calls ih =>
    intro r hr
    rcases List.mem_append.1 hr with hr | hr
    · exact copies_inside hs r hr
    · split at hr
      case h_1 s₁ hc =>
        have hs₁ := run_sized hs (c := c)
        rw [hc] at hs₁
        exact ih hs₁ r hr
      case h_2 => cases hr

theorem runAll_sized {calls : List WriteCall} {s s' : AsyncBufStream T}
    (hs : s.write_buf.Sized capacity) (hr : runAll calls s = (.ready (.ok ()), s')) :
    s'.write_buf.Sized capacity := by
  induction calls generalizing s with
  | nil =>
    cases hr
    exact hs
  | cons c calls ih =>
    obtain ⟨_, s₁, h₁, h₂⟩ := Async.bind_eq_ok hr
    have hs₁ := run_sized hs (c := c)
    rw [h₁] at hs₁
    exact ih hs₁ h₂

theorem run_never_fails (h : Willing T Wf out) {c : WriteCall} {s s' : AsyncBufStream T} {e : IoErr}
    (hs : s.Wf Wf) : c.run s ≠ (.ready (.error e), s') := by
  cases c with
  | write_all buf => exact (AsyncBufStream.willing h).write_all hs
  | flush =>
    intro hr
    exact AsyncBufStream.flush_never_fails h hs.2 (AsyncBufStream.flush_parts hr)

theorem runAll_never_fails (h : Willing T Wf out) {calls : List WriteCall} {s s' : AsyncBufStream T}
    {e : IoErr} (hs : s.Wf Wf) : runAll calls s ≠ (.ready (.error e), s') := by
  induction calls generalizing s with
  | nil =>
    intro hr
    cases hr
  | cons c calls ih =>
    intro hr
    change Async.bind c.run _ s = _ at hr
    rcases hc : c.run s with ⟨(e₁ | _) | _, s₁⟩
    · exact run_never_fails h hs hc
    · simp only [Async.bind, hc] at hr
      exact ih (run_took h.toPasses _ c s () s₁ ⟨hs, rfl⟩ hc).1 hr
    · simp only [Async.bind, hc] at hr
      cases hr

/-- When the writer has room for all that is submitted, the calls return. -/
theorem runAll_returns {Room : T → Nat → Prop} (h : Accepts T Room out) (calls : List WriteCall)
    {s : AsyncBufStream T} {k : Nat} (hs : s.Room Room k) (hk : (submitted calls).length ≤ k) :
    ∃ s', runAll calls s = (.ready (.ok ()), s') := by
  induction calls generalizing s k with
  | nil => exact ⟨s, rfl⟩
  | cons c calls ih =>
    have hlen : (submitted (c :: calls)).length = c.data.length + (submitted calls).length :=
      List.length_append
    have hc : ∃ s₁ : AsyncBufStream T, c.run s = (.ready (.ok ()), s₁) ∧
        s₁.Room Room (k - c.data.length) := by
      cases c with
      | write_all buf =>
        obtain ⟨s₁, h₁, -, hs₁, -⟩ := (AsyncBufStream.accepts h).write_all hs
          (show buf.length ≤ k from Nat.le_trans (Nat.le_add_right _ _) (hlen ▸ hk))
        exact ⟨s₁, h₁, hs₁⟩
      | flush =>
        obtain ⟨s₁, h₁, -, -, hs₁⟩ := AsyncBufStream.flush_spec h hs
        exact ⟨s₁, h₁, hs₁⟩
    obtain ⟨s₁, h₁, hs₁⟩ := hc
    obtain ⟨s', h'⟩ := ih hs₁ (by omega)
    exact ⟨s', (Async.bind_ok h₁ _).trans h'⟩

end WriteCall

namespace AsyncBufStream

variable {T : Type} [AsyncWrite T] {Wf : T → Prop} {out : T → Bytes}

theorem new_took {w : T} (hw : Wf w) {capacity : Nat} (hcap : 0 < capacity) :
    (new w capacity).Took Wf out (out w) :=
  ⟨⟨AsyncBufWrite.new_wf hcap, hw⟩, List.append_nil _⟩

open WriteCall in
/-- The bytes written and those in the buffer are the bytes submitted, and after a
flush they are all written; no copy leaves the buffer, no call fails, and all
return while the writer has room. -/
theorem writes_preserve_stream (h : Willing T Wf out) {w : T} (hw : Wf w) {capacity : Nat}
    (hcap : 0 < capacity) (calls : List WriteCall) :
    (∀ s', runAll calls (new w capacity) = (.ready (.ok ()), s') →
      out s'.inner ++ s'.write_buf.buf.take s'.write_buf.pos = out w ++ submitted calls ∧
      s'.write_buf.pos ≤ capacity ∧ s'.write_buf.buf.length = capacity ∧
      (calls.getLast? = some .flush → out s'.inner = out w ++ submitted calls)) ∧
    (∀ r ∈ copiesAll calls (new w capacity), r.1 ≤ r.2 ∧ r.2 ≤ capacity) ∧
    (∀ e s', runAll calls (new w capacity) ≠ (.ready (.error e), s')) ∧
    ∀ Room : T → Nat → Prop, Accepts T Room out → Room w (submitted calls).length →
      ∃ s', runAll calls (new w capacity) = (.ready (.ok ()), s') := by
  have htook : (new w capacity).Took Wf out (out w) := new_took hw hcap
  have hsized : (new w capacity).write_buf.Sized capacity := AsyncBufWrite.new_sized capacity
  refine ⟨fun s' hr => ?_, copiesAll_inside hsized, fun e s' => runAll_never_fails h htook.1, ?_⟩
  · obtain ⟨hpos, hlen⟩ := runAll_sized hsized hr
    refine ⟨(runAll_took h.toPasses calls (out w) _ () s' htook hr).2, hpos, hlen, fun hlast => ?_⟩
    obtain ⟨before, rfl⟩ := List.getLast?_eq_some_iff.1 hlast
    rw [runAll_flushed h.toPasses htook hr]
    simp [submitted, data]
  · intro Room hacc hroom
    refine runAll_returns hacc calls ⟨htook.1.1, ?_⟩ (Nat.le_refl _)
    rwa [show (new w capacity).write_buf.pos = 0 from rfl, Nat.zero_add]

end AsyncBufStream

/-- A socket whose script has only such answers. -/
theorem Sock.willing :
    Willing Sock (fun s => ∀ ev ∈ s.writes, (∃ n, ev = .accept (n + 1)) ∨
      ev = .fail .Interrupted) Sock.sent where
  ok := by
    rintro ⟨reads, inbound, writes, sent⟩ buf n s' hs h
    rcases writes with _ | ⟨_ | _ | _, writes⟩ <;> cases h
    exact ⟨fun ev hev => hs ev (.tail _ hev), by rw [← List.take_eq_take_min]⟩
  interrupted := by
    rintro ⟨reads, inbound, writes, sent⟩ buf s' hs h
    rcases writes with _ | ⟨_ | _ | _, writes⟩ <;> cases h
    exact ⟨fun ev hev => hs ev (.tail _ hev), rfl⟩
  takes := by
    rintro ⟨reads, inbound, writes, sent⟩ buf n s' hs hne h
    have hpos : 0 < buf.length := List.length_pos_of_ne_nil hne
    rcases writes with _ | ⟨m | _ | _, writes⟩ <;> cases h
    rcases hs _ (.head _) with ⟨k, hk⟩ | hk <;> cases hk
    omega
  error := by
    rintro ⟨reads, inbound, writes, sent⟩ buf e s' hs h
    rcases writes with _ | ⟨_ | _ | e, writes⟩ <;> cases h
    rcases hs _ (.head _) with ⟨k, hk⟩ | hk <;> cases hk
    rfl

namespace AsyncBufStream

/-- A write that fits, one that goes past the buffer and is cut short, and a flush. -/
def sampleCalls : List WriteCall := [.write_all [1, 2], .write_all [3, 4, 5, 6, 7], .flush]

def sampleSock : Sock where
  reads := []
  inbound := []
  writes := [.accept 1, .fail .Interrupted, .accept 9, .accept 2, .accept 4, .accept 1, .accept 3, .accept 8]
  sent := []

theorem writes_preserve_stream_sample :
    ∃ s', WriteCall.runAll sampleCalls (new sampleSock 3) = (.ready (.ok ()), s') ∧
      s'.inner.sent = [1, 2, 3, 4, 5, 6, 7] := by
  have h := writes_preserve_stream Sock.willing (w := sampleSock) (by simp [sampleSock])
    (Nat.zero_lt_succ 2) sampleCalls
  obtain ⟨s', hr⟩ := h.2.2.2 Sock.Room Sock.accepts (by simp [Sock.Room, sampleSock]; decide)
  exact ⟨s', hr, (h.1 s' hr).2.2.2 rfl⟩

end AsyncBufStream

end OccamsRpc
