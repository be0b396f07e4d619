import OccamsRpc.Core.Io
/-!
# Buffered I/O transfers the byte stream

Over a socket that answers every call with at least one byte or with
`Interrupted`, a reader hands out the inbound bytes in order and a writer passes
on what it was given, through any buffer. `Delivers` and `Accepts` say so for one
call; the loops of the traits then do it for any length, and a buffer over such a
socket is such a reader or writer again.
-/

namespace OccamsRpc

/-! ## Reading -/

/-- In a state with `Live`, `avail` is what there is to read, and a `read` gets a
piece of it or is interrupted. -/
structure Delivers (S : Type) [AsyncRead S] (Live : S → Prop) (avail : S → Bytes) : Prop where
  read : ∀ s len, Live s → 0 < len → avail s ≠ [] →
    (∃ bs s', AsyncRead.read s len = (.ready (.ok bs), s') ∧ bs ≠ [] ∧ bs.length ≤ len ∧
      avail s = bs ++ avail s' ∧ Live s' ∧ AsyncRead.budget s' ≤ AsyncRead.budget s) ∨
    (∃ s', AsyncRead.read s len = (.ready (.error .Interrupted), s') ∧
      avail s' = avail s ∧ Live s' ∧ AsyncRead.budget s' < AsyncRead.budget s)

section
variable {S : Type} [AsyncRead S] {Live : S → Prop} {avail : S → Bytes}

theorem Delivers.read_exact_loop (h : Delivers S Live avail) (fuel : Nat) (s : S) (len : Nat)
    (got : Bytes) (hs : Live s) (hlen : len ≤ (avail s).length)
    (hf : AsyncRead.budget s + len < fuel) :
    ∃ s', AsyncRead.read_exact_loop fuel s len got =
      (.ready (.ok (got ++ (avail s).take len)), s') ∧
      avail s' = (avail s).drop len ∧ Live s' ∧ AsyncRead.budget s' ≤ AsyncRead.budget s := by
  induction fuel generalizing s len got with
  | zero => omega
  | succ fuel ih =>
    by_cases h0 : len = 0
    · subst h0
      exact ⟨s, by simp [AsyncRead.read_exact_loop], by simp, hs, Nat.le_refl _⟩
    have hne : avail s ≠ [] := by rintro he; rw [he] at hlen; exact h0 (by simpa using hlen)
    rcases h.read s len hs (by omega) hne with ⟨bs, s', hr, hbs, hle, hav, hs', hb⟩ | ⟨s', hr, hav, hs', hb⟩
    · -- a piece arrived: the rest is shorter
      have hpos : 0 < bs.length := List.length_pos_of_ne_nil hbs
      have hlen' : len - bs.length ≤ (avail s').length := by
        rw [hav, List.length_append] at hlen; omega
      obtain ⟨s'', hr', hav', hs'', hb'⟩ := ih s' (len - bs.length) (got ++ bs) hs' hlen' (by omega)
      refine ⟨s'', ?_, ?_, hs'', by omega⟩
      · rw [hav, List.take_append, List.take_of_length_le hle, ← List.append_assoc]
        simp only [AsyncRead.read_exact_loop, h0, hr, hbs, hr', if_false]
      · rw [hav', hav, List.drop_append, List.drop_of_length_le hle, List.nil_append]
    · -- interrupted: the socket has an answer less
      rw [← hav] at hlen ⊢
      obtain ⟨s'', hr', hav', hs'', hb'⟩ := ih s' len got hs' hlen (by omega)
      exact ⟨s'', by simp only [AsyncRead.read_exact_loop, h0, hr, hr', if_false, if_true], hav',
        hs'', by omega⟩

/-- `read_exact` returns the next `len` bytes. -/
theorem Delivers.read_exact (h : Delivers S Live avail) {s : S} {len : Nat} (hs : Live s)
    (hlen : len ≤ (avail s).length) :
    ∃ s', AsyncRead.read_exact len s = (.ready (.ok ((avail s).take len)), s') ∧
      avail s' = (avail s).drop len ∧ Live s' := by
  obtain ⟨s', hr, hav, hs', -⟩ := h.read_exact_loop _ s len [] hs hlen (Nat.lt_succ_self _)
  exact ⟨s', hr, hav, hs'⟩

theorem Delivers.read_exact_append (h : Delivers S Live avail) {s : S} {bs rest : Bytes}
    (hs : Live s) (hav : avail s = bs ++ rest) :
    ∃ s', AsyncRead.read_exact bs.length s = (.ready (.ok bs), s') ∧ avail s' = rest ∧ Live s' := by
  obtain ⟨s', hr, hav', hs'⟩ :=
    h.read_exact hs (show bs.length ≤ (avail s).length by rw [hav, List.length_append]; omega)
  rw [hav, List.take_left] at hr
  rw [hav, List.drop_left] at hav'
  exact ⟨s', hr, hav', hs'⟩

end

/-! ## Writing -/

/-- In a state with `Room s k` the socket still takes `k` bytes: a `write` of no
more than that passes on a piece of it or is interrupted. -/
structure Accepts (S : Type) [AsyncWrite S] (Room : S → Nat → Prop) (out : S → Bytes) : Prop where
  write : ∀ s buf k, Room s k → buf ≠ [] → buf.length ≤ k →
    (∃ n s', AsyncWrite.write s buf = (.ready (.ok n), s') ∧ 0 < n ∧ n ≤ buf.length ∧
      out s' = out s ++ buf.take n ∧ Room s' (k - n) ∧ AsyncWrite.budget s' ≤ AsyncWrite.budget s) ∨
    (∃ s', AsyncWrite.write s buf = (.ready (.error .Interrupted), s') ∧
      out s' = out s ∧ Room s' k ∧ AsyncWrite.budget s' < AsyncWrite.budget s)

section
variable {S : Type} [AsyncWrite S] {Room : S → Nat → Prop} {out : S → Bytes}

theorem Accepts.write_all_loop (h : Accepts S Room out) (fuel : Nat) (s : S) (buf : Bytes) (k : Nat)
    (hs : Room s k) (hlen : buf.length ≤ k) (hf : AsyncWrite.budget s + buf.length < fuel) :
    ∃ s', AsyncWrite.write_all_loop fuel s buf = (.ready (.ok ()), s') ∧
      out s' = out s ++ buf ∧ Room s' (k - buf.length) ∧
      AsyncWrite.budget s' ≤ AsyncWrite.budget s := by
  induction fuel generalizing s buf k with
  | zero => omega
  | succ fuel ih =>
    by_cases h0 : buf = []
    · subst h0
      exact ⟨s, by simp [AsyncWrite.write_all_loop], by simp, by simpa using hs, Nat.le_refl _⟩
    rcases h.write s buf k hs h0 hlen with ⟨n, s', hr, hn, hle, hout, hs', hb⟩ | ⟨s', hr, hout, hs', hb⟩
    · have hdrop : (buf.drop n).length = buf.length - n := List.length_drop
      obtain ⟨s'', hr', hout', hs'', hb'⟩ := ih s' (buf.drop n) (k - n) hs' (by omega) (by omega)
      refine ⟨s'', ?_, ?_, ?_, by omega⟩
      · simp only [AsyncWrite.write_all_loop, h0, hr, Nat.ne_of_gt hn, hr', if_false]
      · rw [hout', hout, List.append_assoc, List.take_append_drop]
      · rwa [hdrop, show k - n - (buf.length - n) = k - buf.length by omega] at hs''
    · obtain ⟨s'', hr', hout', hs'', hb'⟩ := ih s' buf k hs' hlen (by omega)
      refine ⟨s'', ?_, by rw [hout', hout], hs'', by omega⟩
      simp only [AsyncWrite.write_all_loop, h0, hr, hr', if_false, if_true]

/-- `write_all` passes on all it is given. -/
theorem Accepts.write_all (h : Accepts S Room out) {s : S} {buf : Bytes} {k : Nat} (hs : Room s k)
    (hlen : buf.length ≤ k) :
    ∃ s', AsyncWrite.write_all buf s = (.ready (.ok ()), s') ∧
      out s' = out s ++ buf ∧ Room s' (k - buf.length) ∧
      AsyncWrite.budget s' ≤ AsyncWrite.budget s :=
  h.write_all_loop _ s buf k hs hlen (Nat.lt_succ_self _)

end

/-! ## The socket -/

namespace Sock

/-- Every read gets at least one byte or is interrupted, and there are answers
enough for all the inbound bytes. -/
def Live (s : Sock) : Prop :=
  (∀ ev ∈ s.reads, (∃ n, ev = .chunk (n + 1)) ∨ ev = .fail .Interrupted) ∧
    s.inbound.length ≤ s.reads.countP fun ev => ev != .fail .Interrupted

/-- Every write takes at least one byte or is interrupted, and there are answers
enough for `k` bytes. -/
def Room (s : Sock) (k : Nat) : Prop :=
  (∀ ev ∈ s.writes, (∃ n, ev = .accept (n + 1)) ∨ ev = .fail .Interrupted) ∧
    k ≤ s.writes.countP fun ev => ev != .fail .Interrupted

theorem delivers : Delivers Sock Live inbound where
  read := by
    rintro ⟨reads, inbound, writes, sent⟩ len ⟨hev, hcount⟩ hlen hne
    cases reads with
    | nil => simp_all
    | cons ev reads =>
      simp only [List.forall_mem_cons] at hev
      obtain ⟨⟨n, rfl⟩ | rfl, hev⟩ := hev
      · refine .inl ⟨inbound.take (min (n + 1) len),
          ⟨reads, inbound.drop (min (n + 1) len), writes, sent⟩, rfl, ?_, ?_, ?_, ⟨hev, ?_⟩, ?_⟩
        · have : 0 < inbound.length := List.length_pos_of_ne_nil hne
          apply List.ne_nil_of_length_pos
          rw [List.length_take]
          omega
        · simp only [List.length_take]; omega
        · exact (List.take_append_drop _ _).symm
        · simp only [List.countP_cons, List.length_drop,
            show (ReadEv.chunk (n + 1) != .fail .Interrupted) = true by rfl, if_true] at hcount ⊢
          omega
        · simp [AsyncRead.budget]
      · refine .inr ⟨⟨reads, inbound, writes, sent⟩, rfl, rfl, ⟨hev, ?_⟩, ?_⟩
        · simpa using hcount
        · simp [AsyncRead.budget]

theorem accepts : Accepts Sock Room sent where
  write := by
    rintro ⟨reads, inbound, writes, sent⟩ buf k ⟨hev, hcount⟩ hne hlen
    have hpos : 0 < buf.length := List.length_pos_of_ne_nil hne
    cases writes with
    | nil => simp at hcount; omega
    | cons ev writes =>
      simp only [List.forall_mem_cons] at hev
      obtain ⟨⟨n, rfl⟩ | rfl, hev⟩ := hev
      · refine .inl ⟨min (n + 1) buf.length, ⟨reads, inbound, writes, sent ++ buf.take (n + 1)⟩, rfl,
          by omega, by omega, ?_, ⟨hev, ?_⟩, ?_⟩
        · rw [List.take_eq_take_min]
        · simp only [List.countP_cons, show (WriteEv.accept (n + 1) != .fail .Interrupted) = true by rfl,
            if_true] at hcount ⊢
          omega
        · simp [AsyncWrite.budget]
      · refine .inr ⟨⟨reads, inbound, writes, sent⟩, rfl, rfl, ⟨hev, ?_⟩, ?_⟩
        · simpa using hcount
        · simp [AsyncWrite.budget]

end Sock

/-! ## A buffer over a socket -/

/-- The bytes read from the socket and not handed out yet. -/
def AsyncBufRead.held (b : AsyncBufRead) : Bytes := (b.buf.drop b.pos).take (b.cap - b.pos)

/-- The positions are in order. A buffer of length 0 would read nothing. -/
structure AsyncBufRead.Wf (b : AsyncBufRead) : Prop where
  pos_le : b.pos ≤ b.cap
  cap_le : b.cap ≤ b.buf.length
  capacity_pos : 0 < b.buf.length

/-- The bytes not passed on to the socket yet. -/
def AsyncBufWrite.held (b : AsyncBufWrite) : Bytes := b.buf.take b.pos

/-- The position is in the buffer, and the buffer is not empty. -/
structure AsyncBufWrite.Wf (b : AsyncBufWrite) : Prop where
  pos_le : b.pos ≤ b.buf.length
  capacity_pos : 0 < b.buf.length

theorem AsyncBufRead.new_wf {capacity : Nat} (h : 0 < capacity) : (AsyncBufRead.new capacity).Wf :=
  ⟨Nat.le_refl _, Nat.zero_le _, by simpa [new] using h⟩

theorem AsyncBufWrite.new_wf {capacity : Nat} (h : 0 < capacity) :
    (AsyncBufWrite.new capacity).Wf :=
  ⟨Nat.zero_le _, by simpa [new] using h⟩

namespace AsyncBufRead

theorem held_eq_nil {b : AsyncBufRead} (h : ¬ b.pos < b.cap) : b.held = [] := by
  simp [held, show b.cap - b.pos = 0 by omega]

theorem held_advance (b : AsyncBufRead) {n : Nat} (h : n ≤ b.cap - b.pos) :
    b.held = (b.buf.drop b.pos).take n ++ ({ b with pos := b.pos + n } : AsyncBufRead).held := by
  simp only [held]
  rw [← List.drop_drop, ← List.take_add]
  congr 1
  omega

theorem held_fill (bs rest : Bytes) {n : Nat} (h : n ≤ bs.length) :
    (⟨bs ++ rest, n, bs.length⟩ : AsyncBufRead).held = bs.drop n := by
  simp only [held]
  rw [List.drop_append_of_le_length h, List.take_append_of_le_length (by simp),
    List.take_of_length_le (by simp)]

end AsyncBufRead

namespace AsyncBufStream

section
variable {T : Type}

def Live (Live : T → Prop) (s : AsyncBufStream T) : Prop := s.read_buf.Wf ∧ Live s.inner

/-- What can be read: the buffer first, then the socket. -/
def avail (avail : T → Bytes) (s : AsyncBufStream T) : Bytes := s.read_buf.held ++ avail s.inner

def Room (Room : T → Nat → Prop) (s : AsyncBufStream T) (k : Nat) : Prop :=
  s.write_buf.Wf ∧ Room s.inner (s.write_buf.pos + k)

/-- What has been written, whether the socket has it or the buffer. -/
def out (out : T → Bytes) (s : AsyncBufStream T) : Bytes := out s.inner ++ s.write_buf.held

end

/-- What the socket is fed comes behind what can be read. -/
theorem avail_feed (s : AsyncBufStream Sock) (bs : Bytes) (evs : List ReadEv) :
    (s.feed bs evs).avail Sock.inbound = s.avail Sock.inbound ++ bs :=
  (List.append_assoc s.read_buf.held s.inner.inbound bs).symm

section
variable {T : Type} [AsyncRead T] {Live : T → Prop} {avail : T → Bytes}

theorem read_eq (s : AsyncBufStream T) (len : Nat) :
    AsyncRead.read s len = ((s.read_buf.read_buffered s.inner len).1,
      { s with read_buf := (s.read_buf.read_buffered s.inner len).2.1,
               inner := (s.read_buf.read_buffered s.inner len).2.2 }) := rfl

/-- A buffered reader hands out what it holds, then what the socket delivers. -/
theorem delivers (h : Delivers T Live avail) :
    Delivers (AsyncBufStream T) (AsyncBufStream.Live Live) (AsyncBufStream.avail avail) where
  read := by
    rintro ⟨b, wb, inner⟩ len ⟨hwf, hlive⟩ hlen hne
    simp only [AsyncBufStream.avail] at hwf hlive hne ⊢
    obtain ⟨hpos, hcap, hsz⟩ := hwf
    by_cases hlt : b.pos < b.cap
    · -- from the buffer
      refine .inl ⟨(b.buf.drop b.pos).take (min len (b.cap - b.pos)),
        ⟨{ b with pos := b.pos + min len (b.cap - b.pos) }, wb, inner⟩, ?_, ?_, ?_, ?_,
        ⟨⟨?_, hcap, hsz⟩, hlive⟩,
        Nat.le_refl _⟩
      · simp only [read_eq, AsyncBufRead.read_buffered, if_pos hlt]
      · apply List.ne_nil_of_length_pos
        rw [List.length_take, List.length_drop]
        omega
      · rw [List.length_take]
        omega
      · simp only [b.held_advance (Nat.min_le_right len (b.cap - b.pos)), List.append_assoc]
      · simp only
        omega
    have hheld := AsyncBufRead.held_eq_nil hlt
    rw [hheld, List.nil_append] at hne
    by_cases hbig : len ≥ b.buf.length
    · -- past the buffer
      have heq : b.read_buffered inner len =
          ((AsyncRead.read inner len).1, b, (AsyncRead.read inner len).2) := by
        simp only [AsyncBufRead.read_buffered, if_neg hlt, if_pos hbig]
      rcases h.read inner len hlive hlen hne with ⟨bs, i', hr, hbs, hle, hav, hl', hb⟩ | ⟨i',
        hr, hav, hl', hb⟩
      · refine .inl ⟨bs, ⟨b, wb, i'⟩, ?_, hbs, hle, ?_, ⟨⟨hpos, hcap, hsz⟩, hl'⟩, hb⟩
        · simp only [read_eq, heq, hr]
        · simpa only [hheld, List.nil_append] using hav
      · refine .inr ⟨⟨b, wb, i'⟩, ?_, ?_, ⟨⟨hpos, hcap, hsz⟩, hl'⟩, hb⟩
        · simp only [read_eq, heq, hr]
        · simp only [hav]
    · -- the buffer is filled first
      rcases h.read inner b.buf.length hlive hsz hne with ⟨bs, i', hr, hbs, hle, hav, hl',
        hb⟩ | ⟨i', hr, hav, hl', hb⟩
      · have hbpos : 0 < bs.length := List.length_pos_of_ne_nil hbs
        have hn : min len bs.length ≤ bs.length := Nat.min_le_right _ _
        refine .inl ⟨bs.take (min len bs.length),
          ⟨⟨bs ++ b.buf.drop bs.length, min len bs.length, bs.length⟩, wb, i'⟩, ?_, ?_, ?_, ?_,
          ⟨⟨hn, ?_, ?_⟩, hl'⟩, hb⟩
        · simp only [read_eq, AsyncBufRead.read_buffered, if_neg hlt, if_neg hbig, hr,
            List.take_append_of_le_length hn]
        · apply List.ne_nil_of_length_pos
          rw [List.length_take]
          omega
        · rw [List.length_take]
          omega
        · simp only [hheld, List.nil_append, AsyncBufRead.held_fill _ _ hn]
          rw [hav, ← List.append_assoc, List.take_append_drop]
        · simp
        · simp only [List.length_append]
          omega
      · refine .inr ⟨⟨b, wb, i'⟩, ?_, ?_, ⟨⟨hpos, hcap, hsz⟩, hl'⟩, hb⟩
        · simp only [read_eq, AsyncBufRead.read_buffered, if_neg hlt, if_neg hbig, hr]
        · simp only [hav]

end

section
variable {T : Type} [AsyncWrite T] {Room : T → Nat → Prop} {out : T → Bytes}

/-- A flush passes on what the buffer holds. -/
theorem flush_buffer (h : Accepts T Room out) {b : AsyncBufWrite} (hb : b.pos ≤ b.buf.length)
    {w : T} {k : Nat} (hroom : Room w (b.pos + k)) :
    ∃ w', b.flush w = (.ready (.ok ()), { b with pos := 0 }, w') ∧ out w' = out w ++ b.held ∧
      Room w' k ∧
      AsyncWrite.budget w' ≤ AsyncWrite.budget w := by
  by_cases h0 : b.pos > 0
  · have hlen : (b.buf.take b.pos).length = b.pos := by rw [List.length_take]; omega
    obtain ⟨w', hr, hout, hroom', hbud⟩ :=
      h.write_all hroom (show (b.buf.take b.pos).length ≤ _ by omega)
    refine ⟨w', ?_, hout, ?_, hbud⟩
    · simp only [AsyncBufWrite.flush, if_pos h0, hr]
    · rwa [hlen, Nat.add_sub_cancel_left] at hroom'
  · have hp : b.pos = 0 := by omega
    refine ⟨w, ?_, ?_, ?_, Nat.le_refl _⟩
    · rw [AsyncBufWrite.flush, if_neg h0]
      congr 2
      cases b
      cases hp
      rfl
    · simp [AsyncBufWrite.held, hp]
    · rwa [hp, Nat.zero_add] at hroom

theorem held_push {b : AsyncBufWrite} (hb : b.pos ≤ b.buf.length) (bs : Bytes) :
    (b.push bs).held = b.held ++ bs := by
  simp only [AsyncBufWrite.held, AsyncBufWrite.push]
  rw [List.take_left']
  rw [List.length_append, List.length_take]
  omega

theorem push_wf {b : AsyncBufWrite} (hb : b.Wf) {bs : Bytes}
    (hfit : b.pos + bs.length ≤ b.buf.length) :
    (b.push bs).Wf := by
  have hpos := hb.pos_le
  have hsz := hb.capacity_pos
  constructor <;> simp only [AsyncBufWrite.push, List.length_append, List.length_take,
    List.length_drop] <;> omega

/-- A short write goes into the buffer, which is flushed first if it is too full. -/
theorem write_buffered_short (h : Accepts T Room out) {b : AsyncBufWrite} (hb : b.Wf) {w : T}
    {k : Nat} (hroom : Room w (b.pos + k)) {bs : Bytes} (hk : bs.length ≤ k)
    (hshort : bs.length < b.buf.length) :
    ∃ b' w', b.write_buffered w bs = (.ready (.ok bs.length), b', w') ∧
      out w' ++ b'.held = out w ++ b.held ++ bs ∧ b'.Wf ∧ Room w' (b'.pos + (k - bs.length)) ∧
      AsyncWrite.budget w' ≤ AsyncWrite.budget w := by
  have hpos := hb.pos_le
  by_cases hfit : b.buf.length - b.pos < bs.length
  · obtain ⟨w', hr, hout, hroom', hbud⟩ := flush_buffer h hpos hroom
    refine ⟨({ b with pos := 0 } : AsyncBufWrite).push bs, w', ?_, ?_, ?_, ?_, hbud⟩
    · simp only [AsyncBufWrite.write_buffered, if_neg (Nat.not_le.2 hshort), if_pos hfit, hr]
    · rw [held_push (Nat.zero_le _), hout]
      simp [AsyncBufWrite.held]
    · have hwf : ({ b with pos := 0 } : AsyncBufWrite).Wf := ⟨Nat.zero_le _, hb.capacity_pos⟩
      exact push_wf hwf (by simp only; omega)
    · simpa only [AsyncBufWrite.push, Nat.zero_add, Nat.add_sub_cancel' hk] using hroom'
  · refine ⟨b.push bs, w, ?_, ?_, push_wf hb (by omega), ?_, Nat.le_refl _⟩
    · simp only [AsyncBufWrite.write_buffered, if_neg (Nat.not_le.2 hshort), if_neg hfit]
    · rw [held_push hpos, List.append_assoc]
    · simpa only [AsyncBufWrite.push, Nat.add_assoc, Nat.add_sub_cancel' hk] using hroom

/-- A buffered writer passes on what it holds, then what it is given. -/
theorem accepts (h : Accepts T Room out) :
    Accepts (AsyncBufStream T) (AsyncBufStream.Room Room) (AsyncBufStream.out out) where
  write := by
    rintro ⟨rb, b, w⟩ bs k ⟨hwf, hroom⟩ hne hk
    simp only [AsyncBufStream.out] at hwf hroom ⊢
    by_cases hbig : bs.length ≥ b.buf.length
    · -- past the buffer, which is flushed first
      obtain ⟨w', hr, hout, hroom', hbud⟩ := flush_buffer h hwf.pos_le hroom
      have hwf' : ({ b with pos := 0 } : AsyncBufWrite).Wf := ⟨Nat.zero_le _, hwf.capacity_pos⟩
      have hheld : ({ b with pos := 0 } : AsyncBufWrite).held = [] := by simp [AsyncBufWrite.held]
      have heq : AsyncWrite.write (⟨rb, b, w⟩ : AsyncBufStream T) bs =
          ((AsyncWrite.write w' bs).1, ⟨rb, { b with pos := 0 }, (AsyncWrite.write w' bs).2⟩) := by
        simp only [AsyncWrite.write, AsyncBufWrite.write_buffered, if_pos hbig, hr]
      rw [heq]
      rcases h.write w' bs k hroom' hne hk with ⟨n, w'', hw, hn, hle, hout', hroom'', hbud'⟩ |
        ⟨w'', hw, hout', hroom'', hbud'⟩
      · refine .inl ⟨n, _, by rw [hw], hn, hle, ?_, ⟨hwf', ?_⟩, ?_⟩
        · simp only [hheld, List.append_nil, hout', hout]
        · simpa only [Nat.zero_add] using hroom''
        · exact Nat.le_trans hbud' hbud
      · refine .inr ⟨_, by rw [hw], ?_, ⟨hwf', ?_⟩, ?_⟩
        · simp only [hheld, List.append_nil, hout', hout]
        · simpa only [Nat.zero_add] using hroom''
        · exact Nat.lt_of_lt_of_le hbud' hbud
    · obtain ⟨b', w', hr, hout, hwf', hroom', hbud⟩ :=
      write_buffered_short h hwf hroom hk (Nat.not_le.1 hbig)
      refine .inl ⟨bs.length, ⟨rb, b', w'⟩, ?_, List.length_pos_of_ne_nil hne, Nat.le_refl _, ?_,
        ⟨hwf', hroom'⟩, hbud⟩
      · simp only [AsyncWrite.write, hr]
      · simp only [List.take_length, hout]

/-- After a flush of the stream everything has been passed on. -/
theorem flush_spec (h : Accepts T Room out) {s : AsyncBufStream T} {k : Nat} (hs : s.Room Room k) :
    ∃ s', flush s = (.ready (.ok ()), s') ∧ out s'.inner = s.out out ∧ s'.out out = s.out out ∧
      s'.Room Room k := by
  obtain ⟨hwf, hroom⟩ := hs
  obtain ⟨w', hr, hout, hroom', -⟩ := flush_buffer h hwf.pos_le hroom
  refine ⟨⟨s.read_buf, { s.write_buf with pos := 0 }, w'⟩, ?_, hout, ?_,
    ⟨Nat.zero_le _, hwf.capacity_pos⟩, ?_⟩
  · simp only [flush, hr]
  · simpa [AsyncBufStream.out, AsyncBufWrite.held] using hout
  · simpa only [Nat.zero_add] using hroom'

end

end AsyncBufStream

end OccamsRpc
