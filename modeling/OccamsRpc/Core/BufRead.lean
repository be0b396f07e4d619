import OccamsRpc.Core.Extent
/-!
# Reading through the buffer and without it

`read_exact` on a reader that delivers a stream of bytes, in pieces of any size
and with interruptions, hands out consecutive slices of the stream, and fails with
`UnexpectedEof` where a slice would run past its end. A buffer over such a reader
is such a reader, whatever its capacity.
-/

namespace OccamsRpc

/-- A reader of `avail` to its end: there a `read` returns no bytes. -/
structure Feeds (S : Type) [AsyncRead S] (Live : S → Prop) (avail : S → Bytes) :
    Prop extends Delivers S Live avail where
  eof : ∀ s len, Live s → 0 < len → avail s = [] →
    (∃ s', AsyncRead.read s len = (.ready (.ok []), s') ∧ avail s' = [] ∧ Live s') ∨
    ∃ s', AsyncRead.read s len = (.ready (.error .Interrupted), s') ∧ avail s' = [] ∧ Live s' ∧
      AsyncRead.budget s' < AsyncRead.budget s

/-- The results of reading slices of the given lengths one after the other. -/
def slices : Bytes → List Nat → List (Except IoErr Bytes)
  | _, [] => []
  | bs, len :: lens =>
    if len ≤ bs.length then .ok (bs.take len) :: slices (bs.drop len) lens
    else .error .UnexpectedEof :: slices [] lens

/-- The results of one `read_exact` after the other, failed or not. -/
def AsyncRead.read_exacts {S : Type} [AsyncRead S] :
    List Nat → S → List (Poll (Except IoErr Bytes)) × S
  | [], s => ([], s)
  | len :: lens, s =>
    let (r, s) := AsyncRead.read_exact len s
    let (rs, s) := read_exacts lens s
    (r :: rs, s)

section
variable {S : Type} [AsyncRead S] {Live : S → Prop} {avail : S → Bytes}

theorem Feeds.read_exact_loop_eof (h : Feeds S Live avail) (fuel : Nat) (s : S) (len : Nat)
    (got : Bytes) (hs : Live s) (hlen : (avail s).length < len)
    (hf : AsyncRead.budget s + (avail s).length < fuel) :
    ∃ s', AsyncRead.read_exact_loop fuel s len got = (.ready (.error .UnexpectedEof), s') ∧
      avail s' = [] ∧ Live s' := by
  induction fuel generalizing s len got with
  | zero => omega
  | succ fuel ih =>
    have h0 : len ≠ 0 := by omega
    by_cases hne : avail s = []
    · rcases h.eof s len hs (by omega) hne with ⟨s', hr, hav, hs'⟩ | ⟨s', hr, hav, hs', hb⟩
      · refine ⟨s', ?_, hav, hs'⟩
        simp only [AsyncRead.read_exact_loop, h0, hr, if_false, if_true]
      · rw [hne] at hlen hf
        obtain ⟨s'', hr', h''⟩ := ih s' len got hs' (by rw [hav]; exact hlen) (by rw [hav]; omega)
        refine ⟨s'', ?_, h''⟩
        simp only [AsyncRead.read_exact_loop, h0, hr, hr', if_false, if_true]
    · rcases h.read s len hs (by omega) hne with ⟨bs, s', hr, hbs, hle, hav, hs', hb⟩ | ⟨s', hr, hav, hs', hb⟩
      · -- a piece arrived, and what is left is still too short
        have hpos : 0 < bs.length := List.length_pos_of_ne_nil hbs
        rw [hav, List.length_append] at hlen hf
        obtain ⟨s'', hr', h''⟩ := ih s' (len - bs.length) (got ++ bs) hs' (by omega) (by omega)
        refine ⟨s'', ?_, h''⟩
        simp only [AsyncRead.read_exact_loop, h0, hr, hbs, hr', if_false]
      · obtain ⟨s'', hr', h''⟩ := ih s' len got hs' (by rw [hav]; exact hlen) (by rw [hav]; omega)
        refine ⟨s'', ?_, h''⟩
        simp only [AsyncRead.read_exact_loop, h0, hr, hr', if_false, if_true]

theorem Feeds.read_exacts (h : Feeds S Live avail) (lens : List Nat) {s : S} (hs : Live s) :
    (AsyncRead.read_exacts lens s).1 = (slices (avail s) lens).map .ready := by
  induction lens generalizing s with
  | nil => rfl
  | cons len lens ih =>
    rw [AsyncRead.read_exacts, slices]
    by_cases hle : len ≤ (avail s).length
    · obtain ⟨s', hr, hav, hs'⟩ := h.read_exact hs hle
      simp only [if_pos hle, hr, List.map_cons, ← hav, ih hs']
    · obtain ⟨s', hr, hav, hs'⟩ :=
        h.read_exact_loop_eof (AsyncRead.budget s + len + 1) s len [] hs (by omega) (by omega)
      have hr : AsyncRead.read_exact len s = (.ready (.error .UnexpectedEof), s') := hr
      simp only [if_neg hle, hr, List.map_cons, ← hav, ih hs']

/-- What every `read` keeps, `read_exact` keeps. -/
theorem AsyncRead.read_exact_loop_inv {I : S → Prop}
    (hI : ∀ s len r s', I s → AsyncRead.read s len = (r, s') → I s') (fuel : Nat) (s : S)
    (len : Nat) (got : Bytes) (hs : I s) : I (read_exact_loop fuel s len got).2 := by
  induction fuel generalizing s len got with
  | zero => exact hs
  | succ fuel ih =>
    rw [read_exact_loop]
    split
    · exact hs
    · rcases hr : AsyncRead.read s len with ⟨(e | bs) | _, s₁⟩ <;>
      have hs₁ := hI s len _ s₁ hs hr <;> dsimp only
      · split
        · exact ih s₁ len got hs₁
        · exact hs₁
      · split
        · exact hs₁
        · exact ih s₁ _ _ hs₁
      · exact hs₁

theorem AsyncRead.read_exacts_inv {I : S → Prop}
    (hI : ∀ s len r s', I s → AsyncRead.read s len = (r, s') → I s') (lens : List Nat) {s : S}
    (hs : I s) : I (read_exacts lens s).2 := by
  induction lens generalizing s with
  | nil => exact hs
  | cons len lens ih =>
    have hs₁ : I (read_exact len s).2 := read_exact_loop_inv hI _ s len [] hs
    exact ih hs₁

end

/-! ## The buffer -/

/-- The indices of a buffer of this capacity. -/
structure AsyncBufRead.Sized (capacity : Nat) (b : AsyncBufRead) : Prop where
  pos_le : b.pos ≤ b.cap
  cap_le : b.cap ≤ capacity
  length_eq : b.buf.length = capacity

theorem AsyncBufRead.new_sized (capacity : Nat) : (AsyncBufRead.new capacity).Sized capacity :=
  ⟨Nat.le_refl _, Nat.zero_le _, List.length_replicate⟩

namespace AsyncBufStream

variable {T : Type} [AsyncRead T] {Live : T → Prop} {avail : T → Bytes}

theorem feeds (h : Feeds T Live avail) :
    Feeds (AsyncBufStream T) (AsyncBufStream.Live Live) (AsyncBufStream.avail avail) where
  toDelivers := delivers h.toDelivers
  eof := by
    rintro ⟨b, wb, inner⟩ len ⟨hwf, hlive⟩ hlen hnil
    simp only [AsyncBufStream.avail, List.append_eq_nil_iff] at hwf hlive hnil ⊢
    obtain ⟨hheld, hnil⟩ := hnil
    obtain ⟨hpos, hcap, hsz⟩ := hwf
    have hlt : ¬ b.pos < b.cap := by
      intro hlt
      have hl := congrArg List.length hheld
      simp only [AsyncBufRead.held, List.length_take, List.length_drop, List.length_nil] at hl
      omega
    by_cases hbig : len ≥ b.buf.length
    · -- past the buffer
      have heq : b.read_buffered inner len =
          ((AsyncRead.read inner len).1, b, (AsyncRead.read inner len).2) := by
        simp only [AsyncBufRead.read_buffered, if_neg hlt, if_pos hbig]
      rcases h.eof inner len hlive hlen hnil with ⟨i', hr, hav, hl'⟩ | ⟨i', hr, hav, hl', hb⟩
      · exact .inl ⟨⟨b, wb, i'⟩, by simp only [read_eq, heq, hr], ⟨hheld, hav⟩, ⟨hpos, hcap, hsz⟩, hl'⟩
      · exact .inr ⟨⟨b, wb, i'⟩, by simp only [read_eq, heq, hr], ⟨hheld, hav⟩, ⟨⟨hpos, hcap, hsz⟩, hl'⟩, hb⟩
    · -- the buffer is filled with nothing
      rcases h.eof inner b.buf.length hlive hsz hnil with ⟨i', hr, hav, hl'⟩ | ⟨i', hr, hav, hl', hb⟩
      · refine .inl ⟨⟨⟨b.buf, 0, 0⟩, wb, i'⟩, ?_, ⟨by simp [AsyncBufRead.held], hav⟩,
        ⟨Nat.le_refl _, Nat.zero_le _, hsz⟩, hl'⟩
        simp only [read_eq, AsyncBufRead.read_buffered, if_neg hlt, if_neg hbig, hr,
          List.length_nil, Nat.min_zero, List.take_zero, List.drop_zero, List.nil_append]
      · refine .inr ⟨⟨b, wb, i'⟩, ?_, ⟨hheld, hav⟩, ⟨⟨hpos, hcap, hsz⟩, hl'⟩, hb⟩
        simp only [read_eq, AsyncBufRead.read_buffered, if_neg hlt, if_neg hbig, hr]

/-- Whatever the reader below answers, the indices stay in order. -/
theorem read_sized (h : Conserves T avail) {capacity len : Nat} {s s' : AsyncBufStream T}
    {r : Poll (Except IoErr Bytes)} (hs : s.read_buf.Sized capacity)
    (hr : AsyncRead.read s len = (r, s')) :
    s'.read_buf.Sized capacity := by
  obtain ⟨b, wb, inner⟩ := s
  obtain ⟨hpos, hcap, hlen⟩ := hs
  rw [read_eq] at hr
  simp only at hpos hcap hlen
  unfold AsyncBufRead.read_buffered at hr
  split at hr
  case isTrue hlt =>
    cases hr
    refine ⟨?_, hcap, hlen⟩
    simp only
    omega
  case isFalse hlt =>
    split at hr
    case isTrue =>
      cases hr
      exact ⟨hpos, hcap, hlen⟩
    case isFalse hshort =>
      rcases hread : AsyncRead.read inner b.buf.length with ⟨(e | bs) | _, inner'⟩ <;>
        simp only [hread] at hr <;> cases hr
      · exact ⟨hpos, hcap, hlen⟩
      · obtain ⟨-, hle⟩ := h.read _ _ _ _ hread
        refine ⟨Nat.min_le_right _ _, by rw [← hlen]; exact hle, ?_⟩
        simp only [List.length_append, List.length_drop]
        omega
      · exact ⟨hpos, hcap, hlen⟩

/-- Reading through a buffer of any capacity gives what reading without it gives,
however the two are fed the stream: the same slices, and `UnexpectedEof` from the
same calls. The indices stay in order at every read, whatever it returns, and one
that fails takes nothing. -/
theorem reads_as_direct {T' : Type} [AsyncRead T'] {Live' : T' → Prop} {avail' : T' → Bytes}
    (h : Feeds T Live avail) (hc : Conserves T avail) (h' : Feeds T' Live' avail') {reader : T}
    {bare : T'} (hl : Live reader) (hl' : Live' bare) (hsame : avail reader = avail' bare)
    {capacity : Nat} (hcap : 0 < capacity) (lens : List Nat) :
    (AsyncRead.read_exacts lens (new reader capacity)).1 = (AsyncRead.read_exacts lens bare).1 ∧
    (AsyncRead.read_exacts lens bare).1 = (slices (avail reader) lens).map .ready ∧
    (AsyncRead.read_exacts lens (new reader capacity)).2.read_buf.Sized capacity ∧
    ∀ (s : AsyncBufStream T) len r s', s.read_buf.Sized capacity → AsyncRead.read s len = (r, s') →
      s'.read_buf.Sized capacity ∧ ∀ e, r = .ready (.error e) → s'.avail avail = s.avail avail := by
  have hnew : (new reader capacity).Live Live := ⟨AsyncBufRead.new_wf hcap, hl⟩
  have havail : (new reader capacity).avail avail = avail reader := by
    simp [AsyncBufStream.avail, new, AsyncBufRead.new, AsyncBufRead.held]
  have hbare : (AsyncRead.read_exacts lens bare).1 = (slices (avail reader) lens).map .ready := by
    rw [h'.read_exacts lens hl', hsame]
  refine ⟨?_, hbare, ?_, fun s len r s' hs hr => ⟨read_sized hc hs hr, ?_⟩⟩
  · rw [(feeds h).read_exacts lens hnew, havail, hbare]
  · exact AsyncRead.read_exacts_inv (I := fun s => s.read_buf.Sized capacity)
      (fun _ _ _ _ hs hr => read_sized hc hs hr) lens (s := new reader capacity)
        (AsyncBufRead.new_sized capacity)
  · rintro e rfl
    exact (conserves hc).other s len e s' hr

end AsyncBufStream

/-! ## A reader that goes on to the end -/

/-- It follows a plan: at most so many bytes and one, or an interruption; and then
gives one byte a call. -/
structure Tape where
  rest : Bytes
  plan : List (Option Nat)

namespace Tape

/-- A read of the tape that returns all it was asked for. -/
def give (s : Tape) (n : Nat) : Poll (Except IoErr Bytes) × Tape :=
  (.ready (.ok (s.rest.take n)), ⟨s.rest.drop n, s.plan.tail⟩)

instance : AsyncRead Tape where
  read s len :=
    match s.plan with
    | none :: plan => (.ready (.error .Interrupted), ⟨s.rest, plan⟩)
    | some n :: _ => s.give (min (n + 1) len)
    | [] => s.give (min 1 len)
  budget s := s.plan.length

theorem read_cases (s : Tape) (len : Nat) :
    (∃ n, AsyncRead.read s len = s.give (min (n + 1) len)) ∨
      AsyncRead.read s len = (.ready (.error .Interrupted), ⟨s.rest, s.plan.tail⟩) ∧
      0 < s.plan.length := by
  obtain ⟨rest, _ | ⟨_ | n, plan⟩⟩ := s
  · exact .inl ⟨0, rfl⟩
  · exact .inr ⟨rfl, Nat.zero_lt_succ _⟩
  · exact .inl ⟨n, rfl⟩

theorem budget_give (s : Tape) (n : Nat) : AsyncRead.budget (s.give n).2 ≤ AsyncRead.budget s := by
  simp only [give, AsyncRead.budget, List.length_tail]
  omega

theorem conserves : Conserves Tape Tape.rest where
  read := by
    intro s len bs s' hr
    rcases s.read_cases len with ⟨n, h⟩ | ⟨h, -⟩ <;> rw [h] at hr <;> cases hr
    refine ⟨(List.take_append_drop _ _).symm, ?_⟩
    rw [List.length_take]
    omega
  other := by
    intro s len e s' hr
    rcases s.read_cases len with ⟨n, h⟩ | ⟨h, -⟩ <;> rw [h] at hr <;> cases hr
    rfl

theorem feeds : Feeds Tape (fun _ => True) Tape.rest where
  read := by
    intro s len _ hlen hne
    rcases s.read_cases len with ⟨n, h⟩ | ⟨h, hb⟩
    · have hpos : 0 < s.rest.length := List.length_pos_of_ne_nil hne
      refine .inl ⟨_, _, h, ?_, ?_, (List.take_append_drop _ _).symm, trivial, s.budget_give _⟩
      · apply List.ne_nil_of_length_pos
        rw [List.length_take]
        omega
      · rw [List.length_take]
        omega
    · refine .inr ⟨_, h, rfl, trivial, ?_⟩
      simp only [AsyncRead.budget, List.length_tail]
      omega
  eof := by
    intro s len _ hlen hnil
    rcases s.read_cases len with ⟨n, h⟩ | ⟨h, hb⟩
    · refine .inl ⟨(s.give (min (n + 1) len)).2, ?_, ?_, trivial⟩
      · rw [h, give, hnil, List.take_nil]
      · rw [give, hnil, List.drop_nil]
    · refine .inr ⟨_, h, hnil, trivial, ?_⟩
      simp only [AsyncRead.budget, List.length_tail]
      omega

end Tape

/-- Seven bytes through a buffer of four, the fourth call past the end. -/
theorem AsyncBufStream.reads_as_direct_tape :
    (AsyncRead.read_exacts [3, 2, 1, 5, 0]
      (new (⟨[1, 2, 3, 4, 5, 6, 7], [some 1, none, some 8]⟩ : Tape) 4)).1 =
      [.ready (.ok [1, 2, 3]), .ready (.ok [4, 5]), .ready (.ok [6]),
        .ready (.error .UnexpectedEof), .ready (.ok [])] := by
  have hsame : Tape.rest ⟨[1, 2, 3, 4, 5, 6, 7], [some 1, none, some 8]⟩ =
    Tape.rest ⟨[1, 2, 3, 4, 5, 6, 7], []⟩ := rfl
  have h := reads_as_direct Tape.feeds Tape.conserves Tape.feeds trivial trivial hsame
    (Nat.zero_lt_succ 3) [3, 2, 1, 5, 0]
  exact h.1.trans h.2.1

end OccamsRpc
