import OccamsRpc.Core.Extent
/-!
# Reading at least so many bytes

`AsyncRead::read_at_least` of `core/src/io/buf_io.rs`: it reads until `min_len` bytes
are there or the buffer is full, and then says how many there are. What it had read
when it fails is lost, as with `read_exact`.
-/

namespace OccamsRpc

section
variable {S : Type} [AsyncRead S]

/-- `got` is the part of the buffer, of length `len`, that is filled. -/
def AsyncRead.read_at_least_loop (len min_len : Nat) :
    Nat → S → Bytes → Poll (Except IoErr Bytes) × S
  | 0, s, _ => (.pending, s)
  | fuel + 1, s, got =>
    if got.length < min_len ∧ got.length < len then
      match AsyncRead.read s (len - got.length) with
      | (.pending, s) => (.pending, s)
      | (.ready (.ok bs), s) =>
        if bs = [] then (.ready (.error .UnexpectedEof), s)
          else read_at_least_loop len min_len fuel s (got ++ bs)
      | (.ready (.error e), s) =>
        if e = .Interrupted then read_at_least_loop len min_len fuel s got else (.ready (.error e), s)
    else (.ready (.ok got), s)

/-- Every read that returns uses up part of the budget or brings a byte, so the fuel is
enough. -/
def AsyncRead.read_at_least (len min_len : Nat) : Async S IoErr Bytes := fun s =>
  read_at_least_loop len min_len (AsyncRead.budget s + len + 1) s []

/-! ## A buffer that is too short -/

theorem AsyncRead.read_at_least_loop_full {len min_len : Nat} (hmin : len ≤ min_len) (fuel : Nat)
    (s : S) (got : Bytes) :
    read_at_least_loop len min_len fuel s got = read_exact_loop fuel s (len - got.length) got := by
  induction fuel generalizing s got with
  | zero => rfl
  | succ fuel ih =>
    by_cases hfull : len ≤ got.length
    · rw [read_at_least_loop, read_exact_loop, if_neg (fun h => absurd h.2 (Nat.not_lt.2 hfull)),
        if_pos (Nat.sub_eq_zero_of_le hfull)]
    · have hmore : got.length < min_len ∧ got.length < len := by omega
      have hne : len - got.length ≠ 0 := by omega
      -- the rest that is asked for is the rest of the buffer, in both loops
      have hrest (bs : Bytes) : len - (got ++ bs).length = len - got.length - bs.length := by
        rw [List.length_append, Nat.sub_sub]
      rcases hread : AsyncRead.read s (len - got.length) with ⟨(e | bs) | _, s'⟩ <;>
        simp only [read_at_least_loop, read_exact_loop, if_pos hmore, if_neg hne, hread, ih, hrest]

/-- A buffer that is no longer than `min_len` is filled, and no more is asked for. -/
theorem AsyncRead.read_at_least_full {len min_len : Nat} (hmin : len ≤ min_len) :
    (read_at_least len min_len : Async S IoErr Bytes) = read_exact len := by
  funext s
  exact read_at_least_loop_full hmin _ s []

/-! ## What it takes -/

/-- A result of `read_at_least` when `taken` is what was read. -/
def AsyncRead.AtLeast (len min_len : Nat) (taken : Bytes) : Except IoErr Bytes → Prop
  | .ok bs => bs = taken ∧ min min_len len ≤ bs.length
  | .error _ => taken.length < min_len

variable {avail : S → Bytes} {len min_len : Nat}

theorem Conserves.read_at_least_loop (h : Conserves S avail) {fuel : Nat} {s s' : S} {got : Bytes}
    {r : Except IoErr Bytes} (hlen : got.length ≤ len)
    (hr : AsyncRead.read_at_least_loop len min_len fuel s got = (.ready r, s')) :
    ∃ new, avail s = new ++ avail s' ∧ (got ++ new).length ≤ len ∧
      AsyncRead.AtLeast len min_len (got ++ new) r := by
  induction fuel generalizing s got with
  | zero => cases hr
  | succ fuel ih =>
    by_cases hmore : got.length < min_len ∧ got.length < len
    · rcases hread : AsyncRead.read s (len - got.length) with ⟨(e | piece) | _, s₁⟩ <;>
        simp only [AsyncRead.read_at_least_loop, if_pos hmore, hread] at hr
      · -- a read that fails takes nothing
        rw [← h.other _ _ _ _ hread]
        split at hr
        · exact ih hlen hr
        · cases hr
          exact ⟨[], rfl, by simpa using hlen, by simpa [AsyncRead.AtLeast] using hmore.1⟩
      · obtain ⟨hav, hle⟩ := h.read _ _ _ _ hread
        split at hr
        case isTrue hnil =>
          cases hr
          subst hnil
          exact ⟨[], hav, by simpa using hlen, by simpa [AsyncRead.AtLeast] using hmore.1⟩
        case isFalse =>
          have hlen' : (got ++ piece).length ≤ len := by
            rw [List.length_append]
            omega
          obtain ⟨new, hav', hrest⟩ := ih hlen' hr
          rw [List.append_assoc] at hrest
          exact ⟨piece ++ new, by rw [hav, hav', List.append_assoc], hrest⟩
      · cases hr
    · rw [AsyncRead.read_at_least_loop, if_neg hmore] at hr
      cases hr
      refine ⟨[], rfl, by simpa using hlen, by simp, ?_⟩
      omega

/-! ## That it returns -/

theorem Delivers.read_at_least_loop {Live : S → Prop} (h : Delivers S Live avail) (fuel : Nat)
    (s : S) (got : Bytes) (hs : Live s) (hlen : min min_len len ≤ got.length + (avail s).length)
    (hf : AsyncRead.budget s + (len - got.length) < fuel) :
    ∃ bs s', AsyncRead.read_at_least_loop len min_len fuel s got = (.ready (.ok bs), s') := by
  induction fuel generalizing s got with
  | zero => omega
  | succ fuel ih =>
    by_cases hmore : got.length < min_len ∧ got.length < len
    · have hne : avail s ≠ [] := by
        rintro he
        rw [he, List.length_nil] at hlen
        omega
      rcases h.read s (len - got.length) hs (by omega) hne with
        ⟨bs, s', hr, hbs, hle, hav, hs', hb⟩ | ⟨s', hr, hav, hs', hb⟩
      · have hpos : 0 < bs.length := List.length_pos_of_ne_nil hbs
        have hlen' : min min_len len ≤ (got ++ bs).length + (avail s').length := by
          rw [hav, List.length_append] at hlen
          rw [List.length_append]
          omega
        simp only [AsyncRead.read_at_least_loop, if_pos hmore, hr, if_neg hbs]
        refine ih s' (got ++ bs) hs' hlen' ?_
        rw [List.length_append]
        omega
      · simp only [AsyncRead.read_at_least_loop, if_pos hmore, hr, if_true]
        refine ih s' got hs' ?_ (by omega)
        rw [hav]
        exact hlen
    · rw [AsyncRead.read_at_least_loop, if_neg hmore]
      exact ⟨got, s, rfl⟩

end

/-! ## On a buffered stream -/

section
variable {T : Type} [AsyncRead T] {avail : T → Bytes}

/-- What `read_at_least` returns are the next bytes of the stream, at least `min_len` of
them or a full buffer. A call that fails has taken fewer, and it does not fail as long
as the socket answers and there are enough. With a buffer that is too short for
`min_len` bytes it is `read_exact`. -/
theorem read_at_least_extent {Live : T → Prop} (hd : Delivers T Live avail) (hc : Conserves T avail)
    (len min_len : Nat) (s : AsyncBufStream T) :
    (∀ r s', AsyncRead.read_at_least len min_len s = (.ready r, s') → ∃ taken,
      s.avail avail = taken ++ s'.avail avail ∧ taken.length ≤ len ∧
      AsyncRead.AtLeast len min_len taken r) ∧
      (s.Live Live → min min_len len ≤ (s.avail avail).length → ∃ bs s',
        AsyncRead.read_at_least len min_len s = (.ready (.ok bs), s')) ∧
      (len ≤ min_len → AsyncRead.read_at_least len min_len s = AsyncRead.read_exact len s) := by
  refine ⟨fun r s' hr => ?_, fun hl hlen => ?_, fun hmin => ?_⟩
  · obtain ⟨new, hav, hlen, hres⟩ :=
    (AsyncBufStream.conserves hc).read_at_least_loop (Nat.zero_le len) hr
    exact ⟨new, hav, hlen, hres⟩
  · refine (AsyncBufStream.delivers hd).read_at_least_loop _ s [] hl ?_ (Nat.lt_succ_self _)
    rwa [List.length_nil, Nat.zero_add]
  · rw [AsyncRead.read_at_least_full hmin]

end

/-- The socket is interrupted once, and has more than the buffer of the caller takes. -/
def sampleAhead : AsyncBufStream Sock :=
  .new ⟨[.chunk 2, .fail .Interrupted, .chunk 1, .chunk 9, .chunk 9, .chunk 9], [1, 2, 3, 4, 5], [], []⟩ 2

theorem read_at_least_extent_ahead :
    ∃ bs s', AsyncRead.read_at_least 4 3 sampleAhead = (.ready (.ok bs), s') ∧
    3 ≤ bs.length ∧ [1, 2, 3, 4, 5] = bs ++ s'.avail Sock.inbound := by
  obtain ⟨htakes, hreturns, -⟩ := read_at_least_extent Sock.delivers Sock.conserves 4 3 sampleAhead
  have hlive : sampleAhead.Live Sock.Live := by
    refine ⟨AsyncBufRead.new_wf (by decide), ?_, by decide⟩
    simp [sampleAhead, AsyncBufStream.new]
  obtain ⟨bs, s', hr⟩ := hreturns hlive (by decide)
  obtain ⟨_, hav, -, rfl, hmin⟩ := htakes _ s' hr
  exact ⟨bs, s', hr, hmin, hav⟩

end OccamsRpc
