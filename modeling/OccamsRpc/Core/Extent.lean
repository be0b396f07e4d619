import OccamsRpc.Core.Transfer
/-!
# What a successful read takes

`Delivers` is about a socket that goes on answering. Here nothing is asked of it:
whatever it answers, bytes that are handed out are the next of the stream, and a
read that ends otherwise takes none.
-/

namespace OccamsRpc

/-- A read returns bytes off the front of what there is, at most as many as asked for; one
that fails takes none. -/
structure Conserves (S : Type) [AsyncRead S] (avail : S → Bytes) : Prop where
  read : ∀ s len bs s', AsyncRead.read s len = (.ready (.ok bs), s') → avail s = bs ++ avail s' ∧
    bs.length ≤ len
  other : ∀ s len e s', AsyncRead.read s len = (.ready (.error e), s') → avail s' = avail s

section
variable {S : Type} [AsyncRead S] {avail : S → Bytes}

theorem Conserves.read_exact_loop (h : Conserves S avail) {fuel : Nat} {s s' : S} {len : Nat}
    {got bs : Bytes} (hr : AsyncRead.read_exact_loop fuel s len got = (.ready (.ok bs), s')) :
    ∃ new, bs = got ++ new ∧ new.length = len ∧ avail s = new ++ avail s' := by
  induction fuel generalizing s len got with
  | zero => cases hr
  | succ fuel ih =>
    by_cases h0 : len = 0
    · simp only [AsyncRead.read_exact_loop, h0, if_true] at hr
      cases hr
      exact ⟨[], by simp, by simp [h0], rfl⟩
    rcases hread : AsyncRead.read s len with ⟨(e | piece) | _, s₁⟩ <;>
      simp only [AsyncRead.read_exact_loop, h0, if_false, hread] at hr
    · -- interrupted: nothing was taken
      split at hr
      · obtain ⟨new, hbs, hlen, hav⟩ := ih hr
        exact ⟨new, hbs, hlen, (h.other _ _ _ _ hread).symm.trans hav⟩
      · cases hr
    · split at hr
      · cases hr
      · obtain ⟨hav, hle⟩ := h.read _ _ _ _ hread
        obtain ⟨new, rfl, hlen, hav'⟩ := ih hr
        refine ⟨piece ++ new, List.append_assoc .., ?_, ?_⟩
        · rw [List.length_append]
          omega
        · rw [hav, hav', List.append_assoc]
    · cases hr

/-- `read_exact` takes what it returns, which is as long as was asked for. -/
theorem Conserves.read_exact (h : Conserves S avail) {s s' : S} {len : Nat} {bs : Bytes}
    (hr : AsyncRead.read_exact len s = (.ready (.ok bs), s')) :
    bs.length = len ∧ avail s = bs ++ avail s' := by
  obtain ⟨new, rfl, hlen, hav⟩ := h.read_exact_loop hr
  exact ⟨hlen, hav⟩

end

theorem Sock.conserves : Conserves Sock Sock.inbound where
  read := by
    rintro ⟨_ | ⟨_ | _ | _, reads⟩, inbound, writes, sent⟩ len bs s' hr <;> cases hr
    refine ⟨(List.take_append_drop _ _).symm, ?_⟩
    rw [List.length_take]
    omega
  other := by
    rintro ⟨_ | ⟨_ | _ | _, reads⟩, inbound, writes, sent⟩ len e s' hr <;> cases hr
    rfl

/-- So does a buffer over a reader. -/
theorem AsyncBufStream.conserves {T : Type} [AsyncRead T] {avail : T → Bytes}
    (h : Conserves T avail) :
    Conserves (AsyncBufStream T) (AsyncBufStream.avail avail) where
  read := by
    rintro ⟨b, wb, inner⟩ len bs s' hr
    rw [read_eq] at hr
    simp only [AsyncBufStream.avail]
    by_cases hlt : b.pos < b.cap
    · simp only [AsyncBufRead.read_buffered, if_pos hlt] at hr
      cases hr
      refine ⟨?_, ?_⟩
      · rw [b.held_advance (Nat.min_le_right len (b.cap - b.pos)), List.append_assoc]
      · rw [List.length_take]
        omega
    have hheld := AsyncBufRead.held_eq_nil hlt
    by_cases hbig : len ≥ b.buf.length
    · rcases hread : AsyncRead.read inner len with ⟨(e | piece) | _, inner'⟩ <;>
        simp only [AsyncBufRead.read_buffered, if_neg hlt, if_pos hbig, hread] at hr <;> cases hr
      obtain ⟨hav, hle⟩ := h.read _ _ _ _ hread
      exact ⟨by simpa only [hheld, List.nil_append] using hav, hle⟩
    · rcases hread : AsyncRead.read inner b.buf.length with ⟨(e | piece) | _, inner'⟩ <;>
        simp only [AsyncBufRead.read_buffered, if_neg hlt, if_neg hbig, hread] at hr <;> cases hr
      have hn : min len piece.length ≤ piece.length := Nat.min_le_right _ _
      obtain ⟨hav, -⟩ := h.read _ _ _ _ hread
      refine ⟨?_, ?_⟩
      · rw [hheld, List.nil_append, AsyncBufRead.held_fill _ _ hn, hav, List.take_append_of_le_length hn,
          ← List.append_assoc, List.take_append_drop]
      · rw [List.length_take]
        omega
  other := by
    rintro ⟨b, wb, inner⟩ len e s' hr
    rw [read_eq] at hr
    simp only [AsyncBufStream.avail]
    by_cases hlt : b.pos < b.cap
    · simp only [AsyncBufRead.read_buffered, if_pos hlt] at hr
      cases hr
    by_cases hbig : len ≥ b.buf.length
    · rcases hread : AsyncRead.read inner len with ⟨(e' | piece) | _, inner'⟩ <;>
        simp only [AsyncBufRead.read_buffered, if_neg hlt, if_pos hbig, hread] at hr <;> cases hr
      rw [h.other _ _ _ _ hread]
    · rcases hread : AsyncRead.read inner b.buf.length with ⟨(e' | piece) | _, inner'⟩ <;>
        simp only [AsyncBufRead.read_buffered, if_neg hlt, if_neg hbig, hread] at hr <;> cases hr
      rw [h.other _ _ _ _ hread]

namespace AsyncBufStream

variable {T : Type} {avail : T → Bytes} {s s' s'' : AsyncBufStream T} {n m : Nat}

/-- From `s` to `s'` the next `n` bytes were taken. -/
def Takes (avail : T → Bytes) (n : Nat) (s s' : AsyncBufStream T) : Prop :=
  ∃ bs, bs.length = n ∧ s.avail avail = bs ++ s'.avail avail

theorem Takes.refl (s : AsyncBufStream T) : s.Takes avail 0 s := ⟨[], rfl, rfl⟩

theorem Takes.trans (h : s.Takes avail n s') (h' : s'.Takes avail m s'') :
    s.Takes avail (n + m) s'' := by
  obtain ⟨bs, hlen, hav⟩ := h
  obtain ⟨bs', hlen', hav'⟩ := h'
  refine ⟨bs ++ bs', by rw [List.length_append, hlen, hlen'], ?_⟩
  rw [hav, hav', List.append_assoc]

theorem Takes.length (h : s.Takes avail n s') :
    (s.avail avail).length = n + (s'.avail avail).length := by
  obtain ⟨bs, rfl, hav⟩ := h
  rw [hav, List.length_append]

/-- How much was taken is told by what is left. -/
theorem Takes.unique (h : s.Takes avail n s') (h' : s.Takes avail m s') : n = m := by
  have := h.length
  have := h'.length
  omega

end AsyncBufStream

end OccamsRpc
