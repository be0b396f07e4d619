import OccamsRpc.Stream.Task
/-!
# Space for a response blob

`AllocateBuf::reserve` of `core/src/io/buffer.rs`, for the buffers a task may keep
its response blob in. Those that are a `Vec<u8>` set their length by the unsafe
`set_len`, whose condition is that the capacity is there.
-/

namespace OccamsRpc

/-- A `Vec<u8>`: what it holds up to its length, and what the allocation holds
behind it. -/
structure ByteVec where
  data : Bytes
  spare : Bytes

/-- `set_len` beyond the capacity. -/
inductive Misuse
  | set_len
  deriving DecidableEq

namespace ByteVec

def len (v : ByteVec) : Nat := v.data.length

def capacity (v : ByteVec) : Nat := v.data.length + v.spare.length

/-- `unsafe { v.set_len(n) }` -/
def set_len (v : ByteVec) (n : Nat) : Except Misuse ByteVec :=
  if n ≤ v.capacity then .ok ⟨(v.data ++ v.spare).take n, (v.data ++ v.spare).drop n⟩ else .error .set_len

theorem len_le_capacity (v : ByteVec) : v.len ≤ v.capacity := Nat.le_add_right _ _

theorem set_len_ok {v : ByteVec} {n : Nat} (h : n ≤ v.capacity) :
    ∃ v', v.set_len n = .ok v' ∧ v'.data.length = n := by
  refine ⟨_, if_pos h, ?_⟩
  rw [List.length_take, List.length_append]
  exact Nat.min_eq_left h

theorem set_len_misused {v : ByteVec} {n : Nat} (h : v.capacity < n) :
    v.set_len n = .error .set_len :=
  if_neg (Nat.not_le.2 h)

theorem length_of_set_len {v v' : ByteVec} {n : Nat} (h : v.set_len n = .ok v') :
    v'.data.length = n := by
  by_cases hc : n ≤ v.capacity
  · obtain ⟨w, hw, hlen⟩ := set_len_ok hc
    cases hw.symm.trans h
    exact hlen
  · rw [set_len_misused (Nat.lt_of_not_le hc)] at h
    cases h

end ByteVec

/-- What the standard library says of `Vec`. -/
structure VecApi where
  reserve : ByteVec → Nat → ByteVec
  reserve_data : ∀ v additional, (reserve v additional).data = v.data
  reserve_capacity : ∀ v additional, v.len + additional ≤ (reserve v additional).capacity
  reserve_enough : ∀ v additional, v.len + additional ≤ v.capacity → reserve v additional = v
  with_capacity : Nat → ByteVec
  with_capacity_data : ∀ n, (with_capacity n).data = []
  with_capacity_capacity : ∀ n, n ≤ (with_capacity n).capacity

/-- No byte more than is asked for. -/
def VecApi.exact : VecApi where
  reserve v additional := ⟨v.data, v.spare ++ List.replicate (additional - v.spare.length) 0⟩
  reserve_data _ _ := rfl
  reserve_capacity v additional := by
    simp only [ByteVec.len, ByteVec.capacity, List.length_append, List.length_replicate]
    omega
  reserve_enough v additional h := by
    have h0 : additional - v.spare.length = 0 := by
      simp only [ByteVec.len, ByteVec.capacity] at h
      omega
    rw [h0, List.replicate_zero, List.append_nil]
  with_capacity n := ⟨[], List.replicate n 0⟩
  with_capacity_data _ := rfl
  with_capacity_capacity n := by simp [ByteVec.capacity]

namespace AllocateBuf

variable (api : VecApi)

/-- `reserve` of a `Vec<u8>`: the slice it returns, and the vector. -/
def reserve_vec (self : ByteVec) (blob_len : Int32) : Except Misuse (Option Bytes × ByteVec) := do
  let blob_len := as_usize blob_len
  let self ←
    if self.len ≠ blob_len then
      (if self.capacity < blob_len then api.reserve self (blob_len - self.capacity)
        else self).set_len blob_len
    else pure self
  pure (some self.data, self)

/-- `reserve` of an `Option<Vec<u8>>` -/
def reserve_option_vec (self : Option ByteVec) (blob_len : Int32) :
    Except Misuse (Option Bytes × Option ByteVec) :=
  match self with
  | some buf => do
    let (slice, buf) ← reserve_vec api buf blob_len
    pure (slice, some buf)
  | none => do
    let v ← (api.with_capacity (as_usize blob_len)).set_len (as_usize blob_len)
    pure (some v.data, some v)

/-- `reserve` of an `io_buffer::Buffer`, which is never grown. -/
def reserve_buffer (self : ByteVec) (blob_len : Int32) : Except Misuse (Option Bytes × ByteVec) :=
  if self.len ≠ as_usize blob_len then
    if self.capacity < as_usize blob_len then .ok (none, self)
    else do
      let self ← self.set_len (as_usize blob_len)
      pure (some self.data, self)
  else .ok (some self.data, self)

/-! ## When `set_len` is in order -/

/-- `set_len` was in order, and the slice has the length asked for. -/
def Reserved {α : Type} (blob_len : Int32) (r : Except Misuse (Option Bytes × α)) : Prop :=
  ∃ slice a, r = .ok (some slice, a) ∧ slice.length = as_usize blob_len

/-- The capacity is there, or all of it is in use: what is missing is counted from
the capacity, and `Vec::reserve` counts from the length. -/
def Fits (v : ByteVec) (blob_len : Int32) : Prop :=
  as_usize blob_len ≤ v.capacity ∨ v.len = v.capacity

theorem reserve_vec_of_len {v : ByteVec} {blob_len : Int32} (h : v.len = as_usize blob_len) :
    reserve_vec api v blob_len = .ok (some v.data, v) := by
  simp only [reserve_vec, h, ne_eq, not_true_eq_false, if_false]
  rfl

/-- With a `Vec` that has the capacity after growing, if it was grown. -/
theorem reserve_vec_ok {v w : ByteVec} {blob_len : Int32} (hne : v.len ≠ as_usize blob_len)
    (hw : (if v.capacity < as_usize blob_len then api.reserve v (as_usize blob_len - v.capacity) else v) = w)
    (hc : as_usize blob_len ≤ w.capacity) :
    Reserved blob_len (reserve_vec api v blob_len) := by
  obtain ⟨v', hv', hlen⟩ := ByteVec.set_len_ok hc
  refine ⟨v'.data, v', ?_, hlen⟩
  simp only [reserve_vec, ne_eq, hne, not_false_eq_true, if_true, hw, hv']
  rfl

theorem reserve_vec_misused {v w : ByteVec} {blob_len : Int32} (hne : v.len ≠ as_usize blob_len)
    (hw : (if v.capacity < as_usize blob_len then api.reserve v (as_usize blob_len - v.capacity) else v) = w)
    (hc : w.capacity < as_usize blob_len) : reserve_vec api v blob_len = .error .set_len := by
  simp only [reserve_vec, ne_eq, hne, not_false_eq_true, if_true, hw, ByteVec.set_len_misused hc]
  rfl

theorem Fits.reserved {v : ByteVec} {blob_len : Int32} (h : Fits v blob_len) (api : VecApi) :
    Reserved blob_len (reserve_vec api v blob_len) := by
  by_cases hne : v.len = as_usize blob_len
  · exact ⟨v.data, v, reserve_vec_of_len api hne, hne⟩
  by_cases hc : v.capacity < as_usize blob_len
  · -- all of the capacity is in use, so the space gained is the space missing
    have hfull : v.len = v.capacity := h.resolve_left (Nat.not_le.2 hc)
    have hroom := api.reserve_capacity v (as_usize blob_len - v.capacity)
    exact reserve_vec_ok api hne (if_pos hc) (by omega)
  · exact reserve_vec_ok api hne (if_neg hc) (Nat.le_of_not_lt hc)

/-- Otherwise a `Vec` that grows to what `reserve` must give stays too small. -/
theorem fits_of_reserved {v : ByteVec} {blob_len : Int32}
    (h : Reserved blob_len (reserve_vec .exact v blob_len)) :
    Fits v blob_len := by
  by_contra hn
  obtain ⟨hc, hfull⟩ := not_or.1 hn
  have hlen := v.len_le_capacity
  have hlt : v.capacity < as_usize blob_len := Nat.lt_of_not_le hc
  have hne : v.len ≠ as_usize blob_len := by omega
  have hsmall : (VecApi.exact.reserve v (as_usize blob_len - v.capacity)).capacity <
      as_usize blob_len := by
    simp only [VecApi.exact, ByteVec.len, ByteVec.capacity, List.length_append, List.length_replicate] at *
    omega
  obtain ⟨slice, a, hr, -⟩ := h
  rw [reserve_vec_misused _ hne (if_pos hlt) hsmall] at hr
  cases hr

/-- A vector and an optional one are reserved in keeping with `set_len`, however
`Vec::reserve` grows, exactly if the vector there is has the capacity or uses all of
the capacity it has. -/
theorem reserved_iff (blob_len : Int32) :
    (∀ v, (∀ api, Reserved blob_len (reserve_vec api v blob_len)) ↔ Fits v blob_len) ∧
    ∀ o, (∀ api, Reserved blob_len (reserve_option_vec api o blob_len)) ↔ ∀ v, o = some v →
    Fits v blob_len := by
  have hvec : ∀ v, (∀ api, Reserved blob_len (reserve_vec api v blob_len)) ↔
    Fits v blob_len := fun v =>
    ⟨fun h => fits_of_reserved (h _), fun h api => h.reserved api⟩
  refine ⟨hvec, fun o => ?_⟩
  cases o with
  | none =>
    refine ⟨fun _ _ h => (by cases h), fun _ api => ?_⟩
    obtain ⟨v', hv', hlen⟩ := ByteVec.set_len_ok (api.with_capacity_capacity (as_usize blob_len))
    refine ⟨v'.data, some v', ?_, hlen⟩
    simp only [reserve_option_vec, hv']
    rfl
  | some v =>
    have hsame : ∀ api, Reserved blob_len (reserve_option_vec api (some v) blob_len) ↔
        Reserved blob_len (reserve_vec api v blob_len) := by
      intro api
      rcases hr : reserve_vec api v blob_len with e | ⟨slice, v'⟩ <;>
        simp [Reserved, reserve_option_vec, hr, bind, Except.bind, pure, Except.pure]
    simp only [hsame, hvec v, Option.some.injEq, forall_eq']

/-- Ten bytes of capacity and none in use: five more are asked for, which are there,
and the length is set to fifteen. -/
theorem reserve_beyond_capacity :
    let v : ByteVec := ⟨[], List.replicate 10 0⟩
    (∀ api, reserve_vec api v 15 = .error .set_len) ∧
    (∀ api, (reserve_option_vec api (some v) 15).isOk = false) ∧
    ¬ ∀ api, Reserved 15 (reserve_vec api v 15) := by
  intro v
  have hvec : ∀ api, reserve_vec api v 15 = .error .set_len := by
    intro api
    have hsame : api.reserve v 5 = v := api.reserve_enough v 5 (by decide)
    have hcap : (api.reserve v (as_usize 15 - v.capacity)).capacity < as_usize 15 := by
      rw [show as_usize 15 - v.capacity = 5 by decide, hsame]
      decide
    exact reserve_vec_misused api (by decide) (if_pos (by decide)) hcap
  refine ⟨hvec, fun api => ?_, fun h => ?_⟩
  · simp only [reserve_option_vec, hvec api]
    rfl
  · obtain ⟨slice, a, hr, -⟩ := h .exact
    rw [hvec] at hr
    cases hr

/-- A slice of a buffer is all of the buffer, and has the length asked for. -/
theorem reserve_buffer_slice {b b' : ByteVec} {blob_len : Int32} {slice : Bytes}
    (h : reserve_buffer b blob_len = .ok (some slice, b')) :
    slice = b'.data ∧ slice.length = as_usize blob_len := by
  unfold reserve_buffer at h
  split at h
  · split at h
    · cases h
    · rcases hb : b.set_len (as_usize blob_len) with e | w <;> simp only [hb] at h <;> cases h
      exact ⟨rfl, ByteVec.length_of_set_len hb⟩
  · rename_i hlen
    cases h
    exact ⟨rfl, not_not.1 hlen⟩

/-- An `io_buffer::Buffer` that is too small is refused instead. -/
theorem reserve_buffer_ok (v : ByteVec) (blob_len : Int32) :
    ∃ r v', reserve_buffer v blob_len = .ok (r, v') ∧
      (r.isSome = true ↔ as_usize blob_len ≤ v.capacity) := by
  have hlen := v.len_le_capacity
  by_cases hne : v.len = as_usize blob_len
  · refine ⟨some v.data, v, ?_, ?_⟩
    · simp only [reserve_buffer, hne, ne_eq, not_true_eq_false, if_false]
    · simp only [Option.isSome_some, true_iff]
      omega
  by_cases hc : v.capacity < as_usize blob_len
  · refine ⟨none, v, ?_, ?_⟩
    · simp only [reserve_buffer, ne_eq, hne, not_false_eq_true, if_true, if_pos hc]
    · simp only [Option.isSome_none, Bool.false_eq_true, false_iff]
      omega
  · obtain ⟨v', hv', -⟩ := ByteVec.set_len_ok (Nat.le_of_not_lt hc)
    refine ⟨some v'.data, v', ?_, ?_⟩
    · simp only [reserve_buffer, ne_eq, hne, not_false_eq_true, if_true, if_neg hc, hv']
      rfl
    · simp only [Option.isSome_some, true_iff]
      omega

/-! ## The blob of a derived task -/

/-- Where `set_len` was in order the slice is all of the vector, and has the length asked
for. -/
theorem reserve_vec_slice {v v' : ByteVec} {blob_len : Int32} {r : Option Bytes}
    (h : reserve_vec api v blob_len = .ok (r, v')) :
    r = some v'.data ∧ v'.data.length = as_usize blob_len := by
  by_cases hne : v.len = as_usize blob_len
  · rw [reserve_vec_of_len api hne] at h
    cases h
    exact ⟨rfl, hne⟩
  · rcases hv :
      (if v.capacity < as_usize blob_len then api.reserve v (as_usize blob_len - v.capacity)
        else v).set_len
      (as_usize blob_len) with e | w <;>
      simp only [reserve_vec, ne_eq, hne, not_false_eq_true, if_true, hv] at h <;> cases h
    exact ⟨rfl, ByteVec.length_of_set_len hv⟩

theorem reserve_option_vec_slice {o o' : Option ByteVec} {blob_len : Int32} {r : Option Bytes}
    (h : reserve_option_vec api o blob_len = .ok (r, o')) :
    ∃ v, o' = some v ∧ r = some v.data ∧ v.data.length = as_usize blob_len := by
  cases o with
  | none =>
    rcases hv : (api.with_capacity (as_usize blob_len)).set_len (as_usize blob_len) with e | v <;>
      simp only [reserve_option_vec, hv] at h <;> cases h
    exact ⟨v, rfl, rfl, ByteVec.length_of_set_len hv⟩
  | some v =>
    rcases hv : reserve_vec api v blob_len with e | ⟨slice, v'⟩ <;>
      simp only [reserve_option_vec, hv] at h <;> cases h
    obtain ⟨rfl, hlen⟩ := reserve_vec_slice api hv
    exact ⟨v', rfl, rfl, hlen⟩

/-- A task reserves its blob as its `Option<Vec<u8>>` does; the bytes of the slice are
read next, so that only their number matters. -/
theorem reserve_resp_blob_eq {Q P E : Type} (t : DerivedTask Q P E) (ht : t.has_resp_blob = true)
    {o o' : Option ByteVec} {blob_len : Int32} (h0 : 0 ≤ blob_len) {r : Option Bytes}
    (h : reserve_option_vec api o blob_len = .ok (r, o')) :
    (t.reserve_resp_blob blob_len).2 = r.map List.length := by
  obtain ⟨v, -, rfl, hlen⟩ := reserve_option_vec_slice api h
  have hnum : blob_len.toInt.toNat = as_usize blob_len := by
    have hpos : 0 ≤ blob_len.toInt := by simpa [Int32.le_iff_toInt_le] using h0
    have hlt := blob_len.toInt_lt
    rw [as_usize]
    omega
  simp only [DerivedTask.reserve_resp_blob, ht, if_true, Option.map_some, hlen, hnum]

end AllocateBuf

end OccamsRpc
