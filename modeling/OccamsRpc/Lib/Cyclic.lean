import Mathlib.Data.Nat.Count
import Mathlib.Data.List.Rotate
/-!
# Going round a cycle

Numbers stand for the places of a cycle of length `l`, a number for the place that
is its remainder. A scan that starts at `n` meets the places in the order of the
list rotated by `n`; a search that goes on after what it found last comes back to
a place only after all the others that it looks for; and `n` numbers in a row meet
every place equally often, give or take one.
-/

namespace Lib

/-! ## Scanning -/

/-- The elements of a list at the places that `l.length` numbers in a row stand for. -/
theorem rotate_eq_filterMap {α : Type*} (l : List α) (n : Nat) :
    l.rotate n = (List.range' n l.length).filterMap fun i => l[i % l.length]? := by
  have hmap : (List.range' n l.length).map (fun i => l[i % l.length]?) = (l.rotate n).map some := by
    apply List.ext_getElem?
    intro k
    rcases Nat.lt_or_ge k l.length with hk | hk
    · rw [List.getElem?_map, List.getElem?_map, List.getElem?_range' hk, List.getElem?_rotate hk]
      have hlt : (k + n) % l.length < l.length := Nat.mod_lt _ (by omega)
      simp [Nat.add_comm n k, List.getElem?_eq_getElem hlt]
    · rw [List.getElem?_eq_none (by simpa using hk), List.getElem?_eq_none (by simpa using hk)]
  have hid : (fun i => l[i % l.length]?) = id ∘ fun i => l[i % l.length]? := rfl
  rw [hid, ← List.filterMap_map, hmap, List.filterMap_map]
  exact List.filterMap_some.symm

/-- The first element at the places scanned that satisfies `p`, and its number. -/
theorem findSome?_snd {α : Type*} (l : List α) (p : α → Bool) (xs : List Nat) :
    (xs.findSome? fun i => l[i % l.length]?.bind fun a => if p a then some (i, a) else none).map Prod.snd =
      (xs.filterMap fun i => l[i % l.length]?).find? p := by
  induction xs with
  | nil => rfl
  | cons i xs ih =>
    cases hi : l[i % l.length]? with
    | none => simp [hi, ih]
    | some a =>
      by_cases hp : p a = true
      · simp [hi, hp]
      · simp [hi, hp, ih]

/-- What a search through numbers in a row found, it found at the first number there is. -/
theorem findSome?_range' {β : Type*} {f : Nat → Option β} {n m : Nat} {b : β}
    (h : (List.range' n m).findSome? f = some b) :
    ∃ i, n ≤ i ∧ i < n + m ∧ f i = some b ∧ ∀ k, n ≤ k → k < i → f k = none := by
  induction m generalizing n with
  | zero => cases h
  | succ m ih =>
    rw [List.range'_succ, List.findSome?_cons] at h
    split at h
    case h_1 b' hb =>
      cases h
      exact ⟨n, Nat.le_refl _, by omega, hb, by omega⟩
    case h_2 hn =>
      obtain ⟨i, hlo, hhi, hi, hnone⟩ := ih h
      refine ⟨i, by omega, by omega, hi, fun k hk hki => ?_⟩
      rcases Nat.lt_or_eq_of_le hk with hlt | rfl
      · exact hnone k hlt hki
      · exact hn

/-- The element at the place that `k` stands for satisfies `p`. -/
def AtPlace {α : Type*} (l : List α) (p : α → Bool) (k : Nat) : Prop :=
  l[k % l.length]?.any p = true

instance {α : Type*} (l : List α) (p : α → Bool) : DecidablePred (AtPlace l p) :=
  fun _ => inferInstanceAs (Decidable (_ = true))

theorem atPlace_add_length {α : Type*} (l : List α) (p : α → Bool) (k : Nat) :
    AtPlace l p (k + l.length) ↔ AtPlace l p k := by
  rw [AtPlace, AtPlace, Nat.add_mod_right]

theorem count_atPlace {α : Type*} (l : List α) (p : α → Bool) :
    l.length.count (AtPlace l p) = l.countP p := by
  have htake : ∀ n, n ≤ l.length → n.count (AtPlace l p) = (l.take n).countP p := by
    intro n
    induction n with
    | zero => exact fun _ => rfl
    | succ n ih =>
      intro hn
      have hlt : n < l.length := hn
      have hat : AtPlace l p n ↔ p l[n] = true := by
        rw [AtPlace, Nat.mod_eq_of_lt hlt, List.getElem?_eq_getElem hlt, Option.any_some]
      rw [Nat.count_succ, ih (Nat.le_of_lt hlt), List.take_succ_eq_append_getElem hlt, List.countP_append,
        List.countP_singleton]
      simp only [hat]
  rw [htake l.length (Nat.le_refl _), List.take_length]

/-! ## The next one, and the next one again -/

/-- `j` is the first number after `i` with `p`. -/
def Next (p : Nat → Prop) (i j : Nat) : Prop := i < j ∧ p j ∧ ∀ k, i < k → k < j → ¬ p k

section
variable {p : Nat → Prop} [DecidablePred p] {l : Nat}

theorem Next.count {i j : Nat} (h : Next p i j) : (j + 1).count p = (i + 1).count p + 1 := by
  obtain ⟨hlt, hj, hnone⟩ := h
  have hskip : ∀ k, i + 1 + k ≤ j → (i + 1 + k).count p = (i + 1).count p := by
    intro k
    induction k with
    | zero => exact fun _ => rfl
    | succ k ih =>
      intro hk
      have hnot : ¬ p (i + 1 + k) := hnone _ (by omega) (by omega)
      rw [← Nat.add_assoc, Nat.count_succ, if_neg hnot, Nat.add_zero]
      exact ih (by omega)
  obtain ⟨d, rfl⟩ := Nat.exists_eq_add_of_lt hlt
  have := hskip d (by omega)
  rw [Nat.count_succ, if_pos hj, show i + d + 1 = i + 1 + d by omega, this]

/-- A period further, as many more as there are in a period. -/
theorem count_add_period (hp : ∀ k, p (k + l) ↔ p k) (n : Nat) :
    (n + l).count p = n.count p + l.count p := by
  rw [Nat.count_add']
  simp only [hp]

/-- What is found one after the other is counted by the numbers up to it. -/
theorem count_of_chain {f : Nat → Nat} (n : Nat) (h : ∀ k, k < n → Next p (f k) (f (k + 1))) :
    (f n + 1).count p = (f 0 + 1).count p + n := by
  induction n with
  | zero => rfl
  | succ n ih => rw [(h n (Nat.lt_succ_self n)).count, ih fun k hk => h k (by omega), Nat.add_assoc]

omit [DecidablePred p] in
theorem le_of_chain {f : Nat → Nat} (n : Nat) (h : ∀ k, k < n → Next p (f k) (f (k + 1))) :
    f 0 + n ≤ f n := by
  induction n with
  | zero => exact Nat.le_refl _
  | succ n ih =>
    have hlt := (h n (Nat.lt_succ_self n)).1
    have hle := ih fun k hk => h k (by omega)
    omega

/-- The search does not come back to a place before it has found as many as there
are in a period. -/
theorem mod_ne_of_chain (hp : ∀ k, p (k + l) ↔ p k) {f : Nat → Nat} {n : Nat} (h0 : 0 < n)
    (hn : n < l.count p) (h : ∀ k, k < n → Next p (f k) (f (k + 1))) : f 0 % l ≠ f n % l := by
  have hlo := le_of_chain n h
  have hhi : f n < f 0 + l := by
    refine Nat.lt_of_not_le fun hle => ?_
    have hcount := count_of_chain n h
    have hmono := Nat.count_monotone p (show f 0 + 1 + l ≤ f n + 1 by omega)
    rw [count_add_period hp] at hmono
    omega
  intro hmod
  have hdvd : l ∣ f n - f 0 := Nat.dvd_of_mod_eq_zero (Nat.sub_mod_eq_zero_of_mod_eq hmod.symm)
  have hle := Nat.le_of_dvd (by omega) hdvd
  omega

/-! ## Numbers in a row -/

theorem count_add_periods (hp : ∀ k, p (k + l) ↔ p k) (n k : Nat) :
    (n + l * k).count p = n.count p + k * l.count p := by
  induction k with
  | zero => simp
  | succ k ih =>
    rw [Nat.mul_succ, ← Nat.add_assoc, count_add_period hp, ih, Nat.succ_mul, Nat.add_assoc]

/-- Of `n` numbers in a row, those that stand for one place of the cycle. -/
theorem count_row (hp : ∀ k, p (k + l) ↔ p k) (hone : l.count p = 1) (hl : 0 < l) (c n : Nat) :
    ∃ d, (c + n).count p = c.count p + n / l + d ∧ d ≤ 1 ∧ (d = 1 → 0 < n % l) ∧
      (p (c + n) → d = 0) := by
  have hn : c + n = c + n % l + l * (n / l) := by
    have := Nat.div_add_mod n l
    omega
  have hlt : n % l < l := Nat.mod_lt n hl
  have hlo := Nat.count_monotone p (show c ≤ c + n % l by omega)
  have hhi := Nat.count_monotone p (show c + n % l ≤ c + l by omega)
  rw [count_add_period hp, hone] at hhi
  refine ⟨(c + n % l).count p - c.count p, ?_, by omega, fun hd => ?_, fun hnext => ?_⟩
  · rw [hn, count_add_periods hp, hone, Nat.mul_one]
    omega
  · rcases Nat.eq_zero_or_pos (n % l) with h0 | hpos
    · rw [h0, Nat.add_zero, Nat.sub_self] at hd
      cases hd
    · exact hpos
  · -- the next number is one, so that none of its period before it is
    have hnext' : p (c + n % l) := by
      have hall : ∀ k, p (c + n % l + l * k) ↔ p (c + n % l) := by
        intro k
        induction k with
        | zero => exact Iff.rfl
        | succ k ih => rw [Nat.mul_succ, ← Nat.add_assoc, hp, ih]
      rwa [hn, hall] at hnext
    have hsucc := Nat.count_succ_eq_succ_count_iff.2 hnext'
    have hmono := Nat.count_monotone p (show c + n % l + 1 ≤ c + l by omega)
    rw [count_add_period hp, hone] at hmono
    omega

end

theorem mod_period (l m k : Nat) : (k + l) % l = m ↔ k % l = m := by rw [Nat.add_mod_right]

theorem count_mod {l m : Nat} (hm : m < l) : l.count (fun k => k % l = m) = 1 := by
  have hnext : ∀ n, n ≤ l → n.count (fun k => k % l = m) = if m < n then 1 else 0 := by
    intro n
    induction n with
    | zero => exact fun _ => rfl
    | succ n ih =>
      intro hn
      rw [Nat.count_succ, ih (by omega), Nat.mod_eq_of_lt (by omega)]
      rcases Nat.lt_trichotomy m n with h | h | h
      · rw [if_pos h, if_neg (by omega), if_pos (by omega)]
      · rw [if_neg (by omega), if_pos h.symm, if_pos (by omega)]
      · rw [if_neg (by omega), if_neg (by omega), if_neg (by omega)]
  rw [hnext l (Nat.le_refl l), if_pos hm]

theorem count_below (p : Nat → Prop) [DecidablePred p] (m n : Nat) :
    n.count (fun k => p k ∧ k < m) = (min n m).count p := by
  induction n with
  | zero => simp
  | succ n ih =>
    rw [Nat.count_succ, ih]
    rcases Nat.lt_or_ge n m with hlt | hge
    · rw [Nat.min_eq_left (Nat.le_of_lt hlt), Nat.min_eq_left hlt, Nat.count_succ]
      simp only [hlt, and_true]
    · rw [Nat.min_eq_right hge, Nat.min_eq_right (Nat.le_succ_of_le hge),
      if_neg fun h => absurd h.2 (by omega)]
      rfl

/-- When the first `m` of `n` are dealt to the places in turn, every place gets its
share of the `n` exactly when the others do not make up a round. -/
theorem shares_iff {l m n : Nat} (hl : 0 < l) (hm : m ≤ n) (c : Nat) {share : Nat → Nat}
    (hshare : ∀ k < l, share k + c.count (fun i => i % l = k) = (c + m).count fun i => i % l = k) :
    (∀ k < l, share k = n / l ∨ share k = (n + l - 1) / l) ↔ m / l = n / l := by
  have hrow : ∀ k < l, ∃ d, share k = m / l + d ∧ d ≤ 1 ∧ (d = 1 → 0 < m % l) ∧
      ((c + m) % l = k → d = 0) := by
    intro k hk
    obtain ⟨d, hd, hd1, hpos, hnext⟩ := count_row (mod_period l k) (count_mod hk) hl c m
    refine ⟨d, ?_, hd1, hpos, hnext⟩
    have := hshare k hk
    omega
  constructor
  · intro h
    -- the place that is next has the smaller share
    have hk : (c + m) % l < l := Nat.mod_lt _ hl
    obtain ⟨d, hd, -, -, hnext⟩ := hrow _ hk
    have hd0 := hnext rfl
    have hle : m / l ≤ n / l := Nat.div_le_div_right hm
    have hceil : n / l ≤ (n + l - 1) / l := Nat.div_le_div_right (by omega)
    rcases h _ hk with h | h <;> omega
  · intro h k hk
    obtain ⟨d, hd, hd1, hpos, -⟩ := hrow k hk
    rcases Nat.eq_zero_or_pos d with h0 | h1
    · left
      omega
    · right
      have hrest := hpos (by omega)
      have hmdiv := Nat.div_add_mod m l
      have hndiv := Nat.div_add_mod n l
      rw [← h] at hndiv
      have hceil : (n + l - 1) / l = m / l + 1 := by
        apply Nat.div_eq_of_lt_le
        · rw [Nat.add_mul, Nat.mul_comm]
          omega
        · have hlt : n % l < l := Nat.mod_lt n hl
          rw [Nat.add_mul, Nat.add_mul, Nat.mul_comm]
          omega
      omega

end Lib
