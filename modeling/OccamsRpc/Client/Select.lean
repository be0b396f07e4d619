import OccamsRpc.Client.Failover
import OccamsRpc.Lib.Cyclic
/-!
# Which pool is selected

`ClusterConfig::select` scans the indices `seed..seed + l` and takes each modulo
the number of pools `l`, so it meets the pools in cyclic order from the seed. The
index it returns is not reduced: a retry goes on behind it. The end of the range
is computed before the modulo, and the seed comes from a counter that wraps.
-/
open Lib

namespace OccamsRpc

/-- The loop of `select`. -/
def ClusterConfig.scan (self : ClusterConfig) (is_healthy : Nat → Bool) (seed : Nat) :
    Option (Nat × Pool) :=
  (List.range' seed (usize (seed + self.pools.length) - seed)).findSome? fun i =>
    self.pools[i % self.pools.length]?.bind fun pool => if is_healthy pool.id
      then some (i, pool) else none

/-- The pool at the index is healthy. -/
def ClusterConfig.HealthyAt (self : ClusterConfig) (is_healthy : Nat → Bool) : Nat → Prop :=
  AtPlace self.pools fun pool => is_healthy pool.id

namespace ClusterConfig

instance (self : ClusterConfig) (is_healthy : Nat → Bool) :
    DecidablePred (self.HealthyAt is_healthy) :=
  inferInstanceAs (DecidablePred (AtPlace _ _))

/-- How many of its pools are healthy. -/
def healthy (self : ClusterConfig) (is_healthy : Nat → Bool) : Nat :=
  self.pools.countP fun pool => is_healthy pool.id

variable {self : ClusterConfig} {is_healthy : Nat → Bool} {seed : Nat}

theorem count_healthyAt :
    self.pools.length.count (self.HealthyAt is_healthy) = self.healthy is_healthy :=
  count_atPlace _ _

theorem usize_sub (h : seed + self.pools.length < 2 ^ 64) :
    usize (seed + self.pools.length) - seed = self.pools.length := by
  rw [usize, Nat.mod_eq_of_lt h, Nat.add_sub_cancel_left]

/-- The end of the range has wrapped, and the range is empty. -/
theorem scan_wrapped (hseed : seed < 2 ^ 64) (hl : self.pools.length < 2 ^ 64)
    (h : 2 ^ 64 ≤ seed + self.pools.length) :
    self.scan is_healthy seed = none := by
  have hempty : usize (seed + self.pools.length) - seed = 0 := by
    rw [usize, Nat.mod_eq_sub_mod h, Nat.mod_eq_of_lt (by omega)]
    omega
  rw [scan, hempty]
  rfl

/-- The pool that the scan comes to. -/
theorem scan_snd (h : seed + self.pools.length < 2 ^ 64) :
    (self.scan is_healthy seed).map Prod.snd =
      (self.pools.rotate (seed % self.pools.length)).find? fun pool => is_healthy pool.id := by
  rw [scan, usize_sub h, List.rotate_mod, rotate_eq_filterMap]
  exact findSome?_snd self.pools (fun pool => is_healthy pool.id) _

theorem scan_eq_none_iff (h : seed + self.pools.length < 2 ^ 64) :
    self.scan is_healthy seed = none ↔ ∀ pool ∈ self.pools, is_healthy pool.id = false := by
  rw [← Option.map_eq_none_iff (f := Prod.snd), scan_snd h, List.find?_eq_none]
  simp only [List.mem_rotate, Bool.not_eq_true]

/-- The index it returns is that of the first healthy pool from the seed on. -/
theorem scan_some (h : seed + self.pools.length < 2 ^ 64) {i : Nat} {pool : Pool}
    (hs : self.scan is_healthy seed = some (i, pool)) :
    seed ≤ i ∧ i < seed + self.pools.length ∧ self.pools[i % self.pools.length]? = some pool ∧
      is_healthy pool.id = true ∧ ∀ k, seed ≤ k → k < i → ¬ self.HealthyAt is_healthy k := by
  rw [scan, usize_sub h] at hs
  obtain ⟨j, hlo, hhi, hj, hnone⟩ := findSome?_range' hs
  obtain ⟨p, hp, hpick⟩ := Option.bind_eq_some_iff.1 hj
  split at hpick
  case isFalse => cases hpick
  case isTrue hok =>
    cases hpick
    refine ⟨hlo, hhi, hp, hok, fun k hk hki hat => ?_⟩
    have hk' := hnone k hk hki
    rw [ClusterConfig.HealthyAt, AtPlace] at hat
    cases hget : self.pools[k % self.pools.length]? with
    | none =>
      rw [hget] at hat
      cases hat
    | some p =>
      rw [hget, Option.any_some] at hat
      rw [hget, Option.bind_some, if_pos hat] at hk'
      cases hk'

/-- When all are healthy it stops where it starts. -/
theorem scan_healthy (h : seed + self.pools.length < 2 ^ 64) (hl : 0 < self.pools.length)
    (hall : ∀ pool ∈ self.pools, is_healthy pool.id = true) :
    ∃ pool, self.scan is_healthy seed = some (seed, pool) ∧
      self.pools[seed % self.pools.length]? = some pool := by
  have hlt : seed % self.pools.length < self.pools.length := Nat.mod_lt _ hl
  have hat : self.HealthyAt is_healthy seed := by
    rw [HealthyAt, AtPlace, List.getElem?_eq_getElem hlt]
    exact hall _ (List.getElem_mem hlt)
  cases hs : self.scan is_healthy seed with
  | none =>
    have hsick := (scan_eq_none_iff h).1 hs _ (List.getElem_mem hlt)
    rw [hall _ (List.getElem_mem hlt)] at hsick
    cases hsick
  | some r =>
    obtain ⟨i, pool⟩ := r
    obtain ⟨hlo, -, hget, -, hnone⟩ := scan_some h hs
    obtain rfl : i = seed := by
      refine Nat.le_antisymm (Nat.le_of_not_lt fun hgt => ?_) hlo
      exact hnone seed (Nat.le_refl _) hgt hat
    exact ⟨pool, rfl, hget⟩

end ClusterConfig

namespace Search

theorem select_eq_scan (q : Search) : q.select.1 = q.cluster.scan q.is_healthy q.seed :=
  q.select_fst

/-- Where the scan is to start: behind the last index, or at the counter. -/
def start (q : Search) : Nat :=
  match q.last_index with
  | some index => index + 1
  | none => if q.round_robin then q.rr_counter else 0

theorem seed_eq_start {q : Search} (h : q.start < 2 ^ 64) : q.seed = q.start := by
  unfold start at h
  unfold seed start
  cases hlast : q.last_index with
  | some index =>
    rw [hlast] at h
    exact Nat.mod_eq_of_lt h
  | none => rfl

/-- What `select` is for: the first healthy pool in cyclic order, and none only if
there is none. Neither `index + 1` nor `seed + l` overflows on the way. -/
structure Exact (q : Search) : Prop where
  first : q.select.1.map Prod.snd =
    (q.cluster.pools.rotate (q.start % q.cluster.pools.length)).find? fun pool => q.is_healthy pool.id
  none_iff : q.select.1 = none ↔ ∀ pool ∈ q.cluster.pools, q.is_healthy pool.id = false
  index_lt : ∀ index, q.last_index = some index → index + 1 < 2 ^ 64
  end_lt : q.seed + q.cluster.pools.length < 2 ^ 64

/-- It does that as long as the scan ends below the end of `usize`. -/
theorem exact_iff (q : Search) : q.Exact ↔ q.start + q.cluster.pools.length < 2 ^ 64 := by
  constructor
  · intro h
    have hstart : q.start = q.seed := by
      unfold start seed
      cases hlast : q.last_index with
      | some index => exact (Nat.mod_eq_of_lt (h.index_lt index hlast)).symm
      | none => rfl
    rw [hstart]
    exact h.end_lt
  · intro h
    have hseed : q.seed = q.start := seed_eq_start (by omega)
    have hend : q.seed + q.cluster.pools.length < 2 ^ 64 := by rwa [hseed]
    refine ⟨?_, ?_, fun index hlast => ?_, hend⟩
    · rw [select_eq_scan, ClusterConfig.scan_snd hend, hseed]
    · rw [select_eq_scan, ClusterConfig.scan_eq_none_iff hend]
    · have hstart : q.start = index + 1 := by rw [start, hlast]
      omega

/-- One healthy pool, and the counter at the last value before it wraps. -/
def lastValue : Search := ⟨⟨[⟨"a", 0⟩], 0⟩, fun _ => true, true, 2 ^ 64 - 1, none⟩

theorem select_misses_healthy :
    (∀ pool ∈ lastValue.cluster.pools, lastValue.is_healthy pool.id = true) ∧
      lastValue.select = (none, 0) ∧
      ¬ lastValue.Exact := by
  refine ⟨fun _ _ => rfl, rfl, fun h => ?_⟩
  have hnone := h.none_iff.1 rfl
  cases hnone ⟨"a", 0⟩ (.head _)

/-- A retry behind the index `i` comes to the next healthy pool. -/
theorem next_of_select {q : Search} (h : q.start + q.cluster.pools.length < 2 ^ 64) {i j : Nat}
    {pool : Pool} (hlast : q.last_index = some i) (hs : q.select.1 = some (j, pool)) :
    Next (q.cluster.HealthyAt q.is_healthy) i j := by
  have hstart : q.start = i + 1 := by rw [start, hlast]
  have hseed : q.seed = i + 1 := by rw [seed_eq_start (by omega), hstart]
  rw [select_eq_scan, hseed] at hs
  obtain ⟨hlo, -, hget, hok, hnone⟩ := ClusterConfig.scan_some (by omega) hs
  refine ⟨by omega, ?_, fun k hk hkj => hnone k (by omega) hkj⟩
  rw [ClusterConfig.HealthyAt, AtPlace, hget]
  exact hok

end Search

end OccamsRpc
