import OccamsRpc.Client.FailoverOnce
import OccamsRpc.Client.Select
import OccamsRpc.Client.Reuse
import Mathlib.Data.List.Perm.Subperm
/-!
# A retry goes on behind the last attempt

A `FailoverTask` carries the index its last pool was selected with and the version
of the configuration that was in. When the retry worker finds the same version it
starts behind that index, so the attempts go round the healthy pools, and none is
tried again before all the others.
-/
open Lib

namespace OccamsRpc

variable {C T : Type} [ClientTaskCommon T] [ClientTask C T]

/-! ## What a task carries -/

/-- The searches for a task: each on different pools, and one that meets the
configuration of the search before starts behind what that found. -/
structure Traced (searches : List (Option Search)) : Prop where
  nodup : ∀ q, some q ∈ searches → (q.cluster.pools.map Pool.id).Nodup
  resumes : ∀ (k : Nat) q q', searches[k]? = some (some q) → searches[k + 1]? = some (some q') →
    q.cluster.ver = q'.cluster.ver → ∃ i pool, q.select.1 = some (i, pool) ∧ q'.last_index = some i

/-- The task carries what the last search found. -/
def Carried (ft : FailoverTask T) (searches : List (Option Search)) : Prop :=
  ∃ q pool, searches.getLast? = some (some q) ∧ q.select.1 = some (ft.last_index, pool) ∧
    q.cluster.ver = ft.cluster_ver

section
variable {searches : List (Option Search)} {ft : FailoverTask T} {q : Option Search}

theorem Traced.first (h : ∀ q', q = some q' → (q'.cluster.pools.map Pool.id).Nodup) :
    Traced [q] where
  nodup q' hq' := h q' (List.mem_singleton.1 hq').symm
  resumes k q₁ q₂ _ h₂ := by
    rw [List.getElem?_eq_none (by simp)] at h₂
    cases h₂

omit [ClientTaskCommon T] in
/-- The searches go on as the retry worker goes on. -/
theorem Traced.search (h : Traced searches) (hc : Carried ft searches)
    (hnd : ∀ q', q = some q' → (q'.cluster.pools.map Pool.id).Nodup)
    (hq : ∀ q', q = some q' →
      q'.last_index = if q'.cluster.ver = ft.cluster_ver then some ft.last_index else none) :
    Traced (searches ++ [q]) where
  nodup q' hq' := by
    rcases List.mem_append.1 hq' with hq' | hq'
    · exact h.nodup q' hq'
    · exact hnd q' (List.mem_singleton.1 hq').symm
  resumes k q₁ q₂ h₁ h₂ hver := by
    rcases Nat.lt_trichotomy (k + 1) searches.length with hlt | he | hgt
    · rw [List.getElem?_append_left (by omega)] at h₁ h₂
      exact h.resumes k q₁ q₂ h₁ h₂ hver
    · -- the new search, which meets what the task carries
      rw [List.getElem?_append_left (by omega)] at h₁
      rw [he, List.getElem?_concat_length] at h₂
      cases h₂
      obtain ⟨q₀, pool, hlast, hsel, hver₀⟩ := hc
      rw [List.getLast?_eq_getElem?, ← he, Nat.add_sub_cancel, h₁] at hlast
      cases hlast
      refine ⟨ft.last_index, pool, hsel, ?_⟩
      rw [hq q₂ rfl, if_pos (hver.symm.trans hver₀)]
    · rw [List.getElem?_eq_none (by rw [List.length_append, List.length_singleton]; omega)] at h₂
      cases h₂

omit [ClientTaskCommon T] in
theorem carried_search {q : Search} {pool : Pool} (hs : q.select.1 = some (ft.last_index, pool))
    (hver : q.cluster.ver = ft.cluster_ver) : Carried ft (searches ++ [some q]) :=
  ⟨q, pool, List.getLast?_concat, hs, hver⟩

end

/-! ## Every run -/

namespace FailoverPool

variable {codec : C} {s s' : FailoverPool T}

/-- What is true of a task that carries `ft`. -/
def Holds (ft : FailoverTask T) (j : Job T) : Prop := Traced j.searches ∧ Carried ft j.searches

/-- Every task is traced, and carries what was found last while it is not done. -/
structure Traces (s : FailoverPool T) : Prop where
  pools : ∀ cluster, s.pools = some cluster → PoolIds s.next_id cluster.pools
  jobs : Lib.Ledger Holds (fun j : Job T => Traced j.searches) s.jobs (s.in_flight ++ s.retry)

omit [ClientTaskCommon T] in
theorem Traces.nodup (h : s.Traces) {q : Option Search}
    (hq : ∀ q', q = some q' → s.pools = some q'.cluster) :
    ∀ q', q = some q' → (q'.cluster.pools.map Pool.id).Nodup :=
  fun q' he => (h.pools _ (hq q' he)).nodup

omit [ClientTaskCommon T] in
theorem new_traces (addrs : List String) (round_robin : Bool) (retry_limit : Nat) :
    (new addrs round_robin retry_limit : FailoverPool T).Traces := by
  refine ⟨?_, .nil⟩
  rintro cluster ⟨⟩
  exact (reuse_pools_renewed (PoolIds.nil 0) addrs).numbered

omit [ClientTaskCommon T] in
theorem submit_perm {in_flight retry : List (Nat × FailoverTask T)} {p : Nat × FailoverTask T} :
    (p :: (in_flight ++ retry)).Perm ((in_flight ++ [p]) ++ retry) := by
  rw [List.append_assoc]
  exact List.perm_middle.symm

theorem send_req_traces (h : s.Traces) (task : T) : (s.send_req C task).Traces := by
  obtain ⟨cluster, index, pool, rr_counter, hp, hq, he⟩ | ⟨q, rr_counter, -, hq, he⟩ :=
    s.send_req_cases C task
  · have hnd := h.nodup (q := some (s.search cluster none)) (by rintro _ ⟨⟩; exact hp)
    have hholds : Holds ⟨index, cluster.ver, task, 0, false⟩
        (({ task := task : Job T }.search (s.search cluster none)).submit pool) :=
      ⟨.first hnd, _, pool, rfl, congrArg Prod.fst hq, rfl⟩
    rw [he]
    exact ⟨h.pools, (h.jobs.start hholds).perm submit_perm⟩
  · rw [he]
    exact ⟨h.pools, h.jobs.refuse (Traced.first (h.nodup hq))⟩

omit [ClientTaskCommon T] in
theorem error_handle_traces {n : Nat} {ft : FailoverTask T}
    (hp : ∀ cluster, s.pools = some cluster → PoolIds s.next_id cluster.pools)
    (h : Lib.Ledger Holds (fun j : Job T => Traced j.searches) s.jobs ((n, ft) :: (s.in_flight ++ s.retry))) :
    (s.error_handle n ft).Traces := by
  unfold error_handle
  split
  · split
    · refine ⟨hp, h.perm ?_⟩
      simp only [← List.append_assoc]
      exact (List.perm_append_singleton _ _).symm
    · exact ⟨hp, h.finish fun j hj => hj.1.search (q := none) hj.2 (by rintro _ ⟨⟩) (by rintro _ ⟨⟩)⟩
  · exact ⟨hp, h.finish fun j hj => hj.1⟩

theorem resolve_traces (h : s.Traces) {i : Nat} {a : Attempt}
    (hstep : s.resolve codec i a = some s') : s'.Traces := by
  obtain ⟨n, ft, hi, hend⟩ := resolve_cases hstep
  obtain ⟨hlt, hget⟩ := List.getElem?_eq_some_iff.1 hi
  have hperm := (List.getElem_cons_eraseIdx_perm hlt).symm
  rw [hget] at hperm
  have hheld := h.jobs.perm (hperm.append_right s.retry)
  obtain ⟨-, rfl⟩ | ⟨-, rfl⟩ := hend
  · exact ⟨h.pools, hheld.finish fun j hj => hj.1⟩
  · -- the attempt changes neither the index nor the version
    obtain ⟨hindex, hver⟩ := a.settle_last_index codec ft
    refine error_handle_traces h.pools (hheld.move fun j hj => ⟨hj.1, ?_⟩)
    obtain ⟨q, pool, hlast, hsel, hv⟩ := hj.2
    exact ⟨q, pool, hlast, by rw [hindex]; exact hsel, by rw [hver]; exact hv⟩

omit [ClientTaskCommon T] in
theorem retry_worker_traces (h : s.Traces) (hstep : s.retry_worker = some s') : s'.Traces := by
  obtain ⟨n, ft, rest, -, hr, hnext⟩ := retry_worker_cases hstep
  have hheld := h.jobs
  rw [hr] at hheld
  have hheld := hheld.perm List.perm_middle
  obtain ⟨cluster, q, index, pool, rr_counter, hp, hq, hsel, rfl⟩ | ⟨q, rr_counter, -, hq, rfl⟩ :=
    hnext
  · have hnd := h.nodup (q := some q) (by rintro _ ⟨⟩; rw [hq]; exact hp)
    refine ⟨h.pools, (hheld.move fun j hj => ⟨hj.1.search hj.2 hnd ?_, ?_⟩).perm submit_perm⟩
    · rintro _ ⟨⟩
      rw [hq]
      rfl
    · refine carried_search (congrArg Prod.fst hsel) ?_
      rw [hq]
      rfl
  · have hnd := h.nodup fun q' he => (hq q' he).1
    exact ⟨h.pools, hheld.finish fun j hj => hj.1.search hj.2 hnd fun q' he => (hq q' he).2⟩

theorem step_traces (h : s.Traces) {act : Act T} (hstep : s.step codec act = some s') :
    s'.Traces := by
  cases act with
  | send_req task | send_req_blocking task =>
    obtain ⟨-, ⟨⟩⟩ := Option.ite_none_right_eq_some.1 hstep
    exact send_req_traces h task
  | resolve i a => exact resolve_traces h hstep
  | retry_worker => exact retry_worker_traces h hstep
  | update_addrs addrs =>
    obtain ⟨-, ⟨⟩⟩ := Option.ite_none_right_eq_some.1 hstep
    refine ⟨?_, h.jobs⟩
    rintro cluster ⟨⟩
    have hold : PoolIds s.next_id ((s.pools.map ClusterConfig.pools).getD []) := by
      cases hp : s.pools with
      | none => exact .nil _
      | some cluster => exact h.pools cluster hp
    exact (reuse_pools_renewed hold addrs).numbered
  | drop =>
    obtain ⟨-, ⟨⟩⟩ := Option.ite_none_right_eq_some.1 hstep
    exact ⟨nofun, h.jobs⟩
  | worker_exit =>
    obtain ⟨-, ⟨⟩⟩ := Option.ite_none_right_eq_some.1 hstep
    exact ⟨h.pools, h.jobs⟩
  | set_healthy id ok =>
    cases hstep
    exact ⟨h.pools, h.jobs⟩
  | drop_inner =>
    obtain ⟨-, ⟨⟩⟩ := Option.ite_none_left_eq_some.1 hstep
    exact ⟨h.pools, h.jobs⟩

omit [ClientTaskCommon T] in
theorem Traces.traced (h : s.Traces) {n : Nat} {j : Job T} (hj : s.jobs[n]? = some j) :
    Traced j.searches := by
  by_cases hn : n ∈ (s.in_flight ++ s.retry).map Prod.fst
  · obtain ⟨p, hp, rfl⟩ := List.mem_map.1 hn
    obtain ⟨i, hi, hholds⟩ := h.jobs.here p hp
    cases hi.symm.trans hj
    exact hholds.1
  · exact h.jobs.gone n j hj hn

end FailoverPool

/-! ## Round the healthy pools -/

namespace Job

/-- Every search for the task met this configuration and these pools healthy, and
the end of its scan was below the end of `usize`. -/
def Steady (cluster : ClusterConfig) (is_healthy : Nat → Bool) (j : Job T) : Prop :=
  ∀ q ∈ j.searches, ∃ q', q = some q' ∧ q'.cluster = cluster ∧ q'.is_healthy = is_healthy ∧
    q'.start + cluster.pools.length < 2 ^ 64

/-- The index that the search `k` found. -/
def indexAt (j : Job T) (k : Nat) : Nat :=
  match j.searches[k]? with
  | some (some q) => (q.select.1.map Prod.fst).getD 0
  | _ => 0

section
variable {cluster : ClusterConfig} {is_healthy : Nat → Bool} {limit : Nat} {j : Job T}

omit [ClientTaskCommon T]

theorem indexAt_eq {k i : Nat} {q : Search} {pool : Pool} (hq : j.searches[k]? = some (some q))
    (hs : q.select.1 = some (i, pool)) : j.indexAt k = i := by
  simp only [indexAt, hq, hs]
  rfl

/-- The search behind a submission. -/
theorem Steady.search (hs : j.Steady cluster is_healthy) (hc : j.Course limit) {k x : Nat}
    (hk : j.submitted[k]? = some x) :
    ∃ q pool, j.searches[k]? = some (some q) ∧ q.cluster = cluster ∧ q.is_healthy = is_healthy ∧
      q.start + cluster.pools.length < 2 ^ 64 ∧ q.select.1 = some (j.indexAt k, pool) ∧
      pool.id = x := by
  rw [hc.submitted_eq] at hk
  obtain ⟨q, hq, hfound⟩ := Option.bind_eq_some_iff.1 hk
  obtain ⟨q, rfl, hcl, hh, hend⟩ := hs q (List.mem_of_getElem? hq)
  obtain ⟨⟨i, pool⟩, hsel, hid⟩ := Option.map_eq_some_iff.1 hfound
  exact ⟨q, pool, hq, hcl, hh, hend, by rw [indexAt_eq hq hsel]; exact hsel, hid⟩

/-- It is to a healthy pool, the one at that index. -/
theorem Steady.place (hs : j.Steady cluster is_healthy) (hc : j.Course limit) {k x : Nat}
    (hk : j.submitted[k]? = some x) :
    ∃ pool, cluster.pools[j.indexAt k % cluster.pools.length]? = some pool ∧
      is_healthy pool.id = true ∧ pool.id = x := by
  obtain ⟨q, pool, -, rfl, rfl, hend, hsel, hid⟩ := hs.search hc hk
  have hseed : q.seed = q.start := Search.seed_eq_start (by omega)
  rw [Search.select_eq_scan] at hsel
  obtain ⟨-, -, hget, hok, -⟩ := ClusterConfig.scan_some (by rw [hseed]; exact hend) hsel
  exact ⟨pool, hget, hok, hid⟩

/-- The next one is at the next index of a healthy pool. -/
theorem Steady.next (hs : j.Steady cluster is_healthy) (ht : Traced j.searches)
    (hc : j.Course limit) {k : Nat} (hk : k + 1 < j.submitted.length) :
    Next (cluster.HealthyAt is_healthy) (j.indexAt k) (j.indexAt (k + 1)) := by
  have hk₀ : k < j.submitted.length := Nat.lt_of_succ_lt hk
  obtain ⟨q₀, pool₀, hq₀, hcl₀, -, -, hsel₀, -⟩ := hs.search hc (List.getElem?_eq_getElem hk₀)
  obtain ⟨q₁, pool₁, hq₁, rfl, rfl, hend, hsel₁, -⟩ := hs.search hc (List.getElem?_eq_getElem hk)
  obtain ⟨i, pool, hsel, hlast⟩ := ht.resumes k q₀ q₁ hq₀ hq₁ (by rw [hcl₀])
  rw [hsel₀] at hsel
  cases hsel
  exact Search.next_of_select hend hlast hsel₁

theorem Steady.submitted_ne (hs : j.Steady cluster is_healthy) (ht : Traced j.searches)
    (hc : j.Course limit) {a b : Nat} (hlt : a < b) (hab : b < a + cluster.healthy is_healthy)
    (hb : b < j.submitted.length) :
    j.submitted[a]? ≠ j.submitted[b]? := by
  have ha : a < j.submitted.length := Nat.lt_trans hlt hb
  obtain ⟨q, -, hq, hcl, -⟩ := hs.search hc (List.getElem?_eq_getElem ha)
  have hnd : (cluster.pools.map Pool.id).Nodup := by
    rw [← hcl]
    exact ht.nodup q (List.mem_of_getElem? hq)
  obtain ⟨p, hp, -, hpa⟩ := hs.place hc (List.getElem?_eq_getElem ha)
  obtain ⟨p', hp', -, hpb⟩ := hs.place hc (List.getElem?_eq_getElem hb)
  -- the indices between the two are those of healthy pools, one after the other
  have hmod := mod_ne_of_chain (p := cluster.HealthyAt is_healthy) (f := fun t => j.indexAt (a + t))
    (n := b - a)
    (atPlace_add_length _ _) (by omega) (by rw [ClusterConfig.count_healthyAt]; omega)
    fun k hk => hs.next ht hc (by omega)
  simp only [Nat.add_zero, Nat.add_sub_cancel' (Nat.le_of_lt hlt)] at hmod
  intro he
  refine hmod ((List.getElem?_inj ?_ hnd).1 ?_)
  · rw [List.length_map]
    exact (List.getElem?_eq_some_iff.1 hp).1
  · rw [List.getElem?_map, List.getElem?_map, hp, hp', Option.map_some, Option.map_some, hpa, hpb]
    rwa [List.getElem?_eq_getElem ha, List.getElem?_eq_getElem hb] at he

/-- No pool twice in as many submissions in a row as pools are healthy. -/
theorem Steady.window_nodup (hs : j.Steady cluster is_healthy) (ht : Traced j.searches)
    (hc : j.Course limit) (a : Nat) :
    ((j.submitted.drop a).take (cluster.healthy is_healthy)).Nodup := by
  rw [List.nodup_iff_getElem?_ne_getElem?]
  intro i k hik hk
  rw [List.length_take, List.length_drop] at hk
  rw [List.getElem?_take_of_lt (by omega), List.getElem?_take_of_lt (by omega), List.getElem?_drop,
    List.getElem?_drop]
  exact hs.submitted_ne ht hc (by omega) (by omega) (by omega)

/-- The numbers of the healthy pools. -/
theorem Steady.submitted_healthy (hs : j.Steady cluster is_healthy) (hc : j.Course limit) :
    ∀ x ∈ j.submitted, ∃ pool ∈ cluster.pools, is_healthy pool.id = true ∧ pool.id = x := by
  intro x hx
  obtain ⟨k, hk⟩ := List.mem_iff_getElem?.1 hx
  obtain ⟨pool, hget, hok, hid⟩ := hs.place hc hk
  exact ⟨pool, List.mem_of_getElem? hget, hok, hid⟩

/-- So many submissions reach every healthy pool. -/
theorem Steady.reaches (hs : j.Steady cluster is_healthy) (ht : Traced j.searches)
    (hc : j.Course limit) (hlen : cluster.healthy is_healthy ≤ j.submitted.length) {pool : Pool}
    (hpool : pool ∈ cluster.pools) (hok : is_healthy pool.id = true) : pool.id ∈ j.submitted := by
  have hwindow := hs.window_nodup ht hc 0
  rw [List.drop_zero] at hwindow
  have hsub : (j.submitted.take (cluster.healthy is_healthy)).Subset
      ((cluster.pools.filter fun pool => is_healthy pool.id).map Pool.id) := by
    intro x hx
    obtain ⟨p, hp, hok, rfl⟩ := hs.submitted_healthy hc x (List.mem_of_mem_take hx)
    exact List.mem_map.2 ⟨p, List.mem_filter.2 ⟨hp, hok⟩, rfl⟩
  have hperm := (hwindow.subperm hsub).perm_of_length_le (by
    rw [List.length_map, List.length_take, ← List.countP_eq_length_filter]
    exact Nat.le_min.2 ⟨Nat.le_refl _, hlen⟩)
  exact List.mem_of_mem_take (hperm.mem_iff.2 (List.mem_map.2 ⟨pool, List.mem_filter.2 ⟨hpool, hok⟩, rfl⟩))

end

/-- A task that is done although all its attempts asked for a retry has used up
the retries, or no pool is healthy. -/
theorem Finished.exhausted {codec : C} {cluster : ClusterConfig} {is_healthy : Nat → Bool}
    {limit : Nat} {j : Job T} (h : j.Finished codec limit) (hs : j.Steady cluster is_healthy)
    (hfail : ∀ a ∈ j.attempts, a.retriable = true) :
    limit + 1 ≤ j.submitted.length ∨ ∀ pool ∈ cluster.pools, is_healthy pool.id = false := by
  obtain ⟨-, hdue⟩ | ⟨hfound, -⟩ := h.searches
  · left
    have hfailures := failures_eq_length hfail
    rw [h.attempts]
    by_contra hlt
    exact hdue fun a ha => ⟨hfail a (List.mem_of_getLast? ha), by omega⟩
  · right
    -- the last search found nothing
    obtain ⟨front, q, hsplit, -, hq⟩ := List.map_eq_append_iff.1 hfound
    obtain ⟨q, rfl, hnone⟩ := List.map_eq_singleton_iff.1 hq
    obtain ⟨q, rfl, rfl, rfl, hend⟩ := hs q (by rw [hsplit]; simp)
    have hnone : q.select.1 = none := Option.map_eq_none_iff.1 hnone
    have hseed : q.seed = q.start := Search.seed_eq_start (by omega)
    rw [Search.select_eq_scan] at hnone
    exact (ClusterConfig.scan_eq_none_iff (by rw [hseed]; exact hend)).1 hnone

end Job

namespace FailoverPool

variable {codec : C} {s : FailoverPool T}

theorem Inv.finished (h : Inv codec s) {n : Nat} {j : Job T} (hj : s.jobs[n]? = some j)
    (hdone : j.done ≠ []) :
    j.Finished codec s.retry_limit := by
  refine h.accounts.gone n j hj fun hn => ?_
  obtain ⟨⟨_, place⟩, hp, rfl⟩ := List.mem_map.1 hn
  obtain ⟨i, hi, hholds⟩ := h.accounts.here _ hp
  cases hi.symm.trans hj
  cases place with
  | flying ft | failed ft | queued ft => exact hdone hholds.1.done

theorem Inv.course (h : Inv codec s) {n : Nat} {j : Job T} (hj : s.jobs[n]? = some j) :
    j.Course s.retry_limit := by
  by_cases hn : n ∈ (places s.in_flight s.retry).map Prod.fst
  · obtain ⟨⟨_, place⟩, hp, rfl⟩ := List.mem_map.1 hn
    obtain ⟨i, hi, hholds⟩ := h.accounts.here _ hp
    cases hi.symm.trans hj
    cases place with
    | flying ft =>
      obtain ⟨hu, hl⟩ := hholds
      exact hu.course (by omega) (by omega)
    | failed ft | queued ft =>
      obtain ⟨hu, hl, -⟩ := hholds
      exact hu.course (by omega) (by omega)
  · exact (h.accounts.gone n j hj hn).course

/-- In every run, of a task whose searches all met the same configuration and
health: its attempts are with healthy pools, as many in a row as there are with
different ones; when it is given up although every attempt asked for a retry, and
retries enough were allowed, it has been with every healthy pool; and it is twice
in a row with one pool only if no other is healthy. -/
theorem attempts_go_round (codec : C) (addrs : List String) (round_robin : Bool) (retry_limit : Nat)
    {tr : List (FailoverPool T × Act T)} {s : FailoverPool T}
    (hrun : Lib.Run (step codec) (new addrs round_robin retry_limit) tr s) {n : Nat} {j : Job T}
    (hj : s.jobs[n]? = some j) {cluster : ClusterConfig} {is_healthy : Nat → Bool}
    (hs : j.Steady cluster is_healthy) :
    (∀ x ∈ j.submitted, ∃ pool ∈ cluster.pools, is_healthy pool.id = true ∧ pool.id = x) ∧
    (∀ a, ((j.submitted.drop a).take (cluster.healthy is_healthy)).Nodup) ∧
    (cluster.healthy is_healthy ≤ retry_limit + 1 → (∀ a ∈ j.attempts, a.retriable = true) → j.done ≠ [] →
      ∀ pool ∈ cluster.pools, is_healthy pool.id = true → pool.id ∈ j.submitted) ∧
    ∀ (a x : Nat), j.submitted[a]? = some x → j.submitted[a + 1]? = some x →
      ∀ pool ∈ cluster.pools, is_healthy pool.id = true → pool.id = x := by
  have hinv : Inv codec s :=
    hrun.inv (Inv codec) (new_inv codec addrs round_robin retry_limit) fun _ _ _ hi ht => step_inv hi ht
  have hlimit : s.retry_limit = retry_limit :=
    hrun.inv (fun s => s.retry_limit = retry_limit) rfl fun _ _ _ hl ht =>
      (step_retry_limit ht).trans hl
  have ht : Traced j.searches :=
    (hrun.inv Traces (new_traces addrs round_robin retry_limit)
      fun _ _ _ hi ht => step_traces hi ht).traced hj
  subst hlimit
  have hc := hinv.course hj
  refine ⟨hs.submitted_healthy hc, hs.window_nodup ht hc, fun hle hfail hdone pool hpool hok => ?_,
    fun a x ha hb pool hpool hok => ?_⟩
  · rcases (hinv.finished hj hdone).exhausted hs hfail with hlen | hnone
    · exact hs.reaches ht hc (by omega) hpool hok
    · rw [hnone pool hpool] at hok
      cases hok
  · -- with two healthy pools the next attempt would be with the other
    have hlen : a + 1 < j.submitted.length := (List.getElem?_eq_some_iff.1 hb).1
    have hone : cluster.healthy is_healthy ≤ 1 := by
      by_contra hge
      exact hs.submitted_ne ht hc (Nat.lt_succ_self a) (by omega) hlen (ha.trans hb.symm)
    obtain ⟨p, hp, hpok, rfl⟩ := hs.submitted_healthy hc x (List.mem_of_getElem? ha)
    rw [ClusterConfig.healthy, List.countP_eq_length_filter] at hone
    obtain ⟨only, honly⟩ :
        ∃ only, cluster.pools.filter (fun pool => is_healthy pool.id) = [only] := by
      refine List.length_eq_one_iff.1 (Nat.le_antisymm hone (List.length_pos_of_mem (a := p) ?_))
      exact List.mem_filter.2 ⟨hp, hpok⟩
    have heq : ∀ p ∈ cluster.pools, is_healthy p.id = true → p = only := by
      intro p hp hok
      have hmem : p ∈ cluster.pools.filter fun pool => is_healthy pool.id :=
        List.mem_filter.2 ⟨hp, hok⟩
      rw [honly] at hmem
      exact List.mem_singleton.1 hmem
    rw [heq p hp hpok, heq pool hpool hok]

/-- Both pools fail the task, which has one retry. -/
def bothFail : List (Act SampleTask) :=
  [.send_req sampleTask, .resolve 0 ⟨[.set_seq 1], .rpc .Io⟩, .retry_worker,
    .resolve 0 ⟨[.set_seq 1], .rpc .Io⟩]

theorem attempts_go_round_both :
    ∃ tr s j, Lib.Run (step ()) (new ["a", "b"] false 1) tr s ∧ tr.map Prod.snd = bothFail ∧
      s.jobs[0]? = some j ∧
      j.done ≠ [] ∧ (0 ∈ j.submitted ∧ 1 ∈ j.submitted) ∧ ((j.submitted.drop 0).take 2).Nodup := by
  have hfollow : ∃ r j, Lib.follow (step ()) (new ["a", "b"] false 1) bothFail = some r ∧
      r.1.map Prod.snd = bothFail ∧
      r.2.jobs[0]? = some j ∧ j.done ≠ [] ∧ j.attempts.all Attempt.retriable = true ∧
      j.searches = [some ⟨⟨[⟨"a", 0⟩, ⟨"b", 1⟩], 0⟩, fun _ => true, false, 0, none⟩,
        some ⟨⟨[⟨"a", 0⟩, ⟨"b", 1⟩], 0⟩, fun _ => true, false, 0, some 0⟩] :=
    ⟨_, _, rfl, rfl, rfl, nofun, rfl, rfl⟩
  obtain ⟨⟨tr, s⟩, j, hfollow, hacts, hj, hdone, hfail, hsearches⟩ := hfollow
  have hrun := Lib.Run.of_follow hfollow
  have hs : j.Steady ⟨[⟨"a", 0⟩, ⟨"b", 1⟩], 0⟩ fun _ => true := by
    intro q hq
    rw [hsearches] at hq
    rcases List.mem_cons.1 hq with rfl | hq
    · exact ⟨_, rfl, rfl, rfl, by decide⟩
    · cases List.mem_singleton.1 hq
      exact ⟨_, rfl, rfl, rfl, by decide⟩
  obtain ⟨-, hwindow, hreach, -⟩ := attempts_go_round () ["a", "b"] false 1 hrun hj hs
  have hall := hreach (by decide) (fun a ha => List.all_eq_true.1 hfail a ha) hdone
  exact ⟨tr, s, j, hrun, hacts, hj, hdone,
    ⟨hall ⟨"a", 0⟩ (.head _) rfl, hall ⟨"b", 1⟩ (.tail _ (.head _)) rfl⟩, hwindow 0⟩

end FailoverPool

end OccamsRpc
