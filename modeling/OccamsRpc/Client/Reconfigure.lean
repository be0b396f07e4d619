import OccamsRpc.Client.Versions
import OccamsRpc.Client.Uninterrupted
import OccamsRpc.Client.FailoverInv
import Mathlib.Data.List.Chain
/-!
# One reconfiguration after the other

When the calls of `update_addrs` do not overlap, each starts from the configuration
that the call before it put in place. Sends and retries go on meanwhile: they hold
configurations that have been replaced, and tasks carry the index and the version of
such a configuration. A version stands for one configuration, so that an index is
used again only where it came from.
-/
open Lib

namespace OccamsRpc

/-- What becomes of the pools: an address that stays keeps one of its pools, no pool
is used twice, and those that are not old ones are new. -/
structure PoolsKept (old new : ClusterConfig) : Prop where
  kept : ∀ p ∈ old.pools, p.addr ∈ new.pools.map Pool.addr → ∃ q ∈ old.pools, q.addr = p.addr ∧
    q ∈ new.pools
  once : (new.pools.map Pool.id).Nodup
  old_or_new : ∀ q ∈ new.pools, q ∈ old.pools ∨ ∀ p ∈ old.pools, p.id ≠ q.id

theorem Renewed.keeps {next_id next_id' ver : Nat} {old : ClusterConfig} {addrs : List String}
    {new : List Pool} (h : Renewed next_id old.pools addrs new next_id')
    (hold : PoolIds next_id old.pools) : PoolsKept old ⟨new, ver⟩ where
  kept p hp hstays := h.kept p.addr (by rwa [← h.addrs_eq]) ⟨p, hp, rfl⟩
  once := h.numbered.nodup
  old_or_new q hq := by
    refine (h.old_or_new q hq).imp_right fun hnew p hp => ?_
    have := hold.id_lt p hp
    omega

/-- The call has drawn its version. -/
def UpdatePc.hasVer : UpdatePc → Bool
  | .drawn _ | .returned _ => true
  | _ => false

namespace AtomicPool

variable {C T : Type} [ClientTaskCommon T] [ClientTask C T]

/-- A call of `update_addrs` is made when those before have returned. -/
def oneByOne (s : AtomicPool T) : Act T → Prop
  | .update _ => ∀ u ∈ s.updates, u.pc.isReturned = true
  | _ => True

instance (s : AtomicPool T) : (a : Act T) → Decidable (s.oneByOne a)
  | .update _ => inferInstanceAs (Decidable (∀ u ∈ s.updates, u.pc.isReturned = true))
  | .send _ | .send_load _ | .send_draw _ | .send_scan _ _ | .resolve _
    _ | .retry_recv | .retry_load | .retry_draw
  | .retry_scan _ | .update_load _ | .update_draw _ | .update_store _ | .drop => isTrue trivial

/-! ## The configurations in turn -/

/-- How far the call in progress has come. -/
def Progress (s : AtomicPool T) (u : UpdateCall) : Prop :=
  match u.pc with
  | .called => True
  | .loaded old_pools => ∃ c, s.installed.getLast? = some c ∧ old_pools = c.pools
  | .drawn cluster => cluster.pools.map Pool.addr = u.addrs ∧ PoolIds s.next_id cluster.pools ∧
      ∃ c, s.installed.getLast? = some c ∧ PoolsKept c cluster
  | .returned _ => False

/-- The calls that have returned, and the one in progress if there is one. -/
def Calls (s : AtomicPool T) (done : List UpdateCall) : Prop :=
  s.updates = done ∨ ∃ u, s.updates = done ++ [u] ∧ s.handle = true ∧ s.Progress u

/-- The clusters are installed one after the other, each with the pools of its call and with
those of the one before that it keeps. -/
structure Sequential (addrs : List String) (s : AtomicPool T) : Prop where
  pools : s.handle = true → s.pools = s.installed.getLast?
  last : ∃ c, s.installed.getLast? = some c ∧ PoolIds s.next_id c.pools
  chain : s.installed.IsChain PoolsKept
  calls : ∃ done, (∀ u ∈ done, u.pc.isReturned = true) ∧
    (s.installed.map fun c => c.pools.map Pool.addr) = addrs :: done.map UpdateCall.addrs ∧
    s.Calls done

section
variable {codec : C} {addrs₀ : List String} {s s' : AtomicPool T}

omit [ClientTaskCommon T]

theorem new_sequential (addrs : List String) (round_robin : Bool) (retry_limit : Nat) :
    (new addrs round_robin retry_limit : AtomicPool T).Sequential addrs where
  pools _ := rfl
  last := ⟨_, rfl, (reuse_pools_renewed (PoolIds.nil 0) addrs).numbered⟩
  chain := .singleton _
  calls := by
    refine ⟨[], nofun, ?_, .inl rfl⟩
    exact congrArg (· :: []) (reuse_pools_renewed (PoolIds.nil 0) addrs).addrs_eq

theorem Progress.not_returned {u : UpdateCall} (h : s.Progress u) : u.pc.isReturned = false := by
  unfold Progress at h
  split at h
  · rw [‹u.pc = _›]
    rfl
  · rw [‹u.pc = _›]
    rfl
  · rw [‹u.pc = _›]
    rfl
  · cases h

/-- With all calls returned none is in progress. -/
theorem Calls.all_done {done : List UpdateCall} (h : s.Calls done)
    (hret : ∀ u ∈ s.updates, u.pc.isReturned = true) :
    s.updates = done := by
  rcases h with h | ⟨u, hu, -, hp⟩
  · exact h
  · have hmem : u ∈ s.updates := by
      rw [hu]
      exact List.mem_append_right _ (List.mem_singleton_self u)
    cases (hret u hmem).symm.trans hp.not_returned

/-- A call that has not returned is the one in progress. -/
theorem Calls.current {done : List UpdateCall} (h : s.Calls done)
    (hdone : ∀ u ∈ done, u.pc.isReturned = true) {i : Nat} {u : UpdateCall}
    (hi : s.updates[i]? = some u) (hu : u.pc.isReturned = false) :
    (∀ v, s.updates.set i v = done ++ [v]) ∧ s.handle = true ∧ s.Progress u := by
  have hnot : u ∉ done := fun hmem => by cases (hdone u hmem).symm.trans hu
  rcases h with h | ⟨v, hv, hh, hp⟩
  · rw [h] at hi
    exact absurd (List.mem_of_getElem? hi) hnot
  · rw [hv] at hi
    rcases Nat.lt_trichotomy i done.length with hlt | heq | hgt
    · rw [List.getElem?_append_left hlt] at hi
      exact absurd (List.mem_of_getElem? hi) hnot
    · rw [heq, List.getElem?_concat_length] at hi
      cases hi
      refine ⟨fun v => ?_, hh, hp⟩
      rw [hv, heq, set_concat_length]
    · rw [List.getElem?_eq_none (by rw [List.length_append, List.length_singleton]; exact hgt)] at hi
      cases hi

omit [ClientTask C T] in
theorem Sequential.load (h : s.Sequential addrs₀) {i : Nat} {addrs : List String}
    (hi : s.updates[i]? = some ⟨addrs, .called⟩) :
    (s.setUpdate i addrs (.loaded ((s.pools.map ClusterConfig.pools).getD []))).Sequential addrs₀ := by
  obtain ⟨done, hdone, hhist, hcalls⟩ := h.calls
  obtain ⟨hset, hh, -⟩ := hcalls.current hdone hi rfl
  obtain ⟨c, hc, -⟩ := h.last
  refine ⟨h.pools, h.last, h.chain, done, hdone, hhist, .inr ⟨_, hset _, hh, c, hc, ?_⟩⟩
  rw [h.pools hh, hc]
  rfl

theorem Sequential.draw (h : s.Sequential addrs₀) {i ver : Nat} {addrs : List String}
    {old_pools : List Pool} (hi : s.updates[i]? = some ⟨addrs, .loaded old_pools⟩) :
    ({ s with
      ver := ver
      next_id := (reuse_pools s.next_id (old_pools_map old_pools) addrs).2 }.setUpdate i addrs
        (.drawn ⟨(reuse_pools s.next_id (old_pools_map old_pools) addrs).1, ver⟩)).Sequential addrs₀ := by
  obtain ⟨done, hdone, hhist, hcalls⟩ := h.calls
  obtain ⟨hset, hh, c, hc, rfl⟩ := hcalls.current hdone hi rfl
  obtain ⟨c', hc', hnum⟩ := h.last
  cases hc.symm.trans hc'
  have hnew := reuse_pools_renewed hnum addrs
  exact ⟨h.pools, ⟨c, hc, hnum.mono hnew.next_le⟩, h.chain, done, hdone, hhist,
    .inr ⟨_, hset _, hh, hnew.addrs_eq, hnew.numbered, c, hc, hnew.keeps hnum⟩⟩

theorem Sequential.store (h : s.Sequential addrs₀) {i : Nat} {addrs : List String}
    {cluster : ClusterConfig} (hi : s.updates[i]? = some ⟨addrs, .drawn cluster⟩) :
    ({ s with pools := some cluster, installed := s.installed ++ [cluster] }.setUpdate i addrs
      (.returned cluster)).Sequential addrs₀ := by
  obtain ⟨done, hdone, hhist, hcalls⟩ := h.calls
  obtain ⟨hset, hh, haddrs, hnum, c, hc, hkeeps⟩ := hcalls.current hdone hi rfl
  have hlast : (s.installed ++ [cluster]).getLast? = some cluster := List.getLast?_concat
  refine ⟨fun _ => hlast.symm, ⟨cluster, hlast, hnum⟩, ?_, done ++ [⟨addrs, .returned cluster⟩],
    ?_, ?_, .inl ?_⟩
  · refine List.isChain_append.2 ⟨h.chain, .singleton _, ?_⟩
    rintro x hx y ⟨⟩
    cases hc.symm.trans hx
    exact hkeeps
  · exact forall_mem_concat hdone rfl
  · show (s.installed ++ [cluster]).map _ = _
    rw [List.map_append, hhist, List.map_append, List.map_singleton, List.map_singleton, haddrs]
    rfl
  · exact hset ⟨addrs, .returned cluster⟩

end

section
variable {codec : C} {addrs₀ : List String} {s s' : AtomicPool T}

theorem step_sequential (h : s.Sequential addrs₀) {a : Act T} (ha : s.oneByOne a)
    (hstep : s.step codec a = some s') :
    s'.Sequential addrs₀ := by
  obtain ⟨done, hdone, hhist, hcalls⟩ := h.calls
  cases step_cases hstep with
  | update addrs hh =>
    refine ⟨h.pools, h.last, h.chain, done, hdone, hhist, .inr ⟨⟨addrs, .called⟩, ?_, hh, trivial⟩⟩
    exact congrArg (· ++ _) (hcalls.all_done ha)
  | update_load hi => exact h.load hi
  | update_draw hi => exact h.draw hi
  | update_store hi => exact h.store hi
  | drop _ _ hret =>
    exact ⟨nofun, h.last, h.chain, done, hdone, hhist, .inl (hcalls.all_done hret)⟩
  | _ => exact ⟨h.pools, h.last, h.chain, done, hdone, hhist, hcalls⟩

end

/-! ## The versions do not wrap -/

/-- Every call draws one version. -/
def Counted (s : AtomicPool T) : Prop := s.ver = 1 + s.updates.countP fun u => u.pc.hasVer

section
variable {codec : C} {s s' : AtomicPool T}

omit [ClientTaskCommon T] in
theorem Counted.move (h : s.Counted) {i : Nat} {addrs : List String} {pc pc' : UpdatePc}
    (hi : s.updates[i]? = some ⟨addrs, pc⟩) (hpc : pc'.hasVer = pc.hasVer) :
    (s.setUpdate i addrs pc').Counted := by
  have hcount := countP_set hi ⟨addrs, pc'⟩ fun u => u.pc.hasVer
  simp only [hpc] at hcount
  exact Eq.trans h (congrArg (1 + ·) (Nat.add_right_cancel hcount).symm)

omit [ClientTaskCommon T] in
theorem Counted.draw (h : s.Counted) {i : Nat} {addrs : List String} {old_pools : List Pool}
    (hi : s.updates[i]? = some ⟨addrs, .loaded old_pools⟩) (cluster : ClusterConfig) :
    s.ver + 1 = 1 + ((s.updates.set i ⟨addrs, .drawn cluster⟩).countP fun u => u.pc.hasVer) := by
  have hcount : ((s.updates.set i ⟨addrs, .drawn cluster⟩).countP fun u => u.pc.hasVer) =
      (s.updates.countP fun u => u.pc.hasVer) + 1 := countP_set hi _ fun u => u.pc.hasVer
  have h : s.ver = 1 + s.updates.countP fun u => u.pc.hasVer := h
  omega

omit [ClientTaskCommon T] in
/-- With fewer calls than there are versions, the next is free. -/
theorem Counted.fits (h : s.Counted) (hfew : s.updates.length + 1 < 2 ^ 64) {i : Nat}
    {addrs : List String} {old_pools : List Pool}
    (hi : s.updates[i]? = some ⟨addrs, .loaded old_pools⟩) : s.ver + 1 < 2 ^ 64 := by
  have hnext := h.draw hi ⟨[], 0⟩
  have hle : ((s.updates.set i ⟨addrs, .drawn ⟨[], 0⟩⟩).countP fun u => u.pc.hasVer) ≤
      s.updates.length :=
    Nat.le_trans List.countP_le_length (Nat.le_of_eq List.length_set)
  omega

theorem Counted.verFits (h : s.Counted) (hfew : s.updates.length + 1 < 2 ^ 64) {a : Act T}
    (hstep : s.step codec a = some s') : s.verFits a := by
  cases step_cases hstep with
  | update_draw hi => exact h.fits hfew hi
  | _ => trivial

theorem step_counted (h : s.Counted) (hfew : s.updates.length + 1 < 2 ^ 64) {a : Act T}
    (hstep : s.step codec a = some s') : s'.Counted := by
  cases step_cases hstep with
  | update addrs _ =>
    rw [Counted, List.countP_append]
    exact h
  | update_load hi => exact h.move hi rfl
  | update_draw hi =>
    rw [show u64 (s.ver + 1) = s.ver + 1 from Nat.mod_eq_of_lt (h.fits hfew hi)]
    exact h.draw hi _
  | update_store hi => exact h.move hi rfl
  | _ => exact h

theorem step_updates_length {a : Act T} (hstep : s.step codec a = some s') :
    s.updates.length ≤ s'.updates.length := by
  cases step_cases hstep with
  | update addrs _ => simp
  | update_load _ | update_draw _ | update_store _ =>
    simp only [setUpdate, List.length_set, Nat.le_refl]
  | _ => exact Nat.le_refl _

end

/-! ## Where an index came from -/

end AtomicPool

/-- The task carries the index that `select` gave in one of these configurations, and
its version. -/
def Sent.From {T : Type} (installed : List ClusterConfig) (t : Sent T) : Prop :=
  t.origin.cluster ∈ installed ∧ t.origin.cluster.ver = t.task.cluster_ver ∧
    ∃ pool, t.origin.select.1 = some (t.task.last_index, pool)

/-- The configuration is one of these, and `seed` is where `select` starts in it. -/
def Starts (installed : List ClusterConfig) (round_robin : Bool) (cluster : ClusterConfig)
    (last_index : Option Nat) (seed : Nat) : Prop :=
  cluster ∈ installed ∧ ∀ is_healthy, Search.seed ⟨cluster, is_healthy, round_robin, seed, last_index⟩ = seed

/-- What a call works with was installed. -/
def SendReqPc.Knows (installed : List ClusterConfig) (round_robin : Bool) : SendReqPc → Prop
  | .loaded cluster => ∀ c, cluster = some c → c ∈ installed
  | .seeded cluster seed => Starts installed round_robin cluster none seed
  | .called | .returned _ => True

/-- What the worker works with was installed, and the pool that it avoids is one that the
task was on. -/
def RetryPc.Knows {T : Type} (installed : List ClusterConfig) (round_robin : Bool) :
    RetryPc T → Prop
  | .idle => True
  | .received t => t.From installed
  | .loaded t cluster => t.From installed ∧ ∀ c, cluster = some c → c ∈ installed
  | .seeded t cluster last_index seed => Starts installed round_robin cluster last_index seed ∧
      t.task.cluster_ver = cluster.ver ∧
      ∀ i, last_index = some i → t.origin.cluster = cluster ∧
      ∃ pool, t.origin.select.1 = some (i, pool)

section
variable {T : Type} {installed : List ClusterConfig} {round_robin : Bool} {cluster : ClusterConfig}

theorem Starts.of_draw {rr_counter rr_counter' seed : Nat} {last_index : Option Nat}
    (hc : cluster ∈ installed)
    (hdraw : cluster.draw round_robin rr_counter last_index = (some seed, rr_counter')) :
    Starts installed round_robin cluster last_index seed :=
  ⟨hc, ClusterConfig.draw_seed hdraw⟩

/-- What the scan finds, `select` gives. -/
theorem Starts.select {last_index : Option Nat} {seed : Nat}
    (h : Starts installed round_robin cluster last_index seed) {is_healthy : Nat → Bool}
    {index : Nat} {pool : Pool} (hscan : cluster.scan is_healthy seed = some (index, pool)) :
    (Search.select ⟨cluster, is_healthy, round_robin, seed, last_index⟩).1 =
      some (index, pool) := by
  rw [Search.select_eq_scan, h.2 is_healthy]
  exact hscan

theorem Starts.mono {last_index : Option Nat} {seed : Nat}
    (h : Starts installed round_robin cluster last_index seed) (c : ClusterConfig) :
    Starts (installed ++ [c]) round_robin cluster last_index seed :=
  ⟨List.mem_append_left _ h.1, h.2⟩

theorem Sent.From.mono {t : Sent T} (h : t.From installed) (c : ClusterConfig) :
    t.From (installed ++ [c]) :=
  ⟨List.mem_append_left _ h.1, h.2⟩

theorem SendReqPc.Knows.mono {pc : SendReqPc} (h : pc.Knows installed round_robin)
    (c : ClusterConfig) :
    pc.Knows (installed ++ [c]) round_robin := by
  cases pc with
  | called | returned r => trivial
  | loaded cluster => exact fun c' hc' => List.mem_append_left _ (h c' hc')
  | seeded cluster seed => exact Starts.mono h c

theorem RetryPc.Knows.mono {pc : RetryPc T} (h : pc.Knows installed round_robin)
    (c : ClusterConfig) :
    pc.Knows (installed ++ [c]) round_robin := by
  cases pc with
  | idle => trivial
  | received t => exact Sent.From.mono h c
  | loaded t cluster => exact ⟨h.1.mono c, fun c' hc' => List.mem_append_left _ (h.2 c' hc')⟩
  | seeded t cluster last_index seed => exact ⟨h.1.mono c, h.2⟩

/-- The retry worker resumes only in the configuration that the index is from. -/
theorem Sent.From.resumes {t : Sent T} (h : t.From installed)
    (hnd : (installed.map ClusterConfig.ver).Nodup) (hc : cluster ∈ installed) {i : Nat}
    (hi : (if cluster.ver = t.task.cluster_ver then some t.task.last_index else none) = some i) :
    t.origin.cluster = cluster ∧ ∃ pool, t.origin.select.1 = some (i, pool) := by
  obtain ⟨hmem, hver, hsel⟩ := h
  obtain ⟨hsame, hlast⟩ := Option.ite_none_right_eq_some.1 hi
  cases hlast
  exact ⟨List.inj_on_of_nodup_map hnd hmem hc (hver.trans hsame.symm), hsel⟩

end

namespace AtomicPool

variable {C T : Type} [ClientTaskCommon T] [ClientTask C T]

/-- What the calls, the tasks and the retry worker hold was installed. -/
structure Sourced (s : AtomicPool T) : Prop where
  pools : ∀ c, s.pools = some c → c ∈ s.installed
  sends : ∀ x ∈ s.sends, x.pc.Knows s.installed s.round_robin
  retry : ∀ t ∈ s.retry, t.From s.installed
  in_flight : ∀ t ∈ s.in_flight, t.From s.installed
  worker : s.worker.Knows s.installed s.round_robin

section
variable {codec : C} {s s' : AtomicPool T}

omit [ClientTaskCommon T] in
theorem Sourced.set (h : s.Sourced) {i : Nat} {task : T} (pc : SendReqPc)
    (hpc : pc.Knows s.installed s.round_robin) :
    ∀ x ∈ s.sends.set i ⟨task, pc⟩, x.pc.Knows s.installed s.round_robin :=
  forall_mem_set h.sends hpc

theorem step_sourced (h : s.Sourced) (hnd : (s.installed.map ClusterConfig.ver).Nodup) {a : Act T}
    (hstep : s.step codec a = some s') : s'.Sourced := by
  cases step_cases hstep with
  | send task _ =>
    exact ⟨h.pools, forall_mem_concat h.sends trivial, h.retry, h.in_flight, h.worker⟩
  | send_load _ => exact ⟨h.pools, h.set (.loaded s.pools) h.pools, h.retry, h.in_flight, h.worker⟩
  | send_draw hi hdraw =>
    have hknows := h.sends _ (List.mem_of_getElem? hi)
    exact ⟨h.pools, h.set (.seeded _ _) (Starts.of_draw (hknows _ rfl) hdraw), h.retry, h.in_flight, h.worker⟩
  | send_none _ _ | send_miss _ _ =>
    exact ⟨h.pools, h.set (.returned none) trivial, h.retry, h.in_flight, h.worker⟩
  | send_pick hi hscan =>
    have hstarts : Starts _ _ _ _ _ := h.sends _ (List.mem_of_getElem? hi)
    exact ⟨h.pools, h.set (.returned (some _)) trivial, h.retry,
      forall_mem_concat h.in_flight ⟨hstarts.1, rfl, _, hstarts.select hscan⟩, h.worker⟩
  | resolve_done =>
    exact ⟨h.pools, h.sends, h.retry, fun t ht => h.in_flight t (List.mem_of_mem_eraseIdx ht), h.worker⟩
  | @resolve_retry i a t hi =>
    refine ⟨h.pools, h.sends, forall_mem_concat h.retry ?_,
      fun t ht => h.in_flight t (List.mem_of_mem_eraseIdx ht), h.worker⟩
    obtain ⟨hmem, hver, pool, hsel⟩ := h.in_flight _ (List.mem_of_getElem? hi)
    obtain ⟨hindex, hver'⟩ := a.settle_last_index codec t.task
    exact ⟨hmem, hver.trans hver'.symm, pool, by rw [hindex]; exact hsel⟩
  | retry_recv _ hr =>
    have hretry := h.retry
    rw [hr] at hretry
    exact ⟨h.pools, h.sends, fun t ht => hretry t (List.mem_cons_of_mem _ ht), h.in_flight,
      hretry _ List.mem_cons_self⟩
  | retry_load hw =>
    have hworker := h.worker
    rw [hw] at hworker
    exact ⟨h.pools, h.sends, h.retry, h.in_flight, hworker, h.pools⟩
  | retry_draw hw hlast hdraw =>
    have hworker := h.worker
    rw [hw] at hworker
    obtain ⟨hfrom, hc⟩ := hworker
    refine ⟨h.pools, h.sends, h.retry, h.in_flight, Starts.of_draw (hc _ rfl) hdraw, rfl, fun i hi => ?_⟩
    rw [hlast] at hi
    exact hfrom.resumes hnd (hc _ rfl) hi
  | retry_pick hw hscan =>
    have hworker := h.worker
    rw [hw] at hworker
    obtain ⟨hstarts, hver, -⟩ := hworker
    exact ⟨h.pools, h.sends, h.retry,
      forall_mem_concat h.in_flight ⟨hstarts.1, hver.symm, _, hstarts.select hscan⟩, trivial⟩
  | retry_none | retry_miss => exact ⟨h.pools, h.sends, h.retry, h.in_flight, trivial⟩
  | update_store hi =>
    refine ⟨?_, fun x hx => (h.sends x hx).mono _, fun t ht => (h.retry t ht).mono _,
      fun t ht => (h.in_flight t ht).mono _, h.worker.mono _⟩
    rintro c ⟨⟩
    exact List.mem_append_right _ (List.mem_singleton_self _)
  | drop _ _ _ => exact ⟨nofun, h.sends, h.retry, h.in_flight, h.worker⟩
  | update _ _ | update_load _ | update_draw _ =>
    exact ⟨h.pools, h.sends, h.retry, h.in_flight, h.worker⟩

omit [ClientTaskCommon T] in
theorem new_sourced (addrs : List String) (round_robin : Bool) (retry_limit : Nat) :
    (new addrs round_robin retry_limit : AtomicPool T).Sourced := by
  refine ⟨?_, nofun, nofun, nofun, trivial⟩
  rintro c ⟨⟩
  exact List.mem_singleton_self _

end

/-! ## Every run -/

/-- What the reconfigurations so far have done. -/
structure Reconfigured (addrs : List String) (s : AtomicPool T) : Prop where
  /-- The configuration in place is the last one stored. -/
  pools : s.handle = true → s.pools = s.installed.getLast?
  /-- The addresses are those given, call by call. -/
  addrs_eq : (s.installed.map fun c => c.pools.map Pool.addr) =
    addrs :: (s.updates.filter fun u => u.pc.isReturned).map UpdateCall.addrs
  keeps : s.installed.IsChain PoolsKept
  vers : (s.installed.map ClusterConfig.ver).Nodup
  /-- The retry worker goes on behind an index only in the configuration where
  `select` gave it. -/
  resumes : ∀ t cluster i seed, s.worker = .seeded t cluster (some i) seed →
    t.origin.cluster = cluster ∧ ∃ pool, t.origin.select.1 = some (i, pool)

omit [ClientTaskCommon T] in
theorem Calls.filter_eq {s : AtomicPool T} {done : List UpdateCall} (h : s.Calls done)
    (hdone : ∀ u ∈ done, u.pc.isReturned = true) :
    (s.updates.filter fun u => u.pc.isReturned) = done := by
  have hall : (done.filter fun u => u.pc.isReturned) = done := List.filter_eq_self.2 hdone
  rcases h with h | ⟨u, hu, -, hp⟩
  · rw [h, hall]
  · rw [hu, List.filter_append, hall, List.filter_singleton, hp.not_returned]
    exact List.append_nil done

/-- In every run, interleaved with sends and retries in any way, in which the calls of
`update_addrs` do not overlap and are fewer than there are versions. -/
theorem reconfigured_exactly (codec : C) (addrs : List String) (round_robin : Bool)
    (retry_limit : Nat) {tr : List (AtomicPool T × Act T)} {s : AtomicPool T}
    (hrun : Run (step codec) (new addrs round_robin retry_limit) tr s) (hseq : Meets oneByOne tr)
    (hfew : s.updates.length + 1 < 2 ^ 64) : s.Reconfigured addrs := by
  have hsequential : s.Sequential addrs :=
    hrun.inv_of_meets (Sequential addrs) (new_sequential addrs round_robin retry_limit)
      (fun _ _ _ hi ha hstep => step_sequential hi ha hstep) hseq
  have hrest : s.Counted ∧ s.Versioned ∧ s.Sourced :=
    hrun.inv (fun s => s.updates.length + 1 < 2 ^ 64 → s.Counted ∧ s.Versioned ∧ s.Sourced)
      (fun _ => ⟨rfl, new_versioned addrs round_robin retry_limit, new_sourced addrs round_robin retry_limit⟩)
      (fun s a s' hi hstep hfew => by
        have hlen := step_updates_length hstep
        obtain ⟨hcounted, hversioned, hsourced⟩ := hi (by omega)
        have hfits := hcounted.verFits (by omega) hstep
        exact ⟨step_counted hcounted (by omega) hstep, step_versioned hversioned hfits hstep,
          step_sourced hsourced hversioned.nodup hstep⟩)
      hfew
  obtain ⟨-, hversioned, hsourced⟩ := hrest
  obtain ⟨done, hdone, hhist, hcalls⟩ := hsequential.calls
  refine ⟨hsequential.pools, ?_, hsequential.chain, hversioned.nodup, fun t cluster i seed hw => ?_⟩
  · rw [hcalls.filter_eq hdone]
    exact hhist
  · have hworker := hsourced.worker
    rw [hw] at hworker
    exact hworker.2.2 i rfl

/-- A task fails, and the retry worker has loaded the configuration when another
replaces it. -/
def replacedMeanwhile : List (Act SampleTask) :=
  [.send sampleTask, .send_load 0, .send_draw 0, .send_scan 0 fun _ => true,
    .resolve 0 ⟨[], .rpc .Io⟩, .retry_recv,
    .retry_load, .update ["b", "c"], .update_load 0, .update_draw 0, .update_store 0, .retry_draw]

theorem reconfigured_exactly_meanwhile :
    ∃ tr s t cluster, Run (step ()) (new ["a", "b"] false 1) tr s ∧
      tr.map Prod.snd = replacedMeanwhile ∧
      s.worker = .seeded t cluster (some 0) 1 ∧ s.pools = some ⟨[⟨"b", 1⟩, ⟨"c", 2⟩], 2⟩ ∧
      t.origin.cluster = cluster ∧
      s.Reconfigured ["a", "b"] := by
  have hfollow :
      ∃ r t cluster, follow (step ()) (new ["a", "b"] false 1) replacedMeanwhile = some r ∧
      r.1.map Prod.snd = replacedMeanwhile ∧ r.2.worker = .seeded t cluster (some 0) 1 ∧
      r.2.pools = some ⟨[⟨"b", 1⟩, ⟨"c", 2⟩], 2⟩ ∧ r.2.updates.length = 1 ∧
      (r.1.all fun p => decide (p.1.oneByOne p.2)) = true := ⟨_, _, _, rfl, rfl, rfl, rfl, rfl, rfl⟩
  obtain ⟨⟨tr, s⟩, t, cluster, hfollow, hacts, hworker, hpools, hlen, hseq⟩ := hfollow
  have hrun := Run.of_follow hfollow
  have hseq : Meets oneByOne tr := fun p hp => of_decide_eq_true (List.all_eq_true.1 hseq p hp)
  have hlen : s.updates.length = 1 := hlen
  have h := reconfigured_exactly () ["a", "b"] false 1 hrun hseq (by rw [hlen]; decide)
  exact ⟨tr, s, t, cluster, hrun, hacts, hworker, hpools, (h.resumes t cluster 0 1 hworker).1, h⟩

/-! ## When the versions run out -/

/-- `k` calls one after the other that ask for no addresses. -/
theorem empty_updates (codec : C) (k : Nat) :
    ∃ tr s rest, Run (step codec) (new [] false 0 : AtomicPool T) tr s ∧ Meets oneByOne tr ∧
      s.handle = true ∧
      (∀ u ∈ s.updates, u.pc.isReturned = true) ∧ s.ver = u64 (k + 1) ∧ s.updates.length = k ∧
      s.installed = ⟨[], 0⟩ :: rest ∧ (0 < k → ∃ c ∈ rest, c.ver = u64 (k + 1)) := by
  induction k with
  | zero => exact ⟨[], _, [], .nil, by simp, rfl, nofun, rfl, rfl, rfl, nofun⟩
  | succ k ih =>
    obtain ⟨tr, s, rest, hrun, hseq, hh, hret, hver, hlen, hinst, -⟩ := ih
    rcases hpools :
      reuse_pools s.next_id (old_pools_map ((s.pools.map ClusterConfig.pools).getD [])) []
        with ⟨pools, n⟩
    obtain ⟨s₁, s₂, s₃, hcall⟩ := update_uninterrupted codec hh [] hpools
    have hnext : u64 (s.ver + 1) = u64 (k + 1 + 1) := by
      rw [hver, u64, u64, u64, Nat.mod_add_mod]
    refine ⟨_, _, rest ++ [⟨pools, u64 (s.ver + 1)⟩], hrun.trans hcall, ?_, hh,
      forall_mem_concat hret rfl, hnext, ?_, ?_,
      fun _ => ⟨_, List.mem_append_right _ (List.mem_singleton_self _), hnext⟩⟩
    · intro p hp
      rcases List.mem_append.1 hp with hp | hp
      · exact hseq p hp
      · simp only [List.mem_cons, List.not_mem_nil, or_false] at hp
        rcases hp with rfl | rfl | rfl | rfl
        · exact hret
        · trivial
        · trivial
        · trivial
    · exact (List.length_append).trans (congrArg (· + 1) hlen)
    · exact congrArg (· ++ _) hinst

/-- The last of `2 ^ 64 - 1` calls, none of which overlap, gives its configuration the
version of the first. -/
theorem version_given_twice :
    ∃ tr s, Run (step ()) (new [] false 0 : AtomicPool SampleTask) tr s ∧ Meets oneByOne tr ∧
      s.updates.length = 2 ^ 64 - 1 ∧ ¬ s.Reconfigured [] := by
  obtain ⟨tr, s, rest, hrun, hseq, -, -, -, hlen, hinst, hlast⟩ :=
    empty_updates (T := SampleTask) () (2 ^ 64 - 1)
  refine ⟨tr, s, hrun, hseq, hlen, fun h => ?_⟩
  obtain ⟨c, hc, hver⟩ := hlast (by decide)
  have hzero : u64 (2 ^ 64 - 1 + 1) = 0 := by decide
  have hnd := h.vers
  rw [hinst, List.map_cons, List.nodup_cons] at hnd
  exact hnd.1 (List.mem_map.2 ⟨c, hc, hver.trans hzero⟩)

end AtomicPool

end OccamsRpc
