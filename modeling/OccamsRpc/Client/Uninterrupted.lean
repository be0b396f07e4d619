import OccamsRpc.Client.Atomic
/-!
# Calls without interruption

The steps of one call in a row do what `Client/Failover.lean` says the call does,
so that every run of the failover pool whose calls are steps is a run of its
atomic operations.
-/
open Lib

namespace OccamsRpc

namespace AtomicPool

variable {C T : Type} [ClientTaskCommon T] [ClientTask C T] {codec : C} {s s' : AtomicPool T}

/-! ## One call -/

/-- The state after a call of `update_addrs`. -/
def updated (s : AtomicPool T) (addrs : List String) (cluster : ClusterConfig) (next_id : Nat) :
    AtomicPool T :=
  { s with
    pools := some cluster
    ver := cluster.ver
    next_id := next_id
    updates := s.updates ++ [⟨addrs, .returned cluster⟩]
    installed := s.installed ++ [cluster] }

theorem update_uninterrupted (codec : C) (hh : s.handle = true) (addrs : List String)
    {pools : List Pool} {next_id : Nat}
    (hpools : reuse_pools s.next_id (old_pools_map ((s.pools.map ClusterConfig.pools).getD [])) addrs =
      (pools, next_id)) :
    ∃ s₁ s₂ s₃, Run (step codec) s
      [(s, .update addrs), (s₁, .update_load s.updates.length), (s₂, .update_draw s.updates.length),
        (s₃, .update_store s.updates.length)] (s.updated addrs ⟨pools, u64 (s.ver + 1)⟩ next_id) := by
  let at' (pc : UpdatePc) : AtomicPool T := { s with updates := s.updates ++ [⟨addrs, pc⟩] }
  have hcall : s.step codec (.update addrs) = some (at' .called) := if_pos hh
  have hload : (at' .called).step codec (.update_load s.updates.length) =
      some (at' (.loaded ((s.pools.map ClusterConfig.pools).getD []))) := by
    simp only [at', step, update_load, List.getElem?_concat_length, setUpdate, set_concat_length]
  have hdraw : (at' (.loaded ((s.pools.map ClusterConfig.pools).getD []))).step codec
      (.update_draw s.updates.length) =
      some { at' (.drawn ⟨pools, u64 (s.ver + 1)⟩) with ver := u64 (s.ver + 1), next_id := next_id } := by
    simp only [at', step, update_draw, List.getElem?_concat_length, setUpdate, set_concat_length, hpools]
  have hstore : { at' (.drawn ⟨pools, u64 (s.ver + 1)⟩) with
      ver := u64 (s.ver + 1), next_id := next_id }.step codec
      (.update_store s.updates.length) =
        some (s.updated addrs ⟨pools, u64 (s.ver + 1)⟩ next_id) := by
    simp only [at', step, update_store, List.getElem?_concat_length, setUpdate, set_concat_length]
    rfl
  exact ⟨_, _, _, .snoc (.snoc (.snoc (.snoc .nil hcall) hload) hdraw) hstore⟩

/-! ## Every run -/

/-- Between calls, the state is that of the pool whose calls are steps; its retry
worker has not ended. -/
structure Agrees (t : FailoverPool T) (s : AtomicPool T) : Prop where
  round_robin : s.round_robin = t.round_robin
  retry_limit : s.retry_limit = t.retry_limit
  pools : s.pools = t.pools
  ver : s.ver = t.ver
  rr_counter : s.rr_counter = t.rr_counter
  next_id : s.next_id = t.next_id
  handle : s.handle = t.handle
  retry : s.retry.map Sent.task = t.retry.map Prod.snd
  in_flight : s.in_flight.map Sent.task = t.in_flight.map Prod.snd
  sends : ∀ c ∈ s.sends, c.pc.isReturned = true
  updates : ∀ u ∈ s.updates, u.pc.isReturned = true
  idle : s.worker = .idle
  worker : t.worker = true
  dropped : t.handle = false → t.pools = none
  inner : t.inner = false → t.handle = false

/-- The retry worker goes on. -/
def workerStays (_ : FailoverPool T) : FailoverPool.Act T → Prop
  | .worker_exit => False
  | _ => True

section
variable {t t' : FailoverPool T}

theorem Agrees.update_addrs (h : Agrees t s) (hh : t.handle = true) (addrs : List String) :
    ∃ tr s', Run (step codec) s tr s' ∧ Agrees (t.update_addrs addrs) s' := by
  rcases hpools : reuse_pools s.next_id (old_pools_map ((s.pools.map ClusterConfig.pools).getD []))
    addrs with ⟨pools, n⟩
  obtain ⟨s₁, s₂, s₃, hrun⟩ := update_uninterrupted codec (h.handle.trans hh) addrs hpools
  rw [h.next_id, h.pools] at hpools
  have hupd : t.update_addrs addrs = { t with
      pools := some ⟨pools, u64 (t.ver + 1)⟩
      ver := u64 (t.ver + 1)
      next_id := n
      is_healthy := fun id => t.is_healthy id || decide (t.next_id ≤ id) } := by
    simp only [FailoverPool.update_addrs]
    rw [old_pools_map] at hpools
    rw [hpools]
  refine ⟨_, _, hrun, ?_⟩
  rw [hupd, h.ver]
  exact { h with
    pools := rfl
    ver := rfl
    next_id := rfl
    updates := forall_mem_concat h.updates rfl
    dropped := fun hd => by rw [show t.handle = false from hd] at hh; cases hh }

omit [ClientTaskCommon T] in
/-- A search by the pool whose calls are steps, as a draw and a scan. -/
theorem Agrees.select (h : Agrees t s) (cluster : ClusterConfig) (last_index : Option Nat) :
    (t.search cluster last_index).select =
      ((cluster.draw s.round_robin s.rr_counter last_index).1.bind (cluster.scan t.is_healthy),
        (cluster.draw s.round_robin s.rr_counter last_index).2) := by
  rw [h.round_robin, h.rr_counter]
  exact cluster.select_eq t.is_healthy t.round_robin t.rr_counter last_index

theorem Agrees.send_req (h : Agrees t s) (hh : t.handle = true) (task : T) :
    ∃ tr s', Run (step codec) s tr s' ∧ Agrees (t.send_req C task) s' := by
  let at' (pc : SendReqPc) : AtomicPool T := { s with sends := s.sends ++ [⟨task, pc⟩] }
  have hcall : s.step codec (.send task) = some (at' .called) := if_pos (h.handle.trans hh)
  have hload :
      (at' .called).step codec (.send_load s.sends.length) = some (at' (.loaded t.pools)) := by
    simp only [at', step, send_load, List.getElem?_concat_length, setSend, set_concat_length, h.pools]
  have hstart := Run.snoc (Run.snoc .nil hcall) hload
  have hsends : ∀ r, ∀ c ∈ (at' (.returned r)).sends, c.pc.isReturned = true :=
    fun _ => forall_mem_concat h.sends rfl
  cases hp : t.pools with
  | none =>
    rw [hp] at hstart
    have hdraw : (at' (.loaded none)).step codec (.send_draw s.sends.length) =
        some (at' (.returned none)) := by
      simp only [at', step, send_draw, List.getElem?_concat_length, setSend, set_concat_length]
    obtain ⟨jobs, heq⟩ : ∃ jobs, t.send_req C task = { t with jobs := jobs } :=
      ⟨_, by simp only [FailoverPool.send_req, hp]; rfl⟩
    rw [heq]
    exact ⟨_, _, hstart.snoc hdraw, { h with sends := hsends none }⟩
  | some cluster =>
    rw [hp] at hstart
    have hsel := h.select cluster none
    rcases hd : cluster.draw s.round_robin s.rr_counter none with ⟨_ | seed, rr_counter⟩
    · rw [hd] at hsel
      have hdraw : (at' (.loaded (some cluster))).step codec (.send_draw s.sends.length) =
          some { at' (.returned none) with rr_counter := rr_counter } := by
        simp only [at', step, send_draw, List.getElem?_concat_length, setSend, set_concat_length, hd]
      obtain ⟨jobs, heq⟩ :
          ∃ jobs, t.send_req C task = { t with rr_counter := rr_counter, jobs := jobs } :=
        ⟨_, by simp only [FailoverPool.send_req, hp, hsel, Option.bind_none]; rfl⟩
      rw [heq]
      exact ⟨_, _, hstart.snoc hdraw, { h with rr_counter := rfl, sends := hsends none }⟩
    · rw [hd] at hsel
      have hdraw : (at' (.loaded (some cluster))).step codec (.send_draw s.sends.length) =
          some { at' (.seeded cluster seed) with rr_counter := rr_counter } := by
        simp only [at', step, send_draw, List.getElem?_concat_length, setSend, set_concat_length, hd]
      cases hscan : cluster.scan t.is_healthy seed with
      | none =>
        have hscan' : { at' (.seeded cluster seed) with rr_counter := rr_counter }.step codec
            (.send_scan s.sends.length t.is_healthy) =
              some { at' (.returned none) with rr_counter := rr_counter } := by
          simp only [at', step, send_scan, List.getElem?_concat_length, setSend, set_concat_length, hscan]
        obtain ⟨jobs, heq⟩ :
            ∃ jobs, t.send_req C task = { t with rr_counter := rr_counter, jobs := jobs } :=
          ⟨_, by simp only [FailoverPool.send_req, hp, hsel, Option.bind_some, hscan]; rfl⟩
        rw [heq]
        exact ⟨_, _, (hstart.snoc hdraw).snoc hscan', { h with rr_counter := rfl, sends := hsends none }⟩
      | some r =>
        obtain ⟨index, pool⟩ := r
        have hscan' : { at' (.seeded cluster seed) with rr_counter := rr_counter }.step codec
            (.send_scan s.sends.length t.is_healthy) =
              some { at' (.returned (some (index, pool))) with
              rr_counter := rr_counter
              in_flight := s.in_flight ++
                [Sent.first ⟨cluster, t.is_healthy, s.round_robin, seed, none⟩ index task] } := by
          simp only [at', step, send_scan, List.getElem?_concat_length, setSend, set_concat_length, hscan]
        obtain ⟨jobs, heq⟩ : ∃ jobs, t.send_req C task = { t with
            rr_counter := rr_counter
            in_flight := t.in_flight ++ [(t.jobs.length, ⟨index, cluster.ver, task, 0, false⟩)]
            jobs := jobs } :=
          ⟨_, by simp only [FailoverPool.send_req, hp, hsel, Option.bind_some, hscan]; rfl⟩
        rw [heq]
        refine ⟨_, _, (hstart.snoc hdraw).snoc hscan',
          { h with rr_counter := rfl, sends := hsends _, in_flight := ?_ }⟩
        rw [List.map_append, List.map_append, h.in_flight]
        rfl

theorem Agrees.resolve (h : Agrees t s) {i : Nat} {a : Attempt}
    (hstep : t.resolve codec i a = some t') :
    ∃ tr s', Run (step codec) s tr s' ∧ Agrees t' s' := by
  obtain ⟨n, ft, hi, hend⟩ := FailoverPool.resolve_cases hstep
  -- the same task is there
  obtain ⟨sent, hsent, htask⟩ : ∃ sent, s.in_flight[i]? = some sent ∧ sent.task = ft := by
    have hget := congrArg (fun l => l[i]?) h.in_flight
    simp only [List.getElem?_map, hi, Option.map_some] at hget
    exact Option.map_eq_some_iff.1 hget
  have hflight :
      (s.in_flight.eraseIdx i).map Sent.task = (t.in_flight.eraseIdx i).map Prod.snd := by
    rw [← List.eraseIdx_map, ← List.eraseIdx_map, h.in_flight]
  obtain ⟨hok, rfl⟩ | ⟨hne, rfl⟩ := hend
  · have hres :
        s.step codec (.resolve i a) = some { s with in_flight := s.in_flight.eraseIdx i } := by
      simp only [step, AtomicPool.resolve, hsent, hok]
    exact ⟨_, _, .snoc .nil hres, { h with in_flight := hflight }⟩
  · have hres : s.step codec (.resolve i a) =
        if (a.settle codec ft).should_retry ∧ (a.settle codec ft).retry ≤ s.retry_limit then
          some { s with
            in_flight := s.in_flight.eraseIdx i,
            retry := s.retry ++ [⟨a.settle codec ft, sent.origin⟩] }
        else some { s with in_flight := s.in_flight.eraseIdx i } := by
      simp only [step, AtomicPool.resolve, hsent, htask]
    have hlimit := h.retry_limit
    unfold FailoverPool.error_handle
    split
    case isTrue hagain =>
      rw [if_pos ⟨hagain.1, hlimit ▸ hagain.2⟩] at hres
      have hretry : (s.retry ++ [(⟨a.settle codec ft, sent.origin⟩ : Sent T)]).map Sent.task =
          (t.retry ++ [(n, a.settle codec ft)]).map Prod.snd := by
        rw [List.map_append, List.map_append, h.retry]
        rfl
      split
      case isTrue => exact ⟨_, _, .snoc .nil hres, { h with in_flight := hflight, retry := hretry }⟩
      case isFalse hended => exact absurd h.worker hended
    case isFalse hagain =>
      rw [if_neg fun h' => hagain ⟨h'.1, hlimit ▸ h'.2⟩] at hres
      exact ⟨_, _, .snoc .nil hres, { h with in_flight := hflight }⟩

theorem Agrees.retry_worker (h : Agrees t s) (hstep : t.retry_worker = some t') :
    ∃ tr s', Run (step codec) s tr s' ∧ Agrees t' s' := by
  unfold FailoverPool.retry_worker at hstep
  split at hstep
  case h_2 => cases hstep
  rename_i n ft rest _ hr
  obtain ⟨sent, retry, hretry, htask, hrest⟩ :
      ∃ sent retry, s.retry = sent :: retry ∧ sent.task = ft ∧
      retry.map Sent.task = rest.map Prod.snd := by
    have hmap := h.retry
    rw [hr, List.map_cons] at hmap
    exact List.map_eq_cons_iff.1 hmap |>.imp fun _ h => h.imp fun _ h => ⟨h.1, h.2.1, h.2.2⟩
  let at' (pc : RetryPc T) : AtomicPool T := { s with retry := retry, worker := pc }
  have hrecv : s.step codec .retry_recv = some (at' (.received sent)) := by
    simp only [step, retry_recv, h.idle, hretry, at']
  have hload : (at' (.received sent)).step codec .retry_load = some (at' (.loaded sent s.pools)) :=
    rfl
  have hstart := Run.snoc (Run.snoc .nil hrecv) hload
  have hinner : (if t.inner then t.pools else none) = s.pools := by
    split
    case isTrue => exact h.pools.symm
    case isFalse hgone =>
      exact (h.pools.trans (h.dropped (h.inner (Bool.eq_false_iff.2 hgone)))).symm
  have hbetween :
      Agrees { t with retry := rest } (at' .idle) := { h with retry := hrest, idle := rfl }
  dsimp only at hstep
  rw [hinner] at hstep
  cases hp : s.pools with
  | none =>
    rw [hp] at hstep hstart
    cases hstep
    have hdraw : (at' (.loaded sent none)).step codec .retry_draw = some (at' .idle) := rfl
    exact ⟨_, _, hstart.snoc hdraw, { hbetween with }⟩
  | some cluster =>
    rw [hp] at hstep hstart
    subst htask
    dsimp only at hstep
    generalize hlast :
      (if cluster.ver = sent.task.cluster_ver then some sent.task.last_index else none) = last_index
      at hstep
    have hsel := h.select cluster last_index
    let again : Sent T := ⟨{ sent.task with cluster_ver := cluster.ver }, sent.origin⟩
    rcases hd : cluster.draw s.round_robin s.rr_counter last_index with ⟨_ | seed, rr_counter⟩
    · rw [hd] at hsel
      have hdraw : (at' (.loaded sent (some cluster))).step codec .retry_draw =
          some { at' .idle with rr_counter := rr_counter } := by
        simp only [at', step, retry_draw, hlast, hd]
      split at hstep
      case h_1 hq => cases hsel.symm.trans hq
      case h_2 hq =>
        cases hsel.symm.trans hq
        cases hstep
        exact ⟨_, _, hstart.snoc hdraw, { hbetween with rr_counter := rfl }⟩
    · rw [hd] at hsel
      have hdraw : (at' (.loaded sent (some cluster))).step codec .retry_draw =
          some { at' (.seeded again cluster last_index seed) with rr_counter := rr_counter } := by
        simp only [at', step, retry_draw, hlast, hd, again]
      split at hstep
      case h_1 index pool rr_counter' hq =>
        obtain ⟨hscan, rfl⟩ := Prod.mk.inj (hsel.symm.trans hq)
        have hscan : cluster.scan t.is_healthy seed = some (index, pool) := hscan
        cases hstep
        have hpick :
            { at' (.seeded again cluster last_index seed) with rr_counter := rr_counter }.step codec
            (.retry_scan t.is_healthy) = some { at' .idle with
              rr_counter := rr_counter
              in_flight :=
                s.in_flight ++ [again.again ⟨cluster, t.is_healthy, s.round_robin, seed,
                  last_index⟩ index] } := by
          simp only [at', step, retry_scan, hscan]
        refine ⟨_, _, (hstart.snoc hdraw).snoc hpick, { hbetween with rr_counter := rfl, in_flight := ?_ }⟩
        refine Eq.trans ?_ List.map_append.symm
        rw [List.map_append, h.in_flight]
        rfl
      case h_2 rr_counter' hq =>
        obtain ⟨hscan, rfl⟩ := Prod.mk.inj (hsel.symm.trans hq)
        have hscan : cluster.scan t.is_healthy seed = none := hscan
        cases hstep
        have hmiss :
            { at' (.seeded again cluster last_index seed) with rr_counter := rr_counter }.step codec
            (.retry_scan t.is_healthy) = some { at' .idle with rr_counter := rr_counter } := by
          simp only [at', step, retry_scan, hscan]
        exact ⟨_, _, (hstart.snoc hdraw).snoc hmiss, { hbetween with rr_counter := rfl }⟩

theorem Agrees.step (h : Agrees t s) {a : FailoverPool.Act T} (ha : workerStays t a)
    (hstep : t.step codec a = some t') :
    ∃ tr s', Run (step codec) s tr s' ∧ Agrees t' s' := by
  cases a with
  | send_req task | send_req_blocking task =>
    obtain ⟨hh, ⟨⟩⟩ := Option.ite_none_right_eq_some.1 hstep
    exact h.send_req hh task
  | resolve i a => exact h.resolve hstep
  | retry_worker => exact h.retry_worker hstep
  | update_addrs addrs =>
    obtain ⟨hh, ⟨⟩⟩ := Option.ite_none_right_eq_some.1 hstep
    exact h.update_addrs hh addrs
  | set_healthy id ok =>
    cases hstep
    exact ⟨[], s, .nil, { h with }⟩
  | drop =>
    obtain ⟨hh, ⟨⟩⟩ := Option.ite_none_right_eq_some.1 hstep
    have hdrop : s.step codec .drop = some { s with handle := false, pools := none } :=
      if_pos ⟨h.handle.trans hh, h.sends, h.updates⟩
    exact ⟨_, _, .snoc .nil hdrop,
      { h with handle := rfl, pools := rfl, dropped := fun _ => rfl, inner := fun _ => rfl }⟩
  | drop_inner =>
    obtain ⟨hh, ⟨⟩⟩ := Option.ite_none_left_eq_some.1 hstep
    exact ⟨[], s, .nil, { h with inner := fun _ => Bool.eq_false_iff.2 hh }⟩
  | worker_exit => cases ha

end

/-- Every run of the pool whose calls are steps, as long as its retry worker does not
end, is a run of the atomic operations. -/
theorem run_uninterrupted (codec : C) (addrs : List String) (round_robin : Bool) (retry_limit : Nat)
    {tr : List (FailoverPool T × FailoverPool.Act T)} {t : FailoverPool T}
    (hrun : Run (FailoverPool.step codec) (.new addrs round_robin retry_limit) tr t)
    (hstays : Meets workerStays tr) :
    ∃ tr' s, Run (step codec) (new addrs round_robin retry_limit) tr' s ∧ Agrees t s := by
  refine hrun.matched Agrees ?_ (fun t a t' s h ha hstep => h.step ha hstep) hstays
  exact {
    round_robin := rfl, retry_limit := rfl, pools := rfl, ver := rfl, rr_counter := rfl,
      next_id := rfl, handle := rfl
    retry := rfl, in_flight := rfl, sends := nofun, updates := nofun, idle := rfl, worker := rfl
    dropped := nofun, inner := nofun }

end AtomicPool

end OccamsRpc
