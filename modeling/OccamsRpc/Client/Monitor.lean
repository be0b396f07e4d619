import OccamsRpc.Client.PoolLife
/-!
# One monitor, and the count of workers

`worker_count` gives a new worker its id, goes down when a worker returns, and
decides whether the monitor hands its place over. A worker counts from the
`fetch_add` of the call that spawns it, or from the `compare_exchange` of the
monitor that is replaced, to the `fetch_sub` that ends its `run`.
-/
open Lib

namespace OccamsRpc

/-- In `_run_worker`. -/
def WorkerPc.serves {T : Type} : WorkerPc T → Bool
  | .recv | .send_batch | .try_recv | .flush _ => true
  | _ => false

namespace Worker

variable {K T A D : Type}

/-- The `run` of the worker has not ended. -/
def runs (w : Worker K T) : Bool :=
  match w.pc with
  | .exited => false
  | _ => true

/-- A running worker with id 0 is the one that watches over the others. -/
def monitors (w : Worker K T) : Bool := w.runs && w.worker_id == 0

theorem runs_of_ne {w : Worker K T} (h : w.pc ≠ .exited) : w.runs = true := by
  unfold runs
  split
  · exact absurd ‹_› h
  · rfl

theorem runs_of_eq {w : Worker K T} {pc : WorkerPc T} (h : w.pc = pc) (hpc : pc ≠ .exited) :
    w.runs = true :=
  runs_of_ne (h ▸ hpc)

theorem monitors_eq_runs {w : Worker K T} (h : w.worker_id = 0) : w.monitors = w.runs := by
  simp [monitors, h]

theorem monitors_eq_false {w : Worker K T} (h : w.worker_id ≠ 0) : w.monitors = false := by
  simp [monitors, h]

/-- A step as the others see it: the worker goes on under its id, it hands the
monitor's place over, or its `run` ends. -/
inductive Turn (p : ClientPoolInner T) (w : Worker K T) :
    ClientPoolInner T → Worker K T → List (Worker K T) → Prop
  | stays {p' w'} (hcount : p'.worker_count = p.worker_count) (hid : w'.worker_id = w.worker_id)
    (hruns : w.runs = true) (hruns' : w'.runs = true)
    (hserves : w'.pc.serves = true → w.worker_id ≠ 0 ∨ w.pc.serves = true)
    (hreturned : w'.pc = .returned → w.worker_id ≠ 0 ∨ w.pc.serves = true ∨ p.handles = 0) :
    Turn p w p' w' []
  | promotes {p' w'} (hcount : p.worker_count = 1) (hcount' : p'.worker_count = 2)
    (hid : w'.worker_id = 1)
    (hruns : w.runs = true) (hruns' : w'.runs = true) : Turn p w p' w' [.new 0]
  | ends {p'} (hcount : p'.worker_count = p.worker_count - 1) (hpc : w.pc = .returned) :
    Turn p w p' (w.goto .exited) []

variable {ops : StreamOps K T A D} {p p' : ClientPoolInner T} {w w' : Worker K T}
  {spawned : List (Worker K T)}
  {ev : WorkerEv A D}

/-- From `pc` to a place that is neither in `_run_worker` nor at the end of `run`. -/
theorem Turn.watching {pc : WorkerPc T} (hpc : w.pc = pc) (hne : pc ≠ .exited)
    (hcount : p'.worker_count = p.worker_count) (hid : w'.worker_id = w.worker_id)
    (hruns' : w'.runs = true) (hserves : w'.pc.serves = false) (hreturned : w'.pc ≠ .returned) :
    Turn p w p' w' [] :=
  .stays hcount hid (runs_of_eq hpc hne) hruns' (fun h => absurd (hserves.symm.trans h) (by decide))
    fun h => absurd h hreturned

/-- From a place in `_run_worker` to anywhere but the end. -/
theorem Turn.serving {pc : WorkerPc T} (hpc : w.pc = pc) (hs : pc.serves = true)
    (hcount : p'.worker_count = p.worker_count) (hid : w'.worker_id = w.worker_id)
    (hruns' : w'.runs = true) :
    Turn p w p' w' [] := by
  have hne : pc ≠ .exited := by
    rintro rfl
    cases hs
  exact .stays hcount hid (runs_of_eq hpc hne) hruns' (fun _ => .inr (hpc ▸ hs))
    fun _ => .inr (.inl (hpc ▸ hs))

theorem run_turn (h : w.run ops p ev = some (p', w', spawned)) : Turn p w p' w' spawned := by
  unfold run at h
  split at h
  case h_1 hpc => cases h; exact .watching hpc (by simp) rfl rfl rfl rfl (by simp)
  case h_2 hpc =>
    cases h
    by_cases hid : w.worker_id = 0
    · simp only [if_pos hid]
      exact .watching hpc (by simp) rfl rfl rfl rfl (by simp)
    · simp only [if_neg hid]
      exact .stays rfl rfl (runs_of_eq hpc (by simp)) rfl (fun _ => .inl hid) fun _ => .inl hid
  case h_3 hpc => cases h; exact .watching hpc (by simp) rfl rfl rfl rfl (by simp [goto])
  case h_4 hpc =>
    cases h
    refine .watching hpc (by simp) rfl rfl ?_ ?_ ?_ <;> by_cases hn :
      p.get_workers > 1 <;> simp [goto, hn, runs, WorkerPc.serves]
  case h_5 hpc =>
    obtain ⟨rfl, rfl, k, k', -, -, rfl⟩ := calls_some h
    exact .watching hpc (by simp) rfl rfl rfl rfl (by simp)
  case h_6 hpc =>
    split at h
    · cases h
      exact .watching hpc (by simp) rfl rfl rfl rfl (by simp [goto])
    · split at h <;> cases h
      exact .stays rfl rfl (runs_of_eq hpc (by simp)) rfl (by simp [goto, WorkerPc.serves])
        fun _ => .inr (.inr ‹_›)
  case h_7 hpc =>
    split at h
    · obtain ⟨rfl, rfl, k, k', -, -, rfl⟩ := calls_some h
      exact .watching hpc (by simp) rfl rfl rfl rfl (by simp)
    · cases h
  case h_8 alone ok hpc =>
    split at h
    · cases ok with
      | true =>
        cases h
        exact .watching hpc (by simp) rfl rfl rfl rfl (by simp [goto])
      | false =>
        cases h
        cases alone <;> exact .watching hpc (by simp) rfl rfl rfl rfl (by simp [goto])
    · cases h
  case h_9 t hpc =>
    split at h
    · obtain ⟨rfl, rfl, k, k', -, -, rfl⟩ := calls_some h
      exact .promotes (And.right ‹_›) rfl rfl (runs_of_eq hpc (by simp)) rfl
    · obtain ⟨rfl, rfl, k, k', -, -, rfl⟩ := calls_some h
      exact .watching hpc (by simp) rfl rfl rfl rfl (by simp)
  case h_10 ok hpc =>
    split at h
    · cases ok with
      | true =>
        cases h
        by_cases hid : w.worker_id > 0
        · simp only [if_pos hid]
          exact .stays rfl rfl (runs_of_eq hpc (by simp)) rfl (fun _ => .inl (by omega))
            fun _ => .inl (by omega)
        · simp only [if_neg hid]
          exact .watching hpc (by simp) rfl rfl rfl rfl (by simp [goto])
      | false =>
        cases h
        by_cases hid : w.worker_id = 0
        · simp only [if_pos hid]
          exact .watching hpc (by simp) rfl rfl rfl rfl (by simp [goto])
        · simp only [if_neg hid]
          exact .stays rfl rfl (runs_of_eq hpc (by simp)) rfl (fun _ => .inl hid) fun _ => .inl hid
    · cases h
  case h_11 hpc =>
    split at h
    · obtain ⟨rfl, rfl, k, k', -, -, rfl⟩ := calls_some h
      exact .serving hpc rfl rfl rfl rfl
    · split at h
      · obtain ⟨rfl, rfl, k, k', -, -, rfl⟩ := calls_some h
        exact .serving hpc rfl rfl rfl rfl
      · cases h
  case h_12 ok hpc =>
    split at h
    · cases ok <;> cases h <;> exact .serving hpc rfl rfl rfl rfl
    · cases h
  case h_13 hpc =>
    split at h
    · obtain ⟨rfl, rfl, k, k', -, -, rfl⟩ := calls_some h
      exact .serving hpc rfl rfl rfl rfl
    · obtain ⟨rfl, rfl, k, k', -, -, rfl⟩ := calls_some h
      exact .serving hpc rfl rfl rfl rfl
  case h_14 last ok hpc =>
    split at h
    · cases ok <;> cases last <;> cases h <;> exact .serving hpc rfl rfl rfl rfl
    · cases h
  case h_15 sleeps hpc =>
    split at h <;> cases h
    · exact .watching hpc (by simp) rfl rfl (runs_of_eq hpc (by simp)) (by rw [hpc]; rfl) (by simp [hpc])
    · cases sleeps <;> exact .watching hpc (by simp) rfl rfl rfl rfl (by simp [goto])
  case h_16 hpc => cases h; exact .watching hpc (by simp) rfl rfl rfl rfl (by simp [goto])
  case h_17 hpc => cases h; exact .ends rfl hpc
  case h_18 =>
    split at h
    case isTrue hc =>
      obtain ⟨k, -, h⟩ := Option.bind_eq_some_iff.1 h
      obtain ⟨k', -, h⟩ := Option.bind_eq_some_iff.1 h
      cases h
      have hne : w.pc ≠ .exited := by
        intro he
        rw [he] at hc
        cases hc
      refine .stays rfl rfl (runs_of_ne hne) (runs_of_ne hne) .inr fun he => ?_
      have he : w.pc = .returned := he
      rw [he] at hc
      cases hc
    case isFalse => cases h
  case h_19 => cases h

/-- A worker with id 0 is not in `_run_worker`, and only comes to the end of its
`run` when the handles are gone. -/
def Watches (handles : Nat) (w : Worker K T) : Prop :=
  w.worker_id = 0 → w.pc.serves = false ∧ (w.pc = .returned ∨ w.pc = .exited → handles = 0)

theorem new_watches (handles id : Nat) : (Worker.new id : Worker K T).Watches handles :=
  fun _ => ⟨rfl, by rintro (h | h) <;> cases h⟩

theorem Watches.of_handles {handles : Nat} (h : w.Watches handles) (hpos : 0 < handles)
    (handles' : Nat) :
    w.Watches handles' := by
  intro hid
  obtain ⟨hs, hend⟩ := h hid
  exact ⟨hs, fun he => absurd (hend he) (Nat.ne_of_gt hpos)⟩

theorem Turn.watches (h : Turn p w p' w' spawned) (hw : w.Watches p.handles) :
    w'.Watches p.handles ∧ ∀ v ∈ spawned, v.Watches p.handles := by
  cases h with
  | stays _ hid _ hr' hserves hreturned =>
    refine ⟨fun h0 => ?_, by simp⟩
    rw [hid] at h0
    obtain ⟨hs, -⟩ := hw h0
    refine ⟨?_, ?_⟩
    · rw [← Bool.not_eq_true]
      intro hs'
      rcases hserves hs' with hne | hs'
      · exact hne h0
      · rw [hs] at hs'
        cases hs'
    · rintro (he | he)
      · rcases hreturned he with hne | hs' | hgone
        · exact absurd h0 hne
        · rw [hs] at hs'
          cases hs'
        · exact hgone
      · rw [runs, he] at hr'
        cases hr'
  | promotes _ _ hid _ _ =>
    refine ⟨fun h0 => absurd h0 (by omega), fun v hv => ?_⟩
    rw [List.mem_singleton.1 hv]
    exact new_watches _ _
  | ends _ hpc => exact ⟨fun h0 => ⟨rfl, fun _ => (hw h0).2 (.inl hpc)⟩, by simp⟩

end Worker

namespace ClientPool

variable {K T A D : Type} {ops : StreamOps K T A D} {s s' : ClientPool K T} {a : Act T A D}

/-- The workers whose `run` has not ended, and those of them with id 0. -/
def running (s : ClientPool K T) : Nat := s.workers.countP Worker.runs

/-- How many workers monitor the pool. A pool that is in use needs one. -/
def monitoring (s : ClientPool K T) : Nat := s.workers.countP Worker.monitors

/-- `worker_count` is the number of running workers. As long as a handle of the pool is
there one of them, and only one, monitors it, and what that worker is about to do agrees
with the handles it has seen. -/
structure Staffed (s : ClientPool K T) : Prop where
  count : s.inner.worker_count = s.running
  one : 0 < s.inner.handles → s.monitoring = 1
  watches : ∀ w ∈ s.workers, w.Watches s.inner.handles

theorem new_staffed (thresholds channel_size : Nat) :
    (new thresholds channel_size : ClientPool K T).Staffed where
  count := rfl
  one := fun _ => rfl
  watches := by
    intro w hw
    rw [List.mem_singleton.1 hw]
    exact Worker.new_watches _ _

/-- A worker that is alone while there is a monitor is the monitor. -/
theorem id_of_alone {ws : List (Worker K T)} {i : Nat} {w : Worker K T} (hw : ws[i]? = some w)
    (hr : w.runs = true) (hrun : ws.countP Worker.runs = 1) (hmon : ws.countP Worker.monitors = 1) :
    w.worker_id = 0 := by
  by_contra hid
  -- with this worker ended nobody would run, and yet the monitor would
  have hmono : (ws.set i (w.goto .exited) ++ []).countP Worker.monitors ≤
      (ws.set i (w.goto .exited) ++ []).countP Worker.runs :=
    List.countP_mono_left fun v _ hv => (Bool.and_eq_true_iff.1 hv).1
  have h1 := countP_set_append hw (w.goto .exited) [] Worker.runs
  have h2 := countP_set_append hw (w.goto .exited) [] Worker.monitors
  have hexit : (w.goto .exited).runs = false := rfl
  have hexit' : (w.goto .exited).monitors = false := rfl
  simp only [hr, hexit, hexit', Worker.monitors_eq_false hid, Bool.false_eq_true, if_true, if_false,
    List.countP_nil] at h1 h2
  omega

theorem Staffed.work (h : s.Staffed) {i : Nat} {w w' : Worker K T} {inner : ClientPoolInner T}
    {spawned : List (Worker K T)} (hw : s.workers[i]? = some w)
    (hh : inner.handles = s.inner.handles) (ht : Worker.Turn s.inner w inner w' spawned) :
    Staffed ⟨inner, s.workers.set i w' ++ spawned⟩ := by
  have hcount : s.inner.worker_count = s.workers.countP Worker.runs := h.count
  have hone : 0 < s.inner.handles → s.workers.countP Worker.monitors = 1 := h.one
  have hwatch := h.watches w (List.mem_of_getElem? hw)
  have hruns := countP_set_append hw w' spawned Worker.runs
  have hmon := countP_set_append hw w' spawned Worker.monitors
  have hall : ∀ v ∈ s.workers.set i w' ++ spawned, v.Watches inner.handles := by
    obtain ⟨hw', hnew⟩ := ht.watches hwatch
    rw [hh, List.forall_mem_append]
    exact ⟨forall_mem_set h.watches hw', hnew⟩
  cases ht with
  | stays hc hid hr hr' _ _ =>
    have hsame : w'.monitors = w.monitors := by rw [Worker.monitors, Worker.monitors, hr, hr', hid]
    rw [hr, hr'] at hruns
    rw [hsame] at hmon
    refine ⟨?_, fun h0 => ?_, hall⟩
    · show inner.worker_count = (s.workers.set i w' ++ []).countP Worker.runs
      simp only [if_true, List.countP_nil] at hruns
      omega
    · show (s.workers.set i w' ++ []).countP Worker.monitors = 1
      have := hone (hh ▸ h0)
      simp only [List.countP_nil] at hmon
      omega
  | promotes hc hc' hid hr hr' =>
    have hnew : ([Worker.new 0] : List (Worker K T)).countP Worker.runs = 1 := rfl
    have hnew' : ([Worker.new 0] : List (Worker K T)).countP Worker.monitors = 1 := rfl
    have hid' : w'.worker_id ≠ 0 := by omega
    rw [hr, hr', hnew] at hruns
    rw [Worker.monitors_eq_false hid', hnew'] at hmon
    refine ⟨?_, fun h0 => ?_, hall⟩
    · show inner.worker_count = (s.workers.set i w' ++ [Worker.new 0]).countP Worker.runs
      simp only [if_true] at hruns
      omega
    · -- the worker was alone, and so the monitor it is replaced as
      show (s.workers.set i w' ++ [Worker.new 0]).countP Worker.monitors = 1
      have hm := hone (hh ▸ h0)
      have hzero := id_of_alone hw hr (by omega) hm
      rw [Worker.monitors_eq_runs hzero, hr] at hmon
      simp only [if_true, Bool.false_eq_true, if_false] at hmon
      omega
  | ends hc hpc =>
    have hr : w.runs = true := Worker.runs_of_eq hpc (by simp)
    have hr' : (w.goto .exited).runs = false := rfl
    have hm' : (w.goto .exited).monitors = false := rfl
    rw [hr, hr'] at hruns
    rw [hm'] at hmon
    refine ⟨?_, fun h0 => ?_, hall⟩
    · show inner.worker_count = (s.workers.set i (w.goto .exited) ++ []).countP Worker.runs
      simp only [if_true, Bool.false_eq_true, if_false, List.countP_nil] at hruns
      omega
    · show (s.workers.set i (w.goto .exited) ++ []).countP Worker.monitors = 1
      have hpos : 0 < s.inner.handles := hh ▸ h0
      have hm := hone hpos
      have hid : w.worker_id ≠ 0 := fun hid => Nat.ne_of_gt hpos ((hwatch hid).2 (.inl hpc))
      simp only [Worker.monitors_eq_false hid, Bool.false_eq_true, if_false, List.countP_nil] at hmon
      omega

theorem Staffed.step (h : s.Staffed) (hs : step ops s a = some s') : s'.Staffed := by
  cases a with
  | work i ev =>
    obtain ⟨w, hw, hs⟩ := Option.bind_eq_some_iff.1 hs
    obtain ⟨⟨inner, w', spawned⟩, hr, hs⟩ := Option.bind_eq_some_iff.1 hs
    cases hs
    exact h.work hw (Worker.run_cases hr).shared.1 (Worker.run_turn hr)
  | spawn =>
    simp only [ClientPool.step] at hs
    split at hs
    case isFalse => cases hs
    case isTrue hpos =>
      cases hs
      -- the monitor is there, so the new id is not 0
      have hcount : s.inner.worker_count = s.workers.countP Worker.runs := h.count
      have hone : s.workers.countP Worker.monitors = 1 := h.one hpos
      have hle : s.workers.countP Worker.monitors ≤ s.workers.countP Worker.runs :=
        List.countP_mono_left fun v _ hv => (Bool.and_eq_true_iff.1 hv).1
      have hid : s.inner.worker_count ≠ 0 := by omega
      have hm : (Worker.new s.inner.worker_count : Worker K T).monitors = false :=
        Worker.monitors_eq_false hid
      refine ⟨?_, fun _ => ?_, fun v hv => ?_⟩
      · show _ + 1 = (s.workers ++ [Worker.new s.inner.worker_count]).countP Worker.runs
        rw [List.countP_append, hcount]
        rfl
      · show (s.workers ++ [Worker.new s.inner.worker_count]).countP Worker.monitors = 1
        rw [List.countP_append, hone, List.countP_singleton, hm]
        rfl
      · rcases List.mem_append.1 hv with hv | hv
        · exact h.watches v hv
        · rw [List.mem_singleton.1 hv]
          exact fun h0 => absurd h0 hid
  | send_req t =>
    simp only [ClientPool.step] at hs
    split at hs <;> cases hs
    exact ⟨h.count, h.one, h.watches⟩
  | clone =>
    simp only [ClientPool.step] at hs
    split at hs
    case isFalse => cases hs
    case isTrue hpos =>
      cases hs
      exact ⟨h.count, fun _ => h.one hpos, fun w hw => (h.watches w hw).of_handles hpos _⟩
  | drop =>
    simp only [ClientPool.step] at hs
    split at hs
    case isFalse => cases hs
    case isTrue hpos =>
      cases hs
      exact ⟨h.count, fun _ => h.one hpos, fun w hw => (h.watches w hw).of_handles hpos _⟩
  | drop_inner =>
    simp only [ClientPool.step] at hs
    split at hs <;> cases hs
    exact ⟨h.count, h.one, h.watches⟩

/-- While a handle is there, `worker_count` is the number of workers whose `run` has
not ended, and one of them is the monitor. -/
theorem one_monitor (ops : StreamOps K T A D) (thresholds channel_size : Nat)
    {tr : List (ClientPool K T × Act T A D)} {s : ClientPool K T}
    (h : Run (ClientPool.step ops) (new thresholds channel_size) tr s) (hpos : 0 < s.inner.handles) :
    s.inner.worker_count = s.running ∧ s.monitoring = 1 := by
  have hs :
      s.Staffed := h.inv Staffed (new_staffed thresholds channel_size) fun _ _ _ hi ht => hi.step ht
  exact ⟨hs.count, hs.one hpos⟩

/-- A stream on which every call returns at once, and that always has a task in flight. -/
def busyOps : StreamOps Unit Unit Unit Unit := { sampleOps with get_inflight_count := fun _ => 1 }

/-- The monitor takes a task and is replaced, a worker is spawned, and the one that was
the monitor returns when its send fails. -/
def samplePromotion : List (Act Unit Unit Unit) :=
  [.send_req (), .work 0 .next, .work 0 (.connected ()), .work 0 .next, .work 0 .next, .work 0 .next, .spawn,
    .work 0 (.done false), .work 0 .next]

theorem one_monitor_promotion : ∃ tr s, Run (ClientPool.step busyOps) (new 0 1) tr s ∧
    s.workers.map Worker.worker_id = [1, 0, 2] ∧ s.inner.worker_count = 2 ∧
    s.inner.worker_count = s.running ∧ s.monitoring = 1 := by
  obtain ⟨tr, s, h, hids, hcount, hpos⟩ :
      ∃ tr s, follow (ClientPool.step busyOps) (new 0 1) samplePromotion = some (tr, s) ∧
      s.workers.map Worker.worker_id = [1, 0, 2] ∧ s.inner.worker_count = 2 ∧ s.inner.handles = 1 :=
    ⟨_, _, rfl, rfl, rfl, rfl⟩
  have hrun : Run (ClientPool.step busyOps) (new 0 1) tr s := .of_follow h
  exact ⟨tr, s, hrun, hids, hcount, one_monitor busyOps 0 1 hrun (by omega)⟩

end ClientPool

end OccamsRpc
