import OccamsRpc.Client.Failover
import OccamsRpc.Client.Pool
/-!
# A pool whose server is down

What becomes of a pool's health when its server comes back, and of its workers
when the pool is dropped while the server is unreachable.
-/
open Lib

namespace OccamsRpc.ClientPool

variable {K T A D : Type} {ops : StreamOps K T A D} {s s' : ClientPool K T} {a : Act T A D}

/-! ## Health -/

/-- The step is a refused connect, or the return of a call that failed. -/
def fails (s : ClientPool K T) : Act T A D → Bool
  | .work i ev => s.workers[i]?.any fun w => w.fails ev
  | _ => false

theorem Step.is_healthy (h : Step ops s a s') : s'.is_healthy = (s.is_healthy && !s.fails a) := by
  cases h with
  | work hw hm =>
    rw [fails, hw]
    exact hm.shared.2.1
  | @handle a _ _ _ _ _ ha _ _ =>
    have hf : s.fails a = false := by
      cases a with
      | work i ev => exact absurd rfl (ha i ev)
      | _ => rfl
    simp [ClientPool.is_healthy, hf]

theorem run_healthy {init : ClientPool K T} (hinit : init.is_healthy = true)
    {tr : List (ClientPool K T × Act T A D)} (h : Run (step ops) init tr s) :
    s.is_healthy = true ↔ ∀ p ∈ tr, p.1.fails p.2 = false := by
  induction h with
  | nil => simp [hinit]
  | snoc _ hs ih =>
    rw [(step_cases hs).is_healthy, Bool.and_eq_true, ih, Bool.not_eq_true', List.forall_mem_append]
    simp

/-- A worker that is the monitor gets connected. -/
def MonitorConnects (s : ClientPool K T) (a : Act T A D) : Prop :=
  ∃ i d w, a = .work i (.connected d) ∧ s.workers[i]? = some w ∧ w.worker_id = 0

/-- When the monitor has connected and nothing has failed since, the pool is healthy
exactly if nothing failed before either: `is_ok` is never set again. So it is with
the selection of the pool by `ClusterConfig::select`. -/
theorem recovered_healthy_iff (ops : StreamOps K T A D) (thresholds channel_size : Nat)
    {tr tr' : List (ClientPool K T × Act T A D)} {s₁ s : ClientPool K T} {a : Act T A D}
    (h : Run (step ops) (new thresholds channel_size) (tr ++ (s₁, a) :: tr') s)
    (hmon : MonitorConnects s₁ a) (hsince : ∀ p ∈ tr', p.1.fails p.2 = false) :
    (s.is_healthy = true ↔ ∀ p ∈ tr, p.1.fails p.2 = false) ∧
      ∀ (pool : Pool) (ver : Nat) (round_robin : Bool) (rr_counter : Nat), rr_counter + 1 < 2 ^ 64 →
        ((ClusterConfig.select ⟨[pool], ver⟩ (fun _ => s.is_healthy) round_robin rr_counter
          none).1.isSome = true ↔
          ∀ p ∈ tr, p.1.fails p.2 = false) := by
  have hiff : s.is_healthy = true ↔ ∀ p ∈ tr, p.1.fails p.2 = false := by
    rw [run_healthy rfl h, List.forall_mem_append, List.forall_mem_cons]
    constructor
    · exact And.left
    · intro hbefore
      obtain ⟨i, d, w, rfl, hw, -⟩ := hmon
      refine ⟨hbefore, ?_, hsince⟩
      rw [fails, hw, Option.any_some]
      cases hpc : w.pc <;> simp [Worker.fails, hpc]
  refine ⟨hiff, fun pool ver round_robin rr_counter hlt => ?_⟩
  rw [← hiff]
  have hseed :
      (⟨⟨[pool], ver⟩, fun _ => s.is_healthy, round_robin, rr_counter, none⟩ : Search).seed ≤
        rr_counter := by
    cases round_robin <;> simp [Search.seed]
  refine (Search.select_isSome_iff (Nat.lt_of_le_of_lt (Nat.add_le_add_right hseed 1) hlt)).trans ?_
  simp

/-- A stream on which every call returns at once. -/
def sampleOps : StreamOps Unit Unit Unit Unit :=
  ⟨id, fun k _ => some k, fun _ _ => none, fun _ _ => true, fun _ => 0⟩

/-- A connect that is refused, and what follows up to the next. -/
def sampleRefused : List (Act Unit Unit Unit) :=
  [.work 0 .next, .work 0 .refused, .work 0 .next, .work 0 .timer]

theorem recovered_healthy_first : ∃ tr s₁ a s, Run (step sampleOps) (new 0 1) (tr ++ [(s₁, a)]) s ∧
    MonitorConnects s₁ a ∧ s.is_healthy = true := by
  obtain ⟨s₁, s, h, hw⟩ :
      ∃ s₁ s, follow (step sampleOps) (new 0 1) [.work 0 .next, .work 0 (.connected ())] =
      some ([(new 0 1, .work 0 .next)] ++ [(s₁, .work 0 (.connected ()))], s) ∧
      s₁.workers[0]? = some ⟨0, .connecting, none, 1⟩ := ⟨_, _, rfl, rfl⟩
  have hmon : MonitorConnects s₁ (.work 0 (.connected ()) : Act Unit Unit Unit) :=
    ⟨0, (), _, rfl, hw, rfl⟩
  refine ⟨_, _, _, _, .of_follow h, hmon,
    (recovered_healthy_iff sampleOps 0 1 (.of_follow h) hmon (by simp)).1.2 ?_⟩
  intro p hp
  cases List.mem_singleton.1 hp
  rfl

/-- The server is down at the first attempt and there at the second: the monitor is
connected, and the pool stays unhealthy and is not selected. -/
theorem recovered_not_healthy : ∃ tr s₁ a s, Run (step sampleOps) (new 0 1) (tr ++ [(s₁, a)]) s ∧
    MonitorConnects s₁ a ∧ s.is_healthy = false ∧
    (ClusterConfig.select ⟨[⟨"a", 0⟩], 0⟩ (fun _ => s.is_healthy) false 0 none).1 = none := by
  obtain ⟨tr, s₁, s, h, hw, hs⟩ : ∃ tr s₁ s, follow (step sampleOps) (new 0 1)
      (sampleRefused ++ [.work 0 .next, .work 0 (.connected ())]) =
        some (tr ++ [(s₁, .work 0 (.connected ()))], s) ∧
      s₁.workers[0]? = some ⟨0, .connecting, none, 2⟩ ∧ s.is_healthy = false :=
    ⟨[_, _, _, _, _], _, _, rfl, rfl, rfl⟩
  exact ⟨tr, s₁, _, s, .of_follow h, ⟨0, (), _, rfl, hw, rfl⟩, hs, by rw [hs]; rfl⟩

end OccamsRpc.ClientPool

/-! ## Reconnecting -/

/-- How many steps a worker is from the top of its loop, when the channel is empty
and its connects are refused. -/
def OccamsRpc.WorkerPc.toTop {T : Type} : WorkerPc T → Option Nat
  | .top => some 0
  | .connecting => some 3
  | .cleanup true => some 2
  | .backoff => some 1
  | _ => none

namespace OccamsRpc.Worker

variable {K T A D : Type} {ops : StreamOps K T A D} {p p' : ClientPoolInner T} {w w' : Worker K T}
  {spawned : List (Worker K T)} {ev : WorkerEv A D}

theorem toTop_of_connected {pc : WorkerPc T} (h : pc.connected = true) : pc.toTop = none := by
  cases pc <;> first | rfl | cases h

/-- Each step brings the worker one step nearer to the top of its loop, or is a
further connect. -/
theorem Move.toTop (h : Move ops p w ev p' w' spawned) {n : Nat} (hn : w.pc.toTop = some n)
    (hrx : p.rx = []) (hev : ∀ d, ev ≠ .connected d) :
    ∃ n', w'.pc.toTop = some n' ∧ 4 * w'.attempts + n = 4 * w.attempts + n' + 1 := by
  have hstuck {pc : WorkerPc T} (hpc : w.pc = pc) (hc : pc.connected = true) : False := by
    rw [hpc, toTop_of_connected hc] at hn
    cases hn
  cases h with
  | attempt hpc =>
    rw [hpc] at hn
    cases hn
    exact ⟨3, rfl, by simp only; omega⟩
  | connect d hpc => exact absurd rfl (hev d)
  | fail pc _ _ hc =>
    obtain hc | ⟨hpc, rfl⟩ := hc
    · exact (hstuck rfl hc).elim
    · rw [hpc] at hn
      cases hn
      exact ⟨2, rfl, rfl⟩
  | leave pc _ _ hc =>
    obtain hc | ⟨hpc, rfl⟩ | ⟨sleeps, hpc, -, rfl⟩ := hc
    · exact (hstuck rfl hc).elim
    · rw [hpc] at hn
      cases hn
      exact ⟨0, rfl, rfl⟩
    · rw [hpc] at hn
      cases sleeps <;> cases hn
      exact ⟨1, rfl, rfl⟩
  | watch pc _ hw _ => exact (hstuck rfl (WorkerPc.connected_of_watches hw)).elim
  | watch_call pc _ _ _ hw _ _ _ _ _ => exact (hstuck rfl (WorkerPc.connected_of_watches hw)).elim
  | batch_call hr _ _ _ => exact (hstuck rfl (WorkerPc.connected_of_receives hr)).elim
  | flush_call _ hr _ _ => exact (hstuck rfl (WorkerPc.connected_of_receives hr)).elim
  | stream hc _ _ => exact (hstuck rfl hc).elim
  | clean _ hne =>
    rw [hrx] at hne
    cases hne
  | exit hpc =>
    rw [hpc] at hn
    cases hn
  | take hpc _ | sent hpc | flushed hpc _ => exact (hstuck hpc rfl).elim

end OccamsRpc.Worker

namespace OccamsRpc.ClientPool

variable {K T A D : Type} {ops : StreamOps K T A D} {s s' : ClientPool K T} {a : Act T A D}
  {i : Nat} {w : Worker K T}

/-- The handles are gone and the channel is empty. -/
def Dropped (s : ClientPool K T) : Prop := s.inner.handles = 0 ∧ s.inner.rx = []

theorem Dropped.step (hd : Dropped s) (h : Step ops s a s') : Dropped s' := by
  obtain ⟨h0, hrx⟩ := hd
  cases h with
  | work hw hm =>
    obtain ⟨hh, -, ts, hts⟩ := hm.shared
    rw [hrx] at hts
    exact ⟨hh.trans h0, (List.append_eq_nil_iff.1 hts.symm).2⟩
  | handle rx failed count handles spawned _ _ hdrop => exact ⟨(hdrop h0).1, (hdrop h0).2 hrx⟩

/-- A step of worker `i`. -/
def works (i : Nat) : Act T A D → Bool
  | .work j _ => j = i
  | _ => false

/-- A worker moves by its own steps only. -/
theorem Step.worker (h : Step ops s a s') (hw : s.workers[i]? = some w) :
    works i a = false ∧ s'.workers[i]? = some w ∨
    ∃ ev inner w' spawned, a = .work i ev ∧ Worker.Move ops s.inner w ev inner w' spawned ∧
      s'.workers[i]? = some w' := by
  have hlt : i < s.workers.length := (List.getElem?_eq_some_iff.1 hw).1
  cases h with
  | @work j ev v inner v' spawned hv hm =>
    by_cases hij : j = i
    · subst hij
      cases hw.symm.trans hv
      refine .inr ⟨ev, inner, v', spawned, rfl, hm, ?_⟩
      rw [List.getElem?_append_left (by simpa using hlt), List.getElem?_set_self hlt]
    · refine .inl ⟨by simp [works, hij], ?_⟩
      rw [List.getElem?_append_left (by simpa using hlt), List.getElem?_set_ne hij, hw]
  | @handle a _ _ _ _ _ ha _ _ =>
    refine .inl ⟨?_, by rw [List.getElem?_append_left hlt, hw]⟩
    cases a with
    | work j ev => exact absurd rfl (ha j ev)
    | _ => rfl

/-- While its connects are refused, a worker of a dropped pool only goes round its
loop: every fourth of its steps is a connect. -/
theorem refused_goes_round {tr : List (ClientPool K T × Act T A D)} (h : Run (step ops) s tr s')
    (hd : Dropped s) (hw : s.workers[i]? = some w) (htop : w.pc = .top)
    (hrefused : ∀ p ∈ tr, ∀ d, p.2 ≠ .work i (.connected d)) :
    Dropped s' ∧ ∃ w' n, s'.workers[i]? = some w' ∧ w'.pc.toTop = some n ∧
      4 * w'.attempts = 4 * w.attempts + tr.countP (fun p => works i p.2) + n := by
  induction h with
  | nil => exact ⟨hd, w, 0, hw, by rw [htop]; rfl, by simp⟩
  | @snoc tr s₁ a s₂ _ hs ih =>
    rw [List.forall_mem_append] at hrefused
    obtain ⟨hd₁, w₁, n, hw₁, hn, hcount⟩ := ih hrefused.1
    have hstep := step_cases hs
    refine ⟨hd₁.step hstep, ?_⟩
    rw [List.countP_append, List.countP_singleton]
    rcases hstep.worker hw₁ with ⟨ha, hw₂⟩ | ⟨ev, inner, w₂, spawned, rfl, hm, hw₂⟩
    · exact ⟨w₁, n, hw₂, hn, by simpa [ha] using hcount⟩
    · have hev : ∀ d, ev ≠ .connected d := by
        rintro d rfl
        exact hrefused.2 _ (List.mem_singleton_self _) d rfl
      obtain ⟨n', hn', hmove⟩ := hm.toTop hn hd₁.2 hev
      have hwork : works i (.work i ev : Act T A D) = true := decide_eq_true rfl
      exact ⟨w₂, n', hw₂, hn', by rw [if_pos hwork]; omega⟩

theorem step_work {ev : WorkerEv A D} {inner : ClientPoolInner T} {w' : Worker K T}
    (hw : s.workers[i]? = some w) (hr : w.run ops s.inner ev = some (inner, w', [])) :
    ∃ s', step ops s (.work i ev) = some s' ∧ s'.inner = inner ∧ s'.workers[i]? = some w' := by
  have hlt : i < s.workers.length := (List.getElem?_eq_some_iff.1 hw).1
  refine ⟨⟨inner, s.workers.set i w' ++ []⟩, ?_, rfl, ?_⟩
  · simp only [step, hw, hr, Option.bind_eq_bind, Option.bind_some]
  · rw [List.append_nil, List.getElem?_set_self hlt]

/-- One round: the connect is refused, and the worker is back at the top. -/
theorem refused_once (ops : StreamOps K T A D) (hd : Dropped s) (hw : s.workers[i]? = some w)
    (htop : w.pc = .top) :
    ∃ tr s', Run (step ops) s tr s' ∧ (∀ p ∈ tr, ∀ d, p.2 ≠ .work i (.connected d)) ∧ Dropped s' ∧
      ∃ w', s'.workers[i]? = some w' ∧ w'.pc = .top ∧ w'.attempts = w.attempts + 1 := by
  have hrun : w.run ops s.inner .next =
      some (s.inner, { w with pc := .connecting, attempts := w.attempts + 1 }, []) := by
    simp only [Worker.run, htop]
  obtain ⟨s₁, h₁, hi₁, hw₁⟩ := step_work hw hrun
  have hrefused :
      Worker.run ops s₁.inner ⟨w.worker_id, .connecting, w.stream, w.attempts + 1⟩ .refused =
      some (s₁.inner.set_err, ⟨w.worker_id, .cleanup true, w.stream, w.attempts + 1⟩, []) := rfl
  obtain ⟨s₂, h₂, hi₂, hw₂⟩ := step_work hw₁ hrefused
  have hrx : s₂.inner.rx = [] := by rw [hi₂, hi₁]; exact hd.2
  have hclean :
      Worker.run ops s₂.inner ⟨w.worker_id, .cleanup true, w.stream, w.attempts + 1⟩ .next =
      some (s₂.inner, ⟨w.worker_id, .backoff, w.stream, w.attempts + 1⟩, []) := by
    simp only [Worker.run, hrx]
    rfl
  obtain ⟨s₃, h₃, hi₃, hw₃⟩ := step_work hw₂ hclean
  have hslept : Worker.run ops s₃.inner ⟨w.worker_id, .backoff, w.stream, w.attempts + 1⟩ .timer =
      some (s₃.inner, ⟨w.worker_id, .top, w.stream, w.attempts + 1⟩, []) := rfl
  obtain ⟨s₄, h₄, hi₄, hw₄⟩ := step_work hw₃ hslept
  have hnil : follow (step ops) s₄ [] = some ([], s₄) := rfl
  have hfollow := follow_cons h₁ (follow_cons h₂ (follow_cons h₃ (follow_cons h₄ hnil)))
  refine ⟨_, s₄, .of_follow hfollow, ?_, ?_, _, hw₄, rfl, rfl⟩
  · simp
  · rw [Dropped, hi₄, hi₃, hi₂, hi₁]
    exact hd

theorem refused_rounds (ops : StreamOps K T A D) (hd : Dropped s) (hw : s.workers[i]? = some w)
    (htop : w.pc = .top) (n : Nat) :
    ∃ tr s', Run (step ops) s tr s' ∧ (∀ p ∈ tr, ∀ d, p.2 ≠ .work i (.connected d)) ∧ Dropped s' ∧
      ∃ w', s'.workers[i]? = some w' ∧ w'.pc = .top ∧ w'.attempts = w.attempts + n := by
  induction n with
  | zero => exact ⟨[], s, .nil, by simp, hd, w, hw, htop, rfl⟩
  | succ n ih =>
    obtain ⟨tr, s₁, h₁, hr₁, hd₁, w₁, hw₁, htop₁, ha₁⟩ := ih
    obtain ⟨tr', s₂, h₂, hr₂, hd₂, w₂, hw₂, htop₂, ha₂⟩ := refused_once ops hd₁ hw₁ htop₁
    refine ⟨tr ++ tr', s₂, h₁.trans h₂, ?_, hd₂, w₂, hw₂, htop₂, by omega⟩
    rw [List.forall_mem_append]
    exact ⟨hr₁, hr₂⟩

/-- Worker `i` makes no further connect. -/
def Stops (ops : StreamOps K T A D) (s : ClientPool K T) (i : Nat) : Prop :=
  ∀ tr s', Run (step ops) s tr s' →
    s'.workers[i]?.map Worker.attempts = s.workers[i]?.map Worker.attempts

/-- A worker at the top of its loop never stops for the pool being dropped and the
channel empty. While its connects are refused it does not return, every fourth of
its steps is a further connect, and it makes any number of them. -/
theorem dropped_pool_reconnects (ops : StreamOps K T A D) {s : ClientPool K T} {i : Nat}
    {w : Worker K T} (hd : Dropped s) (hw : s.workers[i]? = some w) (htop : w.pc = .top) :
    ¬ Stops ops s i ∧
    (∀ tr s', Run (step ops) s tr s' → (∀ p ∈ tr, ∀ d, p.2 ≠ .work i (.connected d)) →
      ∃ w', s'.workers[i]? = some w' ∧ w'.pc ≠ .returned ∧ w'.pc ≠ .exited ∧
        4 * w.attempts + tr.countP (fun p => works i p.2) ≤ 4 * w'.attempts) ∧
    ∀ n, ∃ tr s' w', Run (step ops) s tr s' ∧ (∀ p ∈ tr, ∀ d, p.2 ≠ .work i (.connected d)) ∧
      s'.workers[i]? = some w' ∧ w'.attempts = w.attempts + n := by
  refine ⟨?_, ?_, ?_⟩
  · intro hstops
    obtain ⟨tr, s', h, -, -, w', hw', -, ha⟩ := refused_rounds ops hd hw htop 1
    have hsame := hstops tr s' h
    rw [hw, hw'] at hsame
    have := Option.some.inj hsame
    omega
  · intro tr s' h hrefused
    obtain ⟨-, w', n, hw', hn, hcount⟩ := refused_goes_round h hd hw htop hrefused
    refine ⟨w', hw', ?_, ?_, by omega⟩
    · intro hpc
      rw [hpc] at hn
      cases hn
    · intro hpc
      rw [hpc] at hn
      cases hn
  · intro n
    obtain ⟨tr, s', h, hr, -, w', hw', -, ha⟩ := refused_rounds ops hd hw htop n
    exact ⟨tr, s', w', h, hr, hw', ha⟩

/-- The only handle is dropped before the worker has connected. -/
theorem dropped_pool_reconnects_new : ∃ tr s, Run (step sampleOps) (new 0 1) tr s ∧ Dropped s ∧
    ¬ Stops sampleOps s 0 := by
  obtain ⟨tr, s, h, hd, hw⟩ : ∃ tr s, follow (step sampleOps) (new 0 1) [.drop] = some (tr, s) ∧
      (s.inner.handles = 0 ∧ s.inner.rx = []) ∧
      s.workers[0]? = some (.new 0) := ⟨_, _, rfl, ⟨rfl, rfl⟩, rfl⟩
  exact ⟨tr, s, .of_follow h, hd, (dropped_pool_reconnects sampleOps hd hw rfl).1⟩

/-- The server is down; after the first refused connect the pool is dropped, and the
worker connects again. -/
theorem dropped_pool_does_not_stop :
    ∃ tr s tr' s' w w', Run (step sampleOps) (new 0 1) tr s ∧ Dropped s ∧
    s.workers[0]? = some w ∧ w.pc = .top ∧ Run (step sampleOps) s tr' s' ∧
    s'.workers[0]? = some w' ∧
    w'.attempts = w.attempts + 1 ∧ w'.pc = .top ∧ ¬ Stops sampleOps s 0 := by
  obtain ⟨tr, s, tr', s', h, hd, hw, h', hw'⟩ : ∃ tr s tr' s',
      follow (step sampleOps) (new 0 1) (sampleRefused ++ [.drop]) = some (tr, s) ∧
      (s.inner.handles = 0 ∧ s.inner.rx = []) ∧ s.workers[0]? = some ⟨0, .top, none, 1⟩ ∧
      follow (step sampleOps) s sampleRefused = some (tr', s') ∧
      s'.workers[0]? = some ⟨0, .top, none, 2⟩ :=
    ⟨_, _, _, _, rfl, ⟨rfl, rfl⟩, rfl, rfl, rfl⟩
  refine ⟨tr, s, tr', s', _, _, .of_follow h, hd, hw, rfl, .of_follow h', hw', rfl, rfl, ?_⟩
  intro hstops
  have hsame := hstops tr' s' (.of_follow h')
  rw [hw, hw'] at hsame
  cases hsame

end OccamsRpc.ClientPool
