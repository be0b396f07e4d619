import Mathlib.Data.List.Count
import OccamsRpc.Client.Pool
/-!
# Where a task given to a pool is

A task given to a `ClientPool` waits in the channel, which the workers share. Whoever
takes it from there gives it to its stream with `send_task`, or fails it in `cleanup`;
the monitor holds it for a moment in between. What the stream does with it is in
`Conn`.
-/
open Lib

namespace OccamsRpc

namespace Worker

variable {K T A D : Type}

/-- What a step takes from the channel. -/
def takes (p : ClientPoolInner T) (w : Worker K T) (ev : WorkerEv A D) : List T :=
  match w.pc, ev with
  | .recv_with_timer, .next | .recv, .next | .try_recv, .next | .cleanup _, .next => p.rx.take 1
  | _, _ => []

/-- What a step gives to the stream with `send_task`. -/
def hands (p : ClientPoolInner T) (w : Worker K T) (ev : WorkerEv A D) : List T :=
  match w.pc, ev with
  | .got t, .next => [t]
  | .recv, .next | .try_recv, .next => p.rx.take 1
  | _, _ => []

/-- What a step of `cleanup` fails. -/
def cleans (p : ClientPoolInner T) (w : Worker K T) (ev : WorkerEv A D) : List T :=
  match w.pc, ev with
  | .cleanup _, .next => p.rx.take 1
  | _, _ => []

/-- The task the monitor has taken and not yet sent. -/
def held (w : Worker K T) : List T :=
  match w.pc with
  | .got t => [t]
  | _ => []

/-- A step as the tasks see it. -/
structure Passes (ops : StreamOps K T A D) (p p' : ClientPoolInner T) (w w' : Worker K T)
    (ev : WorkerEv A D) (spawned : List (Worker K T)) : Prop where
  channel : p.rx = w.takes p ev ++ p'.rx
  failed : p'.failed = p.failed ++ w.cleans p ev
  kept : w.held ++ w.takes p ev = w.hands p ev ++ w.cleans p ev ++ w'.held
  /-- What is given to the stream is what `send_task` is called with. -/
  sends : ∀ t ∈ w.hands p ev, ∃ k k' need_flush, w.stream = some k ∧
    ops.call k (.send_task t need_flush) = some k' ∧
    w'.stream = some k'
  spawned : ∀ v ∈ spawned, v = .new 0

variable {ops : StreamOps K T A D} {p p' : ClientPoolInner T} {w w' : Worker K T}
  {spawned : List (Worker K T)}
  {ev : WorkerEv A D}

/-- A step that has nothing to do with any task. -/
theorem Passes.idle (hrx : p'.rx = p.rx) (hfailed : p'.failed = p.failed) (ht : w.takes p ev = [])
    (hh : w.hands p ev = []) (hc : w.cleans p ev = []) (hw : w.held = w'.held)
    (hs : ∀ v ∈ spawned, v = .new 0) : Passes ops p p' w w' ev spawned where
  channel := by rw [ht, hrx, List.nil_append]
  failed := by rw [hc, hfailed, List.append_nil]
  kept := by rw [ht, hh, hc, hw, List.append_nil, List.nil_append, List.nil_append]
  sends := by rw [hh]; nofun
  spawned := hs

/-- A step at `pc` that has nothing to do with any task, and comes to a place where none is held. -/
theorem Passes.elsewhere {pc : WorkerPc T} (hpc : w.pc = pc) (hrx : p'.rx = p.rx)
    (hfailed : p'.failed = p.failed) (hne : ∀ t, pc ≠ .got t) (hw' : w'.held = [])
    (hev : ev ≠ .next ∨ p.rx = []) : Passes ops p p' w w' ev [] := by
  have htake : p.rx = [] → p.rx.take 1 = [] := fun h => by rw [h]; rfl
  subst hpc
  refine .idle hrx hfailed ?_ ?_ ?_ ?_ nofun
  · unfold takes
    split <;> simp_all
  · unfold hands
    split <;> simp_all
  · unfold cleans
    split <;> simp_all
  · rw [hw', held]
    split <;> simp_all

theorem sends_one {t : T} {k k' : K} {need_flush : Bool} (hh : w.hands p ev = [t])
    (hk : w.stream = some k) (hk' : ops.call k (.send_task t need_flush) = some k')
    (hw' : w'.stream = some k') :
    ∀ t ∈ w.hands p ev, ∃ k k' need_flush, w.stream = some k ∧
      ops.call k (.send_task t need_flush) = some k' ∧
      w'.stream = some k' := by
  rw [hh, List.forall_mem_singleton]
  exact ⟨k, k', need_flush, hk, hk', hw'⟩

/-- A worker takes a task from the channel and gives it to its stream. -/
theorem Passes.send_batch {t : T} {rx : List T} (hpc : w.pc = .recv ∨ w.pc = .try_recv)
    (hrx : p.rx = t :: rx)
    (h : (w.calls ops (.send_task t false) .send_batch).map (fun w => ({ p with rx := rx }, w, [])) =
      some (p', w', spawned)) : Passes ops p p' w w' .next spawned := by
  obtain ⟨rfl, rfl, k, k', hk, hk', rfl⟩ := calls_some h
  have htakes : w.takes p (.next : WorkerEv A D) = [t] := by
    rcases hpc with hpc | hpc <;> simp [takes, hpc, hrx]
  have hhands : w.hands p (.next : WorkerEv A D) = [t] := by
    rcases hpc with hpc | hpc <;> simp [hands, hpc, hrx]
  have hcleans : w.cleans p (.next : WorkerEv A D) = [] := by rcases hpc with hpc | hpc <;> simp [cleans, hpc]
  have hheld : w.held = [] := by rcases hpc with hpc | hpc <;> simp [held, hpc]
  exact ⟨by rw [htakes, hrx]; rfl, by rw [hcleans, List.append_nil],
    by rw [hheld, htakes, hhands, hcleans]; rfl, sends_one hhands hk hk' rfl, nofun⟩

theorem run_passes (h : w.run ops p ev = some (p', w', spawned)) :
    Passes ops p p' w w' ev spawned := by
  unfold run at h
  split at h
  case h_1 hpc | h_16 hpc | h_17 hpc =>
    cases h
    exact .idle rfl rfl (by simp [takes, hpc]) (by simp [hands, hpc]) (by simp [cleans, hpc])
      (by simp [held, goto, hpc]) nofun
  case h_2 hpc =>
    cases h
    refine .elsewhere hpc rfl rfl nofun ?_ (.inl nofun)
    by_cases hid : w.worker_id = 0 <;> simp [held, hid]
  case h_3 hpc =>
    cases h
    exact .elsewhere hpc rfl rfl nofun rfl (.inl nofun)
  case h_4 hpc =>
    cases h
    refine .idle rfl rfl (by simp [takes, hpc]) (by simp [hands, hpc]) (by simp [cleans, hpc]) ?_ nofun
    by_cases hn : p.get_workers > 1 <;> simp [held, goto, hpc, hn]
  case h_5 hpc =>
    obtain ⟨rfl, rfl, k, k', -, -, rfl⟩ := calls_some h
    exact .elsewhere hpc rfl rfl nofun rfl (.inl nofun)
  case h_6 hpc =>
    split at h
    case h_1 t rx hrx =>
      cases h
      exact ⟨by simp [takes, hpc, hrx], by simp [cleans, hpc],
        by simp [takes, hands, cleans, held, goto, hpc, hrx], by simp [hands, hpc], nofun⟩
    case h_2 hrx =>
      split at h <;> cases h
      exact .elsewhere hpc rfl rfl nofun rfl (.inr hrx)
  case h_7 hpc =>
    split at h
    · obtain ⟨rfl, rfl, k, k', -, -, rfl⟩ := calls_some h
      exact .elsewhere hpc rfl rfl nofun rfl (.inl nofun)
    · cases h
  case h_8 alone ok hpc =>
    split at h
    · cases ok <;> cases alone <;> cases h <;> exact .elsewhere hpc rfl rfl nofun rfl (.inl nofun)
    · cases h
  case h_9 t hpc =>
    split at h
    all_goals
      obtain ⟨rfl, rfl, k, k', hk, hk', rfl⟩ := calls_some h
      exact ⟨by simp [takes, hpc], by simp [cleans, hpc], by simp [takes, hands, cleans, held, hpc],
        sends_one (by simp [hands, hpc]) hk hk' rfl, by simp⟩
  case h_11 hpc =>
    split at h
    case h_1 t rx hrx => exact .send_batch (.inl hpc) hrx h
    case h_2 hrx =>
      split at h
      · obtain ⟨rfl, rfl, k, k', -, -, rfl⟩ := calls_some h
        exact .elsewhere hpc rfl rfl nofun rfl (.inr hrx)
      · cases h
  case h_13 hpc =>
    split at h
    case h_1 t rx hrx => exact .send_batch (.inr hpc) hrx h
    case h_2 hrx =>
      obtain ⟨rfl, rfl, k, k', -, -, rfl⟩ := calls_some h
      exact .elsewhere hpc rfl rfl nofun rfl (.inr hrx)
  case h_15 sleeps hpc =>
    split at h
    case h_1 t rx hrx =>
      cases h
      exact ⟨by simp [takes, hpc, hrx], by simp [cleans, hpc, hrx],
        by simp [takes, hands, cleans, held, hpc, hrx], by simp [hands, hpc], nofun⟩
    case h_2 hrx =>
      cases h
      exact .elsewhere hpc rfl rfl nofun (by cases sleeps <;> rfl) (.inr hrx)
  case h_10 ok hpc =>
    split at h
    · cases ok <;> cases h <;>
        exact .elsewhere hpc rfl rfl nofun (by simp only [goto]; split <;> rfl) (.inl nofun)
    · cases h
  case h_12 ok hpc =>
    split at h
    · cases ok <;> cases h <;> exact .elsewhere hpc rfl rfl nofun rfl (.inl nofun)
    · cases h
  case h_14 last ok hpc =>
    split at h
    · cases ok <;> cases last <;> cases h <;> exact .elsewhere hpc rfl rfl nofun rfl (.inl nofun)
    · cases h
  case h_18 =>
    split at h
    case isTrue =>
      obtain ⟨k, -, h⟩ := Option.bind_eq_some_iff.1 h
      obtain ⟨k', -, h⟩ := Option.bind_eq_some_iff.1 h
      cases h
      refine .idle rfl rfl ?_ ?_ ?_ rfl nofun
      · cases hpc : w.pc <;> simp [takes, hpc]
      · cases hpc : w.pc <;> simp [hands, hpc]
      · cases hpc : w.pc <;> simp [cleans, hpc]
    case isFalse => cases h
  case h_19 => cases h

end Worker

namespace ClientPool

variable {K T A D : Type}

/-- What the workers hold. -/
def held (s : ClientPool K T) : List T := s.workers.flatMap Worker.held

/-- The task that a call of `send_req` brings. -/
def Act.submits : Act T A D → List T
  | .send_req t => [t]
  | _ => []

/-- What a step takes from the channel, and the worker whose step it is. -/
def takes (s : ClientPool K T) : Act T A D → List (Option Nat × T)
  | .work i ev => ((s.workers[i]?.map fun w => w.takes s.inner ev).getD []).map fun t => (some i, t)
  | .drop_inner => s.inner.rx.map fun t => (none, t)
  | _ => []

/-- The tasks that a step gives to a stream, with the worker that gives them. -/
def hands (s : ClientPool K T) : Act T A D → List (Nat × T)
  | .work i ev => ((s.workers[i]?.map fun w => w.hands s.inner ev).getD []).map fun t => (i, t)
  | _ => []

/-- The tasks that were given to the pool in a run. -/
def submitted (tr : List (ClientPool K T × Act T A D)) : List T := tr.flatMap fun p => p.2.submits

/-- What was taken out of the channels in a run, in order. -/
def taken (tr : List (ClientPool K T × Act T A D)) : List (Option Nat × T) :=
  tr.flatMap fun p => p.1.takes p.2

/-- The tasks that were given to a stream with `send_task`, each with the worker whose
stream it is. -/
def handed (tr : List (ClientPool K T × Act T A D)) : List (Nat × T) :=
  tr.flatMap fun p => p.1.hands p.2

/-- What worker `i` took, and what it gave to its stream. -/
def takenBy (i : Nat) (tr : List (ClientPool K T × Act T A D)) : List T :=
  ((taken tr).filter fun p => p.1 == some i).map Prod.snd

/-- What one worker gave to its stream. -/
def handedBy (i : Nat) (tr : List (ClientPool K T × Act T A D)) : List T :=
  ((handed tr).filter fun p => p.1 == i).map Prod.snd

/-- Tasks leave the channel in the order in which they came into it; each that left it is
with a stream, failed or held by a worker; and no worker changes their order. -/
structure Custody (tr : List (ClientPool K T × Act T A D)) (s : ClientPool K T) : Prop where
  fifo : submitted tr = (taken tr).map Prod.snd ++ s.inner.rx
  places : ((taken tr).map Prod.snd).Perm ((handed tr).map Prod.snd ++ s.inner.failed ++ s.held)
  order : ∀ i, (handedBy i tr ++ (s.workers[i]?.map Worker.held).getD []).Sublist (takenBy i tr)

variable {ops : StreamOps K T A D} {s s' : ClientPool K T} {a : Act T A D}
  {tr : List (ClientPool K T × Act T A D)}

theorem new_custody (thresholds channel_size : Nat) :
    Custody ([] : List (ClientPool K T × Act T A D)) (new thresholds channel_size) where
  fifo := rfl
  places := .refl _
  order i := by
    cases i with
    | zero => exact .refl _
    | succ i => exact .refl _

theorem submitted_snoc (tr : List (ClientPool K T × Act T A D)) (s : ClientPool K T)
    (a : Act T A D) :
    submitted (tr ++ [(s, a)]) = submitted tr ++ a.submits := by
  simp [submitted]

theorem taken_snoc (tr : List (ClientPool K T × Act T A D)) (s : ClientPool K T) (a : Act T A D) :
    taken (tr ++ [(s, a)]) = taken tr ++ s.takes a := by
  simp [taken]

theorem handed_snoc (tr : List (ClientPool K T × Act T A D)) (s : ClientPool K T) (a : Act T A D) :
    handed (tr ++ [(s, a)]) = handed tr ++ s.hands a := by
  simp [handed]

theorem snd_tagged {β : Type} (b : β) (l : List T) : (l.map fun t => (b, t)).map Prod.snd = l := by
  simp [Function.comp_def]

theorem filter_tagged {β : Type} [BEq β] (b c : β) (l : List T) :
    ((l.map fun t => (b, t)).filter fun p => p.1 == c).map Prod.snd = if b == c then l else [] := by
  cases hbc : b == c <;> simp [List.filter_map, Function.comp_def, hbc]

/-- New workers hold nothing. -/
theorem held_append {ws spawned : List (Worker K T)} (hs : ∀ v ∈ spawned, v.held = []) (i : Nat) :
    ((ws ++ spawned)[i]?.map Worker.held).getD [] = (ws[i]?.map Worker.held).getD [] := by
  rcases Nat.lt_or_ge i ws.length with hlt | hge
  · rw [List.getElem?_append_left hlt]
  · rw [List.getElem?_append_right hge, List.getElem?_eq_none hge]
    cases hv : spawned[i - ws.length]? with
    | none => rfl
    | some v => exact hs v (List.mem_of_getElem? hv)

theorem flatMap_held_nil {ws : List (Worker K T)} (hs : ∀ v ∈ ws, v.held = []) :
    ws.flatMap Worker.held = [] :=
  List.flatMap_eq_nil_iff.2 hs

/-- A step that no worker takes. -/
theorem Custody.outside (h : Custody tr s) (hhands : s.hands a = []) {inner : ClientPoolInner T}
    (spawned : List (Worker K T))
    (hrx : s.inner.rx ++ a.submits = (s.takes a).map Prod.snd ++ inner.rx)
    (hfailed : inner.failed = s.inner.failed ++ (s.takes a).map Prod.snd)
    (hs : ∀ v ∈ spawned, v.held = []) :
    Custody (tr ++ [(s, a)]) ⟨inner, s.workers ++ spawned⟩ where
  fifo := by
    rw [submitted_snoc, taken_snoc, h.fifo, List.map_append, List.append_assoc, List.append_assoc,
      hrx]
  places := by
    have hheld : held ⟨inner, s.workers ++ spawned⟩ = s.held := by
      rw [held, List.flatMap_append, flatMap_held_nil hs, List.append_nil]
      rfl
    rw [handed_snoc, taken_snoc, hhands, hheld, hfailed, List.append_nil, List.map_append,
      ← List.append_assoc, List.append_assoc _ _ s.held]
    refine (h.places.append_right _).trans ?_
    rw [List.append_assoc]
    exact List.perm_append_comm.append_left _
  order i := by
    simp only [handedBy, handed_snoc, hhands, List.append_nil, held_append hs]
    refine (h.order i).trans ?_
    simp only [takenBy, taken_snoc, List.filter_append, List.map_append]
    exact List.sublist_append_left _ _

theorem Custody.work (h : Custody tr s) {i : Nat} {ev : WorkerEv A D} {w w' : Worker K T}
    {inner : ClientPoolInner T} {spawned : List (Worker K T)} (hw : s.workers[i]? = some w)
    (hp : Worker.Passes ops s.inner inner w w' ev spawned) :
    Custody (tr ++ [(s, .work i ev)]) ⟨inner, s.workers.set i w' ++ spawned⟩ := by
  have htakes :
      s.takes (.work i ev : Act T A D) = (w.takes s.inner ev).map fun t => (some i, t) := by
    simp only [takes, hw, Option.map_some, Option.getD_some]
  have hhands : s.hands (.work i ev : Act T A D) = (w.hands s.inner ev).map fun t => (i, t) := by
    simp only [hands, hw, Option.map_some, Option.getD_some]
  have hspawned : ∀ v ∈ spawned, v.held = [] := fun v hv => by rw [hp.spawned v hv]; rfl
  obtain ⟨hlt, hget⟩ := List.getElem?_eq_some_iff.1 hw
  refine ⟨?_, ?_, fun j => ?_⟩
  · rw [submitted_snoc, taken_snoc, htakes, List.map_append, snd_tagged, h.fifo, hp.channel,
    ← List.append_assoc]
    exact List.append_nil _
  · -- the tasks of this worker go from place to place, those of the others stay
    obtain ⟨pre, post, hws, -, hset⟩ := @List.exists_of_set _ i w' s.workers hlt
    rw [hget] at hws
    have hheld : s.held = pre.flatMap Worker.held ++ (w.held ++ post.flatMap Worker.held) := by
      rw [held, hws, List.flatMap_append, List.flatMap_cons]
    have hheld' : held ⟨inner, s.workers.set i w' ++ spawned⟩ =
        pre.flatMap Worker.held ++ (w'.held ++ post.flatMap Worker.held) := by
      rw [held, List.flatMap_append, flatMap_held_nil hspawned, List.append_nil, hset, List.flatMap_append,
        List.flatMap_cons]
    classical
    rw [taken_snoc, handed_snoc, htakes, hhands, List.map_append, List.map_append, snd_tagged,
      snd_tagged, hp.failed, hheld', List.perm_iff_count]
    intro t
    have hplaces := h.places.count_eq t
    have hkept := congrArg (List.count t) hp.kept
    rw [hheld] at hplaces
    simp only [List.count_append] at hplaces hkept ⊢
    omega
  · simp only [handedBy, takenBy, handed_snoc, taken_snoc, htakes, hhands, held_append hspawned,
      List.filter_append, List.map_append, filter_tagged]
    have horder := h.order j
    by_cases hj : i = j
    · subst hj
      simp only [BEq.rfl, if_true, List.getElem?_set_self hlt, Option.map_some, Option.getD_some,
        hw] at horder ⊢
      have hstep := horder.append_right (w.takes s.inner ev)
      rw [List.append_assoc, hp.kept] at hstep
      refine List.Sublist.trans ?_ hstep
      rw [List.append_assoc, List.append_assoc]
      exact ((List.sublist_append_right _ _).append_left _).append_left _
    · have hne : (i == j) = false := beq_false_of_ne hj
      have hne' : (some i == some j) = false := beq_false_of_ne (by simpa using hj)
      simp only [hne, hne', Bool.false_eq_true, if_false, List.getElem?_set_ne hj, List.append_nil]
      exact horder

theorem Custody.step (h : Custody tr s) (hs : step ops s a = some s') :
    Custody (tr ++ [(s, a)]) s' := by
  have hnil (q : ClientPoolInner T) : (⟨q, s.workers⟩ : ClientPool K T) = ⟨q, s.workers ++ []⟩ := by
    rw [List.append_nil]
  cases a with
  | work i ev =>
    obtain ⟨w, hw, hs⟩ := Option.bind_eq_some_iff.1 hs
    obtain ⟨⟨inner, w', spawned⟩, hr, hs⟩ := Option.bind_eq_some_iff.1 hs
    cases hs
    exact h.work hw (Worker.run_passes hr)
  | send_req t =>
    obtain ⟨-, ⟨⟩⟩ := Option.ite_none_right_eq_some.1 hs
    rw [hnil]
    exact h.outside rfl [] rfl (List.append_nil _).symm nofun
  | clone | drop =>
    obtain ⟨-, ⟨⟩⟩ := Option.ite_none_right_eq_some.1 hs
    rw [hnil]
    exact h.outside rfl [] (List.append_nil _) (List.append_nil _).symm nofun
  | spawn =>
    obtain ⟨-, ⟨⟩⟩ := Option.ite_none_right_eq_some.1 hs
    refine h.outside rfl [_] (List.append_nil _) (List.append_nil _).symm fun v hv => ?_
    rw [List.mem_singleton.1 hv]
    rfl
  | drop_inner =>
    obtain ⟨-, ⟨⟩⟩ := Option.ite_none_right_eq_some.1 hs
    rw [hnil]
    refine h.outside rfl [] ?_ ?_ nofun
    · simp only [takes, snd_tagged]
      rfl
    · simp only [takes, snd_tagged]

theorem custody (ops : StreamOps K T A D) (thresholds channel_size : Nat)
    (h : Run (ClientPool.step ops) (new thresholds channel_size) tr s) : Custody tr s := by
  induction h with
  | nil => exact new_custody thresholds channel_size
  | snoc _ hs ih => exact ih.step hs

/-- At every moment each task that was given to the pool is at one place: it was handed to
the stream of one worker, or failed, or a worker holds it, or it is in the channel. Each
worker hands them over in the order in which they came; and when `ClientPoolInner` is
dropped, each was handed over or failed. -/
theorem submitted_at_one_place (ops : StreamOps K T A D) (thresholds channel_size : Nat)
    (h : Run (ClientPool.step ops) (new thresholds channel_size) tr s) :
    (submitted tr).Perm ((handed tr).map Prod.snd ++ s.inner.failed ++ s.held ++ s.inner.rx) ∧
      (∀ i, (handedBy i tr).Sublist (submitted tr)) ∧
      ∀ s', ClientPool.step ops s .drop_inner = some s' →
        (submitted tr).Perm ((handed tr).map Prod.snd ++ s'.inner.failed) := by
  have hc := custody ops thresholds channel_size h
  have hplaces :
      (submitted tr).Perm ((handed tr).map Prod.snd ++ s.inner.failed ++ s.held ++ s.inner.rx) := by
    rw [hc.fifo]
    exact hc.places.append_right _
  refine ⟨hplaces, fun i => ?_, fun s' hs' => ?_⟩
  · rw [hc.fifo]
    refine List.Sublist.trans ?_ (List.sublist_append_left _ _)
    refine ((List.sublist_append_left _ _).trans (hc.order i)).trans ?_
    exact List.filter_sublist.map _
  · obtain ⟨⟨-, hexited⟩, ⟨⟩⟩ := Option.ite_none_right_eq_some.1 hs'
    have hheld : s.held = [] := by
      refine flatMap_held_nil fun w hw => ?_
      have he := hexited w hw
      unfold Worker.held
      split
      · rename_i hpc
        simp [hpc] at he
      · rfl
    rw [hheld, List.append_nil, List.append_assoc] at hplaces
    exact hplaces

/-- The monitor sends two tasks; the second send fails, and with it the task that waits. -/
def sampleTasks : List (Act Nat Unit Unit) :=
  [.work 0 .next, .work 0 (.connected ()), .send_req 1, .work 0 .next, .work 0 .next, .work 0 .next,
    .work 0 (.done true),
    .send_req 2, .send_req 3, .work 0 .next, .work 0 .next, .work 0 .next, .work 0 (.done false),
    .work 0 .next]

theorem submitted_at_one_place_sample :
    let ops : StreamOps Unit Nat Unit Unit :=
      ⟨id, fun k _ => some k, fun _ _ => none, fun _ _ => true, fun _ => 0⟩
    ∃ tr s, Run (ClientPool.step ops) (new 0 2) tr s ∧ handed tr = [(0, 1), (0, 2)] ∧
      s.inner.failed = [3] ∧
      (submitted tr).Perm [1, 2, 3] ∧ (handedBy 0 tr).Sublist (submitted tr) := by
  intro ops
  have hrun : (follow (ClientPool.step ops) (new 0 2) sampleTasks).map (fun r =>
      (handed r.1, r.2.inner.failed, r.2.held, r.2.inner.rx)) =
        some ([(0, 1), (0, 2)], [3], [], []) := by decide +kernel
  obtain ⟨⟨tr, s⟩, hf, hs⟩ := Option.map_eq_some_iff.1 hrun
  simp only [Prod.mk.injEq] at hs
  obtain ⟨hhanded, hfailed, hheld, hrx⟩ := hs
  obtain ⟨hplaces, horder, -⟩ := submitted_at_one_place ops 0 2 (.of_follow hf)
  rw [hhanded, hfailed, hheld, hrx] at hplaces
  exact ⟨tr, s, .of_follow hf, hhanded, hfailed, hplaces, horder 0⟩

end ClientPool

end OccamsRpc
