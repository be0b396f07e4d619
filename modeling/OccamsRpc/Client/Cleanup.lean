import OccamsRpc.Client.Monitor
/-!
# Who empties the channel

`cleanup` fails every task in the channel, which the workers share. The monitor
calls it when a ping or a send fails while it is the only worker; any worker calls
it when its connect is refused, whoever else is there.
-/
open Lib

namespace OccamsRpc

namespace Worker

variable {K T A D : Type}

/-- The worker goes by its being the only one: it is taking tasks as the monitor, or
emptying the channel. -/
def alone (w : Worker K T) : Bool :=
  match w.pc with
  | .recv_with_timer | .ping true | .got _ | .cleanup _ => true
  | .send => w.worker_id == 0
  | _ => false

theorem alone_of_cleanup {w : Worker K T} {sleeps : Bool} (h : w.pc = .cleanup sleeps) :
    w.alone = true := by
  rw [alone, h]

theorem runs_of_alone {w : Worker K T} (h : w.alone = true) : w.runs = true := by
  refine runs_of_ne fun he => ?_
  rw [alone, he] at h
  cases h

variable {ops : StreamOps K T A D} {p p' : ClientPoolInner T} {w w' : Worker K T}
  {spawned : List (Worker K T)}
  {ev : WorkerEv A D}

/-- A worker comes there from there, when the count says that it is the only one, or
by a refused connect, and spawns none on the way. -/
theorem run_alone (h : w.run ops p ev = some (p', w', spawned)) (ha : w'.alone = true) :
    spawned = [] ∧ (w.alone = true ∨ p.get_workers ≤ 1 ∨ ev = .refused) := by
  unfold run at h
  split at h
  case h_1 hpc =>
    cases h
    cases ha
  case h_2 hpc =>
    cases h
    by_cases hid : w.worker_id = 0 <;> simp [alone, hid] at ha
  case h_3 hpc =>
    cases h
    exact ⟨rfl, .inr (.inr rfl)⟩
  case h_4 hpc =>
    cases h
    by_cases hn : p.get_workers > 1
    · simp [alone, goto, hn] at ha
    · exact ⟨rfl, .inr (.inl (Nat.le_of_not_lt hn))⟩
  case h_5 hpc =>
    obtain ⟨rfl, rfl, k, k', -, -, rfl⟩ := calls_some h
    cases ha
  case h_6 hpc =>
    have hold : w.alone = true := by rw [alone, hpc]
    split at h
    · cases h
      exact ⟨rfl, .inl hold⟩
    · split at h <;> cases h
      exact ⟨rfl, .inl hold⟩
  case h_7 hpc =>
    split at h
    · obtain ⟨rfl, rfl, k, k', -, -, rfl⟩ := calls_some h
      exact ⟨rfl, .inl (by rw [alone, hpc])⟩
    · cases h
  case h_8 al ok hpc =>
    split at h
    · cases ok <;> cases al <;> cases h
      · cases ha
      · exact ⟨rfl, .inl (by rw [alone, hpc])⟩
      · cases ha
      · cases ha
    · cases h
  case h_9 t hpc =>
    split at h
    · -- it hands the monitor's place over
      obtain ⟨rfl, rfl, k, k', -, -, rfl⟩ := calls_some h
      cases ha
    · obtain ⟨rfl, rfl, k, k', -, -, rfl⟩ := calls_some h
      exact ⟨rfl, .inl (by rw [alone, hpc])⟩
  case h_10 ok hpc =>
    by_cases hid : w.worker_id = 0
    · have hold : w.alone = true := by
        rw [alone, hpc, hid]
        rfl
      split at h
      · cases ok <;> cases h <;> exact ⟨rfl, .inl hold⟩
      · cases h
    · simp only [if_neg hid, if_pos (Nat.pos_of_ne_zero hid)] at h
      split at h
      · cases ok <;> cases h <;> cases ha
      · cases h
  case h_11 hpc =>
    split at h
    · obtain ⟨rfl, rfl, k, k', -, -, rfl⟩ := calls_some h
      cases ha
    · split at h
      · obtain ⟨rfl, rfl, k, k', -, -, rfl⟩ := calls_some h
        cases ha
      · cases h
  case h_12 ok hpc =>
    split at h
    · cases ok <;> cases h <;> cases ha
    · cases h
  case h_13 hpc =>
    split at h <;> obtain ⟨rfl, rfl, k, k', -, -, rfl⟩ := calls_some h <;> cases ha
  case h_14 last ok hpc =>
    split at h
    · cases ok <;> cases last <;> cases h <;> cases ha
    · cases h
  case h_15 sleeps hpc =>
    split at h <;> cases h <;> exact ⟨rfl, .inl (by rw [alone, hpc])⟩
  case h_16 hpc =>
    cases h
    cases ha
  case h_17 hpc =>
    cases h
    cases ha
  case h_18 =>
    split at h
    case isTrue =>
      obtain ⟨k, -, h⟩ := Option.bind_eq_some_iff.1 h
      obtain ⟨k', -, h⟩ := Option.bind_eq_some_iff.1 h
      cases h
      exact ⟨rfl, .inl ha⟩
    case isFalse => cases h
  case h_19 => cases h

end Worker

namespace ClientPool

variable {K T A D : Type} {ops : StreamOps K T A D} {s s' : ClientPool K T} {a : Act T A D}

/-- A worker empties the channel only when no other is live. -/
def CleansAlone (s : ClientPool K T) : Prop :=
  ∀ (i : Nat) w sleeps, s.workers[i]? = some w → w.pc = .cleanup sleeps →
    s.inner.get_workers ≤ 1 ∧ ∀ (j : Nat) v, s.workers[j]? = some v → v.runs = true → j = i

/-- No connect is refused while there are other workers, and no worker is spawned
while one goes by its being the only one. -/
def undisturbed (s : ClientPool K T) : Act T A D → Prop
  | .work _ .refused => s.inner.get_workers ≤ 1
  | .spawn => ∀ w ∈ s.workers, w.alone = false
  | _ => True

instance (s : ClientPool K T) : (a : Act T A D) → Decidable (s.undisturbed a)
  | .work _ .refused => inferInstanceAs (Decidable (_ ≤ _))
  | .spawn => inferInstanceAs (Decidable (∀ w ∈ s.workers, w.alone = false))
  | .work _ .next | .work _ (.connected _) | .work _ .timer | .work _ (.stream _) | .work _
    (.done _) | .send_req _
  | .clone | .drop | .drop_inner => isTrue trivial

/-- A worker that goes by its being the only one is. -/
def Alone (s : ClientPool K T) : Prop := ∀ w ∈ s.workers, w.alone = true → s.inner.worker_count ≤ 1

/-- When one worker runs, no other does. -/
theorem eq_of_count_one {ws : List (Worker K T)} {i j : Nat} {w v : Worker K T}
    (hw : ws[i]? = some w) (hr : w.runs = true) (hv : ws[j]? = some v) (hr' : v.runs = true)
    (hcount : ws.countP Worker.runs ≤ 1) : j = i := by
  by_contra hne
  have h := countP_set hw (w.goto .exited) Worker.runs
  have hexit : (w.goto .exited).runs = false := rfl
  simp only [hr, hexit, Bool.false_eq_true, if_true, if_false] at h
  have hpos : 0 < (ws.set i (w.goto .exited)).countP Worker.runs := by
    refine List.countP_pos_iff.2 ⟨v, List.mem_of_getElem? (i := j) ?_, hr'⟩
    rw [List.getElem?_set_ne (Ne.symm hne)]
    exact hv
  omega

theorem Alone.work (h : s.Alone) (hs : s.Staffed) {i : Nat} {w w' : Worker K T} {ev : WorkerEv A D}
    {inner : ClientPoolInner T} {spawned : List (Worker K T)} (hw : s.workers[i]? = some w)
    (ha : ev = .refused → s.inner.get_workers ≤ 1)
    (hr : w.run ops s.inner ev = some (inner, w', spawned)) :
    Alone ⟨inner, s.workers.set i w' ++ spawned⟩ := by
  have hnew : ∀ v ∈ spawned, v.alone = false := by
    intro v hv
    rw [(Worker.run_cases hr).spawned_new v hv]
    rfl
  have hme : w'.alone = true → s.inner.worker_count ≤ 1 := by
    intro ha'
    rcases (Worker.run_alone hr ha').2 with hold | hle | hev
    · exact h w (List.mem_of_getElem? hw) hold
    · exact hle
    · exact ha hev
  intro v hv hva
  rcases List.mem_append.1 hv with hset | hspawned
  case inr =>
    rw [hnew v hspawned] at hva
    cases hva
  -- this worker, or one of the others
  have hcases : v = w' ∨ ∃ j, j ≠ i ∧ s.workers[j]? = some v := by
    obtain ⟨j, hj⟩ := List.mem_iff_getElem?.1 hset
    by_cases hij : i = j
    · subst hij
      rw [List.getElem?_set_self (List.getElem?_eq_some_iff.1 hw).1] at hj
      exact .inl (Option.some.inj hj).symm
    · rw [List.getElem?_set_ne hij] at hj
      exact .inr ⟨j, Ne.symm hij, hj⟩
  show inner.worker_count ≤ 1
  cases Worker.run_turn hr with
  | stays hcount _ _ _ _ _ =>
    rw [hcount]
    rcases hcases with rfl | ⟨j, -, hj⟩
    · exact hme hva
    · exact h v (List.mem_of_getElem? hj) hva
  | promotes hcount _ _ hruns _ =>
    rcases hcases with rfl | ⟨j, hji, hj⟩
    · cases (Worker.run_alone hr hva).1
    · -- it was the only one
      have hone : s.workers.countP Worker.runs ≤ 1 := by
        have : s.inner.worker_count = s.workers.countP Worker.runs := hs.count
        omega
      exact absurd (eq_of_count_one hw hruns hj (Worker.runs_of_alone hva) hone) hji
  | ends hcount _ =>
    rcases hcases with rfl | ⟨j, -, hj⟩
    · cases hva
    · have := h v (List.mem_of_getElem? hj) hva
      omega

theorem Alone.step (h : s.Alone) (hs : s.Staffed) (ha : s.undisturbed a)
    (hstep : step ops s a = some s') : s'.Alone := by
  cases a with
  | work i ev =>
    obtain ⟨w, hw, hstep⟩ := Option.bind_eq_some_iff.1 hstep
    obtain ⟨⟨inner, w', spawned⟩, hr, hstep⟩ := Option.bind_eq_some_iff.1 hstep
    cases hstep
    exact h.work hs hw (by rintro rfl; exact ha) hr
  | spawn =>
    obtain ⟨-, ⟨⟩⟩ := Option.ite_none_right_eq_some.1 hstep
    intro v hv hva
    rcases List.mem_append.1 hv with hv | hv
    · rw [ha v hv] at hva
      cases hva
    · rw [List.mem_singleton.1 hv] at hva
      cases hva
  | send_req t | clone | drop | drop_inner =>
    obtain ⟨-, ⟨⟩⟩ := Option.ite_none_right_eq_some.1 hstep
    exact h

theorem Alone.cleansAlone (h : s.Alone) (hs : s.Staffed) : s.CleansAlone := by
  intro i w sleeps hw hpc
  have halone := Worker.alone_of_cleanup hpc
  have hle : s.inner.worker_count ≤ 1 := h w (List.mem_of_getElem? hw) halone
  refine ⟨hle, fun j v hv hr => eq_of_count_one hw (Worker.runs_of_alone halone) hv hr ?_⟩
  have : s.inner.worker_count = s.workers.countP Worker.runs := hs.count
  omega

/-- In every run in which no connect is refused beside other workers and no worker is
spawned beside one that goes by its being the only one, the channel is emptied only
by a worker that no other is beside. -/
theorem cleanup_alone (ops : StreamOps K T A D) (thresholds channel_size : Nat)
    {tr : List (ClientPool K T × Act T A D)} {s : ClientPool K T}
    (hrun : Run (ClientPool.step ops) (new thresholds channel_size) tr s)
    (hok : Meets undisturbed tr) : s.CleansAlone := by
  have h0 : (new thresholds channel_size : ClientPool K T).Alone := fun _ _ _ => Nat.le_refl 1
  have h : s.Staffed ∧ s.Alone := hrun.inv_of_meets (fun s => s.Staffed ∧ s.Alone)
    ⟨new_staffed thresholds channel_size, h0⟩
    (fun _ _ _ hi ha hstep => ⟨hi.1.step hstep, hi.2.step hi.1 ha hstep⟩) hok
  exact h.2.cleansAlone h.1

/-- The only worker is refused, and fails the task in the channel. -/
def refusedAlone : List (Act Unit Unit Unit) :=
  [.send_req (), .work 0 .next, .work 0 .refused, .work 0 .next]

theorem cleanup_alone_refused :
    ∃ tr s, Run (ClientPool.step sampleOps) (new 0 1) tr s ∧ tr.map Prod.snd = refusedAlone ∧
      s.workers.map Worker.pc = [.cleanup true] ∧ s.inner.failed = [()] ∧ s.CleansAlone := by
  have hfollow : ∃ r, follow (ClientPool.step sampleOps) (new 0 1) refusedAlone = some r ∧
      r.1.map Prod.snd = refusedAlone ∧ r.2.workers.map Worker.pc = [.cleanup true] ∧
      r.2.inner.failed = [()] ∧
      (r.1.all fun p => decide (p.1.undisturbed p.2)) = true := ⟨_, rfl, rfl, rfl, rfl, rfl⟩
  obtain ⟨⟨tr, s⟩, hfollow, hacts, hpc, hfailed, hok⟩ := hfollow
  have hrun := Run.of_follow hfollow
  have hok : Meets undisturbed tr := fun p hp => of_decide_eq_true (List.all_eq_true.1 hok p hp)
  exact ⟨tr, s, hrun, hacts, hpc, hfailed, cleanup_alone sampleOps 0 1 hrun hok⟩

/-- The monitor is replaced and goes on as a worker; a task comes in, and the new
monitor's connect is refused. -/
def refusedBeside : List (Act Unit Unit Unit) :=
  [.send_req (), .work 0 .next, .work 0 (.connected ()), .work 0 .next, .work 0 .next,
    .work 0 .next, .work 0 (.done true),
    .send_req (), .work 1 .next, .work 1 .refused, .work 1 .next]

/-- The task has failed although the other worker is connected and receiving. -/
theorem monitor_fails_others_task :
    ∃ tr s, Run (ClientPool.step busyOps) (new 0 1) tr s ∧ tr.map Prod.snd = refusedBeside ∧
      s.inner.get_workers = 2 ∧ s.workers.map Worker.pc = [.recv, .cleanup true] ∧
      s.inner.failed = [()] ∧
      ¬ s.CleansAlone := by
  have hfollow : ∃ r w, follow (ClientPool.step busyOps) (new 0 1) refusedBeside = some r ∧
      r.1.map Prod.snd = refusedBeside ∧ r.2.inner.get_workers = 2 ∧
      r.2.workers.map Worker.pc = [.recv, .cleanup true] ∧ r.2.inner.failed = [()] ∧
      r.2.workers[1]? = some w ∧
      w.pc = .cleanup true := ⟨_, _, rfl, rfl, rfl, rfl, rfl, rfl, rfl⟩
  obtain ⟨⟨tr, s⟩, w, hfollow, hacts, hcount, hpcs, hfailed, hw, hpc⟩ := hfollow
  have hcount : s.inner.get_workers = 2 := hcount
  refine ⟨tr, s, Run.of_follow hfollow, hacts, hcount, hpcs, hfailed, fun h => ?_⟩
  have hle := (h 1 w true hw hpc).1
  omega

end ClientPool

end OccamsRpc
