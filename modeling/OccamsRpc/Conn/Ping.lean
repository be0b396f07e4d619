import OccamsRpc.Conn.Inv
/-!
# What the reader waits for in `take_task`

A ping draws its seq from the same counter as the tasks and is never registered.
`take_task` waits while the response's seq is above `processed_seq`, so a ping's
response that arrives before any later task is drained stops the reader.
-/
open Lib

namespace OccamsRpc.Conn

/-- The header just read is of a task whose request was written, or is not above
what has been drained; and no task's write fails. -/
def expected (s : Conn) : Act → Bool
  | .rcv (.header f) => f.seq ≤ s.timer.processed_seq || s.wrote.any fun t => t.seq = f.seq
  | .snd (.written false) => s.sender.task.isNone
  | _ => true

/-- A request that was written is registered, on its way to the channel, or still in it, so
that whatever the receiver waits for was asked. It does not sleep on a seq that is
processed. -/
structure Waiting (s : Conn) : Prop where
  wrote : ∀ t ∈ s.wrote, t.seq ≤ s.timer.processed_seq ∨ t ∈ s.timer.pending_tasks ∨
    s.sender.task = some t
  waits : ∀ f, s.receiver.waits = some f → ∃ t ∈ s.wrote, t.seq = f.seq
  asleep : ∀ f, s.receiver = .suspended (.wait f) → s.timer.processed_seq < f.seq

theorem new_waiting (thresholds task_timeout : Nat) : Waiting (new thresholds task_timeout) := by
  constructor <;> simp [new, RecvState.waits, RecvPc.waits]

/-- The call goes on with the task it has written, or had none. -/
theorem Waiting.goto {s : Conn} (hw : Waiting s) {c : SendPc}
    (h : s.sender.task = none ∨ s.sender.task = c.task) : Waiting { s with sender := c } := by
  refine { hw with wrote := ?_ }
  intro t ht
  refine (hw.wrote t ht).imp_right (Or.imp_right fun hs => ?_)
  rcases h with h | h
  · exact absurd (h.symm.trans hs) nofun
  · exact h.symm.trans hs

theorem Waiting.exec {s : Conn} (hw : Waiting s) (op : Op) : Waiting (s.exec op) := by
  cases op <;> exact { hw with }

theorem Waiting.send {s s' : Conn} {a : SendAct} (hw : Waiting s) (hok : expected s (.snd a) = true)
    (h : SendMove s a s') : Waiting s' := by
  cases h with
  | @call _ nf h => exact { hw.goto (c := .count s.next_id nf) (.inl (by rw [h]; rfl)) with }
  | @count id nf h => exact { hw.goto (c := .test id nf) (.inl (by rw [h]; rfl)) with }
  | closed h _ => exact hw.goto (.inl (by rw [h]; rfl))
  | opened h _ => exact hw.goto (.inl (by rw [h]; rfl))
  | @encode_ok id nf h =>
    refine { hw with wrote := ?_, waits := ?_ }
    · intro t ht
      rcases List.mem_append.1 ht with ht | ht
      · have := hw.wrote t ht
        rw [h] at this
        exact this.imp_right fun h' => .inl (h'.resolve_right nofun)
      · rw [List.mem_singleton] at ht
        exact .inr (.inr (by rw [ht]; rfl))
    · intro f hf
      obtain ⟨t, ht, hs⟩ := hw.waits f hf
      exact ⟨t, List.mem_append_left _ ht, hs⟩
  | @encode_err id nf h =>
    exact { hw.goto (c := .run (encode_err_ops id) false) (.inl (by rw [h]; rfl)) with }
  | write_ok h => exact hw.goto (.inr (by rw [h]; rfl))
  | write_err h =>
    simp only [expected, h, SendPc.task] at hok
    cases hok
  | @register t h _ =>
    refine { hw with wrote := ?_ }
    intro u hu
    refine (hw.wrote u hu).imp_right fun h' => .inl ?_
    rcases h' with h' | h'
    · exact List.mem_append_left _ h'
    · rw [h] at h'
      cases h'
      exact List.mem_append_right _ List.mem_cons_self
  | unthrottle h _ => exact { hw.goto (c := .idle) (.inl (by rw [h]; rfl)) with }
  | ping h => exact { hw.goto (c := .ping_write s.next_seq) (.inl (by rw [h]; rfl)) with }
  | op h =>
    exact (hw.exec _).goto (.inl (by cases ‹Op› <;> exact (by rw [h]; rfl : s.sender.task = none)))
  | other pc e h _ _ _ => exact { hw.goto (c := pc) (.inl (SendPc.free_task h)) with }

/-- The timer moves what it has drained. -/
theorem Waiting.retime {s : Conn} (hw : Waiting s) {m : ClientTaskTimer Task}
    (hp : m.pending_tasks = s.timer.pending_tasks) (hq : m.processed_seq = s.timer.processed_seq) :
    Waiting { s with timer := m } := by
  refine { hw with wrote := ?_, asleep := ?_ }
  · intro t ht
    rw [hp, hq]
    exact hw.wrote t ht
  · intro f hf
    rw [hq]
    exact hw.asleep f hf

/-- The reader waits for nothing, or for what it waited for. -/
theorem Waiting.rgoto {s : Conn} (hw : Waiting s) {r : RecvState}
    (h : r.waits = none ∨ r.waits = s.receiver.waits ∧ ∀ pc, r ≠ .suspended pc) :
    Waiting { s with receiver := r } := by
  refine { hw with waits := ?_, asleep := ?_ }
  · intro f hf
    rcases h with h | ⟨h, -⟩
    · exact absurd (h.symm.trans hf) nofun
    · exact hw.waits f (h.symm.trans hf)
  · rintro f rfl
    rcases h with h | ⟨-, h⟩
    · cases h
    · exact absurd rfl (h _)

theorem Waiting.recv {s s' : Conn} {a : RecvAct} (hn : Numbered s) (hw : Waiting s)
    (hok : expected s (.rcv a) = true) (h : RecvMove s a s') : Waiting s' := by
  cases h with
  | tick h hq =>
    obtain ⟨hp, -, hs, -⟩ := ClientTaskTimer.adjust_task_queue_keeps hq
    exact { hw.retime hp hs with }
  | pop h hr =>
    obtain ⟨t, ts, hp, hp', -, hs⟩ := ClientTaskTimer.recv_pending_drained hn.wf h
    have hgt : ∀ u ∈ s.timer.pending_tasks, s.timer.processed_seq < u.seq := hn.wf.pending_gt
    refine { hw with wrote := ?_, asleep := ?_ }
    · intro u hu
      have hs : _ = t.seq := hs
      rw [hp', hs]
      rcases hw.wrote u hu with h' | h' | h'
      · have := hgt t (by rw [hp]; exact List.mem_cons_self)
        exact .inl (by omega)
      · rw [hp] at h'
        rcases List.mem_cons.1 h' with rfl | h'
        · exact .inl (Nat.le_refl _)
        · exact .inr (.inl h')
      · exact .inr (.inr h')
    · intro f hf
      have hf : s.receiver = .suspended (.wait f) := hf
      rw [hf] at hr
      cases hr
  | found _ _ hq =>
    obtain ⟨hp, -, hs, -⟩ := ClientTaskTimer.remove_task_keeps hq
    exact { (hw.retime hp hs).rgoto (r := .running (.hold _ _ .start)) (.inl rfl) with }
  | @wait f c h hlt =>
    refine { hw with waits := ?_, asleep := nofun }
    rintro _ ⟨⟩
    simp only [expected, Bool.or_eq_true, decide_eq_true_eq, List.any_eq_true] at hok
    exact hok.resolve_left (Nat.not_le.2 hlt)
  | @sleep f h hlt =>
    refine { hw with waits := ?_, asleep := ?_ }
    · rintro _ ⟨⟩
      exact hw.waits f (by rw [h]; rfl)
    · rintro _ ⟨⟩
      exact hlt
  | @finish _ f t st pc h hpc hpw => exact { hw.rgoto (r := .running pc) (.inl hpw) with }
  | part_err h => exact { hw.rgoto (r := .exiting) (.inl rfl) with }
  | has_err h _ => exact { hw.rgoto (r := .exiting) (.inl rfl) with }
  | panic h _ => exact { hw.rgoto (r := .panicked) (.inl rfl) with }
  | store h => exact { hw.rgoto (r := .cleaning) (.inl rfl) with }
  | cleaned h _ => exact hw.rgoto (.inl rfl)
  | fail h =>
    exact { (hw.retime (m := s.timer.fail_tasks.2) rfl rfl).rgoto (r := .testing) (.inl rfl) with }
  | again h _ => exact hw.rgoto (.inl rfl)
  | leave h _ => exact { hw.rgoto (r := .returned) (.inl rfl) with }
  | other r c m _ _ _ hr _ _ => exact { hw.rgoto hr with }

theorem waiting_of_expected {thresholds task_timeout : Nat} {tr : List (Conn × Act)} {s : Conn}
    (h : Run step (new thresholds task_timeout) tr s)
    (hok : Meets (fun s a => expected s a = true) tr) : Waiting s := by
  refine (h.inv_of_meets (fun s => Numbered s ∧ Waiting s) ⟨new_numbered _ _, new_waiting _ _⟩ ?_ hok).2
  rintro s a s' ⟨hn, hw⟩ hok hs
  refine ⟨hn.step hs, ?_⟩
  cases a with
  | snd a => exact hw.send hok (send_cases hs)
  | rcv a => exact hw.recv hn hok (recv_cases hs)

/-- A suspended reader waits for a task that was written and is on its way to the
timer. -/
def WaitsForRegistration (s : Conn) : Prop :=
  ∀ f, s.receiver = .suspended (.wait f) →
    ∃ t ∈ s.wrote, t.seq = f.seq ∧ (t ∈ s.timer.pending_tasks ∨ s.sender.task = some t)

/-- Any other header above what has been drained puts the reader to sleep once the
channel is empty. -/
theorem header_suspends {s : Conn} (hn : Numbered s) {c : Bool} {f : Frame}
    (hr : s.receiver = .running (.head c)) (hp : s.timer.pending_tasks = [])
    (hreg : s.timer.reg_stopped_flag = false) (hlt : s.timer.processed_seq < f.seq) :
    ∃ tr s', follow step s [.rcv (.header f), .rcv .next, .rcv .next] = some (tr, s') ∧
      s' = { s with receiver := .suspended (.wait f) } := by
  have hmin : ¬ f.seq < s.timer.min_delay_seq := by
    have := hn.wf.min_le_processed
    omega
  simp [follow, step, recv, recv_next, ClientTaskTimer.recv_pending, hr, hp, hreg, hmin, hlt,
    Nat.not_le.2 hlt]

/-- If every header is expected, a suspended reader waits for a registration; an
unexpected one that finds the channel empty suspends it for nothing. -/
theorem reader_waits_for_registration {thresholds task_timeout : Nat} {tr : List (Conn × Act)}
    {s : Conn} (h : Run step (new thresholds task_timeout) tr s) :
    (Meets (fun s a => expected s a = true) tr → Always WaitsForRegistration tr s) ∧
      ∀ c f, s.receiver = .running (.head c) → expected s (.rcv (.header f)) = false →
        s.timer.pending_tasks = [] → s.timer.reg_stopped_flag = false →
        ∃ tr' s', follow step s [.rcv (.header f), .rcv .next, .rcv .next] = some (tr', s') ∧
          ¬ WaitsForRegistration s' := by
  refine ⟨fun hok => h.always WaitsForRegistration ?_ hok, ?_⟩
  · intro tr s h hok f hf
    have hw := waiting_of_expected h hok
    obtain ⟨t, ht, hs⟩ := hw.waits f (by rw [hf]; rfl)
    refine ⟨t, ht, hs, (hw.wrote t ht).resolve_left ?_⟩
    have := hw.asleep f hf
    omega
  · intro c f hr hun hp hreg
    simp only [expected, Bool.or_eq_false_iff, decide_eq_false_iff_not, Nat.not_le, List.any_eq_false,
      decide_eq_true_eq] at hun
    obtain ⟨tr', s', hs, rfl⟩ := header_suspends (numbered h) hr hp hreg hun.1
    refine ⟨tr', _, hs, fun hw => ?_⟩
    obtain ⟨t, ht, he, -⟩ := hw f rfl
    exact hun.2 t ht he

/-- The reader waits for a task that is being registered. -/
theorem reader_waits_for_registration_sample : ∃ tr s, Run step (new 8 1) tr s ∧
    s.receiver = .suspended (.wait ⟨1, 0, 4, 0⟩) ∧ WaitsForRegistration s := by
  obtain ⟨tr, s, h, hr, hm⟩ :
      ∃ tr s, follow step (new 8 1) ([.rcv .poll, .rcv .next, .rcv .next, .rcv .next,
      .snd (.send_task true), .snd .next, .snd .next, .snd (.encoded true), .snd (.written true),
      .rcv (.header ⟨1, 0, 4, 0⟩), .rcv .next, .rcv .next]) = some (tr, s) ∧
      s.receiver = .suspended (.wait ⟨1, 0, 4, 0⟩) ∧
      ∀ p ∈ tr, expected p.1 p.2 = true := ⟨_, _, rfl, rfl, by decide⟩
  exact ⟨tr, s, .of_follow h, hr, ((reader_waits_for_registration (.of_follow h)).1 hm).2⟩

/-- A task is registered and drained, then a ping is sent and answered first: the
reader sleeps on the ping's seq, and the task times out unread. -/
theorem ping_stalls_reader :
    ∃ tr s tr' s', Run step (new 8 1) tr s ∧ s.receiver = .suspended (.wait ⟨2, 0, 0, 0⟩) ∧
    s.pinged = [2] ∧ s.wrote = [⟨0, 1⟩] ∧ s.timer.drained = [⟨0, 1⟩] ∧ s.sender = .idle ∧
    Run step s tr' s' ∧ s'.receiver = .suspended (.wait ⟨2, 0, 0, 0⟩) ∧
    s'.completed = [(0, .timeout)] := by
  obtain ⟨tr, s, tr', s', h, h', hs⟩ : ∃ tr s tr' s', follow step (new 8 1) (sampleSend ++
      ([.snd .send_ping_req, .snd .next, .snd .next, .snd (.written true)] : List Act) ++ sampleWake ++
      ([.rcv (.header ⟨2, 0, 0, 0⟩), .rcv .next, .rcv .next] : List Act)) = some (tr, s) ∧
      follow step s [.rcv .poll, .rcv .tick, .rcv .tick, .rcv .next, .rcv .next, .rcv .next, .rcv .next] =
        some (tr', s') ∧ s.receiver = .suspended (.wait ⟨2, 0, 0, 0⟩) ∧ s.pinged = [2] ∧
          s.wrote = [⟨0, 1⟩] ∧
      s.timer.drained = [⟨0, 1⟩] ∧ s.sender = .idle ∧
        s'.receiver = .suspended (.wait ⟨2, 0, 0, 0⟩) ∧
      s'.completed = [(0, .timeout)] := ⟨_, _, _, _, rfl, rfl, rfl, rfl, rfl, rfl, rfl, rfl, rfl⟩
  obtain ⟨h1, h2, h3, h4, h5, h6, h7⟩ := hs
  exact ⟨tr, s, tr', s', .of_follow h, h1, h2, h3, h4, h5, .of_follow h', h6, h7⟩

end OccamsRpc.Conn
