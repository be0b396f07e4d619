import OccamsRpc.Conn.Inv
/-!
# Responses and the tasks they complete

No response completes a task it is not for. A task the coroutine has taken from
the timer is completed by the future that reads its body, unless that future is
given up with the task inside.
-/
open Lib

namespace OccamsRpc.Conn

theorem completed_nodup {s : Conn} (hp : Placed s) : (s.completed.map Prod.fst).Nodup := by
  rw [List.nodup_iff_count_le_one]
  intro id
  have hle := hp.count_le id
  rw [count_places] at hle
  omega

/-- A response completes the one task its seq was given to, and nothing else
completes that task. -/
theorem response_completes_its_task {thresholds task_timeout : Nat} {tr : List (Conn × Act)}
    {s : Conn} (h : Run step (new thresholds task_timeout) tr s) :
    (∀ id f, (id, Outcome.resp f) ∈ s.completed →
      (id, f.seq) ∈ s.assigned ∧ (∀ q, (id, q) ∈ s.assigned → q = f.seq) ∧
        ∀ id', (id', f.seq) ∈ s.assigned → id' = id) ∧
      (s.completed.map Prod.fst).Nodup := by
  have hn := numbered h
  refine ⟨?_, completed_nodup (placed h)⟩
  intro id f hm
  have ha := hn.answered id f hm
  refine ⟨ha, ?_, ?_⟩
  · intro q hq
    exact (Prod.mk.inj (List.inj_on_of_nodup_map hn.ids hq ha rfl)).2
  · intro id' hq
    exact (Prod.mk.inj (List.inj_on_of_nodup_map hn.seqs hq ha rfl)).1

/-- The task is answered, and then its seq once more. -/
theorem response_completes_its_task_sample : ∃ tr s, Run step (new 8 1) tr s ∧
    s.completed = [(0, .resp ⟨1, 0, 4, 0⟩)] ∧ (0, 1) ∈ s.assigned ∧
    (∀ q, (0, q) ∈ s.assigned → q = 1) := by
  obtain ⟨tr, s, h, hc⟩ : ∃ tr s, follow step (new 8 1) (sampleSend ++ sampleWake ++
      ([.rcv (.header ⟨1, 0, 4, 0⟩), .rcv (.part false), .rcv (.part false), .rcv .next,
        .rcv (.header ⟨1, 0, 4, 0⟩),
        .rcv (.part false)] : List Act)) = some (tr, s) ∧
          s.completed = [(0, .resp ⟨1, 0, 4, 0⟩)] := ⟨_, _, rfl, rfl⟩
  have hr := (response_completes_its_task (.of_follow h)).1 0 ⟨1, 0, 4, 0⟩ (by simp [hc])
  exact ⟨tr, s, .of_follow h, hc, hr.1, hr.2.1⟩

/-! ## Tasks taken from the timer -/

/-- A task that a response took out of the table is in the hands of the reader, completed,
or lost with it. -/
structure Taken (s : Conn) : Prop where
  kept : ∀ id ∈ s.taken,
    id ∈ s.receiver.held.toList.map Task.id ∨ id ∈ s.completed.map Prod.fst ∨ id ∈ s.lost_recv
  held : ∀ id ∈ s.receiver.held.toList.map Task.id, id ∈ s.taken
  lost : ∀ id ∈ s.lost_recv, id ∈ s.taken

theorem new_taken (thresholds task_timeout : Nat) : Taken (new thresholds task_timeout) := by
  constructor <;> simp [new, RecvState.held, RecvPc.held]

theorem Taken.send {s s' : Conn} {a : SendAct} (ht : Taken s) (h : SendMove s a s') : Taken s' := by
  have hf := h.frame
  constructor
  · rw [hf.taken, hf.receiver, hf.lost_recv]
    intro id hid
    refine (ht.kept id hid).imp_right (Or.imp_left fun hm => ?_)
    exact List.map_subset _ hf.completed hm
  · rw [hf.taken, hf.receiver]
    exact ht.held
  · rw [hf.taken, hf.lost_recv]
    exact ht.lost

/-- The coroutine goes on with what it holds. -/
theorem Taken.rgoto {s : Conn} (ht : Taken s) {r : RecvState} (hr : r.body = s.receiver.body) :
    Taken { s with receiver := r } := by
  have he : r.held = s.receiver.held := by rw [RecvState.held_eq, RecvState.held_eq, hr]
  exact { ht with kept := by rw [he]; exact ht.kept, held := by rw [he]; exact ht.held }

theorem Taken.complete {s : Conn} (ht : Taken s) {f : Frame} {t : Task}
    (hb : s.receiver.body = some (f, t)) (o : Outcome) {r : RecvState} (hr : r.body = none) :
    Taken (s.complete t o r) := by
  refine { ht with kept := ?_, held := ?_ }
  · intro id hid
    simp only [Conn.complete, List.map_append, List.mem_append]
    rcases ht.kept id hid with hm | hm | hm
    · rw [held_ids_some hb] at hm
      exact .inr (.inl (.inr hm))
    · exact .inr (.inl (.inl hm))
    · exact .inr (.inr hm)
  · intro id hid
    exact absurd hid (by simp [Conn.complete, held_ids_none hr])

theorem Taken.abandon {s : Conn} (ht : Taken s) {r : RecvState} (hr : r.body = none) :
    Taken (s.abandon r) := by
  refine { ht with kept := ?_, held := ?_, lost := ?_ }
  · intro id hid
    simp only [Conn.abandon, List.mem_append]
    rcases ht.kept id hid with hm | hm | hm
    · exact .inr (.inr (.inr hm))
    · exact .inr (.inl hm)
    · exact .inr (.inr (.inl hm))
  · intro id hid
    exact absurd hid (by simp [Conn.abandon, held_ids_none hr])
  · intro id hid
    rcases List.mem_append.1 hid with hm | hm
    · exact ht.lost id hm
    · exact ht.held id hm

/-- More tasks are completed. -/
theorem Taken.completes {s : Conn} (ht : Taken s) (l : List (Nat × Outcome)) :
    Taken { s with completed := s.completed ++ l } := by
  refine { ht with kept := ?_ }
  intro id hid
  refine (ht.kept id hid).imp_right (Or.imp_left fun hm => ?_)
  rw [List.map_append]
  exact List.mem_append_left _ hm

theorem Taken.recv {s s' : Conn} {a : RecvAct} (ht : Taken s) (h : RecvMove s a s') : Taken s' := by
  cases h with
  | tick h hq => exact { ht.completes _ with }
  | pop h _ => exact { ht with }
  | @found _ f t tm _ hb _ =>
    have hr : (RecvState.running (.hold f t .start)).body = some (f, t) := rfl
    refine { ht with kept := ?_, held := ?_, lost := ?_ }
    · intro id hid
      rw [held_ids_some hr]
      rcases List.mem_append.1 hid with hid | hid
      · have := ht.kept id hid
        rw [held_ids_none hb] at this
        exact .inr (this.resolve_left List.not_mem_nil)
      · exact .inl hid
    · intro id hid
      rw [held_ids_some hr] at hid
      exact List.mem_append_right _ hid
    · intro id hid
      exact List.mem_append_left _ (ht.lost id hid)
  | wait h _ => exact ht.rgoto (by rw [h]; rfl)
  | sleep h _ => exact ht.rgoto (by rw [h]; rfl)
  | finish pc h hpc _ => exact ht.complete (by rw [h]; rfl) _ hpc
  | part_err h => exact ht.complete (by rw [h]; rfl) _ rfl
  | has_err h _ => exact ht.abandon rfl
  | panic h _ => exact ht.abandon rfl
  | store h => exact { ht.rgoto (r := .cleaning) (by rw [h]; rfl) with }
  | cleaned h _ => exact ht.rgoto (by rw [h]; rfl)
  | fail h =>
    exact { (ht.completes (s.timer.fail_tasks.1.map fun t => (t.id, .io))).rgoto (r := .testing)
      (by rw [h]; rfl) with }
  | again h _ => exact ht.rgoto (by rw [h]; rfl)
  | leave h _ => exact { ht.rgoto (r := .returned) (by rw [h]; rfl) with }
  | other r c m _ _ hb _ _ _ => exact { ht.rgoto hb with }

theorem taken_tasks {thresholds task_timeout : Nat} {tr : List (Conn × Act)} {s : Conn}
    (h : Run step (new thresholds task_timeout) tr s) : Taken s := by
  refine h.inv Taken (new_taken _ _) ?_
  intro s a s' ht hs
  cases a with
  | snd a => exact ht.send (send_cases hs)
  | rcv a => exact ht.recv (recv_cases hs)

/-! ## Futures given up -/

/-- The receive future goes away with a task inside: `ReceiverTimerFuture` sees
`has_err`, or the body's header makes `_recv_resp_body` panic. -/
def givesUp (s : Conn) : Act → Bool
  | .rcv .next =>
    match s.receiver with
    | .ticking pc => s.has_err && pc.held.isSome
    | _ => false
  | .rcv (.part b) =>
    match s.receiver with
    | .running (.hold f _ st) => match next_part f b st with | .panic => true | _ => false
    | _ => false
  | _ => false

theorem step_of_givesUp {s s' : Conn} {a : Act} (hg : givesUp s a = true) (h : s.step a = some s') :
    ∃ t r, s.receiver.held = some t ∧ s' = s.abandon r := by
  unfold givesUp at hg
  split at hg
  · split at hg
    · rename_i pc hs
      simp only [Bool.and_eq_true, Option.isSome_iff_exists] at hg
      obtain ⟨he, t, ht⟩ := hg
      simp only [step, recv, recv_next, hs, he, if_true, Option.some.injEq] at h
      exact ⟨t, .exiting, by rw [hs]; exact ht, h.symm⟩
    · cases hg
  · split at hg
    · rename_i f t st hs
      split at hg
      · rename_i hp
        simp only [step, recv, hs, hp, Option.some.injEq] at h
        exact ⟨t, .panicked, by rw [hs]; rfl, h.symm⟩
      · cases hg
    · cases hg
  · cases hg

theorem lost_recv_step {s s' : Conn} {a : Act} (h : s.step a = some s') :
    s'.lost_recv = s.lost_recv ∧ givesUp s a = false ∨ s'.lost_recv ≠ [] ∧ givesUp s a = true := by
  cases hg : givesUp s a with
  | true =>
    obtain ⟨t, r, ht, rfl⟩ := step_of_givesUp hg h
    exact .inr ⟨by simp [abandon, ht], rfl⟩
  | false =>
    refine .inl ⟨?_, rfl⟩
    cases a with
    | snd a => exact (send_cases h).frame.lost_recv
    | rcv a =>
      cases recv_cases h with
      | has_err hs he =>
        have hh : s.receiver.held = none := by
          simpa [givesUp, hs, he, RecvState.held] using hg
        simp [abandon, hh]
      | panic hs hp => simp [givesUp, hs, hp] at hg
      | _ => rfl

theorem lost_recv_nil_iff {thresholds task_timeout : Nat} {tr : List (Conn × Act)} {s : Conn}
    (h : Run step (new thresholds task_timeout) tr s) :
    s.lost_recv = [] ↔ Meets (fun s a => givesUp s a = false) tr := by
  induction h with
  | nil => simp [new]
  | snoc _ ht ih =>
    rw [meets_snoc, ← ih]
    rcases lost_recv_step ht with ⟨he, hg⟩ | ⟨he, hg⟩ <;> simp [he, hg]

/-- Every task taken from the timer is still held by the receive future, and then
not completed yet, or has been completed exactly once. -/
def TakenSettled (s : Conn) : Prop :=
  ∀ id ∈ s.taken, (id ∈ s.receiver.held.toList.map Task.id ∧ id ∉ s.completed.map Prod.fst) ∨
    (s.completed.map Prod.fst).count id = 1

theorem takenSettled_iff {thresholds task_timeout : Nat} {tr : List (Conn × Act)} {s : Conn}
    (h : Run step (new thresholds task_timeout) tr s) : TakenSettled s ↔ s.lost_recv = [] := by
  have hp := placed h
  have ht := taken_tasks h
  constructor
  · intro hs
    rw [List.eq_nil_iff_forall_not_mem]
    intro id hid
    have hle := hp.count_le id
    have hpos := List.count_pos_iff.2 hid
    rw [count_places] at hle
    rcases hs id (ht.lost id hid) with ⟨hm, -⟩ | hm
    · have := List.count_pos_iff.2 hm
      omega
    · omega
  · intro hl id hid
    rcases ht.kept id hid with hm | hm | hm
    · refine .inl ⟨hm, fun hc => ?_⟩
      have hle := hp.count_le id
      have := List.count_pos_iff.2 hm
      have := List.count_pos_iff.2 hc
      rw [count_places] at hle
      omega
    · exact .inr (hp.completed_once hm)
    · simp [hl] at hm

/-- The runs in which taken tasks are always settled are those in which the future
is never given up with a task inside. -/
theorem taken_settled_iff_never_given_up {thresholds task_timeout : Nat} {tr : List (Conn × Act)}
    {s : Conn} (h : Run step (new thresholds task_timeout) tr s) :
    Always TakenSettled tr s ↔ Meets (fun s a => givesUp s a = false) tr := by
  constructor
  · rintro ⟨-, hs⟩
    rw [← lost_recv_nil_iff h, ← takenSettled_iff h]
    exact hs
  · intro hok
    refine h.always TakenSettled ?_ hok
    intro tr s h hok
    exact (takenSettled_iff h).2 ((lost_recv_nil_iff h).2 hok)

theorem taken_settled_sample :
    ∃ tr s, Run step (new 8 1) tr s ∧ s.taken = [0] ∧ Always TakenSettled tr s := by
  obtain ⟨tr, s, h, ht, hm⟩ : ∃ tr s, follow step (new 8 1) (sampleSend ++ sampleWake ++
      ([.rcv (.header ⟨1, 0, 4, 0⟩), .rcv (.part false), .rcv (.part false)] : List Act)) =
        some (tr, s) ∧ s.taken = [0] ∧
      ∀ p ∈ tr, givesUp p.1 p.2 = false := ⟨_, _, rfl, rfl, by decide⟩
  exact ⟨tr, s, .of_follow h, ht, (taken_settled_iff_never_given_up (.of_follow h)).2 hm⟩

/-- `set_error_and_exit` while the message body is awaited: `receive_loop` returns
and the task is completed by nobody. -/
theorem taken_task_dropped :
    ∃ tr s, Run step (new 8 1) tr s ∧ s.receiver = .returned ∧ s.taken = [0] ∧
    s.completed = [] ∧ s.timer.items = [] := by
  obtain ⟨tr, s, h, hs⟩ : ∃ tr s, follow step (new 8 1) (sampleSend ++ sampleWake ++
      ([.rcv (.header ⟨1, 0, 4, 0⟩), .rcv (.part false), .rcv .blocked, .snd .set_error_and_exit,
        .rcv .poll, .rcv .next,
        .rcv .next, .rcv .next, .rcv .next, .rcv .next] : List Act)) = some (tr, s) ∧
          s.receiver = .returned ∧ s.taken = [0] ∧
      s.completed = [] ∧ s.timer.items = [] := ⟨_, _, rfl, rfl, rfl, rfl, rfl⟩
  exact ⟨tr, s, .of_follow h, hs⟩

end OccamsRpc.Conn
