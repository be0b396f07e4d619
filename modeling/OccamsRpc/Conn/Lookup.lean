import OccamsRpc.Client.Age
import OccamsRpc.Conn.Arrived
/-!
# Headers that were looked up

For every header that was read, `take_task` is waiting for its task, or no task in the
timer or on its way there has the seq: the search has found it, or there was none to
find. Only a registration that was stopped ends the wait in another way.
-/
open Lib

namespace OccamsRpc.Conn

/-- No task that could be completed has this seq. -/
def Unclaimed (s : Conn) (q : Nat) : Prop :=
  ∀ t, s.sender.task = some t ∨ t ∈ s.timer.items → t.seq ≠ q

/-- Each of the headers has been looked up, or is the one whose task is awaited. -/
def Looked (heads : List Frame) (s : Conn) : Prop :=
  ∀ f ∈ heads, s.receiver.waits = some f ∨ Unclaimed s f.seq

variable {s s' : Conn}

theorem new_looked (thresholds task_timeout : Nat) : Looked [] (new thresholds task_timeout) :=
  nofun

/-! ## The owner -/

theorem Unclaimed.send {a : SendAct} {q : Nat} (hu : Unclaimed s q) (hq : q < s.next_seq)
    (h : SendMove s a s') :
    Unclaimed s' q := by
  have hnone (hs : s'.sender.task = none) (hi : s'.timer.items = s.timer.items) :
      Unclaimed s' q := by
    rintro t (ht | ht)
    · exact absurd (hs.symm.trans ht) nofun
    · exact hu t (.inr (hi ▸ ht))
  cases h with
  | encode_ok =>
    rintro t (⟨⟨⟩⟩ | ht)
    · exact Nat.ne_of_gt hq
    · exact hu t (.inr ht)
  | @write_ok u _ hs =>
    rintro t (⟨⟨⟩⟩ | ht)
    · exact hu u (.inl (by rw [hs]; rfl))
    · exact hu t (.inr ht)
  | @register u hs =>
    rintro t (⟨⟨⟩⟩ | ht)
    rcases List.mem_cons.1 ((ClientTaskTimer.reg_task_items s.timer u).subset ht) with rfl | ht
    · exact hu t (.inl (by rw [hs]; rfl))
    · exact hu t (.inr ht)
  | @op op => cases op <;> exact hnone rfl rfl
  | other pc e _ hpc => exact hnone (SendPc.free_task hpc) rfl
  | _ => exact hnone rfl rfl

theorem Looked.send {a : SendAct} {heads : List Frame} (hl : Looked heads s)
    (hlt : ∀ f ∈ heads, f.seq < s.next_seq) (h : s.send a = some s') : Looked heads s' := by
  intro f hf
  rw [(send_cases h).frame.receiver]
  exact (hl f hf).imp_right fun hu => hu.send (hlt f hf) (send_cases h)

/-! ## The receive coroutine -/

theorem RecvMove.items_subset {a : RecvAct} (hn : Numbered s) (h : RecvMove s a s') :
    s'.timer.items ⊆ s.timer.items := by
  cases h with
  | tick _ hq =>
    intro t ht
    exact (ClientTaskTimer.adjust_task_queue_items hq).symm.subset (List.mem_append_right _ ht)
  | pop hq => exact (ClientTaskTimer.recv_pending_items hn.wf hq).subset
  | found _ _ hq =>
    intro t ht
    exact (ClientTaskTimer.remove_task_items hq).symm.subset (List.mem_cons_of_mem _ ht)
  | fail =>
    intro t ht
    have hi := (ClientTaskTimer.fail_tasks_items s.timer).2
    exact List.mem_append_left _ (hi ▸ ht)
  | _ => exact List.Subset.refl _

theorem Unclaimed.recv {a : RecvAct} {q : Nat} (hu : Unclaimed s q) (hn : Numbered s)
    (h : RecvMove s a s') :
    Unclaimed s' q := by
  rintro t (ht | ht)
  · rw [h.frame.sender] at ht
    exact hu t (.inl ht)
  · exact hu t (.inr (h.items_subset hn ht))

/-- A seq below the smallest of the delayed ones is nobody's. -/
theorem unclaimed_of_lt (hn : Numbered s) {q : Nat} (h : q < s.timer.min_delay_seq) :
    Unclaimed s q := by
  have hle := hn.wf.min_le_processed
  rintro t (ht | ht)
  · have hlt := (hn.sending t ht).2.1
    omega
  · rcases List.mem_append.1 ht with ht | ht
    · have hlt : s.timer.processed_seq < t.seq := hn.wf.pending_gt t ht
      omega
    · have hmin : s.timer.min_delay_seq ≤ t.seq := hn.wf.min_le t ht
      omega

/-- The search leaves no task with the seq, as those that are not drained have later ones. -/
theorem take_unclaimed (hn : Numbered s) {f : Frame} (hle : f.seq ≤ s.timer.processed_seq) :
    Unclaimed (s.take f) f.seq := by
  have hsender {t : Task} (ht : s.sender.task = some t) : t.seq ≠ f.seq := by
    have hlt := (hn.sending t ht).2.1
    omega
  unfold take
  split
  case h_1 u tm hq =>
    have hseq : u.seq = f.seq := ClientTaskTimer.remove_task_seq hn.wf hq
    rintro t (ht | ht)
    · exact hsender ht
    · rw [← hseq]
      exact ClientTaskTimer.take_task_gone hn.wf (ClientTaskTimer.remove_task_items hq) t ht
  case h_2 tm hq =>
    obtain ⟨rfl, hnone⟩ := ClientTaskTimer.remove_task_none hq
    rintro t (ht | ht)
    · exact hsender ht
    · rcases List.mem_append.1 ht with ht | ht
      · have hlt : s.timer.processed_seq < t.seq := hn.wf.pending_gt t ht
        omega
      · rintro he
        obtain ⟨tm', hfound⟩ := ClientTaskTimer.remove_task_found hn.wf ht
        have hfound : s.timer.remove_task f.seq = (some t, tm') := he ▸ hfound
        rw [hq] at hfound
        cases hfound

theorem header_looked (hn : Numbered s) {f : Frame} (h : s.recv (.header f) = some s') :
    s'.receiver.waits = some f ∨ Unclaimed s' f.seq := by
  unfold recv at h
  split at h <;> try contradiction
  case h_4 c g hs ha =>
    cases ha
    split at h
    case isTrue hlt =>
      cases h
      exact .inr (unclaimed_of_lt hn hlt)
    case isFalse =>
      split at h <;> cases h
      · exact .inl rfl
      · exact .inr (take_unclaimed hn (by omega))

/-- The wait for the registration of a task goes on, or ends with the search for it. -/
theorem wait_looked (hn : Numbered s) (hreg : s.timer.reg_stopped_flag = false) {f : Frame}
    (hw : s.receiver.waits = some f) (h : s.recv_next s.receiver = some s')
    (hlive : s'.receiver.live = true) :
    s'.receiver.waits = some f ∨ Unclaimed s' f.seq := by
  have hstays := hw
  cases hs : s.receiver with
  | ticking pc =>
    rw [hs] at hw
    simp only [recv_next, hs] at h
    split at h <;> cases h
    · cases hlive
    · exact .inl hw
  | sent pc =>
    rw [hs] at hw
    simp only [recv_next, hs] at h
    split at h <;> cases h <;> exact .inl hw
  | running pc =>
    rw [hs] at hw h
    cases pc with
    | wait g =>
      cases hw
      simp only [recv_next, hreg, Bool.false_eq_true, if_false] at h
      split at h
      case isTrue hle =>
        cases h
        exact .inr (take_unclaimed hn hle)
      case isFalse =>
        cases h
        exact .inl rfl
    | waiting g =>
      cases hw
      simp only [recv_next] at h
      split at h
      case h_1 =>
        cases h
        exact .inl hstays
      case h_2 =>
        split at h
        case isTrue hle =>
          cases h
          exact .inr (take_unclaimed hn hle)
        case isFalse =>
          cases h
          exact .inl rfl
    | _ => cases hw
  | suspended pc =>
    rw [hs] at h
    cases h
  | _ =>
    rw [hs] at hw
    cases hw

theorem Looked.recv {a : RecvAct} {heads : List Frame} (hl : Looked heads s) (hn : Numbered s)
    (hreg : s.timer.reg_stopped_flag = false) (h : s.recv a = some s')
    (hlive : s'.receiver.live = true) :
    Looked heads s' := by
  intro f hf
  rcases hl f hf with hw | hu
  · rcases recv_waits hw h with rfl | ⟨-, hsame, -⟩
    · exact wait_looked hn hreg hw h hlive
    · exact .inl (hsame.trans hw)
  · exact .inr (hu.recv hn (recv_cases h))

end OccamsRpc.Conn
