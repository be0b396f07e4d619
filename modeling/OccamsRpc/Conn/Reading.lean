import OccamsRpc.Conn.Moves
import OccamsRpc.Stream.Proto
/-!
# Where the receive coroutine is in the stream

`read_resp` reads a header, and then the parts of a body one after the other. The
receive future knows at each point which header it has read last and how much of the
body lies behind it; when it is back at the loop of `recv_one_resp`, that was the whole
body, whether a task was waiting for the response or not.
-/

namespace OccamsRpc.Conn

/-- The length of the body that a header announces. -/
def Frame.bodyLen (f : Frame) : Nat :=
  if f.flag = 0 then f.msg_len + f.blob_len.toNat else if f.flag = 2 then f.blob_len.toNat else 0

namespace RecvPc

/-- The header whose body is being read, and how much of the body has been. -/
def inBody : RecvPc → Option (Frame × Nat)
  | .wait f | .waiting f | .dump f false => some (f, 0)
  | .hold f _ .blob | .dump f true => some (f, f.msg_len)
  | .hold f _ _ => some (f, 0)
  | _ => none

/-- How many bytes the next read is for. -/
def wants : RecvPc → Nat
  | .head _ => RPC_RESP_HEADER_LEN
  | .hold f _ .msg => f.msg_len
  | .hold f _ .blob | .hold f _ .err_str | .dump f true => f.blob_len.toNat
  | .dump f false => f.bodyLen
  | _ => 0

/-- The next read is for `_recv_and_dump`. -/
def dumps : RecvPc → Bool
  | .dump .. => true
  | _ => false

/-- The header is of the kind that has the part. -/
def Fits : RecvPc → Prop
  | .hold f _ .msg | .hold f _ .blob | .dump f true => f.flag = 0
  | .hold f _ .err_str => f.flag = 2
  | _ => True

/-- The task that the next part of a body completes. -/
def finishes (has_blob : Bool) : RecvPc → Option (Nat × Frame)
  | .hold f t st =>
    match next_part f has_blob st with
    | .finish | .no_blob => some (t.id, f)
    | _ => none
  | _ => none

end RecvPc

/-- The future, as long as the loop polls it. -/
def RecvState.pc : RecvState → Option RecvPc
  | .suspended pc | .ticking pc | .sent pc | .running pc => some pc
  | _ => none

/-- Where the next part of a body leads. -/
def Next.Leads (f : Frame) (t : Task) (o : Nat) : Next → Prop
  | .stage st => (RecvPc.hold f t st).Fits ∧ (RecvPc.hold f t st).inBody = some (f, o)
  | .finish => o = f.bodyLen
  | .no_blob => f.flag = 0 ∧ 0 < f.blob_len ∧ o = f.msg_len
  | .panic => True

theorem after_msg_leads {f : Frame} (hf : f.flag = 0) (has_blob : Bool) (t : Task) :
    (after_msg f has_blob).Leads f t f.msg_len := by
  unfold after_msg
  split
  case isTrue hpos =>
    cases has_blob with
    | false => exact ⟨hf, hpos, rfl⟩
    | true => exact ⟨hf, rfl⟩
  case isFalse hpos =>
    simp only [Next.Leads, Frame.bodyLen, hf, if_true]
    omega

theorem next_part_leads {f : Frame} {t : Task} {st : Stage} (hst : (RecvPc.hold f t st).Fits)
    (has_blob : Bool) {o : Nat} (ho : (RecvPc.hold f t st).inBody = some (f, o)) :
    (next_part f has_blob st).Leads f t (o + (RecvPc.hold f t st).wants) := by
  cases st with
  | start =>
    cases ho
    simp only [next_part]
    split
    · simp [Next.Leads, Frame.bodyLen, RecvPc.wants, *]
    split
    · split
      · trivial
      · exact ⟨‹_›, rfl⟩
    split
    · trivial
    have hf : f.flag = 0 := by omega
    split
    · exact ⟨hf, rfl⟩
    · have h := after_msg_leads hf has_blob t
      rwa [show f.msg_len = 0 by omega] at h
  | msg =>
    cases ho
    have h := after_msg_leads hst has_blob t
    rwa [← Nat.zero_add f.msg_len] at h
  | blob =>
    cases ho
    have hf : f.flag = 0 := hst
    simp [next_part, Next.Leads, Frame.bodyLen, RecvPc.wants, hf]
  | err_str =>
    cases ho
    have hf : f.flag = 2 := hst
    simp [next_part, Next.Leads, Frame.bodyLen, RecvPc.wants, hf]

/-- No read is for more than there is of the body. -/
theorem RecvPc.wants_le {pc : RecvPc} {f : Frame} {o : Nat} (hfit : pc.Fits)
    (hb : pc.inBody = some (f, o)) :
    o + pc.wants ≤ f.bodyLen := by
  cases pc with
  | hold g t st =>
    cases st <;> cases hb <;> simp only [Fits] at hfit <;> simp [wants, Frame.bodyLen, hfit]
  | dump g guard =>
    cases guard <;> cases hb
    · exact Nat.le_of_eq (Nat.zero_add _)
    · simp only [Fits] at hfit
      simp [wants, Frame.bodyLen, hfit]
  | wait | waiting =>
    cases hb
    exact Nat.zero_le _
  | _ => cases hb

/-! ## Steps of the coroutine -/

variable {s s' : Conn} {a : RecvAct}

theorem take_pc (s : Conn) (f : Frame) :
    ∃ pc, (s.take f).receiver = .running pc ∧ pc.inBody = some (f, 0) ∧ pc.Fits := by
  unfold take
  split
  · exact ⟨_, rfl, rfl, trivial⟩
  · exact ⟨_, rfl, rfl, trivial⟩

theorem recv_header {f : Frame} (h : s.recv (.header f) = some s') :
    (∃ c, s.receiver = .running (.head c)) ∧ ∃ pc, s'.receiver = .running pc ∧
      pc.inBody = some (f, 0) ∧ pc.Fits := by
  unfold recv at h
  split at h <;> try contradiction
  case h_4 c g hs ha =>
    cases ha
    refine ⟨⟨c, hs⟩, ?_⟩
    split at h
    · cases h
      exact ⟨_, rfl, rfl, trivial⟩
    split at h <;> cases h
    · exact ⟨_, rfl, rfl, trivial⟩
    · exact take_pc s f

/-- A part of a body is read: of the next one, or of the whole, there is nothing left. -/
theorem recv_part {b : Bool} (h : s.recv (.part b) = some s') :
    ∃ pc f o, s.receiver = .running pc ∧ pc.inBody = some (f, o) ∧
      s'.completed = s.completed ++ (pc.finishes b).toList.map (fun p => (p.1, .resp p.2)) ∧
      (pc.Fits → (s'.receiver = .panicked ∨ ∃ pc', s'.receiver = .running pc' ∧ pc'.Fits ∧
          (pc'.inBody = some (f, o + pc.wants) ∨ pc'.inBody = none ∧ o + pc.wants = f.bodyLen)) ∧
        ∀ id g, pc.finishes b = some (id, g) →
          g = f ∧ (o + pc.wants = f.bodyLen ∨ 0 < f.blob_len ∧ o + pc.wants = f.msg_len)) := by
  unfold recv at h
  split at h <;> try contradiction
  case h_8 f t st has_blob hs ha =>
    cases ha
    obtain ⟨o, ho⟩ : ∃ o, (RecvPc.hold f t st).inBody = some (f, o) := by cases st <;> exact ⟨_, rfl⟩
    refine ⟨.hold f t st, f, o, hs, ho, ?_⟩
    have hlead (hfit : (RecvPc.hold f t st).Fits) := next_part_leads hfit b ho
    simp only [RecvPc.finishes]
    rcases hn : next_part f b st with st' | _ | _ | _ <;> simp only [hn] at h hlead ⊢ <;> cases h
    · exact ⟨by simp, fun hfit => ⟨.inr ⟨_, rfl, (hlead hfit).1, .inl (hlead hfit).2⟩, nofun⟩⟩
    · refine ⟨rfl, fun hfit => ⟨.inr ⟨_, rfl, trivial, .inr ⟨rfl, hlead hfit⟩⟩, ?_⟩⟩
      rintro id g ⟨⟩
      exact ⟨rfl, .inl (hlead hfit)⟩
    · refine ⟨rfl, fun hfit => ?_⟩
      obtain ⟨hf, hpos, hlen⟩ := hlead hfit
      refine ⟨.inr ⟨.dump f true, rfl, hf, .inl (by rw [hlen]; rfl)⟩, ?_⟩
      rintro id g ⟨⟩
      exact ⟨rfl, .inr ⟨hpos, hlen⟩⟩
    · exact ⟨by simp [abandon], fun _ => ⟨.inl rfl, nofun⟩⟩
  case h_11 f guard _ hs ha =>
    cases ha
    cases h
    cases guard with
    | false =>
      exact ⟨.dump f false, f, 0, hs, rfl, by simp [RecvPc.finishes],
        fun _ => ⟨.inr ⟨_, rfl, trivial, .inr ⟨rfl, Nat.zero_add _⟩⟩, nofun⟩⟩
    | true =>
      refine ⟨.dump f true, f, f.msg_len, hs, rfl, by simp [RecvPc.finishes],
        fun hfit => ⟨.inr ⟨_, rfl, trivial, .inr ⟨rfl, ?_⟩⟩, nofun⟩⟩
      have hf : f.flag = 0 := hfit
      simp [Frame.bodyLen, RecvPc.wants, hf]

/-- The future stays where it is in the stream, or the loop that polls it is left. -/
def Stays (s s' : Conn) : Prop :=
  s'.receiver.pc = none ∨ ∃ pc pc', s.receiver.pc = some pc ∧ s'.receiver.pc = some pc' ∧
    pc'.inBody = pc.inBody ∧
    (pc.Fits → pc'.Fits)

theorem Stays.goto {r : RecvState} {pc pc' : RecvPc} (hs : s.receiver = r) (hr : r.pc = some pc)
    (hr' : s'.receiver.pc = some pc') (hb : pc'.inBody = pc.inBody) (hf : pc.Fits → pc'.Fits) :
    Stays s s' :=
  .inr ⟨pc, pc', hs ▸ hr, hr', hb, hf⟩

/-- The receive loops. -/
theorem pop_stays {r : RecvState} {pc : RecvPc} (hs : s.receiver = r) (hr : r.pc = some pc)
    {k : Option Conn}
    (h : (match s.timer.recv_pending with | some tm => some { s with timer := tm } | none => k) = some s')
    (hk : k = some s' → Stays s s') : Stays s s' := by
  split at h
  · cases h
    exact .goto hs hr (hs ▸ hr) rfl id
  · exact hk h

theorem recv_next_stays (h : s.recv_next s.receiver = some s') : Stays s s' := by
  cases hs : s.receiver with
  | ticking pc =>
    simp only [recv_next, hs] at h
    split at h <;> cases h
    · exact .inl rfl
    · exact .goto hs rfl rfl rfl id
  | sent pc =>
    rw [hs] at h
    refine pop_stays hs rfl h ?_
    rintro ⟨⟩
    exact .goto hs rfl rfl rfl id
  | running pc =>
    rw [hs] at h
    cases pc with
    | top =>
      simp only [recv_next] at h
      split at h <;> cases h <;> exact .goto hs rfl rfl rfl id
    | drain =>
      refine pop_stays hs rfl h ?_
      rintro ⟨⟩
      exact .goto hs rfl rfl rfl id
    | emptied =>
      simp only [recv_next] at h
      split at h <;> cases h
      · exact .inl rfl
      · exact .goto hs rfl rfl rfl id
    | wait f =>
      simp only [recv_next] at h
      split at h
      · cases h
        obtain ⟨pc, hpc, hb, hf⟩ := take_pc s f
        exact .goto hs rfl (by rw [hpc]; rfl) hb fun _ => hf
      · split at h <;> cases h <;> exact .goto hs rfl rfl rfl id
    | waiting f =>
      refine pop_stays hs rfl h ?_
      intro h
      split at h <;> cases h
      · obtain ⟨pc, hpc, hb, hf⟩ := take_pc s f
        exact .goto hs rfl (by rw [hpc]; rfl) hb fun _ => hf
      · exact .goto hs rfl rfl rfl id
    | head c => cases h
    | hold f t st => cases h
    | dump f g => cases h
  | cleaning =>
    rw [hs] at h
    simp only [recv_next] at h
    split at h <;> cases h
    · exact .inl (by rw [hs]; rfl)
    · exact .inl rfl
  | testing =>
    simp only [recv_next, hs] at h
    split at h <;> cases h <;> exact .inl rfl
  | exiting | failing =>
    rw [hs] at h
    cases h
    exact .inl rfl
  | suspended | returned | panicked =>
    rw [hs] at h
    cases h

/-- The other steps read nothing. -/
theorem recv_stays (h : s.recv a = some s') (hhead : ∀ f, a ≠ .header f) (hpart : ∀ b, a ≠ .part b) :
    Stays s s' := by
  unfold recv at h
  split at h
  case h_1 => exact recv_next_stays h
  case h_2 hs =>
    cases h
    exact .goto hs rfl rfl rfl id
  case h_3 hs =>
    cases h
    exact .goto hs rfl (hs ▸ rfl) rfl id
  case h_4 => exact absurd rfl (hhead _)
  case h_6 hs =>
    split at h <;> cases h
    exact .goto hs rfl rfl rfl id
  case h_8 => exact absurd rfl (hpart _)
  case h_9 =>
    split at h <;> cases h
    exact .inl rfl
  case h_10 hs =>
    split at h <;> cases h
    exact .goto hs rfl rfl rfl id
  case h_11 => exact absurd rfl (hpart _)
  case h_5 | h_12 =>
    cases h
    exact .inl rfl
  case h_7 hs | h_13 hs =>
    cases h
    exact .goto hs rfl rfl rfl id
  case h_14 => cases h

/-- The future is always at a part that its header has. -/
theorem fits_recv (hfit : ∀ pc, s.receiver.pc = some pc → pc.Fits)
    (h : s.recv a = some s') :
    ∀ pc, s'.receiver.pc = some pc → pc.Fits := by
  intro pc' hpc'
  by_cases hhead : ∃ f, a = .header f
  · obtain ⟨f, rfl⟩ := hhead
    obtain ⟨-, pc, hpc, -, hf⟩ := recv_header h
    rw [hpc] at hpc'
    cases hpc'
    exact hf
  by_cases hpart : ∃ b, a = .part b
  · obtain ⟨b, rfl⟩ := hpart
    obtain ⟨pc, f, o, hs, -, -, hmove⟩ := recv_part h
    rcases (hmove (hfit pc (by rw [hs]; rfl))).1 with hp | ⟨pc'', hpc, hf, -⟩
    · rw [hp] at hpc'
      cases hpc'
    · rw [hpc] at hpc'
      cases hpc'
      exact hf
  rcases recv_stays h (fun f hf => hhead ⟨f, hf⟩) (fun b hb => hpart ⟨b, hb⟩)
    with hnone | ⟨pc, pc'', hpc, hpc'', -, hf⟩
  · exact absurd (hnone.symm.trans hpc') nofun
  · cases hpc''.symm.trans hpc'
    exact hf (hfit pc hpc)

/-- Only a part of a body completes a task with a response. -/
theorem recv_completed (h : s.recv a = some s') (hpart : ∀ b, a ≠ .part b) {id : Nat} {f : Frame}
    (hm : (id, .resp f) ∈ s'.completed) : (id, .resp f) ∈ s.completed := by
  have hold (ts : List Task) (o : Outcome) (ho : o ≠ .resp f)
      (hm : (id, .resp f) ∈ s.completed ++ ts.map fun t => (t.id, o)) :
      (id, .resp f) ∈ s.completed := by
    rcases List.mem_append.1 hm with hm | hm
    · exact hm
    · obtain ⟨t, -, he⟩ := List.mem_map.1 hm
      exact absurd (Prod.mk.inj he).2 ho
  cases recv_cases h with
  | tick => exact hold _ .timeout nofun hm
  | fail => exact hold _ .io nofun hm
  | @part_err _ t => exact hold [t] .io nofun hm
  | finish => exact absurd rfl (hpart _)
  | _ => exact hm

end OccamsRpc.Conn
