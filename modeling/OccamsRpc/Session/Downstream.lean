import OccamsRpc.Lib.Transit
import OccamsRpc.Session.System
/-!
# The responses of a session

The client is in step with the server: the receive coroutine is between two responses,
or inside the one whose header it has read last. So the headers it sees are headers of
responses, and the bodies it reads are their bodies.
-/
open Lib

namespace OccamsRpc

open Conn

/-! ## A place among the responses -/

section
variable {C R : Type} [ServerTaskEncode C R]

/-- The bytes of a response. -/
def RespHead.wireOfDone (codec : C) (d : Done R) : Bytes :=
  (ofDone codec d).as_bytes ++ bodyOfDone codec d

/-- Its header, as the client sees it. -/
def Conn.Frame.ofDone (codec : C) (d : Done R) : Frame := .of (RespHead.ofDone codec d)

/-- Where the client is when `taken` was read of the responses: with `heads` their headers,
and `body` what came after the last one. -/
inductive ReadPlace (codec : C) (responses : List (Done R)) (heads : List Frame)
    (taken body : Bytes) :
    Option (Frame × Nat) → Prop
  | between (pre : List (Done R)) (hpre : pre <+: responses) (hh : heads = pre.map (.ofDone codec))
    (ht : taken = pre.flatMap (RespHead.wireOfDone codec)) :
    ReadPlace codec responses heads taken body none
  | inside (pre : List (Done R)) (d : Done R) {o : Nat} (hpre : pre ++ [d] <+: responses)
    (hh : heads = (pre ++ [d]).map (.ofDone codec)) (ho : o ≤ (RespHead.bodyOfDone codec d).length)
    (hbody : body = (RespHead.bodyOfDone codec d).take o)
    (ht : taken = pre.flatMap (RespHead.wireOfDone codec) ++ ((RespHead.ofDone codec d).as_bytes ++ body)) :
    ReadPlace codec responses heads taken body (some (.ofDone codec d, o))

namespace ReadPlace

variable {codec : C} {responses : List (Done R)} {heads : List Frame}
  {taken body unread bs rest : Bytes} {came : Nat}

theorem mono {p : Option (Frame × Nat)} (h : ReadPlace codec responses heads taken body p)
    {more : List (Done R)} (hm : responses <+: more) : ReadPlace codec more heads taken body p := by
  cases h with
  | between pre hpre hh ht => exact .between pre (hpre.trans hm) hh ht
  | inside pre d hpre hh ho hbody ht => exact .inside pre d (hpre.trans hm) hh ho hbody ht

theorem heads_eq {p : Option (Frame × Nat)} (h : ReadPlace codec responses heads taken body p) :
    ∃ l, l <+: responses ∧ heads = l.map (.ofDone codec) := by
  cases h with
  | between pre hpre hh => exact ⟨pre, hpre, hh⟩
  | inside pre d hpre hh => exact ⟨pre ++ [d], hpre, hh⟩

/-- A header that is read between two responses is the header of the next one. -/
theorem header (h : ReadPlace codec responses heads taken body none)
    (ht : Transit (responses.flatMap (RespHead.wireOfDone codec)) came taken unread)
    (hu : unread = bs ++ rest) (hlen : bs.length = RPC_RESP_HEADER_LEN) {head : RespHead}
    (hdec : RespHead.decode_head bs = .ok head) :
    ReadPlace codec responses (heads ++ [.of head]) (taken ++ bs) [] (some (.of head, 0)) := by
  obtain ⟨pre, ⟨post, rfl⟩, rfl, rfl⟩ := h
  rw [List.flatMap_append] at ht
  have hp := ht.unread_prefix
  rw [hu] at hp
  cases post with
  | nil =>
    have hnil := (List.append_eq_nil_iff.1 (List.prefix_nil.1 hp)).1
    rw [hnil] at hlen
    cases hlen
  | cons d post =>
    rw [List.flatMap_cons, RespHead.wireOfDone, List.append_assoc] at hp
    obtain ⟨rfl, -⟩ := prefix_split hp (hlen.trans (RespHead.length_as_bytes _).symm)
    rw [RespHead.decode_head_ofDone] at hdec
    cases hdec
    refine .inside pre d ?_ (by rw [List.map_append]; rfl) (Nat.zero_le _) rfl (by rw [List.append_nil])
    rw [List.append_cons pre d post]
    exact List.prefix_append _ _

/-- What is read inside a response is the next part of its body. -/
theorem part {f : Frame} {o : Nat} (hclean : ∀ d ∈ responses, RespHead.CleanDone codec d)
    (h : ReadPlace codec responses heads taken body (some (f, o)))
    (ht : Transit (responses.flatMap (RespHead.wireOfDone codec)) came taken unread)
    (hu : unread = bs ++ rest) (hlen : o + bs.length ≤ f.bodyLen) :
    ReadPlace codec responses heads (taken ++ bs) (body ++ bs) (some (f, o + bs.length)) ∧
      (o + bs.length = f.bodyLen → ReadPlace codec responses heads (taken ++ bs) (body ++ bs) none) ∧
      ∃ d ∈ responses, f = .ofDone codec d ∧
      body ++ bs = (RespHead.bodyOfDone codec d).take (o + bs.length) := by
  obtain _ | ⟨pre, d, hpre, hh, ho, hbody, htaken⟩ := h
  obtain ⟨post, rfl⟩ := hpre
  subst hbody htaken
  have hbody : (RespHead.bodyOfDone codec d).length = (Frame.ofDone codec d).bodyLen :=
    RespHead.length_bodyOfDone (hclean d (by simp))
  -- what is left of the response, and what comes after it
  have htotal : (pre ++ [d] ++ post).flatMap (RespHead.wireOfDone codec) =
      pre.flatMap (RespHead.wireOfDone codec) ++
      ((RespHead.ofDone codec d).as_bytes ++ (RespHead.bodyOfDone codec d).take o) ++
      ((RespHead.bodyOfDone codec d).drop o ++ post.flatMap (RespHead.wireOfDone codec)) := by
    rw [List.flatMap_append, List.flatMap_append, List.flatMap_singleton, RespHead.wireOfDone]
    nth_rewrite 1 [← List.take_append_drop o (RespHead.bodyOfDone codec d)]
    simp only [List.append_assoc]
  rw [htotal] at ht
  have hp := ht.unread_prefix
  have hbs : bs = ((RespHead.bodyOfDone codec d).drop o).take bs.length := by
    have hb : bs <+: (RespHead.bodyOfDone codec d).drop o ++ post.flatMap (RespHead.wireOfDone codec) := by
      rw [hu] at hp
      exact (List.prefix_append _ _).trans hp
    refine List.prefix_iff_eq_take.1 (List.prefix_of_prefix_length_le hb (List.prefix_append _ _) ?_)
    rw [List.length_drop]
    omega
  have hadd : (RespHead.bodyOfDone codec d).take o ++ bs =
      (RespHead.bodyOfDone codec d).take (o + bs.length) := by
    rw [List.take_add, ← hbs]
  have htaken : pre.flatMap (RespHead.wireOfDone codec) ++
      ((RespHead.ofDone codec d).as_bytes ++ (RespHead.bodyOfDone codec d).take o) ++ bs =
      pre.flatMap (RespHead.wireOfDone codec) ++
        ((RespHead.ofDone codec d).as_bytes ++ (RespHead.bodyOfDone codec d).take (o + bs.length)) := by
    rw [← hadd, List.append_assoc, List.append_assoc]
  refine ⟨?_, fun hall => ?_, d, by simp, rfl, hadd⟩
  · refine .inside pre d (List.prefix_append _ _) hh (by omega) hadd ?_
    rw [htaken, hadd]
  · refine .between (pre ++ [d]) (List.prefix_append _ _) hh ?_
    rw [htaken, hall, ← hbody, List.take_length, List.flatMap_append, List.flatMap_singleton,
      RespHead.wireOfDone]

end ReadPlace

theorem ServedConn.frames_wire {T : Type} (codec : C) (s : ServedConn T R) :
    s.frames codec = s.responses.flatMap (RespHead.wireOfDone codec) := by
  have h : s.writer.conn.frame (R := R) codec = RespHead.wireOfDone codec :=
    funext (RespHead.frame_done codec _)
  rw [ServedConn.frames, h]

end

/-! ## What a step leaves alone -/

theorem AsyncBufStream.unread_readHalf {s s' : AsyncBufStream Sock} (h : s'.readHalf = s.readHalf) :
    s'.unread = s.unread := by
  simp only [readHalf, Sock.readHalf, Prod.mk.injEq] at h
  simp only [unread, avail, h]

/-- The calls of the owner write. -/
theorem Wired.step_readHalf {frame : Task → Bytes × Option Bytes} {ping : Nat → Bytes}
    {w w' : Wired} {a : SendAct} (h : step frame ping w (.snd a) = some w') :
    w'.client.readHalf = w.client.readHalf := by
  have hflush :
      Async.Keeps TcpClient.readHalf (TcpClient.flush_req : Async (TcpClient Sock) IoErr Unit) :=
    TcpClient.writing_keeps AsyncBufStream.flush_keeps
  obtain ⟨conn, -, h⟩ := Option.bind_eq_some_iff.1 h
  simp only at h
  split at h
  case h_1 =>
    cases h
    rfl
  case h_2 x bs hcall =>
    have hk : Async.Keeps TcpClient.readHalf x := by
      unfold call at hcall
      split at hcall <;> cases hcall
      · exact TcpClient.write_req_keeps _ _ _
      · exact TcpClient.write_req_keeps _ _ _
      · exact hflush
      · exact hflush
    have hx := hk w.client
    split at h
    case h_1 => cases h
    case h_2 r client hr =>
      rw [hr] at hx
      split at h <;> cases h
      exact hx

/-- No call completes a task with a response. -/
theorem Conn.send_completed {s s' : Conn} {a : SendAct} (h : s.send a = some s') {id : Nat}
    {f : Frame} (hm : (id, .resp f) ∈ s'.completed) : (id, .resp f) ∈ s.completed := by
  cases send_cases h with
  | @op op =>
    cases op with
    | fail => simpa [Conn.exec] using hm
    | _ => exact hm
  | _ => exact hm

/-! ## The invariant -/

namespace Session

variable {CC CT C T R E : Type} [ServerTaskEncode C R]

/-- A response that was read for a task: its header, and the body, of which the blob is
left out when the task has no field for it. -/
def Answer.Of (codec : C) (d : Done R) (a : Answer) : Prop :=
  a.head = .ofDone codec d ∧
    (a.body = RespHead.bodyOfDone codec d ∨
      0 < a.head.blob_len ∧ a.body = (RespHead.bodyOfDone codec d).take a.head.msg_len)

/-- `encode_resp` kept its part for each response that was sent. -/
def SendsClean (codec : C) (s : Session T R) : Prop :=
  ∀ d ∈ s.served.responses, RespHead.CleanDone codec d

/-- The client is in step with the server, and what it has read are responses. -/
structure Downstream (codec : C) (seq : T → UInt64) (s : Session T R) : Prop where
  sound : s.served.Sound codec
  labelled : s.served.reader.Labelled codec seq
  place : ∀ pc, s.wired.conn.receiver.pc = some pc → pc.Fits ∧ ∃ taken,
    Transit (s.served.responses.flatMap (RespHead.wireOfDone codec)) s.down taken s.stream.unread ∧
      ReadPlace codec s.served.responses s.heads taken s.body pc.inBody
  answers : ∀ a ∈ s.answers, ∃ d ∈ s.served.responses, Answer.Of codec d a
  completed : ∀ id f, (id, .resp f) ∈ s.wired.conn.completed → ∃ body, ⟨id, f, body⟩ ∈ s.answers

variable {codec : C} {seq : T → UInt64} {s s' : Session T R}

theorem connect_downstream (codec : C) (seq : T → UInt64) (p : Setup) :
    Downstream codec seq (connect p : Session T R) where
  sound := ServedConn.server_conn_sound ..
  labelled := ServerReader.new_labelled codec seq
  place := by
    rintro _ ⟨⟩
    exact ⟨trivial, [], .nil, .between [] List.prefix_rfl rfl rfl⟩
  answers := nofun
  completed := nofun

/-- Responses are never taken back. -/
theorem SendsClean.of_step [ClientTaskCommon CT] [ClientTask CC CT] [ServerTaskDecode C T]
    [ServerTaskDone T R E] {cl : Caller CC CT} {a : Act T E} (hclean : SendsClean codec s')
    (h : s.step cl codec a = some s') :
    SendsClean codec s := by
  suffices hr : s.served.responses ⊆ s'.served.responses from fun d hd => hclean d (hr hd)
  cases a with
  | owner a =>
    obtain ⟨buf, -, h⟩ := Option.bind_eq_some_iff.1 h
    obtain ⟨wired, -, ⟨⟩⟩ := Option.bind_eq_some_iff.1 h
    exact List.Subset.refl _
  | receiver a =>
    obtain ⟨⟨body, stream⟩, -, h⟩ := Option.bind_eq_some_iff.1 h
    obtain ⟨conn, -, ⟨⟩⟩ := Option.bind_eq_some_iff.1 h
    exact List.Subset.refl _
  | up | down =>
    cases h
    exact List.Subset.refl _
  | server a =>
    obtain ⟨served, hserved, rfl⟩ := Option.map_eq_some_iff.1 h
    exact (ServedConn.step_responses hserved).subset

/-! ## Steps of the client -/

/-- What is not a header or a part of a body is not read. -/
theorem reads_stays {a : RecvAct} {body : Bytes} {stream : AsyncBufStream Sock}
    (h : s.reads a = some (body, stream)) (hhead : ∀ f, a ≠ .header f) (hpart : ∀ b, a ≠ .part b)
    (hok : a = .cancelled → (AsyncRead.read_exact RPC_RESP_HEADER_LEN s.stream).2.unread = s.stream.unread) :
    body = s.body ∧ stream.unread = s.stream.unread := by
  unfold reads at h
  split at h
  case h_1 => exact absurd rfl (hhead _)
  case h_2 => exact absurd rfl (hpart _)
  case h_3 =>
    split at h <;> cases h
    rename_i hr
    have hsame := hok rfl
    rw [hr] at hsame
    exact ⟨rfl, hsame⟩
  case h_4 =>
    cases h
    exact ⟨rfl, rfl⟩

/-- The coroutine stays where it is in the stream. -/
theorem Downstream.stays (hd : Downstream codec seq s) {wired : Wired}
    (hs : Stays s.wired.conn wired.conn) (hu : wired.client.stream.unread = s.stream.unread)
    (hc : ∀ id f, (id, .resp f) ∈ wired.conn.completed → (id, .resp f) ∈ s.wired.conn.completed)
    (encode_buf : EncodeBuf RPC_REQ_HEADER_LEN) (written : List Request) :
    Downstream codec seq { s with wired := wired, encode_buf := encode_buf, written := written } := by
  refine { hd with place := fun pc' hpc' => ?_, completed := fun id f hm => hd.completed id f (hc id f hm) }
  rcases hs with hnone | ⟨pc, pc'', hpc, hpc'', hin, hfit⟩
  · exact absurd (hnone.symm.trans hpc') nofun
  · cases hpc''.symm.trans hpc'
    obtain ⟨hf, taken, ht, hp⟩ := hd.place pc hpc
    refine ⟨hfit hf, taken, ?_, hin ▸ hp⟩
    show Transit _ _ _ wired.client.stream.unread
    rw [hu]
    exact ht

theorem sees_nil {a : RecvAct} (hhead : ∀ f, a ≠ .header f) : sees a = [] := by
  unfold sees
  split
  · exact absurd rfl (hhead _)
  · rfl

theorem completes_nil {a : RecvAct} (hpart : ∀ b, a ≠ .part b) (body : Bytes) :
    s.completes a body = [] := by
  unfold completes
  split
  · exact absurd rfl (hpart _)
  · rfl

theorem Downstream.header (hd : Downstream codec seq s) {f : Frame} {body : Bytes}
    {stream : AsyncBufStream Sock} {conn : Conn} (hr : s.reads (.header f) = some (body, stream))
    (h : s.wired.conn.recv (.header f) = some conn) :
    Downstream codec seq { s with
      wired := { s.wired with conn := conn, client := s.wired.client.withStream stream }
      heads := s.heads ++ [f]
      body := body } := by
  obtain ⟨⟨c, hs⟩, pc, hpc, hin, hfit⟩ := recv_header h
  simp only [reads, hs] at hr
  split at hr
  case h_2 => cases hr
  case h_1 buf stream' hread =>
  split at hr
  case h_2 => cases hr
  case h_1 head hdec =>
  obtain ⟨rfl, ⟨⟩⟩ := Option.ite_none_right_eq_some.1 hr
  obtain ⟨hlen, hav⟩ := (AsyncBufStream.conserves Sock.conserves).read_exact hread
  refine
    { hd with
      place := fun pc' hpc' => ?_
      completed := fun id g hm => hd.completed id g (recv_completed h nofun hm) }
  cases (show some pc = some pc' by rw [← hpc']; exact (congrArg RecvState.pc hpc).symm)
  obtain ⟨-, taken, ht, hp⟩ := hd.place (.head c) (by rw [hs]; rfl)
  exact ⟨hfit, taken ++ buf, ht.take hav, hin ▸ hp.header ht hav hlen hdec⟩

theorem Downstream.part (hd : Downstream codec seq s) (hclean : SendsClean codec s) {b : Bool}
    {body : Bytes} {stream : AsyncBufStream Sock} {conn : Conn}
    (hr : s.reads (.part b) = some (body, stream)) (h : s.wired.conn.recv (.part b) = some conn) :
    Downstream codec seq { s with
      wired := { s.wired with conn := conn, client := s.wired.client.withStream stream }
      body := body
      answers := s.answers ++ s.completes (.part b) body } := by
  obtain ⟨pc, f, o, hs, hin, hcompleted, hmove⟩ := recv_part h
  obtain ⟨hfit, taken, ht, hp⟩ := hd.place pc (by rw [hs]; rfl)
  obtain ⟨hnext, hfinish⟩ := hmove hfit
  simp only [reads, hs] at hr
  split at hr
  case isTrue => cases hr
  case isFalse =>
  split at hr
  case h_2 => cases hr
  case h_1 bs stream' hread =>
  cases hr
  obtain ⟨hlen, hav⟩ := (AsyncBufStream.conserves Sock.conserves).read_exact hread
  have hle := pc.wants_le hfit hin
  rw [← hlen] at hle hnext hfinish
  rw [hin] at hp
  obtain ⟨hinside, hbetween, d, hd_mem, hhead, hbody⟩ := hp.part hclean ht hav hle
  have hcompletes : s.completes (.part b) (s.body ++ bs) =
      (pc.finishes b).toList.map fun p => ⟨p.1, p.2, s.body ++ bs⟩ := by
    simp only [completes, hs]
  refine { hd with place := fun pc' hpc' => ?_, answers := ?_, completed := fun id g hm => ?_ }
  · have hpc' : conn.receiver.pc = some pc' := hpc'
    rcases hnext with hpanic | ⟨pc'', hpc'', hfit', hwhere⟩
    · rw [hpanic] at hpc'
      cases hpc'
    · rw [hpc''] at hpc'
      cases hpc'
      refine ⟨hfit', taken ++ bs, ht.take hav, ?_⟩
      rcases hwhere with hwhere | ⟨hwhere, hall⟩ <;> rw [hwhere]
      · exact hinside
      · exact hbetween hall
  · rw [hcompletes, List.forall_mem_append]
    refine ⟨hd.answers, ?_⟩
    cases hfin : pc.finishes b with
    | none => exact List.forall_mem_nil _
    | some p =>
      obtain ⟨rfl, hall⟩ := hfinish p.1 p.2 hfin
      rw [Option.toList_some, List.map_singleton, List.forall_mem_singleton]
      refine ⟨d, hd_mem, hhead, ?_⟩
      rcases hall with hall | ⟨hpos, hmsg⟩
      · rw [hall, hhead, Frame.ofDone, ← RespHead.length_bodyOfDone (hclean d hd_mem),
        List.take_length] at hbody
        exact .inl hbody
      · rw [hmsg] at hbody
        exact .inr ⟨hpos, hbody⟩
  · have hm : (id, Conn.Outcome.resp g) ∈ conn.completed := hm
    rw [hcompleted] at hm
    rcases List.mem_append.1 hm with hm | hm
    · obtain ⟨body, hbody⟩ := hd.completed id g hm
      exact ⟨body, List.mem_append_left _ hbody⟩
    · obtain ⟨p, hp, he⟩ := List.mem_map.1 hm
      cases he
      refine ⟨s.body ++ bs, List.mem_append_right _ ?_⟩
      rw [hcompletes]
      exact List.mem_map_of_mem hp

/-! ## Steps of the network and of the server -/

theorem Downstream.down (hd : Downstream codec seq s) (n : Nat) (evs : List ReadEv) :
    let bs := (s.served.sent.drop s.down).take n
    Downstream codec seq { s with
      wired := { s.wired with client := s.wired.client.withStream (s.stream.feed bs evs) }
      down := s.down + bs.length } := by
  refine { hd with place := fun pc hpc => ?_ }
  obtain ⟨hfit, taken, ht, hp⟩ := hd.place pc hpc
  have hsent : s.served.sent <+: s.served.responses.flatMap (RespHead.wireOfDone codec) := by
    rw [← ServedConn.frames_wire]
    exact hd.sound.shown
  refine ⟨hfit, taken, ?_, hp⟩
  show Transit _ _ _ (s.stream.feed _ evs).unread
  rw [AsyncBufStream.unread, AsyncBufStream.avail_feed]
  exact ht.arrive hsent n

/-- The server sends more responses, or none. -/
theorem Downstream.serves (hd : Downstream codec seq s) {served : ServedConn T R}
    (hs : served.Sound codec) (hl : served.reader.Labelled codec seq)
    (hr : s.served.responses <+: served.responses) (up : Nat) :
    Downstream codec seq { s with served := served, up := up } := by
  refine { hd with sound := hs, labelled := hl, place := fun pc hpc => ?_, answers := fun a ha => ?_ }
  · obtain ⟨hfit, taken, ht, hp⟩ := hd.place pc hpc
    refine ⟨hfit, taken, ?_, hp.mono hr⟩
    obtain ⟨more, hmore⟩ := hr
    show Transit (served.responses.flatMap _) _ _ _
    rw [← hmore, List.flatMap_append]
    exact ht.write _
  · obtain ⟨d, hmem, ha⟩ := hd.answers a ha
    exact ⟨d, hr.subset hmem, ha⟩

theorem Downstream.step [ClientTaskCommon CT] [ClientTask CC CT] [ServerTaskDecode C T]
    [ServerTaskDone T R E] {cl : Caller CC CT} (hd : Downstream codec seq s)
    (hclean : SendsClean codec s) (hk : KeepsSeq (R := R) E codec seq) {a : Act T E}
    (hok : fine cl seq s a = true) (h : s.step cl codec a = some s') : Downstream codec seq s' := by
  cases a with
  | owner a =>
    obtain ⟨buf, -, h⟩ := Option.bind_eq_some_iff.1 h
    obtain ⟨wired, hwired, ⟨⟩⟩ := Option.bind_eq_some_iff.1 h
    have hsend : s.wired.conn.send a = some wired.conn := (Wired.step_cases hwired hok).1
    refine hd.stays ?_ (AsyncBufStream.unread_readHalf (Wired.step_readHalf hwired))
      (fun _ _ => send_completed hsend) buf _
    rw [Stays, (send_cases hsend).frame.receiver]
    cases hpc : s.wired.conn.receiver.pc with
    | none => exact .inl rfl
    | some pc => exact .inr ⟨pc, pc, rfl, rfl, rfl, id⟩
  | receiver a =>
    obtain ⟨⟨body, stream⟩, hreads, h⟩ := Option.bind_eq_some_iff.1 h
    obtain ⟨conn, hconn, ⟨⟩⟩ := Option.bind_eq_some_iff.1 h
    by_cases hpart : ∃ b, a = .part b
    · obtain ⟨b, rfl⟩ := hpart
      simp only [sees, List.append_nil]
      exact hd.part hclean hreads hconn
    have hpart : ∀ b, a ≠ .part b := fun b hb => hpart ⟨b, hb⟩
    simp only [completes_nil hpart, List.append_nil]
    by_cases hhead : ∃ f, a = .header f
    · obtain ⟨f, rfl⟩ := hhead
      exact hd.header hreads hconn
    have hhead : ∀ f, a ≠ .header f := fun f hf => hhead ⟨f, hf⟩
    simp only [sees_nil hhead, List.append_nil]
    obtain ⟨rfl, hunread⟩ := reads_stays hreads hhead hpart fun ha => by
      subst ha
      exact beq_iff_eq.1 hok
    exact hd.stays (recv_stays hconn hhead hpart) hunread
      (fun _ _ => recv_completed hconn hpart) s.encode_buf s.written
  | up n evs =>
    cases h
    exact hd.serves (hd.sound.feed _ evs) hd.labelled List.prefix_rfl _
  | down n evs =>
    cases h
    exact hd.down n evs
  | server a =>
    obtain ⟨served, hserved, rfl⟩ := Option.map_eq_some_iff.1 h
    refine hd.serves (hd.sound.step hserved) (ServedConn.labelled_step hd.labelled hk ?_ hserved)
      (ServedConn.step_responses hserved) s.up
    rintro b rfl
    exact hok

end Session

end OccamsRpc
