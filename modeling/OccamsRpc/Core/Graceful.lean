import OccamsRpc.Core.Num
/-!
# The list of listeners a restart hands on

`GracefulServer` keeps the descriptors of its listeners as texts. `restart` joins them
with commas into the environment of the new program, whose `check_recover` splits the
text and parses the parts.
-/

namespace OccamsRpc

/-! ## Numbers as text -/

/-- `i32::to_string` -/
def i32_to_string (n : Int32) : String := toString n.toInt

/-- The digits of a `str::parse::<i32>`: at least one, and no other character. -/
def parse_digits (digits : List Char) : Option Nat :=
  if digits ≠ [] ∧ digits.all Char.isDigit then some (Nat.ofDigitChars 10 digits 0) else none

/-- `str::parse::<i32>`: a sign may be there, and the number has to fit. -/
def parse_i32 (s : String) : Option Int32 :=
  match s.toList with
  | '-' :: digits =>
    (parse_digits digits).bind fun n => if n ≤ 2 ^ 31 then some (Int32.ofInt (-n)) else none
  | '+' :: digits =>
    (parse_digits digits).bind fun n => if n ≤ i32_MAX then some (Int32.ofNat n) else none
  | digits => (parse_digits digits).bind fun n => if n ≤ i32_MAX then some (Int32.ofNat n) else none

/-- `str::split(',')`: one part more than there are commas. -/
def split_commas (s : String) : List String := (s.toList.splitOn ',').map String.ofList

theorem parse_digits_toDigits (n : Nat) : parse_digits (Nat.toDigits 10 n) = some n := by
  have hdigits : (Nat.toDigits 10 n).all Char.isDigit = true :=
    List.all_eq_true.2 fun c hc => Nat.isDigit_of_mem_toDigits (by decide) (by decide) hc
  rw [parse_digits, if_pos ⟨Nat.toDigits_ne_nil, hdigits⟩, Nat.ofDigitChars_ten_toDigits]

/-- A number without a sign is parsed by its digits. -/
theorem parse_i32_toDigits {s : String} {n : Nat} (hs : s.toList = Nat.toDigits 10 n)
    (hn : n ≤ i32_MAX) :
    parse_i32 s = some (Int32.ofNat n) := by
  have hsign : ∀ c rest, Nat.toDigits 10 n = c :: rest → c.isDigit = true := by
    intro c rest h
    refine Nat.isDigit_of_mem_toDigits (b := 10) (n := n) (by decide) (by decide) ?_
    rw [h]
    exact List.mem_cons_self
  unfold parse_i32
  rw [hs]
  split
  case h_1 digits h => cases hsign _ _ h
  case h_2 digits h => cases hsign _ _ h
  case h_3 => rw [parse_digits_toDigits, Option.bind_some, if_pos hn]

theorem toList_i32_to_string (n : Int32) :
    (i32_to_string n).toList =
      if 0 ≤ n.toInt then Nat.toDigits 10 n.toInt.toNat else '-' :: Nat.toDigits 10 (-n.toInt).toNat := by
  rw [i32_to_string, Int.toString_eq_repr, Int.repr_eq_if]
  split
  · rw [Nat.toList_repr]
  · rw [String.toList_append, Nat.toList_repr]
    rfl

theorem parse_i32_to_string (n : Int32) : parse_i32 (i32_to_string n) = some n := by
  have hs := toList_i32_to_string n
  have hlo := n.le_toInt
  have hhi := n.toInt_lt
  by_cases hpos : 0 ≤ n.toInt
  · rw [if_pos hpos] at hs
    have hle : n.toInt.toNat ≤ i32_MAX := by
      unfold i32_MAX
      omega
    rw [parse_i32_toDigits hs hle]
    exact congrArg some (Int32.toInt_inj.1 ((toInt_ofNat_i32.2 hle).trans (Int.toNat_of_nonneg hpos)))
  · rw [if_neg hpos] at hs
    have hle : (-n.toInt).toNat ≤ 2 ^ 31 := by omega
    have hneg : -((-n.toInt).toNat : Int) = n.toInt := by omega
    unfold parse_i32
    rw [hs]
    show (parse_digits _).bind _ = _
    rw [parse_digits_toDigits, Option.bind_some, if_pos hle, hneg, Int32.ofInt_toInt]

theorem comma_notMem_i32_to_string (n : Int32) : ',' ∉ (i32_to_string n).toList := by
  have hdigits : ∀ m, ',' ∉ Nat.toDigits 10 m := by
    intro m hm
    have hdigit : Char.isDigit ',' = true := Nat.isDigit_of_mem_toDigits (by decide) (by decide) hm
    cases hdigit
  rw [toList_i32_to_string]
  split
  · exact hdigits _
  · rw [List.mem_cons]
    rintro (h | h)
    · cases h
    · exact hdigits _ h

/-- What is split where it was joined is what was joined. -/
theorem split_commas_intercalate {l : List String} (hl : ∀ s ∈ l, ',' ∉ s.toList) (hne : l ≠ []) :
    split_commas (",".intercalate l) = l := by
  have hcomma : ",".toList = [','] := rfl
  rw [split_commas, String.toList_intercalate, hcomma, List.splitOn_intercalate]
  · rw [List.map_map]
    exact (List.map_congr_left fun s _ => String.ofList_toList).trans (List.map_id l)
  · intro cs hcs
    obtain ⟨s, hs, rfl⟩ := List.mem_map.1 hcs
    exact hl s hs
  · rwa [ne_eq, List.map_eq_nil_iff]

/-! ## The server -/

/-- What a process knows of its listeners. -/
structure GracefulServer where
  listen_fds : List String
  recovered : Bool
  recover_listen_fds : List Int32

namespace GracefulServer

/-- `check_recover`, on the value of `_GRACEFUL_RESTART`; `none` is a panic. -/
def check_recover (self : GracefulServer) : Option String → Option GracefulServer
  | none => some self
  | some env_recover_fds_str => do
    let fds ← (split_commas env_recover_fds_str).mapM parse_i32
    some { self with recover_listen_fds := self.recover_listen_fds ++ fds, recovered := true }

/-- The server takes over what its parent left in the environment. -/
def new (env : Option String) : Option GracefulServer := check_recover ⟨[], false, []⟩ env

/-- What `restart` prepares: the descriptors that stay open, and the value of
`_GRACEFUL_RESTART`. -/
def restart (self : GracefulServer) : Option (List Int32 × String) := do
  let preserved_fds ← self.listen_fds.mapM parse_i32
  some (preserved_fds, ",".intercalate self.listen_fds)

/-- The descriptors it listens on. -/
def Holds (self : GracefulServer) (fds : List Int32) : Prop :=
  self.listen_fds = fds.map i32_to_string

theorem mapM_parse_i32 (fds : List Int32) : (fds.map i32_to_string).mapM parse_i32 = some fds := by
  induction fds with
  | nil => rfl
  | cons fd fds ih =>
    simp only [List.map_cons, List.mapM_cons, parse_i32_to_string, ih, Option.pure_def, Option.bind_eq_bind,
      Option.bind_some]

theorem Holds.restart {self : GracefulServer} {fds : List Int32} (h : self.Holds fds) :
    self.restart = some (fds, ",".intercalate (fds.map i32_to_string)) := by
  rw [GracefulServer.restart, h, mapM_parse_i32]
  rfl

theorem new_of_fds {fds : List Int32} (hne : fds ≠ []) :
    new (some (",".intercalate (fds.map i32_to_string))) = some ⟨[], true, fds⟩ := by
  have hcommas : ∀ s ∈ fds.map i32_to_string, ',' ∉ s.toList := by
    intro s hs
    obtain ⟨fd, -, rfl⟩ := List.mem_map.1 hs
    exact comma_notMem_i32_to_string fd
  rw [new, check_recover, split_commas_intercalate hcommas (by rwa [ne_eq, List.map_eq_nil_iff]),
    mapM_parse_i32]
  rfl

/-- No descriptor is written as the empty text, which is one part that is no number. -/
theorem new_of_nil : new (some (",".intercalate [])) = none := by
  decide

/-- The new program recovers the list it was handed on, without panicking, exactly if
there is something in the list. -/
theorem recovers_iff {self : GracefulServer} {fds : List Int32} (h : self.Holds fds) :
    (∃ env child, self.restart = some (fds, env) ∧ new (some env) = some child ∧
      child.recover_listen_fds = fds) ↔
      fds ≠ [] := by
  rw [h.restart]
  constructor
  · rintro ⟨env, child, ⟨⟩, hnew, -⟩ rfl
    cases new_of_nil.symm.trans hnew
  · intro hne
    exact ⟨_, _, rfl, new_of_fds hne, rfl⟩

theorem recovers_iff_three :
    ∃ env child, GracefulServer.restart ⟨["3", "10", "7"], false, []⟩ = some ([3, 10, 7], env) ∧
    new (some env) = some child ∧ child.recover_listen_fds = [3, 10, 7] := by
  have holds : Holds ⟨["3", "10", "7"], false, []⟩ [3, 10, 7] := by
    show _ = _
    decide
  exact (recovers_iff holds).2 (by decide)

/-- A parent that has no listener: the new program panics. -/
theorem recover_panics :
    Holds ⟨[], false, []⟩ [] ∧ GracefulServer.restart ⟨[], false, []⟩ = some ([], "") ∧
    new (some "") = none :=
  ⟨rfl, by decide, by decide⟩

end GracefulServer

end OccamsRpc
