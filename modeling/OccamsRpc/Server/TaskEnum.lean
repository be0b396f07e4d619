import OccamsRpc.Lib.Lists
import OccamsRpc.Stream.Frame
/-!
# Enums of server tasks

`#[server_task_enum(req, ..)]` generates `decode_req` and `get_action` of an enum whose
variants each name the actions they are for. The arms of the two are generated apart:
one arm of `decode_req` for each action of a variant, one arm of `get_action` for the
variant. Here the macro is a function from the definition to the arms, and the arms are
given the meaning of the `match` they stand in.
-/
open Lib

namespace OccamsRpc

/-! ## The definition of an enum -/

/-- One of the values in `#[action(..)]`. -/
inductive NestedMeta
  | LitStr (s : String)
  | LitInt (i : Int)
  /-- A path to a variant of an enum that can be cast to a number. -/
  | Path (p : String)
  /-- A literal of another kind, or a nested list. -/
  | Other
  deriving DecidableEq

/-- An attribute of a variant: its name, and its values if they are a list. -/
structure Attribute where
  path : String
  nested : Option (List NestedMeta)

/-- A variant with the types of its tuple, which are known by their texts; one that is
no tuple has none. -/
structure Variant where
  ident : String
  attrs : List Attribute
  fields : List String

/-- The names of the variants of an enum are different. -/
structure EnumDef where
  variants : List Variant
  nodup : (variants.map Variant.ident).Nodup

/-- The arguments of `#[server_task_enum(..)]`. -/
structure ServerTaskEnumAttrs where
  req : Bool
  resp : Bool
  resp_type : Option String
  error : String

/-! ## The code that is generated -/

/-- The pattern of an arm of `decode_req`; that of a path has a guard. -/
inductive ActionPat
  | Str (s : String)
  | Num (n : Int32)
  | NumIf (p : String)

/-- An arm of the generated `decode_req`. -/
structure DecodeArm where
  pat : ActionPat
  inner_type : String
  variant_name : String

/-- The action an arm of `get_action` returns. -/
inductive ActionExpr
  | Str (s : String)
  | Num (n : Int32)
  | NumAs (p : String)

/-- An arm of the generated `get_action`. -/
inductive GetActionArm
  | inner (variant_name : String)
  | const (variant_name : String) (action : ActionExpr)

/-- What the macro generates. -/
structure TaskEnum where
  decode_arms : List DecodeArm
  get_action_arms : List GetActionArm

/-! ## The macro

`none` is a panic of the macro, and so a definition that is not accepted. -/

/-- The values of the first `#[action(..)]` that has any. -/
def get_action_attribute (variant : Variant) : List NestedMeta :=
  (variant.attrs.findSome? fun attr =>
    if attr.path = "action" then attr.nested.bind fun actions => if actions ≠ []
      then some actions else none
    else none).getD []

/-- `base10_parse::<i32>` -/
def base10_parse (i : Int) :
    Option Int32 := if -2 ^ 31 ≤ i ∧ i < 2 ^ 31 then some (Int32.ofInt i) else none

/-- The pattern for an action, as it is written in the attribute. -/
def decode_pat : NestedMeta → Option ActionPat
  | .LitStr s => some (.Str s)
  | .LitInt i => (base10_parse i).map .Num
  | .Path p => some (.NumIf p)
  | .Other => none

def get_action_expr : NestedMeta → Option ActionExpr
  | .LitStr s => some (.Str s)
  | .LitInt i => (base10_parse i).map .Num
  | .Path p => some (.NumAs p)
  | .Other => none

namespace Variant

/-- A variant has to be a tuple with one field. -/
def inner_type (variant : Variant) : Option String :=
  match variant.fields with
  | [ty] => some ty
  | _ => none

def decode_arms (variant : Variant) (inner_type : String) : Option (List DecodeArm) :=
  ((get_action_attribute variant).mapM decode_pat).map fun pats => pats.map fun pat =>
    ⟨pat, inner_type, variant.ident⟩

/-- A variant with several actions asks its inner task. -/
def get_action_arm (variant : Variant) : Option GetActionArm :=
  match get_action_attribute variant with
  | [] => none
  | [action_meta] => (get_action_expr action_meta).map (.const variant.ident)
  | _ => some (.inner variant.ident)

def req_arms (variant : Variant) (inner_type : String) : Option TaskEnum := do
  let decode_arms ← variant.decode_arms inner_type
  let get_action_arm ← variant.get_action_arm
  some ⟨decode_arms, [get_action_arm]⟩

/-- What the macro makes of a variant. For a type that two variants have there could be
no `From`. -/
def expand (has_req : Bool) (inner_types : List String) (variant : Variant) : Option TaskEnum := do
  let inner_type ← variant.inner_type
  let arms ← (if has_req then variant.req_arms inner_type else some ⟨[], []⟩)
  if inner_types.count inner_type = 1 then some arms else none

end Variant

/-- The macro; the response of an enum is the enum itself or the type that is given. -/
def server_task_enum_impl (macro_attrs : ServerTaskEnumAttrs) (ast : EnumDef) :
    Option TaskEnum := do
  let inner_types ← ast.variants.mapM Variant.inner_type
  if macro_attrs.resp = macro_attrs.resp_type.isSome then none
  else do
    let arms ← ast.variants.mapM (Variant.expand macro_attrs.req inner_types)
    some ⟨arms.flatMap TaskEnum.decode_arms, arms.flatMap TaskEnum.get_action_arms⟩

/-! ## What the code means -/

/-- The types that the variants hold, by their text; `get_action` is asked for only
where a variant has several actions. -/
structure InnerTasks (C : Type) where
  Inner : String → Type
  decode_req : (ty : String) → C → RpcAction → UInt64 → Bytes → Option Bytes → Option (Inner ty)
  get_action : (ty : String) → Inner ty → RpcAction

/-- A value of the enum. -/
structure EnumTask (Inner : String → Type) where
  variant_name : String
  inner_type : String
  task : Inner inner_type

/-- `p as i32` of the paths. -/
abbrev PathValues := String → Int32

/-- Whether the generated arm takes an action. -/
def ActionPat.matches (as_i32 : PathValues) : ActionPat → RpcAction → Bool
  | .Str s, .Str t => s == t
  | .Num n, .Num m => n == m
  | .NumIf p, .Num val => val == as_i32 p
  | _, _ => false

def ActionExpr.eval (as_i32 : PathValues) : ActionExpr → RpcAction
  | .Str s => .Str s
  | .Num n => .Num n
  | .NumAs p => .Num (as_i32 p)

def GetActionArm.variant_name : GetActionArm → String
  | .inner variant_name | .const variant_name _ => variant_name

/-- What the generated arm returns. -/
def GetActionArm.eval {C : Type} (tasks : InnerTasks C) (as_i32 : PathValues) {ty : String}
    (task : tasks.Inner ty) :
    GetActionArm → RpcAction
  | .inner _ => tasks.get_action ty task
  | .const _ action => action.eval as_i32

namespace TaskEnum

variable {C : Type}

/-- The generated `decode_req`: the variants whose inner `decode_req` was called, and the
result. -/
def decode_req (self : TaskEnum) (tasks : InnerTasks C) (as_i32 : PathValues) (codec : C)
    (action : RpcAction) (seq : UInt64) (req : Bytes) (blob : Option Bytes) :
    List String × Option (EnumTask tasks.Inner) :=
  match self.decode_arms.find? fun arm => arm.pat.matches as_i32 action with
  | some arm =>
    ([arm.variant_name], (tasks.decode_req arm.inner_type codec action seq req blob).map fun task =>
      ⟨arm.variant_name, arm.inner_type, task⟩)
  | none => ([], none)

/-- The generated `get_action`; `none` would be a `match` without an arm for the value. -/
def get_action (self : TaskEnum) (tasks : InnerTasks C) (as_i32 : PathValues)
    (t : EnumTask tasks.Inner) : Option RpcAction :=
  (self.get_action_arms.find? fun arm => arm.variant_name == t.variant_name).map fun arm =>
    arm.eval tasks as_i32 t.task

end TaskEnum

/-! ## What it is for -/

/-- The value stands for the action. -/
def NestedMeta.denotes (as_i32 : PathValues) : NestedMeta → RpcAction → Bool
  | .LitStr s, .Str t => s == t
  | .LitInt i, .Num n => n.toInt == i
  | .Path p, .Num n => n == as_i32 p
  | _, _ => false

/-- The variant is for the action. -/
def Variant.lists (as_i32 : PathValues) (variant : Variant) (action : RpcAction) : Bool :=
  (get_action_attribute variant).any fun action_meta => action_meta.denotes as_i32 action

/-- A type that is decoded from several actions knows which it was. -/
def InnerTasks.Remembers {C : Type} (tasks : InnerTasks C) (ty : String) : Prop :=
  ∀ codec action seq req blob task, tasks.decode_req ty codec action seq req blob = some task →
    tasks.get_action ty task = action

/-! ## The two passes agree -/

theorem base10_parse_eq {i : Int} {n m : Int32} (h : base10_parse i = some n) :
    n = m ↔ m.toInt = i := by
  obtain ⟨⟨hlo, hhi⟩, ⟨⟩⟩ := Option.ite_none_right_eq_some.1 h
  rw [← Int32.toInt_inj, Int32.toInt_ofInt_of_le hlo hhi]
  exact eq_comm

section
variable {as_i32 : PathValues} {action : RpcAction}

/-- A pattern matches what its value stands for. -/
theorem decode_pat_matches {action_meta : NestedMeta} {pat : ActionPat}
    (h : decode_pat action_meta = some pat) :
    pat.matches as_i32 action = action_meta.denotes as_i32 action := by
  cases action_meta with
  | LitStr s =>
    cases h
    cases action <;> rfl
  | LitInt i =>
    obtain ⟨n, hn, rfl⟩ := Option.map_eq_some_iff.1 h
    cases action with
    | Str t => rfl
    | Num m =>
      rw [Bool.eq_iff_iff]
      simp only [ActionPat.matches, NestedMeta.denotes, beq_iff_eq]
      exact base10_parse_eq hn
  | Path p =>
    cases h
    cases action <;> rfl
  | Other => cases h

/-- And the action that is returned for a value is one it stands for. -/
theorem get_action_expr_eval {action_meta : NestedMeta} {e : ActionExpr}
    (h : get_action_expr action_meta = some e) (hd : action_meta.denotes as_i32 action = true) :
    e.eval as_i32 = action := by
  cases action_meta with
  | LitStr s =>
    cases h
    cases action with
    | Str t => exact congrArg RpcAction.Str (beq_iff_eq.1 hd)
    | Num m => cases hd
  | LitInt i =>
    obtain ⟨n, hn, rfl⟩ := Option.map_eq_some_iff.1 h
    cases action with
    | Str t => cases hd
    | Num m => exact congrArg RpcAction.Num ((base10_parse_eq hn).2 (beq_iff_eq.1 hd))
  | Path p =>
    cases h
    cases action with
    | Str t => cases hd
    | Num m => exact congrArg RpcAction.Num (beq_iff_eq.1 hd).symm
  | Other => cases h

theorem any_matches {metas : List NestedMeta} {pats : List ActionPat}
    (h : List.Forall₂ (fun action_meta pat => decode_pat action_meta = some pat) metas pats) :
    (pats.any fun pat => pat.matches as_i32 action) =
      metas.any fun action_meta => action_meta.denotes as_i32 action := by
  induction h with
  | nil => rfl
  | cons hpat _ ih => rw [List.any_cons, List.any_cons, decode_pat_matches hpat, ih]

/-- What an arm delegates to. -/
def DecodeArm.target (arm : DecodeArm) : String × String := (arm.variant_name, arm.inner_type)

namespace Variant

variable {v : Variant} {ty : String} {inner_types : List String} {e : TaskEnum}

/-- Of the arms of a variant one matches if the variant is for the action. -/
theorem find_decode_arms {arms : List DecodeArm} (h : v.decode_arms ty = some arms) :
    (arms.find? fun arm => arm.pat.matches as_i32 action).map DecodeArm.target =
      if v.lists as_i32 action then some (v.ident, ty) else none := by
  obtain ⟨pats, hpats, rfl⟩ := Option.map_eq_some_iff.1 h
  have hany : (pats.any fun pat => pat.matches as_i32 action) = v.lists as_i32 action :=
    any_matches (forall₂_of_mapM hpats)
  rw [List.find?_map, Option.map_map, ← hany]
  cases hfind :
    pats.find? ((fun arm : DecodeArm => arm.pat.matches as_i32 action) ∘ fun pat => ⟨pat, ty,
      v.ident⟩) with
  | none =>
    rw [if_neg]
    · rfl
    · intro htrue
      obtain ⟨pat, hpat, hm⟩ := List.any_eq_true.1 htrue
      exact List.find?_eq_none.1 hfind pat hpat hm
  | some pat =>
    rw [if_pos]
    · rfl
    · have hm := List.find?_some hfind
      exact List.any_eq_true.2 ⟨pat, List.mem_of_find?_eq_some hfind, hm⟩

theorem expand_req (h : v.expand true inner_types = some e) :
    ∃ ty arms arm, v.inner_type = some ty ∧ v.decode_arms ty = some arms ∧
      v.get_action_arm = some arm ∧ e = ⟨arms, [arm]⟩ := by
  obtain ⟨ty, hty, h⟩ := Option.bind_eq_some_iff.1 h
  obtain ⟨arms, harms, h⟩ := Option.bind_eq_some_iff.1 h
  obtain ⟨-, ⟨⟩⟩ := Option.ite_none_right_eq_some.1 h
  rw [if_pos rfl] at harms
  obtain ⟨decode_arms, hdecode, harms⟩ := Option.bind_eq_some_iff.1 harms
  obtain ⟨arm, harm, ⟨⟩⟩ := Option.bind_eq_some_iff.1 harms
  exact ⟨ty, decode_arms, arm, hty, hdecode, harm, rfl⟩

/-- The arm of `get_action` is that of the variant. -/
theorem get_action_arm_name {arm : GetActionArm} (h : v.get_action_arm = some arm) :
    arm.variant_name = v.ident := by
  unfold get_action_arm at h
  split at h
  · cases h
  · obtain ⟨_, -, rfl⟩ := Option.map_eq_some_iff.1 h
    rfl
  · cases h
    rfl

/-- A variant with one action returns that; one with several asks its task. -/
theorem get_action_arm_eval {C : Type} {tasks : InnerTasks C} (hl : v.lists as_i32 action = true)
    (hinner : 1 < (get_action_attribute v).length → tasks.Remembers ty) {codec : C} {seq : UInt64}
    {req : Bytes} {blob : Option Bytes} {task : tasks.Inner ty}
    (htask : tasks.decode_req ty codec action seq req blob = some task) {arm : GetActionArm}
    (harm : v.get_action_arm = some arm) : arm.eval tasks as_i32 task = action := by
  rw [lists] at hl
  rw [get_action_arm] at harm
  rcases hactions : get_action_attribute v with _ | ⟨action_meta, _ | ⟨next, rest⟩⟩ <;>
    rw [hactions] at harm hl hinner
  · cases harm
  · obtain ⟨e, he, rfl⟩ := Option.map_eq_some_iff.1 harm
    rw [List.any_cons, List.any_nil, Bool.or_false] at hl
    exact get_action_expr_eval he hl
  · cases harm
    exact hinner (Nat.succ_lt_succ (Nat.succ_pos _)) codec action seq req blob task htask

end Variant

section
variable {inner_types : List String} {vs : List Variant} {es : List TaskEnum}

theorem expanded_of_mem (h : List.Forall₂ (fun v e => v.expand true inner_types = some e) vs es)
    {v : Variant} (hv : v ∈ vs) :
    ∃ ty arm, v.inner_type = some ty ∧ v.get_action_arm = some arm := by
  induction h with
  | nil => cases hv
  | cons hw _ ih =>
    rcases List.mem_cons.1 hv with rfl | hv
    · obtain ⟨ty, -, arm, hty, -, harm, -⟩ := Variant.expand_req hw
      exact ⟨ty, arm, hty, harm⟩
    · exact ih hv

/-- The first arm that matches is one of the first variant that is for the action. -/
theorem find_flatMap_decode_arms
    (h : List.Forall₂ (fun v e => v.expand true inner_types = some e) vs es) :
    ((es.flatMap TaskEnum.decode_arms).find? fun arm => arm.pat.matches as_i32 action).map DecodeArm.target =
      (vs.find? fun v => v.lists as_i32 action).bind fun v => v.inner_type.map fun ty => (v.ident, ty) := by
  induction h with
  | nil => rfl
  | @cons v e vs es hv _ ih =>
    obtain ⟨ty, arms, arm, hty, harms, -, rfl⟩ := Variant.expand_req hv
    have hfirst : (arms.find? fun arm => arm.pat.matches as_i32 action).map DecodeArm.target =
        if v.lists as_i32 action then some (v.ident, ty) else none := Variant.find_decode_arms harms
    rw [List.flatMap_cons, List.find?_append, List.find?_cons]
    cases hl : v.lists as_i32 action with
    | true =>
      rw [hl, if_pos rfl] at hfirst
      obtain ⟨found, hfound, htarget⟩ := Option.map_eq_some_iff.1 hfirst
      rw [hfound, Option.some_or, Option.map_some, htarget, Option.bind_some, hty]
      rfl
    | false =>
      rw [hl, if_neg (by decide), Option.map_eq_none_iff] at hfirst
      rw [hfirst, Option.none_or]
      exact ih

/-- Each variant has one arm in `get_action`, its own. -/
theorem find_flatMap_get_action_arms
    (h : List.Forall₂ (fun v e => v.expand true inner_types = some e) vs es)
    (hnd : (vs.map Variant.ident).Nodup) {v : Variant} (hv : v ∈ vs) :
    ((es.flatMap TaskEnum.get_action_arms).find? fun arm => arm.variant_name == v.ident) =
      v.get_action_arm := by
  induction h with
  | nil => cases hv
  | @cons w e vs es hw _ ih =>
    obtain ⟨hnot, hnd⟩ := List.nodup_cons.1 hnd
    obtain ⟨-, -, arm, -, -, harm, rfl⟩ := Variant.expand_req hw
    have hname := Variant.get_action_arm_name harm
    rw [List.flatMap_cons, List.find?_append, List.find?_singleton, hname]
    rcases List.mem_cons.1 hv with rfl | hv
    · rw [if_pos (beq_self_eq_true _), Option.some_or, harm]
    · have hne : w.ident ≠ v.ident := by
        intro he
        exact hnot (he ▸ List.mem_map_of_mem hv)
      rw [if_neg (by rwa [beq_iff_eq]), Option.none_or]
      exact ih hnd hv

end

namespace TaskEnum

variable {C : Type} (self : TaskEnum) (tasks : InnerTasks C) (codec : C) (seq : UInt64)
  (req : Bytes) (blob : Option Bytes)

theorem decode_req_some {name ty : String}
    (h : (self.decode_arms.find? fun arm => arm.pat.matches as_i32 action).map DecodeArm.target =
      some (name, ty)) :
    self.decode_req tasks as_i32 codec action seq req blob =
      ([name], (tasks.decode_req ty codec action seq req blob).map fun task => ⟨name, ty, task⟩) := by
  obtain ⟨arm, harm, ⟨⟩⟩ := Option.map_eq_some_iff.1 h
  rw [decode_req, harm]

theorem decode_req_none
    (h : (self.decode_arms.find? fun arm => arm.pat.matches as_i32 action).map DecodeArm.target = none) :
    self.decode_req tasks as_i32 codec action seq req blob = ([], none) := by
  rw [decode_req, Option.map_eq_none_iff.1 h]

end TaskEnum

/-- What the macro generates for requests, variant by variant. -/
theorem server_task_enum_impl_req {macro_attrs : ServerTaskEnumAttrs}
    (hreq : macro_attrs.req = true) {ast : EnumDef} {code : TaskEnum}
    (h : server_task_enum_impl macro_attrs ast = some code) :
    ∃ inner_types es, List.Forall₂ (fun v e => Variant.expand true inner_types v = some e) ast.variants es ∧
      code = ⟨es.flatMap TaskEnum.decode_arms, es.flatMap TaskEnum.get_action_arms⟩ := by
  obtain ⟨inner_types, -, h⟩ := Option.bind_eq_some_iff.1 h
  obtain ⟨-, h⟩ := Option.ite_none_left_eq_some.1 h
  obtain ⟨es, hes, ⟨⟩⟩ := Option.bind_eq_some_iff.1 h
  rw [hreq] at hes
  exact ⟨inner_types, es, forall₂_of_mapM hes, rfl⟩

/-- For every enum that is accepted: `decode_req` calls that of the first variant that is
for the action, and no other; and `get_action` of what it returns is the action. -/
theorem decode_and_get_action_agree {C : Type} (tasks : InnerTasks C) (as_i32 : PathValues)
    {macro_attrs : ServerTaskEnumAttrs} (hreq : macro_attrs.req = true) {ast : EnumDef}
    {code : TaskEnum} (h : server_task_enum_impl macro_attrs ast = some code)
    (hinner : ∀ v ∈ ast.variants, 1 < (get_action_attribute v).length →
      ∀ ty, v.inner_type = some ty → tasks.Remembers ty)
    (codec : C) (action : RpcAction) (seq : UInt64) (req : Bytes) (blob : Option Bytes) :
    (∀ v, (ast.variants.find? fun v => v.lists as_i32 action) = some v → ∃ ty, v.inner_type = some ty ∧
      code.decode_req tasks as_i32 codec action seq req blob =
        ([v.ident], (tasks.decode_req ty codec action seq req blob).map fun task => ⟨v.ident, ty, task⟩)) ∧
    ((∀ v ∈ ast.variants, v.lists as_i32 action = false) →
      code.decode_req tasks as_i32 codec action seq req blob = ([], none)) ∧
    ∀ t, (code.decode_req tasks as_i32 codec action seq req blob).2 = some t →
      code.get_action tasks as_i32 t = some action := by
  obtain ⟨inner_types, es, hes, rfl⟩ := server_task_enum_impl_req hreq h
  have hfind :
      ((es.flatMap TaskEnum.decode_arms).find? fun arm => arm.pat.matches as_i32 action).map
        DecodeArm.target =
      (ast.variants.find? fun v => v.lists as_i32 action).bind fun v =>
        v.inner_type.map fun ty => (v.ident, ty) :=
    find_flatMap_decode_arms hes
  have hsome : ∀ v, (ast.variants.find? fun v => v.lists as_i32 action) = some v →
      ∃ ty, v.inner_type = some ty ∧
      TaskEnum.decode_req ⟨es.flatMap TaskEnum.decode_arms, es.flatMap TaskEnum.get_action_arms⟩
      tasks as_i32 codec action seq
        req blob =
          ([v.ident], (tasks.decode_req ty codec action seq req blob).map fun task => ⟨v.ident,
          ty, task⟩) := by
    intro v hv
    obtain ⟨ty, -, hty, -⟩ := expanded_of_mem hes (List.mem_of_find?_eq_some hv)
    rw [hv, Option.bind_some, hty] at hfind
    exact ⟨ty, hty, TaskEnum.decode_req_some _ tasks codec seq req blob hfind⟩
  refine ⟨hsome, fun hnone => ?_, fun t ht => ?_⟩
  · have hv : (ast.variants.find? fun v => v.lists as_i32 action) = none :=
      List.find?_eq_none.2 fun v hv => Bool.eq_false_iff.1 (hnone v hv)
    rw [hv] at hfind
    exact TaskEnum.decode_req_none _ tasks codec seq req blob hfind
  · cases hv : ast.variants.find? fun v => v.lists as_i32 action with
    | none =>
      rw [hv] at hfind
      rw [TaskEnum.decode_req_none _ tasks codec seq req blob hfind] at ht
      cases ht
    | some v =>
      obtain ⟨ty, hty, heq⟩ := hsome v hv
      rw [heq] at ht
      obtain ⟨task, htask, rfl⟩ := Option.map_eq_some_iff.1 ht
      have hmem := List.mem_of_find?_eq_some hv
      have hlists := List.find?_some hv
      obtain ⟨-, arm, -, harm⟩ := expanded_of_mem hes hmem
      rw [TaskEnum.get_action, find_flatMap_get_action_arms hes ast.nodup hmem, harm, Option.map_some]
      exact congrArg some (Variant.get_action_arm_eval hlists
        (fun hlen => hinner v hmem hlen ty hty) htask harm)

end

/-! ## The tasks that come with the framework -/

/-- An action that a task can keep. -/
inductive RpcActionOwned
  | Str (s : String)
  | Num (n : Int32)
  deriving DecidableEq

def RpcAction.into : RpcAction → RpcActionOwned
  | .Str s => .Str s
  | .Num n => .Num n

def RpcActionOwned.to_action : RpcActionOwned → RpcAction
  | .Str s => .Str s
  | .Num n => .Num n

theorem to_action_into (action : RpcAction) : action.into.to_action = action := by
  cases action <;> rfl

/-- `ServerTaskVariant` as it is decoded, before there is a result. -/
structure DecodedTask (M : Type) where
  seq : UInt64
  action : RpcActionOwned
  msg : M
  blob : Option Bytes

/-- `ServerTaskVariantFull` as it is decoded, before there is a response. -/
structure DecodedTaskFull (R P : Type) where
  seq : UInt64
  action : RpcActionOwned
  req : R
  req_blob : Option Bytes
  resp : Option P
  resp_blob : Option Bytes

section
variable {C M R P : Type}

def ServerTaskVariant.decode_req [Serde C M] (codec : C) (action : RpcAction) (seq : UInt64)
    (msg : Bytes) (blob : Option Bytes) : Option (DecodedTask M) :=
  (Serde.decode codec msg).map fun req => ⟨seq, action.into, req, blob⟩

def ServerTaskVariantFull.decode_req [Serde C R] (codec : C) (action : RpcAction) (seq : UInt64)
    (msg : Bytes) (blob : Option Bytes) : Option (DecodedTaskFull R P) :=
  (Serde.decode codec msg).map fun req => ⟨seq, action.into, req, blob, none, none⟩

def DecodedTask.get_action (t : DecodedTask M) : RpcAction := t.action.to_action

def DecodedTaskFull.get_action (t : DecodedTaskFull R P) : RpcAction := t.action.to_action

/-- Enums whose variants are `ServerTaskVariant`s. -/
def InnerTasks.variant (C M : Type) [Serde C M] : InnerTasks C where
  Inner _ := DecodedTask M
  decode_req _ := ServerTaskVariant.decode_req
  get_action _ := DecodedTask.get_action

def InnerTasks.variantFull (C R P : Type) [Serde C R] : InnerTasks C where
  Inner _ := DecodedTaskFull R P
  decode_req _ := ServerTaskVariantFull.decode_req
  get_action _ := DecodedTaskFull.get_action

theorem InnerTasks.variant_remembers [Serde C M] (ty : String) :
    (InnerTasks.variant C M).Remembers ty := by
  intro codec action seq req blob task h
  obtain ⟨msg, -, rfl⟩ := Option.map_eq_some_iff.1 h
  exact to_action_into action

theorem InnerTasks.variantFull_remembers [Serde C R] (ty : String) :
    (InnerTasks.variantFull C R P).Remembers ty := by
  intro codec action seq req blob task h
  obtain ⟨msg, -, rfl⟩ := Option.map_eq_some_iff.1 h
  exact to_action_into action

end

/-- Two variants for the number 1: by a literal among several values, and by a path. -/
def sampleEnum : EnumDef where
  variants := [⟨"TaskA", [⟨"action", some [.LitInt 1, .LitStr "a"]⟩], ["A"]⟩,
    ⟨"TaskB", [⟨"action", some [.Path "B"]⟩], ["B"]⟩]
  nodup := by decide

theorem decode_and_get_action_agree_overlap :
    ∃ code, server_task_enum_impl ⟨true, false, some "Resp", "E"⟩ sampleEnum = some code ∧
      ∃ t, code.decode_req (.variant Unit (UInt8 × Option UInt8)) (fun _ => 1) () (.Num 1) 7
      [0x92, 3, 4] none =
        (["TaskA"], some t) ∧
        code.get_action (.variant Unit (UInt8 × Option UInt8)) (fun _ => 1) t = some (.Num 1) := by
  have hreq : (⟨true, false, some "Resp", "E"⟩ : ServerTaskEnumAttrs).req = true := rfl
  have hcode : server_task_enum_impl ⟨true, false, some "Resp", "E"⟩ sampleEnum = some _ := rfl
  have hagree := decode_and_get_action_agree (.variant Unit (UInt8 × Option UInt8)) (fun _ => 1) hreq hcode
    (fun _ _ _ ty _ => InnerTasks.variant_remembers ty) () (.Num 1) 7 [0x92, 3, 4] none
  exact ⟨_, hcode, _, rfl, hagree.2.2 _ rfl⟩

end OccamsRpc
