import Skirmish.Proofs.Formula.Environment

/-!
# Expressions as programs of calls

An evaluation learns of a world and changes it by calls. A `Program` says which calls these are,
apart from any world: each call, and how it goes on after each answer.

1. `run_eq`: a function checks its arguments, and then has its value, asks for one call, or asks for
   arguments that wait (`Demand`).
2. `Expr.program` is the program of an expression.
3. `run_program`: run in a world, it ends as the evaluation of the expression ends there, whatever
   the world. `resolve_recording`: and what the evaluation does there, written down as it is done,
   are the actions among the calls that `Program.run` lists.
-/

namespace Skirmish.Formula

open Evaluation (nested lift ask perform)

variable {σ α β : Type}

/-! ## Calls -/

/-- A call of a world. -/
inductive Call
  | entityExists (name : String)
  | players
  | activePlayers
  | stat (entity stat : String)
  | harm (target source type : String) (amount : Float)
  | heal (target source : String) (amount : Float)
  | cast (caster target skill : String)
  | inflict (target source status : String) (duration : Float) (values : List Float)
  | roll (upper : UInt32)

/-- What a call is answered with. An action is answered with its fault, if it fails. -/
abbrev Call.Answer : Call → Type
  | entityExists _ => Bool
  | players | activePlayers => List String
  | stat _ _ => Except EvalError Float
  | harm _ _ _ _ | heal _ _ _ | cast _ _ _ | inflict _ _ _ _ _ => Except EvalError Unit
  | roll _ => UInt32

/-- How an action ends, and the state after it. -/
def ending (act : Action σ Unit) (s : σ) : Except EvalError Unit × σ :=
  match act s with
  | .ok _ t => (.ok (), t)
  | .error e t => (.error e, t)

/-- The answer of a world to a call, and the state after it. -/
def World.answer (w : World σ) : (c : Call) → σ → c.Answer × σ
  | .entityExists name => fun s => (w.entityExists s name, s)
  | .players => fun s => (w.players s, s)
  | .activePlayers => fun s => (w.activePlayers s, s)
  | .stat entity stat => fun s => (w.stat s entity stat, s)
  | .harm target source type amount => ending (w.harm target source type amount)
  | .heal target source amount => ending (w.heal target source amount)
  | .cast caster target skill => ending (w.cast caster target skill)
  | .inflict target source status duration values =>
    ending (w.inflict target source status duration values)
  | .roll upper => w.roll upper

/-- A call, as a step of an evaluation that never fails. -/
def World.reply (w : World σ) (c : Call) : Action (Evaluation σ) c.Answer :=
  perform fun s => .ok (w.answer c s).1 (w.answer c s).2

/-! ## Programs -/

/-- A value or a fault, or a call and how to go on after each answer. -/
inductive Program (α : Type)
  | done (a : α)
  | fault (e : EvalError)
  | call (c : Call) (next : c.Answer → Program α)

namespace Program

/-- The calls that a program makes in a world, one after the other, and how it ends there. -/
def run (w : World σ) : Program α → σ → List Call × EStateM.Result EvalError σ α
  | done a, s => ([], .ok a s)
  | fault e, s => ([], .error e s)
  | call c next, s =>
    let (calls, r) := run w (next (w.answer c s).1) (w.answer c s).2
    (c :: calls, r)

/-- Goes on with the value of a program. -/
def bind (k : α → Program β) : Program α → Program β
  | done a => k a
  | fault e => fault e
  | call c next => call c fun a => bind k (next a)

/-- Goes on with the fault of a program. -/
def orElse (k : EvalError → Program α) : Program α → Program α
  | done a => done a
  | fault e => k e
  | call c next => call c fun a => orElse k (next a)

instance : Monad Program where
  pure := done
  bind p k := bind k p

/-- A value or a fault. -/
def ofExcept : Except EvalError α → Program α
  | .ok a => done a
  | .error e => fault e

/-- A program at depth `d`, refused at the limit. -/
def nested (d : Nat) (p : Program α) : Program α :=
  if Evaluation.limit ≤ d then fault (.recursionLimit Evaluation.limit) else p

/-- What a program does in a world, as a step of an evaluation. -/
def enact (w : World σ) (p : Program α) : Action (Evaluation σ) α := perform fun s => (p.run w s).2

end Program

/-- An argument of a call of a function: a value, or the program of an expression that waits. -/
inductive Part
  | value (v : Value)
  | waiting (p : Program Value)

namespace Part

/-- The value of an argument that does not wait. -/
def value? : Part → Option Value
  | value v => some v
  | waiting _ => none

/-- The program of an argument. -/
def force : Part → Program Value
  | value v => .done v
  | waiting p => p

/-- The argument of which the program runs in a world. -/
def arg (w : World σ) : Part → Arg σ
  | value v => .value v
  | waiting p => .deferred (p.enact w)

end Part

/-! ## What functions ask for -/

/-- What a function wants once its arguments are checked. -/
inductive Demand
  /-- nothing: this is its value -/
  | answer (v : Value)
  /-- a call, of whose answer it makes its value -/
  | call (c : Call) (make : c.Answer → Except EvalError Value)
  /-- the argument at `i` -/
  | argument (i : Nat)
  /-- its arguments in turn, until one succeeds -/
  | inTurn

namespace Function

/-- The value of the argument at `i`, of the values that do not wait. -/
def read (f : Function) (given : List (Option Value)) (i : Nat) : Except EvalError Value :=
  match given[i]?.join with
  | some v => .ok v
  | none => .error (.arity f.name given.length)

/-- The values of all arguments. -/
def readAll (f : Function) (given : List (Option Value)) : Except EvalError (List Value) :=
  (List.range given.length).mapM (f.read given)

/-- All arguments, as numbers. -/
def readNumbers (f : Function) (given : List (Option Value)) : Except EvalError (List Float) :=
  (List.range given.length).mapM fun i => do (← f.read given i).asNumber

/-- What a function wants, given the arguments that do not wait. -/
def demand (f : Function) (given : List (Option Value)) : Except EvalError Demand :=
  match f.rule with
  | .largest => do return .answer (.number (largest (← f.readNumbers given)))
  | .smallest => do return .answer (.number (smallest (← f.readNumbers given)))
  | .magnitude => do
    let x ← (← f.read given 0).asNumber
    return .answer (.number x.abs)
  | .nonNegative => do
    let x ← (← f.read given 0).asNumber
    return .answer (.number (if x > 0 then x else 0))
  | .random => do
    let low := (← (← f.read given 0).asNumber).floor
    let high := (← (← f.read given 1).asNumber).floor
    if high > low then
      return .call (.roll (rollSpan low high)) fun n => .ok (.number (low + UInt32.toFloat n))
    else return .answer (.number low)
  | .harm => do
    let target ← (← f.read given 0).asKey
    let source ← (← f.read given 1).asKey
    let type ← (← f.read given 2).asKey
    let amount ← (← f.read given 3).asNumber
    return .call (.harm target source type amount) fun x => x.map fun _ => .null
  | .heal => do
    let target ← (← f.read given 0).asKey
    let source ← (← f.read given 1).asKey
    let amount ← (← f.read given 2).asNumber
    return .call (.heal target source amount) fun x => x.map fun _ => .null
  | .array => do return .answer (.array (← f.readAll given))
  | .players => return .call .players fun names => .ok (.array (names.map .entity))
  | .activePlayers => return .call .activePlayers fun names => .ok (.array (names.map .entity))
  | .stat => do
    let entity ← (← f.read given 0).asEntity
    let stat ← (← f.read given 1).asKey
    return .call (.stat entity stat) fun x => x.map .number
  | .choose => do
    if ← (← f.read given 0).asBoolean then return .argument 1 else return .argument 2
  | .pick => do
    let items ← (← f.read given 0).asArray
    if items.isEmpty then throw .emptyArray
    else
      return .call (.roll (UInt32.ofNat (min items.length 4294967295))) fun n =>
        .ok (items.getD (UInt32.toNat n) .null)
  | .chance => do
    let percent ← (← f.read given 0).asNumber
    return .call (.roll 1000) fun n => .ok (.boolean (rollSucceeds n percent))
  | .cast => do
    let caster ← (← f.read given 0).asEntity
    let target ← (← f.read given 1).asEntity
    let skill ← (← f.read given 2).asKey
    return .call (.cast caster target skill) fun x => x.map fun _ => .null
  | .modifier => do
    let stat ← (← f.read given 0).asKey
    let amount ← (← f.read given 1).asNumber
    return .answer (.modifier stat amount)
  | .inflict => do
    let target ← (← f.read given 0).asEntity
    let source ← (← f.read given 1).asEntity
    let status ← (← f.read given 2).asKey
    let duration ← (← f.read given 3).asNumber
    let values ← Value.numbers (← (← f.read given 4).asArray)
    return .call (.inflict target source status duration values) fun x => x.map fun _ => .null
  | .total => do return .answer (.number ((← f.readNumbers given).foldl (· + ·) 0))
  | .larger => do
    let x ← (← f.read given 0).asNumber
    let y ← (← f.read given 1).asNumber
    return .answer (.number (if y > x then y else x))
  | .firstSuccess => return .inTurn
  | .swap => do
    let a ← f.read given 0
    let b ← f.read given 1
    return .answer (.array [b, a])

end Function

/-- Meets the demand of a function in a world. -/
def Demand.meet (w : World σ) (f : Function) (args : List (Arg σ)) :
    Demand → Action (Evaluation σ) Value
  | answer v => pure v
  | call c make => do lift (make (← w.reply c))
  | argument i => (args.getD i (.value .null)).force
  | inTurn => Function.firstSuccess (.arity f.name args.length) args

section Demands

variable (w : World σ) (f : Function) (args : List (Arg σ))

theorem read_eq_eager : f.read (args.map Arg.value?) = f.eager args := by
  funext i
  unfold Function.read Function.eager
  rw [List.getElem?_map, List.length_map]
  cases args[i]? <;> rfl

theorem lift_bind (x : Except EvalError α) (k : α → Except EvalError β) :
    (lift (x >>= k) : Action (Evaluation σ) β) = lift x >>= fun a => lift (k a) := by
  cases x <;> rfl

theorem lift_pure (a : α) : (lift (pure a) : Action (Evaluation σ) α) = pure a := rfl

theorem lift_map (x : Except EvalError α) (k : α → β) :
    (lift (x.map k) : Action (Evaluation σ) β) = lift x >>= fun a => pure (k a) := by
  cases x <;> rfl

/-- Of an action that is answered with how it ends, the function makes nothing but its fault. -/
theorem perform_eq_ending (act : Action σ Unit) (v : Value) :
    (perform act >>= fun _ => pure v) =
      (perform fun s => .ok (ending act s).1 (ending act s).2) >>= fun x =>
        lift (x.map fun _ => v) := by
  funext s
  show EStateM.bind _ _ s = EStateM.bind _ _ s
  unfold EStateM.bind perform ending
  dsimp only
  cases act s.state <;> rfl

/-- **Demands.** A function checks its arguments and then does what its demand needs. -/
theorem run_eq : f.run w args =
    lift (f.demand (args.map Arg.value?)) >>= fun demand => demand.meet w f args := by
  unfold Function.run Function.demand Function.readNumbers Function.readAll Function.eagerNumbers
    Function.eagerValues
  rw [read_eq_eager, List.length_map]
  cases f.rule
  all_goals simp only [lift_bind, lift_pure, bind_assoc, pure_bind, Demand.meet]
  -- Both sides make the same checks first.
  all_goals repeat' refine bind_congr fun _ => ?_
  case harm | heal | cast | inflict => exact perform_eq_ending _ _
  case players | activePlayers | chance => rfl
  case random | choose | pick => split <;> rfl
  case stat => exact (lift_map _ _).symm

end Demands

/-! ## Programs of functions -/

/-- The arguments in turn, until one succeeds; `last` is the fault if none does. -/
def Program.firstSuccess (last : EvalError) : List Part → Program Value
  | [] => fault last
  | a :: rest => orElse (fun e => firstSuccess e rest) a.force

/-- How the demand of a function is met. -/
def Demand.program (f : Function) (parts : List Part) : Demand → Program Value
  | answer v => .done v
  | call c make => .call c fun a => .ofExcept (make a)
  | argument i => (parts.getD i (.value .null)).force
  | inTurn => .firstSuccess (.arity f.name parts.length) parts

/-- The program of a call with as many arguments as the function takes. -/
def Function.program (f : Function) (parts : List Part) : Program Value :=
  if f.arity.accepts parts.length then do
    let demand ← .ofExcept (f.demand (parts.map Part.value?))
    demand.program f parts
  else .fault (.arity f.name parts.length)

section Enactment

variable (w : World σ)

theorem enact_call (c : Call) (next : c.Answer → Program α) :
    (Program.call c next).enact w = w.reply c >>= fun a => (next a).enact w := rfl

theorem enact_ofExcept (x : Except EvalError α) : (Program.ofExcept x).enact w = lift x := by
  cases x <;> rfl

theorem enact_bind (p : Program α) (k : α → Program β) :
    (p >>= k).enact w = p.enact w >>= fun a => (k a).enact w := by
  show (p.bind k).enact w = _
  induction p with
  | done a => exact (pure_bind a fun a => (k a).enact w).symm
  | fault e => rfl
  | call c next ih =>
    rw [Program.bind, enact_call, enact_call, bind_assoc]
    exact bind_congr ih

theorem enact_orElse (p : Program α) (k : EvalError → Program α) (s : Evaluation σ) :
    (p.orElse k).enact w s =
      match p.enact w s with
      | .ok a t => .ok a t
      | .error e t => (k e).enact w t := by
  induction p generalizing s with
  | done a => rfl
  | fault e => rfl
  | call c next ih =>
    rw [Program.orElse, enact_call, enact_call]
    exact ih _ _

theorem value?_arg (a : Part) : (a.arg w).value? = a.value? := by cases a <;> rfl

theorem force_arg (a : Part) : (a.arg w).force = a.force.enact w := by cases a <;> rfl

theorem force_getD_args (parts : List Part) (i : Nat) :
    ((parts.map (Part.arg w)).getD i (.value .null)).force =
      (parts.getD i (.value .null)).force.enact w := by
  rw [List.getD_eq_getElem?_getD, List.getD_eq_getElem?_getD, List.getElem?_map]
  cases parts[i]? with
  | none => rfl
  | some a => exact force_arg w a

theorem firstSuccess_args (last : EvalError) (parts : List Part) :
    Function.firstSuccess last (parts.map (Part.arg w)) =
      (Program.firstSuccess last parts).enact w := by
  induction parts generalizing last with
  | nil => rfl
  | cons a rest ih =>
    funext s
    rw [List.map_cons, Function.firstSuccess.eq_2, Program.firstSuccess, enact_orElse, force_arg]
    dsimp only
    cases a.force.enact w s with
    | ok v t => rfl
    | error e t => exact congrFun (ih e) t

theorem meet_args (f : Function) (parts : List Part) (demand : Demand) :
    demand.meet w f (parts.map (Part.arg w)) = (demand.program f parts).enact w := by
  cases demand with
  | answer v => rfl
  | call c make =>
    rw [Demand.program, enact_call]
    exact bind_congr fun a => (enact_ofExcept w (make a)).symm
  | argument i => exact force_getD_args w parts i
  | inTurn =>
    rw [Demand.meet, List.length_map]
    exact firstSuccess_args w _ parts

/-- A call with the arguments of a program is what the program of the call does. -/
theorem call_args (f : Function) (parts : List Part) :
    f.call w (parts.map (Part.arg w)) = (f.program parts).enact w := by
  have hvalues : (parts.map (Part.arg w)).map Arg.value? = parts.map Part.value? := by
    rw [List.map_map]
    exact List.map_congr_left fun a _ => value?_arg w a
  unfold Function.call Function.program
  rw [List.length_map]
  split
  · rw [run_eq, hvalues, enact_bind, enact_ofExcept]
    exact bind_congr fun demand => meet_args w f parts demand
  · rfl

/-- At depth `d`, a program is refused where an action is. -/
theorem enact_nested (p : Program α) (d : Nat) (s : σ) :
    (Program.nested d p).enact w ⟨s, d⟩ = nested (p.enact w) ⟨s, d⟩ := by
  unfold Program.nested nested
  by_cases hd : Evaluation.limit ≤ d
  · rw [if_pos hd, if_pos hd]
    rfl
  · rw [if_neg hd, if_neg hd]
    unfold Program.enact perform
    dsimp only
    cases (p.run w s).2 <;> rfl

end Enactment

/-! ## Programs of expressions -/

namespace Expr

/-- The program of a leaf. -/
def leafProgram : Value → Program Value
  | .key name => .call (.entityExists name) fun (there : Bool) =>
    .done (if there then .entity name else .key name)
  | .operator op => .ofExcept (op.apply [])
  | .function f => f.program []
  | v => .done v

/-- The argument of which that is the program. It waits in a lazy position. -/
def partProgram (lazy : Bool) (p : Program Value) : Program Part :=
  if lazy then pure (.waiting p) else do return .value (← p)

mutual

/-- The program of an expression at depth `d`. -/
def program (d : Nat) : Expr → Program Value
  | leaf v => .nested d (leafProgram v)
  | apply op operands => .nested d do
    Program.ofExcept (op.apply (← operandsProgram (d + 1) operands))
  | call f arguments => .nested d do f.program (← argumentsProgram (d + 1) f 0 arguments)

/-- The values of operands, in order. -/
def operandsProgram (d : Nat) : List Expr → Program (List Value)
  | [] => return []
  | e :: rest => do
    let v ← program d e
    return v :: (← operandsProgram d rest)

/-- The arguments of a call, in order from position `i` on. -/
def argumentsProgram (d : Nat) (f : Function) (i : Nat) : List Expr → Program (List Part)
  | [] => return []
  | e :: rest => do
    let a ← partProgram (f.isLazy i) (program d e)
    return a :: (← argumentsProgram d f (i + 1) rest)

end

end Expr

section Expressions

variable (w : World σ)

/-- An expression is nested in its program as it is in its evaluation. -/
theorem sameAt_nestedProgram {p : Program α} {act : Action (Evaluation σ) α} {d : Nat}
    (h : SameAt (d + 1) (p.enact w) act) :
    SameAt d ((Program.nested d p).enact w) (nested act) :=
  SameAt.congr (follows_nested h) (enact_nested w p d)

theorem sameAt_leafProgram (d : Nat) (v : Value) :
    SameAt d ((Expr.leafProgram v).enact w) (Expr.evalLeaf w v) := by
  have heq : (Expr.leafProgram v).enact w = Expr.evalLeaf w v := by
    cases v with
    | key name =>
      rw [Expr.leafProgram, enact_call, Expr.evalLeaf]
      refine bind_congr (x := ask (w.entityExists · name)) fun there => ?_
      cases there <;> rfl
    | operator op => exact enact_ofExcept w _
    | function f => exact (call_args w f []).symm
    | _ => rfl
  rw [heq]
  exact sameAt_evalLeaf w d v

/-- An argument that is evaluated or waits, in its program and in its evaluation. -/
theorem follows_partProgram {p : Program Value} {act : Action (Evaluation σ) Value} {d : Nat}
    (h : SameAt d (p.enact w) act) (lazy : Bool) :
    Follows (fun _ => False) (fun a b => SameArg (fun _ => False) d Eq (a.arg w) b)
      (Evaluation.At d Eq)
      ((Expr.partProgram lazy p).enact w)
      (if lazy then pure (Arg.deferred act) else Arg.value <$> act) := by
  cases lazy with
  | true => exact follows_pure (.deferred h)
  | false =>
    rw [Expr.partProgram, if_neg Bool.false_ne_true, if_neg Bool.false_ne_true, enact_bind,
      ← bind_pure_comp]
    exact follows_bind_eq h fun v => follows_pure (.value v)

mutual

theorem sameAt_program (d : Nat) : ∀ e : Expr, SameAt d ((e.program d).enact w) (e.eval w)
  | .leaf v => by
    rw [Expr.program, Expr.eval]
    exact sameAt_nestedProgram w (sameAt_leafProgram w (d + 1) v)
  | .apply op operands => by
    rw [Expr.program, Expr.eval]
    refine sameAt_nestedProgram w ?_
    rw [enact_bind]
    exact follows_bind_eq (sameAt_operandsProgram (d + 1) operands) fun vs => by
      rw [enact_ofExcept]
      exact follows_lift _
  | .call f arguments => by
    rw [Expr.program, Expr.eval]
    refine sameAt_nestedProgram w ?_
    rw [enact_bind]
    refine follows_bind (follows_argumentsProgram (d + 1) f 0 arguments) fun parts args h => ?_
    rw [← call_args]
    exact follows_call h w.follows_self f.steady_none

theorem sameAt_operandsProgram (d : Nat) : ∀ es : List Expr,
    SameAt d ((Expr.operandsProgram d es).enact w) (Expr.evalOperands w es)
  | [] => by
    rw [Expr.operandsProgram, Expr.evalOperands]
    exact follows_pure rfl
  | e :: rest => by
    rw [Expr.operandsProgram, Expr.evalOperands, enact_bind]
    refine follows_bind_eq (sameAt_program d e) fun v => ?_
    rw [enact_bind]
    exact follows_bind_eq (sameAt_operandsProgram d rest) fun _ => follows_pure rfl

theorem follows_argumentsProgram (d : Nat) (f : Function) (i : Nat) : ∀ es : List Expr,
    Follows (fun _ => False)
      (fun parts args =>
        List.Forall₂ (SameArg (fun _ => False) d Eq) (parts.map (Part.arg w)) args)
      (Evaluation.At d Eq) ((Expr.argumentsProgram d f i es).enact w)
      (Expr.evalArguments w f i es)
  | [] => by
    rw [Expr.argumentsProgram, Expr.evalArguments]
    exact follows_pure .nil
  | e :: rest => by
    rw [Expr.argumentsProgram, evalArguments_cons, enact_bind]
    refine follows_bind (follows_partProgram w (sameAt_program d e) (f.isLazy i)) fun a b hab => ?_
    rw [enact_bind, ← bind_pure_comp]
    exact follows_bind (follows_argumentsProgram d f (i + 1) rest) fun _ _ h =>
      follows_pure (.cons hab h)

end

/-- **Programs.** Run in a world, the program of an expression ends as its evaluation there does. -/
theorem run_program (e : Expr) (s : σ) : ((e.program 0).run w s).2 = e.resolve w s := by
  have hsame : (e.program 0).enact w ⟨s, 0⟩ = e.eval w ⟨s, 0⟩ := (sameAt_program w 0 e).eq s
  unfold Expr.resolve
  rw [← hsame]
  unfold Program.enact perform
  dsimp only
  cases ((e.program 0).run w s).2 <;> rfl

end Expressions

/-! ## Recordings -/

/-- Whether a call may change the state of the world. -/
def Call.acts : Call → Bool
  | entityExists _ | players | activePlayers | stat _ _ => false
  | harm _ _ _ _ | heal _ _ _ | cast _ _ _ | inflict _ _ _ _ _ | roll _ => true

/-- An action that is written down. -/
def recorded (c : Call) (act : Action σ Unit) : Action (σ × List Call) Unit := fun s =>
  match act s.1 with
  | .ok _ t => .ok () (t, s.2 ++ [c])
  | .error e t => .error e (t, s.2 ++ [c])

/-- The world in which what is done is written down. -/
def World.recording (w : World σ) : World (σ × List Call) where
  entityExists s := w.entityExists s.1
  players s := w.players s.1
  activePlayers s := w.activePlayers s.1
  stat s := w.stat s.1
  harm target source type amount :=
    recorded (.harm target source type amount) (w.harm target source type amount)
  heal target source amount := recorded (.heal target source amount) (w.heal target source amount)
  cast caster target skill := recorded (.cast caster target skill) (w.cast caster target skill)
  inflict target source status duration values :=
    recorded (.inflict target source status duration values)
      (w.inflict target source status duration values)
  roll upper s := ((w.roll upper s.1).1, (w.roll upper s.1).2, s.2 ++ [.roll upper])

/-- How an evaluation ends, with the calls that were written down. -/
def withRecord (log : List Call) :
    EStateM.Result EvalError σ α → EStateM.Result EvalError (σ × List Call) α
  | .ok a t => .ok a (t, log)
  | .error e t => .error e (t, log)

section Recordings

variable (w : World σ) (s : σ) (log : List Call)

theorem ending_recorded (c : Call) (act : Action σ Unit) :
    ending (recorded c act) (s, log) = ((ending act s).1, (ending act s).2, log ++ [c]) := by
  unfold ending recorded
  dsimp only
  cases act s <;> rfl

theorem answer_recording (c : Call) :
    w.recording.answer c (s, log) =
      ((w.answer c s).1, (w.answer c s).2, log ++ [c].filter Call.acts) := by
  cases c
  case harm | heal | cast | inflict => exact ending_recorded s log _ _
  case roll => rfl
  all_goals
    simp only [World.answer, List.filter_cons_of_neg, Call.acts, Bool.false_eq_true,
      not_false_eq_true, List.filter_nil, List.append_nil]
    rfl

theorem run_recording (p : Program α) :
    (p.run w.recording (s, log)).2 =
      withRecord (log ++ (p.run w s).1.filter Call.acts) (p.run w s).2 := by
  induction p generalizing s log with
  | done a => simp only [Program.run, List.filter_nil, List.append_nil, withRecord]
  | fault e => simp only [Program.run, List.filter_nil, List.append_nil, withRecord]
  | call c next ih =>
    simp only [Program.run]
    rw [answer_recording, ih, List.append_assoc, ← List.filter_append]
    rfl

/-- **Recordings.** An evaluation in a world that writes down what is done leaves the record of what
the program does. -/
theorem resolve_recording (e : Expr) :
    e.resolve w.recording (s, log) =
      withRecord (log ++ ((e.program 0).run w s).1.filter Call.acts) (e.resolve w s) := by
  rw [← run_program, ← run_program]
  exact run_recording w s log _

end Recordings

end Skirmish.Formula
