import Skirmish.Decimal.Numeral
import Skirmish.Formula.Expr
import Skirmish.Formula.Vocabulary

/-!
# Binding

A formula is read once and used many times. Before each use its placeholders are bound:
`$CASTER` and `$TARGET` to entities, `$VALUE` to an amount, `$0`, `$1`, … to the arguments of a
status; and a bare name of a stat becomes a reading of that stat. An argument that is a name by
its position stays one. Every binding is a substitution on the keys at the leaves
(`Expr.substitute`).
-/

namespace Skirmish.Formula

/-- A position among the arguments of a call. -/
structure Slot where
  function : Function
  position : Nat
  deriving Repr, DecidableEq

/-- Whether the argument in this position is a name. -/
def Slot.isKey (s : Slot) : Bool := s.function.isKey s.position

/-- The placeholder of the one who acts. -/
def casterPlaceholder : String := "$CASTER"

/-- The placeholder of the one acted upon. -/
def targetPlaceholder : String := "$TARGET"

/-- The placeholder of the amount to be mitigated. -/
def amountPlaceholder : String := "$VALUE"

/-- The index in a numbered placeholder: `$` and ASCII digits. An index past 64 bits is none. -/
def placeholderIndex? (text : String) : Option Nat :=
  match text.toList with
  | '$' :: digits => (Decimal.nat? digits).filter (· < UInt64.size)
  | _ => none

namespace Expr

mutual

/-- Replaces keys at the leaves. The slot is the position of a leaf that is an argument of a call,
and none at the root and below an operator. -/
def substitute (f : Option Slot → String → Option Expr) (slot : Option Slot) : Expr → Expr
  | leaf (.key name) => (f slot name).getD (leaf (.key name))
  | leaf v => leaf v
  | apply op operands => apply op (substituteOperands f operands)
  | call g arguments => call g (substituteArguments f g 0 arguments)

/-- Replaces keys in operands. -/
def substituteOperands (f : Option Slot → String → Option Expr) : List Expr → List Expr
  | [] => []
  | e :: rest => substitute f none e :: substituteOperands f rest

/-- Replaces keys in the arguments of `g` from position `i` on. -/
def substituteArguments (f : Option Slot → String → Option Expr) (g : Function) (i : Nat) :
    List Expr → List Expr
  | [] => []
  | e :: rest => substitute f (some ⟨g, i⟩) e :: substituteArguments f g (i + 1) rest

end

mutual

/-- The subexpressions with their slots, each after those below it. -/
def visits (slot : Option Slot) : Expr → List (Expr × Option Slot)
  | leaf v => [(leaf v, slot)]
  | apply op operands => visitsOfOperands operands ++ [(apply op operands, slot)]
  | call f arguments => visitsOfArguments f 0 arguments ++ [(call f arguments, slot)]

/-- The subexpressions of operands. -/
def visitsOfOperands : List Expr → List (Expr × Option Slot)
  | [] => []
  | e :: rest => visits none e ++ visitsOfOperands rest

/-- The subexpressions of the arguments of `f` from position `i` on. -/
def visitsOfArguments (f : Function) (i : Nat) : List Expr → List (Expr × Option Slot)
  | [] => []
  | e :: rest => visits (some ⟨f, i⟩) e ++ visitsOfArguments f (i + 1) rest

end

/-- The keys at the leaves, from left to right. -/
def keys (e : Expr) : List String :=
  (e.visits none).filterMap fun
    | (leaf (.key name), _) => some name
    | _ => none

/-! ## Single bindings -/

/-- Binds `$CASTER` and `$TARGET`. -/
def bindRoles (source target : String) (e : Expr) : Expr :=
  e.substitute (fun _ name =>
    if name = casterPlaceholder then some (leaf (.key source))
    else if name = targetPlaceholder then some (leaf (.key target))
    else none) none

/-- Binds `$VALUE`. -/
def bindAmount (amount : Float) (e : Expr) : Expr :=
  e.substitute (fun _ name =>
    if name = amountPlaceholder then some (leaf (.number amount)) else none) none

/-- Whether a key is a numbered placeholder past the end of `values`. -/
def exceeds (values : List Float) (name : String) : Bool :=
  (placeholderIndex? name).any (values.length ≤ ·)

/-- Binds `$0`, `$1`, …. The first one without a value is a fault. -/
def bindArguments (values : List Float) (e : Expr) : Except EvalError Expr :=
  match e.keys.find? (exceeds values) with
  | some name => .error (.unknownPlaceholder name values.length)
  | none => .ok <| e.substitute (fun _ name => do
      let i ← placeholderIndex? name
      return leaf (.number (← values[i]?))) none

/-- Turns bare names of stats of `entity` into readings of them. A vocabulary without a function
that reads stats leaves them alone. -/
def bindStats (v : Vocabulary) (hasStat : String → Bool) (entity : String) (e : Expr) : Expr :=
  match v.function? Vocabulary.statName with
  | none => e
  | some read => e.substitute (fun slot name =>
      if slot.any Slot.isKey || !hasStat name then none
      else some (call read [leaf (.key entity), leaf (.key name)])) none

/-! ## Bindings for each use

`hasStat entity stat` tells which stats an entity has. -/

/-- Skills, dodges and criticals: bare stats are the caster's. -/
def bindSkill (v : Vocabulary) (hasStat : String → String → Bool) (source target : String)
    (e : Expr) : Expr :=
  (e.bindRoles source target).bindStats v (hasStat source) source

/-- Mitigation: bare stats are the defender's. -/
def bindMitigation (v : Vocabulary) (hasStat : String → String → Bool) (target source : String)
    (amount : Float) (e : Expr) : Expr :=
  ((e.bindRoles source target).bindAmount amount).bindStats v (hasStat target) target

/-- The formulas of a status. -/
def bindStatus (source target : String) (values : List Float) (e : Expr) :
    Except EvalError Expr :=
  (e.bindRoles source target).bindArguments values

/-- An expression over the stats of one entity. -/
def bindCompound (v : Vocabulary) (hasStat : String → String → Bool) (entity : String)
    (e : Expr) : Expr :=
  (e.bindRoles entity entity).bindStats v (hasStat entity) entity

end Expr

end Skirmish.Formula
