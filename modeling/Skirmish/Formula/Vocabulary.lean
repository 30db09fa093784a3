import Skirmish.Formula.Symbol

/-!
# Vocabularies

The operators and functions that a formula may use. A symbol belongs to at most one operator and a
name to at most one function; adding one replaces its namesake. `Vocabulary.standard` is the
language designers write in, `Vocabulary.extended` adds further symbols and redefines a few.
-/

namespace Skirmish.Formula

/-- A set of operators and functions. -/
structure Vocabulary where
  operators : List Operator
  functions : List Function
  deriving Repr, DecidableEq

namespace Vocabulary

/-- No symbols at all. -/
def empty : Vocabulary := ⟨[], []⟩

/-- The operator written `symbol`. -/
def operator? (v : Vocabulary) (symbol : String) : Option Operator :=
  v.operators.find? (·.symbol = symbol)

/-- The function called `name`. -/
def function? (v : Vocabulary) (name : String) : Option Function :=
  v.functions.find? (·.name = name)

/-- Adds an operator in place of the one with its symbol. -/
def addOperator (v : Vocabulary) (op : Operator) : Vocabulary :=
  { v with operators := op :: v.operators.filter (·.symbol ≠ op.symbol) }

/-- Adds a function in place of the one with its name. -/
def addFunction (v : Vocabulary) (f : Function) : Vocabulary :=
  { v with functions := f :: v.functions.filter (·.name ≠ f.name) }

/-- Adds operators and functions, the later ones in place of the earlier. -/
def add (v : Vocabulary) (operators : List Operator) (functions : List Function) : Vocabulary :=
  functions.foldl addFunction (operators.foldl addOperator v)

/-- Whether a character ends a run of ordinary characters: brackets, the comma, and every operator
of a single character. -/
def isSpecial (v : Vocabulary) (c : Char) : Bool :=
  c = ',' || c = '(' || c = ')' || (v.operator? (String.singleton c)).isSome

/-! ## The standard symbols -/

/-- The standard operators: comparisons and `!` bind loosest, then sums, then products, then
powers. All associate to the left. -/
def standardOperators : List Operator :=
  [⟨"+", 1, true, 2, .sum⟩, ⟨"-", 1, true, 2, .difference⟩,
   ⟨"*", 2, true, 2, .product⟩, ⟨"/", 2, true, 2, .quotient⟩, ⟨"^", 3, true, 2, .power⟩,
   ⟨"!", 0, true, 1, .complement⟩,
   ⟨">", 0, true, 2, .greater⟩, ⟨"<", 0, true, 2, .less⟩, ⟨"=", 0, true, 2, .equal⟩]

/-- The function that reads a stat. -/
def statName : String := "GET_PROP"

/-- The function that builds a change to a stat. -/
def modifierName : String := "MOD_VALUE"

/-- The function that deals damage. -/
def harmName : String := "HARM"

/-- The function that heals. -/
def healName : String := "HEAL"

/-- The standard functions. Only the branches of `IF` wait to be asked for. -/
def standardFunctions : List Function :=
  [⟨"MAX", .atLeast 1, .largest, [], []⟩,
   ⟨"MIN", .atLeast 1, .smallest, [], []⟩,
   ⟨"ABS", .exactly 1, .magnitude, [], []⟩,
   ⟨"NON_NEG", .exactly 1, .nonNegative, [], []⟩,
   ⟨"RANDOM", .exactly 2, .random, [], []⟩,
   ⟨harmName, .exactly 4, .harm, [], [2]⟩,
   ⟨healName, .exactly 3, .heal, [], []⟩,
   ⟨"ARRAY", .atLeast 0, .array, [], []⟩,
   ⟨"GET_PLAYERS", .exactly 0, .players, [], []⟩,
   ⟨"GET_ACTIVE_PLAYERS", .exactly 0, .activePlayers, [], []⟩,
   ⟨statName, .exactly 2, .stat, [], [1]⟩,
   ⟨"IF", .exactly 3, .choose, [1, 2], []⟩,
   ⟨"ARR_RANDOM", .exactly 1, .pick, [], []⟩,
   ⟨"CHANCE", .exactly 1, .chance, [], []⟩,
   ⟨"CAST", .exactly 3, .cast, [], [2]⟩,
   ⟨modifierName, .exactly 2, .modifier, [], [0]⟩,
   ⟨"APPLY", .exactly 5, .inflict, [], [2]⟩]

/-- The standard vocabulary. -/
def standard : Vocabulary := empty.add standardOperators standardFunctions

/-! ## Further symbols -/

/-- Operators beyond the standard ones, with other precedences, a symbol of more than one
character and associativity to the right among them. -/
def furtherOperators : List Operator :=
  [⟨"^", 3, false, 2, .power⟩, ⟨"%", 2, true, 2, .percentage⟩, ⟨"?", 0, false, 2, .orElse⟩,
   ⟨"§", 1, true, 2, .doubledSum⟩, ⟨"AND", 0, true, 2, .conjunction⟩,
   ⟨"~", 4, true, 1, .opposite⟩]

/-- Functions beyond the standard ones. -/
def furtherFunctions : List Function :=
  [⟨"SUM", .atLeast 0, .total, [], []⟩, ⟨"MAX", .exactly 2, .larger, [], []⟩,
   ⟨"TRY", .atLeast 1, .firstSuccess, [0, 1], []⟩, ⟨"SWAP", .exactly 2, .swap, [], [1]⟩]

/-- The standard vocabulary with the further symbols, which win over the standard ones. -/
def extended : Vocabulary := standard.add furtherOperators furtherFunctions

/-! ## Listings -/

/-- The operators in the order of their symbols. -/
def operatorsInOrder (v : Vocabulary) : List Operator :=
  v.operators.mergeSort fun a b => a.symbol ≤ b.symbol

/-- The functions in the order of their names. -/
def functionsInOrder (v : Vocabulary) : List Function :=
  v.functions.mergeSort fun a b => a.name ≤ b.name

end Vocabulary

end Skirmish.Formula
