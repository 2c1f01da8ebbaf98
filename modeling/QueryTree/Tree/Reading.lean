import QueryTree.Tree.Fault
import QueryTree.Yaml.Loading

/-!
# Trees from documents

The tree that a YAML value describes. A node is a mapping: either its only key is `and` or `or`, with
a sequence of two nodes, or it is a constraint with the keys `selector`, `comparison` and
`argument`. The argument is a scalar, which has a kind of its own, or a mapping of one entry, whose
key names the kind. The first fault in the order of the document is reported.
-/

namespace QueryTree

open QueryTree.Yaml (Value)

/-! ### Arguments -/

namespace Literal

/-- An argument is a fault of the node's own. -/
def fail {α : Type} (part : NodePart) (cause : FaultCause) : Except Fault α :=
  .error (.here part cause)

/-- An integer within bounds. -/
def integerOf (part : NodePart) (least greatest : Int) (v : Value) : Except Fault Int :=
  match v.int64? with
  | some n => if least ≤ n ∧ n ≤ greatest then .ok n else fail part .notInteger
  | none => fail part .notInteger

/-- A number. -/
def numberOf (part : NodePart) (v : Value) : Except Fault UInt64 :=
  match v.double? with
  | some bits => .ok bits
  | none => fail part .notNumber

/-- A text. -/
def textOf (part : NodePart) (v : Value) : Except Fault String :=
  match v.text? with
  | some s => .ok s
  | none => fail part .notText

/-- A date-time. -/
def dateTimeOf (part : NodePart) (v : Value) : Except Fault Calendar.DateTime := do
  let s ← textOf part v
  match Calendar.DateTime.read s with
  | .ok dt => .ok dt
  | .error e => fail part (.badDateTime s e)

/-- A date. -/
def dateOf (part : NodePart) (v : Value) : Except Fault Calendar.Date := do
  let s ← textOf part v
  match Calendar.Date.read s with
  | .ok d => .ok d
  | .error e => fail part (.badDate s e)

/-- The literal of a kind with a value. -/
def ofTyped (kind : String) (v : Value) : Except Fault Literal :=
  let part := NodePart.typedArgument kind
  match kind with
  | "bool" =>
    match v.bool? with
    | some b => .ok (.bool b)
    | none => fail part .notBoolean
  | "byte" =>
    (integerOf part Int8.minValue.toInt Int8.maxValue.toInt v).map fun n => .byte (Int8.ofInt n)
  | "short" =>
    (integerOf part Int16.minValue.toInt Int16.maxValue.toInt v).map fun n => .short (Int16.ofInt n)
  | "int" =>
    (integerOf part Int32.minValue.toInt Int32.maxValue.toInt v).map fun n => .int (Int32.ofInt n)
  | "long" =>
    (integerOf part Int64.minValue.toInt Int64.maxValue.toInt v).map fun n => .long (Int64.ofInt n)
  | "float" => (numberOf part v).map fun bits =>
    .float (UInt32.ofNat (Number.Format.convert .double .single bits.toNat))
  | "double" => (numberOf part v).map .double
  | "date" => (dateOf part v).map .date
  | "calendar" => (dateTimeOf part v).map .calendar
  | "instant" => (dateTimeOf part v).map .instant
  | "enum" => (textOf part v).map .name
  | "string" => (textOf part v).map .text
  | _ => fail part (.unknownKind kind)

/-- The literal of an argument. -/
def ofValue : Value → Except Fault Literal
  | .bool b => .ok (.bool b)
  | .float bits => .ok (.double bits)
  | .int n =>
    if Int32.minValue.toInt ≤ n ∧ n ≤ Int32.maxValue.toInt then .ok (.int (Int32.ofInt n))
    else if Int64.minValue.toInt ≤ n ∧ n ≤ Int64.maxValue.toInt then .ok (.long (Int64.ofInt n))
    else fail .argument (.tooLarge n)
  | .text s => .ok (.text s)
  | .mapping [(key, v)] =>
    match key.text? with
    | some kind => ofTyped kind v
    | none => fail .argument .kindNotText
  | _ => fail .argument .notArgument

end Literal

/-! ### Constraints -/

/-- The keys of a constraint that have been read. -/
structure ConstraintFields where
  selector : Option String
  comparison : Option String
  argument : Option Value

namespace ConstraintFields

/-- No key yet. -/
def none : ConstraintFields := ⟨.none, .none, .none⟩

/-- The text of a field. -/
def textOf (v : Value) : Except Fault String :=
  match v.text? with
  | some s => .ok s
  | .none => .error (.here .whole (.wrongType v .text))

/-- The value of the argument, which is read again. -/
def argumentOf (v : Value) : Except Fault Value :=
  v.reread.mapError fun key => .here .whole (.duplicateKey key)

/-- The field that a key names. -/
def fieldOf (key : Value) : Except Fault Field :=
  match key.text? with
  | .none => .error (.here .whole (.wrongType key .fieldName))
  | some s =>
    match Field.ofKey? s with
    | some f => .ok f
    | .none => .error (.here .whole (.unknownField s))

/-- The field has been read. -/
def has (c : ConstraintFields) : Field → Bool
  | .selector => c.selector.isSome
  | .comparison => c.comparison.isSome
  | .argument => c.argument.isSome

/-- One more field. -/
def set (c : ConstraintFields) (f : Field) (v : Value) : Except Fault ConstraintFields :=
  if c.has f then .error (.here .whole (.duplicateField f))
  else
    match f with
    | .selector => (textOf v).map fun s => { c with selector := some s }
    | .comparison => (textOf v).map fun s => { c with comparison := some s }
    | .argument => (argumentOf v).map fun v => { c with argument := some v }

/-- The fields of a mapping's entries, in their order. -/
def ofEntries : ConstraintFields → List (Value × Value) → Except Fault ConstraintFields
  | c, [] => .ok c
  | c, (key, v) :: rest => do
    let f ← fieldOf key
    let c ← c.set f v
    ofEntries c rest

/-- A field that must be there. -/
def require {α : Type} (f : Field) : Option α → Except Fault α
  | some a => .ok a
  | .none => .error (.here .whole (.missingField f))

end ConstraintFields

namespace Tree

/-- The constraint with the entries of a mapping. -/
def constraintOf (entries : List (Value × Value)) : Except Fault Tree := do
  let fields ← ConstraintFields.ofEntries .none entries
  let selector ← ConstraintFields.require .selector fields.selector
  let word ← ConstraintFields.require .comparison fields.comparison
  let argument ← ConstraintFields.require .argument fields.argument
  if selector.isEmpty then .error (.here .whole .emptySelector)
  else
    match Comparison.read word with
    | .error unknown => .error (.here .whole (.unknownComparison unknown))
    | .ok comparison => do
      let literal ← Literal.ofValue argument
      .ok (.constraint selector comparison literal)

/-! ### Nodes -/

/-- The connective that a key names. -/
def connectiveOf? : Value → Option Connective
  | .text "and" => some .and
  | .text "or" => some .or
  | _ => none

/-- The first of the two connectives, in their order, that is a key among some entries. -/
def connectiveAmong? (entries : List (Value × Value)) : Option Connective :=
  [Connective.and, .or].find? fun c => entries.any fun e => connectiveOf? e.1 == some c

mutual

/-- The tree that a value describes. -/
def ofValue : Value → Except Fault Tree
  | .tagged _ v => ofValue v
  | .mapping [(key, v)] =>
    match connectiveOf? key with
    | some c => childrenOf c v
    | none => constraintOf [(key, v)]
  | .mapping entries =>
    match connectiveAmong? entries with
    | some c => .error (.here .whole (.notOnlyKey c))
    | none => constraintOf entries
  | _ => .error (.here .whole .notMapping)

/-- The tree of a connective with the value of its children. -/
def childrenOf (c : Connective) : Value → Except Fault Tree
  | .tagged _ v => childrenOf c v
  | .sequence [left, right] => do
    let left ← (ofValue left).mapError (Fault.below ⟨c, .left⟩)
    let right ← (ofValue right).mapError (Fault.below ⟨c, .right⟩)
    .ok (join c left right)
  | _ => .error (.here (.children c) .notTwoNodes)

end

/-- Why a text is no tree document. -/
inductive ParseError where
  /-- The text holds no value. -/
  | yaml (text : String) (error : Yaml.Error)
  /-- Its value describes no tree. -/
  | fault (fault : Fault)

/-- The message of a parse error. The wording for texts that are not well-formed is given. -/
def ParseError.message (wording : String → String) : ParseError → String
  | .yaml text e => e.message (wording text)
  | .fault f => f.message

/-- The tree that a text describes. -/
def parse (s : String) : Except ParseError Tree :=
  match Value.ofString s with
  | .error e => .error (.yaml s e)
  | .ok v => (ofValue v).mapError .fault

end Tree

end QueryTree
