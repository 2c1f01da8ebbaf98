import QueryTree.Number.Nearest
import QueryTree.Yaml.Tag

/-!
# YAML values

The data that a YAML document holds: scalars, sequences, mappings whose entries keep their order,
and values with a tag of their own. Most questions about a value look through its tags.
-/

namespace QueryTree.Yaml

/-- A value. Floating point numbers are bit patterns of the 64 bit format. -/
inductive Value where
  | null
  | bool (value : Bool)
  | int (value : Int)
  | float (bits : UInt64)
  | text (value : String)
  | sequence (items : List Value)
  | mapping (entries : List (Value × Value))
  | tagged (tag : String) (value : Value)

namespace Value

/-- A value without its tags. -/
def untagged : Value → Value
  | tagged _ v => v.untagged
  | v => v

/-- A text. -/
def text? (v : Value) : Option String :=
  match v.untagged with
  | text s => some s
  | _ => none

/-- A boolean. -/
def bool? (v : Value) : Option Bool :=
  match v.untagged with
  | bool b => some b
  | _ => none

/-- An integer of 64 bits with sign. -/
def int64? (v : Value) : Option Int :=
  match v.untagged with
  | int n => if Int64.minValue.toInt ≤ n ∧ n ≤ Int64.maxValue.toInt then some n else none
  | _ => none

/-- A number, as a bit pattern of the 64 bit format nearest to it. -/
def double? (v : Value) : Option UInt64 :=
  match v.untagged with
  | int n => some (UInt64.ofNat (Number.Format.double.ofInt n))
  | float b => some b
  | _ => none

/-- Equality of floating point numbers as keys: values that are no number are equal. -/
def sameFloat (a b : UInt64) : Bool :=
  Number.Format.double.equal a.toNat b.toNat ||
    (Number.Format.double.decode a.toNat == .nan && Number.Format.double.decode b.toNat == .nan)

mutual

/-- Equality of values, for which the entries of a mapping have no order. -/
def same : Value → Value → Bool
  | null, null => true
  | bool a, bool b => a == b
  | int a, int b => a == b
  | float a, float b => sameFloat a b
  | text a, text b => a == b
  | sequence a, sequence b => sameItems a b
  | mapping a, mapping b => a.length == b.length && within a b
  | tagged s a, tagged t b => Tag.sameName s t && a.same b
  | _, _ => false

/-- Equality item by item. -/
def sameItems : List Value → List Value → Bool
  | [], [] => true
  | a :: as, b :: bs => a.same b && sameItems as bs
  | _, _ => false

/-- Each entry of the first list is in the second one. -/
def within : List (Value × Value) → List (Value × Value) → Bool
  | [], _ => true
  | (k, v) :: rest, entries => (entries.any fun e => k.same e.1 && v.same e.2) && within rest entries

end

/-- The key among some entries that is equal to a key. -/
def equalKey? (entries : List (Value × Value)) (key : Value) : Option Value :=
  (entries.find? fun e => e.1.same key).map Prod.fst

mutual

/-- A value as it is read from another value: the name of every tag loses an exclamation mark at its
beginning. This may make two keys of a mapping equal; then the first of them is the error. -/
def reread : Value → Except Value Value
  | tagged tag v => (reread v).map (tagged (Tag.bareName tag))
  | sequence items => (rereadItems items).map sequence
  | mapping entries => (rereadEntries [] entries).map mapping
  | v => .ok v

/-- The items of a sequence, each read again. -/
def rereadItems : List Value → Except Value (List Value)
  | [] => .ok []
  | v :: rest => do
    let v ← reread v
    let rest ← rereadItems rest
    .ok (v :: rest)

/-- The entries of a mapping, each read again, after those in `seen`. -/
def rereadEntries : List (Value × Value) → List (Value × Value) →
    Except Value (List (Value × Value))
  | seen, [] => .ok seen
  | seen, (k, v) :: rest => do
    let k ← reread k
    match equalKey? seen k with
    | some first => .error first
    | none => do
      let v ← reread v
      rereadEntries (seen ++ [(k, v)]) rest

end

mutual

/-- The number of collections that lie in one another at the deepest place. -/
def depth : Value → Nat
  | sequence items => depthOfItems items + 1
  | mapping entries => depthOfEntries entries + 1
  | tagged _ v => v.depth
  | _ => 0

/-- The greatest depth of some items. -/
def depthOfItems : List Value → Nat
  | [] => 0
  | v :: rest => max v.depth (depthOfItems rest)

/-- The greatest depth of some keys and values. -/
def depthOfEntries : List (Value × Value) → Nat
  | [] => 0
  | (k, v) :: rest => max (max k.depth v.depth) (depthOfEntries rest)

end

end Value

end QueryTree.Yaml
