import FlagCombat.Document.Basic
import FlagCombat.Decimal.Reading

/-!
How values are written to documents and read back. Reading depends on the format: a JSON list can
stand for a record, its items being the fields in order, while in YAML an unquoted scalar can be any
kind of scalar and a value left out is an empty record or list. Unknown fields are ignored, a field
given twice is an error.
-/

namespace FlagCombat

/-- The format that a document was read from. -/
inductive Format where
  | json
  | yaml
deriving DecidableEq, Repr

/-- Values that can be read from documents. -/
class Readable (α : Type) where
  decode : Format → Document → Option α

/-- Values that can be written to documents. -/
class Writable (α : Type) where
  encode : α → Document

export Readable (decode)
export Writable (encode)

namespace Document

/-- The unsigned number of an unquoted scalar: decimal without needless zeros, or with the mark of
its base. -/
def plainNat? (written : String) : Option Nat :=
  let cs := match written.toList with
    | '+' :: rest => rest
    | cs => cs
  match cs with
  | '0' :: 'x' :: digits => Decimal.natOf? 16 digits
  | '0' :: 'o' :: digits => Decimal.natOf? 8 digits
  | '0' :: 'b' :: digits => Decimal.natOf? 2 digits
  | '0' :: _ :: _ => none
  | digits => Decimal.natOf? 10 digits

/-- The float of an unquoted scalar; infinities and not a number are written with a point before
them. -/
def plainFloat? (written : String) : Option Float :=
  if [".inf", ".Inf", ".INF", "+.inf", "+.Inf", "+.INF"].contains written then some (1.0 / 0.0)
  else if ["-.inf", "-.Inf", "-.INF"].contains written then some (-1.0 / 0.0)
  else if [".nan", ".NaN", ".NAN"].contains written then some (0.0 / 0.0)
  else (Decimal.floatOf? written.toList).filter Float.isFinite

def nat? : Document → Option Nat
  | .integer n => if 0 ≤ n then some n.toNat else none
  | .plain written => plainNat? written
  | _ => none

/-- The float of a document; whole numbers are floats too. -/
def float? : Document → Option Float
  | .integer n => some (Float.ofInt n)
  | .real x => some x
  | .plain written => plainFloat? written
  | _ => none

/-- The text of a document: every unquoted scalar is one. -/
def text? : Document → Option String
  | .text s => some s
  | .plain written => some written
  | _ => none

def items? : Format → Document → Option (List Document)
  | _, .list items => some items
  | .yaml, .plain "" => some []
  | _, _ => none

/-- The values of a field: none, one, or too many. -/
def field? (fields : List (String × Document)) (name : String) : Option (Option Document) :=
  match fields.filter (·.1 = name) with
  | [] => some none
  | [(_, value)] => some (some value)
  | _ => none

/-- The values of the named fields, in the order of the names. -/
def fields? (format : Format) (names : List String) : Document → Option (List (Option Document))
  | .record fields => names.mapM (field? fields)
  | .list items =>
    if format = .json ∧ items.length ≤ names.length then
      some (items.map some ++ List.replicate (names.length - items.length) none)
    else none
  | .plain "" => if format = .yaml then some (names.map fun _ => none) else none
  | _ => none

/-- The name of a case without contents. In JSON it can also be the only field of a record, with
null. -/
def caseName? : Format → Document → Option String
  | _, .text s => some s
  | .yaml, .plain written => some written
  | .json, .record [(name, .null)] => some name
  | _, _ => none

end Document

/-- The number as a word of 32 bits, if it fits. -/
def fit32? (n : Nat) : Option UInt32 := if n < UInt32.size then some n.toUInt32 else none

/-- The number as a word of 64 bits, if it fits. -/
def fit64? (n : Nat) : Option UInt64 := if n < UInt64.size then some n.toUInt64 else none

instance : Readable UInt32 := ⟨fun _ d => d.nat?.bind fit32?⟩
instance : Writable UInt32 := ⟨fun n => .integer n.toNat⟩
instance : Readable UInt64 := ⟨fun _ d => d.nat?.bind fit64?⟩
instance : Writable UInt64 := ⟨fun n => .integer n.toNat⟩
instance : Readable Float := ⟨fun _ d => d.float?⟩
instance : Writable Float := ⟨.real⟩
instance : Readable String := ⟨fun _ d => d.text?⟩
instance : Writable String := ⟨.text⟩

instance {α : Type} [Readable α] : Readable (List α) :=
  ⟨fun format d => (d.items? format).bind (·.mapM (decode format))⟩

instance {α : Type} [Writable α] : Writable (List α) := ⟨fun l => .list (l.map encode)⟩

abbrev FieldReader (α : Type) := StateT (List (Option Document)) Option α

namespace FieldReader

/-- The next field, which must be given. -/
def required {α : Type} [Readable α] (format : Format) : FieldReader α
  | some d :: rest => (decode format d).map (·, rest)
  | _ => none

/-- The next field, or a value that stands where none is given. -/
def orElse {α : Type} [Readable α] (format : Format) (default : α) : FieldReader α
  | some d :: rest => (decode format d).map (·, rest)
  | none :: rest => some (default, rest)
  | [] => none

def run {α : Type} (format : Format) (names : List String) (reader : FieldReader α)
    (d : Document) : Option α :=
  (d.fields? format names).bind fun fields => (reader fields).map (·.1)

end FieldReader

end FlagCombat
