import SpanTags.Number.Double

namespace SpanTags

inductive Scalar
  | null
  | bool (b : Bool)
  | int (n : Int)
  | float (x : Double)
  | text (t : Text)
  | bytes (b : List UInt8)
deriving DecidableEq

-- The key of an entry. Keys that differ in sort can still be the same key, see `Key.same`.
inductive Key
  | scalar (s : Scalar)
  | tuple (items : List Key)

-- A payload: what a document decodes to, or what a caller hands over already decoded.
inductive Value
  | scalar (s : Scalar)
  | list (items : List Value)
  | tuple (items : List Value)
  | dict (entries : List (Key × Value))

namespace Scalar

def typeName : Scalar → Text
  | null => "NoneType"
  | bool _ => "bool"
  | int _ => "int"
  | float _ => "float"
  | text _ => "str"
  | bytes _ => "bytes"

-- The whole number that a scalar counts as when keys are compared.
def wholeNumber? : Scalar → Option Int
  | bool b => some (if b then 1 else 0)
  | int n => some n
  | float x => x.toInt?
  | _ => none

-- Equal numbers are the same key whatever their sort; a nan is the same as nothing.
def same (a b : Scalar) : Bool :=
  match a.wholeNumber?, b.wholeNumber? with
  | some m, some n => m = n
  | none, none => a = b && a ≠ .float .nan
  | _, _ => false

end Scalar

namespace Key

instance : Inhabited Key := ⟨.scalar .null⟩

def ofText (t : Text) : Key := .scalar (.text t)

instance : Coe Text Key := ⟨ofText⟩

def typeName : Key → Text
  | scalar s => s.typeName
  | tuple _ => "tuple"

mutual

def same : Key → Key → Bool
  | scalar a, scalar b => a.same b
  | tuple as, tuple bs => sameAll as bs
  | _, _ => false

def sameAll : List Key → List Key → Bool
  | [], [] => true
  | a :: as, b :: bs => a.same b && sameAll as bs
  | _, _ => false

end

instance : BEq Key := ⟨same⟩

end Key

namespace Value

instance : Inhabited Value := ⟨.scalar .null⟩

def null : Value := .scalar .null

def bool (b : Bool) : Value := .scalar (.bool b)

def int (n : Int) : Value := .scalar (.int n)

def float (x : Double) : Value := .scalar (.float x)

def text (t : Text) : Value := .scalar (.text t)

instance : Coe Text Value := ⟨text⟩

def textOrNull : Option Text → Value
  | some t => text t
  | none => null

def object (entries : List (Text × Value)) : Value :=
  .dict (entries.map fun (name, value) => (.ofText name, value))

def isContainer : Value → Bool
  | scalar _ => false
  | _ => true

def typeName : Value → Text
  | scalar s => s.typeName
  | list _ => "list"
  | tuple _ => "tuple"
  | dict _ => "dict"

end Value

end SpanTags
