import JavaMachine.Fault

/-!
# Constant pools

A class refers to numbers, texts, classes and members through its constant pool.  The pool starts
with one empty entry, so that index zero is never a constant.  `Pool.add` puts a constant in and
answers its index: an entry that is already there is used again, and a long or a double takes an
empty entry behind it as well.
-/

namespace JavaMachine

/-- A field or method as code refers to it. -/
structure MemberRef where
  /-- The class that the reference names. -/
  className : String
  /-- The name of the member. -/
  name : String
  /-- The descriptor of the member. -/
  descriptor : String
  deriving Repr, DecidableEq

namespace MemberRef

/-- A method as messages name it: class, name and descriptor. -/
def signature (r : MemberRef) : String := s!"{r.className}.{r.name}{r.descriptor}"

/-- A field as messages name it: class and name. -/
def path (r : MemberRef) : String := s!"{r.className}.{r.name}"

end MemberRef

/-- An entry of a constant pool. -/
inductive Constant where
  /-- The entry at index zero and the one behind a long or a double. -/
  | empty
  | utf8 (text : String)
  | int (v : Int32)
  | float (v : Float32)
  | long (v : Int64)
  | double (v : Float)
  /-- A class by name. -/
  | className (name : String)
  /-- A string literal. -/
  | string (text : String)
  | field (ref : MemberRef)
  | method (ref : MemberRef)
  | interfaceMethod (ref : MemberRef)
  | nameAndType (name descriptor : String)
  | methodHandle (kind : UInt8) (reference : UInt16)
  | methodType (descriptor : String)
  | invokeDynamic (bootstrap : UInt16) (name descriptor : String)

namespace Constant

/-- The word for the kind of an entry. -/
def kind : Constant → String
  | empty => "null entry"
  | utf8 _ => "utf8"
  | int _ => "integer"
  | float _ => "float"
  | long _ => "long"
  | double _ => "double"
  | className _ => "class reference"
  | string _ => "string"
  | field _ => "field reference"
  | method _ => "method reference"
  | interfaceMethod _ => "interface method reference"
  | nameAndType .. => "name and type"
  | methodHandle .. => "method handle"
  | methodType _ => "method type"
  | invokeDynamic .. => "invokedynamic"

/-- A constant that takes two entries. -/
def isWide : Constant → Bool
  | long _ | double _ => true
  | _ => false

/-- Two entries of one kind with equal payloads.  Floating-point numbers are compared as numbers:
the two zeros are equal, and what is not a number equals nothing. -/
def same : Constant → Constant → Bool
  | empty, empty => true
  | utf8 a, utf8 b => a == b
  | int a, int b => a == b
  | float a, float b => a == b
  | long a, long b => a == b
  | double a, double b => a == b
  | className a, className b => a == b
  | string a, string b => a == b
  | field a, field b => a == b
  | method a, method b => a == b
  | interfaceMethod a, interfaceMethod b => a == b
  | nameAndType a d, nameAndType b e => a == b && d == e
  | methodHandle k r, methodHandle l s => k == l && r == s
  | methodType a, methodType b => a == b
  | invokeDynamic k a d, invokeDynamic l b e => k == l && a == b && d == e
  | _, _ => false

end Constant

/-- A constant pool, from index zero on. -/
abbrev Pool := Array Constant

namespace Pool

/-- The pool with no constant in it. -/
def blank : Pool := #[.empty]

/-- Puts a constant into the pool and answers its index.  The first equal entry is used again
unless it is the one at index zero. -/
def add (pool : Pool) (c : Constant) : Pool × UInt16 :=
  match pool.findIdx? (·.same c) with
  | some (index + 1) => (pool, (index + 1).toUInt16)
  | _ =>
      let grown := pool.push c
      (if c.isWide then grown.push .empty else grown, pool.size.toUInt16)

/-- Puts constants into the pool in order and answers their indices. -/
def addAll (pool : Pool) : List Constant → Pool × List UInt16
  | [] => (pool, [])
  | c :: cs =>
      let (next, index) := pool.add c
      let (last, indices) := addAll next cs
      (last, index :: indices)

/-- The entry at an index. -/
def entry (pool : Pool) (index : UInt16) : Except Fault Constant :=
  match pool[index.toNat]? with
  | some c => .ok c
  | none => .error (.invalidConstant index "valid constant pool index")

end Pool

end JavaMachine
