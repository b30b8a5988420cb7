import JavaMachine.Value

/-!
# Answers

A host acts on a machine from outside, and every action is answered.  An answer is a value, a
fault, a number, a text, or a list or record of answers.  What a host script does on behalf of a
native method is noted down with its answer.
-/

namespace JavaMachine

/-- The answer of an action. -/
inductive Answer where
  | none
  | flag (b : Bool)
  | number (n : Int)
  | text (s : String)
  | value (v : Value)
  | fault (f : Fault)
  | list (items : List Answer)
  /-- Answers with names. -/
  | record (fields : List (String × Answer))
  deriving Inhabited

namespace Answer

/-- The answer of a number or of nothing. -/
def ofNat? (n : Option Nat) : Answer :=
  match n with
  | some n => number n
  | Option.none => none

/-- The answer of a text or of nothing. -/
def ofText? (s : Option String) : Answer :=
  match s with
  | some s => text s
  | Option.none => none

/-- The answer of a value or of nothing. -/
def ofValue? (v : Option Value) : Answer :=
  match v with
  | some v => value v
  | Option.none => none

/-- The answer of a result or of the fault in its place. -/
def ofExcept {α : Type} (f : α → Answer) : Except Fault α → Answer
  | .ok a => f a
  | .error e => fault e

end Answer

/-- An action that a host script took, with its answer. -/
structure Note where
  /-- The name of the script. -/
  script : String
  /-- The name of the action. -/
  action : String
  /-- The answer. -/
  answer : Answer

end JavaMachine
