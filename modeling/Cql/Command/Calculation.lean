import Cql.Command.Fault
import Cql.Fixed
import Cql.Text.Blank

namespace Cql

inductive BinaryOperator
  | add | sub | mul | div | rem
  deriving DecidableEq, Repr

inductive UnaryOperator
  | abs | neg | sqrt
  deriving DecidableEq, Repr

namespace BinaryOperator

def ofText? : String → Option BinaryOperator
  | "add" | "+" => some .add
  | "sub" | "-" => some .sub
  | "mul" | "x" | "*" => some .mul
  | "div" | "/" => some .div
  | "mod" | "%" => some .rem
  | _ => none

def apply {w : Width} : BinaryOperator → Fixed w → Fixed w → Except Fault (Fixed w)
  | .add => Fixed.add
  | .sub => Fixed.sub
  | .mul => Fixed.mul
  | .div => Fixed.div
  | .rem => Fixed.rem

end BinaryOperator

namespace UnaryOperator

def ofText? : String → Option UnaryOperator
  | "abs" => some .abs
  | "neg" => some .neg
  | "sqrt" => some .sqrt
  | _ => none

def apply {w : Width} : UnaryOperator → Fixed w → Except Fault (Fixed w)
  | .abs => Fixed.abs
  | .neg => Fixed.neg
  | .sqrt => Fixed.sqrt

end UnaryOperator

structure Calculation where
  width : Width
  left : String
  operator : String
  right : Option String
  deriving DecidableEq, Repr

namespace Calculation

def operand (w : Width) (s : String) : Except CommandFault (Fixed w) :=
  ofValue (Fixed.ofText w (String.ofList (trim s.toList)))

/-- The result. The left operand is read first, then the operator, then the right operand. -/
def eval (c : Calculation) : Except CommandFault (Fixed c.width) := do
  let a ← operand c.width c.left
  match BinaryOperator.ofText? c.operator, UnaryOperator.ofText? c.operator, c.right with
  | some op, _, some right => do ofValue (op.apply a (← operand c.width right))
  | some _, _, none => throw (.missingOperand c.operator)
  | none, some op, none => ofValue (op.apply a)
  | none, some _, some _ => throw (.unexpectedOperand c.operator)
  | none, none, _ => throw (.unknownOperator c.operator)

end Calculation

end Cql
