import Cql.Kind
import Cql.Width
import Cql.Ty

namespace Cql

/-- What could be done about a fault: whether another value, or another text, could succeed. -/
inductive Category
  | range | divideByZero | invalidArgument | logic | format
  deriving DecidableEq, Repr

namespace Category

def phrase : Category → String
  | .range => "range"
  | .divideByZero => "divide by zero"
  | .invalidArgument => "invalid argument"
  | .logic => "logic"
  | .format => "format"

end Category

inductive Operation
  | sum | difference | product | quotient
  deriving DecidableEq, Repr

namespace Operation

def phrase : Operation → String
  | .sum => "Sum"
  | .difference => "Difference"
  | .product => "Product"
  | .quotient => "Quotient"

end Operation

inductive Grammar
  | typeText | literal | validator
  deriving DecidableEq, Repr

namespace Grammar

def place : Grammar → String
  | .typeText => ""
  | .literal => "literal "
  | .validator => "validator "

def phrase : Grammar → String
  | .typeText => "type string"
  | .literal => "literal"
  | .validator => "validator"

end Grammar

inductive NumeralFault
  | empty | invalidDigit | tooLarge | tooSmall
  deriving DecidableEq, Repr

namespace NumeralFault

def message : NumeralFault → String
  | .empty => "cannot parse integer from empty string"
  | .invalidDigit => "invalid digit found in string"
  | .tooLarge => "number too large to fit in target type"
  | .tooSmall => "number too small to fit in target type"

end NumeralFault

inductive Fault
  | outOfRange (w : Width) (given : String)
  | overflow (op : Operation)
  | absOutOfRange (n : Int)
  | negOutOfRange (n : Int)
  | negativeRoot
  | belowInt
  | aboveInt
  | divideByZero
  | moduloByZero
  | notNumeric (w : Width) (given : Kind)
  | notInteger (text : String)
  | numeral (fault : NumeralFault)
  | notDouble (text : String)
  | notBoolean (text : String)
  | notBlob (hex : String)
  | notHexName (hex : String)
  | unknownCode (n : Nat)
  | abstractCode (n : Nat)
  | notType (role : String) (given : Kind)
  | argumentNotType (position : Nat)
  | argumentNotText (position : Nat)
  | oddFields
  | oddEntries
  | oddSlots
  | mismatch (expected : Ty) (given : Kind)
  | nullElement
  | indexOutOfBounds (index size : Nat)
  | unknownField (name : String)
  | scalarArity (s : Scalar) (given : Nat)
  | tupleArity (expected : Nat)
  | tupleTooLong (input : String) (expected : Nat)
  /-- A character that cannot stand where it does; positions count the bytes before it. -/
  | unexpectedChar (g : Grammar) (c : Char) (position : Nat) (input : String)
  | unexpectedEnd (g : Grammar) (input : String)
  | unknownType (name : String)
  | unsupportedClass (name : String)
  | columnFieldNotText (name : String) (given : Kind)
  | stated (category : Category) (message : String)
  | within (context : String) (cause : Fault)
  deriving Repr

namespace Fault

def category : Fault → Category
  | .outOfRange _ _ | .overflow _ | .absOutOfRange _ | .negOutOfRange _ => .range
  | .negativeRoot | .belowInt | .aboveInt => .range
  | .divideByZero | .moduloByZero => .divideByZero
  | .notInteger _ | .numeral _ | .notDouble _ | .notBoolean _ => .format
  | .notBlob _ | .notHexName _ => .format
  | .unexpectedChar _ _ _ _ | .unexpectedEnd _ _ => .format
  | .abstractCode _ => .logic
  | .notNumeric _ _ | .unknownCode _ => .invalidArgument
  | .notType _ _ | .argumentNotType _ | .argumentNotText _ => .invalidArgument
  | .oddFields | .oddEntries | .oddSlots => .invalidArgument
  | .mismatch _ _ | .nullElement | .indexOutOfBounds _ _ | .unknownField _ => .invalidArgument
  | .scalarArity _ _ | .tupleArity _ | .tupleTooLong _ _ => .invalidArgument
  | .unknownType _ | .unsupportedClass _ | .columnFieldNotText _ _ => .invalidArgument
  | .stated category _ => category
  | .within _ cause => cause.category

def message : Fault → String
  | .outOfRange w given => s!"value must be between {w.lo} and {w.hi}, {given} given"
  | .overflow op => s!"{op.phrase} is out of range"
  | .absOutOfRange n => s!"absolute value of {n} is out of range"
  | .negOutOfRange n => s!"negation of {n} is out of range"
  | .negativeRoot => "Cannot take a square root of a negative number"
  | .belowInt => "Value is too small"
  | .aboveInt => "Value is too big"
  | .divideByZero => "Cannot divide by zero"
  | .moduloByZero => "Cannot modulo by zero"
  | .notNumeric w given =>
    s!"expected a long, a double, a numeric string or a {w.name}, {given.phrase} given"
  | .notInteger text => s!"Invalid integer value: '{text}'"
  | .numeral fault => fault.message
  | .notDouble text => s!"Invalid floating point value: '{text}'"
  | .notBoolean text => s!"Invalid boolean value: '{text}'"
  | .notBlob hex => s!"Invalid blob literal '0x{hex}'"
  | .notHexName hex => s!"invalid hex name '{hex}'"
  | .unknownCode n => s!"unknown type code {hexCode n}"
  | .abstractCode n =>
    "instantiation of an abstract type is not supported: type code " ++ hexCode n ++
      " needs component types"
  | .notType role given => s!"{role} must be a type, {given.phrase} given"
  | .argumentNotType position => s!"Argument {position} is not a type"
  | .argumentNotText position => s!"Argument {position} is not a string"
  | .oddFields =>
    "Not enough name/type pairs, user types can only be created from an even number of " ++
      "name/type pairs, where each odd argument is a name and each even argument is a type, " ++
      "e.g userType(name, type, name, type, name, type)"
  | .oddEntries =>
    "Not enough key/value pairs, maps can only be created from an even number of arguments, " ++
      "where each odd argument is a key and each even argument is a value, " ++
      "e.g create(key, value, key, value)"
  | .oddSlots =>
    "Not enough name/value pairs, user type values can only be created from an even number of " ++
      "arguments, where each odd argument is a name and each even argument is a value, " ++
      "e.g create(name, value, name, value)"
  | .mismatch expected given => s!"value must be of type {expected.text}, {given.phrase} given"
  | .nullElement => "Invalid value: null is not supported inside collections"
  | .indexOutOfBounds index size => s!"Index out of bounds: {index}, tuple has {size} elements"
  | .unknownField name => s!"Invalid name '{name}'"
  | .scalarArity s given =>
    s!"{s.name} values are created from exactly one argument, {given} given"
  | .tupleArity expected => s!"Invalid number of elements given. Expected {expected} arguments."
  | .tupleTooLong input expected =>
    s!"Too many elements in tuple literal '{input}', expected {expected}"
  | .unexpectedChar g c position input =>
    s!"unexpected character '{c}' at position {position} in {g.place}'{input}'"
  | .unexpectedEnd g input => s!"unexpected end of {g.phrase} '{input}'"
  | .unknownType name => s!"unknown type '{name}'"
  | .unsupportedClass name => s!"unsupported marshal type '{name}'"
  | .columnFieldNotText name given =>
    s!"column field \"{name}\" must be a string, {given.phrase} given"
  | .stated _ message => message
  | .within context cause => s!"{context}: {cause.message}"

def debugText (f : Fault) : String := s!"[{f.category.phrase}] {f.message}"

end Fault

end Cql
