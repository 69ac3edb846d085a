import Cql.Hex
import Cql.Reader

/-!
Reading a text by positions in it. A position is the number of bytes in front of it, and the text is
looked at through pieces that are cut out of it between two positions. A cut through a character or
behind the end breaks the run off, and so does a loop that is not over after all the rounds that it
is given. What is done on the way is noted.
-/

namespace Cql

section Pieces

/-- What is left behind that many bytes, if these are whole characters at the front of the text. -/
def dropBytes? : (bytes : Nat) → List Char → Option (List Char)
  | 0, s => some s
  | _ + 1, [] => none
  | n + 1, c :: s => if c.utf8Size ≤ n + 1 then dropBytes? (n + 1 - c.utf8Size) s else none

def takeBytes? : (bytes : Nat) → List Char → Option (List Char)
  | 0, _ => some []
  | _ + 1, [] => none
  | n + 1, c :: s =>
    if c.utf8Size ≤ n + 1 then (takeBytes? (n + 1 - c.utf8Size) s).map (c :: ·) else none

def piece? (s : List Char) (lo hi : Nat) : Option (List Char) :=
  if lo ≤ hi then (dropBytes? lo s).bind (takeBytes? (hi - lo)) else none

end Pieces

/-- A text to be read, what it is read as, and how many rounds a loop is given. -/
structure Source where
  grammar : Grammar
  input : String
  rounds : Nat

abbrev Source.chars (source : Source) : List Char := source.input.toList

abbrev Source.size (source : Source) : Nat := utf8Length source.chars

namespace Scan

inductive Event
  | moved (p : Nat)
  | cut (s : List Char) (lo hi : Nat)
  | parsed (lo hi : Nat)

inductive Halt
  | refused (fault : Fault)
  | miscut
  | endless

end Scan

structure Cursor where
  position : Nat
  events : List Scan.Event

abbrev Scan (α : Type) := ExceptT Scan.Halt (StateM Cursor) α

namespace Scan

variable {α : Type}

def on (scan : Scan α) (c : Cursor) : Except Halt α × Cursor := StateT.run (ExceptT.run scan) c

def fromStart (scan : Scan α) : Except Halt α × Cursor := scan.on ⟨0, [.moved 0]⟩

def note (event : Event) : Scan Unit := modify fun c => { c with events := event :: c.events }

def position : Scan Nat := return (← get).position

/-- The only way in which the position changes. -/
def moveTo (p : Nat) : Scan Unit := modify fun c => ⟨p, .moved p :: c.events⟩

def advance (bytes : Nat) : Scan Unit := do moveTo ((← position) + bytes)

def cut (s : List Char) (lo hi : Nat) : Scan (List Char) := do
  note (.cut s lo hi)
  match piece? s lo hi with
  | some piece => return piece
  | none => throw .miscut

def cut? (s : List Char) (lo hi : Nat) : Scan (Option (List Char)) := do
  match piece? s lo hi with
  | some piece =>
    note (.cut s lo hi)
    return some piece
  | none => return none

def check (outcome : Except Fault α) : Scan α :=
  match outcome with
  | .ok x => return x
  | .error fault => throw (.refused fault)

def parsing (scan : Scan α) : Scan α := do
  let start ← position
  let x ← scan
  note (.parsed start (← position))
  return x

/-- How far a mark moves the position. Marks of validators are taken for single bytes. -/
def markWidth (g : Grammar) (c : Char) : Nat :=
  match g with
  | .validator => 1
  | .typeText | .literal => c.utf8Size

section Steps

variable (source : Source)

def peek : Scan (Option Char) := do
  let rest ← cut source.chars (← position) source.size
  return rest.head?

def unexpected : Scan α := do
  match ← peek source with
  | some c => throw (.refused (.unexpectedChar source.grammar c (← position) source.input))
  | none => throw (.refused (.unexpectedEnd source.grammar source.input))

def skipWhile (width : Char → Nat) (p : Char → Bool) : (rounds : Nat) → Scan Unit
  | 0 => throw .endless
  | rounds + 1 => do
    match ← peek source with
    | some c =>
      if p c then
        advance (width c)
        skipWhile width p rounds
      else return
    | none => return

def skipBlanks : Scan Unit := skipWhile source Char.utf8Size isBlank source.rounds

def eat (c : Char) : Scan Bool := do
  skipBlanks source
  if (← peek source) = some c then
    advance (markWidth source.grammar c)
    return true
  else return false

def expect (c : Char) : Scan Unit := do
  if ← eat source c then return else unexpected source

def run (width : Char → Nat) (p : Char → Bool) : Scan (List Char) := do
  let start ← position
  skipWhile source width p source.rounds
  if start = (← position) then unexpected source
  else cut source.chars start (← position)

def quoted (quote : Char) : (rounds : Nat) → Scan (List Char)
  | 0 => throw .endless
  | rounds + 1 => do
    match ← peek source with
    | some c =>
      advance c.utf8Size
      if c = quote then
        if (← peek source) = some quote then
          advance 1
          return quote :: (← quoted quote rounds)
        else return []
      else return c :: (← quoted quote rounds)
    | none => unexpected source

def items (item : Scan α) (closing : Char) : (rounds : Nat) → Scan (List α)
  | 0 => throw .endless
  | rounds + 1 => do
    let x ← item
    if ← eat source closing then return [x]
    else
      expect source ','
      return x :: (← items item closing rounds)

def list (item : Scan α) (closing : Char) : Scan (List α) := do
  if ← eat source closing then return [] else items source item closing source.rounds

def whole (scan : Scan α) : Scan α := do
  let x ← scan
  skipBlanks source
  if (← position) < source.size then unexpected source else return x

end Steps

def byteAt (fault : Fault) (hex : List Char) (i : Nat) : Scan UInt8 := do
  match ← cut hex i (i + 2) with
  | [a, b] =>
    match Hex.pair? a b with
    | some byte => return byte
    | none => throw (.refused fault)
  | _ => throw (.refused fault)

def hexBytes (fault : Fault) (hex : List Char) : Scan (List UInt8) :=
  (List.range' 0 (utf8Length hex / 2) 2).mapM (byteAt fault hex)

end Scan

end Cql
