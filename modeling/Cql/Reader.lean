import Cql.Fault
import Cql.Text.Blank

/-!
Reading a text from left to right. A reader is given what is left of the text and gives back what
it leaves; blanks in front of a token are passed over by the reader of the token. Where a reader
stops, what is left there tells the position.
-/

namespace Cql

/-- Why reading stopped: at something that may not stand there, or for a fault of what was read. -/
inductive Stop
  | unexpected (rest : List Char)
  | refused (fault : Fault)

abbrev Reader (α : Type) := List Char → Except Stop (α × List Char)

def utf8Length : List Char → Nat
  | [] => 0
  | c :: s => c.utf8Size + utf8Length s

namespace Stop

def fault (g : Grammar) (input : String) : Stop → Fault
  | .unexpected [] => .unexpectedEnd g input
  | .unexpected (c :: rest) =>
    .unexpectedChar g c (utf8Length input.toList - utf8Length (c :: rest)) input
  | .refused fault => fault

end Stop

namespace Reader

def eat? (c : Char) (s : List Char) : Option (List Char) :=
  match trimStart s with
  | d :: rest => if d = c then some rest else none
  | [] => none

def expect (c : Char) (s : List Char) : Except Stop (List Char) :=
  match eat? c s with
  | some rest => .ok rest
  | none => .error (.unexpected (trimStart s))

/-- The rest of a text in quotes, in which two quotes stand for one. -/
def quoted (quote : Char) : Reader (List Char)
  | [] => .error (.unexpected [])
  | [c] => if c = quote then .ok ([], []) else .error (.unexpected [])
  | c :: d :: s =>
    if c = quote then
      if d = quote then do
        let (text, s) ← quoted quote s
        return (quote :: text, s)
      else .ok ([], d :: s)
    else do
      let (text, s) ← quoted quote (d :: s)
      return (c :: text, s)

def items {α : Type} (item : Reader α) (closing : Char) : (fuel : Nat) → Reader (List α)
  | 0, s => .error (.unexpected s)
  | fuel + 1, s => do
    let (x, s) ← item s
    match eat? closing s with
    | some s => return ([x], s)
    | none =>
      let s ← expect ',' s
      let (xs, s) ← items item closing fuel s
      return (x :: xs, s)

/-- Items, or none at all, up to the closing character. Every item takes up some of the text, so
there are no more of them than characters. -/
def list {α : Type} (item : Reader α) (closing : Char) : Reader (List α) := fun s =>
  match eat? closing s with
  | some s => .ok ([], s)
  | none => items item closing (s.length + 1) s

def whole {α : Type} (g : Grammar) (reader : Reader α) (input : String) : Except Fault α :=
  match reader input.toList with
  | .error stop => .error (stop.fault g input)
  | .ok (x, rest) =>
    match trimStart rest with
    | [] => .ok x
    | rest => .error (Stop.fault g input (.unexpected rest))

end Reader

end Cql
