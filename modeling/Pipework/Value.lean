import Pipework.Fault
import Pipework.Line.Quoting

/-!
# Values

Builders are handed values that need not be texts: an argument may be a number, and a program
may be set to anything. A value has one text for use as an argument and one for inspection.

## Main definitions

* `Value` — texts, integers, truth values, nothing, lists and records
* `Value.kind` — the word for what a value is
* `Value.inspect` — the value as it would be written down
* `Value.display` — the value as an argument
* `Value.items` — the values that a value consists of
* `Value.quote` — the value as one word of a line
-/

namespace Pipework

/-- What builders are handed. The names and the values of a record are in the same order. -/
inductive Value where
  | text (s : String)
  | int (n : Int)
  | bool (b : Bool)
  | null
  | list (items : List Value)
  | record (names : List String) (values : List Value)

namespace Value

/-- The word for what a value is. -/
def kind : Value → String
  | text _ => "str"
  | int _ => "int"
  | bool _ => "bool"
  | null => "NoneType"
  | list _ => "list"
  | record .. => "dict"

/-- Values that are empty, zero or false count as nothing. -/
def isNothing : Value → Bool
  | text s => s.isEmpty
  | int n => n == 0
  | bool b => !b
  | null => true
  | list items => items.isEmpty
  | record names _ => names.isEmpty

mutual

/-- The value as it would be written down. -/
def inspect : Value → String
  | text s => Text.literal s
  | int n => toString n
  | bool true => "True"
  | bool false => "False"
  | null => "None"
  | list items => "[" ++ ", ".intercalate (inspectAll items) ++ "]"
  | record names values =>
    let fields := (names.zip (inspectAll values)).map fun (name, value) =>
      Text.literal name ++ ": " ++ value
    "\x7b" ++ ", ".intercalate fields ++ "\x7d"

/-- Each of the values as it would be written down. -/
def inspectAll : List Value → List String
  | [] => []
  | v :: vs => v.inspect :: inspectAll vs

end

/-- The value as an argument: a text is itself. -/
def display : Value → String
  | text s => s
  | v => v.inspect

/-- A truth value is the number zero or one where it meets a number. -/
def asNumber? : Value → Option Int
  | int n => some n
  | bool b => some (if b then 1 else 0)
  | _ => none

mutual

/-- Values are equal if they hold the same, truth values and numbers taken together. -/
def same : Value → Value → Bool
  | text s, text t => s == t
  | null, null => true
  | list xs, list ys => sameAll xs ys
  | record ns xs, record ms ys => ns == ms && sameAll xs ys
  | x, y =>
    match x.asNumber?, y.asNumber? with
    | some m, some n => m == n
    | _, _ => false

/-- Lists of values are equal if they hold equal values in the same order. -/
def sameAll : List Value → List Value → Bool
  | [], [] => true
  | x :: xs, y :: ys => x.same y && sameAll xs ys
  | _, _ => false

end

/-- The values that a value consists of: the items of a list, the characters of a text, the
names of a record. Other values consist of nothing and are refused. -/
def items : Value → Except Fault (List Value)
  | list items => .ok items
  | text s => .ok (s.toList.map fun c => text c.toString)
  | record names _ => .ok (names.map text)
  | v => .error ⟨.wrongType, "'" ++ v.kind ++ "' object is not iterable"⟩

/-- The value as one word of a line. Only a text has characters to quote. -/
def quote : Value → Except Fault String
  | text s => .ok (Line.quote s)
  | v =>
    if v.isNothing then .ok (Line.quote "")
    else .error ⟨.wrongType, "expected string or bytes-like object, got '" ++ v.kind ++ "'"⟩

end Value

end Pipework
