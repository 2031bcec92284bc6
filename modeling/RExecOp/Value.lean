import Mathlib.Data.Rat.Defs

/-! JSON-compatible values as the runtime holds them. Numbers compare across `bool`, `int` and
`float` by value. -/

namespace RExecOp

inductive Value where
  | null
  | bool (b : Bool)
  | int (n : Int)
  | float (q : ℚ)
  | str (s : String)
  | list (items : List Value)
  | dict (entries : List (String × Value))

abbrev Entries := List (String × Value)

namespace Value

def number : Value → Option ℚ
  | .bool b => some (if b then 1 else 0)
  | .int n => some n
  | .float q => some q
  | _ => none

def isDict : Value → Bool
  | .dict _ => true
  | _ => false

def truthy : Value → Bool
  | .null => false
  | .bool b => b
  | .int n => n != 0
  | .float q => q != 0
  | .str s => s != ""
  | .list items => !items.isEmpty
  | .dict entries => !entries.isEmpty

-- Equality is the language's `==`: element-wise on lists, by key on mappings whatever
-- their order, by value on numbers.

mutual

def eq : Value → Value → Bool
  | .null, .null => true
  | .str a, .str b => a == b
  | .list xs, .list ys => eqList xs ys
  | .dict xs, .dict ys => xs.length == ys.length && eqEntries xs ys
  | a, b => match a.number, b.number with
    | some x, some y => x == y
    | _, _ => false

def eqList : List Value → List Value → Bool
  | [], [] => true
  | x :: xs, y :: ys => eq x y && eqList xs ys
  | _, _ => false

def eqEntries : Entries → Entries → Bool
  | [], _ => true
  | (key, x) :: rest, ys =>
    (match ys.lookup key with
      | some y => eq x y
      | none => false) && eqEntries rest ys

end

def get (entries : Entries) (key : String) : Value := (entries.lookup key).getD .null

def orElse (first second : Value) : Value := if first.truthy then first else second

end Value

/-- The characters `str.strip` removes. -/
def isSpace (c : Char) : Bool :=
  let n := c.toNat
  (9 ≤ n && n ≤ 13) || (28 ≤ n && n ≤ 32) || n == 133 || n == 160 || n == 5760 ||
    (8192 ≤ n && n ≤ 8202) || n == 8232 || n == 8233 || n == 8239 || n == 8287 || n == 12288

def strip (s : String) : String :=
  String.ofList (((s.toList.dropWhile isSpace).reverse.dropWhile isSpace).reverse)

def splitDots (s : String) : List String := (s.toList.splitOn '.').map String.ofList

/-- `str(first or second)` on texts. -/
def orElse (first second : String) : String := if first = "" then second else first

end RExecOp
