import EmsFixtures.Lib.F64

/-!
# JSON values

`serde_json::Value` with its numbers read as `f64`, and the two ways to read into one: indexing, which gives `null` for
what is not there, and JSON pointers, which give `none`.
-/

namespace EmsFixtures

inductive Json (F : Type) where
  | null
  | bool (b : Bool)
  | number (x : F)
  | string (s : String)
  | array (items : List (Json F))
  | object (fields : List (String × Json F))

namespace Json

variable {F : Type}

/-- `map.get(key)` of an object. -/
def get (v : Json F) (key : String) : Option (Json F) :=
  match v with
  | .object fields => fields.lookup key
  | _ => none

/-- `v[key]`. -/
def index (v : Json F) (key : String) : Json F := (v.get key).getD .null

def asF64 : Json F → Option F
  | .number x => some x
  | _ => none

/-- `json!(x)` of an `f64`: no number of JSON is infinite or NaN. -/
def ofF64 [F64 F] (x : F) : Json F := if F64.isFinite x then .number x else .null

/-! ### Pointers -/

/-- `~1` is a slash, `~0` a tilde. -/
def unescape : List Char → List Char
  | '~' :: '1' :: l => '/' :: unescape l
  | '~' :: '0' :: l => '~' :: unescape l
  | c :: l => c :: unescape l
  | [] => []

/-- The index of an array that a token names, written without sign or leading zero. -/
def parseIndex (token : List Char) : Option Nat :=
  if token = [] ∨ !token.all Char.isDigit ∨ (token.head? = some '0' ∧ token.length ≠ 1) then none
  else
    let n := token.foldl (fun n c => n * 10 + (c.toNat - '0'.toNat)) 0
    if n < 2 ^ 64 then some n else none

def child (v : Json F) (token : List Char) : Option (Json F) :=
  match v with
  | .object fields => fields.lookup (String.ofList token)
  | .array items => (parseIndex token).bind fun i => items[i]?
  | _ => none

/-- `v.pointer(path)`. -/
def pointer (v : Json F) (path : String) : Option (Json F) :=
  match path.toList with
  | [] => some v
  | '/' :: rest => ((rest.splitOn '/').map unescape).foldlM child v
  | _ => none

end Json

end EmsFixtures
