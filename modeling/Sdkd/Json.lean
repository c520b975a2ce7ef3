import Mathlib.Algebra.Group.Int.Defs
import Mathlib.Algebra.Group.Nat.Defs

/-!
# JSON values

The values of the JSON library the daemon is linked with. The library is not part of the sources:
its value domain is public, and what the daemon calls on it is either determined by that domain
(member and element access, tests for a kind) or a field of `JsonAccess`, `JsonWriter` and
`JsonReader`, together with the documented behaviour the daemon relies on.

A `std::string` is a `String` whose characters stand for single bytes.
-/

namespace Sdkd

inductive Json where
  | null
  | bool (b : Bool)
  | int (i : ℤ)
  | uint (n : ℕ)
  | real (mantissa exponent : ℤ)
  | string (s : String)
  | array (items : List Json)
  | object (members : List (String × Json))
  deriving Inhabited

namespace Json

/-- `!value`. -/
def isNull : Json → Bool
  | .null => true
  | _ => false

def isString : Json → Bool
  | .string _ => true
  | _ => false

def isArray : Json → Bool
  | .array _ => true
  | _ => false

def isObject : Json → Bool
  | .object _ => true
  | _ => false

/-- `value[name]`: null for a missing member. -/
def get : Json → String → Json
  | .object ms, name => (ms.lookup name).getD .null
  | _, _ => .null

/-- `value[idx]`: null outside the array. -/
def index : Json → ℤ → Json
  | .array xs, idx => if idx < 0 then .null else xs.getD idx.toNat .null
  | _, _ => .null

def size : Json → ℕ
  | .array xs => xs.length
  | .object ms => ms.length
  | _ => 0

def isMember : Json → String → Bool
  | .object ms, name => (ms.lookup name).isSome
  | _, _ => false

/-- `value[name] = v` on an object, or on a null which thereby becomes one. -/
def set : Json → String → Json → Json
  | .object ms, name, v => .object (ms.filter (·.1 ≠ name) ++ [(name, v)])
  | _, name, v => .object [(name, v)]

/-- `value.append(v)` on an array, or on a null which thereby becomes one. -/
def append : Json → Json → Json
  | .array xs, v => .array (xs ++ [v])
  | _, v => .array [v]

end Json

/-- The conversions of the library, on values of the kinds they accept. `asTruthVal` is an addition
of the linked fork. Whether `isObject()` holds of a null depends on the version of the library. -/
class JsonAccess where
  isObject : Json → Bool
  asString : Json → String
  asUInt : Json → ℕ
  asInt : Json → ℤ
  asInt64 : Json → ℤ
  asBool : Json → Bool
  asTruthVal : Json → Bool
  isUInt : Json → Bool
  asUInt64 : Json → ℕ
  asString_string : ∀ s, asString (.string s) = s
  asUInt_lt : ∀ j, asUInt j < 2 ^ 32
  isObject_object : ∀ ms, isObject (.object ms) = true
  isObject_other : ∀ j, j.isObject = false → j.isNull = false → isObject j = false

/-- `Json::FastWriter`: one line of text for every value. -/
class JsonWriter where
  write : Json → String
  write_line : ∀ j, ∃ body, (write j).toList = body ++ ['\n'] ∧ '\n' ∉ body

/-- `Json::Reader`: a value, or the formatted error messages. -/
class JsonReader where
  parse : String → Except String Json

export JsonAccess (isObject asString asUInt asInt asInt64 asBool asTruthVal isUInt asUInt64)

namespace Json

/-- The characters of a string literal. -/
def escape (s : String) : List Char :=
  s.toList.flatMap fun c =>
    if c = '"' then ['\\', '"']
    else if c = '\\' then ['\\', '\\']
    else if c = '\n' then ['\\', 'n']
    else if c = '\r' then ['\\', 'r']
    else if c = '\t' then ['\\', 't']
    else [c]

mutual

def render : Json → List Char
  | .null => "null".toList
  | .bool b => (if b then "true" else "false").toList
  | .int i => (toString i).toList
  | .uint n => (toString n).toList
  | .real m e => (toString m ++ "e" ++ toString e).toList
  | .string s => '"' :: escape s ++ ['"']
  | .array xs => '[' :: renderItems xs ++ [']']
  | .object ms => '{' :: renderMembers ms ++ ['}']

def renderItems : List Json → List Char
  | [] => []
  | [x] => render x
  | x :: y :: xs => render x ++ ',' :: renderItems (y :: xs)

def renderMembers : List (String × Json) → List Char
  | [] => []
  | [(k, v)] => '"' :: escape k ++ '"' :: ':' :: render v
  | (k, v) :: m :: ms => '"' :: escape k ++ '"' :: ':' :: (render v ++ ',' :: renderMembers (m :: ms))

end

end Json

/-- Conversions that agree with the library on values of the kind asked for and give the null value's
result elsewhere. -/
@[reducible] def JsonAccess.plain : JsonAccess where
  isObject := Json.isObject
  asString := fun j => match j with | .string s => s | _ => ""
  asUInt := fun j => match j with | .int i => i.toNat % 2 ^ 32 | .uint n => n % 2 ^ 32 | _ => 0
  asInt := fun j => match j with | .int i => i | .uint n => n | _ => 0
  asInt64 := fun j => match j with | .int i => i | .uint n => n | _ => 0
  asBool := fun j => match j with | .bool b => b | _ => false
  asTruthVal := fun j => match j with
    | .bool b => b
    | .int i => i ≠ 0
    | .uint n => n ≠ 0
    | .string s => s ≠ ""
    | .array xs => !xs.isEmpty
    | .object ms => !ms.isEmpty
    | _ => false
  isUInt := fun j => match j with | .int i => 0 ≤ i ∧ i < 2 ^ 32 | .uint n => n < 2 ^ 32 | _ => false
  asUInt64 := fun j => match j with | .int i => i.toNat | .uint n => n | _ => 0
  asString_string := fun _ => rfl
  asUInt_lt := by
    intro j
    cases j <;> first | exact Nat.mod_lt _ (by decide) | exact Nat.two_pow_pos _
  isObject_object := fun _ => rfl
  isObject_other := fun _ h _ => h

/-- The compact rendering on one line. -/
@[reducible] def JsonWriter.compact : JsonWriter where
  write := fun j => String.ofList ((Json.render j).filter (· ≠ '\n') ++ ['\n'])
  write_line := fun j => ⟨(Json.render j).filter (· ≠ '\n'), by simp, by simp⟩

end Sdkd
