import Mathlib.Data.Bool.AllAny
import Mathlib.Data.Finset.Basic
import Mathlib.Algebra.Ring.Int.Defs
import Mathlib.Algebra.Ring.Nat
import Mathlib.Data.Int.Order.Basic
import Mathlib.Data.List.DropRight
import Mathlib.Data.List.Infix
import Mathlib.Tactic.Common
import DataRelay.Lib.Dict
import DataRelay.Lib.Sha256

/-! What the modelled modules take from Python: the exceptions they raise, the clock, and the string
    methods they call. -/

namespace DataRelay
open Lib

/-- `OAuthError` and `OAuthStateError`, and the built-in exceptions that reach a caller. -/
inductive PyError where
  | oauth (error description : String) (status : ℕ)
  | oauthState (message : String)
  | typeError
  | valueError
  | unicodeError
  | osError
  | httpException
deriving DecidableEq, Repr

/-- A function that returned behind a guard was not stopped by it. -/
theorem guard_ok {ε α : Type} {c : Prop} [Decidable c] {e : ε} {x : Except ε α} {y : α} :
    (if c then .error e else x) = .ok y ↔ ¬ c ∧ x = .ok y := by
  split <;> simp [*]

/-- A reading of the clock, in ticks of `10⁻⁷` seconds. -/
abbrev Time := ℤ

def seconds (n : ℤ) : Time := n * 10 ^ 7

/-- `int(t)`: whole seconds, towards zero. -/
def Time.toInt (t : Time) : ℤ := t.tdiv (10 ^ 7)

/-- The code points of white space. -/
def isSpaceCode (n : ℕ) : Bool :=
  (9 ≤ n && n ≤ 13) || (28 ≤ n && n ≤ 32) || n == 0x85 || n == 0xa0 || n == 0x1680 ||
    (0x2000 ≤ n && n ≤ 0x200a) || n == 0x2028 || n == 0x2029 || n == 0x202f || n == 0x205f ||
    n == 0x3000

/-- `str.isspace`, one character. -/
def isSpace (c : Char) : Bool := isSpaceCode c.toNat

/-- `str.strip()`. -/
def strip (s : String) : String :=
  String.ofList ((s.toList.dropWhile isSpace).rdropWhile isSpace)

/-- `part in text`. -/
def isIn (part text : String) : Bool := decide (part.toList <:+: text.toList)

/-- `str.lower()`, as far as ASCII text comes of it: the Kelvin sign is the only other character that
    becomes an ASCII letter by itself. -/
def lower (s : String) : String :=
  String.ofList (s.toList.map fun c => if c.toNat = 0x212a then 'k' else c.toLower)

/-- One character of `str.upper()`, as far as ASCII text comes of it. -/
def upperChar (c : Char) : List Char :=
  match c.toNat with
  | 0xdf => ['S', 'S']
  | 0x131 => ['I']
  | 0x17f => ['S']
  | 0xfb00 => ['F', 'F']
  | 0xfb01 => ['F', 'I']
  | 0xfb02 => ['F', 'L']
  | 0xfb03 => ['F', 'F', 'I']
  | 0xfb04 => ['F', 'F', 'L']
  | 0xfb05 | 0xfb06 => ['S', 'T']
  | _ => [c.toUpper]

/-- `str.upper()`. -/
def upper (s : String) : String := String.ofList (s.toList.flatMap upperChar)

/-- The words of a text; `word` is the one being read, newest character first. -/
def splitAux : List Char → List Char → List String
  | word, [] => if word = [] then [] else [String.ofList word.reverse]
  | word, c :: cs =>
    if isSpace c then (if word = [] then [] else [String.ofList word.reverse]) ++ splitAux [] cs
    else splitAux (c :: word) cs

/-- `str.split()`. -/
def split (s : String) : List String := splitAux [] s.toList

/-- `d.get(key, default)` on a map of strings. -/
def getD (d : Dict String String) (key default : String) : String := (d.get? key).getD default

/-- The zeros of the decimal digits. -/
def decimalZeros : List ℕ :=
  [0x30, 0x660, 0x6f0, 0x7c0, 0x966, 0x9e6, 0xa66, 0xae6, 0xb66, 0xbe6, 0xc66, 0xce6, 0xd66, 0xde6,
    0xe50, 0xed0, 0xf20, 0x1040, 0x1090, 0x17e0, 0x1810, 0x1946, 0x19d0, 0x1a80, 0x1a90, 0x1b50,
    0x1bb0, 0x1c40, 0x1c50, 0xa620, 0xa8d0, 0xa900, 0xa9d0, 0xa9f0, 0xaa50, 0xabf0, 0xff10, 0x104a0,
    0x10d30, 0x11066, 0x110f0, 0x11136, 0x111d0, 0x112f0, 0x11450, 0x114d0, 0x11650, 0x116c0,
    0x11730, 0x118e0, 0x11950, 0x11c50, 0x11d50, 0x11da0, 0x11f50, 0x16a60, 0x16ac0, 0x16b50,
    0x1d7ce, 0x1d7d8, 0x1d7e2, 0x1d7ec, 0x1d7f6, 0x1e140, 0x1e2f0, 0x1e4f0, 0x1e950, 0x1fbf0]

def digitValue (c : Char) : Option ℕ :=
  (decimalZeros.find? fun z => z ≤ c.toNat && c.toNat < z + 10).map (c.toNat - ·)

/-- The digits of a number; an underscore may stand between two of them. -/
def digitsAux : List Char → Option (List ℕ)
  | [] => none
  | [c] => (digitValue c).map ([·])
  | c :: '_' :: cs => (digitValue c).bind fun d => (digitsAux cs).map (d :: ·)
  | c :: cs => (digitValue c).bind fun d => (digitsAux cs).map (d :: ·)

/-- `int(text)`; a text of more than 4300 digits is refused. -/
def int (text : String) : Except PyError ℤ :=
  let (negative, cs) := match (strip text).toList with
    | '-' :: cs => (true, cs)
    | '+' :: cs => (false, cs)
    | cs => (false, cs)
  match digitsAux cs with
  | none => .error .valueError
  | some ds =>
    if 4300 < ds.length then .error .valueError
    else
      let n : ℕ := ds.foldl (fun n d => 10 * n + d) 0
      .ok (if negative then -n else n)

def isAscii (s : String) : Bool := s.toList.all fun c => c.toNat < 128

/-- `str.encode("ascii")`. -/
def encodeAscii (s : String) : Except PyError (List ℕ) :=
  if isAscii s then .ok (s.toList.map Char.toNat) else .error .unicodeError

/-- `secrets.compare_digest` on two strings: only ASCII strings can be compared. -/
def compareDigest (a b : String) : Except PyError Bool :=
  if isAscii a ∧ isAscii b then .ok (a = b) else .error .typeError

end DataRelay
