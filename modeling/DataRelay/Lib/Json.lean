import Mathlib.Data.Nat.Digits.Defs
import Mathlib.Data.String.Basic
import DataRelay.Lib.Dict

/-! JSON values and their text: `dumps` writes the compact ASCII form with sorted keys, `loads`
    reads any JSON text.

    A float is a fixed-point decimal, counted in units of `10⁻⁷`: the text of a float is its
    shortest decimal form with at least one place, and reading truncates what is finer. Everything
    else follows the usual rules: `\uXXXX` escapes for what is not printable ASCII, surrogate pairs
    above the basic plane, a repeated key keeps its last value. Characters are scalar values, so a
    text with a lone surrogate escape is refused, and so are `NaN` and the infinities.

    The reader takes fuel, and every recursive call spends one unit; the length of the text is
    always enough. -/

namespace Lib

/-- A JSON value, with the fields of an object in the order they were written. -/
inductive Json where
  | null
  | bool (b : Bool)
  | int (n : ℤ)
  | float (units : ℤ)
  | str (s : String)
  | arr (items : List Json)
  | obj (fields : List (String × Json))

namespace Json

/-- The field of an object, `none` for a missing key and for every other value. -/
def get? : Json → String → Option Json
  | .obj fields, k => (fields.find? (·.1 = k)).map Prod.snd
  | _, _ => none

/-! ### Writing -/

/-- The decimal digit of `d`, for `d < 10`. -/
def digitChar (d : ℕ) : Char := Char.ofNat (48 + d)

/-- A natural number in decimal. -/
def natText (n : ℕ) : List Char :=
  if n = 0 then ['0'] else (Nat.digits 10 n).reverse.map digitChar

/-- The decimal places of `r / 10^w`, without trailing zeros but at least one. -/
def fracText : ℕ → ℕ → List Char
  | 0, _ => []
  | w + 1, r => digitChar (r / 10 ^ w) :: if r % 10 ^ w = 0 then [] else fracText w (r % 10 ^ w)

/-- The minus sign of a negative number. -/
def signText (n : ℤ) : List Char := if n < 0 then ['-'] else []

/-- An integer in decimal. -/
def intText (n : ℤ) : List Char := signText n ++ natText n.natAbs

/-- The decimal form of a float. -/
def floatText (n : ℤ) : List Char :=
  signText n ++ natText (n.natAbs / 10 ^ 7) ++ '.' :: fracText 7 (n.natAbs % 10 ^ 7)

/-- The hexadecimal digit of `d`, for `d < 16`, in lower case. -/
def hexChar (d : ℕ) : Char := Char.ofNat (if d < 10 then 48 + d else 87 + d)

/-- The last four hexadecimal digits of `n`. -/
def hex4 (n : ℕ) : List Char :=
  [hexChar (n / 4096 % 16), hexChar (n / 256 % 16), hexChar (n / 16 % 16), hexChar (n % 16)]

/-- One character of a string literal. -/
def escape (c : Char) : List Char :=
  if c = '"' then ['\\', '"']
  else if c = '\\' then ['\\', '\\']
  else if c = '\n' then ['\\', 'n']
  else if c = '\r' then ['\\', 'r']
  else if c = '\t' then ['\\', 't']
  else if c.toNat = 12 then ['\\', 'f']
  else if c.toNat = 8 then ['\\', 'b']
  else if 32 ≤ c.toNat ∧ c.toNat ≤ 126 then [c]
  else if c.toNat < 65536 then '\\' :: 'u' :: hex4 c.toNat
  else '\\' :: 'u' :: hex4 (55296 + (c.toNat - 65536) / 1024) ++
    '\\' :: 'u' :: hex4 (56320 + (c.toNat - 65536) % 1024)

/-- The characters of a string. Where every byte is ASCII they are read off the bytes, which
    evaluates in one pass. -/
def chars (s : String) : List Char :=
  let bytes := s.toByteArray.data.toList
  if bytes.all (· < 128) then bytes.map fun b => Char.ofNat b.toNat else s.toList

/-- A character whose encoding is ASCII is encoded as its own code point. -/
theorem map_utf8EncodeChar (c : Char) (h : (String.utf8EncodeChar c).all (· < 128) = true) :
    (String.utf8EncodeChar c).map (fun b => Char.ofNat b.toNat) = [c] := by
  simp only [String.utf8EncodeChar] at h ⊢
  split at h
  · rename_i hle
    have hc : c.val.toNat % 2 ^ 8 = c.toNat := Nat.mod_eq_of_lt (Nat.lt_of_le_of_lt hle (by decide))
    rw [if_pos hle, List.map_cons, List.map_nil, UInt8.toNat_ofNat', hc, Char.ofNat_toNat]
  -- every byte of a longer encoding is at least 128
  all_goals
    exfalso
    repeat' split at h
    all_goals
      simp only [List.all_cons, List.all_nil, Bool.and_eq_true, decide_eq_true_eq,
        UInt8.lt_iff_toNat_lt, UInt8.toNat_ofNat', UInt8.reduceToNat] at h
      omega

theorem map_utf8Encode : ∀ cs : List Char,
    (cs.flatMap String.utf8EncodeChar).all (· < 128) = true →
    (cs.flatMap String.utf8EncodeChar).map (fun b => Char.ofNat b.toNat) = cs
  | [], _ => rfl
  | c :: cs, h => by
    rw [List.flatMap_cons, List.all_append, Bool.and_eq_true] at h
    rw [List.flatMap_cons, List.map_append, map_utf8EncodeChar c h.1, map_utf8Encode cs h.2]
    rfl

@[simp] theorem chars_eq (s : String) : chars s = s.toList := by
  obtain ⟨cs, rfl⟩ := s.exists_eq_ofList
  have hbytes : (String.ofList cs).toByteArray.data.toList = cs.flatMap String.utf8EncodeChar := by
    simp [List.utf8Encode]
  rw [chars]
  split
  · next hall =>
    rw [hbytes] at hall ⊢
    rw [map_utf8Encode cs hall, String.toList_ofList]
  · rfl

/-- The text of a string literal, quotes included. -/
def strText (s : String) : List Char := '"' :: (chars s).flatMap escape ++ ['"']

theorem strText_eq (s : String) : strText s = '"' :: s.toList.flatMap escape ++ ['"'] := by
  rw [strText, chars_eq]

mutual

/-- The text of a value, its fields in the order they stand. -/
def text : Json → List Char
  | .null => ['n', 'u', 'l', 'l']
  | .bool true => ['t', 'r', 'u', 'e']
  | .bool false => ['f', 'a', 'l', 's', 'e']
  | .int n => intText n
  | .float x => floatText x
  | .str s => strText s
  | .arr items => '[' :: itemsText items
  | .obj fields => '{' :: fieldsText fields

/-- The items of an array and its closing bracket. -/
def itemsText : List Json → List Char
  | [] => [']']
  | v :: vs => text v ++ moreItems vs

/-- The items after the first, each behind its comma, and the closing bracket. -/
def moreItems : List Json → List Char
  | [] => [']']
  | v :: vs => ',' :: text v ++ moreItems vs

/-- The fields of an object and its closing brace. -/
def fieldsText : List (String × Json) → List Char
  | [] => ['}']
  | (k, v) :: fs => strText k ++ ':' :: text v ++ moreFields fs

/-- The fields after the first, each behind its comma, and the closing brace. -/
def moreFields : List (String × Json) → List Char
  | [] => ['}']
  | (k, v) :: fs => ',' :: strText k ++ ':' :: text v ++ moreFields fs

end

/-- The fields sorted by key, equal keys in their old order. -/
def sortFields (fields : List (String × Json)) : List (String × Json) :=
  fields.insertionSort fun a b => a.1 ≤ b.1

mutual

/-- Every object of the value, with its fields sorted by key. -/
def sortKeys : Json → Json
  | .arr items => .arr (sortItems items)
  | .obj fields => .obj (sortFields (sortValues fields))
  | v => v

/-- The items of an array, each with its keys sorted. -/
def sortItems : List Json → List Json
  | [] => []
  | v :: vs => sortKeys v :: sortItems vs

/-- The fields of an object in their old order, each value with its keys sorted. -/
def sortValues : List (String × Json) → List (String × Json)
  | [] => []
  | (k, v) :: fs => (k, sortKeys v) :: sortValues fs

end

/-- The compact text with sorted keys. -/
def dumps (v : Json) : List Char := text (sortKeys v)

/-! ### Reading -/

/-- The four characters that may stand between two tokens. -/
def isSpace (c : Char) : Bool := c = ' ' ∨ c = '\t' ∨ c = '\n' ∨ c = '\r'

/-- The text from its first character that is not a space. -/
def skipWs (cs : List Char) : List Char := cs.dropWhile isSpace

/-- An ASCII digit. -/
def isDigit (c : Char) : Bool := 48 ≤ c.toNat ∧ c.toNat ≤ 57

/-- The number that a run of ASCII digits denotes. -/
def readNat (cs : List Char) : ℕ := cs.foldl (fun n c => 10 * n + (c.toNat - 48)) 0

/-- `digits · 10^e`, in units of `10⁻⁷`. -/
def scale (digits : ℕ) (e : ℤ) : ℕ :=
  if 0 ≤ e + 7 then digits * 10 ^ (e + 7).toNat else digits / 10 ^ (-(e + 7)).toNat

/-- The decimal places, when a point with a digit behind it follows. -/
def lexFrac : List Char → Option (List Char) × List Char
  | [] => (none, [])
  | c :: cs =>
    if c ≠ '.' ∨ cs.takeWhile isDigit = [] then (none, c :: cs)
    else (some (cs.takeWhile isDigit), cs.dropWhile isDigit)

/-- The digits of an exponent; without any, the exponent is absent and `orig` is left. -/
def lexExpDigits (neg : Bool) (orig cs : List Char) : Option ℤ × List Char :=
  if cs.takeWhile isDigit = [] then (none, orig)
  else (some (if neg then -(readNat (cs.takeWhile isDigit) : ℤ)
    else readNat (cs.takeWhile isDigit)), cs.dropWhile isDigit)

/-- The sign and the digits of an exponent; `orig` is the text with the `e` still on it. -/
def lexExpSign (orig : List Char) : List Char → Option ℤ × List Char
  | [] => (none, orig)
  | d :: ds =>
    if d = '-' then lexExpDigits true orig ds
    else if d = '+' then lexExpDigits false orig ds
    else lexExpDigits false orig (d :: ds)

/-- The optional exponent behind a number, and what is left. -/
def lexExp : List Char → Option ℤ × List Char
  | [] => (none, [])
  | c :: cs => if c = 'e' ∨ c = 'E' then lexExpSign (c :: cs) cs else (none, c :: cs)

/-- The integer part: a lone zero, or digits that do not start with one. -/
def lexInt : List Char → Option (List Char × List Char)
  | [] => none
  | c :: cs =>
    if c = '0' then some (['0'], cs)
    else if isDigit c then some (c :: cs.takeWhile isDigit, cs.dropWhile isDigit)
    else none

/-- Whether the text begins with a minus sign, and what is left. -/
def lexSign : List Char → Bool × List Char
  | [] => (false, [])
  | c :: cs => if c = '-' then (true, cs) else (false, c :: cs)

/-- A number from its parts: an integer unless it has places or an exponent. -/
def assemble (neg : Bool) (ip : List Char) (fp : Option (List Char)) (e : Option ℤ) : Json :=
  let sign (n : ℕ) : ℤ := if neg then -(n : ℤ) else n
  match fp, e with
  | none, none => .int (sign (readNat ip))
  | none, some e => .float (sign (scale (readNat ip) e))
  | some fp, e => .float (sign (scale (readNat (ip ++ fp)) (e.getD 0 - fp.length)))

/-- A number at the head of the text, and what is left. -/
def number (cs : List Char) : Option (Json × List Char) :=
  (lexInt (lexSign cs).2).map fun p =>
    (assemble (lexSign cs).1 p.1 (lexFrac p.2).1 (lexExp (lexFrac p.2).2).1,
      (lexExp (lexFrac p.2).2).2)

/-- The value of a hexadecimal digit, in either case. -/
def hexVal (c : Char) : Option ℕ :=
  if 48 ≤ c.toNat ∧ c.toNat ≤ 57 then some (c.toNat - 48)
  else if 97 ≤ c.toNat ∧ c.toNat ≤ 102 then some (c.toNat - 87)
  else if 65 ≤ c.toNat ∧ c.toNat ≤ 70 then some (c.toNat - 55)
  else none

/-- Four hexadecimal digits and what follows them. -/
def readHex4 : List Char → Option (ℕ × List Char)
  | a :: b :: c :: d :: cs =>
    match hexVal a, hexVal b, hexVal c, hexVal d with
    | some w, some x, some y, some z => some (4096 * w + 256 * x + 16 * y + z, cs)
    | _, _, _, _ => none
  | _ => none

/-- The character of a code point, if it is a scalar value. -/
def scalar (n : ℕ) : Option Char := if h : n.isValidChar then some (Char.ofNatAux n h) else none

/-- The code of a second `\u` escape. -/
def readSecond : List Char → Option (ℕ × List Char)
  | a :: b :: cs => if a = '\\' ∧ b = 'u' then readHex4 cs else none
  | _ => none

/-- A `\u` escape, the second half of a surrogate pair included. -/
def readUnicode (cs : List Char) : Option (Char × List Char) :=
  match readHex4 cs with
  | none => none
  | some (n, r) =>
    if 55296 ≤ n ∧ n ≤ 56319 then
      match readSecond r with
      | none => none
      | some (m, r') =>
        if 56320 ≤ m ∧ m ≤ 57343 then
          (scalar (65536 + (n - 55296) * 1024 + (m - 56320))).map (·, r')
        else none
    else (scalar n).map (·, r)

/-- The character behind a backslash. -/
def readEscape : List Char → Option (Char × List Char)
  | [] => none
  | c :: cs =>
    if c = 'u' then readUnicode cs
    else if c = '"' ∨ c = '\\' ∨ c = '/' then some (c, cs)
    else if c = 'b' then some (Char.ofNat 8, cs)
    else if c = 'f' then some (Char.ofNat 12, cs)
    else if c = 'n' then some ('\n', cs)
    else if c = 'r' then some ('\r', cs)
    else if c = 't' then some ('\t', cs)
    else none

/-- The rest of a string literal, behind its opening quote. -/
def string : ℕ → List Char → Option (List Char × List Char)
  | 0, _ => none
  | _ + 1, [] => none
  | f + 1, c :: cs =>
    if c = '"' then some ([], cs)
    else if c = '\\' then
      match readEscape cs with
      | none => none
      | some (d, r) => (string f r).map fun p => (d :: p.1, p.2)
    else if c.toNat < 32 then none
    else (string f cs).map fun p => (c :: p.1, p.2)

/-- What follows a fixed word. -/
def keyword : List Char → List Char → Option (List Char)
  | [], cs => some cs
  | _ :: _, [] => none
  | w :: ws, c :: cs => if w = c then keyword ws cs else none

/-- A repeated key keeps its last value, at the place of its first. -/
def object (fields : List (String × Json)) : Json := .obj (Dict.ofList fields).items

mutual

/-- A value at the head of the text, and what is left. -/
def value : ℕ → List Char → Option (Json × List Char)
  | 0, _ => none
  | _ + 1, [] => none
  | f + 1, c :: cs =>
    if c = '"' then (string f cs).map fun p => (.str (String.ofList p.1), p.2)
    else if c = '[' then (items f (skipWs cs)).map fun p => (.arr p.1, p.2)
    else if c = '{' then (fields f (skipWs cs)).map fun p => (object p.1, p.2)
    else if c = 'n' then (keyword ['u', 'l', 'l'] cs).map fun r => (.null, r)
    else if c = 't' then (keyword ['r', 'u', 'e'] cs).map fun r => (.bool true, r)
    else if c = 'f' then (keyword ['a', 'l', 's', 'e'] cs).map fun r => (.bool false, r)
    else number (c :: cs)

/-- The items behind an opening bracket. -/
def items : ℕ → List Char → Option (List Json × List Char)
  | 0, _ => none
  | _ + 1, [] => none
  | f + 1, c :: cs =>
    if c = ']' then some ([], cs)
    else match value f (c :: cs) with
      | none => none
      | some (v, r) => (rest f (skipWs r)).map fun p => (v :: p.1, p.2)

/-- A comma and the next item, or the closing bracket. -/
def rest : ℕ → List Char → Option (List Json × List Char)
  | 0, _ => none
  | _ + 1, [] => none
  | f + 1, c :: cs =>
    if c = ']' then some ([], cs)
    else if c = ',' then
      match value f (skipWs cs) with
      | none => none
      | some (v, r) => (rest f (skipWs r)).map fun p => (v :: p.1, p.2)
    else none

/-- A key, its colon and its value. -/
def field : ℕ → List Char → Option ((String × Json) × List Char)
  | 0, _ => none
  | _ + 1, [] => none
  | f + 1, c :: cs =>
    if c = '"' then
      match string f cs with
      | none => none
      | some (k, r) =>
        match skipWs r with
        | [] => none
        | d :: r =>
          if d = ':' then (value f (skipWs r)).map fun p => ((String.ofList k, p.1), p.2) else none
    else none

/-- The fields behind an opening brace. -/
def fields : ℕ → List Char → Option (List (String × Json) × List Char)
  | 0, _ => none
  | _ + 1, [] => none
  | f + 1, c :: cs =>
    if c = '}' then some ([], cs)
    else match field f (c :: cs) with
      | none => none
      | some (kv, r) => (moreOf f (skipWs r)).map fun p => (kv :: p.1, p.2)

/-- A comma and the next field, or the closing brace. -/
def moreOf : ℕ → List Char → Option (List (String × Json) × List Char)
  | 0, _ => none
  | _ + 1, [] => none
  | f + 1, c :: cs =>
    if c = '}' then some ([], cs)
    else if c = ',' then
      match field f (skipWs cs) with
      | none => none
      | some (kv, r) => (moreOf f (skipWs r)).map fun p => (kv :: p.1, p.2)
    else none

end

/-- The value a text spells, when it spells exactly one. -/
def loads (cs : List Char) : Option Json :=
  match value (cs.length + 1) (skipWs cs) with
  | some (v, r) => if skipWs r = [] then some v else none
  | none => none

end Json

end Lib
