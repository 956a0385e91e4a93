import DataRelay.Tools.Values

/-! The text of a Work Packet, line by line: what `execution_profile` takes from it as metadata.

    The scan goes through the lines in order. A code fence hides what stands in it, and the first
    section heading ends the scan. -/

namespace DataRelay.Tools.Packet
open Lib

/-- A line, as its characters. -/
abbrev Line := List Char

/-- The characters at which `str.splitlines` cuts, a carriage return with a newline behind it
    apart. -/
def isLineBreak (c : Char) : Bool :=
  let n := c.toNat
  (10 ≤ n && n ≤ 13) || (28 ≤ n && n ≤ 30) || n == 0x85 || n == 0x2028 || n == 0x2029

/-- `str.splitlines`; `line` is the one being read, newest character first. -/
def splitlinesAux : List Char → List Char → List Line
  | line, [] => if line = [] then [] else [line.reverse]
  | line, '\r' :: '\n' :: cs => line.reverse :: splitlinesAux [] cs
  | line, c :: cs =>
    if isLineBreak c then line.reverse :: splitlinesAux [] cs else splitlinesAux (c :: line) cs

/-- `str.splitlines`. -/
def splitlines (text : String) : List Line := splitlinesAux [] text.toList

/-! ### Patterns -/

/-- An open fence: the character of its marker, and how many of them there are. -/
structure Fence where
  family : Char
  length : ℕ
deriving DecidableEq, Repr

/-- `FENCE_RE.match`: the marker, after at most three blanks. -/
def fenceRe (line : Line) : Option Fence :=
  if 3 < (line.takeWhile isSpace).length then none
  else match line.dropWhile isSpace with
    | [] => none
    | c :: cs =>
      let length := ((c :: cs).takeWhile (· = c)).length
      if (c = '`' ∨ c = '~') ∧ 3 ≤ length then some ⟨c, length⟩ else none

/-- `HEADING_RE.match`: the name of the heading, without the blanks around it. -/
def headingRe : Line → Option String
  | '#' :: '#' :: c :: d :: cs =>
    if isSpace c then some (strip (String.ofList (d :: cs))) else none
  | _ => none

/-- `[A-Z]`. -/
def isUpper (c : Char) : Bool := 'A' ≤ c && c ≤ 'Z'

/-- `[A-Z0-9_]`. -/
def isKeyChar (c : Char) : Bool := isUpper c || isDigitAscii c || c == '_'

/-- `META_RE.match`: the key and the value, without the blanks around it. -/
def metaRe (line : Line) : Option (String × String) :=
  let key := line.takeWhile isKeyChar
  match line.dropWhile isKeyChar with
  | '=' :: value =>
    if key.head?.any isUpper ∧ 2 ≤ key.length then
      some (String.ofList key, strip (String.ofList value))
    else none
  | _ => none

/-! ### Metadata -/

/-- A marker opens a fence, or closes one of its family that is not longer. -/
def toggle : Option Fence → Fence → Option Fence
  | none, marker => some marker
  | some fence, marker =>
    if fence.family = marker.family ∧ fence.length ≤ marker.length then none else some fence

/-- The metadata so far, and the keys that came again. -/
structure Scan where
  metadata : Dict String String
  duplicates : List String

/-- A key keeps its first value; a second one is noted. -/
def Scan.add (s : Scan) (key value : String) : Scan :=
  if (s.metadata.get? key).isSome then { s with duplicates := s.duplicates ++ [key] }
  else { s with metadata := s.metadata.set key value }

/-- The loop of `scan_packet_metadata`. -/
def scanLines : Scan → Option Fence → List Line → Scan
  | s, _, [] => s
  | s, fence, line :: rest =>
    match fenceRe line with
    | some marker => scanLines s (toggle fence marker) rest
    | none =>
      if fence.isSome then scanLines s fence rest
      else if (headingRe line).isSome then s
      else match metaRe line with
        | none => scanLines s fence rest
        | some (key, value) => scanLines (s.add key value) fence rest

/-- `scan_packet_metadata`. -/
def scanPacketMetadata (text : String) : Scan := scanLines ⟨∅, []⟩ none (splitlines text)

end DataRelay.Tools.Packet
