import DataRelay.Python

/-! `os.path.normpath`, and the text that `Path` keeps of a path. -/

namespace DataRelay.Tools

/-- The parts of a path, at its slashes. -/
def pathParts : List Char → List Char → List (List Char)
  | part, [] => [part.reverse]
  | part, c :: cs => if c = '/' then part.reverse :: pathParts [] cs else pathParts (c :: part) cs

/-- The slashes that a path starts with: two stay two, any other number is one. -/
def pathLead (path : List Char) : List Char :=
  let slashes := path.takeWhile (· = '/')
  if slashes.length = 2 then slashes else slashes.take 1

def joinPath (lead : List Char) (parts : List (List Char)) : String :=
  let text := lead ++ List.intercalate ['/'] parts
  String.ofList (if text = [] then ['.'] else text)

/-- `str(Path(path))`. -/
def pathText (path : String) : String :=
  joinPath (pathLead path.toList) <|
    (pathParts [] path.toList).filter fun part => part ≠ [] ∧ part ≠ ['.']

/-- One part of a path is added to the ones before it, newest first. -/
def pushPart (absolute : Bool) (parts : List (List Char)) (part : List Char) : List (List Char) :=
  if part = [] ∨ part = ['.'] then parts
  else if part ≠ ['.', '.'] then part :: parts
  else match parts with
    | [] => if absolute then [] else [part]
    | last :: before => if last = ['.', '.'] then part :: parts else before

/-- `os.path.normpath`. -/
def normpath (path : String) : String :=
  let lead := pathLead path.toList
  joinPath lead ((pathParts [] path.toList).foldl (pushPart (lead ≠ [])) []).reverse

end DataRelay.Tools
