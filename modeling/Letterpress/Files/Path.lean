/-!
Paths as text. A path is a list of parts between slashes; empty parts and single dots
stand for the place itself, two dots for the folder above.
-/

namespace Letterpress.Files.Path

/-- The parts between slashes; a text without a slash is one part. -/
def splitChars : List Char → List (List Char)
  | [] => [[]]
  | char :: rest =>
      if char = '/' then [] :: splitChars rest
      else
        match splitChars rest with
        | [] => [[char]]
        | part :: parts => (char :: part) :: parts

def parts (path : String) : List String := (splitChars path.toList).map String.ofList

def isIdle (part : String) : Bool := part == "" || part == "."

/-- The parts that name something. Two paths with the same components are the same
path, whatever it leads to. -/
def components (path : String) : List String := (parts path).filter fun part => !isIdle part

def isAbsolute (path : String) : Bool := path.toList.head? == some '/'

def endsWithSlash (path : String) : Bool := path.toList.getLast? == some '/'

/-- Goes on from a folder by a path. An absolute path starts over. -/
def join (folder path : String) : String :=
  if isAbsolute path then path
  else if folder.isEmpty || endsWithSlash folder then folder ++ path
  else folder ++ "/" ++ path

def staysInside (path : String) : Bool :=
  !path.isEmpty && !isAbsolute path && !(parts path).contains ".."

/-- The text after the last point of a file name, unless the point comes first. -/
def extension? (name : String) : Option String :=
  let reversed := name.toList.reverse
  let suffix := reversed.takeWhile (fun char => char != '.')
  match reversed.drop suffix.length with
  | [] => none
  | [_] => none
  | _ :: _ :: _ => some (String.ofList suffix.reverse)

end Letterpress.Files.Path
