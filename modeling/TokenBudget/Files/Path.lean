namespace TokenBudget.Path

/-!
# Paths

A path is a text in which slashes separate names.  Empty names and single dots
say nothing, except that a leading slash starts at the root and a leading dot at
the current directory.  The parent of a path and the last name in it are found
in the text alone; two dots are a name like others there, but never a file name.
-/

/-- The parts of a text between slashes. -/
def splitAtSlashes : List Char → List (List Char)
  | [] => [[]]
  | char :: rest =>
      if char = '/' then
        [] :: splitAtSlashes rest
      else
        match splitAtSlashes rest with
        | [] => [[char]]
        | first :: others => (char :: first) :: others

/-- The names of a path, with the empty ones. -/
def names (path : String) : List String :=
  (splitAtSlashes path.toList).map String.ofList

/-- The path starts at the root. -/
def isAbsolute (path : String) : Bool :=
  path.toList.head? == some '/'

/-- Append a path to another with one slash between; an absolute path stands for itself. -/
def join
    (base : String)
    (path : String) :
    String :=
  if isAbsolute path then
    path
  else if base.toList.isEmpty || base.toList.getLast? == some '/' then
    base ++ path
  else
    base ++ "/" ++ path

/-- Where a path starts. -/
inductive Origin where
  | root
  | here
  | none
  deriving Repr, DecidableEq

/-- The text of a start. -/
def Origin.toText : Origin → String
  | .root => "/"
  | .here => "."
  | .none => ""

/-- A name that says nothing. -/
def isFiller (name : String) : Bool :=
  name == "" || name == "."

/-- The start of a path and its names from the last to the first, without trailing fillers. -/
def outline (path : String) : Origin × List String :=
  match names path with
  | "" :: first :: others => (.root, (first :: others).reverse.dropWhile isFiller)
  | "." :: others => (.here, others.reverse.dropWhile isFiller)
  | all => (.none, all.reverse.dropWhile isFiller)

/-- The text of a start and of names from the last to the first. -/
def assemble
    (origin : Origin)
    (reversed : List String) :
    String :=
  match origin, reversed with
  | .here, [] => "."
  | .here, _ => "./" ++ "/".intercalate reversed.reverse
  | origin, _ => origin.toText ++ "/".intercalate reversed.reverse

/-- The path without its last name; the root and the empty path have none. -/
def parent? (path : String) : Option String :=
  match outline path with
  | (.here, []) => some ""
  | (_, []) => none
  | (origin, _ :: others) => some (assemble origin (others.dropWhile isFiller))

/-- The last name of a path, if it can name a file. -/
def fileName? (path : String) : Option String :=
  match (outline path).2 with
  | [] => none
  | last :: _ => if last = ".." then none else some last

/-- The path with another last name; a name is added to a path without one. -/
def withFileName
    (path : String)
    (name : String) :
    String :=
  match fileName? path with
  | none => join path name
  | some _ => join ((parent? path).getD "") name

end TokenBudget.Path
