import TokenBudget.Files.Path

namespace TokenBudget

/-!
# Access to files

What the library asks of files: a few operations, each of which may fail.  The
operations that touch several files are built from these and are the same for
every place where files are kept.
-/

/-- Why an operation on a file failed. -/
inductive FileFault where
  | notFound
  | notDirectory
  | isDirectory
  | alreadyExists
  | nameTooLong
  | unusablePath
  | notText
  | other (reason : String)
  deriving Repr, DecidableEq

namespace FileFault

/-- The wording of a failure. -/
def message : FileFault → String
  | .notFound => "no such file or directory"
  | .notDirectory => "not a directory"
  | .isDirectory => "is a directory"
  | .alreadyExists => "file exists"
  | .nameTooLong => "file name too long"
  | .unusablePath => "path holds a null character"
  | .notText => "file does not contain valid UTF-8"
  | .other reason => reason

end FileFault

/-- Operations on the files under paths. -/
class FileAccess (Action : Type → Type) where
  /-- Something is there under the path. -/
  pathExists : String → Action Bool
  /-- A directory is there under the path. -/
  isDirectory : String → Action Bool
  /-- The text of a file. -/
  readText : String → Action (Except FileFault String)
  /-- Make one directory. -/
  makeDirectory : String → Action (Except FileFault Unit)
  /-- Write a text to a file, which is made if it is not there. -/
  writeText : String → String → Action (Except FileFault Unit)
  /-- Give a file another path; a file that is there is replaced. -/
  rename : String → String → Action (Except FileFault Unit)
  /-- Remove a file. -/
  remove : String → Action Unit

namespace FileAccess

variable {Action : Type → Type} [Monad Action] [FileAccess Action]

/-- Make a directory, which may be there already. -/
def ensureDirectory (path : String) : Action (Except FileFault Unit) := do
  match ← makeDirectory path with
  | .ok () =>
      return .ok ()
  | .error fault =>
      if ← isDirectory path then
        return .ok ()
      else
        return .error fault

/--
Make a directory, at most so many of a path, its parent, the parent's parent and
so on.  The directory around it is made only when it is missing.
-/
def makeWithin : Nat → String → Action (Except FileFault Unit)
  | 0, _ =>
      return .error .notFound
  | limit + 1, path => do
      if path = "" then
        return .ok ()
      match ← makeDirectory path with
      | .ok () =>
          return .ok ()
      | .error .notFound =>
          match Path.parent? path with
          | none => return .error .notFound
          | some parent =>
              match ← makeWithin limit parent with
              | .ok () => ensureDirectory path
              | .error fault => return .error fault
      | .error fault =>
          if ← isDirectory path then
            return .ok ()
          else
            return .error fault

/-- Make a directory and the directories around it that are missing. -/
def makeDirectories (path : String) : Action (Except FileFault Unit) :=
  makeWithin (path.length + 1) path

/-- Make the directories around a path that are missing; around the root there are none. -/
def makeDirectoriesAround (path : String) : Action (Except FileFault Unit) :=
  match Path.parent? path with
  | none => return .ok ()
  | some parent => makeDirectories parent

/-- The name of the temporary file beside a file of a given name. -/
def temporaryName
    (name : String)
    (tag : Nat) :
    String :=
  "." ++ name ++ "." ++ toString tag ++ ".tmp"

/--
Replace the text of a file as a whole.  The text goes to a temporary file beside
it, which is then renamed; if that fails, the temporary file is removed.
-/
def replaceText
    (path : String)
    (defaultName : String)
    (tag : Nat)
    (text : String) :
    Action (Except FileFault Unit) := do
  let name := (Path.fileName? path).getD defaultName
  let temporary := Path.withFileName path (temporaryName name tag)
  match ← writeText temporary text with
  | .error fault =>
      return .error fault
  | .ok () =>
      match ← rename temporary path with
      | .ok () =>
          return .ok ()
      | .error fault =>
          remove temporary
          return .error fault

end FileAccess

end TokenBudget
