import TextGrid.Json
import TextGrid.Settings
import TextGrid.Text.Utf8

/-!
# Settings files

Settings are stored as a JSON object. A file that is absent leaves the defaults; one that is no such
object does too, with a warning. The path of the file follows the rules of POSIX paths: empty
segments and single dots vanish, and two slashes at the front are kept apart from one.
-/

namespace TextGrid.Settings

/-- What is found at the path of the settings file. -/
inductive File
  | absent
  | unreadable
  | content (bytes : List UInt8)

/-- The settings in the content of a file, with warnings. -/
def ofContent (content : Text) : Except LayoutError (Settings × List String) :=
  match Json.read content with
  | .ok (.map entries) => ofEntries entries
  | .ok _ | .error .malformed => .ok ({}, [unreadableWarning])
  | .error .tooDeep => .error .tooDeep

/-- The settings in a file, with warnings. -/
def ofFile : File → Except LayoutError (Settings × List String)
  | .absent => .ok ({}, [])
  | .unreadable => .ok ({}, [unreadableWarning])
  | .content bytes =>
    match Text.Utf8.decode? bytes with
    | some content => ofContent content
    | none => .ok ({}, [unreadableWarning])

/-- The settings in a file with those of the environment, and all warnings in order. -/
def load (file : File) (environment : Environment) :
    Except LayoutError (Settings × List String) := do
  let (settings, fileWarnings) ← ofFile file
  let (settings, warnings) ← settings.applyEnvironment environment
  return (settings, fileWarnings ++ warnings)

/-- The slashes that a path keeps at its front. -/
def pathRoot (path : Text) : Text :=
  match (path.takeWhile (· == '/')).length with
  | 0 => []
  | 2 => ['/', '/']
  | _ => ['/']

/-- The segments of a path that lead somewhere. -/
def pathSegments (path : Text) : List Text :=
  (Text.splitAt '/' path).filter fun segment => !segment.isEmpty && segment != ['.']

/-- The path of an entry below a directory. -/
def pathBelow (directory : Text) (names : List Text) : Text :=
  pathRoot directory ++ Text.joined ['/'] (pathSegments directory ++ names)

/-- The home directory, without trailing slashes. One that begins with a tilde is not known. -/
def homeDirectory (environment : Environment) : Except LayoutError Text :=
  let home := ((environment.lookup "HOME").getD "").toList
  match (home.reverse.dropWhile (· == '/')).reverse with
  | [] => .ok ['/']
  | '~' :: _ => .error .homeless
  | directory => .ok directory

/-- The path of the settings file: in the directory that the environment names, else in a directory
of its own below the home directory, which must be known in either case. -/
def filePath (environment : Environment) : Except LayoutError Text := do
  let name := "tabular.json".toList
  let home ← homeDirectory environment
  match environment.lookup "CELLKIT_CONFIG_DIR" with
  | some directory => return pathBelow directory.toList [name]
  | none => return pathBelow home [".cellkit".toList, name]

end TextGrid.Settings
