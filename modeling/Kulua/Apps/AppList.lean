import Kulua.Foundation.Text

/-! The list of applications: `AppLister.java` prints it on the phone, `apps.rs` reads it
from the output. -/

namespace Kulua.Apps
open Foundation.Text

structure AppInfo where
  packageName : Str
  label : Str
  system : Bool
  deriving DecidableEq, Repr

/-- What the package manager says of an installed application. -/
structure Installed extends AppInfo where
  enabled : Bool
  launchIntent : Bool
  leanbackLaunchIntent : Bool

def column : Nat := 30
def header : Str := "List of apps:".toList

/-- `String.compareTo`. -/
def compareTo (a b : Str) : Ordering := List.compareLex compare (utf16 a) (utf16 b)

/-- System applications first, then by name, then by package. -/
def compareApps (a b : AppInfo) : Ordering :=
  ((compare b.system a.system).then (compareTo a.label b.label)).then
    (compareTo a.packageName b.packageName)

def launchable (installed : List Installed) : List AppInfo :=
  (installed.filter fun i => i.enabled && (i.launchIntent || i.leanbackLaunchIntent)).map
    Installed.toAppInfo

/-- What the loop appends for one application. -/
def entry (app : AppInfo) : Str :=
  let padding : Int := column - utf16Length app.label
  "\n ".toList ++ (if app.system then "* " else "- ").toList ++ app.label ++
    (if 0 < padding then spaces padding.toNat else "\n   ".toList ++ spaces column) ++
    ' ' :: app.packageName

/-- `out.println(builder)` at the end of the loop. -/
def printApps (apps : List AppInfo) : Str := header ++ apps.flatMap entry ++ ['\n']

def runAndExit : Except Str (List Installed) → Str
  | .ok installed =>
    printApps ((launchable installed).mergeSort fun a b => (compareApps a b).isLE)
  | .error e => header ++ '\n' :: " * 无法枚举应用: ".toList ++ e ++ ['\n']

/-- `parse_app_line`: the first 30 characters are the padded name. -/
def parseAppLine (app : AppInfo) (rest : Str) : AppInfo :=
  if rest.length < 30 then { app with label := trim rest }
  else
    let labelPart := rest.take 30
    let packagePart := rest.drop 30
    if packagePart.head? = some ' ' then
      let pkg := trim packagePart
      { app with
        label := trimEnd labelPart
        packageName := if pkg = [] then app.packageName else pkg }
    else { app with label := rest }

/-- `finish_app`: an application without a package is dropped. -/
def finishApp (apps : List AppInfo) : Option AppInfo → List AppInfo
  | some app => if app.packageName = [] then apps else apps ++ [app]
  | none => apps

structure Parser where
  apps : List AppInfo := []
  inList : Bool := false
  current : Option AppInfo := none

namespace Parser

/-- A line with a marker: the last application is finished, a new one begins. -/
def begin (p : Parser) (system : Bool) (rest : Str) : Parser :=
  { p with
    apps := finishApp p.apps p.current
    current := some (parseAppLine { packageName := [], label := [], system } rest) }

/-- The body of the loop of `parse_apps_output`. -/
def onLine (p : Parser) (line : Str) : Parser :=
  if p.inList = false then
    if header <:+: line then { p with inList := true } else p
  else
    match line with
    | [] => p
    | ' ' :: '*' :: ' ' :: rest => p.begin true rest
    | ' ' :: '-' :: ' ' :: rest => p.begin false rest
    | line =>
      match p.current with
      | some app =>
        if app.packageName = [] then
          { p with current := some { app with packageName := trim line } }
        else p
      | none => p

/-- What is returned when the output ends. -/
def finish (p : Parser) : List AppInfo := finishApp p.apps p.current

end Parser

def parseAppsOutput (output : Str) : List AppInfo :=
  (((lines output).map (trimEndMatches '\r')).foldl Parser.onLine {}).finish

/-- Is it a segment of a package name? -/
def isValidSegment : Str → Bool
  | [] => false
  | c :: s => c.isAlpha && s.all fun c => c.isAlphanum || c == '_'

def isValidPackageName (pkg : Str) : Bool :=
  if pkg = [] ∨ 255 < (pkg.map Char.utf8Size).sum then false
  else (pkg.splitOn '.').all isValidSegment

end Kulua.Apps
