import SiteAtlas.Codec.Shape
import SiteAtlas.Config.Toml.Reader
import SiteAtlas.Error.ClientError
import SiteAtlas.Text.Blank

/-!
Settings of the client: where the service listens and how long it may take. They come from a file,
which may leave them out, from the environment, which may override two of them, and from defaults.
-/
namespace SiteAtlas

abbrev Environment := String → Option String

structure Settings where
  socketPath : String
  /-- the bound on each phase of a call, in milliseconds -/
  timeout : UInt64
  /-- how long to wait for the service at the start, in milliseconds -/
  startupTimeout : UInt64
  deriving DecidableEq, Repr, Inhabited

namespace Settings

def join (folder name : String) : String :=
  match folder.toList.getLast? with
  | none => name
  | some c => if c = '/' then folder ++ name else folder ++ "/" ++ name

/-- The value of a variable, if it is an absolute path. -/
def absolute? (env : Environment) (name : String) : Option String :=
  (env name).filter fun path => path.toList.head? == some '/'

def socketName : String := "cartograph.sock"

/-- A socket in the user's folder for running programs, or in the folder for temporary files. -/
def defaultSocketPath (env : Environment) : String :=
  join ((absolute? env "XDG_RUNTIME_DIR").getD "/tmp") socketName

def folder? (env : Environment) : Option String :=
  match absolute? env "XDG_CONFIG_HOME" with
  | some folder => some folder
  | none => ((env "HOME").filter fun home => !home.isEmpty).map fun home => join home ".config"

def defaultPath? (env : Environment) : Option String :=
  (folder? env).map fun folder => join (join folder "cartograph") "client.toml"

def default (env : Environment) : Settings := ⟨defaultSocketPath env, 60000, 15000⟩

/-- The JSON form; what is left out has its default. -/
def shape (env : Environment) : Shape Settings where
  title := "ClientConfig"
  blank := default env
  fields := [
    ⟨"socket_path", [], .defaulted, Codec.textAs "path string", socketPath,
      fun v r => { r with socketPath := v }⟩,
    ⟨"timeout_ms", [], .defaulted, Codec.word64, timeout, fun v r => { r with timeout := v }⟩,
    ⟨"startup_timeout_ms", [], .defaulted, Codec.word64, startupTimeout,
      fun v r => { r with startupTimeout := v }⟩]

end Settings

namespace Config

/-- How a refusal names a value, unless it holds a number that is too large to be told. -/
def SettingFound.ofToml : Toml → SettingFault ⊕ SettingFound
  | .bool b => .inr (.bool b)
  | .int n => .inr (if Json.IntFits n then .int n else .wideInt n)
  | .float x => .inr (.float x)
  | .huge => .inl .malformed
  | .text s => .inr (.text s)
  | .moment | .table .. => .inr .map
  | .list _ | .tables _ => .inr .sequence

def refuse {α : Type} (v : Toml) (want : String) : Except SettingFault α :=
  match SettingFound.ofToml v with
  | .inl fault => .error fault
  | .inr found => .error (.wrongType found want)

def readPath : Toml → Except SettingFault String
  | .text s => .ok s
  | v => refuse v "path string"

def readMillis : Toml → Except SettingFault UInt64
  | .int n =>
    if 0 ≤ n ∧ n < UInt64.size then .ok (UInt64.ofNat n.toNat)
    else if Json.IntFits n then .error (.wrongValue (.int n) "u64")
    else refuse (.int n) "u64"
  | v => refuse v "u64"

/-- Take one member of a settings file. Members that are not known are skipped. -/
def readSetting (s : Settings) (key : String) (v : Toml) : Except SettingFault Settings :=
  if key = "socket_path" then (readPath v).map fun p => { s with socketPath := p }
  else if key = "timeout_ms" then (readMillis v).map fun n => { s with timeout := n }
  else if key = "startup_timeout_ms" then (readMillis v).map fun n => { s with startupTimeout := n }
  else if v.hasHuge then .error .malformed
  else .ok s

/-- Read the text of a settings file over given defaults, member by member in key order. -/
def readSettings (defaults : Settings) (text : String) : Except SettingFault Settings :=
  match Toml.read text.toList with
  | none => .error .malformed
  | some members => members.foldlM (fun s m => readSetting s m.1 m.2) defaults

inductive FileState where
  | absent
  | directory
  /-- a file that the system does not let be read, with what it reports -/
  | unreadable (report : String)
  | content (bytes : Utf8.Bytes)
  deriving DecidableEq, Repr

def FileState.text : FileState → Except FileFailure String
  | .absent => .error .notFound
  | .directory => .error .isDirectory
  | .unreadable report => .error (.refused report)
  | .content bytes =>
    match Utf8.decode? bytes with
    | some cs => .ok (String.ofList cs)
    | none => .error .notText

/-- The number of decimal digits, at least one of which must be there. -/
def digits? (cs : List Char) : Option Nat :=
  if cs.isEmpty ∨ cs.any fun c => !Toml.isDigit c then none else some (Toml.digitsValue 10 cs)

/-- A number of milliseconds: digits, perhaps with blanks around them and a plus sign in front. -/
def millis? (raw : String) : Option UInt64 := do
  let cs := Text.trim raw.toList
  let n ← digits? (match cs with
    | '+' :: rest => rest
    | cs => cs)
  if n < UInt64.size then some (UInt64.ofNat n) else none

end Config

namespace Settings

open Config (FileState)

def ofText (env : Environment) (text : String) : Except Rejection Settings :=
  (Config.readSettings (default env) text).mapError .badConfig

def ofFile (env : Environment) (path : String) (file : FileState) : Except Rejection Settings :=
  match file.text with
  | .error why => .error (.unreadableConfig path why)
  | .ok text => ofText env text

def socketVariable : String := "CARTOGRAPH_SOCKET"

def timeoutVariable : String := "CARTOGRAPH_TIMEOUT_MS"

/-- Apply the variables that override settings. -/
def override (s : Settings) (env : Environment) : Except Rejection Settings :=
  let s := { s with socketPath := (env socketVariable).getD s.socketPath }
  match env timeoutVariable with
  | none => .ok s
  | some raw =>
    match Config.millis? raw with
    | some n => .ok { s with timeout := n }
    | none => .error (.badTimeout raw)

/-- The settings of the file at a path, or the defaults if there is none. -/
def ofPath (env : Environment) (path : Option String) (files : String → FileState) :
    Except Rejection Settings :=
  match path with
  | some path => if files path = .absent then .ok (default env) else ofFile env path (files path)
  | none => .ok (default env)

/-- The settings of the file at a path, if there is one, and of the environment. -/
def loadFrom (path : Option String) (env : Environment) (files : String → FileState) :
    Except Rejection Settings := do
  let base ← ofPath env path files
  base.override env

def load (env : Environment) (files : String → FileState) : Except Rejection Settings :=
  loadFrom (defaultPath? env) env files

end Settings

end SiteAtlas
