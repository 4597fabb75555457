import WorldTriggers.Json.Reader
import WorldTriggers.Text.Path

namespace WorldTriggers

inductive LocationFault where
  | malformed
  | unusable
  deriving DecidableEq, Repr

inductive StorePlace where
  | memory
  | file (path : String)
  deriving DecidableEq, Repr

inductive FileRight where
  | read
  | write
  | make
  deriving DecidableEq, Repr

def FileRight.rank : FileRight → Nat
  | read => 0
  | write => 1
  | make => 2

structure StoreAccess where
  right : FileRight
  inMemory : Bool
  deriving DecidableEq, Repr

namespace StoreAccess

def restrict? (a : StoreAccess) (right : FileRight) : Option StoreAccess :=
  if a.inMemory || right.rank ≤ a.right.rank then some ⟨right, false⟩ else none

def withMode? (a : StoreAccess) : String → Option StoreAccess
  | "ro" => a.restrict? .read
  | "rw" => a.restrict? .write
  | "rwc" => a.restrict? .make
  | "memory" => some ⟨.make, true⟩
  | _ => none

end StoreAccess

def escapedBytes : List Char → List UInt8
  | [] => []
  | '%' :: a :: b :: rest =>
    match Json.hexNumber? [a, b] with
    | some n => n.toUInt8 :: escapedBytes rest
    | none => '%'.toUInt8 :: escapedBytes (a :: b :: rest)
  | c :: rest => c.toString.toUTF8.toList ++ escapedBytes rest

def textOfBytes? (bytes : List UInt8) : Option String := String.fromUTF8? ⟨bytes.toArray⟩

def textOfBytes (bytes : List UInt8) : String :=
  (textOfBytes? bytes).getD
    (String.ofList (bytes.map fun b => if b < 128 then Char.ofNat b.toNat else '\ufffd'))

def cutAtNul (s : String) : String := String.ofList (s.toList.takeWhile (· != '\x00'))

structure StoreUri where
  path : String
  options : List (String × String) := []
  deriving DecidableEq, Repr

namespace StoreUri

def part (cs : List Char) : String := cutAtNul (textOfBytes (escapedBytes cs))

def option (cs : List Char) : String × String :=
  let name := cs.takeWhile (· != '=')
  (part name, part (cs.drop (name.length + 1)))

def ofPath (cs : List Char) : StoreUri :=
  let cs := cs.takeWhile (· != '#')
  let path := cs.takeWhile (· != '?')
  let options := (Text.splitAll '&' (cs.drop (path.length + 1))).map option
  ⟨part path, options.filter fun o => o.1 ≠ ""⟩

def ofText? : List Char → Option StoreUri
  | '/' :: '/' :: cs =>
    let host := cs.takeWhile (· != '/')
    if host.isEmpty || host = "localhost".toList then some (ofPath (cs.drop host.length)) else none
  | cs => some (ofPath cs)

def values (u : StoreUri) (name : String) : List String :=
  (u.options.filter (·.1 = name)).map (·.2)

def fileSystems : List String := ["unix", "unix-none", "unix-dotfile", "unix-excl", "memdb"]

def fileSystem? (u : StoreUri) : Option String := (u.values "vfs").getLast?

def isOn (value : String) : Bool :=
  let digits := value.toList.takeWhile Char.isDigit
  ["on", "yes", "true"].contains (String.ofList (value.toList.map Char.toLower)) ||
    (String.ofList digits).toNat?.any fun n => n % 256 ≠ 0

def isImmutable (u : StoreUri) : Bool := (u.values "immutable").head?.any isOn

def isFileName (path : String) : Bool :=
  !Text.isRooted path &&
    match Text.pathNames path with
    | [name] => name.utf8ByteSize ≤ 247
    | _ => false

def place? (u : StoreUri) (access : StoreAccess) : Option StorePlace := do
  let access ← (u.values "mode").foldlM StoreAccess.withMode? access
  if access.right = .read || !(u.values "cache").all ["shared", "private"].contains ||
      !u.fileSystem?.all fileSystems.contains then none
  else if access.inMemory || u.path.isEmpty || u.path = ":memory:" then some .memory
  else if u.isImmutable then none
  else if u.fileSystem? = some "memdb" then some .memory
  else if access.right = .make && isFileName u.path then some (.file u.path)
  else none

end StoreUri

structure StoreLocation where
  path : String
  options : List (String × String)
  deriving DecidableEq, Repr

namespace StoreLocation

def dropFront (front : List Char) : Nat → List Char → List Char
  | 0, cs => cs
  | fuel + 1, cs =>
    if front.isPrefixOf cs then dropFront front fuel (cs.drop front.length) else cs

def readOption (cs : List Char) : String × String :=
  let key := cs.takeWhile (· != '=')
  let value := (cs.drop (key.length + 1)).map fun c => if c = '+' then ' ' else c
  (textOfBytes (escapedBytes key), textOfBytes (escapedBytes value))

def allowed? (key : String) : Option (List String) :=
  [("mode", ["ro", "rw", "rwc", "memory"]), ("cache", ["private", "shared"]),
    ("immutable", ["true", "1", "false", "0"])].lookup key

def isOption (option : String × String) : Bool :=
  match allowed? option.1 with
  | some values => values.contains option.2
  | none => option.1 = "vfs"

def ofText? (s : String) : Option StoreLocation := do
  let cs := dropFront "sqlite:".toList s.length (dropFront "sqlite://".toList s.length s.toList)
  let path := cs.takeWhile (· != '?')
  let parts := (Text.splitAll '&' (cs.drop (path.length + 1))).filter (!·.isEmpty)
  let options := parts.map readOption
  if options.all isOption then pure ⟨← textOfBytes? (escapedBytes path), options⟩ else none

def option? (l : StoreLocation) (key : String) : Option String := l.options.reverse.lookup key

def access (l : StoreLocation) : StoreAccess where
  right := if l.options.contains ("mode", "ro") then .read else .make
  inMemory := l.options.contains ("mode", "memory")

def passedOn (l : StoreLocation) : List (String × String) :=
  (if (l.option? "immutable").any ["true", "1"].contains then [("immutable", "true")] else []) ++
    ((l.option? "vfs").map fun name => ("vfs", cutAtNul name)).toList

def uri? (l : StoreLocation) : Option StoreUri :=
  if !l.passedOn.isEmpty then some ⟨cutAtNul l.path, l.passedOn⟩
  else if l.path.toList.contains '\x00' then none
  else if "file:".toList.isPrefixOf l.path.toList then StoreUri.ofText? (l.path.toList.drop 5)
  else some { path := l.path }

def place? (l : StoreLocation) : Option StorePlace := l.uri?.bind (·.place? l.access)

def placeOf (s : String) : Except LocationFault StorePlace :=
  match ofText? s with
  | none => .error .malformed
  | some l =>
    match l.place? with
    | none => .error .unusable
    | some place => .ok place

end StoreLocation

end WorldTriggers
