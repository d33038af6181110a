import InetManet.Library.ByteOrder
import InetManet.Library.StateLoop

/-!
# Routing files

The file is read into an array, its two sections are copied without comments, and each is parsed word by
word. An array is the list of its bytes from the current position on, so that a position behind the array is
the empty list; a string is the list of the bytes before its terminator. What is set at an interface is left
out.
-/

namespace InetManet.RoutingTableParser

open TransitionSystem ByteOrder

/-- The last one is `opp_error()`; the others are what must not happen. -/
inductive Fault
  | outOfBounds
  | pastTerminator
  /-- `ie` has not been set. -/
  | noInterface
  | endlessLoop
  | runtimeError
  deriving DecidableEq

def maxFilesize : ℕ := 10000

def maxEntryStringSize : ℕ := 500

def newline : Byte := 10

/-- `(char) EOF`, where `char` is signed. -/
def eof : Byte := 0xFF

def isspace (b : Byte) : Bool := b == 32 || decide (9 ≤ b) && decide (b ≤ 13)

def isalnum (b : Byte) : Bool :=
  decide (48 ≤ b) && decide (b ≤ 57) || decide (65 ≤ b) && decide (b ≤ 90) ||
    decide (97 ≤ b) && decide (b ≤ 122)

def text (chars : List Char) : List Byte := chars.map fun c ↦ BitVec.ofNat 8 c.toNat

def ifconfigStartToken : List Byte := text ['i', 'f', 'c', 'o', 'n', 'f', 'i', 'g', ':']
def ifconfigEndToken : List Byte := text ['i', 'f', 'c', 'o', 'n', 'f', 'i', 'g', 'e', 'n', 'd', '.']
def routeStartToken : List Byte := text ['r', 'o', 'u', 't', 'e', ':']
def routeEndToken : List Byte := text ['r', 'o', 'u', 't', 'e', 'e', 'n', 'd', '.']

/-- What the parser asks of other components. -/
structure Env where
  getInterfaceByName : List Byte → Option ℕ
  isWellFormed : List Byte → Bool
  atoi : List Byte → ℤ
  addRoute : List (List Byte) → Bool

/-! ## Sections of the file -/

/-- `strncmp` with the length of the token, in an array. -/
def streq : List Byte → List Byte → Except Fault Bool
  | _, [] => .ok true
  | [], _ :: _ => .error .outOfBounds
  | b :: str, t :: token => if b = t then streq str token else .ok false

/-- `while (file[charpointer++] != '\n');`. -/
def skipLine : List Byte → Except Fault (List Byte)
  | [] => .error .outOfBounds
  | b :: file => if b = newline then .ok file else skipLine file

/-- `while ((filterFile[i++] = file[charpointer++]) != '\n');`. -/
def copyLine : List Byte → Except Fault (List Byte × List Byte)
  | [] => .error .outOfBounds
  | b :: file =>
    if b = newline then .ok ([b], file)
    else do
      let (line, rest) ← copyLine file
      .ok (b :: line, rest)

/-- A turn of the loop over lines, with `filterFile` and the file from `charpointer` on. -/
def filterStep (endtoken : List Byte) (x : List Byte × List Byte) :
    Except Fault ((List Byte × List Byte) ⊕ (List Byte × List Byte)) :=
  match x.2 with
  | [] => .error .outOfBounds
  | b :: _ =>
    if !isalnum b && !isspace b then do
      let rest ← skipLine x.2
      .ok (.inl (x.1, rest))
    else do
      let found ← streq x.2 endtoken
      if found then
        if x.1.length < maxFilesize then .ok (.inr x) else .error .outOfBounds
      else do
        let (line, rest) ← copyLine x.2
        if x.1.length + line.length ≤ maxFilesize then .ok (.inl (x.1 ++ line, rest))
        else .error .outOfBounds

def createFilteredFile (file endtoken : List Byte) : Except Fault (List Byte × List Byte) :=
  loop .endlessLoop (filterStep endtoken) (file.length + 1) ([], file)

/-- The loop over the file; `atLineStart` is that `charpointer` is 0 or behind a newline. -/
structure Scan where
  atLineStart : Bool
  file : List Byte
  ifconfigFile : Option (List Byte) := none
  routeFile : Option (List Byte) := none

/-- A section is copied if it starts here. -/
def copySection (starttoken endtoken file : List Byte) (old : Option (List Byte)) :
    Except Fault (List Byte × Option (List Byte)) := do
  let found ← streq file starttoken
  if found then do
    let (filtered, file) ← createFilteredFile file endtoken
    .ok (file, some filtered)
  else .ok (file, old)

def copySections (s : Scan) : Except Fault Scan :=
  if s.atLineStart then do
    let (file, ifconfigFile) ← copySection ifconfigStartToken ifconfigEndToken s.file s.ifconfigFile
    let (file, routeFile) ← copySection routeStartToken routeEndToken file s.routeFile
    .ok { s with file, ifconfigFile, routeFile }
  else .ok s

def scanStep (s : Scan) : Except Fault (Scan ⊕ Scan) :=
  match s.file with
  | [] => .ok (.inr s)
  | b :: _ =>
    if b = eof then .ok (.inr s)
    else do
      let s ← copySections s
      match s.file with
      | [] => .error .outOfBounds
      | b :: file => .ok (.inl { s with atLineStart := b == newline, file })

/-- The array after reading; a byte that looks like `EOF` ends it. -/
def readFile (content : List Byte) : Except Fault (List Byte) :=
  let read := content.takeWhile (· != eof)
  if read.length < maxFilesize then
    .ok (read ++ eof :: List.replicate (maxFilesize - 1 - read.length) 0)
  else .error .outOfBounds

/-! ## Words -/

def skipBlanks (str : List Byte) : List Byte := str.dropWhile isspace

/-- A word and what follows it; `room` bytes are left at the destination. -/
def strcpyword : ℕ → List Byte → Except Fault (List Byte × List Byte)
  | 0, _ => .error .outOfBounds
  | _ + 1, [] => .error .pastTerminator
  | room + 1, b :: src =>
    if isspace b then .ok ([], b :: src)
    else do
      let (word, rest) ← strcpyword room src
      .ok (b :: word, rest)

def parseEntry (token str : List Byte) : Except Fault (List Byte × List Byte) := do
  let (word, rest) ← strcpyword maxEntryStringSize (skipBlanks (str.drop token.length))
  .ok (word, skipBlanks rest)

/-! ## Interfaces -/

inductive Entry
  | name
  | ignored
  | address
  | groups
  | number
  | flag
  deriving DecidableEq

/-- The entries, in the order in which they are looked for. -/
def entries : List (List Byte × Entry) :=
  [(text ['n', 'a', 'm', 'e', ':'], .name),
    (text ['e', 'n', 'c', 'a', 'p', ':'], .ignored),
    (text ['H', 'W', 'a', 'd', 'd', 'r', ':'], .ignored),
    (text ['i', 'n', 'e', 't', '_', 'a', 'd', 'd', 'r', ':'], .address),
    (text ['B', 'c', 'a', 's', 't', ':'], .ignored),
    (text ['M', 'a', 's', 'k', ':'], .address),
    (text ['G', 'r', 'o', 'u', 'p', 's', ':'], .groups),
    (text ['M', 'T', 'U', ':'], .number),
    (text ['M', 'e', 't', 'r', 'i', 'c', ':'], .number),
    (text ['B', 'R', 'O', 'A', 'D', 'C', 'A', 'S', 'T'], .flag),
    (text ['M', 'U', 'L', 'T', 'I', 'C', 'A', 'S', 'T'], .flag),
    (text ['P', 'O', 'I', 'N', 'T', 'T', 'O', 'P', 'O', 'I', 'N', 'T'], .flag)]

def Entry.usesInterface : Entry → Bool
  | .name | .ignored => false
  | .address | .groups | .number | .flag => true

variable (env : Env)

/-- The interface after the entry, if the word is accepted. -/
def Entry.result (ie : Option ℕ) (word : List Byte) : Entry → Option (Option ℕ)
  | .name => (env.getInterfaceByName word).map some
  | .address => if env.isWellFormed word then some ie else none
  | .groups =>
    if ((word.splitOn 58).filter (· ≠ [])).all env.isWellFormed then some ie else none
  | .ignored | .number | .flag => some ie

def interfaceEntry (ie : Option ℕ) (token : List Byte) (entry : Entry) (str : List Byte) :
    Except Fault (Option ℕ × List Byte) :=
  if entry.usesInterface ∧ ie = none then .error .noInterface
  else if entry = .flag then .ok (ie, skipBlanks (str.drop token.length))
  else do
    let (word, rest) ← parseEntry token str
    match entry.result env ie word with
    | none => .error .runtimeError
    | some ie => .ok (ie, rest)

def findEntry (str : List Byte) : Option (List Byte × Entry) := entries.find? fun e ↦ e.1.isPrefixOf str

def interfaceStep (x : Option ℕ × List Byte) : Except Fault ((Option ℕ × List Byte) ⊕ Unit) :=
  match x.2 with
  | [] => .ok (.inr ())
  | _ :: tail =>
    match findEntry x.2 with
    | none => .ok (.inl (x.1, tail))
    | some (token, entry) => do
      let next ← interfaceEntry env x.1 token entry x.2
      .ok (.inl next)

def parseInterfaces (ifconfigFile : List Byte) : Except Fault Unit :=
  loop .endlessLoop (interfaceStep env) (ifconfigFile.length + 1) (none, ifconfigFile)

/-! ## Routes -/

def hostColumn (word : List Byte) : Bool :=
  word == text ['d', 'e', 'f', 'a', 'u', 'l', 't', ':'] || env.isWellFormed word

def gatewayColumn (word : List Byte) : Bool :=
  word == text ['*'] || word == text ['0', '.', '0', '.', '0', '.', '0'] || env.isWellFormed word

def flagsColumn (word : List Byte) : Bool := word.all fun b ↦ b == 72 || b == 71

/-- A metric of 0 has to start with a zero. -/
def metricColumn (word : List Byte) : Bool := env.atoi word != 0 || word.headD 0 == 48

def routeColumns : List (List Byte → Bool) :=
  [hostColumn env, gatewayColumn env, env.isWellFormed, flagsColumn, metricColumn env,
    fun word ↦ (env.getInterfaceByName word).isSome]

/-- Words that are accepted one after the other. -/
def parseColumns : List (List Byte → Bool) → List Byte → Except Fault (List (List Byte) × List Byte)
  | [], str => .ok ([], str)
  | accepts :: columns, str => do
    let (word, rest) ← strcpyword maxEntryStringSize str
    if accepts word then do
      let (words, rest) ← parseColumns columns (skipBlanks rest)
      .ok (word :: words, rest)
    else .error .runtimeError

def routeStep (str : List Byte) : Except Fault (List Byte ⊕ Unit) :=
  if str = [] then .ok (.inr ())
  else do
    let (words, rest) ← parseColumns (routeColumns env) str
    if env.addRoute words then .ok (.inl rest) else .error .runtimeError

def parseRouting (routeFile : List Byte) : Except Fault Unit :=
  if routeFile.length < routeStartToken.length then .error .pastTerminator
  else
    let str := skipBlanks (routeFile.drop routeStartToken.length)
    loop .endlessLoop (routeStep env) (str.length + 1) str

/-! ## The whole file -/

/-- The bytes before the terminator, which may have come with the file. -/
def stringOf (array : List Byte) : List Byte := array.takeWhile (· != 0)

def readRoutingTableFromFile (content : List Byte) : Except Fault Unit := do
  let file ← readFile content
  let scan ← loop .endlessLoop scanStep (file.length + 1) { atLineStart := true, file }
  scan.ifconfigFile.forM fun ifconfigFile ↦ parseInterfaces env (stringOf ifconfigFile)
  scan.routeFile.forM fun routeFile ↦ parseRouting env (stringOf routeFile)

end InetManet.RoutingTableParser
