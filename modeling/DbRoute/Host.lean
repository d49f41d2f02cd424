import DbRoute.Fault
import DbRoute.Text

/-!
# Hosts

A host is written plainly, as a name with perhaps a colon and a port behind
it, or as a descriptor, a list of attributes in parentheses:

    address=(host=db1)(port=3307)(type=master)

A plain host without a name stands for the local one, and one without a port
for the usual port. A descriptor is kept as it is written; the attributes are
read from it, their values without quotation marks.
-/

namespace DbRoute

def defaultHost := "localhost"

def defaultPort : Nat := 3306

structure Host where
  /-- The name of a plain host, the whole text of a descriptor. -/
  name : String
  /-- The port as it is written, or the usual one. -/
  port : String
  /-- The attributes of a descriptor; a plain host has none. -/
  attributes : Option Properties
  deriving DecidableEq

namespace Host

/-- The text that opens a descriptor. -/
def descriptorMark := "address="

/-- The attribute that names the role of a host in replication. -/
def roleKey := "type"

def plain (name port : String) : Host := ⟨name, port, none⟩

def localhost : Host := plain defaultHost (toString defaultPort)

def isDescriptor (h : Host) : Bool := h.attributes.isSome

def role? (h : Host) : Option String :=
  h.attributes.bind (·.get? roleKey)

/-- The host and its port, with a colon between them. -/
def text (h : Host) : String := h.name ++ ":" ++ h.port

def isDescriptorText (s : List Char) : Bool :=
  Text.startsIgnoringCase s descriptorMark.toList

/-- The name and the port in a host token, split at the first colon. A
descriptor has no port of its own, and the blanks around it do not count. -/
def splitPort (token : String) : Except Fault (String × Option String) :=
  let s := token.toList
  if isDescriptorText (Text.trimStart s) then .ok (String.ofList (Text.trim s), none)
  else
    match s.span (· != ':') with
    | (_, []) => .ok (token, none)
    | (_, [_]) => .error (.danglingPort token)
    | (name, _ :: port) => .ok (String.ofList name, some (String.ofList port))

def capitalKeys : List String := ["host", "dbname", "port", "protocol", "path"]

def smallKeys : List String := ["user", "password"]

/-- Keys of the address are written in capitals and keys of the credentials in
small letters, whatever their case in the descriptor; other keys stay. -/
def keyForm (key : List Char) : List Char :=
  let isOneOf (names : List String) := names.any fun n => Text.sameIgnoringCase n.toList key
  if isOneOf capitalKeys then key.map Char.toUpper
  else if isOneOf smallKeys then key.map Char.toLower
  else key

/-- The attribute in one pair of parentheses, the closing one cut off; none if
it has no value. -/
def attribute? (group : List Char) : Option Pair :=
  let inner := match group with
    | '(' :: rest => rest
    | _ => group
  match Text.trimmedTokens '=' inner with
  | key :: value :: _ =>
      some (String.ofList (keyForm key), String.ofList (Text.withoutMarks value))
  | _ => none

/-- The text of a descriptor behind its mark and the parenthesis that opens the
first attribute. -/
def descriptorBody (s : List Char) : List Char :=
  match Text.cutAt? (Text.byteSize descriptorMark.toList + 1) s with
  | some (_, body) => body
  | none => []

/-- The attributes of a descriptor, in order; a text that is no descriptor has none. -/
def attributesOf (s : List Char) : Properties :=
  if isDescriptorText s then
    .ofList ((Text.trimmedTokens ')' (descriptorBody s)).filterMap attribute?)
  else ∅

/-- Whether a descriptor says that its host is a master. -/
def isMasterText (s : List Char) : Bool :=
  match (attributesOf s).get? roleKey with
  | some role => Text.sameIgnoringCase role.toList "master".toList
  | none => false

/-- The host that a token stands for. -/
def ofToken (token : String) : Except Fault Host := do
  let (name, port?) ← splitPort token
  let s := name.toList
  return {
    name := if Text.allBlank s then defaultHost else name
    port := port?.getD (toString defaultPort)
    attributes := if isDescriptorText s then some (attributesOf s) else none }

/-- The hosts of a list with commas between them. A blank list stands for the local host. -/
def readList (segment : String) : Except Fault (List Host) :=
  let s := segment.toList
  if Text.allBlank s then .ok [localhost]
  else (Text.tokens ',' s).mapM fun token => ofToken (String.ofList token)

end Host

end DbRoute
