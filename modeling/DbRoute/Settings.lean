import DbRoute.Host
import DbRoute.Text

/-!
# Settings

The properties that routing reads, with their defaults and their numbers. A
number may have blanks around it; a port has 16 bits and a count of hosts 64.
-/

namespace DbRoute.Properties

def maxPort : Nat := 0xFFFF

def maxCount : Nat := 0xFFFFFFFFFFFFFFFF

/-- The value of a numeral with blanks around it. -/
def number? (bound : Nat) (raw : String) : Option Nat :=
  Text.numeralUpTo? bound (Text.trim raw.toList)

def hostCount (p : Properties) : Except Fault Nat :=
  match p.get? Key.hostCount with
  | none => .error .hostCountMissing
  | some raw =>
      match number? maxCount raw with
      | some n => .ok n
      | none => .error (.hostCountInvalid raw)

def host (p : Properties) : String := (p.get? Key.host).getD defaultHost

def port (p : Properties) : Except Fault Nat :=
  match p.get? Key.port with
  | none => .ok defaultPort
  | some raw =>
      match number? maxPort raw with
      | some n => .ok n
      | none => .error (.portInvalid raw)

def database? (p : Properties) : Option String := p.get? Key.database

def indexedHost? (p : Properties) (n : Nat) : Option String := p.get? (Key.indexedHost n)

def indexedPort? (p : Properties) (n : Nat) : Option String := p.get? (Key.indexedPort n)

/-- What stands for a host or port that is missing. -/
def missing := "null"

def hostPort (p : Properties) (n : Nat) : String :=
  (p.indexedHost? n).getD missing ++ ":" ++ (p.indexedPort? n).getD missing

/-- The first `count` hosts with their ports. -/
def hostPorts (p : Properties) (count : Nat) : List String :=
  (List.range count).map fun i => p.hostPort (i + 1)

/-- One property as text; a password is masked. -/
def shownPair (pair : Pair) : String :=
  pair.1 ++ "=" ++ if pair.1 = Key.password then "****" else pair.2

def text (p : Properties) : String :=
  "\x7b" ++ String.intercalate ", " (p.pairs.map shownPair) ++ "\x7d"

end DbRoute.Properties
