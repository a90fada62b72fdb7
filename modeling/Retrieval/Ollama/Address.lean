/-
# Retrieval.Ollama.Address -- where a post goes

The address of a post names a host and what is asked for there, the target.  In
the target a step `.` goes nowhere and a step `..` goes back, but not over the name
of a drive; a character that cannot be sent as it is is sent as its octets, and what
follows a number sign is not sent.

Control characters and blanks around an address do not count, and tabs and line ends
do not count anywhere.  A backslash counts as a slash.
-/
import Retrieval.Ollama.Host

namespace Retrieval

set_option autoImplicit false

namespace Ollama

/-- The host and port of an address, and the target there. -/
structure Address where
  host : String
  port : Nat
  target : String
  deriving DecidableEq, Repr

namespace Address

/-! ## Targets -/

/-- A character that is sent as it is: in a path, or behind its question mark. -/
def isSent (inQuery : Bool) (c : Char) : Bool :=
  '!' ≤ c && c ≤ '~' && c ≠ '"' && c ≠ '<' && c ≠ '>' && c ≠ '#' &&
    (if inQuery then c ≠ '\'' else c ≠ '\x60' && c ≠ '{' && c ≠ '}')

def octetText (b : UInt8) : List Char :=
  let digits := (Nat.toDigits 16 b.toNat).map Char.toUpper
  '%' :: List.replicate (2 - digits.length) '0' ++ digits

def sent (inQuery : Bool) (text : List Char) : List Char :=
  text.flatMap fun c => if isSent inQuery c then [c] else (Bytes.ofText [c]).flatMap octetText

def steps : List Char → List (List Char)
  | [] => [[]]
  | c :: rest =>
      if c = '/' ∨ c = '\\' then [] :: steps rest
      else
        match steps rest with
        | [] => [[c]]
        | step :: more => (c :: step) :: more

/-- The step with its points as such; a point may be written as an octet. -/
def plainPoints : List Char → List Char
  | '%' :: '2' :: c :: rest =>
      if c = 'e' ∨ c = 'E' then '.' :: plainPoints rest else '%' :: '2' :: c :: plainPoints rest
  | c :: rest => c :: plainPoints rest
  | [] => []

def staysHere (step : List Char) : Bool := plainPoints step = ['.']

def goesBack (step : List Char) : Bool := plainPoints step = ['.', '.']

/-- The name of a drive, a letter with a colon or a bar. -/
def isDrive : List Char → Bool
  | [letter, mark] => letter.isAlpha && (mark = ':' || mark = '|')
  | _ => false

/-- What is left behind after going back. -/
def back : List (List Char) → List (List Char)
  | [] => []
  | step :: behind => if isDrive step then step :: behind else behind

/-- The steps that are left of a path; those behind come first. -/
def walk (behind : List (List Char)) : List (List Char) → List (List Char)
  | [] => behind.reverse
  | [step] =>
      if staysHere step then ([] :: behind).reverse
      else if goesBack step then ([] :: back behind).reverse
      else (step :: behind).reverse
  | step :: rest =>
      if staysHere step then walk behind rest
      else if goesBack step then walk (back behind) rest
      else walk (step :: behind) rest

/-- The target of a path and a query, as written behind the host. -/
def targetOf (text : List Char) : List Char :=
  let text := text.takeWhile fun c => c ≠ '#'
  let path := text.takeWhile fun c => c ≠ '?'
  let query := text.drop path.length
  let kept := walk [] (steps (path.drop 1))
  let shown := kept.flatMap fun step => '/' :: sent false step
  shown ++ sent true query

/-! ## Addresses -/

/-- How an address starts, in either case. -/
def scheme : String := "http:"

def defaultPort : Nat := 80

/-- An address without the characters that do not count. -/
def counted (url : List Char) : List Char :=
  let trimmed := ((url.dropWhile (· ≤ ' ')).reverse.dropWhile (· ≤ ' ')).reverse
  trimmed.filter fun c => c ≠ '\t' && c ≠ '\n' && c ≠ '\r'

/-- A character that ends the name of the host and what belongs to it. -/
def endsAuthority (c : Char) : Bool := c = '/' || c = '\\' || c = '?' || c = '#'

/-- What is behind the last sign that separates a user from a host. -/
def withoutUser (authority : List Char) : List Char :=
  (authority.reverse.takeWhile fun c => c ≠ '@').reverse

/-- A host as written and what is behind it; a colon in square brackets belongs to the
host. -/
def spanHost (inside : Bool) : List Char → List Char × List Char
  | [] => ([], [])
  | c :: rest =>
      if c = ':' && !inside then ([], c :: rest)
      else
        let (host, behind) := spanHost (c = '[' || (inside && c ≠ ']')) rest
        (c :: host, behind)

/-- The number of the port in what is behind a host. -/
def port? : List Char → Option Nat
  | [] | [_] => some defaultPort
  | _ :: digits =>
      (Text.number? 10 digits).bind fun port => if port < UInt16.size then some port else none

/-- The parts of an address, if it is one. -/
def ofUrl? (url : String) : Option Address := do
  let text := counted url.toList
  let start := text.take scheme.length
  if start.map Char.toLower ≠ scheme.toList then none
  else
    let text := (text.drop scheme.length).dropWhile fun c => c = '/' || c = '\\'
    let authority := text.takeWhile fun c => !endsAuthority c
    let (host, behind) := spanHost false (withoutUser authority)
    return {
      host := ← Host.read? host
      port := ← port? behind
      target := String.ofList (targetOf (text.drop authority.length)) }

end Address

end Ollama

end Retrieval
