import Filehost.Ip.Text

namespace Filehost.Blacklist

open Filehost.Ip

/-! # Reading a blacklist

The list is any text.  Addresses are found in it by a regular expression, which
is matched here from each place on; what it matches need not be an address. -/

structure IpRangeEntry where
  start : IpAddr
  stop : IpAddr
deriving DecidableEq

/-- `\d{1,limit}`, where `isDigit` is the class of decimal digits of any script. -/
def matchDigits (isDigit : Char → Bool) (limit : Nat) (text : List Char) :
    Option (List Char × List Char) :=
  let digits := (text.takeWhile isDigit).take limit
  if digits = [] then none else some (digits, text.drop digits.length)

/-- What the groups capture. -/
structure Capture where
  address : List Char
  prefixLength : Option (List Char)

def Capture.length (capture : Capture) : Nat :=
  capture.address.length + capture.prefixLength.elim 0 fun digits => digits.length + 1

/-- The expression from the start of the text on.  Giving digits back never
helps: a dot or the end of the match follows them. -/
def matchRange (isDigit : Char → Bool) (text : List Char) : Option Capture := do
  let (a, text) ← matchDigits isDigit 3 text
  let text ← readGivenChar '.' text
  let (b, text) ← matchDigits isDigit 3 text
  let text ← readGivenChar '.' text
  let (c, text) ← matchDigits isDigit 3 text
  let text ← readGivenChar '.' text
  let (d, text) ← matchDigits isDigit 3 text
  let prefixLength := do
    let text ← readGivenChar '/' text
    let (digits, _) ← matchDigits isDigit 2 text
    return digits
  return ⟨a ++ '.' :: (b ++ '.' :: (c ++ '.' :: d)), prefixLength⟩

/-- `captures_iter`: matches from left to right that do not overlap.  `skip`
counts the characters that belong to the last match. -/
def capturesFrom (isDigit : Char → Bool) : Nat → List Char → List Capture
  | _, [] => []
  | skip + 1, _ :: rest => capturesFrom isDigit skip rest
  | 0, char :: rest =>
      match matchRange isDigit (char :: rest) with
      | some capture => capture :: capturesFrom isDigit (capture.length - 1) rest
      | none => capturesFrom isDigit 0 rest

/-- `str::parse::<u8>` of a text without a sign. -/
def parseU8 (text : List Char) : Option Nat :=
  if text = [] ∨ text.any (fun char => (toDigit 10 char).isNone) then none
  else
    let value := text.foldl (fun result char => result * 10 + (toDigit 10 char).getD 0) 0
    if 255 < value then none else some value

def cidrRange (address : BitVec 32) (prefixLength : Nat) : BitVec 32 × BitVec 32 :=
  match cidrBounds (address.setWidth 128) prefixLength 32 with
  | some (start, stop) => (start.setWidth 32, stop.setWidth 32)
  | none => (address, address)

def Capture.entry (capture : Capture) : Option IpRangeEntry :=
  match readIpv4Addr capture.address with
  | some (address, []) =>
      match capture.prefixLength with
      | none => some ⟨.v4 (.ofBits address.toBits), .v4 (.ofBits address.toBits)⟩
      | some digits => do
          let prefixLength ← parseU8 digits
          if 32 < prefixLength then none
          else
            let (start, stop) := cidrRange address.toBits prefixLength
            return ⟨.v4 (.ofBits start), .v4 (.ofBits stop)⟩
  | _ => none

def parseBody (isDigit : Char → Bool) (body : List Char) : List IpRangeEntry :=
  (capturesFrom isDigit 0 body).filterMap Capture.entry

example : parseBody Char.isDigit "217.60.250.0/24 ; SBL694808".toList =
    [⟨.v4 (.new 217 60 250 0), .v4 (.new 217 60 250 255)⟩] := by decide +kernel

example : parseBody Char.isDigit "999.0.0.1\n10.0.0.1 10.0.0.0/33 1.2.3.2557".toList =
    [⟨.v4 (.new 10 0 0 1), .v4 (.new 10 0 0 1)⟩, ⟨.v4 (.new 1 2 3 255), .v4 (.new 1 2 3 255)⟩] := by
  decide +kernel

end Filehost.Blacklist
