import Filehost.Ip.Address

namespace Filehost.Ip

/-! The textual form of addresses, as `str::parse::<IpAddr>` of the standard
library reads it: a cursor over the text, each reader either consuming a
prefix or leaving the cursor where it was. -/

def toDigit (radix : Nat) (char : Char) : Option Nat :=
  let digit :=
    if '0' ≤ char ∧ char ≤ '9' then char.toNat - '0'.toNat
    else if 'a' ≤ char ∧ char ≤ 'z' then char.toNat - 'a'.toNat + 10
    else if 'A' ≤ char ∧ char ≤ 'Z' then char.toNat - 'A'.toNat + 10
    else radix
  if digit < radix then some digit else none

/-- Consumes the longest run of digits.  More than `maxDigits` of them, or a
value beyond `limit`, makes the whole number unreadable. -/
def readNumber (radix maxDigits limit : Nat) (allowZeroPrefix : Bool) (text : List Char) :
    Option (Nat × List Char) :=
  let digits := text.takeWhile fun char => (toDigit radix char).isSome
  let value := digits.foldl (fun result char => result * radix + (toDigit radix char).getD 0) 0
  if digits = [] ∨ maxDigits < digits.length ∨ limit < value then none
  else if !allowZeroPrefix && digits.head? == some '0' && decide (1 < digits.length) then none
  else some (value, text.drop digits.length)

def readGivenChar (expected : Char) : List Char → Option (List Char)
  | char :: rest => if char = expected then some rest else none
  | [] => none

def readSeparator (separator : Char) (first : Bool) (inner : List Char → Option (β × List Char))
    (text : List Char) : Option (β × List Char) :=
  if first then inner text
  else (readGivenChar separator text).bind inner

def readOctet (text : List Char) : Option (UInt8 × List Char) :=
  (readNumber 10 3 255 false text).map fun (value, rest) => (UInt8.ofNat value, rest)

def readIpv4Addr (text : List Char) : Option (Ipv4Addr × List Char) := do
  let (a, text) ← readSeparator '.' true readOctet text
  let (b, text) ← readSeparator '.' false readOctet text
  let (c, text) ← readSeparator '.' false readOctet text
  let (d, text) ← readSeparator '.' false readOctet text
  return (.new a b c d, text)

def readGroup (text : List Char) : Option (List UInt8 × List Char) :=
  (readNumber 16 4 0xffff true text).map fun (value, rest) =>
    ([UInt8.ofNat (value / 256), UInt8.ofNat value], rest)

/-- Reads up to `remaining` groups as octet pairs and says whether the last
two of them came from an embedded IPv4 address. -/
def readGroups : (remaining : Nat) → (first : Bool) → List Char → List UInt8 × Bool × List Char
  | 0, _, text => ([], false, text)
  | remaining + 1, first, text =>
      let embedded :=
        if 0 < remaining then readSeparator ':' first readIpv4Addr text else none
      match embedded with
      | some (address, rest) => (address.octets, true, rest)
      | none =>
          match readSeparator ':' first readGroup text with
          | some (group, rest) =>
              let (more, ipv4, rest) := readGroups remaining false rest
              (group ++ more, ipv4, rest)
          | none => ([], false, text)

def readIpv6Addr (text : List Char) : Option (Ipv6Addr × List Char) :=
  let (head, headIpv4, rest) := readGroups 8 true text
  if size : head.length = 16 then some (⟨head, size⟩, rest)
  -- an embedded IPv4 address is not allowed before `::`
  else if headIpv4 then none
  else do
    let rest ← readGivenChar ':' rest
    let rest ← readGivenChar ':' rest
    -- `::` stands for at least one group of zeroes
    let (tail, _, rest) := readGroups (8 - (head.length / 2 + 1)) true rest
    let octets := head ++ List.replicate (16 - head.length - tail.length) 0 ++ tail
    if size : octets.length = 16 then some (⟨octets, size⟩, rest) else none

def parseIpAddr (text : List Char) : Option IpAddr :=
  match (readIpv4Addr text).map (fun (address, rest) => (IpAddr.v4 address, rest)) |>.orElse
      (fun _ => (readIpv6Addr text).map fun (address, rest) => (IpAddr.v6 address, rest)) with
  | some (address, []) => some address
  | _ => none

end Filehost.Ip
