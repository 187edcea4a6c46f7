import Filehost.Data.PercentEncoding

namespace Filehost.Data.Utf8Lossy

/-! # Bytes read as text, valid or not

A run of bytes that begins a character and cannot be continued to one is replaced by U+FFFD,
and so is a byte that no character starts with. -/

def replacement : Char := '\uFFFD'

structure ByteRange where
  low : UInt8
  high : UInt8

def ByteRange.has (range : ByteRange) (byte : UInt8) : Bool :=
  range.low ≤ byte && byte ≤ range.high

def continuation : ByteRange := ⟨0x80, 0xBF⟩

/-- What may follow the first byte of a character. -/
def followers (lead : UInt8) : Option (List ByteRange) :=
  if lead ≤ 0x7F then some []
  else if lead < 0xC2 then none
  else if lead ≤ 0xDF then some [continuation]
  else if lead = 0xE0 then some [⟨0xA0, 0xBF⟩, continuation]
  else if lead = 0xED then some [⟨0x80, 0x9F⟩, continuation]
  else if lead ≤ 0xEF then some [continuation, continuation]
  else if lead = 0xF0 then some [⟨0x90, 0xBF⟩, continuation, continuation]
  else if lead ≤ 0xF3 then some [continuation, continuation, continuation]
  else if lead = 0xF4 then some [⟨0x80, 0x8F⟩, continuation, continuation]
  else none

/-- The bytes read of a character and what has to follow them. -/
structure Pending where
  read : List UInt8
  expected : List ByteRange

def Pending.empty : Pending := ⟨[], []⟩

def character (bytes : List UInt8) : List Char :=
  (PercentEncoding.utf8Text bytes).getD [replacement]

def start (byte : UInt8) : List Char × Pending :=
  match followers byte with
  | none => ([replacement], .empty)
  | some [] => (character [byte], .empty)
  | some expected => ([], ⟨[byte], expected⟩)

def Pending.step (pending : Pending) (byte : UInt8) : List Char × Pending :=
  match pending.expected with
  | [] => start byte
  | range :: expected =>
      if range.has byte then
        if expected.isEmpty then (character (pending.read ++ [byte]), .empty)
        else ([], ⟨pending.read ++ [byte], expected⟩)
      else
        let (text, pending) := start byte
        (replacement :: text, pending)

def decodeFrom (pending : Pending) : List UInt8 → List Char
  | [] => if pending.read.isEmpty then [] else [replacement]
  | byte :: bytes =>
      let (text, pending) := pending.step byte
      text ++ decodeFrom pending bytes

def decode (bytes : List UInt8) : List Char := decodeFrom .empty bytes

end Filehost.Data.Utf8Lossy
